/-
What the DLT backend sends among other backends.

A log context has several backends, and each is meant to do what it would
do alone. For the DLT that is almost so. A message that the DLT does not
want takes a number from the counter of its context all the same, when
another backend wants it, so the messages sent later have other numbers
than they would have alone.

# Without the numbers

The counter is all there is to it. The numbers are taken out of the
contexts, of the messages and of the frames (`uncounted`), and then it is
shown of one operation after the other that what it does without the
numbers is what it does with them, without the numbers: of the writers of a
message, of what is sent on the connection, of the reader. `List.foldl_hom`
carries it through the loops.

# The backend without numbers

`uncountedContextClass` is the backend with an `init` that takes no number.
It is a component of the real one (`uncount`), and the real one simulates
it (`recount`); in both directions every operation is one of the equations
above. A message that is not wanted does nothing at all to it
(`uncountedContextClass_idle`), and that is what a backend needs to do the
same alone and among others.

So the connections to the daemon and the frames written on them are those
of a process that logs to the DLT only, but for the numbers
(`frames_alone`).
-/
import IviLogging.DltCpp.Proofs.Grammar
import IviLogging.DltCpp.Proofs.LogData
import IviLogging.Proofs.ContextTypes

namespace IviLogging.DltCpp

open DltConstants

-- ======================================================= without the numbers

/-- A context without its number. -/
def DltCppContext.uncounted (context : DltCppContext) : DltCppContext :=
  { context with messageCount := 0 }

/-- A message without its number. -/
def LogData.uncounted (d : LogData) : LogData := { d with messageCount := 0 }

/-- A frame without its number. -/
def Frame.uncounted : Frame → Frame
  | .sendLog userHeader standardheader headerextra extendedheader payload =>
      .sendLog userHeader { standardheader with mcnt := 0 } headerextra
        extendedheader payload
  | frame => frame

/-- What was written, without the number. -/
def Sent.uncounted (x : Sent) : Sent := { x with frame := x.frame.uncounted }

/-- A connection without the numbers. -/
def Connection.uncounted (x : Connection) : Connection where
  written := x.written.map Sent.uncounted
  failed := x.failed.map Frame.uncounted

/-- The connection to the daemon without the numbers. -/
def DaemonConnection.uncounted (s : DaemonConnection) : DaemonConnection :=
  { s with
    daemon := s.daemon.map Connection.uncounted
    closed := s.closed.map Connection.uncounted
    object := fun c => (s.object c).uncounted }

/-- The backend as it is when messages have no number: a message is begun
without taking one from its context. Everything else is as it is. -/
def uncountedContextClass [DltConstants] (env : Environment) :
    BackendType NativeValue Moment Command :=
  { dltCppContextClass env with
    init := fun s c info created =>
      some (s, LogData.fresh created.message c info
        (DltCppContext.getDLTLogLevel info.level)
        ((s.object c).isEnabled info.level) 0) }

-- ============================================================== the messages

namespace LogData

/-- What is copied into a message hangs on the bytes and the room only. -/
theorem uncounted_writeBuffer (d : LogData) (v : List UInt8) :
    (d.writeBuffer v).uncounted = d.uncounted.writeBuffer v :=
  apply_ite uncounted _ _ _

theorem uncounted_writeType (d : LogData) (type : UInt32) :
    (d.writeType type).uncounted = d.uncounted.writeType type := by
  rw [writeType, writeType, ← uncounted_writeBuffer]
  rfl

variable [DltConstants]

theorem uncounted_addMessageTooLargeIndication (d : LogData) :
    d.addMessageTooLargeIndication.uncounted
      = d.uncounted.addMessageTooLargeIndication :=
  apply_ite uncounted _ _ _

/-- The check may close the message, and answers the same. -/
theorem uncounted_checkOverflow (d : LogData) (n : Nat) :
    (d.checkOverflow n).1.uncounted = (d.uncounted.checkOverflow n).1
      ∧ (d.checkOverflow n).2 = (d.uncounted.checkOverflow n).2 := by
  have hfirst : (d.checkOverflow n).1.uncounted
      = (d.uncounted.checkOverflow n).1 :=
    (apply_ite uncounted _ _ _).trans
      (if_congr Iff.rfl (uncounted_addMessageTooLargeIndication d) rfl)
  -- the answer is whether the message it leaves is full
  have hsecond : (!(d.checkOverflow n).1.uncounted.isFull)
      = !(d.uncounted.checkOverflow n).1.isFull := by
    rw [hfirst]
  exact ⟨hfirst, hsecond⟩

theorem uncounted_writeWithTypeInfo (d : LogData) (type : UInt32)
    (value : List UInt8) :
    (d.writeWithTypeInfo type value).uncounted
      = d.uncounted.writeWithTypeInfo type value := by
  obtain ⟨hfirst, hsecond⟩ :=
    uncounted_checkOverflow d (value.length + sizeofDltTypeInfo)
  unfold writeWithTypeInfo
  dsimp only
  rw [apply_ite uncounted, uncounted_writeBuffer, uncounted_writeType, hfirst,
    hsecond]

/-- The room that is left is the same, and so is where the text is cut. -/
theorem uncounted_writeString (d : LogData) (v : List UInt8) :
    (d.writeString v).uncounted = d.uncounted.writeString v := by
  have hspace : ∀ n, d.uncounted.getAvailableSpace n = d.getAvailableSpace n :=
    fun _ => rfl
  unfold writeString
  simp only [apply_ite uncounted, uncounted_addMessageTooLargeIndication,
    uncounted_writeBuffer, uncounted_writeType, hspace]

theorem uncounted_writeFormatted (d : LogData)
    (text : Option FormattedText) :
    (d.writeFormatted text).uncounted = d.uncounted.writeFormatted text := by
  have hspace : ∀ n, d.uncounted.getAvailableSpace n = d.getAvailableSpace n :=
    fun _ => rfl
  have htype := uncounted_writeType d (dltTypeInfoStrg ||| dltScodUtf8)
  unfold writeFormatted
  simp only [hspace]
  by_cases hroom : 0 < d.getAvailableSpace
      (sizeofDltStringLengthType + sizeofDltTypeInfo + 1)
  · simp only [hroom, if_true]
    rw [apply_ite uncounted, uncounted_addMessageTooLargeIndication, ← htype]
    rfl
  · simp only [hroom, if_false, if_true]
    exact uncounted_addMessageTooLargeIndication d

/-- A write call does to a message without its number what it does to the
message. -/
theorem uncounted_call (d : LogData) (c : WriteCall) :
    (d.call c).uncounted = d.uncounted.call c := by
  cases c with
  | bool v => exact uncounted_writeWithTypeInfo d _ _
  | float bits => exact uncounted_writeWithTypeInfo d _ _
  | double bits => exact uncounted_writeWithTypeInfo d _ _
  | uint64 v => exact uncounted_writeWithTypeInfo d _ _
  | int64 v => exact uncounted_writeWithTypeInfo d _ _
  | uint32 v => exact uncounted_writeWithTypeInfo d _ _
  | int32 v => exact uncounted_writeWithTypeInfo d _ _
  | uint16 v => exact uncounted_writeWithTypeInfo d _ _
  | int16 v => exact uncounted_writeWithTypeInfo d _ _
  | uint8 v => exact uncounted_writeWithTypeInfo d _ _
  | int8 v => exact uncounted_writeWithTypeInfo d _ _
  | string v => exact uncounted_writeString d v
  | cString v => exact uncounted_writeString d _
  | formatted text => exact uncounted_writeFormatted d _
  | setHexEnabled enabled => rfl

/-- The trailer is a list of calls. -/
theorem uncounted_writeTrailer (d : LogData) (base : LogContextBase)
    (thread : ThreadInformation) :
    (d.writeTrailer base thread).uncounted
      = d.uncounted.writeTrailer base thread := by
  have hcalls : ∀ cs : List WriteCall,
      d.uncounted.calls cs = (d.calls cs).uncounted := fun _ =>
    List.foldl_hom uncounted fun d c => (uncounted_call d c).symm
  rw [writeTrailer_eq_calls, writeTrailer_eq_calls, ← hcalls]
  rfl

end LogData

-- ============================================================ the connection

/-- The number takes one byte of the header, whatever it is. -/
theorem Frame.length_uncounted (frame : Frame) :
    frame.uncounted.bytes.length = frame.bytes.length := by
  cases frame with
  | sendLog => simp [uncounted, bytes, DltStandardHeader.bytes]
  | registerApp => rfl
  | registerContext => rfl

namespace DaemonConnection

variable (env : Environment) (s : DaemonConnection)

/-- Whether the daemon is connected does not hang on what was written. -/
theorem isDaemonConnected_uncounted :
    s.uncounted.isDaemonConnected = s.isDaemonConnected :=
  Option.isSome_map

/-- A write to one object. `f` and `g` may be different functions, as one of
them may touch the counter. -/
theorem uncounted_modify (c : ContextId)
    {f g : DltCppContext → DltCppContext}
    (hf : ∀ x, (f x).uncounted = g x.uncounted) :
    (s.modify c f).uncounted = s.uncounted.modify c g := by
  have hobject : (fun c' => ((s.modify c f).object c').uncounted)
      = (s.uncounted.modify c g).object := by
    funext c'
    by_cases hc : c' = c
    · subst hc
      rw [object_modify_self, object_modify_self, hf]
      rfl
    · rw [object_modify_of_ne s c f hc, object_modify_of_ne _ c g hc]
      rfl
  exact congrArg
    (fun object => { s.uncounted with object := object }) hobject

/-- What `writev` answers hangs on the number of writes, and how much of the
frame it takes on the frame's length. -/
theorem uncounted_send (context : Option ContextId) (frame : Frame) :
    (s.send env context frame).uncounted
      = s.uncounted.send env context frame.uncounted := by
  -- no connection, a write that fails, a write that takes some bytes
  cases hdaemon : s.daemon with
  | none => simp [send, uncounted, hdaemon]
  | some connection =>
      cases hwrite : env.writev s.writevs with
      | none =>
          simp [send, uncounted, hdaemon, hwrite, Connection.uncounted]
      | some count =>
          simp [send, uncounted, hdaemon, hwrite, Connection.uncounted,
            Sent.uncounted, Frame.length_uncounted]

theorem uncounted_sendContextRegistration (c : ContextId) :
    (s.sendContextRegistration env c).uncounted
      = s.uncounted.sendContextRegistration env c := by
  rw [sendContextRegistration, uncounted_send,
    uncounted_modify s c (g := assignIds env) fun _ => rfl]
  rfl

theorem uncounted_initDaemonConnection :
    (s.initDaemonConnection env).uncounted
      = s.uncounted.initDaemonConnection env := by
  -- the loop over the registry sends the same frames up to the counters
  have hloop : ∀ (cs : List ContextId) (t : DaemonConnection),
      cs.foldl (sendContextRegistration env) t.uncounted
        = (cs.foldl (sendContextRegistration env) t).uncounted := fun _ _ =>
    List.foldl_hom uncounted fun t c =>
      (t.uncounted_sendContextRegistration env c).symm
  unfold initDaemonConnection
  rw [isDaemonConnected_uncounted, apply_ite uncounted,
    apply_ite uncounted, ← hloop, uncounted_send]
  rfl

theorem uncounted_pushContext (c : ContextId) :
    (s.pushContext c).uncounted = s.uncounted.pushContext c := by
  have hobject : (fun c' => ((s.pushContext c).object c').uncounted)
      = (s.uncounted.pushContext c).object := by
    funext c'
    by_cases hc : c' = c
    · subst hc
      rw [object_pushContext_self, object_pushContext_self]
      rfl
    · rw [object_pushContext_of_ne s hc, object_pushContext_of_ne _ hc]
      rfl
  exact congrArg
    (fun object => { (s.pushContext c).uncounted with object := object })
    hobject

theorem uncounted_registerContext (c : ContextId) :
    (s.registerContext env c).uncounted
      = s.uncounted.registerContext env c := by
  unfold registerContext
  dsimp only
  rw [apply_ite uncounted, uncounted_sendContextRegistration,
    ← uncounted_pushContext, ← uncounted_initDaemonConnection,
    isDaemonConnected_uncounted]

theorem uncounted_sendLog [DltConstants] (uptime : UInt32) (data : LogData) :
    (s.sendLog env uptime data).uncounted
      = s.uncounted.sendLog env uptime data.uncounted := by
  unfold sendLog
  dsimp only
  rw [apply_ite uncounted, uncounted_send,
    ← uncounted_initDaemonConnection, isDaemonConnected_uncounted]
  rfl

theorem uncounted_setActiveLogLevel (c : ContextId) (level : Int) :
    (s.setActiveLogLevel c level).uncounted
      = s.uncounted.setActiveLogLevel c level :=
  uncounted_modify s c fun _ => rfl

theorem uncounted_applyLogLevel (message : DltUserControlMsgLogLevel) :
    s.uncounted.applyLogLevel message
      = (s.applyLogLevel message).map uncounted := by
  unfold applyLogLevel
  rw [show s.uncounted.contexts = s.contexts from rfl]
  split
  · cases s.contexts[vectorIndex message.logLevelPos]? with
    | none => rfl
    | some c => exact congrArg some (s.uncounted_setActiveLogLevel c _).symm
  · rfl

/-- The reader changes levels only, and it reads the bytes that arrived and the
registry, where there are no numbers. -/
theorem uncounted_readerStep (chunk : Chunk) :
    readerStep s.uncounted chunk = (readerStep s chunk).map uncounted := by
  -- one message of the chunk; once the reader has left its buffers, no
  -- message changes anything
  have hmessage : ∀ (o : Option DaemonConnection) (r : Received),
      (o.map uncounted).bind r.apply = (o.bind r.apply).map uncounted := by
    intro o r
    obtain ⟨pattern, message⟩ := r
    cases o with
    | none => rfl
    | some s =>
        cases message with
        | none => rfl
        | some message => exact s.uncounted_applyLogLevel message
  have hall : ∀ (rs : List Received) (o : Option DaemonConnection),
      rs.foldl (fun s r => s.bind r.apply) (o.map uncounted)
        = (rs.foldl (fun s r => s.bind r.apply) o).map uncounted :=
    fun _ _ => List.foldl_hom (Option.map uncounted) hmessage
  rw [readerStep_eq, readerStep_eq]
  exact hall chunk.received (some s)

end DaemonConnection

-- =============================================================== the backend

section Backend

variable [DltConstants] (env : Environment) (s : DaemonConnection)

theorem uncounted_registration (c : ContextId) :
    step env s.uncounted (.registerContext c)
      = (step env s (.registerContext c)).map DaemonConnection.uncounted := by
  unfold step
  rw [apply_ite (Option.map _), Option.map_some, Option.map_none,
    DaemonConnection.uncounted_registerContext]
  rfl

/-- The end of a message: the trailer is written, and the message is sent if it
is wanted. -/
theorem uncounted_destroy (d : LogData) (destroyed : Moment) :
    (dltCppContextClass env).destroy s.uncounted d.uncounted destroyed
      = ((dltCppContextClass env).destroy s d destroyed).map
          DaemonConnection.uncounted := by
  have hsend : ∀ (uptime : UInt32) (d : LogData),
      step env s.uncounted (.sendLog uptime d.uncounted)
        = (step env s (.sendLog uptime d)).map
            DaemonConnection.uncounted := by
    intro uptime d
    unfold step
    rw [apply_ite (Option.map _), Option.map_some, Option.map_none,
      DaemonConnection.uncounted_sendLog]
    rfl
  refine Eq.trans ?_ (apply_ite (Option.map _) _ _ _).symm
  refine if_congr Iff.rfl ?_ rfl
  rw [← LogData.uncounted_writeTrailer]
  exact hsend _ _

theorem uncounted_control (command : Command) :
    (dltCppContextClass env).control s.uncounted command
      = ((dltCppContextClass env).control s command).map
          DaemonConnection.uncounted := by
  cases command with
  | stream event => rfl
  | receive chunk => exact s.uncounted_readerStep chunk
  | setActiveLogLevel c level =>
      exact congrArg some (s.uncounted_setActiveLogLevel c level).symm

/-- The one operation that is different: taking the number changes the counter
and nothing else, so without the counter nothing is changed. -/
theorem uncounted_init (c : ContextId) (info : LogInfo) (created : Moment) :
    (uncountedContextClass env).init s.uncounted c info created
      = ((dltCppContextClass env).init s c info created).map
          fun r => (r.1.uncounted, r.2.uncounted) := by
  have hcount : (s.modify c fun context =>
      { context with messageCount := context.messageCount + 1 }).uncounted
        = s.uncounted := by
    refine (s.uncounted_modify c (g := id) ?_).trans ?_
    · exact fun _ => rfl
    · exact congrArg (fun object => { s.uncounted with object := object })
        (Function.update_eq_self c _)
  refine Eq.trans ?_ (congrArg (fun s => some (s, _)) hcount.symm)
  rfl

theorem uncounted_write (d : LogData) (v : NativeValue) :
    (if d.uncounted.enabled then
        (uncountedContextClass env).write s.uncounted d.uncounted v
      else some d.uncounted)
      = (if d.enabled then (dltCppContextClass env).write s d v
          else some d).map LogData.uncounted := by
  refine Eq.trans ?_ (apply_ite (Option.map _) _ _ _).symm
  exact if_congr Iff.rfl
    (congrArg some (LogData.uncounted_call d v.dltCppCall).symm) rfl

/-- The backend without the numbers is what is left of the one with
them: the component takes the numbers out of its state and its messages. -/
def uncount : Component (.ofList [uncountedContextClass env])
    (.ofList [dltCppContextClass env]) where
  state s := (s.1.uncounted, ())
  data d := (d.1.uncounted, ())
  registerContext {s c s'} h := by
    obtain ⟨s₁, hs₁, heq⟩ := Option.bind_eq_some_iff.mp h
    cases heq
    refine Option.bind_eq_some_iff.mpr ⟨s₁.uncounted, ?_, rfl⟩
    exact (uncounted_registration env s.1 c).trans (congrArg _ hs₁)
  isEnabled h := h
  init {s c info created s' d} h := by
    cases Option.some.inj h
    exact congrArg (fun o => o.bind fun r => some ((r.1, ()), (r.2, ())))
      (uncounted_init env s.1 c info created)
  write {s d v d'} h := by
    obtain ⟨d₁, hd₁, heq⟩ := Option.bind_eq_some_iff.mp h
    cases heq
    refine Option.bind_eq_some_iff.mpr ⟨d₁.uncounted, ?_, rfl⟩
    exact (uncounted_write env s.1 d.1 v).trans (congrArg _ hd₁)
  setHexEnabled _ _ := rfl
  destroy {s d destroyed s'} h := by
    obtain ⟨s₁, hs₁, heq⟩ := Option.bind_eq_some_iff.mp h
    cases heq
    refine Option.bind_eq_some_iff.mpr ⟨s₁.uncounted, ?_, rfl⟩
    exact (uncounted_destroy env s.1 d.1 destroyed).trans (congrArg _ hs₁)
  control {s command s'} h := by
    obtain ⟨s₁, hs₁, heq⟩ := Option.bind_eq_some_iff.mp h
    cases heq
    refine Option.bind_eq_some_iff.mpr ⟨s₁.uncounted, ?_, rfl⟩
    exact (uncounted_control env s.1 command).trans (congrArg _ hs₁)

/-- Without a number, a message that is not wanted does nothing. -/
theorem uncountedContextClass_idle :
    (uncountedContextClass env).Idle fun _ d => d.enabled = false where
  init h hinit := by
    cases hinit
    exact ⟨rfl, h⟩
  dataEnabled h := h
  setHexEnabled _ h := h
  destroy hd hdestroy := by
    cases (if_neg (Bool.eq_false_iff.mp hd)).symm.trans hdestroy
    rfl

/-- What the backend does without the numbers, it does with them. Where the
erased state has a next one so has the state, and it is erased to it: each
operation was shown to do the same before the erasure and behind it. -/
theorem recount :
    Simulation (.ofList [uncountedContextClass env])
      (.ofList [dltCppContextClass env])
      (fun t s => t = ((uncount env).state s))
      (fun e d => e = ((uncount env).data d)) where
  registerContext := by
    rintro t s c t' rfl h
    obtain ⟨t₁, ht₁, heq⟩ := Option.bind_eq_some_iff.mp h
    cases heq
    obtain ⟨s₁, hs₁, rfl⟩ := Option.map_eq_some_iff.mp
      ((uncounted_registration env s.1 c).symm.trans ht₁)
    exact ⟨(s₁, ()), Option.bind_eq_some_iff.mpr ⟨s₁, hs₁, rfl⟩, rfl⟩
  isEnabled := by
    rintro t s rfl c level
    rfl
  init := by
    rintro t s c info created t' e rfl h
    obtain ⟨hs, hd⟩ := Prod.mk.inj (Option.some.inj
      (h.symm.trans ((uncount env).init rfl)))
    exact ⟨_, _, rfl, hs, hd⟩
  write := by
    rintro t s e d v e' rfl rfl h
    obtain ⟨e₁, he₁, heq⟩ := Option.bind_eq_some_iff.mp h
    cases heq
    obtain ⟨d₁, hd₁, rfl⟩ := Option.map_eq_some_iff.mp
      ((uncounted_write env s.1 d.1 v).symm.trans he₁)
    exact ⟨(d₁, ()), Option.bind_eq_some_iff.mpr ⟨d₁, hd₁, rfl⟩, rfl⟩
  setHexEnabled := by
    rintro e d enabled rfl
    rfl
  destroy := by
    rintro t s e d destroyed t' rfl rfl h
    obtain ⟨t₁, ht₁, heq⟩ := Option.bind_eq_some_iff.mp h
    cases heq
    obtain ⟨s₁, hs₁, rfl⟩ := Option.map_eq_some_iff.mp
      ((uncounted_destroy env s.1 d.1 destroyed).symm.trans ht₁)
    exact ⟨(s₁, ()), Option.bind_eq_some_iff.mpr ⟨s₁, hs₁, rfl⟩, rfl⟩
  control := by
    rintro t s command t' rfl h
    obtain ⟨t₁, ht₁, heq⟩ := Option.bind_eq_some_iff.mp h
    cases heq
    obtain ⟨s₁, hs₁, rfl⟩ := Option.map_eq_some_iff.mp
      ((uncounted_control env s.1 command).symm.trans ht₁)
    exact ⟨(s₁, ()), Option.bind_eq_some_iff.mpr ⟨s₁, hs₁, rfl⟩, rfl⟩

/-- The DLT backend registers and sends among others what it registers and
sends alone, but for the numbers of the messages: in a program whose
operands only are values, no other backend makes more of a difference,
unless it ends the process, and then the statements until there do the
same. -/
theorem frames_alone
    (front back : List (BackendType NativeValue Moment Command)) {M : Type}
    {p : List (LogStatement NativeValue Moment Command M)}
    (hplain : ∀ s ∈ p, s.Plain)
    {w w' : World (.ofList (front ++ dltCppContextClass env :: back)) M}
    (hrun : w.execAll p = some w') :
    ∃ q rest, p = q ++ rest ∧ (w'.aborted = false → rest = [])
      ∧ w.execAll q = some w'
      ∧ ∃ v, ((Component.only (dltCppContextClass env) back front).world
          w).execAll q = some v
        ∧ v.state.1.uncounted
          = ((Component.only (dltCppContextClass env) back front).state
              w'.state).1.uncounted := by
  obtain ⟨q, rest, rfl, hwhole, hend, aborted, hq⟩ :=
    ((uncount env).comp (Component.only _ back front)).alone
      (uncountedContextClass_idle env).single hplain hrun
  -- the backend without numbers, alone, has run up to there; the real one
  -- does the same alone
  refine ⟨q, rest, rfl, hwhole, hend, ?_⟩
  obtain ⟨v, hv, hrel⟩ := (recount env).execAll
    (v := (Component.only (dltCppContextClass env) back front).world w)
    ⟨rfl, rfl, rfl, rfl⟩ q hq
  exact ⟨v, hv, (congrArg Prod.fst hrel.state).symm⟩

end Backend

-- ================================================================== a sample

/-- Two of the backends, the first of which wants what the second does
not. -/
def sampleWanted : World (.ofList [
    @dltCppContextClass documentedConstants (sampleEnvironment true),
    @dltCppContextClass documentedConstants (sampleEnvironment true)])
    Unit where
  memory := ()
  registered _ := false
  state :=
    let s := @DaemonConnection.initial documentedConstants
      fun _ => sampleContext
    (s.setActiveLogLevel 0 4, s.setActiveLogLevel 0 0, ())
  aborted := false

theorem frames_alone_sample :
    ∃ w', sampleWanted.execAll sampleProgram = some w'
      ∧ ∃ q rest, sampleProgram = q ++ rest
        ∧ (w'.aborted = false → rest = [])
        ∧ sampleWanted.execAll q = some w'
        ∧ ∃ v, ((Component.only (@dltCppContextClass documentedConstants
            (sampleEnvironment true)) [] [_]).world sampleWanted).execAll q
              = some v
          ∧ v.state.1.uncounted
            = ((Component.only (@dltCppContextClass documentedConstants
                (sampleEnvironment true)) [] [_]).state
                  w'.state).1.uncounted := by
  have hrun : (sampleWanted.execAll sampleProgram).isSome = true := by
    decide
  obtain ⟨w', hw'⟩ := Option.isSome_iff_exists.mp hrun
  refine ⟨w', hw', @frames_alone documentedConstants _ [_] [] _ _ ?_ _ _ hw'⟩
  simp [sampleProgram, LogStatement.Plain, LogOperand.Plain]

end IviLogging.DltCpp
