/-
The headers of the control channel.

# What the loop meets

Every header of the channel starts with a pattern, and
`handleIncomingMessage` never looks at it: what tells the messages apart is
a number behind it. `received` is what the loop of a chunk meets, header
by header, with the pattern that stood there. Which headers these are
depends on the bytes alone and not on any level, so the loop is two things,
one after the other: reading the headers, and applying them. The state
behind the chunk is the fold of their effects (`handleMessages_eq`,
`readerStep_eq`).

# Where the pattern should count

A header without the pattern is none of the daemon's, and what is behind
it cannot be trusted to start at a header either. So from the first such
header on nothing of the chunk should change a level (`GrammarKept`). As
the code goes on, that holds exactly when none of the level messages from
there on would have changed one: `Idle` is the comparison of
`applyLogLevel` that turns a message away, or a level that is set already.
Idle messages leave every level as it was, so that whether the next one is
idle can be asked in the state in which the foreign header was met
(`applyAll_iff`, by induction over the messages), and the condition speaks
of that state and of the bytes only (`grammarKept_iff_foreignIdle`).
-/
import IviLogging.DltCpp.Proofs.Levels

namespace IviLogging.DltCpp

-- ========================================================= the messages

/-- The pattern a `DltUserHeader` is initialised with. -/
def userHeaderPattern : List UInt8 :=
  ({ message := 0 } : DltUserHeader).pattern.bytes

/-- A header the loop meets, and the level message behind it. -/
structure Received where
  pattern : List UInt8
  message : Option DltUserControlMsgLogLevel

/-- What the loop of `handleIncomingMessage` meets from `pMessage` on. -/
def received (memory : Nat → UInt8) (byteCount pMessage : Nat) :
    List Received :=
  if byteCount > pMessage + sizeofDltUserHeader then
    let pattern := load memory pMessage dltIdSize
    let body := pMessage + sizeofDltUserHeader
    if messageAt memory pMessage = MessageType.logState.word then
      ⟨pattern, none⟩ :: received memory byteCount
        (body + sizeofDltUserControlMsgLogState)
    else if messageAt memory pMessage = MessageType.logLevel.word then
      ⟨pattern, some (logLevelMsgAt memory body)⟩ :: received memory
        byteCount (body + sizeofDltUserControlMsgLogLevel)
    else [⟨pattern, none⟩]
  else []
termination_by byteCount - pMessage
decreasing_by
  all_goals
    have hhead : sizeofDltUserHeader = 8 := rfl
    omega

namespace Received

/-- The header starts with the pattern. -/
def Genuine (r : Received) : Prop := r.pattern = userHeaderPattern

instance (r : Received) : Decidable r.Genuine :=
  inferInstanceAs (Decidable (_ = _))

/-- What a message does to the levels. -/
def apply (r : Received) (s : DaemonConnection) : Option DaemonConnection :=
  match r.message with
  | some message => s.applyLogLevel message
  | none => some s

/-- What some messages do. -/
def applyAll (rs : List Received) (s : DaemonConnection) :
    Option DaemonConnection :=
  rs.foldl (fun s r => s.bind r.apply) (some s)

/-- Behind undefined behaviour nothing is defined. -/
theorem foldl_none (rs : List Received) :
    rs.foldl (fun s r => s.bind r.apply) (none : Option DaemonConnection)
      = none := by
  induction rs with
  | nil => rfl
  | cons r rs ih => exact ih

/-- The first message, and then the others. -/
theorem applyAll_cons {r : Received} {rs : List Received}
    {s t : DaemonConnection} :
    applyAll (r :: rs) s = some t
      ↔ ∃ u, r.apply s = some u ∧ applyAll rs u = some t := by
  unfold applyAll
  rw [List.foldl_cons, Option.bind_some]
  cases r.apply s with
  | none =>
      rw [foldl_none]
      simp
  | some u => simp

end Received

/-- The loop applies what it meets. The induction is the loop's own: one
case for each way it goes on, and one for its end. -/
theorem handleMessages_eq (memory : Nat → UInt8) (byteCount p : Nat)
    (s : Option DaemonConnection) :
    (handleMessages memory byteCount p s).2
      = (received memory byteCount p).foldl (fun s r => s.bind r.apply) s := by
  have hhead : sizeofDltUserHeader = 8 := rfl
  have hstateSize : sizeofDltUserControlMsgLogState = 1 := rfl
  have hlevelSize : sizeofDltUserControlMsgLogLevel = 6 := rfl
  have hne : ¬ MessageType.logLevel.word = MessageType.logState.word := by
    decide
  induction p, s using handleMessages_induction memory byteCount with
  | done p s h =>
      rw [handleMessages_done h, received, if_neg (by omega)]
      rfl
  | logState p s h hmessage ih =>
      rw [handleMessages_logState h hmessage, received,
        if_pos (by omega), if_pos hmessage, List.foldl_cons]
      rw [ih]
      cases s <;> rfl
  | logLevel p s h hmessage ih =>
      rw [handleMessages_logLevel h hmessage, received,
        if_pos (by omega), if_neg (by rw [hmessage]; exact hne),
        if_pos hmessage, List.foldl_cons]
      exact ih
  | other p s h hstate hlevel =>
      rw [handleMessages_other h hstate hlevel, received,
        if_pos (by omega), if_neg hstate, if_neg hlevel]
      cases s <;> rfl

/-- What a chunk's loop meets. -/
def Chunk.received (chunk : Chunk) : List Received :=
  DltCpp.received chunk.memory chunk.bytes.length 0

/-- So does the handling of a chunk. -/
theorem readerStep_eq (s : DaemonConnection) (chunk : Chunk) :
    readerStep s chunk = Received.applyAll chunk.received s :=
  handleMessages_eq ..

-- =========================================================== the levels

/-- All contexts have the levels they had. -/
def SameLevels (s t : DaemonConnection) : Prop :=
  t.contexts = s.contexts
    ∧ ∀ c, (t.object c).activeLogLevel = (s.object c).activeLogLevel

theorem SameLevels.refl (s : DaemonConnection) : SameLevels s s :=
  ⟨rfl, fun _ => rfl⟩

theorem SameLevels.symm {s t : DaemonConnection} (h : SameLevels s t) :
    SameLevels t s :=
  ⟨h.1.symm, fun c => (h.2 c).symm⟩

theorem SameLevels.trans {s t u : DaemonConnection} (h : SameLevels s t)
    (h' : SameLevels t u) : SameLevels s u :=
  ⟨h'.1.trans h.1, fun c => (h'.2 c).trans (h.2 c)⟩

/-- A level message that has no effect: `applyLogLevel` turns its position
away, or the context there has the level. -/
def Idle (s : DaemonConnection) (message : DltUserControlMsgLogLevel) : Prop :=
  message.logLevelPos < Int32.ofNat s.contexts.length →
    ∃ c, s.contexts[vectorIndex message.logLevelPos]? = some c
      ∧ (s.object c).activeLogLevel = message.logLevel.toNat

/-- Whether a message is idle hangs on the levels only. -/
theorem Idle.congr {s t : DaemonConnection} (h : SameLevels s t)
    (message : DltUserControlMsgLogLevel) : Idle t message ↔ Idle s message := by
  unfold Idle
  simp only [h.1, h.2]

/-- A message keeps the levels exactly when it is idle. -/
theorem idle_iff (s : DaemonConnection)
    (message : DltUserControlMsgLogLevel) :
    (∃ t, s.applyLogLevel message = some t ∧ SameLevels s t)
      ↔ Idle s message := by
  unfold Idle DaemonConnection.applyLogLevel
  by_cases hlt : message.logLevelPos < Int32.ofNat s.contexts.length
  · rw [if_pos hlt]
    cases hc : s.contexts[vectorIndex message.logLevelPos]? with
    | none => simp [hlt]
    | some c =>
        constructor
        · intro hex _
          obtain ⟨t, heq, -, hlevels⟩ := hex
          cases heq
          have hlevel := hlevels c
          rw [activeLogLevel_setActiveLogLevel, if_pos rfl] at hlevel
          exact ⟨c, rfl, hlevel.symm⟩
        · intro hidle
          obtain ⟨c', heq, hlevel⟩ := hidle hlt
          cases heq
          refine ⟨_, rfl, rfl, ?_⟩
          intro c'
          rw [activeLogLevel_setActiveLogLevel]
          by_cases hc' : c' = c
          · rw [if_pos hc', hc', hlevel]
          · rw [if_neg hc']
  · rw [if_neg hlt]
    exact ⟨fun _ h => absurd h hlt, fun _ => ⟨s, rfl, SameLevels.refl s⟩⟩

/-- The same for what the loop meets. -/
theorem Received.apply_iff (r : Received) (s : DaemonConnection) :
    (∃ t, r.apply s = some t ∧ SameLevels s t)
      ↔ ∀ message, r.message = some message → Idle s message := by
  unfold Received.apply
  cases r.message with
  | none => exact ⟨fun _ _ h => (by cases h), fun _ => ⟨s, rfl, .refl s⟩⟩
  | some message =>
      rw [idle_iff]
      simp

/-- Some messages keep the levels, however many of them are applied,
exactly when all of them are idle. -/
theorem applyAll_iff (rs : List Received) (s : DaemonConnection) :
    (∀ mid rest, rs = mid ++ rest →
      ∃ t, Received.applyAll mid s = some t ∧ SameLevels s t)
      ↔ ∀ r ∈ rs, ∀ message, r.message = some message → Idle s message := by
  induction rs generalizing s with
  | nil =>
      constructor
      · intro _ r hr
        cases hr
      · intro _ mid rest heq
        obtain ⟨rfl, -⟩ := List.append_eq_nil_iff.mp heq.symm
        exact ⟨s, rfl, .refl s⟩
  | cons r rs ih =>
      constructor
      · intro h
        obtain ⟨t, happ, hsame⟩ := h [r] rs rfl
        obtain ⟨u, hr, hu⟩ := Received.applyAll_cons.mp happ
        cases hu
        -- the first message kept the levels, so the rest is asked in its state
        have hrest : ∀ mid rest, rs = mid ++ rest →
            ∃ v, Received.applyAll mid t = some v ∧ SameLevels t v := by
          intro mid rest heq
          obtain ⟨v, hv, hsame'⟩ := h (r :: mid) rest (by
            rw [heq, List.cons_append])
          obtain ⟨u, hr', hmid⟩ := Received.applyAll_cons.mp hv
          rw [hr] at hr'
          cases hr'
          exact ⟨v, hmid, hsame.symm.trans hsame'⟩
        intro x hx message hmessage
        rcases List.mem_cons.mp hx with rfl | hx
        · exact (x.apply_iff s).mp ⟨t, hr, hsame⟩ message hmessage
        · exact (Idle.congr hsame message).mp
            ((ih t).mp hrest x hx message hmessage)
      · intro h mid rest heq
        cases mid with
        | nil => exact ⟨s, rfl, .refl s⟩
        | cons r' mid =>
            rw [List.cons_append] at heq
            obtain ⟨rfl, rfl⟩ := List.cons.inj heq
            -- the message keeps the levels, so the others are idle behind it
            obtain ⟨t, hr, hsame⟩ := (r.apply_iff s).mpr
              (h r (List.mem_cons_self ..))
            obtain ⟨v, hv, hsame'⟩ := (ih t).mpr (fun x hx message hmessage =>
              (Idle.congr hsame message).mpr
                (h x (List.mem_cons_of_mem _ hx) message hmessage))
              mid rest rfl
            exact ⟨v, Received.applyAll_cons.mpr ⟨t, hr, hv⟩,
              hsame.trans hsame'⟩

-- ========================================================== the grammar

/-- From a header without the pattern on, no message of the chunk changes
a level. -/
def GrammarKept (s : DaemonConnection) (chunk : Chunk) : Prop :=
  ∀ before r after u, chunk.received = before ++ r :: after →
    Received.applyAll before s = some u → ¬ r.Genuine →
    ∀ mid rest, r :: after = mid ++ rest →
      ∃ t, Received.applyAll mid u = some t ∧ SameLevels u t

/-- From a header without the pattern on, the level messages are idle in
the state in which the header is met. -/
def ForeignIdle (s : DaemonConnection) (chunk : Chunk) : Prop :=
  ∀ before r after u, chunk.received = before ++ r :: after →
    Received.applyAll before s = some u → ¬ r.Genuine →
    ∀ x ∈ r :: after, ∀ message, x.message = some message → Idle u message

/-- `handleIncomingMessage` applies what it meets, and keeps the grammar
exactly when what is behind a foreign header is idle. -/
theorem grammarKept_iff_foreignIdle (s : DaemonConnection) (chunk : Chunk) :
    readerStep s chunk = Received.applyAll chunk.received s
      ∧ (GrammarKept s chunk ↔ ForeignIdle s chunk) := by
  refine ⟨readerStep_eq s chunk, ?_, ?_⟩
  · intro h before r after u heq happ hforeign
    exact (applyAll_iff _ u).mp (h before r after u heq happ hforeign)
  · intro h before r after u heq happ hforeign
    exact (applyAll_iff _ u).mpr (h before r after u heq happ hforeign)

-- ============================================================== a sample

/-- A level message behind a header that is none of the daemon's. -/
def foreignChunk : Chunk :=
  sampleChunk (ControlMsg.logLevel ⟨88, 88, 88, 88⟩ ⟨1, 0, 0⟩).bytes
    (by decide)

theorem received_foreignChunk :
    foreignChunk.received = [⟨[88, 88, 88, 88], some ⟨1, 0, 0⟩⟩] := by
  unfold Chunk.received
  rw [received, if_pos (by decide), if_neg (by decide), if_pos (by decide),
    received, if_neg (by decide)]
  rfl

/-- It sets the level of the one registered context. -/
theorem foreign_level_applied :
    (sampleRegistry.object 0).activeLogLevel = 6
      ∧ (readerStep sampleRegistry foreignChunk).map
        (fun t => (t.object 0).activeLogLevel) = some 1
      ∧ ¬ GrammarKept sampleRegistry foreignChunk := by
  have hstep : readerStep sampleRegistry foreignChunk
      = some (sampleRegistry.setActiveLogLevel 0 1) := by
    rw [readerStep_eq, received_foreignChunk]
    rfl
  refine ⟨rfl, ?_, ?_⟩
  · rw [hstep]
    rfl
  · intro hkept
    obtain ⟨t, happ, -, hlevels⟩ := hkept [] _ [] sampleRegistry
      received_foreignChunk rfl (by decide) [_] [] rfl
    cases happ
    have hlevel := hlevels 0
    revert hlevel
    decide

end IviLogging.DltCpp
