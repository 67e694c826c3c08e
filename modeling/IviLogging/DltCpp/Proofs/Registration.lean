/-
The registration protocol on the daemon's pipe: what is on a connection in
front of a log frame, and how often a registration is there.

# The invariant

The registry and the connection change in different places. `m_contexts`
grows in `registerContext`; what was announced changes with every write,
and a write may fail and end the connection between any two frames. What
ties them together is a list that the code does not keep: `sent`, the
contexts whose registration went out on the current connection, in order
and with repetitions (`Consistent s sent`). A context of `sent` has a last
registration on the connection, and that one says what its object says
(`Registered`).

The list is followed through every write. `send` has three outcomes
(`send_cases`): nothing, one frame more, or the end of the connection; an
ended connection is kept as it was, and `sent` speaks of nothing then
(`of_disconnected`). A registration adds its context
(`Consistent.sendContextRegistration`), and so the replay loop of
`initDaemonConnection` brings `sent` to the registry itself
(`Consistent.initDaemonConnection`), however many of its writes fail.

# Safety

A context that logs is one of the registry, and on an open connection
everything in the registry is in `sent` (`RegistryInv`). So each log frame
has a registration of its context in front of it that carries its ids
(`Connection.Safe`), on every connection of every run (`connections_safe`).

# Registrations that are sent twice

Safety says that a registration is there, not that it is there once.
`registerContext` has its context in the registry before the connection is
opened, so that the loop registers it, and then registers it again behind
the loop. The list tells: it is the registry followed by the context once
more (`registerContext_disconnected`). Whether a connection opened this way
is still there at the end depends on its writes, which is counted by
`Writes`; from this comes the exact condition on a step
(`exactlyOnce_step_iff`) and on a run (`exactlyOnce_iff_registersOnce`).
-/
import IviLogging.DltCpp.Proofs.Reader

namespace IviLogging.DltCpp

-- ============================================================ properties

/-- The frame is a RegisterApp. -/
def Frame.IsRegisterApp : Frame → Bool
  | .registerApp _ _ _ => true
  | _ => false

/-- The registration of `c` a write sent, if it is one. -/
def Sent.registration (c : ContextId) (x : Sent) :
    Option DltUserControlMsgRegisterContext :=
  match x.frame with
  | .registerContext _ message _ =>
      if x.context = some c then some message else none
  | _ => none

/-- The registrations of `c` among some writes. -/
def registrations (c : ContextId) (written : List Sent) :
    List DltUserControlMsgRegisterContext :=
  written.filterMap (Sent.registration c)

/-- If the write is a log frame, the writes in front of it registered its
context: the latest registration announces the context's position in
`contexts` and has the ids the frame carries. -/
def Sent.Announced (contexts : List ContextId) (before : List Sent)
    (x : Sent) : Prop :=
  match x.frame with
  | .sendLog _ _ _ extendedheader _ =>
      ∃ c i message, x.context = some c ∧ contexts[i]? = some c
        ∧ (registrations c before).getLast? = some message
        ∧ message.logLevelPos = Int32.ofNat i
        ∧ extendedheader.apid = message.apid
        ∧ extendedheader.ctid = message.ctid
  | _ => True

/-- A connection starts with RegisterApp, and every log frame on it is
announced. -/
structure Connection.Safe (contexts : List ContextId)
    (connection : Connection) : Prop where
  first : ∀ x, connection.written.head? = some x →
    x.frame.IsRegisterApp = true
  announced : ∀ before x after, connection.written = before ++ x :: after →
    x.Announced contexts before

/-- On every connection without a failed write: one RegisterApp, one
registration of every registered context and of no other. -/
def ExactlyOnce (s : DaemonConnection) : Prop :=
  ∀ connection ∈ s.connections, connection.failed = none →
    connection.written.countP (fun x => x.frame.IsRegisterApp) = 1
      ∧ ∀ c, (registrations c connection.written).length
          = if c ∈ s.contexts then 1 else 0

-- ===================================================== single writes

@[simp] theorem registrations_append (c : ContextId) (xs ys : List Sent) :
    registrations c (xs ++ ys) = registrations c xs ++ registrations c ys :=
  List.filterMap_append

/-- A context that joins the registry at its end leaves the positions that
were announced. -/
theorem Sent.Announced.mono {contexts : List ContextId}
    {before : List Sent} {x : Sent} (h : x.Announced contexts before)
    (c : ContextId) : x.Announced (contexts ++ [c]) before := by
  unfold Sent.Announced at h ⊢
  split at h
  · obtain ⟨c', i, message, hx, hi, hrest⟩ := h
    refine ⟨c', i, message, hx, ?_, hrest⟩
    have hlt : i < contexts.length := (List.getElem?_eq_some_iff.mp hi).1
    rw [List.getElem?_append_left hlt, hi]
  · exact trivial

namespace Connection.Safe

variable {contexts : List ContextId} {connection : Connection}

/-- Nothing was written yet. -/
theorem of_nil (h : connection.written = []) : connection.Safe contexts := by
  refine ⟨?_, ?_⟩
  · intro x hx
    rw [h] at hx
    cases hx
  · intro before x after heq
    rw [h] at heq
    cases before <;> cases heq

/-- A new context at the end of the registry moves no other. -/
theorem mono (h : connection.Safe contexts) (c : ContextId) :
    connection.Safe (contexts ++ [c]) := by
  refine ⟨h.first, ?_⟩
  intro before x after heq
  exact (h.announced before x after heq).mono c

/-- Safety looks at what was written only. -/
theorem of_written (h : connection.Safe contexts) {connection' : Connection}
    (hwritten : connection'.written = connection.written) :
    connection'.Safe contexts := by
  refine ⟨?_, ?_⟩
  · rw [hwritten]
    exact h.first
  · rw [hwritten]
    exact h.announced

/-- One write more. The first frame stays the first one, if there was one;
and what is announced in front of an older frame is in front of it still. -/
theorem append (h : connection.Safe contexts) {x : Sent}
    {connection' : Connection}
    (hwritten : connection'.written = connection.written ++ [x])
    (hfirst : connection.written = [] → x.frame.IsRegisterApp = true)
    (hx : x.Announced contexts connection.written) :
    connection'.Safe contexts := by
  refine ⟨?_, ?_⟩
  · intro y hy
    rw [hwritten] at hy
    cases hempty : connection.written with
    | nil =>
        rw [hempty] at hy
        cases hy
        exact hfirst hempty
    | cons z zs =>
        rw [hempty] at hy
        apply h.first y
        rw [hempty]
        exact hy
  · intro before y after heq
    rw [hwritten] at heq
    -- either `y` is the new write, or it stands in front of it
    rcases List.eq_nil_or_concat after with rfl | ⟨after', z, rfl⟩
    · obtain ⟨rfl, hlast⟩ := List.append_inj' heq rfl
      cases hlast
      exact hx
    · rw [List.concat_eq_append, ← List.cons_append,
        ← List.append_assoc] at heq
      obtain ⟨hinit, -⟩ := List.append_inj' heq rfl
      exact h.announced before y after' hinit

end Connection.Safe

namespace DaemonConnection

variable (env : Environment) {s : DaemonConnection}

/-- What a write does: nothing when disconnected, one frame more, or the
end of the connection. Every proof about a write starts from these three
cases, none looks into `send` again. -/
theorem send_cases (context : Option ContextId) (frame : Frame) :
    (s.daemon = none ∧ s.send env context frame = s)
      ∨ (∃ connection count, s.daemon = some connection
          ∧ env.writev s.writevs = some count
          ∧ s.send env context frame = { s with
              writevs := s.writevs + 1
              daemon := some { connection with
                written := connection.written
                  ++ [⟨context, frame, min count frame.bytes.length⟩] } })
      ∨ (∃ connection, s.daemon = some connection
          ∧ env.writev s.writevs = none
          ∧ s.send env context frame = { s with
              writevs := s.writevs + 1
              daemon := none
              closed := s.closed
                ++ [{ connection with failed := some frame }] }) := by
  unfold send
  cases hdaemon : s.daemon with
  | none => exact Or.inl ⟨rfl, rfl⟩
  | some connection =>
      cases hwrite : env.writev s.writevs with
      | some count => exact Or.inr (Or.inl ⟨connection, count, rfl, rfl, rfl⟩)
      | none => exact Or.inr (Or.inr ⟨connection, rfl, rfl, rfl⟩)

@[simp] theorem contexts_send (context : Option ContextId) (frame : Frame) :
    (s.send env context frame).contexts = s.contexts := by
  rcases send_cases env context frame with
    ⟨-, h⟩ | ⟨_, _, -, -, h⟩ | ⟨_, -, -, h⟩ <;> rw [h]

@[simp] theorem object_send (context : Option ContextId) (frame : Frame) :
    (s.send env context frame).object = s.object := by
  rcases send_cases env context frame with
    ⟨-, h⟩ | ⟨_, _, -, -, h⟩ | ⟨_, -, -, h⟩ <;> rw [h]

@[simp] theorem contexts_sendContextRegistration (c : ContextId) :
    (s.sendContextRegistration env c).contexts = s.contexts := by
  rw [sendContextRegistration, contexts_send, contexts_modify]

/-- The replay loop reads the registry and does not change it. -/
theorem contexts_foldl (cs : List ContextId) :
    (cs.foldl (sendContextRegistration env) s).contexts = s.contexts := by
  induction cs generalizing s with
  | nil => rfl
  | cons c cs ih => rw [List.foldl_cons, ih, contexts_sendContextRegistration]

@[simp] theorem contexts_initDaemonConnection :
    (s.initDaemonConnection env).contexts = s.contexts := by
  unfold initDaemonConnection
  split
  · rfl
  · split
    · rw [contexts_foldl, contexts_send]
    · rfl

/-- However the connection fares, the context is in the registry. -/
theorem contexts_registerContext (c : ContextId) :
    (s.registerContext env c).contexts = s.contexts ++ [c] := by
  unfold registerContext
  dsimp only
  split
  · rw [contexts_sendContextRegistration, contexts_initDaemonConnection]
    rfl
  · rw [contexts_initDaemonConnection]
    rfl

theorem contexts_sendLog [DltConstants] (uptime : UInt32) (data : LogData) :
    (s.sendLog env uptime data).contexts = s.contexts := by
  unfold sendLog
  dsimp only
  split
  · rw [contexts_send, contexts_initDaemonConnection]
  · rw [contexts_initDaemonConnection]

end DaemonConnection

-- ========================================================= the invariant

/-- The latest registration of `c` says what its object says: its position
in the registry and the ids of its header. These are the members that a
log frame is built from. -/
def Registered (s : DaemonConnection) (written : List Sent) (c : ContextId) :
    Prop :=
  ∃ message, (registrations c written).getLast? = some message
    ∧ message.logLevelPos = (s.object c).logLevelPos
    ∧ message.apid = (s.object c).extendedHeader.apid
    ∧ message.ctid = (s.object c).extendedHeader.ctid

namespace Registered

variable {s s' : DaemonConnection} {written : List Sent} {c : ContextId}

/-- A write that is no registration of `c` leaves its latest one. -/
theorem append_other (h : Registered s written c) {x : Sent}
    (hx : registrations c [x] = [])
    (hpos : (s'.object c).logLevelPos = (s.object c).logLevelPos)
    (hheader : (s'.object c).extendedHeader = (s.object c).extendedHeader) :
    Registered s' (written ++ [x]) c := by
  obtain ⟨message, hlast, hmessage⟩ := h
  refine ⟨message, ?_, ?_⟩
  · rw [registrations_append, hx, List.append_nil, hlast]
  · rw [hpos, hheader]
    exact hmessage

/-- A registration of `c` is its latest one. -/
theorem append_self {x : Sent} {message : DltUserControlMsgRegisterContext}
    (hx : registrations c [x] = [message])
    (hpos : message.logLevelPos = (s'.object c).logLevelPos)
    (hapid : message.apid = (s'.object c).extendedHeader.apid)
    (hctid : message.ctid = (s'.object c).extendedHeader.ctid) :
    Registered s' (written ++ [x]) c := by
  refine ⟨message, ?_, hpos, hapid, hctid⟩
  rw [registrations_append, hx, List.getLast?_concat]

end Registered

/-- The registration a RegisterContext frame is. -/
theorem registrations_registerContextFrame (c c' : ContextId)
    (app : AppLogContext) (pid : Int32) (context : DltCppContext) (n : Nat) :
    registrations c' [⟨some c, registerContextFrame app pid context, n⟩]
      = if c = c' then [registerMessage app pid context] else [] := by
  by_cases hc : c = c'
  · simp [registrations, Sent.registration, registerContextFrame, hc]
  · simp [registrations, Sent.registration, registerContextFrame, hc]

/-- An open connection on which the contexts of `sent` were registered,
in this order. The number of registrations of each context is kept as a
count, which says both that one was sent and how often. -/
structure Live (s : DaemonConnection) (connection : Connection)
    (sent : List ContextId) : Prop where
  failed : connection.failed = none
  safe : connection.Safe s.contexts
  apps : connection.written.countP (fun x => x.frame.IsRegisterApp) = 1
  count : ∀ c, (registrations c connection.written).length = sent.count c
  registered : ∀ c ∈ sent, Registered s connection.written c

/-- The ids of the header leave the position. -/
theorem DaemonConnection.logLevelPos_assignIds (env : Environment)
    (s : DaemonConnection) (c c' : ContextId) :
    ((s.modify c (assignIds env)).object c').logLevelPos
      = (s.object c').logLevelPos := by
  by_cases hne : c' = c
  · subst hne
    rw [object_modify_self]
    rfl
  · rw [object_modify_of_ne s c _ hne]

/-- One registration more, of a context that has one or none so far. It is no
RegisterApp, so the count of these stays at one; it is the last one of its
own context and shows its fields, and for the others nothing has changed. -/
theorem Live.registration (env : Environment) {s t : DaemonConnection}
    {connection connection' : Connection} {sent : List ContextId}
    (h : Live s connection sent) {c : ContextId} {n : Nat}
    (hcontexts : t.contexts = s.contexts)
    (hobject : t.object
      = (s.modify c (DaemonConnection.assignIds env)).object)
    (hfailed : connection'.failed = connection.failed)
    (hwritten : connection'.written = connection.written
      ++ [⟨some c, registerContextFrame env.app env.pid (s.object c), n⟩]) :
    Live t connection' (sent ++ [c]) := by
  refine ⟨hfailed.trans h.failed, ?_, ?_, ?_, ?_⟩
  · rw [hcontexts]
    refine h.safe.append hwritten ?_ trivial
    -- a registration is not the first frame: RegisterApp was counted
    intro hempty
    have happs := h.apps
    rw [hempty] at happs
    cases happs
  · rw [hwritten, List.countP_append, h.apps]
    rfl
  · intro c'
    rw [hwritten, registrations_append, List.length_append, h.count,
      List.count_append, registrations_registerContextFrame,
      List.count_singleton]
    by_cases hne : c = c'
    · subst hne
      simp
    · simp [hne]
  · intro c' hc'
    rw [hwritten]
    have hpos : (t.object c').logLevelPos = (s.object c').logLevelPos := by
      rw [hobject, DaemonConnection.logLevelPos_assignIds]
    -- its own registration is the new one, any other keeps its last
    by_cases hne : c' = c
    · subst hne
      refine Registered.append_self
        ((registrations_registerContextFrame c' c' _ _ _ _).trans
          (if_pos rfl)) hpos.symm ?_ ?_
      · rw [hobject, DaemonConnection.object_modify_self]
        rfl
      · rw [hobject, DaemonConnection.object_modify_self]
        rfl
    · have hmem : c' ∈ sent := by
        rcases List.mem_append.mp hc' with hc' | hc'
        · exact hc'
        · exact absurd (List.mem_singleton.mp hc') hne
      refine (h.registered c' hmem).append_other
        ((registrations_registerContextFrame c c' _ _ _ _).trans
          (if_neg (Ne.symm hne))) hpos ?_
      rw [hobject, DaemonConnection.object_modify_of_ne s c _ hne]

/-- The registry and the connections, with the registrations `sent` on
the current one. Closed connections are safe too and stay so, as nothing
is written to them any more; that one of them failed tells them from the
current one. -/
structure Consistent (s : DaemonConnection) (sent : List ContextId) :
    Prop where
  nodup : s.contexts.Nodup
  position : ∀ i c, s.contexts[i]? = some c →
    (s.object c).logLevelPos = Int32.ofNat i
  known : ∀ c ∈ sent, c ∈ s.contexts
  closed : ∀ connection ∈ s.closed,
    connection.Safe s.contexts ∧ connection.failed ≠ none
  daemon : ∀ connection, s.daemon = some connection → Live s connection sent

namespace Consistent

variable (env : Environment) {s : DaemonConnection} {sent : List ContextId}

theorem initial [DltConstants] (parent : ContextId → LogContextCommon) :
    Consistent (DaemonConnection.initial parent) [] := by
  refine ⟨List.nodup_nil, ?_, ?_, ?_, ?_⟩
  · intro i c h
    cases h
  · intro c h
    cases h
  · intro connection h
    cases h
  · intro connection h
    cases h

/-- Without a connection there is nothing to have been sent on it, so any
contexts of the registry will do for `sent`. -/
theorem of_disconnected (h : Consistent s sent) (hdaemon : s.daemon = none)
    {sent' : List ContextId} (hknown : ∀ c ∈ sent', c ∈ s.contexts) :
    Consistent s sent' := by
  refine ⟨h.nodup, h.position, hknown, h.closed, ?_⟩
  intro connection hsome
  rw [hdaemon] at hsome
  cases hsome

/-- A failed write closes the connection as it is. -/
theorem closed_concat (h : Consistent s sent) {connection : Connection}
    (hdaemon : s.daemon = some connection) (frame : Frame) :
    ∀ other ∈ s.closed ++ [{ connection with failed := some frame }],
      other.Safe s.contexts ∧ other.failed ≠ none := by
  intro other hother
  rcases List.mem_append.mp hother with hother | hother
  · exact h.closed other hother
  · rw [List.mem_singleton.mp hother]
    exact ⟨(h.daemon connection hdaemon).safe.of_written rfl,
      Option.some_ne_none frame⟩

/-- A member of a context that no registration shows may change: what was
announced of it are its position and its header. -/
theorem modify (h : Consistent s sent) (c : ContextId)
    {f : DltCppContext → DltCppContext}
    (hpos : ∀ x, (f x).logLevelPos = x.logLevelPos)
    (hheader : ∀ x, (f x).extendedHeader = x.extendedHeader) :
    Consistent (s.modify c f) sent := by
  have hsame : ∀ c', ((s.modify c f).object c').logLevelPos
        = (s.object c').logLevelPos
      ∧ ((s.modify c f).object c').extendedHeader
        = (s.object c').extendedHeader := by
    intro c'
    by_cases hc : c' = c
    · subst hc
      rw [DaemonConnection.object_modify_self]
      exact ⟨hpos _, hheader _⟩
    · rw [DaemonConnection.object_modify_of_ne s c f hc]
      exact ⟨rfl, rfl⟩
  refine ⟨h.nodup, ?_, h.known, h.closed, ?_⟩
  · intro i c' hi
    rw [(hsame c').1]
    exact h.position i c' hi
  · intro connection hdaemon
    have hlive := h.daemon connection hdaemon
    refine ⟨hlive.failed, hlive.safe, hlive.apps, hlive.count, ?_⟩
    intro c' hc'
    obtain ⟨message, hlast, hmessage⟩ := hlive.registered c' hc'
    refine ⟨message, hlast, ?_⟩
    rw [(hsame c').1, (hsame c').2]
    exact hmessage

/-- The registration of a context that is in the registry, whatever becomes
of the write: on no connection nothing is written, and a failed write takes
the connection with it. -/
theorem sendContextRegistration (h : Consistent s sent) {c : ContextId}
    (hc : c ∈ s.contexts) :
    Consistent (s.sendContextRegistration env c) (sent ++ [c]) := by
  have hknown : ∀ c' ∈ sent ++ [c], c' ∈ s.contexts := by
    intro c' hc'
    rcases List.mem_append.mp hc' with hc' | hc'
    · exact h.known c' hc'
    · rw [List.mem_singleton.mp hc']
      exact hc
  have hposition : ∀ i c', s.contexts[i]? = some c' →
      ((s.modify c (DaemonConnection.assignIds env)).object c').logLevelPos
        = Int32.ofNat i := by
    intro i c' hi
    rw [DaemonConnection.logLevelPos_assignIds]
    exact h.position i c' hi
  unfold DaemonConnection.sendContextRegistration
  rcases DaemonConnection.send_cases env (some c)
      (registerContextFrame env.app env.pid (s.object c)) with
    ⟨hdaemon, hsend⟩ | ⟨connection, count, hdaemon, -, hsend⟩
      | ⟨connection, hdaemon, -, hsend⟩
  -- the ids are assigned whatever becomes of the write
  all_goals
    rw [hsend]
    rw [DaemonConnection.daemon_modify] at hdaemon
  · refine ⟨h.nodup, hposition, hknown, h.closed, ?_⟩
    intro connection hsome
    rw [DaemonConnection.daemon_modify, hdaemon] at hsome
    cases hsome
  · refine ⟨h.nodup, hposition, hknown, h.closed, ?_⟩
    intro connection' hsome
    cases hsome
    exact (h.daemon connection hdaemon).registration env rfl rfl rfl rfl
  · refine ⟨h.nodup, hposition, hknown, h.closed_concat hdaemon _, ?_⟩
    intro other hother
    cases hother

/-- The replay loop, whether its writes succeed or not: after a failed one
the rest of the loop runs on a closed connection and sends nothing. -/
theorem foldl (h : Consistent s sent) {cs : List ContextId}
    (hcs : ∀ c ∈ cs, c ∈ s.contexts) :
    Consistent
      (cs.foldl (DaemonConnection.sendContextRegistration env) s)
      (sent ++ cs) := by
  induction cs generalizing s sent with
  | nil =>
      rw [List.append_nil]
      exact h
  | cons c cs ih =>
      have hstep := h.sendContextRegistration env
        (hcs c (List.mem_cons_self ..))
      have hrest := ih hstep fun c' hc' => by
        rw [DaemonConnection.contexts_sendContextRegistration]
        exact hcs c' (List.mem_cons_of_mem _ hc')
      rw [List.append_assoc] at hrest
      exact hrest

/-- The frame that opens a connection: the RegisterApp, and no registration
yet. If its write fails, there is no connection again. -/
theorem openConnection (h : Consistent s sent) (n : Nat)
    (stack : Nat → UInt8) :
    Consistent
      (({ s with opens := n, daemon := some {} } : DaemonConnection).send env
        none (registerAppFrame env.app env.pid stack)) [] := by
  have hknown : ∀ c ∈ ([] : List ContextId), c ∈ s.contexts := by
    intro c hc
    cases hc
  rcases DaemonConnection.send_cases env
      (s := { s with opens := n, daemon := some {} }) none
      (registerAppFrame env.app env.pid stack) with
    ⟨hnone, -⟩ | ⟨connection, count, hsome, -, hsend⟩
      | ⟨connection, hsome, -, hsend⟩
  · -- the descriptor was just set, so the first case cannot be
    cases hnone
  · cases hsome
    rw [hsend]
    refine ⟨h.nodup, h.position, hknown, h.closed, ?_⟩
    intro connection' hsome
    cases hsome
    have hempty : Connection.Safe s.contexts {} := .of_nil rfl
    refine ⟨rfl, hempty.append rfl (fun _ => rfl) trivial, rfl, ?_, ?_⟩
    · intro c
      rfl
    · intro c hc
      cases hc
  · cases hsome
    rw [hsend]
    refine ⟨h.nodup, h.position, hknown, ?_, ?_⟩
    · intro other hother
      rcases List.mem_append.mp hother with hother | hother
      · exact h.closed other hother
      · rw [List.mem_singleton.mp hother]
        exact ⟨.of_nil rfl, Option.some_ne_none _⟩
    · intro other hother
      cases hother

/-- On a connection just opened every context of the registry was
registered once: `sent` is the registry. If it could not be opened or was
lost in the loop, `sent` may be that too. -/
theorem initDaemonConnection (h : Consistent s sent)
    (hdaemon : s.daemon = none) :
    Consistent (s.initDaemonConnection env) s.contexts := by
  have hdown : s.isDaemonConnected = false := by
    rw [DaemonConnection.isDaemonConnected, hdaemon]
    rfl
  unfold DaemonConnection.initDaemonConnection
  rw [hdown, if_neg Bool.false_ne_true]
  split
  · have hopen := h.openConnection env (s.opens + 1) (env.stack s.opens)
    have hloop := hopen.foldl env fun c hc => by
      rw [DaemonConnection.contexts_send]
      exact hc
    rw [List.nil_append] at hloop
    exact hloop
  · exact ⟨h.nodup, h.position, fun _ hc => hc, h.closed, fun c hc => by
      rw [show s.daemon = none from hdaemon] at hc
      cases hc⟩

/-- A context not seen before joins the registry. Its position is the size
that the registry had, and no connection has a frame of it. -/
theorem pushContext (h : Consistent s sent) {c : ContextId}
    (hc : c ∉ s.contexts) : Consistent (s.pushContext c) sent := by
  have hobject : ∀ c' ∈ s.contexts,
      (s.pushContext c).object c' = s.object c' := by
    intro c' hc'
    apply DaemonConnection.object_pushContext_of_ne s
    intro heq
    exact hc (heq ▸ hc')
  refine ⟨?_, ?_, ?_, ?_, ?_⟩
  · show (s.contexts ++ [c]).Nodup
    rw [List.nodup_append]
    refine ⟨h.nodup, List.pairwise_singleton _ c, ?_⟩
    intro a ha b hb heq
    rw [List.mem_singleton.mp hb] at heq
    exact hc (heq ▸ ha)
  · intro i c' hi
    change (s.contexts ++ [c])[i]? = some c' at hi
    rcases Nat.lt_or_ge i s.contexts.length with hlt | hge
    · rw [List.getElem?_append_left hlt] at hi
      rw [hobject c' (List.mem_of_getElem? hi)]
      exact h.position i c' hi
    · -- the last position is that of the new context
      rw [List.getElem?_append_right hge] at hi
      obtain ⟨hlt, hget⟩ := List.getElem?_eq_some_iff.mp hi
      rw [List.length_singleton] at hlt
      obtain rfl : i = s.contexts.length := by omega
      simp only [Nat.sub_self, List.getElem_cons_zero] at hget
      subst hget
      rw [DaemonConnection.object_pushContext_self]
      rfl
  · intro c' hc'
    exact List.mem_append_left _ (h.known c' hc')
  · intro connection hconnection
    obtain ⟨hsafe, hfailed⟩ := h.closed connection hconnection
    exact ⟨hsafe.mono c, hfailed⟩
  · intro connection hdaemon
    have hlive := h.daemon connection hdaemon
    refine ⟨hlive.failed, hlive.safe.mono c, hlive.apps, hlive.count, ?_⟩
    intro c' hc'
    obtain ⟨message, hlast, hmessage⟩ := hlive.registered c' hc'
    refine ⟨message, hlast, ?_⟩
    rw [hobject c' (h.known c' hc')]
    exact hmessage

/-- On an open connection a context is registered once. -/
theorem registerContext_connected (h : Consistent s sent) {c : ContextId}
    (hc : c ∉ s.contexts) (hup : s.isDaemonConnected = true) :
    Consistent (s.registerContext env c) (sent ++ [c]) := by
  have hup' : (s.pushContext c).isDaemonConnected = true := hup
  have hinit : (s.pushContext c).initDaemonConnection env
      = s.pushContext c := by
    rw [DaemonConnection.initDaemonConnection, if_pos hup']
  unfold DaemonConnection.registerContext
  simp only [hinit, hup', if_true]
  exact (h.pushContext hc).sendContextRegistration env
    (List.mem_append_right _ (List.mem_singleton_self c))

/-- When the registration opens the connection, the loop registers the
context and then the call does. -/
theorem registerContext_disconnected (h : Consistent s sent)
    {c : ContextId} (hc : c ∉ s.contexts) (hdown : s.daemon = none) :
    Consistent (s.registerContext env c) (s.contexts ++ [c] ++ [c]) := by
  have hinit := (h.pushContext hc).initDaemonConnection env hdown
  have hmem : c ∈ (s.pushContext c).contexts :=
    List.mem_append_right _ (List.mem_singleton_self c)
  unfold DaemonConnection.registerContext
  dsimp only
  split
  · -- the loop has sent the context, and the call sends it again
    apply hinit.sendContextRegistration env
    rw [DaemonConnection.contexts_initDaemonConnection]
    exact hmem
  · next hlost =>
    refine hinit.of_disconnected ?_ ?_
    · rw [DaemonConnection.isDaemonConnected, Bool.not_eq_true,
        Option.isSome_eq_false_iff, Option.isNone_iff_eq_none] at hlost
      exact hlost
    · intro c' hc'
      rw [DaemonConnection.contexts_initDaemonConnection]
      rcases List.mem_append.mp hc' with hc' | hc'
      · exact hc'
      · rw [List.mem_singleton.mp hc']
        exact hmem

/-- A log frame of a context registered on the connection. It shows the
header as the last registration did, since both copy it from the object. -/
theorem send_sendLogFrame [DltConstants] (h : Consistent s sent)
    {data : LogData} (hc : data.context ∈ sent) (uptime : UInt32) :
    Consistent (s.send env (some data.context)
      (sendLogFrame env.pid uptime (s.object data.context) data)) sent := by
  rcases DaemonConnection.send_cases env (s := s)
      (some data.context)
      (sendLogFrame env.pid uptime (s.object data.context) data) with
    ⟨hdaemon, hsend⟩ | ⟨connection, count, hdaemon, -, hsend⟩
      | ⟨connection, hdaemon, -, hsend⟩
  all_goals rw [hsend]
  · exact h
  · have hlive := h.daemon connection hdaemon
    have hnone : ∀ c', registrations c' [⟨some data.context,
        sendLogFrame env.pid uptime (s.object data.context) data, count⟩]
          = [] := fun _ => rfl
    refine ⟨h.nodup, h.position, h.known, h.closed, ?_⟩
    intro connection' hsome
    cases hsome
    refine ⟨hlive.failed, ?_, ?_, ?_, ?_⟩
    · refine hlive.safe.append rfl ?_ ?_
      · intro hempty
        have happs := hlive.apps
        rw [hempty] at happs
        cases happs
      · -- the frame is built from the object, and so was the registration
        obtain ⟨i, hi⟩ := List.mem_iff_getElem?.mp (h.known _ hc)
        obtain ⟨message, hlast, hpos, hapid, hctid⟩ := hlive.registered _ hc
        exact ⟨data.context, i, message, rfl, hi, hlast,
          hpos.trans (h.position i _ hi), hapid.symm, hctid.symm⟩
    · rw [List.countP_append, hlive.apps]
      rfl
    · intro c'
      rw [registrations_append, List.length_append, hlive.count]
      rfl
    · intro c' hc'
      exact (hlive.registered c' hc').append_other rfl rfl rfl
  · refine ⟨h.nodup, h.position, h.known, h.closed_concat hdaemon _, ?_⟩
    intro other hother
    cases hother

/-- `sendLog` on an open connection. -/
theorem sendLog_connected [DltConstants] (h : Consistent s sent)
    {data : LogData} (hc : data.context ∈ sent)
    (hup : s.isDaemonConnected = true) (uptime : UInt32) :
    Consistent (s.sendLog env uptime data) sent := by
  have hinit : s.initDaemonConnection env = s := by
    rw [DaemonConnection.initDaemonConnection, if_pos hup]
  unfold DaemonConnection.sendLog
  simp only [hinit, hup, if_true]
  exact h.send_sendLogFrame env hc uptime

/-- `sendLog` on a connection it opens. -/
theorem sendLog_disconnected [DltConstants] (h : Consistent s sent)
    {data : LogData} (hc : data.context ∈ s.contexts)
    (hdown : s.daemon = none) (uptime : UInt32) :
    Consistent (s.sendLog env uptime data) s.contexts := by
  have hinit := h.initDaemonConnection env hdown
  unfold DaemonConnection.sendLog
  dsimp only
  split
  · exact hinit.send_sendLogFrame env hc uptime
  · exact hinit

end Consistent

theorem DaemonConnection.isDaemonConnected_iff {s : DaemonConnection} :
    s.isDaemonConnected = true ↔ ∃ connection, s.daemon = some connection :=
  Option.isSome_iff_exists

theorem DaemonConnection.not_isDaemonConnected_iff {s : DaemonConnection} :
    s.isDaemonConnected = false ↔ s.daemon = none := by
  rw [DaemonConnection.isDaemonConnected, Option.isSome_eq_false_iff,
    Option.isNone_iff_eq_none]

-- ================================================================ safety

/-- The invariant of all runs: on an open connection every context of the
registry was registered. `sent` is left open here, as safety does not ask
how often. -/
def RegistryInv (s : DaemonConnection) : Prop :=
  ∃ sent, Consistent s sent ∧ ∀ c ∈ s.contexts, c ∈ sent

namespace RegistryInv

variable {s t : DaemonConnection}

/-- The reader's thread sets levels, which no registration shows. -/
theorem modify (h : RegistryInv s) (c : ContextId)
    {f : DltCppContext → DltCppContext}
    (hpos : ∀ x, (f x).logLevelPos = x.logLevelPos)
    (hheader : ∀ x, (f x).extendedHeader = x.extendedHeader) :
    RegistryInv (s.modify c f) := by
  obtain ⟨sent, hcons, hall⟩ := h
  exact ⟨sent, hcons.modify c hpos hheader, hall⟩

/-- A registration, on an open connection or one that it opens. -/
theorem registerContext (env : Environment) (h : RegistryInv s)
    {c : ContextId} (hc : c ∉ s.contexts) :
    RegistryInv (s.registerContext env c) := by
  obtain ⟨sent, hcons, hall⟩ := h
  unfold RegistryInv
  rw [DaemonConnection.contexts_registerContext]
  cases hconn : s.isDaemonConnected with
  | true =>
      refine ⟨_, hcons.registerContext_connected env hc hconn, ?_⟩
      intro c' hc'
      rcases List.mem_append.mp hc' with hc' | hc'
      · exact List.mem_append_left _ (hall c' hc')
      · exact List.mem_append_right _ hc'
  | false =>
      have hdown := DaemonConnection.not_isDaemonConnected_iff.mp hconn
      refine ⟨_, hcons.registerContext_disconnected env hc hdown, ?_⟩
      intro c' hc'
      exact List.mem_append_left _ hc'

/-- A log frame of a registered context, on an open connection or one that
it opens. -/
theorem sendLog [DltConstants] (env : Environment) (h : RegistryInv s)
    {data : LogData} (hc : data.context ∈ s.contexts) (uptime : UInt32) :
    RegistryInv (s.sendLog env uptime data) := by
  obtain ⟨sent, hcons, hall⟩ := h
  unfold RegistryInv
  rw [DaemonConnection.contexts_sendLog]
  cases hconn : s.isDaemonConnected with
  | true =>
      exact ⟨_, hcons.sendLog_connected env (hall _ hc) hconn uptime, hall⟩
  | false =>
      have hdown := DaemonConnection.not_isDaemonConnected_iff.mp hconn
      exact ⟨_, hcons.sendLog_disconnected env hc hdown uptime,
        fun _ hc' => hc'⟩

theorem readerStep (h : RegistryInv s) {chunk : Chunk}
    (hread : DltCpp.readerStep s chunk = some t) : RegistryInv t :=
  readerStep_invariant RegistryInv
    (fun _ c _ hu => hu.modify c (fun _ => rfl) (fun _ => rfl)) h hread

end RegistryInv

section Runs

variable [DltConstants] {env : Environment}

/-- What a registration the connection allows does. -/
theorem step_registerContext_iff {s t : DaemonConnection}
    {c : ContextId} :
    step env s (.registerContext c) = some t
      ↔ c ∉ s.contexts ∧ s.contexts.length < vectorMaxSize
        ∧ t = s.registerContext env c := by
  simp only [step]
  constructor
  · intro h
    split at h
    · cases h
    · next hnew =>
      obtain ⟨hc, hroom⟩ := not_or.mp hnew
      cases h
      exact ⟨hc, Nat.not_le.mp hroom, rfl⟩
  · intro hboth
    obtain ⟨hc, hroom, rfl⟩ := hboth
    rw [if_neg (not_or.mpr ⟨hc, Nat.not_le.mpr hroom⟩)]

/-- What a log frame the connection allows does. -/
theorem step_sendLog_iff {s t : DaemonConnection} {uptime : UInt32}
    {data : LogData} :
    step env s (.sendLog uptime data) = some t
      ↔ data.context ∈ s.contexts ∧ t = s.sendLog env uptime data := by
  simp only [step]
  constructor
  · intro h
    split at h
    · next hc =>
      cases h
      exact ⟨hc, rfl⟩
    · cases h
  · intro hboth
    obtain ⟨hc, rfl⟩ := hboth
    rw [if_pos hc]

theorem registryInv_initial (parent : ContextId → LogContextCommon) :
    RegistryInv (DaemonConnection.initial parent) := by
  refine ⟨[], Consistent.initial parent, ?_⟩
  intro c hc
  cases hc

/-- Every operation keeps the invariant. -/
theorem registryInv_step (s : DaemonConnection) (op : Op)
    (t : DaemonConnection) (h : RegistryInv s)
    (hstep : step env s op = some t) : RegistryInv t := by
  cases op with
  | registerContext c =>
      obtain ⟨hc, -, rfl⟩ := step_registerContext_iff.mp hstep
      exact h.registerContext env hc
  | sendLog uptime data =>
      obtain ⟨hc, rfl⟩ := step_sendLog_iff.mp hstep
      exact h.sendLog env hc uptime
  | receive chunk => exact h.readerStep hstep

/-- On every connection of every run the first frame is RegisterApp, and
a log frame of a context comes behind a registration of that context, the
latest of which announces its position in the registry and carries the
ids of the log frame. `open` and `writev` may answer anything each time
they are called. -/
theorem connections_safe (parent : ContextId → LogContextCommon)
    (ops : List Op) (s : DaemonConnection)
    (hrun : Transition.run (step env)
      (DaemonConnection.initial parent) ops = some s) :
    s.contexts.Nodup
      ∧ ∀ connection ∈ s.connections, connection.Safe s.contexts := by
  obtain ⟨sent, hcons, -⟩ := Transition.run_invariant RegistryInv
    registryInv_step (registryInv_initial parent) hrun
  refine ⟨hcons.nodup, ?_⟩
  intro connection hconnection
  rcases List.mem_append.mp hconnection with hclosed | hopen
  · exact (hcons.closed connection hclosed).1
  · exact (hcons.daemon connection (Option.mem_toList.mp hopen)).safe

end Runs

/-- The message of the fixed inputs, for a context. -/
def sampleMessage (c : ContextId) : LogData :=
  .fresh (Vector.replicate maxMessageSize 255) c sampleInfo 4 true 0

/-- The operations of the fixed inputs: a registration and a message. -/
def sampleOps : List Op :=
  [.registerContext 0, .sendLog 0 (sampleMessage 0)]

/-- The state after them, with the daemon there from the start. -/
def sampleState : DaemonConnection :=
  @DaemonConnection.sendLog (sampleEnvironment true) documentedConstants
    ((@DaemonConnection.initial documentedConstants
      fun _ => sampleContext).registerContext (sampleEnvironment true) 0)
    0 (sampleMessage 0)

theorem run_sampleOps :
    Transition.run (@step documentedConstants (sampleEnvironment true))
      (@DaemonConnection.initial documentedConstants fun _ => sampleContext)
      sampleOps = some sampleState := rfl

/-- The sixth write fails, every other one is taken whole. -/
def failingEnvironment : Environment :=
  { sampleEnvironment true with
    writev := fun k => if k = 5 then none else some 65536 }

/-- Two contexts log. The message of the second one is lost in the write
that fails, so the third message opens a connection of its own, on which
both contexts are announced again. -/
def failingOps : List Op :=
  sampleOps ++ [.registerContext 1, .sendLog 1 (sampleMessage 1),
    .sendLog 2 (sampleMessage 0)]

/-- The state after them. -/
def reconnectedState : DaemonConnection :=
  (Transition.run (@step documentedConstants failingEnvironment)
    (@DaemonConnection.initial documentedConstants fun _ => sampleContext)
    failingOps).getD
    (@DaemonConnection.initial documentedConstants fun _ => sampleContext)

theorem connections_safe_sample :
    reconnectedState.connections.map
        (fun connection => connection.written.map Sent.context)
      = [[none, some 0, some 0, some 0, some 1],
        [none, some 0, some 1, some 0]]
      ∧ reconnectedState.contexts.Nodup
      ∧ ∀ connection ∈ reconnectedState.connections,
        connection.Safe reconnectedState.contexts :=
  ⟨rfl, @connections_safe documentedConstants failingEnvironment
    (fun _ => sampleContext) failingOps reconnectedState rfl⟩

-- ========================================================== exactly once

/-- `t` is `s` after `n` writes: connected if `s` is and none of them
fails. Where the connection is lost the count says nothing, since the
writes behind a failed one are not made. -/
structure Writes (env : Environment) (n : Nat) (s t : DaemonConnection) :
    Prop where
  up : t.isDaemonConnected = true ↔ s.isDaemonConnected = true
    ∧ ∀ k < n, env.writev (s.writevs + k) ≠ none
  count : t.isDaemonConnected = true → t.writevs = s.writevs + n

namespace Writes

variable {env : Environment} {s t u : DaemonConnection} {m n : Nat}

theorem refl : Writes env 0 s s := by
  refine ⟨⟨fun h => ⟨h, ?_⟩, And.left⟩, fun _ => rfl⟩
  intro k hk
  cases hk

theorem trans (h : Writes env m s t) (h' : Writes env n t u) :
    Writes env (m + n) s u := by
  refine ⟨?_, ?_⟩
  · rw [h'.up]
    constructor
    · intro hboth
      obtain ⟨ht, hn⟩ := hboth
      obtain ⟨hs, hm⟩ := h.up.mp ht
      refine ⟨hs, ?_⟩
      intro k hk
      rcases Nat.lt_or_ge k m with hlt | hge
      · exact hm k hlt
      · -- a write of the second part, counted from where the first ended
        have hlast := hn (k - m) (by omega)
        rw [h.count ht, Nat.add_assoc, Nat.add_sub_cancel' hge] at hlast
        exact hlast
    · intro hboth
      obtain ⟨hs, hall⟩ := hboth
      have ht := h.up.mpr ⟨hs, fun k hk => hall k (by omega)⟩
      refine ⟨ht, ?_⟩
      intro k hk
      rw [h.count ht, Nat.add_assoc]
      exact hall (m + k) (by omega)
  · intro hu
    have ht := (h'.up.mp hu).1
    rw [h'.count hu, h.count ht, Nat.add_assoc]

theorem send (env : Environment) (s : DaemonConnection)
    (context : Option ContextId) (frame : Frame) :
    Writes env 1 s (s.send env context frame) := by
  rcases DaemonConnection.send_cases env (s := s) context frame with
    ⟨hdaemon, hsend⟩ | ⟨connection, count, hdaemon, hwrite, hsend⟩
      | ⟨connection, hdaemon, hwrite, hsend⟩
  all_goals rw [hsend]
  · have hdown := DaemonConnection.not_isDaemonConnected_iff.mpr hdaemon
    refine ⟨?_, ?_⟩
    · rw [hdown]
      constructor
      · intro h
        cases h
      · intro hboth
        obtain ⟨h, -⟩ := hboth
        cases h
    · intro h
      rw [hdown] at h
      cases h
  · have hup : s.isDaemonConnected = true :=
      DaemonConnection.isDaemonConnected_iff.mpr ⟨connection, hdaemon⟩
    refine ⟨⟨fun _ => ⟨hup, ?_⟩, fun _ => rfl⟩, fun _ => rfl⟩
    intro k hk
    obtain rfl : k = 0 := by omega
    rw [Nat.add_zero, hwrite]
    exact Option.some_ne_none count
  · refine ⟨⟨fun h => (by cases h), ?_⟩, fun h => (by cases h)⟩
    intro hboth
    obtain ⟨-, hall⟩ := hboth
    exact absurd hwrite (hall 0 Nat.one_pos)

theorem sendContextRegistration (env : Environment) (s : DaemonConnection)
    (c : ContextId) : Writes env 1 s (s.sendContextRegistration env c) := by
  have h := send env (s.modify c (DaemonConnection.assignIds env)) (some c)
    (registerContextFrame env.app env.pid (s.object c))
  exact ⟨h.up, h.count⟩

theorem foldl (env : Environment) (s : DaemonConnection)
    (cs : List ContextId) :
    Writes env cs.length s
      (cs.foldl (DaemonConnection.sendContextRegistration env) s) := by
  induction cs generalizing s with
  | nil => exact refl
  | cons c cs ih =>
      rw [List.length_cons, Nat.add_comm]
      exact (sendContextRegistration env s c).trans (ih _)

end Writes

/-- A connection that is opened stays open if the application and every
context are registered without a failed write. -/
theorem DaemonConnection.initDaemonConnection_up (env : Environment)
    {s : DaemonConnection} (hdown : s.daemon = none) :
    ((s.initDaemonConnection env).isDaemonConnected = true
      ↔ env.openFifo s.opens = true
        ∧ ∀ k < s.contexts.length + 1, env.writev (s.writevs + k) ≠ none)
      ∧ ((s.initDaemonConnection env).isDaemonConnected = true →
        (s.initDaemonConnection env).writevs
          = s.writevs + (s.contexts.length + 1)) := by
  have hnot := DaemonConnection.not_isDaemonConnected_iff.mpr hdown
  unfold DaemonConnection.initDaemonConnection
  rw [hnot, if_neg Bool.false_ne_true]
  cases hopen : env.openFifo s.opens with
  | true =>
      -- RegisterApp, and the loop behind it
      have hwrites := (Writes.send env
        { s with opens := s.opens + 1, daemon := some {} } none
        (registerAppFrame env.app env.pid (env.stack s.opens))).trans
          (Writes.foldl env _ s.contexts)
      rw [Nat.add_comm] at hwrites
      rw [if_pos rfl]
      refine ⟨?_, hwrites.count⟩
      rw [hwrites.up]
      constructor
      · intro hboth
        obtain ⟨-, hall⟩ := hboth
        exact ⟨rfl, hall⟩
      · intro hboth
        obtain ⟨-, hall⟩ := hboth
        exact ⟨rfl, hall⟩
  | false =>
      rw [if_neg Bool.false_ne_true]
      have hnot' : ({ s with opens := s.opens + 1 } :
          DaemonConnection).isDaemonConnected = false := hnot
      rw [hnot']
      refine ⟨⟨fun h => (by cases h), ?_⟩, fun h => (by cases h)⟩
      intro hboth
      obtain ⟨h, -⟩ := hboth
      cases h

/-- An operation that does not register a context on a connection it
opens itself and keeps: it finds the connection open, cannot open it, or
loses it in one of its writes, RegisterApp, the loop's, and its own. -/
def RegistersOnce (env : Environment) (s : DaemonConnection) : Op → Prop
  | .registerContext _ =>
      s.isDaemonConnected = true ∨ env.openFifo s.opens = false
        ∨ ∃ k < s.contexts.length + 3, env.writev (s.writevs + k) = none
  | _ => True

/-- A registration that opens the connection leaves it open exactly when
none of its writes fails. -/
theorem DaemonConnection.registerContext_up (env : Environment)
    {s : DaemonConnection} (c : ContextId) (hdown : s.daemon = none) :
    (s.registerContext env c).isDaemonConnected = true
      ↔ env.openFifo s.opens = true
        ∧ ∀ k < s.contexts.length + 3,
          env.writev (s.writevs + k) ≠ none := by
  obtain ⟨hup, hcount⟩ := initDaemonConnection_up env
    (s := s.pushContext c) hdown
  have hlen : (s.pushContext c).contexts.length = s.contexts.length + 1 := by
    show (s.contexts ++ [c]).length = _
    rw [List.length_append, List.length_singleton]
  rw [hlen] at hup hcount
  have hopens : (s.pushContext c).opens = s.opens := rfl
  have hwritevs : (s.pushContext c).writevs = s.writevs := rfl
  rw [hopens, hwritevs] at hup
  rw [hwritevs] at hcount
  have hsend := Writes.sendContextRegistration env
    ((s.pushContext c).initDaemonConnection env) c
  unfold registerContext
  dsimp only
  by_cases h : ((s.pushContext c).initDaemonConnection env).isDaemonConnected
      = true
  · obtain ⟨hopen, hinit⟩ := hup.mp h
    rw [if_pos h, hsend.up, hcount h]
    constructor
    · intro hboth
      obtain ⟨-, hlast⟩ := hboth
      refine ⟨hopen, ?_⟩
      intro k hk
      rcases Nat.lt_or_ge k (s.contexts.length + 2) with hlt | hge
      · exact hinit k hlt
      · -- the last of the writes is the one behind the loop
        obtain rfl : k = s.contexts.length + 2 := by omega
        exact hlast 0 Nat.one_pos
    · intro hboth
      obtain ⟨-, hall⟩ := hboth
      refine ⟨h, ?_⟩
      intro k hk
      obtain rfl : k = 0 := by omega
      exact hall (s.contexts.length + 2) (by omega)
  · rw [if_neg h]
    refine ⟨fun hcon => absurd hcon h, ?_⟩
    intro hboth
    obtain ⟨hopen, hall⟩ := hboth
    exact absurd (hup.mpr ⟨hopen, fun k hk => hall k (by omega)⟩) h

/-- What an open connection makes of `ExactlyOnce`: a condition on `sent`
alone. Closed connections do not count, they have a failed write. -/
theorem Consistent.exactlyOnce_iff {s : DaemonConnection}
    {sent : List ContextId} (h : Consistent s sent) :
    ExactlyOnce s ↔ (s.isDaemonConnected = true →
      ∀ c, sent.count c = if c ∈ s.contexts then 1 else 0) := by
  constructor
  · intro honce hup c
    obtain ⟨connection, hdaemon⟩ :=
      DaemonConnection.isDaemonConnected_iff.mp hup
    have hlive := h.daemon connection hdaemon
    have hmem : connection ∈ s.connections :=
      List.mem_append_right _ (Option.mem_toList.mpr hdaemon)
    rw [← hlive.count c]
    exact (honce connection hmem hlive.failed).2 c
  · intro hcount connection hconnection hfailed
    rcases List.mem_append.mp hconnection with hclosed | hopen
    · exact absurd hfailed (h.closed connection hclosed).2
    · have hdaemon : s.daemon = some connection := Option.mem_toList.mp hopen
      have hlive := h.daemon connection hdaemon
      refine ⟨hlive.apps, ?_⟩
      intro c
      rw [hlive.count c]
      exact hcount (DaemonConnection.isDaemonConnected_iff.mpr
        ⟨connection, hdaemon⟩) c

/-- A registration that leaves open the connection it opened sent its
context twice. -/
theorem Consistent.exactlyOnce_registerContext (env : Environment)
    {s : DaemonConnection} {sent : List ContextId} (h : Consistent s sent)
    {c : ContextId} (hc : c ∉ s.contexts) (hdown : s.daemon = none) :
    ExactlyOnce (s.registerContext env c)
      ↔ ¬ (s.registerContext env c).isDaemonConnected = true := by
  rw [(h.registerContext_disconnected env hc hdown).exactlyOnce_iff]
  constructor
  · intro hcounts hcon
    -- `sent` is the registry with `c`, and `c` again
    have htwo := hcounts hcon c
    rw [DaemonConnection.contexts_registerContext, List.count_append,
      List.count_append, List.count_singleton_self,
      if_pos (List.mem_append_right _ (List.mem_singleton_self c))] at htwo
    omega
  · intro hnot hcon
    exact absurd hcon hnot

/-- While disconnected, to register once is not to stay connected. -/
theorem registersOnce_iff_of_disconnected (env : Environment)
    {s : DaemonConnection} (c : ContextId) (hdown : s.daemon = none) :
    RegistersOnce env s (.registerContext c)
      ↔ ¬ (s.registerContext env c).isDaemonConnected = true := by
  have hconn := DaemonConnection.not_isDaemonConnected_iff.mpr hdown
  rw [DaemonConnection.registerContext_up env c hdown, RegistersOnce, hconn]
  constructor
  · rintro (hcon | hclosed | ⟨k, hk, hwrite⟩) ⟨hopen, hwrites⟩
    · cases hcon
    · rw [hclosed] at hopen
      cases hopen
    · exact hwrites k hk hwrite
  · intro hnot
    apply Or.inr
    by_cases hopen : env.openFifo s.opens = true
    · apply Or.inr
      by_contra hno
      refine hnot ⟨hopen, ?_⟩
      intro k hk hwrite
      exact hno ⟨k, hk, hwrite⟩
    · exact Or.inl (Bool.not_eq_true _ ▸ hopen)

section Runs

variable [DltConstants] {env : Environment}

/-- An operation keeps the connections free of double registrations
exactly when it does not register a context on a connection it opens. A
log frame that opens the connection is no exception to this: its context
is in the registry already, and the loop sends each of these once. -/
theorem exactlyOnce_step_iff (s : DaemonConnection) (op : Op)
    (t : DaemonConnection) (h : RegistryInv s) (honce : ExactlyOnce s)
    (hstep : step env s op = some t) :
    ExactlyOnce t ↔ RegistersOnce env s op := by
  obtain ⟨sent, hcons, hall⟩ := h
  have hcount := hcons.exactlyOnce_iff.mp honce
  cases op with
  | registerContext c =>
      obtain ⟨hc, -, rfl⟩ := step_registerContext_iff.mp hstep
      cases hconn : s.isDaemonConnected with
      | true =>
          refine iff_of_true ?_ (Or.inl hconn)
          refine (hcons.registerContext_connected env hc
            hconn).exactlyOnce_iff.mpr ?_
          intro _ c'
          rw [DaemonConnection.contexts_registerContext, List.count_append,
            hcount hconn, List.count_singleton]
          by_cases hne : c' = c
          · subst hne
            simp [hc]
          · simp [hne, Ne.symm hne]
      | false =>
          have hdown := DaemonConnection.not_isDaemonConnected_iff.mp hconn
          rw [hcons.exactlyOnce_registerContext env hc hdown,
            registersOnce_iff_of_disconnected env c hdown]
  | sendLog uptime data =>
      obtain ⟨hc, rfl⟩ := step_sendLog_iff.mp hstep
      refine iff_of_true ?_ trivial
      cases hconn : s.isDaemonConnected with
      | true =>
          refine (hcons.sendLog_connected env (hall _ hc) hconn
            uptime).exactlyOnce_iff.mpr ?_
          intro _
          rw [DaemonConnection.contexts_sendLog]
          exact hcount hconn
      | false =>
          have hdown := DaemonConnection.not_isDaemonConnected_iff.mp hconn
          refine (hcons.sendLog_disconnected env hc hdown
            uptime).exactlyOnce_iff.mpr ?_
          intro _ c
          rw [DaemonConnection.contexts_sendLog]
          exact hcons.nodup.count
  | receive chunk =>
      -- a chunk sets levels: the same list will do, nothing was written
      have hsame := readerStep_invariant
        (fun u => Consistent u sent ∧ u.contexts = s.contexts
          ∧ u.daemon = s.daemon) (by
          rintro u c level ⟨hu, hcontexts, hdaemon⟩
          exact ⟨hu.modify c (fun _ => rfl) (fun _ => rfl), hcontexts,
            hdaemon⟩)
        ⟨hcons, rfl, rfl⟩ hstep
      obtain ⟨hcons', hcontexts, hdaemon⟩ := hsame
      refine iff_of_true (hcons'.exactlyOnce_iff.mpr ?_) trivial
      rw [hcontexts, DaemonConnection.isDaemonConnected, hdaemon]
      exact hcount

/-- In a run, every connection without a failed write has one RegisterApp
and one registration of every context registered so far, in every state,
exactly when no registration opens the connection it is sent on. -/
theorem exactlyOnce_iff_registersOnce
    (parent : ContextId → LogContextCommon) (ops : List Op)
    (s : DaemonConnection)
    (hrun : Transition.run (step env)
      (DaemonConnection.initial parent) ops = some s) :
    (∀ before after t, ops = before ++ after →
      Transition.run (step env) (DaemonConnection.initial parent) before
        = some t → ExactlyOnce t)
      ↔ Transition.Throughout (step env) (RegistersOnce env)
          (DaemonConnection.initial parent) ops := by
  refine Transition.forall_reached_iff_throughout _ registryInv_step
    exactlyOnce_step_iff (registryInv_initial parent) ?_ hrun
  apply (Consistent.initial parent).exactlyOnce_iff.mpr
  intro hup
  cases hup

end Runs

/-- The first registration opens the connection, and its context is
registered twice. -/
theorem registerContext_twice :
    ¬ ExactlyOnce
      ((@DaemonConnection.initial documentedConstants
        fun _ => sampleContext).registerContext (sampleEnvironment true)
          0) := by
  intro honce
  have htwo := (honce _ (List.mem_append_right _ (List.mem_singleton_self _))
    rfl).2 0
  revert htwo
  decide

theorem exactlyOnce_iff_registersOnce_sample :
    (∀ before after t, sampleOps = before ++ after →
      Transition.run (@step documentedConstants (sampleEnvironment true))
        (@DaemonConnection.initial documentedConstants
          fun _ => sampleContext) before = some t → ExactlyOnce t)
      ↔ Transition.Throughout
          (@step documentedConstants (sampleEnvironment true))
          (RegistersOnce (sampleEnvironment true))
          (@DaemonConnection.initial documentedConstants
            fun _ => sampleContext) sampleOps :=
  @exactlyOnce_iff_registersOnce documentedConstants (sampleEnvironment true)
    (fun _ => sampleContext) sampleOps sampleState run_sampleOps

end IviLogging.DltCpp
