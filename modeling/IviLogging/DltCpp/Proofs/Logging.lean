/-
What one event of a process can do.

A process takes events: a context is used, a statement begins, a value is
written, an entry ends, bytes arrive from the daemon, a level is set. The
invariants of its runs are about the registry, the levels, the counters
and the entries that are open, and each of them would have to look into
every event. So what an event can do is said once, here.

# The members left alone

`Keeps f` says that the objects before and after look the same to `f`, a
function of one object: its level, its counter, its position. Each
operation on the connection keeps every `f` that does not look at the
members it writes, and it writes few: registrations write the ids in the
header, `registerContext` the position besides, an entry the counter, the
reader the level. A module that is about one member instantiates `f` with
it and gets its frame lemmas by `rfl`.

# The events

`Process.step_cases` gives for each event its effect, the guards included
(`Effect`). Two of the operations behind it have cases of their own: the
first use of a context registers it and the later ones do nothing
(`checkContext_cases`), and the end of an entry sends its message or does
not (`destroyEntry_cases`). The invariants of whole runs are case analyses
over these; the registry's is the first of them (`registryInv_step`).
-/
import IviLogging.DltCpp.Logging
import IviLogging.DltCpp.Proofs.LogData
import IviLogging.DltCpp.Proofs.Registration

namespace IviLogging.DltCpp

-- ==================================================== members left alone

/-- `t` has the objects of `s`, as far as `f` looks at them. For `f` a single
member it says that nobody has written that member. -/
def Keeps {α : Type} (f : DltCppContext → α) (s t : DaemonConnection) :
    Prop :=
  ∀ c, f (t.object c) = f (s.object c)

namespace Keeps

variable {α : Type} {f : DltCppContext → α} {s t u : DaemonConnection}

theorem refl : Keeps f s s := fun _ => rfl

theorem trans (h : Keeps f s t) (h' : Keeps f t u) : Keeps f s u :=
  fun c => (h' c).trans (h c)

/-- A write to members that `f` does not look at. -/
theorem modify (c : ContextId) {g : DltCppContext → DltCppContext}
    (hg : ∀ x, f (g x) = f x) : Keeps f s (s.modify c g) := by
  intro c'
  by_cases hc : c' = c
  · subst hc
    rw [DaemonConnection.object_modify_self, hg]
  · rw [DaemonConnection.object_modify_of_ne s c g hc]

variable (env : Environment)

/-- What is sent goes to the connection, not to the objects. -/
theorem send (context : Option ContextId) (frame : Frame) :
    Keeps f s (s.send env context frame) := by
  intro c
  rw [DaemonConnection.object_send]

/-- Registrations write the ids of the header only. -/
theorem sendContextRegistration
    (hids : ∀ x, f (DaemonConnection.assignIds env x) = f x)
    (c : ContextId) : Keeps f s (s.sendContextRegistration env c) :=
  (Keeps.modify c hids).trans (Keeps.send env _ _)

/-- A new connection registers every context of the registry again, one after
the other, and does nothing else to them. -/
theorem initDaemonConnection
    (hids : ∀ x, f (DaemonConnection.assignIds env x) = f x) :
    Keeps f s (s.initDaemonConnection env) := by
  have hloop : ∀ (cs : List ContextId) (t : DaemonConnection),
      Keeps f t (cs.foldl (DaemonConnection.sendContextRegistration env) t) := by
    intro cs
    induction cs with
    | nil =>
        intro t
        exact refl
    | cons c cs ih =>
        intro t
        exact (sendContextRegistration env hids c).trans (ih _)
  unfold DaemonConnection.initDaemonConnection
  split
  · exact refl
  · split
    · exact (Keeps.send env (s := { s with
        opens := s.opens + 1, daemon := some {} }) none _).trans (hloop _ _)
    · exact refl

/-- `registerContext` also writes the position: where the context will stand
in the registry. -/
theorem registerContext
    (hids : ∀ x, f (DaemonConnection.assignIds env x) = f x)
    (hpos : ∀ (x : DltCppContext) p, f { x with logLevelPos := p } = f x)
    (c : ContextId) : Keeps f s (s.registerContext env c) := by
  -- the position is written when the context joins the registry
  have hpush : Keeps f s (s.pushContext c) := by
    intro c'
    by_cases hc : c' = c
    · subst hc
      rw [DaemonConnection.object_pushContext_self, hpos]
    · rw [DaemonConnection.object_pushContext_of_ne s hc]
  have hinit := hpush.trans (initDaemonConnection env hids)
  unfold DaemonConnection.registerContext
  dsimp only
  split
  · exact hinit.trans (sendContextRegistration env hids c)
  · exact hinit

/-- A message that is sent may open the connection first. -/
theorem sendLog [DltConstants]
    (hids : ∀ x, f (DaemonConnection.assignIds env x) = f x)
    (uptime : UInt32) (data : LogData) :
    Keeps f s (s.sendLog env uptime data) := by
  have hinit : Keeps f s _ := initDaemonConnection env hids
  unfold DaemonConnection.sendLog
  dsimp only
  split
  · exact hinit.trans (send env _ _)
  · exact hinit

/-- An entry takes a number. -/
theorem createLog [DltConstants] {p : Process}
    (hcount : ∀ (x : DltCppContext) n, f { x with messageCount := n } = f x)
    (c : ContextId) (info : LogInfo)
    (memory : Vector UInt8 maxMessageSize) :
    Keeps f p.daemon (p.createLog c info memory).daemon := by
  rw [Process.daemon_createLog]
  exact modify c fun x => hcount x _

/-- The reader writes levels only, so `f` is kept along all the messages of
a chunk. -/
theorem readerStep
    (hlevel : ∀ (x : DltCppContext) l, f { x with activeLogLevel := l } = f x)
    {chunk : Chunk} (h : DltCpp.readerStep s chunk = some t) :
    Keeps f s t := by
  refine readerStep_invariant (Keeps f s) ?_ refl h
  intro u c level hu
  exact hu.trans (modify c fun x => hlevel x level)

end Keeps

-- ============================================================= one event

/-- A write changes an entry's message, not whose it is, nor its number
or the filter's answer. -/
theorem Entry.write_keeps [DltConstants] (e : Entry) (call : WriteCall) :
    (e.write call).statement = e.statement
      ∧ (e.write call).data.context = e.data.context
      ∧ (e.write call).data.enabled = e.data.enabled
      ∧ (e.write call).data.messageCount = e.data.messageCount := by
  -- a call on the data leaves its other members as they are
  have hcall : ∀ c : WriteCall, (e.data.call c).context = e.data.context
      ∧ (e.data.call c).enabled = e.data.enabled
      ∧ (e.data.call c).messageCount = e.data.messageCount := by
    intro c
    obtain ⟨hcontext, -, henabled, hcount⟩ := LogData.calls_keep e.data [c]
    exact ⟨hcontext, henabled, hcount⟩
  -- what every call but one does: it looks at the filter and then calls the
  -- data
  have hplain : ∀ c : WriteCall,
      (if e.data.enabled then { e with data := e.data.call c } else e).statement
          = e.statement
        ∧ (if e.data.enabled then { e with data := e.data.call c }
            else e).data.context = e.data.context
        ∧ (if e.data.enabled then { e with data := e.data.call c }
            else e).data.enabled = e.data.enabled
        ∧ (if e.data.enabled then { e with data := e.data.call c }
            else e).data.messageCount = e.data.messageCount := by
    intro c
    split
    · exact ⟨rfl, hcall c⟩
    · exact ⟨rfl, rfl, rfl, rfl⟩
  cases call with
  -- only a setting of the entry, whatever the filter says
  | setHexEnabled enabled => exact ⟨rfl, rfl, rfl, rfl⟩
  | _ => exact hplain _

namespace Process

variable [DltConstants] {env : Environment} {s t : Process}

/-- A context is registered at its first use only; after that the use of it
changes nothing at all. -/
theorem checkContext_cases {c : ContextId}
    (h : s.checkContext env c = some t) :
    (s.registered c = true ∧ t = s)
      ∨ (s.registered c = false ∧ c ∉ s.daemon.contexts
        ∧ t = { s with
            daemon := s.daemon.registerContext env c
            registered := Function.update s.registered c true }) := by
  unfold checkContext at h
  split at h
  · next hreg =>
    cases h
    exact Or.inl ⟨hreg, rfl⟩
  · next hreg =>
    obtain ⟨daemon, hstep, rfl⟩ := Option.map_eq_some_iff.mp h
    obtain ⟨hc, -, rfl⟩ := step_registerContext_iff.mp hstep
    exact Or.inr ⟨Bool.not_eq_true _ ▸ hreg, hc, rfl⟩

/-- A use of a context touches no entry and no statement. -/
theorem checkContext_keeps {c : ContextId}
    (h : s.checkContext env c = some t) :
    t.entries = s.entries ∧ t.begun = s.begun ∧ t.handed = s.handed := by
  rcases checkContext_cases h with ⟨-, rfl⟩ | ⟨-, -, rfl⟩
  · exact ⟨rfl, rfl, rfl⟩
  · exact ⟨rfl, rfl, rfl⟩

/-- A log statement creates an entry or none. It creates one also if only
another backend of the context wants the message. -/
theorem log_cases {c : ContextId} {info : LogInfo} {others : Bool}
    {memory : Vector UInt8 maxMessageSize}
    (h : s.log env c info others memory = some t) :
    ∃ u, s.checkContext env c = some u
      ∧ ((((u.daemon.object c).isEnabled info.level || others) = true
          ∧ t = { u.createLog c info memory with begun := u.begun + 1 })
        ∨ (((u.daemon.object c).isEnabled info.level || others) = false
          ∧ t = { u with begun := u.begun + 1 })) := by
  obtain ⟨u, hu, rfl⟩ := Option.map_eq_some_iff.mp h
  refine ⟨u, hu, ?_⟩
  cases hen : ((u.daemon.object c).isEnabled info.level || others) with
  | true => exact Or.inl ⟨rfl, rfl⟩
  | false => exact Or.inr ⟨rfl, rfl⟩

/-- The end of an entry sends its message or does not, and either way a fatal
entry ends the process. -/
theorem destroyEntry_cases {e : Entry} {thread : ThreadInformation}
    {uptime : UInt32} (h : s.destroyEntry env e thread uptime = some t) :
    (e.data.enabled = true ∧ e.data.context ∈ s.daemon.contexts
        ∧ t = { s with
            daemon := s.daemon.sendLog env uptime
              (e.data.writeTrailer env.base thread)
            handed := s.handed ++ [e.statement]
            aborted := decide (e.data.data.level = .fatal) })
      ∨ (e.data.enabled = false
        ∧ t = { s with
            aborted := decide (e.data.data.level = .fatal) }) := by
  obtain ⟨u, hu, rfl⟩ := Option.map_eq_some_iff.mp h
  split at hu
  · next hen =>
    obtain ⟨daemon, hstep, rfl⟩ := Option.map_eq_some_iff.mp hu
    obtain ⟨hc, rfl⟩ := step_sendLog_iff.mp hstep
    -- the trailer writes arguments only, so it is still the message of the
    -- same context
    have hcontext : (e.data.writeTrailer env.base thread).context
        = e.data.context := by
      rw [LogData.writeTrailer_eq_calls]
      exact (LogData.calls_keep _ _).1
    rw [hcontext] at hc
    exact Or.inl ⟨hen, hc, rfl⟩
  · next hen =>
    cases hu
    exact Or.inr ⟨Bool.not_eq_true _ ▸ hen, rfl⟩

/-- What an event does. -/
def Effect (env : Environment) (s t : Process) : Event → Prop
  | .use c => s.checkContext env c = some t
  | .log c info others memory => s.log env c info others memory = some t
  | .write call => ∃ e es, s.entries = e :: es
      ∧ t = { s with entries := e.write call :: es }
  | .destroy thread uptime => ∃ e es, s.entries = e :: es
      ∧ { s with entries := es }.destroyEntry env e thread uptime = some t
  | .receive chunk => ∃ daemon, readerStep s.daemon chunk = some daemon
      ∧ t = { s with daemon := daemon }
  | .setActiveLogLevel c level =>
      t = { s with daemon := s.daemon.setActiveLogLevel c level }

/-- A process that has aborted takes no event, and any other the event's
effect. -/
theorem step_cases {event : Event} (h : s.step env event = some t) :
    s.aborted = false ∧ Effect env s t event := by
  unfold step at h
  split at h
  · cases h
  · next haborted =>
    refine ⟨Bool.not_eq_true _ ▸ haborted, ?_⟩
    cases event with
    | use c => exact h
    | log c info others memory => exact h
    | write call =>
        dsimp only at h
        split at h
        · cases h
        · next e es hentries =>
          cases h
          exact ⟨e, es, hentries, rfl⟩
    | destroy thread uptime =>
        dsimp only at h
        split at h
        · cases h
        · next e es hentries => exact ⟨e, es, hentries, h⟩
    | receive chunk =>
        obtain ⟨daemon, hstep, rfl⟩ := Option.map_eq_some_iff.mp h
        exact ⟨daemon, hstep, rfl⟩
    | setActiveLogLevel c level =>
        cases h
        rfl

/-- The registration protocol's invariant, event by event. Three events reach
the connection, and each is an operation that keeps it; the others write
members of objects that the invariant does not look at. -/
theorem registryInv_step {event : Event} (h : RegistryInv s.daemon)
    (hstep : s.step env event = some t) : RegistryInv t.daemon := by
  -- a first use and a statement both begin with it
  have hcheck : ∀ {u : Process} {c : ContextId},
      s.checkContext env c = some u → RegistryInv u.daemon := by
    intro u c hu
    rcases checkContext_cases hu with ⟨-, rfl⟩ | ⟨-, hc, rfl⟩
    · exact h
    · exact h.registerContext env hc
  obtain ⟨-, heffect⟩ := step_cases hstep
  cases event with
  | use c => exact hcheck heffect
  | log c info others memory =>
      obtain ⟨u, hu, hcases⟩ := log_cases heffect
      have hinv := hcheck hu
      rcases hcases with ⟨-, rfl⟩ | ⟨-, rfl⟩
      · exact hinv.modify c (f := fun x =>
          { x with messageCount := x.messageCount + 1 }) (fun _ => rfl)
          (fun _ => rfl)
      · exact hinv
  | write call =>
      obtain ⟨e, es, -, rfl⟩ := heffect
      exact h
  | destroy thread uptime =>
      obtain ⟨e, es, -, hdestroy⟩ := heffect
      rcases destroyEntry_cases hdestroy with ⟨-, hc, rfl⟩ | ⟨-, rfl⟩
      · -- the context of the message is one of the registry
        refine h.sendLog env ?_ uptime
        rw [LogData.writeTrailer_eq_calls, (LogData.calls_keep _ _).1]
        exact hc
      · exact h
  | receive chunk =>
      obtain ⟨daemon, hread, rfl⟩ := heffect
      exact h.readerStep hread
  | setActiveLogLevel c level =>
      obtain rfl := heffect
      exact h.modify c (f := fun x => { x with activeLogLevel := level })
        (fun _ => rfl) (fun _ => rfl)

end Process

/-- A use of a context is a registration at most. -/
theorem Keeps.checkContext [DltConstants] {env : Environment}
    {s t : Process} {α : Type} {f : DltCppContext → α}
    (hids : ∀ x, f (DaemonConnection.assignIds env x) = f x)
    (hpos : ∀ (x : DltCppContext) p, f { x with logLevelPos := p } = f x)
    {c : ContextId} (h : s.checkContext env c = some t) :
    Keeps f s.daemon t.daemon := by
  rcases Process.checkContext_cases h with ⟨-, rfl⟩ | ⟨-, -, rfl⟩
  · exact Keeps.refl
  · exact Keeps.registerContext env hids hpos c

end IviLogging.DltCpp
