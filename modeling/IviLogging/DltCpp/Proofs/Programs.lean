/-
The programs of an application, as runs of a process that logs.

There are two models of what an application does with the DLT. A `Process`
is the backend with its log entries: it knows of the other backends by the
events it is given only, and its open entries are a stack. A program runs
through the template of the log contexts: it knows the other backends, and
its open entries are the program's own structure. What is proved of the
runs of a `Process` is about programs only if the one is the other, and
that is what this module says.

# Where a process is

`Follows` says that a process is where the DLT backend of a program is: the
same connection, the same contexts in use, aborted both or neither. The
entries are not in it, as a program has none between two statements; what
they are in the middle of one comes as a condition beside it. `Reaches` is
the form in which every construct is stated: the process gets by some
events to where the program is.

# The statements

Each log statement is an event, nested ones included (`Follows.log`), then
there are those of its operands, and the end of its entry if nothing ends
the process before (`Follows.destroyEntry`). The proofs go by recursion
over the program, one theorem for each of the four functions that run one
(`exec`, `execAll`, `insert`, `stream`). Through the operands goes which
message the innermost entry has (`Innermost`); a nested statement leaves
the stack as it was when it is over.

# What follows

Where the DLT backend is one of the backends of a log context, its part of
a program's run is the run of a `Process` (`program_is_run`). So what holds
of all runs of a `Process` holds of all programs, the registration protocol
for one (`program_connections_safe`).
-/
import IviLogging.DltCpp.Proofs.Logging
import IviLogging.Proofs.ContextTypes

namespace IviLogging.DltCpp

open Transition (run run_append)

/-- The invariant of the registry, in what it says of the connections. -/
theorem RegistryInv.safe {s : DaemonConnection} (h : RegistryInv s) :
    s.contexts.Nodup
      ∧ ∀ connection ∈ s.connections, connection.Safe s.contexts := by
  obtain ⟨sent, hcons, -⟩ := h
  refine ⟨hcons.nodup, ?_⟩
  intro connection hconnection
  rcases List.mem_append.mp hconnection with hclosed | hopen
  · exact (hcons.closed connection hclosed).1
  · exact (hcons.daemon connection (Option.mem_toList.mp hopen)).safe

section Programs

variable [DltConstants] {env : Environment}
  {whole : Backends NativeValue Moment Command} {M : Type}
  (π : Component (.ofList [dltCppContextClass env]) whole)

-- ============================================================ the same state

/-- A process is where a program's DLT backend is. The open entries are not
compared: the program has none to compare them with. -/
structure Follows (w : World whole M) (s : Process) : Prop where
  daemon : s.daemon = (π.state w.state).1
  registered : s.registered = w.registered
  aborted : s.aborted = w.aborted

/-- From a process on, some events lead to where the program is, and to the
open entries that `Open` describes, unless the program has ended by then. -/
def Reaches (s : Process) (w : World whole M) (Open : Process → Prop) :
    Prop :=
  ∃ events t, run (Process.step env) s events = some t ∧ Follows π w t
    ∧ (w.aborted = false → Open t)

variable {π} {w w' : World whole M} {s : Process}

/-- No event is needed. -/
theorem Reaches.refl (h : Follows π w s) {Open : Process → Prop}
    (hopen : Open s) : Reaches π s w Open :=
  ⟨[], s, rfl, h, fun _ => hopen⟩

/-- Events before. -/
theorem Reaches.after {events : List Event} {t : Process}
    (hrun : run (Process.step env) s events = some t)
    {Open : Process → Prop} (h : Reaches π t w Open) : Reaches π s w Open := by
  obtain ⟨later, u, hlater, hfollows, hopen⟩ := h
  exact ⟨events ++ later, u, run_append.mpr ⟨t, hrun, hlater⟩, hfollows,
    hopen⟩

/-- One event before. -/
theorem Reaches.step (event : Event) {t : Process}
    (hstep : s.step env event = some t) {Open : Process → Prop}
    (h : Reaches π t w Open) : Reaches π s w Open := by
  have hone : run (Process.step env) s [event] = some t :=
    Transition.run_cons.mpr ⟨t, hstep, rfl⟩
  exact .after hone h

/-- Both register the context at its first use. -/
theorem Follows.checkContext (h : Follows π w s) {c : Nat}
    (hcheck : w.checkContext c = some w') :
    ∃ t, s.checkContext env c = some t ∧ Follows π w' t
      ∧ t.entries = s.entries := by
  unfold World.checkContext at hcheck
  unfold Process.checkContext
  rw [h.registered]
  by_cases hregistered : w.registered c = true
  · rw [if_pos hregistered] at hcheck ⊢
    cases hcheck
    exact ⟨s, rfl, h, rfl⟩
  · rw [if_neg hregistered] at hcheck ⊢
    obtain ⟨state, hstate, rfl⟩ := Option.map_eq_some_iff.mp hcheck
    have hstep := Backends.registerContext_single (π.registerContext hstate)
    rw [← h.daemon] at hstep
    rw [show DltCpp.step env s.daemon (.registerContext c)
      = some (π.state state).1 from hstep]
    exact ⟨_, rfl, ⟨rfl, rfl, h.aborted⟩, rfl⟩

/-- Values are no switch. -/
theorem Entry.write_dltCppCall (e : Entry) (v : NativeValue) :
    e.write v.dltCppCall =
      if e.data.enabled then { e with data := e.data.call v.dltCppCall }
      else e := by
  cases v <;> rfl

/-- The severity of a statement stays what it is. -/
theorem Entry.level_write (e : Entry) (call : WriteCall) :
    (e.write call).data.data.level = e.data.data.level := by
  have hcall : ∀ c : WriteCall,
      (if e.data.enabled then { e with data := e.data.call c }
        else e).data.data.level = e.data.data.level := by
    intro c
    split
    · exact (congrArg LogInfo.level (LogData.data_calls e.data [c])).trans rfl
    · rfl
  cases call with
  | setHexEnabled enabled => rfl
  | _ => exact hcall _

/-- The innermost entry has this message, of this severity. -/
def Innermost (d : LogData) (level : LogLevel) (es : List Entry)
    (s : Process) : Prop :=
  ∃ e, s.entries = e :: es ∧ e.data = d ∧ d.data.level = level

/-- What is done to the backends is an event, or nothing: a command for the
console does not reach the DLT. -/
theorem Follows.control (h : Follows π w s) (halive : w.aborted = false)
    {command : Command} {state : whole.State}
    (hcontrol : whole.control w.state command = some state) :
    Reaches π s { w with state := state } fun t => t.entries = s.entries := by
  have hstart : s.aborted = false := h.aborted.trans halive
  have hpart := Backends.control_single (π.control hcontrol)
  rw [← h.daemon] at hpart
  have hfollows : Follows π { w with state := state }
      { s with daemon := (π.state state).1 } :=
    ⟨rfl, h.registered, h.aborted⟩
  have hend : Reaches π { s with daemon := (π.state state).1 }
      { w with state := state } fun t => t.entries = s.entries :=
    .refl hfollows rfl
  cases command with
  | stream event =>
      -- the backend is as it was, so no event is needed
      have hsame : s = { s with daemon := (π.state state).1 } :=
        congrArg (fun daemon => { s with daemon := daemon })
          (Option.some.inj hpart)
      rw [← hsame] at hend
      exact hend
  | receive chunk =>
      refine Reaches.step (.receive chunk) ?_ hend
      rw [Process.step, if_neg (by simp [hstart])]
      exact congrArg (Option.map _) hpart
  | setActiveLogLevel c level =>
      refine Reaches.step (.setActiveLogLevel c level) ?_ hend
      rw [Process.step, if_neg (by simp [hstart]), ← Option.some.inj hpart]

/-- A write to the innermost entry. -/
theorem Follows.write (h : Follows π w s) (halive : w.aborted = false)
    {d d' : whole.Data} {level : LogLevel} {es : List Entry}
    (hopen : Innermost (π.data d).1 level es s) (call : WriteCall)
    (hcall : ∀ e : Entry, e.data = (π.data d).1 →
      (e.write call).data = (π.data d').1) :
    Reaches π s w (Innermost (π.data d').1 level es) := by
  obtain ⟨e, hentries, he, hlevel⟩ := hopen
  refine Reaches.step (.write call)
    (t := { s with entries := e.write call :: es }) ?_
    ⟨[], _, rfl, ⟨h.daemon, h.registered, h.aborted⟩, fun _ =>
      ⟨e.write call, rfl, hcall e he, ?_⟩⟩
  · rw [Process.step, if_neg (by simp [h.aborted, halive]), hentries]
  · rw [← hcall e he, e.level_write, he, hlevel]

/-- The end of the innermost entry. A program that has ended does not get
there, and its process has ended too. -/
theorem Follows.destroyEntry (h : Follows π w s) {info : LogInfo}
    {destroyed : Moment} {d : whole.Data} {es : List Entry}
    (hopen : w.aborted = false →
      Innermost (π.data d).1 info.level es s)
    (hdestroy : w.destroyEntry info destroyed d = some w') :
    Reaches π s w' fun t => t.entries = es := by
  unfold World.destroyEntry at hdestroy
  by_cases haborted : w.aborted = true
  · rw [if_pos haborted] at hdestroy
    cases hdestroy
    exact ⟨[], s, rfl, h, fun hnot => absurd (haborted.symm.trans hnot)
      Bool.noConfusion⟩
  · rw [if_neg haborted] at hdestroy
    obtain ⟨state, hstate, rfl⟩ := Option.map_eq_some_iff.mp hdestroy
    obtain ⟨e, hentries, he, hlevel⟩ := hopen (Bool.eq_false_iff.mpr haborted)
    have hpart := Backends.destroy_single (π.destroy hstate)
    rw [← h.daemon, ← he] at hpart
    have hstep : s.step env
        (.destroy destroyed.stream.thread destroyed.uptime)
        = ({ s with entries := es } : Process).destroyEntry env e
            destroyed.stream.thread destroyed.uptime := by
      rw [Process.step, if_neg (by simp [h.aborted, haborted]), hentries]
    -- the message is sent or not, as the entry knows
    by_cases henabled : e.data.enabled = true
    · have hsend := (if_pos henabled).symm.trans hpart
      refine Reaches.step
        (.destroy destroyed.stream.thread destroyed.uptime)
        (t := { s with
          daemon := (π.state state).1
          entries := es
          handed := s.handed ++ [e.statement]
          aborted := decide (info.level = .fatal) }) ?_
        ⟨[], _, rfl, ⟨rfl, h.registered, rfl⟩, fun _ => rfl⟩
      rw [hstep, Process.destroyEntry, if_pos henabled, Process.sendEntry,
        show DltCpp.step env _ _ = some (π.state state).1 from hsend,
        ← hlevel, ← he]
      rfl
    · have hsame := Option.some.inj ((if_neg henabled).symm.trans hpart)
      refine Reaches.step
        (.destroy destroyed.stream.thread destroyed.uptime)
        (t := { s with
          entries := es
          aborted := decide (info.level = .fatal) }) ?_
        ⟨[], _, rfl, ⟨hsame, h.registered, rfl⟩, fun _ => rfl⟩
      rw [hstep, Process.destroyEntry, if_neg henabled, ← hlevel, ← he]
      rfl

/-- A log statement up to its entry, if it has one. The process is told whether
another backend wants the message; if the DLT wants it, so does the
whole, and the answers are the same. -/
theorem Follows.log (h : Follows π w s) (halive : w.aborted = false)
    {c : Nat} {w₁ : World whole M} (hcheck : w.checkContext c = some w₁)
    (info : LogInfo) (created : Moment) :
    ∃ t, s.step env (.log c info (whole.isEnabled w₁.state c info.level)
          created.message) = some t
      ∧ if whole.isEnabled w₁.state c info.level = true then
          ∀ w₂ d, w₁.createLog c info created = some (w₂, d) →
            Follows π w₂ t ∧ Innermost (π.data d).1 info.level s.entries t
        else Follows π w₁ t ∧ t.entries = s.entries := by
  obtain ⟨u, hu, hfollows, hentries⟩ := h.checkContext hcheck
  -- the DLT is one of the backends, so its answer adds nothing to theirs
  have hwanted : ((u.daemon.object c).isEnabled info.level
        || whole.isEnabled w₁.state c info.level)
      = whole.isEnabled w₁.state c info.level := by
    cases hdlt : (u.daemon.object c).isEnabled info.level with
    | false => exact Bool.false_or _
    | true =>
        rw [hfollows.daemon] at hdlt
        have hpart : (Backends.ofList [dltCppContextClass env]).isEnabled
            (π.state w₁.state) c info.level = true :=
          Bool.or_eq_true_iff.mpr (Or.inl hdlt)
        exact (π.isEnabled hpart).symm
  have hstep : s.step env (.log c info
        (whole.isEnabled w₁.state c info.level) created.message)
      = s.log env c info (whole.isEnabled w₁.state c info.level)
          created.message := by
    rw [Process.step, if_neg (by simp [h.aborted, halive])]
  rw [hstep, Process.log, hu, Option.map_some, hwanted]
  refine ⟨_, rfl, ?_⟩
  by_cases henabled : whole.isEnabled w₁.state c info.level = true
  · rw [if_pos henabled]
    intro w₂ d hcreate
    obtain ⟨⟨state, d'⟩, hinit, heq⟩ := Option.map_eq_some_iff.mp hcreate
    cases heq
    have hpart := Backends.init_single (π.init hinit)
    rw [← hfollows.daemon] at hpart
    obtain ⟨hstate, hdata⟩ := Prod.mk.inj (Option.some.inj hpart)
    rw [henabled]
    refine ⟨⟨hstate, hfollows.registered, hfollows.aborted⟩,
      u.newEntry c info created.message, ?_, hdata, ?_⟩
    · rw [← hentries]
      rfl
    · rw [← hdata]
      rfl
  · rw [if_neg henabled, Bool.eq_false_iff.mpr henabled]
    exact ⟨⟨hfollows.daemon, hfollows.registered, hfollows.aborted⟩, hentries⟩

-- ============================================================ the statements

mutual

/-- The events of a statement: the one that creates its entry, those of what
is streamed into it, and the one that ends it. The four theorems are one
induction over the syntax of programs, -/
theorem Follows.exec {w w' : World whole M} {s : Process}
    (h : Follows π w s) (halive : w.aborted = false)
    (st : LogStatement NativeValue Moment Command M)
    (hexec : w.exec st = some w') :
    Reaches π s w' fun t => t.entries = s.entries := by
  match st with
  | .compute f =>
      cases hexec
      exact ⟨[], s, rfl, ⟨h.daemon, h.registered, h.aborted⟩, fun _ => rfl⟩
  | .control command =>
      obtain ⟨state, hstate, rfl⟩ := Option.map_eq_some_iff.mp hexec
      exact h.control halive hstate
  | .log c info created destroyed operands =>
      rw [World.exec] at hexec
      obtain ⟨w₁, hcheck, hexec⟩ := Option.bind_eq_some_iff.mp hexec
      obtain ⟨t, hstep, hlog⟩ := h.log halive hcheck info created
      refine Reaches.step _ hstep ?_
      by_cases henabled : whole.isEnabled w₁.state c info.level = true
      · rw [if_pos henabled] at hexec hlog
        obtain ⟨⟨w₂, d₂⟩, hcreate, hexec⟩ := Option.bind_eq_some_iff.mp hexec
        obtain ⟨⟨w₃, d₃⟩, hstream, hexec⟩ := Option.bind_eq_some_iff.mp hexec
        obtain ⟨hfollows, hopen⟩ := hlog w₂ d₂ hcreate
        obtain ⟨events, u, hrun, hfollows, hopen⟩ :=
          Follows.stream hfollows (fun _ => hopen) operands hstream
        exact .after hrun (hfollows.destroyEntry hopen hexec)
      · rw [if_neg henabled] at hexec hlog
        cases hexec
        exact .refl hlog.1 hlog.2

/-- of some statements, up to the one that ends the process, -/
theorem Follows.execAll {w w' : World whole M} {s : Process}
    (h : Follows π w s)
    (ss : List (LogStatement NativeValue Moment Command M))
    (hexec : w.execAll ss = some w') :
    Reaches π s w' fun t => t.entries = s.entries := by
  match ss with
  | [] =>
      cases hexec
      exact .refl h rfl
  | st :: rest =>
      rw [World.execAll] at hexec
      by_cases haborted : w.aborted = true
      · rw [if_pos haborted] at hexec
        cases hexec
        exact .refl h rfl
      · rw [if_neg haborted] at hexec
        obtain ⟨w₁, hfirst, hrest⟩ := Option.bind_eq_some_iff.mp hexec
        obtain ⟨events, t, hrun, hfollows, hopen⟩ :=
          h.exec (Bool.eq_false_iff.mpr haborted) st hfirst
        obtain ⟨later, u, hlater, hend, hclosed⟩ :=
          Follows.execAll hfollows rest hrest
        -- a process that is alive at the end was alive in between
        refine .after hrun ⟨later, u, hlater, hend, fun halive => ?_⟩
        exact (hclosed halive).trans
          (hopen (World.alive_of_execAll hrest halive))

/-- of what stands behind a `<<`: first the statements of its evaluation,
which leave the entry innermost as it was, and then the write, -/
theorem Follows.insert {w w' : World whole M} {s : Process}
    (h : Follows π w s) (halive : w.aborted = false)
    {d d' : whole.Data} {level : LogLevel} {es : List Entry}
    (hopen : Innermost (π.data d).1 level es s)
    (operand : LogOperand NativeValue Moment Command M)
    (hexec : w.insert d operand = some (w', d')) :
    Reaches π s w' (Innermost (π.data d').1 level es) := by
  match operand with
  | .setHexEnabled enabled =>
      cases hexec
      refine h.write halive hopen (.setHexEnabled enabled) ?_
      intro e he
      rw [π.setHexEnabled]
      exact congrArg (LogData.setHexEnabled · enabled) he
  | .insert evaluation value =>
      rw [World.insert] at hexec
      obtain ⟨w₁, heval, hexec⟩ := Option.bind_eq_some_iff.mp hexec
      obtain ⟨events, t, hrun, hfollows, hstill⟩ :=
        Follows.execAll h evaluation heval
      refine .after hrun ?_
      by_cases haborted : w₁.aborted = true
      · rw [if_pos haborted] at hexec
        -- a nested statement has ended the process: nothing is written any
        -- more
        cases hexec
        exact ⟨[], t, rfl, hfollows, fun hnot =>
          absurd (haborted.symm.trans hnot) Bool.noConfusion⟩
      · rw [if_neg haborted] at hexec
        obtain ⟨d₁, hwrite, heq⟩ := Option.map_eq_some_iff.mp hexec
        cases heq
        have hpart := Backends.write_single (π.write hwrite)
        have hnot := Bool.eq_false_iff.mpr haborted
        refine hfollows.write (d := d) hnot ?_ (value w'.memory).dltCppCall ?_
        · obtain ⟨e, hentries, hdata⟩ := hopen
          exact ⟨e, (hstill hnot).trans hentries, hdata⟩
        · intro e he
          rw [e.write_dltCppCall, apply_ite Entry.data, he]
          exact Option.some.inj ((apply_ite some _ _ _).trans hpart)

/-- and of all that. -/
theorem Follows.stream {w w' : World whole M} {s : Process}
    (h : Follows π w s)
    {d d' : whole.Data} {level : LogLevel} {es : List Entry}
    (hopen : w.aborted = false → Innermost (π.data d).1 level es s)
    (operands : List (LogOperand NativeValue Moment Command M))
    (hexec : w.stream d operands = some (w', d')) :
    Reaches π s w' (Innermost (π.data d').1 level es) := by
  match operands with
  | [] =>
      cases hexec
      exact ⟨[], s, rfl, h, hopen⟩
  | operand :: rest =>
      rw [World.stream] at hexec
      by_cases haborted : w.aborted = true
      · rw [if_pos haborted] at hexec
        cases hexec
        exact ⟨[], s, rfl, h, hopen⟩
      · rw [if_neg haborted] at hexec
        have halive := Bool.eq_false_iff.mpr haborted
        obtain ⟨⟨w₁, d₁⟩, hfirst, hrest⟩ := Option.bind_eq_some_iff.mp hexec
        obtain ⟨events, t, hrun, hfollows, hstill⟩ :=
          h.insert halive (hopen halive) operand hfirst
        exact .after hrun (Follows.stream hfollows hstill rest hrest)

end

variable (π)

/-- The process that a program's DLT backend begins with: no entry is open, and
no statement has begun. -/
def startOf (w : World whole M) : Process where
  daemon := (π.state w.state).1
  registered := w.registered
  entries := []
  begun := 0
  handed := []
  aborted := w.aborted

theorem follows_startOf (w : World whole M) : Follows π w (startOf π w) :=
  ⟨rfl, rfl, rfl⟩

/-- The DLT backend's part of a program's run is a run of a process that
logs: from what it was to what it is, with the same contexts in use, ended
where the program has ended, and else without an open entry. -/
theorem program_is_run
    (front back : List (BackendType NativeValue Moment Command))
    {p : List (LogStatement NativeValue Moment Command M)}
    {w w' : World (.ofList (front ++ dltCppContextClass env :: back)) M}
    (hrun : w.execAll p = some w') :
    ∃ events s',
      run (Process.step env)
          (startOf (Component.only (dltCppContextClass env) back front) w)
          events = some s'
        ∧ s'.daemon = ((Component.only (dltCppContextClass env) back
            front).state w'.state).1
        ∧ s'.registered = w'.registered
        ∧ s'.aborted = w'.aborted
        ∧ (w'.aborted = false → s'.entries = []) := by
  obtain ⟨events, s', hevents, hfollows, hclosed⟩ :=
    (follows_startOf (Component.only _ back front) w).execAll p hrun
  exact ⟨events, s', hevents, hfollows.daemon, hfollows.registered,
    hfollows.aborted, hclosed⟩

/-- Whatever a program logs, and to whatever other backends: on every
connection to the daemon the first frame is RegisterApp, and a log frame of
a context comes behind a registration of it, the latest of which announces
its position and carries the ids of the frame. -/
theorem program_connections_safe (parent : ContextId → LogContextCommon)
    (front back : List (BackendType NativeValue Moment Command))
    {p : List (LogStatement NativeValue Moment Command M)}
    {w w' : World (.ofList (front ++ dltCppContextClass env :: back)) M}
    (hstart : ((Component.only (dltCppContextClass env) back front).state
      w.state).1 = .initial parent)
    (hrun : w.execAll p = some w') :
    let s : DaemonConnection :=
      ((Component.only (dltCppContextClass env) back front).state
        w'.state).1
    s.contexts.Nodup
      ∧ ∀ connection ∈ s.connections, connection.Safe s.contexts := by
  obtain ⟨events, s', hevents, hfollows, -⟩ :=
    (follows_startOf (Component.only _ back front) w).execAll p hrun
  have hinitial : RegistryInv (startOf
      (Component.only (dltCppContextClass env) back front) w).daemon := by
    rw [startOf, hstart]
    exact registryInv_initial parent
  have hinv : RegistryInv s'.daemon := Transition.run_invariant
    (fun s : Process => RegistryInv s.daemon)
    (fun s event t h hstep => Process.registryInv_step h hstep)
    hinitial hevents
  rw [hfollows.daemon] at hinv
  exact hinv.safe

end Programs

-- ================================================================== a sample

/-- A program of the fixed inputs gets through. -/
theorem sampleProgram_runs (connected : Bool) :
    ∃ w', (sampleBackends connected).execAll sampleProgram = some w' := by
  have hrun : ((sampleBackends connected).execAll sampleProgram).isSome
      = true := by
    cases connected <;> decide
  exact Option.isSome_iff_exists.mp hrun

theorem program_is_run_sample :
    ∃ w', (sampleBackends false).execAll sampleProgram = some w'
      ∧ ∃ events s', run
          (@Process.step documentedConstants (sampleEnvironment false))
          (@startOf documentedConstants _ _ _
            (Component.only _ [Stream.consoleLogContext] [])
            (sampleBackends false))
          events = some s'
        ∧ (w'.aborted = false → s'.entries = []) := by
  obtain ⟨w', hw'⟩ := sampleProgram_runs false
  obtain ⟨events, s', hevents, -, -, -, hclosed⟩ :=
    @program_is_run documentedConstants _ _ [] [_] _ _ _ hw'
  exact ⟨w', hw', events, s', hevents, hclosed⟩

theorem program_connections_safe_sample :
    ∃ w', (sampleBackends true).execAll sampleProgram = some w'
      ∧ ∀ connection ∈ (DaemonConnection.connections w'.state.1),
        connection.Safe (DaemonConnection.contexts w'.state.1) := by
  obtain ⟨w', hw'⟩ := sampleProgram_runs true
  exact ⟨w', hw', (@program_connections_safe documentedConstants _ _ _
    [] [_] _ _ _ rfl hw').2⟩

end IviLogging.DltCpp
