/-
Two threads that connect at the same time: what can go wrong, and what
does not.

# The opener

While the daemon is not connected, both threads may find the descriptor
closed, and the first `open` gives it a value that both see at once. The
thread that did it, the opener, has yet to register the application and
every context; the other one is free to log. The invariant (`Inv`) speaks
of one connection as long as none was lost: there is an opener, its program
counter says which of the registrations are on the connection, and the
other thread is outside of the replay (`Opener`). Without a connection no
thread is past its `open`.

That the program counter says it exactly, and not only that what it says
was sent, is what makes the condition below exact.

# The steps

A step does one of three things (`step_cases`): it moves on without a write
(`Quiet`), it opens the pipe (`Opens`), or it writes one frame (`Writes`).
The invariant and the conditions look at these three only, none of them
looks into `step` again.

# What goes wrong

Two things: a second connection, and a log frame in front of a registration
it needs (`Clean`). An `open` goes wrong exactly when there is a connection
already, and a log frame exactly when the opener has not yet come as far as
the frame's context (`clean_step_iff`). Over a run this is the condition
that every step waits (`clean_iff_waits`). Nothing in the code makes a step
wait: the descriptor is visible from the `open` on, and `sendLog` takes no
lock, so both ways do happen (`threads_interfere`).

# One thread

A thread that nobody disturbs is the `sendLog` of the connection
(`alone_sendLog`), which ties the steps here to the function that all
other modules are about.
-/
import IviLogging.DltCpp.Threads
import IviLogging.DltCpp.Proofs.Counter

namespace IviLogging.DltCpp

open Transition (run Throughout)

-- =============================================================== frames

/-- The three frames. -/
inductive FrameKind
  | app | registration | log
  deriving DecidableEq

def Frame.kind : Frame → FrameKind
  | .registerApp _ _ _ => .app
  | .registerContext _ _ _ => .registration
  | .sendLog _ _ _ _ _ => .log

/-- What was written, and for which context. -/
def Sent.kind (x : Sent) : FrameKind × Option ContextId :=
  (x.frame.kind, x.context)

/-- The application is registered. -/
def HasApp (written : List Sent) : Prop := (.app, none) ∈ written.map Sent.kind

/-- The context is registered. -/
def HasContext (written : List Sent) (c : ContextId) : Prop :=
  (.registration, some c) ∈ written.map Sent.kind

/-- Every log frame follows the RegisterApp and the registration of its
context. -/
def Connection.Ordered (connection : Connection) : Prop :=
  ∀ before x after c, connection.written = before ++ x :: after →
    x.kind = (.log, some c) → HasApp before ∧ HasContext before c

theorem hasApp_concat {written : List Sent} {x : Sent} :
    HasApp (written ++ [x]) ↔ HasApp written ∨ x.kind = (.app, none) := by
  simp [HasApp, eq_comm]

theorem hasContext_concat {written : List Sent} {x : Sent} {c : ContextId} :
    HasContext (written ++ [x]) c
      ↔ HasContext written c ∨ x.kind = (.registration, some c) := by
  simp [HasContext, eq_comm]

/-- One frame more. The others have in front of them what they had, so only a
log frame has something to show. -/
theorem Connection.ordered_concat {connection : Connection} {x : Sent} :
    ({ connection with written := connection.written ++ [x] }
      : Connection).Ordered
      ↔ connection.Ordered ∧ ∀ c, x.kind = (.log, some c) →
        HasApp connection.written ∧ HasContext connection.written c := by
  constructor
  · intro h
    refine ⟨?_, ?_⟩
    · intro before y after c heq hy
      refine h before y (after ++ [x]) c ?_ hy
      show connection.written ++ [x] = _
      rw [heq, List.append_assoc, List.cons_append]
    · intro c hx
      exact h connection.written x [] c rfl hx
  · intro hboth
    obtain ⟨h, hlast⟩ := hboth
    intro before y after c heq hy
    -- the frame in question is the new one, or stands in front of it
    rcases List.eq_nil_or_concat after with rfl | ⟨after', z, rfl⟩
    · obtain ⟨hinit, hxy⟩ := List.append_inj' heq rfl
      cases hxy
      cases hinit
      exact hlast c hy
    · rw [List.concat_eq_append, ← List.cons_append,
        ← List.append_assoc] at heq
      obtain ⟨hinit, -⟩ := List.append_inj' heq rfl
      exact h before y after' c hinit hy

-- ============================================== where the threads are

/-- Between the `open` and the end of the replay. -/
def Pc.Replays : Pc → Prop
  | .opened | .registerApp | .registerContext _ => True
  | _ => False

/-- Behind the RegisterApp of the replay. -/
def Pc.Announced : Pc → Prop
  | .registerContext _ | .check | .sendLog | .done => True
  | _ => False

/-- The contexts a thread that opened the connection has registered: none
in front of the loop, the first `k` in it, and all of them behind it. -/
def Pc.announced (contexts : List ContextId) : Pc → List ContextId
  | .registerContext k => contexts.take k
  | .check | .sendLog | .done => contexts
  | _ => []

/-- There are two threads. -/
theorem Thread.eq_other_of_ne {t o : Thread} (h : t ≠ o) : t = o.other := by
  cases t <;> cases o <;> first | rfl | exact absurd rfl h

theorem Thread.other_ne (o : Thread) : o.other ≠ o := by
  cases o <;> exact Thread.noConfusion

namespace Threads

-- ============================================================= the steps

/-- The steps that write nothing. -/
inductive Quiet (s : Threads) : Pc → Pc → Prop
  | connected : s.daemon.daemon ≠ none → Quiet s .init .check
  | disconnected : s.daemon.daemon = none → Quiet s .init .opening
  | opened : Quiet s .opened .registerApp
  | replayed {k : Nat} : s.daemon.contexts.length ≤ k →
      Quiet s (.registerContext k) .check
  | check : Quiet s .check .sendLog

/-- The steps that write a frame, for a thread that logs on `context`. -/
inductive Puts (s : Threads) (context : ContextId) : Pc → Sent → Pc → Prop
  | app {x : Sent} : x.kind = (.app, none) →
      Puts s context .registerApp x (.registerContext 0)
  | registration {x : Sent} {k : Nat} {c : ContextId} :
      s.daemon.contexts[k]? = some c → x.kind = (.registration, some c) →
      Puts s context (.registerContext k) x (.registerContext (k + 1))
  | log {x : Sent} : x.kind = (.log, some context) →
      Puts s context .sendLog x .done

/-- The step that opens the pipe. If there was a connection, it is lost:
the descriptor that leads to it is overwritten. -/
structure Opens (s s' : Threads) (t : Thread) : Prop where
  opening : s.pc t = .opening
  daemon : s'.daemon.daemon = some {}
  contexts : s'.daemon.contexts = s.daemon.contexts
  lost : s'.lost = s.opened
  pcs : s'.pc = Function.update s.pc t .opened

/-- A step that writes the frame `x`, of a thread that logs on
`context`. -/
structure Writes (s s' : Threads) (t : Thread) (context : ContextId)
    (connection : Connection) (x : Sent) (pc : Pc) : Prop where
  puts : Puts s context (s.pc t) x pc
  daemon : s.daemon.daemon = some connection
  written : s'.daemon.daemon = some { connection with
    written := connection.written ++ [x] }
  contexts : s'.daemon.contexts = s.daemon.contexts
  lost : s'.lost = s.lost
  pcs : s'.pc = Function.update s.pc t pc

variable {env : Environment} {statement : Thread → Statement}
  {s s' : Threads} {t : Thread}

/-- A frame that is written, in front of the next step. The state `d` that
is sent from may differ from the connection in the members of a context,
which the registration of a context sets first. -/
theorem writes_of_send {connection : Connection}
    (hdaemon : s.daemon.daemon = some connection) {d : DaemonConnection}
    (hd : d.daemon = s.daemon.daemon) (hwritevs : d.writevs = s.daemon.writevs)
    (hcontexts : d.contexts = s.daemon.contexts) {context : ContextId}
    {receiver : Option ContextId} {frame : Frame} {pc pc' : Pc}
    (hpc : s.pc t = pc)
    (hputs : ∀ n, Puts s context pc ⟨receiver, frame, n⟩ pc')
    (h : (s.write env (d.send env receiver frame)).map (fun s => s.goto t pc')
      = some s') :
    ∃ x, Writes s s' t context connection x pc' := by
  subst hpc
  obtain ⟨s₁, hwrite, heq⟩ := Option.map_eq_some_iff.mp h
  simp only [write, Option.ite_none_left_eq_some] at hwrite
  obtain ⟨hwritev, hwritten⟩ := hwrite
  cases hwritten
  cases heq
  rcases d.send_cases env receiver frame with
    ⟨hnone, -⟩ | ⟨connection', count, hsome, -, hsend⟩ | ⟨-, -, hfail, -⟩
  · rw [hd, hdaemon] at hnone
    cases hnone
  · rw [hd, hdaemon] at hsome
    cases hsome
    rw [hsend]
    exact ⟨_, hputs _, hdaemon, rfl, hcontexts, rfl, rfl⟩
  · rw [hwritevs] at hfail
    exact absurd hfail hwritev

/-- A thread that is past its `open` has a connection. -/
theorem exists_connection
    (hup : s.daemon.daemon = none → s.pc t = .init ∨ s.pc t = .opening)
    {pc : Pc} (hpc : s.pc t = pc) (hinit : pc ≠ .init)
    (hopening : pc ≠ .opening) :
    ∃ connection, s.daemon.daemon = some connection := by
  subst hpc
  cases hdaemon : s.daemon.daemon with
  | none =>
      rcases hup hdaemon with hpc | hpc
      · exact absurd hpc hinit
      · exact absurd hpc hopening
  | some connection => exact ⟨connection, rfl⟩

/-- What a step does, for a thread that is past its `open` only with a
connection there. The hypothesis is part of the invariant; without it a
test of the descriptor could fail behind the `open`. -/
theorem step_cases [DltConstants]
    (hup : s.daemon.daemon = none → s.pc t = .init ∨ s.pc t = .opening)
    (h : s.step env statement t = some s') :
    (∃ pc, Quiet s (s.pc t) pc ∧ s' = s.goto t pc)
      ∨ Opens s s' t
      ∨ ∃ connection x pc,
        Writes s s' t (statement t).data.context connection x pc := by
  have hup' : ∀ {connection}, s.daemon.daemon = some connection →
      s.daemon.isDaemonConnected = true := fun hdaemon =>
    DaemonConnection.isDaemonConnected_iff.mpr ⟨_, hdaemon⟩
  unfold step at h
  cases hpc : s.pc t with
  | init =>
      simp only [hpc, Option.some.injEq] at h
      refine Or.inl ⟨_, ?_, h.symm⟩
      cases hdaemon : s.daemon.daemon with
      | none =>
          have hdown : ¬ s.daemon.isDaemonConnected = true := by
            rw [DaemonConnection.not_isDaemonConnected_iff.mpr hdaemon]
            exact Bool.false_ne_true
          rw [if_neg hdown]
          exact Quiet.disconnected hdaemon
      | some connection =>
          rw [if_pos (hup' hdaemon)]
          apply Quiet.connected
          rw [hdaemon]
          exact Option.some_ne_none _
  | opening =>
      simp only [hpc] at h
      obtain ⟨s₁, hopen, heq⟩ := Option.map_eq_some_iff.mp h
      simp only [openDaemon, Option.ite_none_right_eq_some] at hopen
      obtain ⟨-, hopen⟩ := hopen
      cases hopen
      cases heq
      exact Or.inr (Or.inl ⟨hpc, rfl, rfl, rfl, rfl⟩)
  | opened =>
      obtain ⟨connection, hdaemon⟩ :=
        exists_connection hup hpc Pc.noConfusion Pc.noConfusion
      simp only [hpc, if_pos (hup' hdaemon), Option.some.injEq] at h
      exact Or.inl ⟨_, Quiet.opened, h.symm⟩
  | registerApp =>
      obtain ⟨connection, hdaemon⟩ :=
        exists_connection hup hpc Pc.noConfusion Pc.noConfusion
      simp only [hpc] at h
      obtain ⟨x, hx⟩ := writes_of_send hdaemon rfl rfl rfl hpc
        (fun _ => Puts.app rfl) h
      exact Or.inr (Or.inr ⟨connection, x, _, hx⟩)
  | registerContext k =>
      obtain ⟨connection, hdaemon⟩ :=
        exists_connection hup hpc Pc.noConfusion Pc.noConfusion
      simp only [hpc] at h
      cases hk : s.daemon.contexts[k]? with
      | none =>
          simp only [hk, Option.some.injEq] at h
          exact Or.inl ⟨_, Quiet.replayed (List.getElem?_eq_none_iff.mp hk),
            h.symm⟩
      | some c =>
          simp only [hk] at h
          obtain ⟨x, hx⟩ := writes_of_send
            (d := s.daemon.modify c (DaemonConnection.assignIds env))
            hdaemon rfl rfl rfl hpc (fun _ => Puts.registration hk rfl) h
          exact Or.inr (Or.inr ⟨connection, x, _, hx⟩)
  | check =>
      obtain ⟨connection, hdaemon⟩ :=
        exists_connection hup hpc Pc.noConfusion Pc.noConfusion
      simp only [hpc, if_pos (hup' hdaemon), Option.some.injEq] at h
      exact Or.inl ⟨_, Quiet.check, h.symm⟩
  | sendLog =>
      obtain ⟨connection, hdaemon⟩ :=
        exists_connection hup hpc Pc.noConfusion Pc.noConfusion
      simp only [hpc] at h
      obtain ⟨x, hx⟩ := writes_of_send hdaemon rfl rfl rfl hpc
        (fun _ => Puts.log rfl) h
      exact Or.inr (Or.inr ⟨connection, x, _, hx⟩)
  | done =>
      simp only [hpc] at h
      cases h

-- ========================================================= the invariant

/-- The thread that opened the connection: what is on it are the
registrations it has sent, no fewer and no more. The other thread is not
in the replay, so that it adds none. -/
structure Opener (s : Threads) (connection : Connection) (o : Thread) :
    Prop where
  opened : s.pc o ≠ .init ∧ s.pc o ≠ .opening
  other : ¬ (s.pc o.other).Replays
  app : HasApp connection.written ↔ (s.pc o).Announced
  contexts : ∀ c, HasContext connection.written c
    ↔ c ∈ (s.pc o).announced s.daemon.contexts

/-- Without a connection no thread is past its `open`; with one that was
not lost there is its opener. -/
structure Inv (statement : Thread → Statement) (s : Threads) : Prop where
  known : ∀ t, (statement t).data.context ∈ s.daemon.contexts
  down : s.daemon.daemon = none →
    s.lost = [] ∧ ∀ t, s.pc t = .init ∨ s.pc t = .opening
  up : ∀ connection, s.daemon.daemon = some connection → s.lost = [] →
    ∃ o, Opener s connection o

/-- A step that writes nothing leaves the opener where it is. -/
theorem Quiet.announced {pc pc' : Pc} (h : Quiet s pc pc')
    (hinit : pc ≠ .init) :
    (pc' ≠ .init ∧ pc' ≠ .opening) ∧ (pc'.Announced ↔ pc.Announced)
      ∧ pc'.announced s.daemon.contexts = pc.announced s.daemon.contexts := by
  cases h with
  | connected _ => exact absurd rfl hinit
  | disconnected _ => exact absurd rfl hinit
  | opened => exact ⟨⟨Pc.noConfusion, Pc.noConfusion⟩, Iff.rfl, rfl⟩
  | replayed hk =>
      refine ⟨⟨Pc.noConfusion, Pc.noConfusion⟩, Iff.rfl, ?_⟩
      exact (List.take_of_length_le hk).symm
  | check => exact ⟨⟨Pc.noConfusion, Pc.noConfusion⟩, Iff.rfl, rfl⟩

/-- Nor does it take a thread into the replay that is not in it. -/
theorem Quiet.not_replays {pc pc' : Pc} (h : Quiet s pc pc')
    (hpc : ¬ pc.Replays) : ¬ pc'.Replays := by
  cases h with
  | opened => exact absurd trivial hpc
  | replayed _ => exact absurd trivial hpc
  | _ => exact id

/-- A frame of the opener is what it announces next, and its log frame
announces nothing. -/
theorem Puts.announced {context : ContextId} {pc pc' : Pc} {x : Sent}
    (h : Puts s context pc x pc') :
    (pc' ≠ .init ∧ pc' ≠ .opening)
      ∧ (pc'.Announced ↔ pc.Announced ∨ x.kind = (.app, none))
      ∧ ∀ c, c ∈ pc'.announced s.daemon.contexts
        ↔ c ∈ pc.announced s.daemon.contexts
          ∨ x.kind = (.registration, some c) := by
  cases h with
  | app hx =>
      refine ⟨⟨Pc.noConfusion, Pc.noConfusion⟩, ?_, ?_⟩
      · simp [Pc.Announced, hx]
      · simp [Pc.announced, hx]
  | registration hk hx =>
      refine ⟨⟨Pc.noConfusion, Pc.noConfusion⟩, ?_, ?_⟩
      · simp [Pc.Announced]
      · intro c
        simp only [Pc.announced, hx, Prod.mk.injEq, Option.some.injEq,
          true_and]
        rw [List.take_add_one, hk, List.mem_append, Option.mem_toList]
        simp
  | log hx =>
      refine ⟨⟨Pc.noConfusion, Pc.noConfusion⟩, ?_, ?_⟩
      · simp [Pc.Announced]
      · simp [Pc.announced, hx]

/-- A thread outside of the replay writes no registration. -/
theorem Puts.not_replays {context : ContextId} {pc pc' : Pc} {x : Sent}
    (h : Puts s context pc x pc') (hpc : ¬ pc.Replays) :
    ¬ pc'.Replays ∧ x.kind = (.log, some context) := by
  cases h with
  | app _ => exact absurd trivial hpc
  | registration _ _ => exact absurd trivial hpc
  | log hx => exact ⟨id, hx⟩

namespace Opener

variable {connection : Connection} {o : Thread}

/-- A step that writes nothing, of the opener or of the other thread. -/
theorem quiet (h : Opener s connection o) {pc : Pc}
    (hquiet : Quiet s (s.pc t) pc) : Opener (s.goto t pc) connection o := by
  by_cases ht : t = o
  · subst ht
    obtain ⟨hopened, happ, hcontexts⟩ := hquiet.announced h.opened.1
    refine ⟨?_, ?_, ?_, ?_⟩
    · simpa [goto] using hopened
    · simpa [goto, Function.update_of_ne (Thread.other_ne t)] using h.other
    · simpa [goto, happ] using h.app
    · simpa [goto, hcontexts] using h.contexts
  · have hother := Thread.eq_other_of_ne ht
    subst hother
    have hne := (Thread.other_ne o).symm
    refine ⟨?_, ?_, ?_, ?_⟩
    · simpa [goto, Function.update_of_ne hne] using h.opened
    · simpa [goto] using hquiet.not_replays h.other
    · simpa [goto, Function.update_of_ne hne] using h.app
    · simpa [goto, Function.update_of_ne hne] using h.contexts

/-- A step that writes a frame: of the opener it is what its new program
counter says, of the other thread it is a log frame. -/
theorem writes (h : Opener s connection o) {context : ContextId} {x : Sent}
    {pc : Pc} (hwrites : Writes s s' t context connection x pc) :
    Opener s' { connection with written := connection.written ++ [x] }
      o := by
  by_cases ht : t = o
  · subst ht
    obtain ⟨hopened, happ, hann⟩ := hwrites.puts.announced
    refine ⟨?_, ?_, ?_, ?_⟩
    · simpa [hwrites.pcs] using hopened
    · simpa [hwrites.pcs, Function.update_of_ne (Thread.other_ne t)]
        using h.other
    · rw [hasApp_concat, h.app, hwrites.pcs, Function.update_self, happ]
    · intro c
      rw [hasContext_concat, h.contexts, hwrites.pcs, hwrites.contexts,
        Function.update_self, hann]
  · have hother := Thread.eq_other_of_ne ht
    subst hother
    have hne := (Thread.other_ne o).symm
    -- the other thread is outside of the replay, so it writes its log frame
    obtain ⟨hreplays, hx⟩ := hwrites.puts.not_replays h.other
    refine ⟨?_, ?_, ?_, ?_⟩
    · simpa [hwrites.pcs, Function.update_of_ne hne] using h.opened
    · simpa [hwrites.pcs] using hreplays
    · rw [hasApp_concat, h.app, hwrites.pcs, Function.update_of_ne hne]
      simp [hx]
    · intro c
      rw [hasContext_concat, h.contexts, hwrites.pcs, hwrites.contexts,
        Function.update_of_ne hne]
      simp [hx]

/-- The thread that opens the pipe is the opener of the connection, as the
other one is not past its `open`. -/
theorem opens (hopens : Opens s s' t)
    (hother : s.pc t.other = .init ∨ s.pc t.other = .opening) :
    Opener s' {} t := by
  refine ⟨?_, ?_, ?_, ?_⟩
  · rw [hopens.pcs, Function.update_self]
    exact ⟨Pc.noConfusion, Pc.noConfusion⟩
  · rw [hopens.pcs, Function.update_of_ne (Thread.other_ne t)]
    rcases hother with hpc | hpc
    · rw [hpc]
      exact id
    · rw [hpc]
      exact id
  · rw [hopens.pcs, Function.update_self]
    simp [HasApp, Pc.Announced]
  · intro c
    rw [hopens.pcs, Function.update_self]
    simp [HasContext, Pc.announced]

end Opener

/-- Both threads begin without a connection. -/
theorem inv_start {daemon : DaemonConnection} (hdaemon : daemon.daemon = none)
    (hknown : ∀ t, (statement t).data.context ∈ daemon.contexts) :
    Inv statement (start daemon) := by
  refine ⟨hknown, fun _ => ⟨rfl, fun _ => Or.inl rfl⟩, ?_⟩
  intro connection hsome
  exact absurd (hdaemon.symm.trans hsome) nofun

/-- Without a connection a step that writes nothing does not pass the
`open`. -/
theorem Inv.quiet (h : Inv statement s) {pc : Pc}
    (hquiet : Quiet s (s.pc t) pc) : Inv statement (s.goto t pc) := by
  refine ⟨h.known, ?_, ?_⟩
  · intro hdown
    obtain ⟨hlost, hpcs⟩ := h.down hdown
    refine ⟨hlost, fun t' => ?_⟩
    by_cases ht : t' = t
    · subst ht
      simp only [goto, Function.update_self]
      rcases hpcs t' with hpc | hpc
      · rw [hpc] at hquiet
        -- the first test finds the descriptor closed
        cases hquiet with
        | connected hup => exact absurd hdown hup
        | disconnected _ => exact Or.inr rfl
      · rw [hpc] at hquiet
        cases hquiet
    · simp only [goto, Function.update_of_ne ht]
      exact hpcs t'
  · intro connection hup hlost
    obtain ⟨o, ho⟩ := h.up connection hup hlost
    exact ⟨o, ho.quiet hquiet⟩

/-- A first `open` makes its thread the opener; a second one loses a
connection, and the invariant has nothing more to say. -/
theorem Inv.opens (h : Inv statement s) (hopens : Opens s s' t) :
    Inv statement s' := by
  refine ⟨fun t' => ?_, ?_, ?_⟩
  · rw [hopens.contexts]
    exact h.known t'
  · intro hdown
    rw [hopens.daemon] at hdown
    cases hdown
  · intro connection hup hnone
    rw [hopens.daemon] at hup
    cases hup
    rw [hopens.lost, opened, List.append_eq_nil_iff] at hnone
    have hdown : s.daemon.daemon = none :=
      Option.toList_eq_nil_iff.mp hnone.2
    exact ⟨t, Opener.opens hopens ((h.down hdown).2 t.other)⟩

/-- A frame is written on the connection that there is, by its opener or
by the other thread. -/
theorem Inv.writes (h : Inv statement s) {context : ContextId}
    {connection : Connection} {x : Sent} {pc : Pc}
    (hwrites : Writes s s' t context connection x pc) :
    Inv statement s' := by
  refine ⟨fun t' => ?_, ?_, ?_⟩
  · rw [hwrites.contexts]
    exact h.known t'
  · intro hdown
    rw [hwrites.written] at hdown
    cases hdown
  · intro connection' hup hnone
    rw [hwrites.written] at hup
    cases hup
    rw [hwrites.lost] at hnone
    obtain ⟨o, ho⟩ := h.up connection hwrites.daemon hnone
    exact ⟨o, ho.writes hwrites⟩

/-- What a step does, under the invariant. -/
theorem Inv.step_cases [DltConstants] (h : Inv statement s)
    (hstep : s.step env statement t = some s') :
    (∃ pc, Quiet s (s.pc t) pc ∧ s' = s.goto t pc)
      ∨ Opens s s' t
      ∨ ∃ connection x pc,
        Writes s s' t (statement t).data.context connection x pc :=
  Threads.step_cases (fun hdown => (h.down hdown).2 t) hstep

/-- Every step keeps the invariant. -/
theorem inv_step [DltConstants] (h : Inv statement s)
    (hstep : s.step env statement t = some s') : Inv statement s' := by
  rcases h.step_cases hstep with
    ⟨pc, hquiet, heq⟩ | hopens | ⟨connection, x, pc, hwrites⟩
  · subst heq
    exact h.quiet hquiet
  · exact h.opens hopens
  · exact h.writes hwrites

-- =============================================== waiting for the opener

/-- At most one connection was opened, and on it every log frame follows
the registrations it needs. -/
structure Clean (s : Threads) : Prop where
  once : s.opened.length ≤ 1
  ordered : ∀ connection ∈ s.opened, connection.Ordered

/-- The step opens no second connection, and writes no log frame while
the other thread still has to register the application or the frame's
context. It is a condition on the state in front of the step: the program
counters, the descriptor and the registry. -/
def Waits (statement : Thread → Statement) (s : Threads) (t : Thread) :
    Prop :=
  match s.pc t with
  | .opening => s.daemon.daemon = none
  | .sendLog =>
      match s.pc t.other with
      | .opened | .registerApp => False
      | .registerContext k =>
          (statement t).data.context ∈ s.daemon.contexts.take k
      | _ => True
  | _ => True

/-- A step that writes nothing has nothing to wait for. -/
theorem Waits.of_quiet {pc : Pc} (h : Quiet s (s.pc t) pc) :
    Waits statement s t := by
  unfold Waits
  generalize s.pc t = from_ at h
  cases h <;> exact trivial

/-- What the opener has registered decides whether the log frame may
go. -/
theorem Opener.waits_iff {connection : Connection} {o : Thread}
    (h : Opener s connection o)
    (hknown : (statement t).data.context ∈ s.daemon.contexts)
    (hpc : s.pc t = .sendLog) :
    Waits statement s t ↔ HasApp connection.written
      ∧ HasContext connection.written (statement t).data.context := by
  rw [h.app, h.contexts]
  unfold Waits
  rw [hpc]
  -- the opener itself logs behind its own replay, and never waits
  by_cases ht : t = o
  · subst ht
    have hother := h.other
    rw [hpc]
    cases hpc' : s.pc t.other with
    | opened => exact absurd (hpc' ▸ hother) (fun hno => hno trivial)
    | registerApp => exact absurd (hpc' ▸ hother) (fun hno => hno trivial)
    | registerContext k =>
        exact absurd (hpc' ▸ hother) (fun hno => hno trivial)
    | _ => exact ⟨fun _ => ⟨trivial, hknown⟩, fun _ => trivial⟩
  · have hother : t.other = o := by
      rw [Thread.eq_other_of_ne ht]
      cases o <;> rfl
    rw [hother]
    -- the other thread waits by where the opener is
    have hopened := h.opened
    cases hpc' : s.pc o with
    | init => exact absurd hpc' hopened.1
    | opening => exact absurd hpc' hopened.2
    | opened => simp [Pc.Announced]
    | registerApp => simp [Pc.Announced]
    | registerContext k => simp [Pc.Announced, Pc.announced]
    | _ => simpa [Pc.Announced, Pc.announced] using hknown

/-- The `open` leaves a clean state exactly when it is the first. -/
theorem clean_opens_iff (hinv : Inv statement s) (hopens : Opens s s' t) :
    Clean s' ↔ s.daemon.daemon = none := by
  have hopened : s'.opened = s.opened ++ [({} : Connection)] := by
    rw [opened, hopens.lost, hopens.daemon]
    rfl
  constructor
  · intro hclean
    have honce := hclean.once
    rw [hopened, List.length_append, List.length_singleton] at honce
    have hnil : s.opened = [] := List.length_eq_zero_iff.mp (by omega)
    exact Option.toList_eq_nil_iff.mp (List.append_eq_nil_iff.mp hnil).2
  · intro hdown
    have hnil : s.opened = [] := by
      rw [opened, (hinv.down hdown).1, hdown]
      rfl
    rw [hnil, List.nil_append] at hopened
    refine ⟨?_, ?_⟩
    · rw [hopened]
      exact Nat.le_refl _
    · intro connection hconnection before x after c heq
      rw [hopened] at hconnection
      cases List.mem_singleton.mp hconnection
      cases before <;> cases heq

/-- In a clean state there is the one connection. -/
theorem Clean.lost_eq_nil (h : Clean s) {connection : Connection}
    (hdaemon : s.daemon.daemon = some connection) : s.lost = [] := by
  have honce := h.once
  rw [opened, hdaemon, List.length_append, Option.toList_some,
    List.length_singleton] at honce
  exact List.length_eq_zero_iff.mp (by omega)

/-- A frame keeps a clean state clean exactly when it is no log frame or
the registrations it needs are on the connection. -/
theorem clean_writes_iff (h : Clean s) {context : ContextId}
    {connection : Connection} {x : Sent} {pc : Pc}
    (hwrites : Writes s s' t context connection x pc) :
    Clean s' ↔ ∀ c, x.kind = (.log, some c) →
      HasApp connection.written ∧ HasContext connection.written c := by
  have hnil := h.lost_eq_nil hwrites.daemon
  have hordered : connection.Ordered := by
    apply h.ordered
    rw [opened, hwrites.daemon, hnil]
    exact List.mem_singleton_self _
  have hopened : s'.opened = [{ connection with
      written := connection.written ++ [x] }] := by
    rw [opened, hwrites.lost, hnil, hwrites.written]
    rfl
  constructor
  · intro hclean
    refine (Connection.ordered_concat.mp (hclean.ordered _ ?_)).2
    rw [hopened]
    exact List.mem_singleton_self _
  · intro hlog
    refine ⟨?_, ?_⟩
    · rw [hopened]
      exact Nat.le_refl _
    · intro connection' hconnection'
      rw [hopened] at hconnection'
      rw [List.mem_singleton.mp hconnection']
      exact Connection.ordered_concat.mpr ⟨hordered, hlog⟩

/-- A step keeps a clean state clean exactly when it waits. A clean state
has no lost connection, so it has an opener. -/
theorem clean_step_iff [DltConstants] (hinv : Inv statement s)
    (h : Clean s) (hstep : s.step env statement t = some s') :
    Clean s' ↔ Waits statement s t := by
  rcases hinv.step_cases hstep with
    ⟨pc, hquiet, heq⟩ | hopens | ⟨connection, x, pc, hwrites⟩
  · subst heq
    exact ⟨fun _ => Waits.of_quiet hquiet, fun _ => ⟨h.once, h.ordered⟩⟩
  · rw [clean_opens_iff hinv hopens, Waits, hopens.opening]
  · rw [clean_writes_iff h hwrites]
    -- what is on the connection is what its opener has announced
    obtain ⟨o, ho⟩ :=
      hinv.up connection hwrites.daemon (h.lost_eq_nil hwrites.daemon)
    have hputs := hwrites.puts
    generalize hfrom : s.pc t = from_ at hputs
    cases hputs with
    | app hx => simp [Waits, hfrom, hx]
    | registration hk hx => simp [Waits, hfrom, hx]
    | log hx =>
        rw [ho.waits_iff (hinv.known t) hfrom]
        simp [hx]

-- ============================================================== the runs

/-- Two threads log on registered contexts while the daemon is not yet
connected: an interleaving without a failing step opens one connection,
with every log frame behind its registrations, exactly as long as each of
its steps waits for the opener. -/
theorem clean_iff_waits [DltConstants] (env : Environment)
    (statement : Thread → Statement) {daemon : DaemonConnection}
    (hdaemon : daemon.daemon = none)
    (hknown : ∀ t, (statement t).data.context ∈ daemon.contexts)
    {schedule : List Thread} {u : Threads}
    (hrun : run (step env statement) (start daemon) schedule = some u) :
    (∀ before after v, schedule = before ++ after →
      run (step env statement) (start daemon) before = some v → Clean v)
      ↔ Throughout (step env statement) (Waits statement) (start daemon)
          schedule := by
  refine Transition.forall_reached_iff_throughout (Inv statement)
    (fun _ _ _ hinv hstep => inv_step hinv hstep)
    (fun _ _ _ hinv hclean hstep => clean_step_iff hinv hclean hstep)
    (inv_start hdaemon hknown) ⟨?_, ?_⟩ hrun
  · rw [opened, start, hdaemon]
    exact Nat.zero_le _
  · intro connection hconnection
    rw [opened, start, hdaemon] at hconnection
    cases hconnection

-- ====================================================== a thread alone

/-- Some steps of one thread. -/
def Alone [DltConstants] (env : Environment)
    (statement : Thread → Statement) (t : Thread) (s u : Threads) : Prop :=
  ∃ n, run (step env statement) s (List.replicate n t) = some u

section Alone

variable {u v : Threads}

/-- Where no write fails the step is taken. -/
theorem write_of_up (henv : env.Up) (s : Threads) (d : DaemonConnection) :
    s.write env d = some { s with daemon := d } := by
  rw [write, if_neg (henv.writev _)]

variable [DltConstants]

/-- One step of the thread. -/
theorem Alone.of_step (hstep : s.step env statement t = some s') :
    Alone env statement t s s' :=
  ⟨1, Transition.run_cons.mpr ⟨s', hstep, Transition.run_nil s'⟩⟩

/-- A step in front of others. -/
theorem Alone.step_trans
    (hstep : s.step env statement t = some s')
    (h : Alone env statement t s' u) : Alone env statement t s u := by
  obtain ⟨n, hrun⟩ := h
  exact ⟨n + 1, Transition.run_cons.mpr ⟨s', hstep, hrun⟩⟩

/-- Some steps behind others. -/
theorem Alone.trans (h : Alone env statement t s u)
    (h' : Alone env statement t u v) : Alone env statement t s v := by
  obtain ⟨n, hrun⟩ := h
  obtain ⟨m, hrun'⟩ := h'
  refine ⟨n + m, ?_⟩
  rw [← List.replicate_append_replicate]
  exact Transition.run_append.mpr ⟨u, hrun, hrun'⟩

/-- The loop of the replay, from its `k`-th context on. By induction on the
contexts that are left: each step registers one of them and leaves the
registry as it is. -/
theorem alone_replay (henv : env.Up) (cs : List ContextId) {k : Nat}
    (hcs : s.daemon.contexts.drop k = cs) (hpc : s.pc t = .registerContext k) :
    ∃ u, Alone env statement t s u ∧ u.pc t = .check
      ∧ u.daemon = cs.foldl (DaemonConnection.sendContextRegistration env)
        s.daemon := by
  induction cs generalizing s k with
  | nil =>
      have hk : s.daemon.contexts[k]? = none :=
        List.getElem?_eq_none (List.drop_eq_nil_iff.mp hcs)
      refine ⟨s.goto t .check, Alone.of_step ?_, Function.update_self ..,
        rfl⟩
      simp only [step, hpc, hk]
  | cons c cs ih =>
      have hk : s.daemon.contexts[k]? = some c := by
        rw [← List.head?_drop, hcs]
        rfl
      have hrest : s.daemon.contexts.drop (k + 1) = cs := by
        rw [← List.tail_drop, hcs]
        rfl
      let s₁ : Threads := { s with
        daemon := s.daemon.sendContextRegistration env c }
      have hstep : s.step env statement t
          = some (s₁.goto t (.registerContext (k + 1))) := by
        simp only [step, hpc, hk, write_of_up henv]
        rfl
      obtain ⟨u, halone, hcheck, hdaemon⟩ := ih
        (s := s₁.goto t (.registerContext (k + 1))) (k := k + 1)
        (by
          show s₁.daemon.contexts.drop (k + 1) = cs
          rw [DaemonConnection.contexts_sendContextRegistration]
          exact hrest)
        (Function.update_self ..)
      exact ⟨u, halone.step_trans hstep, hcheck, hdaemon⟩

/-- The end of `sendLog`, on a connection that is there. -/
theorem alone_check (henv : env.Up) (hpc : s.pc t = .check)
    (hup : s.daemon.isDaemonConnected = true) :
    ∃ u, Alone env statement t s u ∧ u.pc t = .done
      ∧ u.daemon = s.daemon.send env (some (statement t).data.context)
        (sendLogFrame env.pid (statement t).uptime
          (s.daemon.object (statement t).data.context)
          (statement t).data) := by
  let s₁ : Threads := s.goto t .sendLog
  let s₂ : Threads := { s₁ with
    daemon := s.daemon.send env (some (statement t).data.context)
      (sendLogFrame env.pid (statement t).uptime
        (s.daemon.object (statement t).data.context)
        (statement t).data) }.goto t .done
  have h₁ : s.step env statement t = some s₁ := by
    simp only [step, hpc, if_pos hup, s₁]
  have hpc₁ : s₁.pc t = .sendLog := Function.update_self ..
  have h₂ : s₁.step env statement t = some s₂ := by
    simp only [step, hpc₁, write_of_up henv, Option.map_some]
    rfl
  exact ⟨s₂, (Alone.of_step h₂).step_trans h₁, Function.update_self .., rfl⟩

/-- The registrations of a thread that finds the descriptor closed: its test,
the `open`, the second test, the RegisterApp, and the loop. -/
theorem alone_disconnected (henv : env.Up) (hpc : s.pc t = .init)
    (hdown : s.daemon.isDaemonConnected = false) :
    ∃ u, Alone env statement t s u ∧ u.pc t = .check
      ∧ u.daemon = s.daemon.initDaemonConnection env := by
  -- the four states up to the loop, each with the step that leads to it
  let s₁ : Threads := s.goto t .opening
  let s₂ : Threads := { s₁ with
    daemon := { s.daemon with
      opens := s.daemon.opens + 1
      daemon := some {} }
    lost := s.opened }.goto t .opened
  let s₃ : Threads := s₂.goto t .registerApp
  let s₄ : Threads := { s₃ with
    daemon := s₃.daemon.send env none (registerAppFrame env.app env.pid
      (env.stack s.daemon.opens)) }.goto t (.registerContext 0)
  have h₁ : s.step env statement t = some s₁ := by
    simp only [step, hpc, hdown, Bool.false_eq_true, if_false, s₁]
  have hpc₁ : s₁.pc t = .opening := Function.update_self ..
  have h₂ : s₁.step env statement t = some s₂ := by
    simp only [step, hpc₁, openDaemon]
    rw [if_pos (henv.openFifo _)]
    rfl
  have hpc₂ : s₂.pc t = .opened := Function.update_self ..
  have h₃ : s₂.step env statement t = some s₃ := by
    simp only [step, hpc₂]
    rfl
  have hpc₃ : s₃.pc t = .registerApp := Function.update_self ..
  have h₄ : s₃.step env statement t = some s₄ := by
    simp only [step, hpc₃, write_of_up henv, Option.map_some]
    rfl
  have hcontexts : s₄.daemon.contexts = s.daemon.contexts :=
    DaemonConnection.contexts_send env none _
  have hdrop : s₄.daemon.contexts.drop 0 = s.daemon.contexts := by
    rw [hcontexts, List.drop_zero]
  obtain ⟨u, halone, hcheck, hdaemon⟩ := alone_replay henv
    s.daemon.contexts hdrop (Function.update_self ..)
  refine ⟨u, ((((halone.step_trans h₄).step_trans h₃).step_trans
    h₂).step_trans h₁), hcheck, ?_⟩
  rw [hdaemon, DaemonConnection.initDaemonConnection, hdown,
    if_neg Bool.false_ne_true, if_pos (henv.openFifo _)]
  rfl

/-- `initDaemonConnection`, for a thread that is not disturbed. -/
theorem alone_init (henv : env.Up) (hpc : s.pc t = .init) :
    ∃ u, Alone env statement t s u ∧ u.pc t = .check
      ∧ u.daemon = s.daemon.initDaemonConnection env := by
  cases hup : s.daemon.isDaemonConnected with
  | true =>
      refine ⟨s.goto t .check, Alone.of_step ?_, Function.update_self ..,
        ?_⟩
      · simp only [step, hpc, hup, if_true]
      · rw [DaemonConnection.initDaemonConnection, if_pos hup]
        rfl
  | false => exact alone_disconnected henv hpc hup

/-- A thread that is not disturbed does what `sendLog` does. -/
theorem alone_sendLog (henv : env.Up) (hpc : s.pc t = .init) :
    ∃ u, Alone env statement t s u ∧ u.pc t = .done
      ∧ u.daemon = s.daemon.sendLog env (statement t).uptime
        (statement t).data := by
  obtain ⟨v, halone, hcheck, hdaemon⟩ := alone_init henv hpc
  have hup : v.daemon.isDaemonConnected = true := by
    rw [hdaemon]
    exact DaemonConnection.isDaemonConnected_initDaemonConnection henv _
  obtain ⟨u, halone', hdone, hsend⟩ := alone_check henv hcheck hup
  refine ⟨u, halone.trans halone', hdone, ?_⟩
  rw [hsend, hdaemon]
  unfold DaemonConnection.sendLog
  rw [← hdaemon, if_pos hup]

end Alone

end Threads

-- ============================================================== a sample

/-- A context was registered before the daemon was there. -/
def sampleUnconnected : DaemonConnection :=
  (@DaemonConnection.initial documentedConstants
    fun _ => sampleContext).registerContext (sampleEnvironment false) 0

/-- Both threads log on it. -/
def sampleStatement (_ : Thread) : Statement := ⟨0, sampleMessage 0⟩

/-- The threads of the fixed inputs, under a schedule. -/
def sampleSchedule (schedule : List Thread) : Option Threads :=
  Transition.run
    (@Threads.step (sampleEnvironment true) documentedConstants
      sampleStatement)
    (Threads.start sampleUnconnected) schedule

/-- The second thread finds the descriptor open and writes its log frame
in front of the RegisterApp of the first one. -/
def earlyLog : List Thread :=
  [.first, .first, .second, .second, .second]
    ++ List.replicate 6 .first

/-- Both threads find the descriptor closed and open the pipe. -/
def secondOpen : List Thread :=
  [.first, .second] ++ List.replicate 7 .first ++ List.replicate 7 .second

/-- Both threads come to their end, and the pipe was opened twice in the
one run and starts with a log frame in the other. -/
theorem threads_interfere :
    (∃ u, sampleSchedule secondOpen = some u ∧ (∀ t, u.pc t = .done)
      ∧ u.opened.length = 2)
    ∧ ∃ u connection, sampleSchedule earlyLog = some u
      ∧ (∀ t, u.pc t = .done) ∧ connection ∈ u.opened
      ∧ ¬ connection.Ordered := by
  refine ⟨⟨_, rfl, ?_, rfl⟩, _, _, rfl, ?_, List.mem_singleton_self _, ?_⟩
  · intro t
    cases t <;> rfl
  · intro t
    cases t <;> rfl
  · intro hordered
    have happ := (hordered [] _ _ 0 rfl rfl).1
    cases happ

theorem clean_iff_waits_sample :
    (∀ before after v, earlyLog = before ++ after →
      Transition.run
        (@Threads.step (sampleEnvironment true) documentedConstants
          sampleStatement)
        (Threads.start sampleUnconnected) before = some v → v.Clean)
      ↔ Transition.Throughout
          (@Threads.step (sampleEnvironment true) documentedConstants
            sampleStatement)
          (Threads.Waits sampleStatement) (Threads.start sampleUnconnected)
          earlyLog :=
  @Threads.clean_iff_waits documentedConstants (sampleEnvironment true)
    sampleStatement sampleUnconnected rfl
    (fun _ => List.mem_singleton_self _) earlyLog _ rfl

end IviLogging.DltCpp
