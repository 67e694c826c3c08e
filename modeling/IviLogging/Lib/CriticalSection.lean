/-
Threads that take turns.

# The system

Any number of threads run operations on one shared state, each under one
mutex: a thread that calls an operation waits for the mutex, moves through
the operation's steps while it has it, and gives it back with the last
one. What else happens to the shared state happens at any time
(`outside`), also between two steps of an operation. The `history` has the
operations that are over, in the order in which they had the mutex, with
their results. Who gets a mutex that several threads wait for is left open:
it is the next `lock` of the run that says so.

# The rules

Two rules cover the runs.

- What holds of the history and the shared state whenever nobody has the
  mutex is proved of one operation at a time, as if there were no other
  thread: from its first step on some property of its place holds, and
  behind its last one the first property again (`run_invariant`). What
  happens outside has to keep both.
- No operation is lost, made twice or overtaken by a later one of its
  thread (`run_calls`): what a thread has done, with what it has begun, is
  what it called.

Under the first rule lies mutual exclusion (`Exclusive`), which each event
preserves: a thread that is inside has the mutex, so that there is one
place of one operation to speak of.
-/
import IviLogging.Lib.Transition
import Mathlib.Logic.Function.Basic

namespace CriticalSection

variable {θ σ ω π κ ρ ε : Type*}

-- ================================================================ the system

/-- The operations `ω`, with their places `π`: where one begins, what the
next step from a place makes of the state, to another place or to the
result, under some choice that is not the thread's own; and what happens
outside of all operations. -/
structure Operations (σ ω π κ ρ ε : Type*) where
  entry : ω → π
  move : π → σ → κ → Option ((π ⊕ ρ) × σ)
  outside : ε → σ → Option σ

/-- What a thread is doing. -/
inductive Phase (ω π : Type*)
  | idle
  | waiting (op : ω)
  | inside (op : ω) (place : π)

/-- An operation that a thread has begun. -/
def Phase.pending : Phase ω π → List ω
  | idle => []
  | waiting op => [op]
  | inside op _ => [op]

/-- An operation that is over. -/
structure Done (θ ω ρ : Type*) where
  thread : θ
  op : ω
  result : ρ

/-- The shared state, who has the mutex, the threads, and the history. -/
structure State (θ σ ω π ρ : Type*) where
  shared : σ
  holder : Option θ
  thread : θ → Phase ω π
  history : List (Done θ ω ρ)

/-- What can happen next. -/
inductive Event (θ ω κ ε : Type*)
  | call (t : θ) (op : ω)
  | lock (t : θ)
  | move (t : θ) (choice : κ)
  | outside (e : ε)

/-- The event is none of an operation. -/
def Event.isOutside : Event θ ω κ ε → Bool
  | outside _ => true
  | _ => false

/-- The beginning. -/
def State.initial (shared : σ) : State θ σ ω π ρ where
  shared := shared
  holder := none
  thread := fun _ => .idle
  history := []

variable [DecidableEq θ]

/-- The state with another phase of a thread. -/
def State.goto (s : State θ σ ω π ρ) (t : θ) (phase : Phase ω π) :
    State θ σ ω π ρ :=
  { s with thread := Function.update s.thread t phase }

/-- A thread gets the mutex. -/
def State.enter (s : State θ σ ω π ρ) (t : θ) (op : ω) (place : π) :
    State θ σ ω π ρ :=
  { s with
    holder := some t
    thread := Function.update s.thread t (.inside op place) }

/-- A thread inside goes on. -/
def State.continue (s : State θ σ ω π ρ) (t : θ) (op : ω) (place : π)
    (shared : σ) : State θ σ ω π ρ :=
  { s with
    shared := shared
    thread := Function.update s.thread t (.inside op place) }

/-- A thread inside is done, and gives the mutex back. -/
def State.finish (s : State θ σ ω π ρ) (t : θ) (op : ω) (result : ρ)
    (shared : σ) : State θ σ ω π ρ where
  shared := shared
  holder := none
  thread := Function.update s.thread t .idle
  history := s.history ++ [Done.mk t op result]

/-- The next step of the thread that is inside. -/
def Operations.advance (o : Operations σ ω π κ ρ ε)
    (s : State θ σ ω π ρ) (t : θ) (op : ω) (place : π) (choice : κ) :
    Option (State θ σ ω π ρ) :=
  (o.move place s.shared choice).map fun next =>
    match next with
    | (.inl place, shared) => s.continue t op place shared
    | (.inr result, shared) => s.finish t op result shared

/-- The state after an event. -/
def Operations.step (o : Operations σ ω π κ ρ ε) (s : State θ σ ω π ρ) :
    Event θ ω κ ε → Option (State θ σ ω π ρ)
  | .call t op =>
      match s.thread t with
      | .idle => some (s.goto t (.waiting op))
      | _ => none
  | .lock t =>
      match s.thread t, s.holder with
      | .waiting op, none => some (s.enter t op (o.entry op))
      | _, _ => none
  | .move t choice =>
      match s.thread t with
      | .inside op place => o.advance s t op place choice
      | _ => none
  | .outside e => (o.outside e s.shared).map fun shared =>
      { s with shared := shared }

-- ================================================================= the steps

/-- What an event does, by what it finds. -/
inductive Steps (o : Operations σ ω π κ ρ ε) (s : State θ σ ω π ρ) :
    Event θ ω κ ε → State θ σ ω π ρ → Prop
  | call {t : θ} {op : ω} : s.thread t = .idle →
      Steps o s (.call t op) (s.goto t (.waiting op))
  | lock {t : θ} {op : ω} : s.thread t = .waiting op → s.holder = none →
      Steps o s (.lock t) (s.enter t op (o.entry op))
  | move {t : θ} {op : ω} {place place' : π} {choice : κ} {shared : σ} :
      s.thread t = .inside op place →
      o.move place s.shared choice = some (.inl place', shared) →
      Steps o s (.move t choice) (s.continue t op place' shared)
  | finish {t : θ} {op : ω} {place : π} {choice : κ} {result : ρ}
      {shared : σ} : s.thread t = .inside op place →
      o.move place s.shared choice = some (.inr result, shared) →
      Steps o s (.move t choice) (s.finish t op result shared)
  | outside {e : ε} {shared : σ} : o.outside e s.shared = some shared →
      Steps o s (.outside e) { s with shared := shared }

variable {o : Operations σ ω π κ ρ ε} {s s' : State θ σ ω π ρ}
  {event : Event θ ω κ ε}

/-- The cases of an event, with what was found in each: everything below goes
through them, and none of it unfolds the step. -/
theorem steps_of_step (h : o.step s event = some s') : Steps o s event s' := by
  cases event with
  | call t op =>
      simp only [Operations.step] at h
      split at h
      case h_1 hphase =>
          cases h
          exact .call hphase
      case h_2 => cases h
  | lock t =>
      simp only [Operations.step] at h
      split at h
      case h_1 op hphase hholder =>
          cases h
          exact .lock hphase hholder
      case h_2 => cases h
  | move t choice =>
      simp only [Operations.step] at h
      split at h
      case h_1 op place hphase =>
          rw [Operations.advance, Option.map_eq_some_iff] at h
          obtain ⟨next, hmove, heq⟩ := h
          obtain ⟨place' | result, shared⟩ := next
          · cases heq
            exact .move hphase hmove
          · cases heq
            exact .finish hphase hmove
      case h_2 => cases h
  | outside e =>
      simp only [Operations.step, Option.map_eq_some_iff] at h
      obtain ⟨shared, houtside, heq⟩ := h
      cases heq
      exact .outside houtside

-- ========================================================== mutual exclusion

/-- Exactly the thread that has the mutex is inside. -/
def Exclusive (s : State θ σ ω π ρ) : Prop :=
  ∀ t, s.holder = some t ↔ ∃ op place, s.thread t = .inside op place

omit [DecidableEq θ] in
/-- Nobody is inside in the beginning. -/
theorem exclusive_initial (shared : σ) :
    Exclusive (State.initial shared : State θ σ ω π ρ) := by
  intro t
  simp [State.initial]

/-- A thread that changes its phase, and the mutex with it. -/
theorem exclusive_update (h : Exclusive s) {t : θ} {phase : Phase ω π}
    (hthread : s'.thread = Function.update s.thread t phase)
    (hself : s'.holder = some t ↔ ∃ op place, phase = .inside op place)
    (hother : ∀ t', t' ≠ t → (s'.holder = some t' ↔ s.holder = some t')) :
    Exclusive s' := by
  intro t'
  rw [hthread]
  by_cases heq : t' = t
  · subst heq
    rw [Function.update_self]
    exact hself
  · rw [Function.update_of_ne heq, ← h t']
    exact hother t' heq

/-- Every event keeps the others out. -/
theorem exclusive_step (h : Exclusive s) (hstep : o.step s event = some s') :
    Exclusive s' := by
  cases steps_of_step hstep with
  | @call t op hidle =>
      refine exclusive_update h rfl ?_ fun _ _ => Iff.rfl
      show s.holder = some t ↔ _
      rw [h t, hidle]
      simp
  | @lock t op hwaiting hholder =>
      refine exclusive_update h rfl (by simp [State.enter]) ?_
      intro t' hne
      simp [State.enter, hholder, hne.symm]
  | @move t op place place' choice shared hinside hmove =>
      refine exclusive_update h rfl ?_ fun _ _ => Iff.rfl
      simp [State.continue, (h t).mpr ⟨op, place, hinside⟩]
  | @finish t op place choice result shared hinside hmove =>
      refine exclusive_update h rfl (by simp [State.finish]) ?_
      intro t' hne
      simp [State.finish, (h t).mpr ⟨op, place, hinside⟩, hne.symm]
  | outside houtside => exact h

-- ============================================================ the invariants

/-- A property of the history and the shared state for when nobody has the
mutex, and one for each place of an operation, such that each operation
takes the first one to itself, through its places, whatever happens
outside. -/
structure Invariant (o : Operations σ ω π κ ρ ε)
    (Free : List (Done θ ω ρ) → σ → Prop)
    (Inside : List (Done θ ω ρ) → ω → π → σ → Prop) : Prop where
  entry : ∀ {history shared} (op : ω), Free history shared →
    Inside history op (o.entry op) shared
  move : ∀ {history op place shared choice place' shared'},
    Inside history op place shared →
    o.move place shared choice = some (.inl place', shared') →
    Inside history op place' shared'
  finish : ∀ {history op place shared choice result shared'} (t : θ),
    Inside history op place shared →
    o.move place shared choice = some (.inr result, shared') →
    Free (history ++ [Done.mk t op result]) shared'
  outsideFree : ∀ {history shared e shared'}, Free history shared →
    o.outside e shared = some shared' → Free history shared'
  outsideInside : ∀ {history op place shared e shared'},
    Inside history op place shared → o.outside e shared = some shared' →
    Inside history op place shared'

variable {Free : List (Done θ ω ρ) → σ → Prop}
  {Inside : List (Done θ ω ρ) → ω → π → σ → Prop}

/-- The properties hold where they should. -/
structure Holds (Free : List (Done θ ω ρ) → σ → Prop)
    (Inside : List (Done θ ω ρ) → ω → π → σ → Prop)
    (s : State θ σ ω π ρ) : Prop where
  exclusive : Exclusive s
  free : s.holder = none → Free s.history s.shared
  inside : ∀ t op place, s.thread t = .inside op place →
    Inside s.history op place s.shared

/-- An event keeps the properties where they should be. Outside of all
operations it is the one that ends which gives the first property back; and
inside there is one thread only, so a place that is found is the place of
the thread that moved. -/
theorem holds_step (hI : Invariant o Free Inside) (h : Holds Free Inside s)
    (hstep : o.step s event = some s') : Holds Free Inside s' := by
  have hexclusive := exclusive_step h.exclusive hstep
  -- a thread inside has the mutex, so that it is the only one
  have hholder : ∀ {s : State θ σ ω π ρ}, Exclusive s →
      ∀ {t t' op op' place place'}, s.thread t = .inside op place →
      s.thread t' = .inside op' place' → t' = t := by
    intro s hs t t' op op' place place' ht ht'
    have hsome := (hs t).mpr ⟨op, place, ht⟩
    rw [(hs t').mpr ⟨op', place', ht'⟩] at hsome
    exact Option.some.inj hsome
  refine ⟨hexclusive, ?_, ?_⟩
  · intro hnone
    cases steps_of_step hstep with
    | call hidle => exact h.free hnone
    -- behind a lock, and behind a move, somebody has the mutex
    | lock hwaiting hfree => cases hnone
    | @move t op place place' choice shared hinside hmove =>
        have hsome := (h.exclusive t).mpr ⟨op, place, hinside⟩
        have hholds : s.holder = none := hnone
        rw [hholds] at hsome
        cases hsome
    | @finish t op place choice result shared hinside hmove =>
        exact hI.finish t (h.inside t op place hinside) hmove
    | outside houtside => exact hI.outsideFree (h.free hnone) houtside
  · intro t' op' place' hinside'
    cases steps_of_step hstep with
    | @call t op hidle =>
        by_cases heq : t' = t
        · subst heq
          simp [State.goto] at hinside'
        · refine h.inside t' op' place' ?_
          simpa [State.goto, heq] using hinside'
    | @lock t op hwaiting hfree =>
        have hself : (s.enter t op (o.entry op)).thread t
            = .inside op (o.entry op) := by simp [State.enter]
        obtain rfl := hholder hexclusive hself hinside'
        rw [hself] at hinside'
        cases hinside'
        exact hI.entry _ (h.free hfree)
    | @move t op place place'' choice shared hinside hmove =>
        have hself : (s.continue t op place'' shared).thread t
            = .inside op place'' := by simp [State.continue]
        obtain rfl := hholder hexclusive hself hinside'
        rw [hself] at hinside'
        cases hinside'
        exact hI.move (h.inside t' _ place hinside) hmove
    | @finish t op place choice result shared hinside hmove =>
        -- the mutex has been given back, so that nobody is inside
        have hsome := (hexclusive t').mpr ⟨op', place', hinside'⟩
        cases hsome
    | outside houtside =>
        exact hI.outsideInside (h.inside t' op' place' hinside') houtside

/-- Whatever the threads do, the properties hold where they should. -/
theorem run_invariant (hI : Invariant o Free Inside) {shared : σ}
    (hinitial : Free [] shared) {events : List (Event θ ω κ ε)}
    (hrun : Transition.run o.step (State.initial shared) events = some s) :
    Holds Free Inside s := by
  refine Transition.run_invariant (Holds Free Inside)
    (fun s event s' hs hstep => holds_step hI hs hstep) ?_ hrun
  refine ⟨exclusive_initial shared, fun _ => hinitial, ?_⟩
  intro t op place hinside
  cases hinside

-- ============================================================ the operations

/-- The operations a thread has called. -/
def calls (t : θ) : List (Event θ ω κ ε) → List ω
  | [] => []
  | .call t' op :: events =>
      if t' = t then op :: calls t events else calls t events
  | _ :: events => calls t events

/-- The operations of a thread that are over. -/
def State.doneBy (s : State θ σ ω π ρ) (t : θ) : List ω :=
  (s.history.filter fun done => done.thread = t).map Done.op

/-- A further event adds its call at the end. -/
theorem calls_append (t : θ) (events : List (Event θ ω κ ε))
    (event : Event θ ω κ ε) :
    calls t (events ++ [event]) = calls t events ++ calls t [event] := by
  induction events with
  | nil => rfl
  | cons e events ih =>
      cases e with
      | call t' op =>
          simp only [List.cons_append, calls, ih]
          split <;> rfl
      | _ => simpa only [List.cons_append, calls] using ih

/-- An event adds its call to what a thread has done and begun. A lock and a
move change the phase and not the operation; the last move of an operation
takes it from the phase into the history. -/
theorem doneBy_step (hstep : o.step s event = some s') (t : θ) :
    s'.doneBy t ++ (s'.thread t).pending
      = s.doneBy t ++ (s.thread t).pending ++ calls t [event] := by
  -- a phase that is pending on the same operation as before
  have hupdate : ∀ {t' : θ} {phase : Phase ω π},
      phase.pending = (s.thread t').pending →
      (Function.update s.thread t' phase t).pending
        = (s.thread t).pending := by
    intro t' phase hpending
    by_cases heq : t = t'
    · subst heq
      rw [Function.update_self, hpending]
    · rw [Function.update_of_ne heq]
  cases steps_of_step hstep with
  | @call t' op hidle =>
      by_cases heq : t' = t
      · subst heq
        simp [State.goto, State.doneBy, calls, hidle, Phase.pending]
      · simp [State.goto, State.doneBy, calls, heq, Ne.symm heq]
  | @lock t' op hwaiting hfree =>
      -- the operation that waited is the one that is pending now
      simp only [State.enter, State.doneBy, calls, List.append_nil]
      rw [hupdate (by rw [hwaiting]; rfl)]
  | @move t' op place place' choice shared hinside hmove =>
      simp only [State.continue, State.doneBy, calls, List.append_nil]
      rw [hupdate (by rw [hinside]; rfl)]
  | @finish t' op place choice result shared hinside hmove =>
      by_cases heq : t' = t
      · subst heq
        simp [State.finish, State.doneBy, calls, hinside, Phase.pending]
      · simp [State.finish, State.doneBy, calls, heq, Ne.symm heq]
  | outside houtside => simp [State.doneBy, calls]

/-- Each thread has done the operations it called, in that order and each
of them once, but for the one that it has begun. -/
theorem run_calls {shared : σ} {events : List (Event θ ω κ ε)}
    (hrun : Transition.run o.step (State.initial shared) events = some s)
    (t : θ) :
    s.doneBy t ++ (s.thread t).pending = calls t events := by
  -- the induction is over the run with its last event split off, which asks
  -- for no condition on the events
  refine Transition.run_history_of_throughout (P := fun _ _ => True)
    (fun events s => s.doneBy t ++ (s.thread t).pending = calls t events)
    ?_ rfl ?_ hrun
  · intro events s event s' hs _ hstep
    rw [doneBy_step hstep, hs, calls_append]
  · exact Transition.throughout_of_forall (fun _ _ _ => trivial) _

end CriticalSection
