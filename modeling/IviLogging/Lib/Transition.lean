/-
Runs of a partial step function.

A system is a function `step : σ → α → Option σ`, `none` where an action
is not possible. `run` takes a list of actions, `Throughout` says that a
property of state and action holds at each of its steps.

# The rules

Five rules cover the inductions over runs, each of them taking what one
step does to what a run does.

- An invariant of the step is one of the run (`run_invariant`).
- So it is when the step only preserves it under a condition that the run
  meets throughout (`run_invariant_of_throughout`), also when it speaks of
  the actions so far (`run_history_of_throughout`).
- Such an invariant may give another condition throughout
  (`throughout_of_invariant`).
- Where the condition is exactly what the step needs to preserve a
  property, the property holds in every state of a run exactly when the
  condition holds throughout (`forall_reached_iff_throughout`). The run is
  looked at in all of its prefixes, since a property that is lost may come
  back.

One more is about two systems: a system that follows each step of another
one follows its runs (`run_simulation`).

# Where a run stops

A run of a concatenation stops in between (`run_append`), so the actions may
be split at any place, and behind the last one (`run_concat`).
-/
import Mathlib.Data.List.Basic

namespace Transition

universe u v

variable {σ : Type u} {α : Type v}

-- ================================================================= runs

/-- The state after a list of actions; `none` once one is not possible. -/
def run (step : σ → α → Option σ) : σ → List α → Option σ
  | s, [] => some s
  | s, a :: as => (step s a).bind fun s' => run step s' as

/-- `P` holds of every state of a run and the action taken there. -/
def Throughout (step : σ → α → Option σ) (P : σ → α → Prop) :
    σ → List α → Prop
  | _, [] => True
  | s, a :: as => P s a ∧ ∀ s', step s a = some s' → Throughout step P s' as

variable {step : σ → α → Option σ} {P : σ → α → Prop}

@[simp] theorem run_nil (s : σ) : run step s [] = some s := rfl
/-- A run of a first action and the others. -/
theorem run_cons {s : σ} {a : α} {as : List α} {t : σ} :
    run step s (a :: as) = some t
      ↔ ∃ s', step s a = some s' ∧ run step s' as = some t :=
  Option.bind_eq_some_iff

/-- A run of a concatenation stops in between. -/
theorem run_append {s : σ} {as bs : List α} {t : σ} :
    run step s (as ++ bs) = some t
      ↔ ∃ s', run step s as = some s' ∧ run step s' bs = some t := by
  induction as generalizing s with
  | nil => simp
  | cons a as ih =>
      rw [List.cons_append, run_cons]
      constructor
      · intro h
        obtain ⟨s₁, hstep, hrun⟩ := h
        obtain ⟨s₂, h₁, h₂⟩ := ih.mp hrun
        exact ⟨s₂, run_cons.mpr ⟨s₁, hstep, h₁⟩, h₂⟩
      · intro h
        obtain ⟨s₂, h₁, h₂⟩ := h
        obtain ⟨s₁, hstep, hrun⟩ := run_cons.mp h₁
        exact ⟨s₁, hstep, ih.mpr ⟨s₂, hrun, h₂⟩⟩

/-- The last step of a run. -/
theorem run_concat {s : σ} {as : List α} {a : α} {t : σ} :
    run step s (as ++ [a]) = some t
      ↔ ∃ s', run step s as = some s' ∧ step s' a = some t := by
  have hlast : ∀ s', run step s' [a] = some t ↔ step s' a = some t := by
    intro s'
    rw [run_cons]
    constructor
    · intro hex
      obtain ⟨s'', hstep, hrun⟩ := hex
      cases hrun
      exact hstep
    · intro hstep
      exact ⟨t, hstep, rfl⟩
  rw [run_append]
  constructor
  · intro hex
    obtain ⟨s', hrun, h⟩ := hex
    exact ⟨s', hrun, (hlast s').mp h⟩
  · intro hex
    obtain ⟨s', hrun, h⟩ := hex
    exact ⟨s', hrun, (hlast s').mpr h⟩

/-- A condition throughout a run that takes a step. -/
theorem throughout_cons {s s' : σ} {a : α} {as : List α}
    (h : step s a = some s') :
    Throughout step P s (a :: as) ↔ P s a ∧ Throughout step P s' as := by
  constructor
  · intro hboth
    obtain ⟨ha, has⟩ := hboth
    exact ⟨ha, has s' h⟩
  · intro hboth
    obtain ⟨ha, has⟩ := hboth
    refine ⟨ha, ?_⟩
    intro s'' h'
    rw [h] at h'
    cases h'
    exact has

/-- A condition throughout one run and the next, which begins where the first
one stops, if it comes to its end. -/
theorem throughout_append {s : σ} {as bs : List α} :
    Throughout step P s (as ++ bs)
      ↔ Throughout step P s as
        ∧ ∀ t, run step s as = some t → Throughout step P t bs := by
  induction as generalizing s with
  | nil =>
      constructor
      · intro h
        refine ⟨trivial, ?_⟩
        intro t ht
        cases ht
        exact h
      · intro hboth
        obtain ⟨-, h⟩ := hboth
        exact h s rfl
  | cons a as ih =>
      constructor
      · intro hboth
        obtain ⟨ha, hrest⟩ := hboth
        refine ⟨⟨ha, fun s' hs' => (ih.mp (hrest s' hs')).1⟩, ?_⟩
        intro t ht
        obtain ⟨s', hs', hrun⟩ := run_cons.mp ht
        exact (ih.mp (hrest s' hs')).2 t hrun
      · intro hboth
        obtain ⟨⟨ha, has⟩, hbs⟩ := hboth
        refine ⟨ha, ?_⟩
        intro s' hs'
        refine ih.mpr ⟨has s' hs', ?_⟩
        intro t ht
        exact hbs t (run_cons.mpr ⟨s', hs', ht⟩)

/-- What holds of the actions in any state holds throughout. -/
theorem throughout_of_forall {as : List α} (h : ∀ a ∈ as, ∀ s, P s a)
    (s : σ) : Throughout step P s as := by
  induction as generalizing s with
  | nil => exact trivial
  | cons a as ih =>
      refine ⟨h a (List.mem_cons_self ..) s, ?_⟩
      intro s' _
      exact ih (fun b hb => h b (List.mem_cons_of_mem _ hb)) s'

-- =========================================================== invariants

/-- What every step meeting a condition preserves, every run meeting it
throughout preserves. -/
theorem run_invariant_of_throughout (Inv : σ → Prop)
    (hstep : ∀ s a s', Inv s → P s a → step s a = some s' → Inv s')
    {s : σ} {as : List α} {t : σ} (hs : Inv s)
    (hP : Throughout step P s as) (hrun : run step s as = some t) :
    Inv t := by
  induction as generalizing s with
  | nil =>
      cases hrun
      exact hs
  | cons a as ih =>
      obtain ⟨s', ha, hrest⟩ := run_cons.mp hrun
      obtain ⟨hPa, hPas⟩ := (throughout_cons ha).mp hP
      exact ih (hstep s a s' hs hPa ha) hPas hrest

/-- Where a condition preserves an invariant and gives, with it, a second
condition, a run that meets the first throughout meets the second. -/
theorem throughout_of_invariant (Inv : σ → Prop) {Q : σ → α → Prop}
    (hstep : ∀ s a s', Inv s → P s a → step s a = some s' → Inv s')
    (hQ : ∀ s a, Inv s → P s a → Q s a)
    {s : σ} {as : List α} (hs : Inv s) (hP : Throughout step P s as) :
    Throughout step Q s as := by
  induction as generalizing s with
  | nil => exact trivial
  | cons a as ih =>
      obtain ⟨hPa, hPas⟩ := hP
      refine ⟨hQ s a hs hPa, ?_⟩
      intro s' ha
      exact ih (hstep s a s' hs hPa ha) (hPas s' ha)

/-- What every step preserves, every run preserves. -/
theorem run_invariant (Inv : σ → Prop)
    (hstep : ∀ s a s', Inv s → step s a = some s' → Inv s')
    {s : σ} {as : List α} {t : σ} (hs : Inv s)
    (hrun : run step s as = some t) : Inv t := by
  induction as generalizing s with
  | nil =>
      cases hrun
      exact hs
  | cons a as ih =>
      obtain ⟨s', ha, hrest⟩ := run_cons.mp hrun
      exact ih (hstep s a s' hs ha) hrest

/-- The same for a property of the history and the state: what an action
makes of both is what it has to keep. -/
theorem run_history_of_throughout (Inv : List α → σ → Prop)
    (hstep : ∀ as s a s', Inv as s → P s a → step s a = some s' →
      Inv (as ++ [a]) s')
    {s : σ} {as : List α} {t : σ} (hs : Inv [] s)
    (hP : Throughout step P s as) (hrun : run step s as = some t) :
    Inv as t := by
  -- the history grows at its end and the run at its front, so the induction
  -- is over the actions to come, with any history behind
  have hall : ∀ (bs : List α) (s : σ) (as : List α), Inv bs s →
      Throughout step P s as → run step s as = some t →
      Inv (bs ++ as) t := by
    intro bs s as
    induction as generalizing bs s with
    | nil =>
        intro hs _ hrun
        cases hrun
        rw [List.append_nil]
        exact hs
    | cons a as ih =>
        intro hs hP hrun
        obtain ⟨s', ha, hrest⟩ := run_cons.mp hrun
        obtain ⟨hPa, hPas⟩ := (throughout_cons ha).mp hP
        have hnext := ih (bs ++ [a]) s' (hstep bs s a s' hs hPa ha) hPas hrest
        rw [List.append_assoc] at hnext
        exact hnext
  exact hall [] s as hs hP hrun

/-- A system whose steps follow those of another one follows its runs. -/
theorem run_simulation {τ : Type*} {abstractStep : τ → α → Option τ}
    (R : σ → τ → Prop)
    (hstep : ∀ s t a t', R s t → abstractStep t a = some t' →
      ∃ s', step s a = some s' ∧ R s' t')
    {s : σ} {t t' : τ} {as : List α} (hR : R s t)
    (hrun : run abstractStep t as = some t') :
    ∃ s', run step s as = some s' ∧ R s' t' := by
  induction as generalizing s t with
  | nil =>
      cases hrun
      exact ⟨s, rfl, hR⟩
  | cons a as ih =>
      obtain ⟨t₁, ha, hrest⟩ := run_cons.mp hrun
      obtain ⟨s₁, ha', hR'⟩ := hstep s t a t₁ hR ha
      obtain ⟨s', hrun', hR''⟩ := ih hR' hrest
      exact ⟨s', run_cons.mpr ⟨s₁, ha', hrun'⟩, hR''⟩

/-- A step that preserves `Good` exactly under a condition: a run keeps
`Good` in all its states exactly when it meets the condition throughout. -/
theorem forall_reached_iff_throughout (Inv : σ → Prop) {Good : σ → Prop}
    (hinv : ∀ s a s', Inv s → step s a = some s' → Inv s')
    (hgood : ∀ s a s', Inv s → Good s → step s a = some s' →
      (Good s' ↔ P s a))
    {s : σ} {as : List α} {t : σ} (hs : Inv s) (hs' : Good s)
    (hrun : run step s as = some t) :
    (∀ bs cs u, as = bs ++ cs → run step s bs = some u → Good u)
      ↔ Throughout step P s as := by
  induction as generalizing s with
  | nil =>
      constructor
      · intro _
        exact trivial
      · intro _ bs cs u heq hu
        obtain ⟨rfl, -⟩ := List.append_eq_nil_iff.mp heq.symm
        cases hu
        exact hs'
  | cons a as ih =>
      obtain ⟨s₁, ha, hrest⟩ := run_cons.mp hrun
      have hiff := hgood s a s₁ hs hs' ha
      constructor
      · intro hall
        -- the state behind one action is reached, so the condition held
        have hs₁ : Good s₁ :=
          hall [a] as s₁ rfl (run_cons.mpr ⟨s₁, ha, rfl⟩)
        refine (throughout_cons ha).mpr ⟨hiff.mp hs₁, ?_⟩
        refine (ih (hinv s a s₁ hs ha) hs₁ hrest).mp ?_
        intro bs cs u heq hu
        exact hall (a :: bs) cs u (by rw [heq, List.cons_append])
          (run_cons.mpr ⟨s₁, ha, hu⟩)
      · intro hP bs cs u heq hu
        obtain ⟨hPa, hPas⟩ := (throughout_cons ha).mp hP
        have hs₁ : Good s₁ := hiff.mpr hPa
        cases bs with
        | nil =>
            cases hu
            exact hs'
        | cons b bs =>
            rw [List.cons_append] at heq
            obtain ⟨rfl, rfl⟩ := List.cons.inj heq
            -- a prefix begins with the action of the run, in the same state
            obtain ⟨s₂, ha₂, hu⟩ := run_cons.mp hu
            obtain rfl : s₁ = s₂ := Option.some.inj (ha.symm.trans ha₂)
            exact (ih (hinv s a s₁ hs ha) hs₁ hrest).mpr hPas bs cs u rfl hu

end Transition
