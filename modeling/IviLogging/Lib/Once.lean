/-
What is done at the first occasion, and at no other.

A process has a flag, a value and a step. At the first occasion the value
is looked up, and the flag is set; an occasion behind it changes nothing,
and whatever else happens moves the value in its own way. So the value
behind a run is that of a lookup at the first occasion, moved by what comes
behind it (`foldl_value`).

The run splits there: in front of the first occasion nothing is looked up
(`foldl_before`), and behind it nothing is looked up again (`foldl_done`).
What was there in front of it is seen by the lookup only, which may use it
or not.
-/
import Mathlib.Data.List.TakeWhile

universe u v w

/-- A value that is looked up once. -/
structure Once (σ : Type u) (ε : Type v) (β : Type w) where
  step : σ → ε → σ
  flag : σ → Bool
  value : σ → β
  occasion : ε → Bool
  lookup : σ → β
  move : β → ε → β
  flag_step : ∀ s e, flag (step s e) = (flag s || occasion e)
  value_first : ∀ s e, flag s = false → occasion e = true →
    value (step s e) = lookup s
  value_step : ∀ s e, flag s = true ∨ occasion e = false →
    value (step s e) = move (value s) e

namespace Once

variable {σ : Type u} {ε : Type v} {β : Type w} (o : Once σ ε β)

/-- The events in front of the first occasion. -/
def before (events : List ε) : List ε :=
  events.takeWhile fun e => !o.occasion e

/-- The first occasion, and the events behind it. -/
def after (events : List ε) : List ε :=
  events.dropWhile fun e => !o.occasion e

/-- Without an occasion nothing is looked up. -/
theorem foldl_quiet {s : σ} {events : List ε}
    (hquiet : ∀ e ∈ events, o.occasion e = false) :
    o.value (events.foldl o.step s) = events.foldl o.move (o.value s)
      ∧ o.flag (events.foldl o.step s) = o.flag s := by
  induction events generalizing s with
  | nil => exact ⟨rfl, rfl⟩
  | cons e events ih =>
      have he := hquiet e (by simp)
      obtain ⟨hvalue, hflag⟩ := ih (s := o.step s e)
        fun e' hmem => hquiet e' (by simp [hmem])
      rw [o.value_step s e (.inr he)] at hvalue
      rw [o.flag_step, he, Bool.or_false] at hflag
      exact ⟨hvalue, hflag⟩

/-- Nothing is looked up in front of the first occasion. -/
theorem foldl_before (s : σ) (events : List ε) :
    o.value ((o.before events).foldl o.step s)
        = (o.before events).foldl o.move (o.value s)
      ∧ o.flag ((o.before events).foldl o.step s) = o.flag s := by
  apply o.foldl_quiet
  intro e hmem
  simpa using List.mem_takeWhile_imp hmem

/-- Behind the first one nothing is looked up either. -/
theorem foldl_done {s : σ} (hdone : o.flag s = true) (events : List ε) :
    o.value (events.foldl o.step s) = events.foldl o.move (o.value s) := by
  induction events generalizing s with
  | nil => rfl
  | cons e events ih =>
      have hnext : o.flag (o.step s e) = true := by
        rw [o.flag_step, hdone, Bool.true_or]
      rw [List.foldl_cons, List.foldl_cons, ih hnext,
        o.value_step s e (.inl hdone)]

/-- The value behind a run: moved by all of it if there is no occasion, and
else looked up at the first one and moved by what comes behind. -/
theorem foldl_value {s : σ} (hflag : o.flag s = false) (events : List ε) :
    o.value (events.foldl o.step s)
      = match o.after events with
        | [] => (o.before events).foldl o.move (o.value s)
        | _ :: rest =>
            rest.foldl o.move
              (o.lookup ((o.before events).foldl o.step s)) := by
  have hsplit : o.before events ++ o.after events = events :=
    List.takeWhile_append_dropWhile
  obtain ⟨hvalue, hstill⟩ := o.foldl_before s events
  cases hafter : o.after events with
  | nil =>
      rw [hafter, List.append_nil] at hsplit
      rw [hsplit] at hvalue ⊢
      exact hvalue
  | cons e rest =>
      have he : o.occasion e = true := by
        have hhead := List.head?_dropWhile_not
          (fun e => !o.occasion e) events
        rw [show events.dropWhile _ = e :: rest from hafter] at hhead
        simpa using hhead
      -- the event is the first occasion, and finds the flag not set
      have hnow : o.flag ((o.before events).foldl o.step s) = false :=
        hstill.trans hflag
      have hdone : o.flag
          (o.step ((o.before events).foldl o.step s) e) = true := by
        rw [o.flag_step, he, Bool.or_true]
      rw [hafter] at hsplit
      calc o.value (events.foldl o.step s)
          = o.value (rest.foldl o.step
              (o.step ((o.before events).foldl o.step s) e)) := by
            rw [← List.foldl_cons, ← List.foldl_append, hsplit]
        _ = rest.foldl o.move (o.value
              (o.step ((o.before events).foldl o.step s) e)) :=
            o.foldl_done hdone rest
        _ = rest.foldl o.move
              (o.lookup ((o.before events).foldl o.step s)) := by
            rw [o.value_first _ _ hnow he]

end Once
