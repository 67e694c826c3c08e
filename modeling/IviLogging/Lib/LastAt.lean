/-
The last place of an element in a list.

A scan that goes through a list from its front and keeps the index of what
it saw last knows the last place of it in what it has read (`LastAt`). One
element more moves it or leaves it (`concat_self`, `concat_of_ne`). There is
one such place at the most (`unique`), so what a scan has kept is what a
reader of the whole list finds.
-/
import Mathlib.Data.List.Basic

variable {α : Type*}

/-- The index of the last `c` in a list, if there is one. -/
def LastAt (c : α) (l : List α) : Option Nat → Prop
  | none => c ∉ l
  | some i => ∃ front back, l = front ++ c :: back ∧ front.length = i
    ∧ c ∉ back

namespace LastAt

variable {c d : α} {l : List α} {i : Option Nat}

/-- It is nowhere in the empty list. -/
theorem nil (c : α) : LastAt c [] none := List.not_mem_nil

/-- The element itself is the last one. -/
theorem concat_self (c : α) (l : List α) :
    LastAt c (l ++ [c]) (some l.length) :=
  ⟨l, [], rfl, rfl, List.not_mem_nil⟩

/-- Any other one leaves the place. -/
theorem concat_of_ne (h : LastAt c l i) (hne : d ≠ c) :
    LastAt c (l ++ [d]) i := by
  cases i with
  | none =>
      intro hmem
      rcases List.mem_append.mp hmem with hold | hnew
      · exact h hold
      · exact hne (List.mem_singleton.mp hnew).symm
  | some i =>
      obtain ⟨front, back, rfl, hlength, hback⟩ := h
      refine ⟨front, back ++ [d], by simp, hlength, ?_⟩
      intro hmem
      rcases List.mem_append.mp hmem with hold | hnew
      · exact hback hold
      · exact hne (List.mem_singleton.mp hnew).symm

/-- There is one place only: of two splits of the list at the element one is
in front of the other, and then the other one's element is behind it. -/
theorem unique {j : Option Nat} (h : LastAt c l i) (h' : LastAt c l j) :
    i = j := by
  cases i with
  | none =>
      cases j with
      | none => rfl
      | some j =>
          obtain ⟨front, back, rfl, -, -⟩ := h'
          exact absurd (by simp) h
  | some i =>
      cases j with
      | none =>
          obtain ⟨front, back, rfl, -, -⟩ := h
          exact absurd (by simp) h'
      | some j =>
          obtain ⟨front, back, rfl, hi, hback⟩ := h
          obtain ⟨front', back', heq, hj, hback'⟩ := h'
          -- the two splits of the list: if one is behind the other then the
          -- element of the later one is behind the earlier
          rcases List.append_eq_append_iff.mp heq with
            ⟨mid, hfront, hrest⟩ | ⟨mid, hfront, hrest⟩
          · cases mid with
            | nil => simp [← hi, ← hj, hfront]
            | cons x mid =>
                obtain ⟨-, htail⟩ := List.cons.inj hrest
                exact absurd (by simp [htail]) hback
          · cases mid with
            | nil => simp [← hi, ← hj, hfront]
            | cons x mid =>
                obtain ⟨-, htail⟩ := List.cons.inj hrest
                exact absurd (by simp [htail]) hback'

end LastAt
