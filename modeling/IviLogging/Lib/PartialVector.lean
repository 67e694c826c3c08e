/-
Growable vectors of which not every element is known.

What a vector holds behind the elements it was given is nobody's business:
growing one leaves the new elements open (`none`). `Agrees xs l` says that
the list `l` is such a vector: as long as it, and equal to it wherever an
element is known. Resizing, appending and copying keep the two together,
whatever the list has at the open places (`Agrees.write`,
`Agrees.resize`), and a known element is in the list (`Agrees.getElem?`).

A vector that is grown and then filled at its end, or over all of it, has
no open elements left over: it is the concatenation, or the copy
(`write_resize`, `write_resize_zero`).
-/
import IviLogging.Lib.Buffer
import Mathlib.Data.List.Forall2

namespace PartialVector

variable {α : Type*}

/-- A vector of `n` elements: the first of it, or it and open ones. -/
def resize (xs : List (Option α)) (n : Nat) : List (Option α) :=
  xs.take n ++ List.replicate (n - xs.length) none

/-- The list has the elements that are known. -/
def Agrees (xs : List (Option α)) (l : List α) : Prop :=
  List.Forall₂ (fun x a => ∀ b, x = some b → a = b) xs l

@[simp] theorem length_resize (xs : List (Option α)) (n : Nat) :
    (resize xs n).length = n := by
  simp only [resize, List.length_append, List.length_take,
    List.length_replicate]
  omega

namespace Agrees

variable {xs ys : List (Option α)} {l m : List α}

/-- The list has a place for every element. -/
theorem length_eq (h : Agrees xs l) : xs.length = l.length :=
  List.Forall₂.length_eq h

/-- A list of known elements. -/
theorem of_known (l : List α) : Agrees (l.map some) l := by
  induction l with
  | nil => exact List.Forall₂.nil
  | cons a l ih =>
      refine List.Forall₂.cons ?_ ih
      intro b hb
      exact Option.some.inj hb

/-- Open elements are any. -/
theorem of_open (l : List α) : Agrees (List.replicate l.length none) l := by
  induction l with
  | nil => exact List.Forall₂.nil
  | cons a l ih =>
      refine List.Forall₂.cons ?_ ih
      intro b hb
      cases hb

/-- One vector behind the other. -/
theorem append (h : Agrees xs l) (h' : Agrees ys m) :
    Agrees (xs ++ ys) (l ++ m) := by
  induction h with
  | nil => exact h'
  | cons hx _ ih => exact List.Forall₂.cons hx ih

/-- The front of a vector. -/
theorem take (h : Agrees xs l) (n : Nat) : Agrees (xs.take n) (l.take n) :=
  List.forall₂_take n h

/-- What is behind the front. -/
theorem drop (h : Agrees xs l) (n : Nat) : Agrees (xs.drop n) (l.drop n) :=
  List.forall₂_drop n h

/-- A copy of known and open elements. -/
theorem write (h : Agrees xs l) (h' : Agrees ys m) (off : Nat) :
    Agrees (Buffer.write xs off ys) (Buffer.write l off m) := by
  unfold Buffer.write
  rw [h'.length_eq]
  exact ((h.take off).append h').append (h.drop _)

/-- Whatever follows the elements that are kept. -/
theorem resize (h : Agrees xs l) {n : Nat} {rest : List α}
    (hrest : rest.length = n - xs.length) :
    Agrees (PartialVector.resize xs n) (l.take n ++ rest) := by
  refine (h.take n).append ?_
  rw [← hrest]
  exact of_open rest

/-- A known element is there. -/
theorem getElem? (h : Agrees xs l) {k : Nat} {b : α}
    (hk : xs[k]? = some (some b)) : l[k]? = some b := by
  induction h generalizing k with
  | nil => cases hk
  | cons hx _ ih =>
      cases k with
      | zero =>
          rw [List.getElem?_cons_zero] at hk ⊢
          rw [hx b (Option.some.inj hk)]
      | succ k =>
          rw [List.getElem?_cons_succ] at hk ⊢
          exact ih hk

end Agrees

/-- There is nothing behind the new length. -/
theorem drop_resize (xs : List (Option α)) (n : Nat) :
    (resize xs n).drop n = [] :=
  List.drop_eq_nil_iff.mpr (Nat.le_of_eq (length_resize xs n))

/-- Growing keeps the elements. -/
theorem take_resize {xs : List (Option α)} {n : Nat} (h : xs.length ≤ n) :
    (resize xs n).take xs.length = xs := by
  unfold resize
  rw [List.take_of_length_le h, List.take_left]

/-- Copying to the end of what was grown is appending. -/
theorem write_resize (xs ys : List (Option α)) :
    Buffer.write (resize xs (xs.length + ys.length)) xs.length ys
      = xs ++ ys := by
  unfold Buffer.write
  rw [take_resize (Nat.le_add_right ..), drop_resize, List.append_nil]

/-- Copying over all of a vector. -/
theorem write_resize_zero (xs ys : List (Option α)) :
    Buffer.write (resize xs ys.length) 0 ys = ys := by
  unfold Buffer.write
  rw [List.take_zero, Nat.zero_add, drop_resize, List.append_nil,
    List.nil_append]

end PartialVector
