/-
A fixed array that is filled through an index.

# Putting

`put` is `cells[next++] = a`. There is no cell behind the last one, so a
`put` there is `none`, and a filling that comes to its end never left the
array. It does so exactly if what it puts fits behind what is there
(`isSome_puts`), and then the front of the array is what was there and
what was put (`puts_eq_some`); the cells behind the index are whatever they
were.

# Loops

A loop over an index that reads a list reads the list's elements
(`foldlM_range`), so one that puts something for each of them is a single
`puts` (`foldlM_range_puts`).
-/
import Mathlib.Data.List.Basic

variable {α β : Type*}

/-- An array, and the index of the next cell. -/
structure Cursor (α : Type*) (size : Nat) where
  cells : Vector α size
  next : Nat
  next_le : next ≤ size

namespace Cursor

variable {size : Nat}

/-- At the front of an array. -/
def start (cells : Vector α size) : Cursor α size :=
  ⟨cells, 0, Nat.zero_le _⟩

/-- `cells[next++] = a`. -/
def put (c : Cursor α size) (a : α) : Option (Cursor α size) :=
  if h : c.next < size then some ⟨c.cells.set c.next a h, c.next + 1, h⟩
  else none

/-- Some elements, one behind the other. -/
def puts (c : Cursor α size) (as : List α) : Option (Cursor α size) :=
  as.foldlM put c

/-- The cells in front of the index. -/
def written (c : Cursor α size) : List α := c.cells.toList.take c.next

-- ================================================================ steps

@[simp] theorem next_start (cells : Vector α size) :
    (start cells).next = 0 := rfl

@[simp] theorem written_start (cells : Vector α size) :
    (start cells).written = [] := rfl

/-- There is a cell in front of the end. -/
theorem isSome_put (c : Cursor α size) (a : α) :
    (c.put a).isSome ↔ c.next < size := by
  unfold put
  split
  · next h => exact iff_of_true rfl h
  · next h => exact iff_of_false Bool.false_ne_true h

/-- What one step does. -/
theorem put_eq_some {c c' : Cursor α size} {a : α} (h : c.put a = some c') :
    c'.next = c.next + 1 ∧ c'.written = c.written ++ [a] := by
  unfold put at h
  split at h
  · next hlt =>
      cases h
      refine ⟨rfl, ?_⟩
      show (c.cells.set c.next a hlt).toList.take (c.next + 1) = _
      rw [Vector.toList_set, List.take_add_one, List.take_set_of_le
        (Nat.le_refl _), List.getElem?_set_self (by simpa using hlt)]
      rfl
  · cases h

-- ================================================================= runs

@[simp] theorem puts_nil (c : Cursor α size) : c.puts [] = some c := rfl
/-- The first element, and then the others. -/
theorem puts_cons (c : Cursor α size) (a : α) (as : List α) :
    c.puts (a :: as) = (c.put a).bind fun c => c.puts as := rfl

@[simp] theorem puts_singleton (c : Cursor α size) (a : α) :
    c.puts [a] = c.put a :=
  Option.bind_fun_some _

/-- Some elements, and then some more. -/
theorem puts_append (c : Cursor α size) (as bs : List α) :
    c.puts (as ++ bs) = (c.puts as).bind fun c => c.puts bs :=
  List.foldlM_append

/-- What putting some elements does, from what each one does. -/
theorem puts_eq_some {c c' : Cursor α size} {as : List α}
    (h : c.puts as = some c') :
    c'.next = c.next + as.length ∧ c'.written = c.written ++ as := by
  induction as generalizing c with
  | nil =>
      cases h
      exact ⟨rfl, (List.append_nil _).symm⟩
  | cons a as ih =>
      obtain ⟨b, hb, hrest⟩ := Option.bind_eq_some_iff.mp h
      obtain ⟨hnext, hwritten⟩ := put_eq_some hb
      obtain ⟨hnext', hwritten'⟩ := ih hrest
      refine ⟨?_, ?_⟩
      · rw [hnext', hnext, List.length_cons]
        omega
      · rw [hwritten', hwritten, List.append_assoc, List.singleton_append]

/-- The elements are put exactly if there are cells for them. -/
theorem isSome_puts (c : Cursor α size) (as : List α) :
    (c.puts as).isSome ↔ c.next + as.length ≤ size := by
  induction as generalizing c with
  | nil => exact iff_of_true rfl c.next_le
  | cons a as ih =>
      rw [puts_cons, List.length_cons]
      cases hput : c.put a with
      | none =>
          -- the array is full, and there is at least this element to put
          have hfull : ¬ c.next < size := by
            rw [← isSome_put c a, hput]
            exact Bool.false_ne_true
          exact iff_of_false Bool.false_ne_true (by omega)
      | some b =>
          show (b.puts as).isSome ↔ _
          rw [ih, (put_eq_some hput).1]
          omega

/-- Where there is room the elements are put, behind what was written. -/
theorem exists_puts (c : Cursor α size) (as : List α)
    (h : c.next + as.length ≤ size) :
    ∃ c', c.puts as = some c' ∧ c'.written = c.written ++ as := by
  obtain ⟨c', hc'⟩ := Option.isSome_iff_exists.mp ((isSome_puts c as).mpr h)
  exact ⟨c', hc', (puts_eq_some hc').2⟩

-- ================================================================ loops

/-- A loop that puts something for each element of a list. -/
theorem foldlM_puts (c : Cursor α size) (f : β → List α) (xs : List β) :
    xs.foldlM (fun c x => c.puts (f x)) c = c.puts (xs.flatMap f) := by
  induction xs generalizing c with
  | nil => rfl
  | cons x xs ih =>
      rw [List.foldlM_cons, List.flatMap_cons, puts_append]
      exact congrArg (Option.bind (c.puts (f x))) (funext ih)

/-- A loop over an index that reads the front of a list. -/
theorem foldlM_range {σ : Type*} (xs : List β) (f : σ → β → Option σ)
    (s : σ) {n : Nat} (h : n ≤ xs.length) :
    (List.range n).foldlM (fun s i => xs[i]?.bind (f s)) s
      = (xs.take n).foldlM f s := by
  induction n with
  | zero => rfl
  | succ n ih =>
      have hn : xs[n]? = some xs[n] := List.getElem?_eq_getElem h
      rw [List.range_succ, List.take_add_one, List.foldlM_append,
        List.foldlM_append, ih (Nat.le_of_succ_le h), hn]
      simp [hn]

/-- A loop over an index whose body puts something for an element. -/
theorem foldlM_range_puts (c : Cursor α size)
    {g : Cursor α size → β → Option (Cursor α size)} {f : β → List α}
    (hg : ∀ c x, g c x = c.puts (f x)) {xs : List β} {n : Nat}
    (h : n ≤ xs.length) :
    (List.range n).foldlM (fun c i => xs[i]?.bind (g c)) c
      = c.puts ((xs.take n).flatMap f) := by
  have hbody : g = fun c x => c.puts (f x) :=
    funext fun c => funext (hg c)
  rw [foldlM_range xs g c h, hbody, foldlM_puts]

end Cursor
