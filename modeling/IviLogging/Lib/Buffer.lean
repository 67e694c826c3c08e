/-
A fixed array filled from the front, as a list.

`write dst off src` is `memcpy` into `dst` at `off`. A copy that stays
inside the array leaves its length alone (`length_write`), so an array
whose length never moves is an array no copy ever left; the filled
prefix grows by exactly what was copied (`take_write`), and a field
patched in front of a copy already made is one copy of both
(`write_write`), and so is a copy right behind it (`write_append`).
-/
import Mathlib.Data.List.Basic

namespace Buffer

variable {α : Type*}

/-- Copy `src` over `dst` from index `off` on. -/
def write (dst : List α) (off : Nat) (src : List α) : List α :=
  dst.take off ++ src ++ dst.drop (off + src.length)

/-- A copy inside the array keeps the array's length. -/
theorem length_write {dst src : List α} {off : Nat}
    (h : off + src.length ≤ dst.length) :
    (write dst off src).length = dst.length := by
  unfold write
  simp only [List.length_append, List.length_take, List.length_drop]
  omega

/-- The prefix that ends with the copied bytes. -/
theorem take_write {dst src : List α} {off : Nat} (h : off ≤ dst.length) :
    (write dst off src).take (off + src.length) = dst.take off ++ src := by
  unfold write
  apply List.take_left'
  rw [List.length_append, List.length_take, Nat.min_eq_left h]

/-- A copy leaves the bytes in front of it alone. -/
theorem take_write_of_le {dst src : List α} {off n : Nat} (hn : n ≤ off)
    (h : off ≤ dst.length) : (write dst off src).take n = dst.take n := by
  have hlen : n ≤ (dst.take off).length := by
    rw [List.length_take]
    omega
  unfold write
  rw [List.append_assoc, List.take_append_of_le_length hlen,
    List.take_take, Nat.min_eq_left hn]

/-- Patching a field right in front of an earlier copy is copying both
at once. -/
theorem write_write {dst a : List α} {off : Nat} (b : List α)
    (h : off + a.length ≤ dst.length) :
    write (write dst (off + a.length) b) off a = write dst off (a ++ b) := by
  have htake : (write dst (off + a.length) b).take off = dst.take off :=
    take_write_of_le (by omega) h
  -- behind the field there is the earlier copy, and the rest of the array
  have hdrop : (write dst (off + a.length) b).drop (off + a.length)
      = b ++ dst.drop (off + a.length + b.length) := by
    unfold write
    rw [List.append_assoc]
    apply List.drop_left'
    rw [List.length_take, Nat.min_eq_left h]
  show (write dst (off + a.length) b).take off ++ a
      ++ (write dst (off + a.length) b).drop (off + a.length) = _
  rw [htake, hdrop, write, List.length_append]
  simp only [List.append_assoc, Nat.add_assoc]

/-- A copy right behind an earlier one is copying both at once. -/
theorem write_append {dst a : List α} {off : Nat} (b : List α)
    (h : off + a.length ≤ dst.length) :
    write (write dst off a) (off + a.length) b = write dst off (a ++ b) := by
  have htake : (write dst off a).take (off + a.length) = dst.take off ++ a :=
    take_write (by omega)
  have hfront : (dst.take off ++ a).length = off + a.length := by
    rw [List.length_append, List.length_take, Nat.min_eq_left (by omega)]
  -- the first copy is no longer than what is dropped
  have hdrop : (write dst off a).drop (off + a.length + b.length)
      = dst.drop (off + a.length + b.length) := by
    show (dst.take off ++ a ++ dst.drop (off + a.length)).drop _ = _
    rw [List.drop_append, List.drop_eq_nil_of_le (by omega), hfront,
      List.nil_append, List.drop_drop, Nat.add_sub_cancel_left]
  show (write dst off a).take (off + a.length) ++ b
      ++ (write dst off a).drop (off + a.length + b.length) = _
  rw [htake, hdrop, write, List.length_append]
  simp only [List.append_assoc, Nat.add_assoc]

/-- A copy into a prefix is one into the array. -/
theorem take_write_inside {dst src : List α} {off n : Nat}
    (h : off + src.length ≤ n) (hn : n ≤ dst.length) :
    (write dst off src).take n = write (dst.take n) off src := by
  have hfront : (dst.take off ++ src).length = off + src.length := by
    rw [List.length_append, List.length_take, Nat.min_eq_left (by omega)]
  unfold write
  rw [List.take_append, List.take_of_length_le (by omega), hfront,
    List.take_take, Nat.min_eq_left (by omega), List.drop_take]

/-- A copy over the whole front. -/
theorem write_zero (dst src : List α) :
    write dst 0 src = src ++ dst.drop src.length := by
  unfold write
  rw [List.take_zero, List.nil_append, Nat.zero_add]

end Buffer
