/-
Self-delimiting formats and streams of them.

# The law

A `Format` writes a value as a nonempty token list and reads it back
off the front of any list that starts with it. That law alone makes
every concatenation readable: `readAll` splits a stream back into
exactly the values that were written (`readAll_writeAll`), so two streams
of valid values with the same tokens are the same stream
(`writeAll_injective`). Nothing is asked of tokens that no valid value
begins with: what a reader makes of them is its own affair.

# Fuel

`readAll` runs on fuel, and the stream's own length always suffices,
since every value takes at least one token.
-/
import Mathlib.Data.List.Basic

universe u v

/-- Take one value off the front of a token list. -/
abbrev Reader (β : Type v) (α : Type u) := List β → Option (α × List β)

namespace Reader

variable {β : Type v}

/-- Take `n` tokens, failing when fewer are left. -/
def take (n : Nat) : Reader β (List β) := fun bs =>
  if n ≤ bs.length then some (bs.take n, bs.drop n) else none

/-- Taking exactly the tokens that were put in front. -/
theorem take_append {n : Nat} {a : List β} (h : a.length = n)
    (rest : List β) : take n (a ++ rest) = some (a, rest) := by
  subst h
  unfold take
  rw [if_pos (by simp), List.take_left, List.drop_left]

/-- What a take returns is what was in front. -/
theorem take_eq_some {n : Nat} {bs a rest : List β} :
    take n bs = some (a, rest) ↔ bs = a ++ rest ∧ a.length = n := by
  constructor
  · intro h
    unfold take at h
    split at h
    case isTrue hn =>
      simp only [Option.some.injEq, Prod.mk.injEq] at h
      obtain ⟨rfl, rfl⟩ := h
      exact ⟨(List.take_append_drop n bs).symm,
        by rw [List.length_take, Nat.min_eq_left hn]⟩
    case isFalse => cases h
  · intro hboth
    obtain ⟨rfl, h⟩ := hboth
    exact take_append h rest

end Reader

/-- A self-delimiting format: `Valid` values are written as nonempty
token lists that `read` recognises whatever follows them. -/
structure Format (β : Type v) (α : Type u) where
  Valid : α → Prop
  write : α → List β
  read : Reader β α
  read_write : ∀ {a : α}, Valid a → ∀ rest : List β,
    read (write a ++ rest) = some (a, rest)
  write_ne_nil : ∀ {a : α}, Valid a → write a ≠ []

namespace Format

variable {β : Type v} {α : Type u} (F : Format β α)

-- ======================================================== whole streams

/-- Read values until the stream is empty, at most `fuel` of them. -/
def readUpTo : Nat → List β → Option (List α)
  | _, [] => some []
  | 0, _ :: _ => none
  | fuel + 1, b :: bs =>
      match F.read (b :: bs) with
      | some (a, rest) => (readUpTo fuel rest).map (a :: ·)
      | none => none

/-- Split a whole stream into values; `none` unless they use it up. -/
def readAll (bs : List β) : Option (List α) := F.readUpTo bs.length bs

/-- The stream of a list of values. -/
def writeAll (as : List α) : List β := as.flatMap F.write

@[simp] theorem writeAll_nil : F.writeAll [] = [] := rfl

@[simp] theorem writeAll_cons (a : α) (as : List α) :
    F.writeAll (a :: as) = F.write a ++ F.writeAll as := rfl

@[simp] theorem writeAll_append (as as' : List α) :
    F.writeAll (as ++ as') = F.writeAll as ++ F.writeAll as' :=
  List.flatMap_append

/-- Fuel for the number of values is fuel enough. -/
theorem readUpTo_writeAll {as : List α} (hv : ∀ a ∈ as, F.Valid a)
    (fuel : Nat) (hfuel : as.length ≤ fuel) :
    F.readUpTo fuel (F.writeAll as) = some as := by
  induction as generalizing fuel with
  | nil =>
      cases fuel with
      | zero => rfl
      | succ fuel => rfl
  | cons a as ih =>
      obtain ⟨fuel, rfl⟩ : ∃ k, fuel = k + 1 :=
        ⟨fuel - 1, by rw [List.length_cons] at hfuel; omega⟩
      have ha : F.Valid a := hv a (List.mem_cons_self ..)
      have hrest := ih (fun x hx => hv x (List.mem_cons_of_mem _ hx))
        fuel (by rw [List.length_cons] at hfuel; omega)
      have hread := F.read_write ha (F.writeAll as)
      -- the value is nonempty, which is what keeps the reader from stopping
      cases hw : F.write a with
      | nil => exact absurd hw (F.write_ne_nil ha)
      | cons b bs =>
          rw [hw, List.cons_append] at hread
          rw [writeAll_cons, hw, List.cons_append, readUpTo, hread]
          show (F.readUpTo fuel (F.writeAll as)).map (a :: ·) = _
          rw [hrest]
          rfl

/-- A stream has at least one token for each value in it. -/
theorem length_le_writeAll {as : List α} (hv : ∀ a ∈ as, F.Valid a) :
    as.length ≤ (F.writeAll as).length := by
  induction as with
  | nil => exact Nat.zero_le _
  | cons a as ih =>
      have hpos : 0 < (F.write a).length :=
        List.length_pos_iff.mpr (F.write_ne_nil (hv a (List.mem_cons_self ..)))
      have hrest := ih fun x hx => hv x (List.mem_cons_of_mem _ hx)
      rw [writeAll_cons, List.length_append, List.length_cons]
      omega

/-- A stream of valid values splits back into exactly those values. -/
theorem readAll_writeAll {as : List α} (hv : ∀ a ∈ as, F.Valid a) :
    F.readAll (F.writeAll as) = some as :=
  F.readUpTo_writeAll hv _ (F.length_le_writeAll hv)

/-- The first value of a stream is read off its front. -/
theorem read_of_readAll_cons {bs : List β} {a : α} {as : List α}
    (h : F.readAll bs = some (a :: as)) : ∃ rest, F.read bs = some (a, rest) := by
  cases bs with
  | nil => cases h
  | cons b bs =>
      unfold readAll at h
      rw [List.length_cons, readUpTo] at h
      cases hread : F.read (b :: bs) with
      | none =>
          rw [hread] at h
          cases h
      | some p =>
          rw [hread] at h
          obtain ⟨a', rest⟩ := p
          obtain ⟨as', -, has⟩ := Option.map_eq_some_iff.mp h
          cases has
          exact ⟨rest, rfl⟩

/-- Streams of valid values are determined by their tokens. -/
theorem writeAll_injective {as as' : List α} (hv : ∀ a ∈ as, F.Valid a)
    (hv' : ∀ a ∈ as', F.Valid a) (h : F.writeAll as = F.writeAll as') :
    as = as' := by
  have heq : some as = some as' := by
    rw [← F.readAll_writeAll hv, h, F.readAll_writeAll hv']
  exact Option.some.inj heq

end Format
