/-
What becomes of a byte array by the outcome of `snprintf`.

`writeFormatted` asks for two sizes: room for the text and a NUL, and one
byte less again. They cancel as long as there is a NUL. Where `snprintf`
fails there is none: the room is for nothing, and the byte that is dropped
is the array's own. If the array has none, the second size is that of
2^64 - 1 bytes, and no vector gets that long.

`requestedSizes` has the sizes as the source asks for them, and
`AppendsExactly` says what a caller expects: the text is put behind the
bytes, and nothing smaller than what is there is ever asked for. The theorem
goes through the outcomes. A failure breaks the second, or is not defined
(`not_appendsExactly_failed`). A text of `INT_MAX` bytes overflows before
any size is asked for, and one that does not fit a vector throws. Any other
is put there (`appendsExactly_iff`).
-/
import IviLogging.Stream.Proofs.Pieces

namespace IviLogging

open Printf (Outcome intMax)

namespace ByteArray

-- ======================================================== an exact append

/-- The sizes that `resize` is called with, as far as it gets. -/
def requestedSizes (a : ByteArray) (o : Outcome) : List Nat :=
  let size : Int := o.returned + 1
  let grown := (a.size + size.toNat) % 2 ^ 64
  if size ≤ intMax then
    match (a.resize grown).bind fun b =>
        b.store a.size (o.written size.toNat) with
    | some c => [grown, (c.size + (2 ^ 64 - 1)) % 2 ^ 64]
    | none => [grown]
  else []

/-- The text of the outcome is put behind the array's bytes, and no size
below the old one is asked for. -/
structure AppendsExactly (a : ByteArray) (o : Outcome) : Prop where
  contents : ∃ b, a.appendOutcome o = some b
    ∧ b.contents = a.contents ++ o.text
    ∧ b.size = a.size + o.text.length
  sizes : ∀ n ∈ a.requestedSizes o, a.size ≤ n

-- ================================================================= growth

section Growth

variable {a : ByteArray} {o : Outcome}

/-- Both sizes, if there is room: the second is one less than the first, as
unsigned numbers count. -/
theorem requestedSizes_eq (h : a.Wf)
    (hreturned : o.returned + 1 ≤ (intMax : Int))
    (hroom : a.size + (o.returned + 1).toNat ≤ charVectorMaxSize) :
    a.requestedSizes o = [a.size + (o.returned + 1).toNat,
      (a.size + (o.returned + 1).toNat + (2 ^ 64 - 1)) % 2 ^ 64] := by
  have hmax : charVectorMaxSize = 2 ^ 63 - 1 := rfl
  obtain ⟨c, hc, _, hsize, _⟩ := grow_spec h o hroom
  simp only [requestedSizes, if_pos hreturned, hc, hsize]
  rw [Nat.mod_eq_of_lt (a := a.size + (o.returned + 1).toNat) (by omega)]

/-- Without room in a vector nothing comes of it. -/
theorem appendOutcome_of_full (h : a.Wf) {u : List UInt8}
    (hu : u.length < intMax) (hfull : charVectorMaxSize ≤ a.size + u.length) :
    a.appendOutcome (.printed u) = none := by
  have hmax : charVectorMaxSize = 2 ^ 63 - 1 := rfl
  have hint : intMax = 2 ^ 31 - 1 := rfl
  have hsize := size_le h
  have hgrown : (a.size + ((Outcome.printed u).returned + 1).toNat) % 2 ^ 64
      = a.size + u.length + 1 := by
    show (a.size + ((u.length : Int) + 1).toNat) % 2 ^ 64 = _
    omega
  unfold ByteArray.appendOutcome
  simp only [hgrown]
  rw [resize_eq_none (by omega), Option.bind_none, ite_self]

/-- Where `snprintf` fails the second size is below the old one, or the
array is empty and it is far too large. -/
theorem not_appendsExactly_failed (h : a.Wf) :
    ¬ a.AppendsExactly .failed := by
  intro hexact
  have hmax : charVectorMaxSize = 2 ^ 63 - 1 := rfl
  have hreturned : Outcome.failed.returned + 1 ≤ (intMax : Int) :=
    Int.natCast_nonneg intMax
  have hnat : (Outcome.failed.returned + 1).toNat = 0 := rfl
  have hroom : a.size + (Outcome.failed.returned + 1).toNat
      ≤ charVectorMaxSize := size_le h
  -- an empty array is asked to get far too large, any other to get shorter
  by_cases hempty : a.size = 0
  · obtain ⟨b, hb, _⟩ := hexact.contents
    obtain ⟨c, _, hsize, _, heq⟩ :=
      appendOutcome_eq h .failed hreturned hroom
    rw [heq, hsize, hnat, hempty,
      resize_eq_none (by simp [charVectorMaxSize])] at hb
    cases hb
  · have hlast := hexact.sizes
      ((a.size + 0 + (2 ^ 64 - 1)) % 2 ^ 64) (by
        rw [requestedSizes_eq h hreturned hroom, hnat]
        simp)
    rw [hnat] at hroom
    omega

/-- The array has the text of the outcome behind its bytes, and was never
asked to shrink below its size, exactly if `snprintf` prints fewer than
`INT_MAX` bytes and they fit a vector. -/
theorem appendsExactly_iff (h : a.Wf) (o : Outcome) :
    a.AppendsExactly o ↔ ∃ u, o = .printed u ∧ u.length < intMax
      ∧ a.size + u.length < charVectorMaxSize := by
  have hint : intMax = 2 ^ 31 - 1 := rfl
  have hmax : charVectorMaxSize = 2 ^ 63 - 1 := rfl
  constructor
  · intro hexact
    cases o with
    | failed => exact absurd hexact (not_appendsExactly_failed h)
    | printed u =>
        obtain ⟨b, hb, _⟩ := hexact.contents
        refine ⟨u, rfl, ?_, ?_⟩
        · by_contra hlong
          rw [appendOutcome_long a (Nat.le_of_not_lt hlong)] at hb
          cases hb
        · -- too much for a vector: whether the text can be measured does not
          -- matter
          by_contra hfull
          by_cases hlong : intMax ≤ u.length
          · rw [appendOutcome_long a hlong] at hb
            cases hb
          · rw [appendOutcome_of_full h (Nat.lt_of_not_le hlong)
              (Nat.le_of_not_lt hfull)] at hb
            cases hb
  · intro hprinted
    obtain ⟨u, heq, hu, hfits⟩ := hprinted
    subst heq
    have hholds : a.Holds a.contents := by
      refine ⟨h, rfl, ?_⟩
      rw [length_contents h]
      omega
    have hpiece := hholds.appendOutcome hu
    rw [length_contents h, if_pos hfits] at hpiece
    obtain ⟨b, rest, hb, hbholds, _⟩ := hpiece
    have hnat : ((Outcome.printed u).returned + 1).toNat = u.length + 1 := by
      show ((u.length : Int) + 1).toNat = u.length + 1
      omega
    refine ⟨⟨b, hb, hbholds.contents, ?_⟩, ?_⟩
    · rw [hbholds.size, List.length_append, length_contents h]
      rfl
    · have hreturned : (Outcome.printed u).returned + 1 ≤ (intMax : Int) := by
        show (u.length : Int) + 1 ≤ intMax
        omega
      intro n hn
      rw [requestedSizes_eq h hreturned (by omega), hnat] at hn
      simp only [List.mem_cons, List.not_mem_nil, or_false] at hn
      omega

end Growth

-- =============================================================== a sample

theorem appendsExactly_iff_sample :
    (fresh sampleMemory).AppendsExactly (.printed (ascii ['h', 'i']))
      ↔ ∃ u, Outcome.printed (ascii ['h', 'i']) = .printed u
        ∧ u.length < intMax
        ∧ (fresh sampleMemory).size + u.length < charVectorMaxSize :=
  appendsExactly_iff (Holds.fresh sampleMemory).wf _

/-- An array of two bytes, and a text that is too long for `snprintf`. -/
theorem byte_dropped :
    ((fresh sampleMemory).append (ascii ['h', 'i'])).bind (fun a =>
        (a.appendOutcome .failed).map fun b =>
          (a.contents, a.requestedSizes .failed, b.contents))
      = some (ascii ['h', 'i'], [2, 1], ascii ['h']) := by
  decide +kernel

/-- Its last byte is gone. -/
theorem failure_drops_byte :
    ∃ a, (fresh sampleMemory).append (ascii ['h', 'i']) = some a
      ∧ ¬ a.AppendsExactly .failed := by
  obtain ⟨a, ha, hrun⟩ := Option.bind_eq_some_iff.mp byte_dropped
  obtain ⟨b, hb, heq⟩ := Option.map_eq_some_iff.mp hrun
  obtain ⟨hbefore, heq⟩ := Prod.mk.inj heq
  obtain ⟨_, hafter⟩ := Prod.mk.inj heq
  refine ⟨a, ha, ?_⟩
  intro hexact
  obtain ⟨b', hb', hcontents, _⟩ := hexact.contents
  rw [hb] at hb'
  cases hb'
  rw [hafter, hbefore] at hcontents
  cases hcontents

end ByteArray

end IviLogging
