/-
Numerals and bytes read back from their digits.

# Numerals

A numeral spells its number whatever its precision is (`spelled_numeral`),
because the zeros in front of it count for nothing; so numbers with the same
numeral are the same (`numeral_inj`).

# Leading digits

The first `k` digits of a numeral are the numeral of what is left of the
number when its low digits are dropped (`take_numeral`), and two numbers
agree in that exactly if they are the same or have `k` leading digits in
common (`leading_eq_iff`): a number with fewer digits is left as it is, and
one with more is left with exactly `k` (`leading_bounds`), so that a long
number is never taken for a short one.

# Bytes

`byteFormat` is the usual text of a byte, two digits and a blank. It is a
format that can be read back, so the text of some bytes determines them.
-/
import IviLogging.Lib.Format
import IviLogging.Lib.Printf

namespace Digits

open Printf (digit numeral)

-- =============================================================== digits

/-- What a digit stands for. -/
def digitValue (c : UInt8) : Option Nat :=
  if 48 ≤ c ∧ c ≤ 57 then some (c.toNat - 48)
  else if 65 ≤ c ∧ c ≤ 70 then some (c.toNat - 55)
  else none

/-- A digit is read as what it was written for. -/
theorem digitValue_digit {d : Nat} (h : d < 16) :
    digitValue (digit d) = some d := by
  have hall : ∀ d : Fin 16, digitValue (digit d) = some d.val := by decide
  exact hall ⟨d, h⟩

-- ============================================================= numerals

/-- The number that some digits spell. -/
def spelled (base : Nat) (text : List UInt8) : Nat :=
  Nat.ofDigits base (text.reverse.map fun c => (digitValue c).getD 0)

/-- A numeral spells its number: the digits are read one by one, and the
zeros that fill it up to its precision are worth nothing. -/
theorem spelled_numeral {base : Nat} (hbase : 1 < base)
    (hbase' : base ≤ 16) (precision n : Nat) :
    spelled base (numeral base precision n) = n := by
  have hdigits : ∀ ds : List Nat, (∀ d ∈ ds, d < base) →
      (ds.map digit).map (fun c => (digitValue c).getD 0) = ds := by
    intro ds hds
    rw [List.map_map]
    conv_rhs => rw [← List.map_id ds]
    apply List.map_congr_left
    intro d hd
    show (digitValue (digit d)).getD 0 = d
    rw [digitValue_digit (Nat.lt_of_lt_of_le (hds d hd) hbase')]
    rfl
  simp only [spelled, numeral, List.reverse_append, List.reverse_replicate,
    List.map_append, List.map_replicate, ← List.map_reverse,
    List.reverse_reverse]
  rw [hdigits _ fun d hd => Nat.digits_lt_base hbase hd]
  show Nat.ofDigits base (Nat.digits base n ++ List.replicate _ 0) = n
  rw [Nat.ofDigits_append_replicate_zero, Nat.ofDigits_digits]

/-- Numbers with the same numeral are the same. -/
theorem numeral_inj {base : Nat} (hbase : 1 < base) (hbase' : base ≤ 16)
    {precision m n : Nat}
    (h : numeral base precision m = numeral base precision n) : m = n := by
  rw [← spelled_numeral hbase hbase' precision m, h,
    spelled_numeral hbase hbase']

-- ======================================================= leading digits

/-- What is left of a number when its digits behind the first `k` are
dropped. -/
def leading (base k n : Nat) : Nat :=
  n / base ^ ((Nat.digits base n).length - k)

section Leading

variable {base k m n : Nat}

/-- The digits behind the lowest ones are those of the quotient. -/
theorem drop_digits (hbase : 1 < base) (i n : Nat) :
    (Nat.digits base n).drop i = Nat.digits base (n / base ^ i) := by
  induction i generalizing n with
  | zero => rw [Nat.pow_zero, Nat.div_one, List.drop_zero]
  | succ i ih =>
      rcases Nat.eq_zero_or_pos n with hn | hn
      · subst hn
        simp
      · rw [Nat.digits_eq_cons_digits_div hbase (by omega),
          List.drop_succ_cons, ih, Nat.div_div_eq_div_mul, Nat.pow_succ']

/-- A numeral that is cut behind `k` digits. -/
theorem take_numeral (hbase : 1 < base) (hk : 0 < k) (n : Nat) :
    (numeral base 1 n).take k = numeral base 1 (leading base k n) := by
  rcases Nat.eq_zero_or_pos n with hn | hn
  · subst hn
    have hzero : leading base k 0 = 0 := Nat.zero_div _
    rw [hzero]
    apply List.take_of_length_le
    simp [numeral]
    omega
  · -- a number that is not zero has a first digit, and so has what is left of
    -- it, so nothing is filled up
    have hdigits : 0 < (Nat.digits base n).length :=
      List.length_pos_iff.mpr (Nat.digits_ne_nil_iff_ne_zero.mpr (by omega))
    have hplain : ∀ x, 0 < (Nat.digits base x).length →
        numeral base 1 x = (Nat.digits base x).reverse.map digit := by
      intro x hx
      have hnone : 1 - (Nat.digits base x).length = 0 := by omega
      simp [numeral, hnone]
    have hfront := drop_digits hbase
      ((Nat.digits base n).length - k) n
    rw [hplain n hdigits, ← List.map_take, List.take_reverse, hfront]
    refine (hplain _ ?_).symm
    rw [← hfront, List.length_drop]
    omega

/-- A number that has no more digits is left as it is. -/
theorem leading_of_short (h : (Nat.digits base n).length ≤ k) :
    leading base k n = n := by
  have hnone : (Nat.digits base n).length - k = 0 := by omega
  rw [leading, hnone, Nat.pow_zero, Nat.div_one]

/-- Of a longer number exactly `k` digits are left. -/
theorem leading_bounds (hbase : 1 < base) (hk : 0 < k)
    (h : k ≤ (Nat.digits base n).length) :
    base ^ (k - 1) ≤ leading base k n ∧ leading base k n < base ^ k := by
  have hlength : (Nat.digits base (leading base k n)).length = k := by
    rw [leading, ← drop_digits hbase, List.length_drop]
    omega
  rw [← Nat.lt_digits_length_iff hbase, ← Nat.digits_length_le_iff hbase,
    hlength]
  omega

/-- A number of `k` digits in front of another one's low digits. -/
theorem leading_of_div (hbase : 1 < base) (hk : 0 < k) {i d : Nat}
    (hd : n / base ^ i = d) (hlow : base ^ (k - 1) ≤ d) (hhigh : d < base ^ k) :
    leading base k n = d := by
  rw [← Nat.lt_digits_length_iff hbase] at hlow
  rw [← Nat.digits_length_le_iff hbase] at hhigh
  have hlength := congrArg List.length (drop_digits hbase i n)
  rw [hd, List.length_drop] at hlength
  -- what is left has k digits, which tells how many were dropped
  have hi : (Nat.digits base n).length - k = i := by omega
  rw [leading, hi, hd]

/-- Two numbers with the same `k` leading digits. -/
def SameLeading (base k m n : Nat) : Prop :=
  ∃ d, base ^ (k - 1) ≤ d ∧ d < base ^ k
    ∧ (∃ i, m / base ^ i = d) ∧ ∃ j, n / base ^ j = d

/-- Two numbers whose numerals begin with the same `k` digits, or are the
same: those that are both short are equal, and as soon as one of them is
long what is left is `k` digits of both. -/
theorem leading_eq_iff (hbase : 1 < base) (hk : 0 < k) :
    leading base k m = leading base k n ↔ m = n ∨ SameLeading base k m n := by
  constructor
  · intro heq
    by_cases hm : k ≤ (Nat.digits base m).length
    · obtain ⟨hlow, hhigh⟩ := leading_bounds hbase hk hm
      exact Or.inr ⟨_, hlow, hhigh, ⟨_, rfl⟩, _, heq.symm⟩
    · by_cases hn : k ≤ (Nat.digits base n).length
      · obtain ⟨hlow, hhigh⟩ := leading_bounds hbase hk hn
        exact Or.inr ⟨_, hlow, hhigh, ⟨_, heq⟩, _, rfl⟩
      · rw [leading_of_short (by omega), leading_of_short (by omega)] at heq
        exact Or.inl heq
  · intro h
    rcases h with heq | ⟨d, hlow, hhigh, ⟨i, hi⟩, j, hj⟩
    · rw [heq]
    · rw [leading_of_div hbase hk hi hlow hhigh,
        leading_of_div hbase hk hj hlow hhigh]

end Leading

-- ================================================================ bytes

/-- A byte as two digits and a blank. -/
def byteText (b : UInt8) : List UInt8 :=
  [digit (b.toNat / 16), digit (b.toNat % 16), 32]

/-- Read a byte. -/
def readByte : Reader UInt8 UInt8
  | high :: low :: blank :: rest => do
      let high ← digitValue high
      let low ← digitValue low
      if blank = 32 then some (UInt8.ofNat (16 * high + low), rest) else none
  | _ => none

/-- A byte is read back from its text. -/
theorem readByte_byteText (b : UInt8) (rest : List UInt8) :
    readByte (byteText b ++ rest) = some (b, rest) := by
  have hlt : b.toNat < 256 := b.toNat_lt
  have hsum : 16 * (b.toNat / 16) + b.toNat % 16 = b.toNat := by omega
  show (do
    let high ← digitValue (digit (b.toNat / 16))
    let low ← digitValue (digit (b.toNat % 16))
    if (32 : UInt8) = 32 then some (UInt8.ofNat (16 * high + low), rest)
      else none) = _
  rw [digitValue_digit (by omega), digitValue_digit (by omega)]
  show some (UInt8.ofNat (16 * (b.toNat / 16) + b.toNat % 16), rest) = _
  rw [hsum, UInt8.ofNat_toNat]

/-- The format of bytes as text. -/
def byteFormat : Format UInt8 UInt8 where
  Valid _ := True
  write := byteText
  read := readByte
  read_write _ rest := readByte_byteText _ rest
  write_ne_nil _ := List.cons_ne_nil _ _

/-- The text of some bytes takes three bytes for each. -/
theorem length_writeAll_byteFormat (bs : List UInt8) :
    (byteFormat.writeAll bs).length = 3 * bs.length := by
  induction bs with
  | nil => rfl
  | cons b bs ih =>
      rw [Format.writeAll_cons, List.length_append, ih, List.length_cons]
      show 3 + 3 * bs.length = _
      omega

/-- The text of some bytes is printable. -/
theorem zero_notMem_writeAll_byteFormat (bs : List UInt8) :
    0 ∉ byteFormat.writeAll bs := by
  intro hmem
  obtain ⟨b, -, hb⟩ := List.mem_flatMap.mp hmem
  have hlt : b.toNat < 256 := b.toNat_lt
  have hzero : 0 = digit (b.toNat / 16) ∨ 0 = digit (b.toNat % 16)
      ∨ (0 : UInt8) = 32 := by
    simpa [byteFormat, byteText] using hb
  rcases hzero with hzero | hzero | hzero
  · exact Printf.digit_ne_zero (by omega) hzero.symm
  · exact Printf.digit_ne_zero (by omega) hzero.symm
  · cases hzero

end Digits
