/-
Formatted output of the C library.

# The conversions

A format is scanned byte by byte: text is copied, and what stands between
a `%` and its letter is collected (`Spec`: flags, field width, precision,
size) until the letter takes an argument (`convert`). `printf` is `none`
where the language leaves open what happens, for a conversion without an
argument or with one of another type or a string that is read out of the
memory known of it, and for what is not modelled: flags other than `-` and
`0`, and letters other than `d i u X s f %`.

A floating point number is a fraction with a power of two, so its decimal
places are exact and the last one is rounded to nearest, ties to even.

# The plain conversions

What a format with a single conversion prints is worked out once for each
letter (`printf_integer`, `printf_floating`, `printf_string`,
`printf_view`), for the integers also with text on both sides
(`printf_integer_between`). A number never prints more bytes than its type
allows (`length_fixed_ofBits_le`): the digits in front of the point are
counted through a power of ten above the number (`scaled_lt`).

# Any format

Two facts hold of every format. What it prints has no NUL if the format has
none (`zero_notMem_printf`), because no conversion prints one, and this is
proved for a scan that may have begun in the middle of a conversion. And a
text that is used as a format with no arguments comes out as it is exactly
if there is no percent sign in it (`printf_self_iff`): all that such a scan
can do with one is to lose a byte (`length_scan_le`).
-/
import Mathlib.Algebra.Ring.Nat
import Mathlib.Data.List.TakeWhile
import Mathlib.Data.Nat.Digits.Lemmas

namespace Printf

-- =============================================================== numerals

/-- A digit; the letters are upper case. -/
def digit (d : Nat) : UInt8 := UInt8.ofNat (if d < 10 then 48 + d else 55 + d)

/-- A number in some base, with at least `precision` digits. -/
def numeral (base precision n : Nat) : List UInt8 :=
  let digits := (Nat.digits base n).reverse.map digit
  List.replicate (precision - digits.length) 48 ++ digits

/-- What a binary floating point format stands for; a finite number is
`significand * 2 ^ exponent`. -/
inductive Binary
  | nan (negative : Bool)
  | infinity (negative : Bool)
  | finite (negative : Bool) (significand : Nat) (exponent : Int)
  deriving DecidableEq

/-- The interchange formats, by the bits of their fraction and exponent. -/
def Binary.ofBits (fractionBits exponentBits bits : Nat) : Binary :=
  let fraction := bits % 2 ^ fractionBits
  let exponent := bits / 2 ^ fractionBits % 2 ^ exponentBits
  let negative := decide (bits / 2 ^ (fractionBits + exponentBits) % 2 = 1)
  let bias : Int := 2 ^ (exponentBits - 1) - 1 + fractionBits
  if exponent = 2 ^ exponentBits - 1 then
    if fraction = 0 then .infinity negative else .nan negative
  else if exponent = 0 then .finite negative fraction (1 - bias)
  else .finite negative (2 ^ fractionBits + fraction) (exponent - bias)

/-- `binary32`. -/
def Binary.ofFloat (bits : UInt32) : Binary := ofBits 23 8 bits.toNat

/-- `binary64`. -/
def Binary.ofDouble (bits : UInt64) : Binary := ofBits 52 11 bits.toNat

/-- A quotient, rounded to nearest and ties to even. -/
def roundQuotient (n d : Nat) : Nat :=
  if d < 2 * (n % d) ∨ d = 2 * (n % d) ∧ n / d % 2 = 1 then n / d + 1
  else n / d

/-- `significand * 2 ^ exponent` in units of the last decimal place. -/
def scaled (precision significand : Nat) : Int → Nat
  | .ofNat e => significand * 2 ^ e * 10 ^ precision
  | .negSucc e => roundQuotient (significand * 10 ^ precision) (2 ^ (e + 1))

/-- A number with some decimal places. -/
def decimalPlaces (precision units : Nat) : List UInt8 :=
  numeral 10 1 (units / 10 ^ precision)
    ++ if precision = 0 then []
      else 46 :: numeral 10 precision (units % 10 ^ precision)

-- ============================================================= arguments

/-- An argument, as the callee finds it: integers are promoted, and of the
memory at a string's pointer some bytes are known. -/
inductive Arg
  | word32 (bits : UInt32)
  | word64 (bits : UInt64)
  | double (v : Binary)
  | string (memory : List UInt8)

/-- An integer of the size that the conversion has, as it is signed. -/
def Arg.signed (long : Bool) : Arg → Option Int
  | .word32 bits => if long then none else some bits.toInt32.toInt
  | .word64 bits => if long then some bits.toInt64.toInt else none
  | _ => none

/-- The same, as it is unsigned. -/
def Arg.unsigned (long : Bool) : Arg → Option Nat
  | .word32 bits => if long then none else some bits.toNat
  | .word64 bits => if long then some bits.toNat else none
  | _ => none

/-- The string at a pointer. -/
def cString (memory : List UInt8) : Option (List UInt8) :=
  if 0 ∈ memory then some (memory.takeWhile (· ≠ 0)) else none

/-- The string at a pointer, of which no more than `precision` bytes are
looked at. -/
def boundedString (memory : List UInt8) : Option Nat → Option (List UInt8)
  | none => cString memory
  | some n =>
      if n ≤ memory.length ∨ 0 ∈ memory then
        some ((memory.take n).takeWhile (· ≠ 0))
      else none

-- =========================================================== conversions

/-- What may come next in a conversion. -/
inductive Stage
  | flags | width | precision | size
  deriving DecidableEq

/-- A conversion in front of its letter. -/
structure Spec where
  left : Bool := false
  zero : Bool := false
  width : Nat := 0
  precision : Option Nat := none
  long : Bool := false
  stage : Stage := .flags

/-- The conversion and a further byte of it, if it is none of the letters;
a `*` takes an argument. -/
def Spec.extend (s : Spec) (c : UInt8) (args : List Arg) :
    Option (Spec × List Arg) :=
  if c = 45 ∧ s.stage = .flags then some ({ s with left := true }, args)
  else if c = 48 ∧ s.stage = .flags then some ({ s with zero := true }, args)
  else if 48 ≤ c ∧ c ≤ 57 ∧ (s.stage = .flags ∨ s.stage = .width) then
    some ({ s with width := s.width * 10 + (c.toNat - 48), stage := .width },
      args)
  else if 48 ≤ c ∧ c ≤ 57 ∧ s.stage = .precision then
    some ({ s with
      precision := some (s.precision.getD 0 * 10 + (c.toNat - 48)) }, args)
  else if c = 46 ∧ (s.stage = .flags ∨ s.stage = .width) then
    some ({ s with precision := some 0, stage := .precision }, args)
  else if c = 108 ∨ c = 122 then
    some ({ s with long := true, stage := .size }, args)
  else if c = 42 then
    match args with
    | a :: args => (a.signed false).bind fun v =>
        match s.stage with
        | .flags => some ({ s with
            left := s.left || decide (v < 0)
            width := v.natAbs
            stage := .width }, args)
        | .precision => some ({ s with
            precision := if v < 0 then none else some v.toNat
            stage := .size }, args)
        | _ => none
    | [] => none
  else none

/-- A sign and digits, or a text, in the field. -/
def Spec.pad (s : Spec) (zero : Bool) (sign digits : List UInt8) :
    List UInt8 :=
  let n := s.width - (sign ++ digits).length
  if s.left then sign ++ digits ++ List.replicate n 32
  else if s.zero && zero then sign ++ List.replicate n 48 ++ digits
  else List.replicate n 32 ++ (sign ++ digits)

/-- The sign of a number. -/
def minus (negative : Bool) : List UInt8 := if negative then [45] else []

/-- An integer, in the field: a precision turns the padding with zeros
off. -/
def Spec.integer (s : Spec) (base : Nat) (negative : Bool) (n : Nat) :
    List UInt8 :=
  s.pad s.precision.isNone (minus negative)
    (numeral base (s.precision.getD 1) n)

/-- A floating point number, in the field. -/
def Spec.floating (s : Spec) : Binary → List UInt8
  | .nan negative => s.pad false (minus negative) [110, 97, 110]
  | .infinity negative => s.pad false (minus negative) [105, 110, 102]
  | .finite negative significand exponent =>
      s.pad true (minus negative)
        (decimalPlaces (s.precision.getD 6)
          (scaled (s.precision.getD 6) significand exponent))

/-- The text of an argument under the letter of a conversion. -/
def Spec.text (s : Spec) (c : UInt8) (a : Arg) : Option (List UInt8) :=
  if c = 100 ∨ c = 105 then
    (a.signed s.long).map fun v => s.integer 10 (decide (v < 0)) v.natAbs
  else if c = 117 then (a.unsigned s.long).map fun n => s.integer 10 false n
  else if c = 88 then (a.unsigned s.long).map fun n => s.integer 16 false n
  else if c = 115 then
    match a with
    | .string memory => (boundedString memory s.precision).map (s.pad false [])
    | _ => none
  else if c = 102 then
    match a with
    | .double v => some (s.floating v)
    | _ => none
  else none

/-- The text of a whole conversion, and the arguments that are left. -/
def Spec.convert (s : Spec) (c : UInt8) (args : List Arg) :
    Option (List UInt8 × List Arg) :=
  if c = 37 then
    if s.stage = .flags ∧ s.left = false ∧ s.zero = false then
      some ([37], args)
    else none
  else
    match args with
    | a :: args => (s.text c a).map fun t => (t, args)
    | [] => none

/-- The rest of a format, inside of a conversion or outside. -/
def scan : Option Spec → List UInt8 → List Arg → Option (List UInt8)
  | none, [], _ => some []
  | none, c :: cs, args =>
      if c = 37 then scan (some {}) cs args
      else (scan none cs args).map (c :: ·)
  | some _, [], _ => none
  | some s, c :: cs, args =>
      match s.extend c args with
      | some (s', args') => scan (some s') cs args'
      | none => (s.convert c args).bind fun (t, args') =>
          (scan none cs args').map (t ++ ·)

/-- The text of a format with its arguments. -/
def printf (format : List UInt8) (args : List Arg) : Option (List UInt8) :=
  scan none format args

/-- What `snprintf` says: the text that it writes as far as there is room,
or that it failed. The length is returned in an `int`, so it fails for a
longer text. -/
inductive Outcome
  | printed (text : List UInt8)
  | failed

/-- `INT_MAX`. -/
def intMax : Nat := 2 ^ 31 - 1

/-- `snprintf`. -/
def snprintf (format : List UInt8) (args : List Arg) : Option Outcome :=
  (printf format args).map fun t =>
    if t.length ≤ intMax then .printed t else .failed

/-- The text, as long as it is. -/
def Outcome.text : Outcome → List UInt8
  | .printed t => t
  | .failed => []

/-- The value returned. -/
def Outcome.returned : Outcome → Int
  | .printed t => t.length
  | .failed => -1

/-- The bytes written to a buffer of `n` bytes. -/
def Outcome.written (n : Nat) : Outcome → List UInt8
  | .printed t => if n = 0 then [] else t.take (n - 1) ++ [0]
  | .failed => []

-- ================================================================= digits

/-- A digit is printable. -/
theorem digit_ne_zero {d : Nat} (h : d < 16) : digit d ≠ 0 := by
  intro hzero
  have hnat : (digit d).toNat = 0 := by
    rw [hzero]
    rfl
  unfold digit at hnat
  rw [UInt8.toNat_ofNat'] at hnat
  split at hnat
  · omega
  · omega

/-- A numeral is printable. -/
theorem zero_notMem_numeral (base : Nat) (hbase : 1 < base)
    (hbase' : base ≤ 16) (precision n : Nat) :
    0 ∉ numeral base precision n := by
  intro hmem
  rcases List.mem_append.mp hmem with hmem | hmem
  · have hzero := List.eq_of_mem_replicate hmem
    cases hzero
  · obtain ⟨d, hd, hzero⟩ := List.mem_map.mp hmem
    have hlt := Nat.digits_lt_base hbase (List.mem_reverse.mp hd)
    exact digit_ne_zero (by omega) hzero

/-- A number below a power of the base has no more digits than the power, and
asking for fewer digits than that changes nothing. -/
theorem length_numeral_le (base precision : Nat) {n k : Nat}
    (hbase : 1 < base) (hn : n < base ^ k) (hprecision : precision ≤ k) :
    (numeral base precision n).length ≤ k := by
  have hdigits := (Nat.digits_length_le_iff hbase n).mpr hn
  simp only [numeral, List.length_append, List.length_replicate,
    List.length_map, List.length_reverse]
  omega

/-- Rounding adds one at the most. -/
theorem roundQuotient_le (n d : Nat) : roundQuotient n d ≤ n + 1 := by
  have hdiv := Nat.div_le_self n d
  unfold roundQuotient
  split
  · omega
  · omega

/-- The digits in front of the point. -/
theorem length_decimalPlaces_le {precision units k : Nat}
    (hunits : units < 10 ^ (k + precision)) (hk : 1 ≤ k) :
    (decimalPlaces precision units).length ≤ k + 1 + precision := by
  have hpos : 0 < 10 ^ precision := Nat.pow_pos (by omega)
  have hint : units / 10 ^ precision < 10 ^ k := by
    rw [Nat.div_lt_iff_lt_mul hpos, ← Nat.pow_add]
    exact hunits
  have hfront := length_numeral_le 10 1 (by omega) hint hk
  have hback := length_numeral_le 10 precision (by omega)
    (Nat.mod_lt units hpos) (Nat.le_refl precision)
  unfold decimalPlaces
  split
  · rw [List.length_append, List.length_nil]
    omega
  · rw [List.length_append, List.length_cons]
    omega

/-- Decimal places are digits and a point. -/
theorem zero_notMem_decimalPlaces (precision units : Nat) :
    0 ∉ decimalPlaces precision units := by
  have hnumeral := zero_notMem_numeral 10 (by omega) (by omega)
  intro hmem
  rcases List.mem_append.mp hmem with hmem | hmem
  · exact hnumeral _ _ hmem
  · split at hmem
    · cases hmem
    · rcases List.mem_cons.mp hmem with hzero | hmem
      · cases hzero
      · exact hnumeral _ _ hmem

-- ================================================== the plain conversions

/-- A signed number. -/
def signedDecimal (v : Int) : List UInt8 :=
  minus (decide (v < 0)) ++ numeral 10 1 v.natAbs

/-- What `%f` makes of a number. -/
def fixed : Binary → List UInt8
  | .nan negative => minus negative ++ [110, 97, 110]
  | .infinity negative => minus negative ++ [105, 110, 102]
  | .finite negative significand exponent =>
      minus negative ++ decimalPlaces 6 (scaled 6 significand exponent)

/-- A sign is printable. -/
theorem zero_notMem_minus (negative : Bool) : 0 ∉ minus negative := by
  cases negative with
  | false => simp [minus]
  | true => simp [minus]

/-- A sign is one byte, or none. -/
theorem length_minus_le (negative : Bool) : (minus negative).length ≤ 1 := by
  cases negative with
  | false => simp [minus]
  | true => simp [minus]

/-- A signed number is printable. -/
theorem zero_notMem_signedDecimal (v : Int) : 0 ∉ signedDecimal v := by
  intro hmem
  rcases List.mem_append.mp hmem with hmem | hmem
  · exact zero_notMem_minus _ hmem
  · exact zero_notMem_numeral 10 (by omega) (by omega) _ _ hmem

/-- A floating point number is printable, and so are the names of those that
are no numbers. -/
theorem zero_notMem_fixed (v : Binary) : 0 ∉ fixed v := by
  intro hmem
  cases v with
  | nan negative =>
      rcases List.mem_append.mp hmem with hmem | hmem
      · exact zero_notMem_minus _ hmem
      · simp at hmem
  | infinity negative =>
      rcases List.mem_append.mp hmem with hmem | hmem
      · exact zero_notMem_minus _ hmem
      · simp at hmem
  | finite negative significand exponent =>
      rcases List.mem_append.mp hmem with hmem | hmem
      · exact zero_notMem_minus _ hmem
      · exact zero_notMem_decimalPlaces _ _ hmem

/-- A number below `2 ^ (m + n)`, in decimal: a power of two is less than the
same power of ten, and a power of ten more leaves room for the rounding. -/
theorem scaled_lt {significand m n : Nat} {exponent : Int}
    (hsignificand : significand < 2 ^ m) (hexponent : exponent ≤ n)
    (precision : Nat) :
    scaled precision significand exponent < 10 ^ (m + n + 1 + precision) := by
  have hpos : 0 < 10 ^ precision := Nat.pow_pos (by omega)
  have hten : 2 ^ (m + n) < 10 ^ (m + n + 1) :=
    Nat.lt_of_le_of_lt (Nat.pow_le_pow_left (by omega) _)
      (Nat.pow_lt_pow_right (by omega) (Nat.lt_succ_self _))
  -- both cases of the exponent end in a number of at most m + n bits
  have hmul : ∀ k, k ≤ 2 ^ (m + n) →
      k * 10 ^ precision < 10 ^ (m + n + 1 + precision) := by
    intro k hk
    rw [Nat.pow_add]
    exact Nat.mul_lt_mul_of_pos_right (Nat.lt_of_le_of_lt hk hten) hpos
  cases exponent with
  | ofNat e =>
      have he : e ≤ n := Int.ofNat_le.mp hexponent
      apply hmul
      rw [Nat.pow_add]
      exact Nat.mul_le_mul (Nat.le_of_lt hsignificand)
        (Nat.pow_le_pow_right (by omega) he)
  | negSucc e =>
      -- a negative exponent divides, and the rounding may add one
      have hround := roundQuotient_le (significand * 10 ^ precision)
        (2 ^ (e + 1))
      have hsucc : significand * 10 ^ precision + 1
          ≤ (significand + 1) * 10 ^ precision := by
        rw [Nat.succ_mul]
        omega
      have hle : significand + 1 ≤ 2 ^ (m + n) :=
        Nat.le_trans hsignificand
          (Nat.pow_le_pow_right (by omega) (Nat.le_add_right m n))
      have hlt := hmul _ hle
      show roundQuotient _ _ < _
      omega

/-- The bounds of a finite number. The significand has the bits of the
fraction and a hidden one, and the exponent is no more than its field. -/
theorem Binary.ofBits_finite {fractionBits exponentBits bits : Nat}
    {negative : Bool} {significand : Nat} {exponent : Int}
    (h : ofBits fractionBits exponentBits bits
      = .finite negative significand exponent) :
    significand < 2 ^ (fractionBits + 1)
      ∧ exponent ≤ (2 ^ exponentBits : Nat) := by
  have hfraction := Nat.mod_lt bits (Nat.two_pow_pos fractionBits)
  have hfield := Nat.mod_lt (bits / 2 ^ fractionBits)
    (Nat.two_pow_pos exponentBits)
  have hbias : (0 : Int) < 2 ^ (exponentBits - 1) := Int.pow_pos (by omega)
  have hone := Nat.two_pow_pos exponentBits
  rw [Nat.pow_succ]
  unfold ofBits at h
  simp only at h
  split at h
  · split at h
    · cases h
    · cases h
  · split at h
    · cases h
      exact ⟨by omega, by omega⟩
    · cases h
      -- a normal number: the hidden bit makes the fraction one bit longer
      have hcast := Int.ofNat_lt.mpr hfield
      exact ⟨by omega, by omega⟩

/-- The text of a number of some format is not long. -/
theorem length_fixed_ofBits_le (fractionBits exponentBits bits : Nat) :
    (fixed (.ofBits fractionBits exponentBits bits)).length
      ≤ fractionBits + 2 ^ exponentBits + 10 := by
  have hone := Nat.two_pow_pos exponentBits
  cases hv : Binary.ofBits fractionBits exponentBits bits with
  | nan negative =>
      have hsign := length_minus_le negative
      simp only [fixed, List.length_append, List.length_cons,
        List.length_nil]
      omega
  | infinity negative =>
      have hsign := length_minus_le negative
      simp only [fixed, List.length_append, List.length_cons,
        List.length_nil]
      omega
  | finite negative significand exponent =>
      obtain ⟨hsignificand, hexponent⟩ := Binary.ofBits_finite hv
      have hsign := length_minus_le negative
      have hplaces := length_decimalPlaces_le
        (scaled_lt hsignificand hexponent 6) (by omega)
      rw [fixed, List.length_append]
      omega

/-- A format without conversions is its own text. -/
theorem printf_literal {t : List UInt8} (h : 37 ∉ t) (args : List Arg) :
    printf t args = some t := by
  unfold printf
  induction t with
  | nil => rfl
  | cons c t ih =>
      have hc : ¬ c = 37 := fun hc => h (hc ▸ List.mem_cons_self ..)
      rw [scan, if_neg hc, ih fun hmem => h (List.mem_cons_of_mem _ hmem)]
      rfl

@[simp] theorem pad_of_width_zero {s : Spec} (h : s.width = 0) (zero : Bool)
    (sign digits : List UInt8) : s.pad zero sign digits = sign ++ digits := by
  unfold Spec.pad
  rw [h, Nat.zero_sub]
  simp

/-- The letters of integers are no part of a conversion in front of its
letter. -/
theorem extend_letter (s : Spec) {c : UInt8} (hc : c ∈ [100, 105, 117, 88])
    (args : List Arg) : s.extend c args = none := by
  simp only [List.mem_cons, List.not_mem_nil, or_false] at hc
  rcases hc with hc | hc | hc | hc <;>
    · subst hc
      simp [Spec.extend]

/-- The letter of an integer ends its conversion. -/
theorem scan_letter {s : Spec} {c : UInt8} {a : Arg} {rest : List UInt8}
    (hc : c ∈ [100, 105, 117, 88]) (hrest : 37 ∉ rest) :
    scan (some s) (c :: rest) [a] = (s.text c a).map (· ++ rest) := by
  have hpercent : ¬ c = 37 := by
    intro h
    subst h
    simp at hc
  have hliteral : scan none rest [] = some rest := printf_literal hrest []
  rw [scan, extend_letter s hc]
  simp only [Spec.convert, if_neg hpercent]
  cases s.text c a with
  | none => rfl
  | some t => simp [hliteral]

/-- The letters of sizes in front of an integer are collected, and together
they only say that the integer is a long one. -/
theorem scan_sizes {s : Spec} {c : UInt8} {a : Arg} {sizes : List UInt8}
    (hsizes : ∀ x ∈ sizes, x = 108 ∨ x = 122) (hc : c ∈ [100, 105, 117, 88]) :
    scan (some s) (sizes ++ [c]) [a]
      = ({ s with long := s.long || !sizes.isEmpty } : Spec).text c a := by
  induction sizes generalizing s with
  | nil =>
      rw [List.nil_append, scan_letter hc List.not_mem_nil]
      simp
  | cons x sizes ih =>
      have hx : s.extend x [a]
          = some ({ s with long := true, stage := .size }, [a]) := by
        rcases hsizes x (List.mem_cons_self ..) with hx | hx <;>
          · subst hx
            simp [Spec.extend]
      rw [List.cons_append, scan, hx]
      show scan (some _) (sizes ++ [c]) [a] = _
      rw [ih fun y hy => hsizes y (List.mem_cons_of_mem _ hy)]
      simp only [Bool.true_or, List.isEmpty_cons, Bool.not_false, Bool.or_true]
      rfl

/-- The conversions of an integer, by their size. -/
theorem printf_integer {c : UInt8} (sizes : List UInt8) (a : Arg)
    (hsizes : ∀ x ∈ sizes, x = 108 ∨ x = 122) (hc : c ∈ [100, 105, 117, 88]) :
    printf (37 :: (sizes ++ [c])) [a]
      = ({ long := !sizes.isEmpty } : Spec).text c a := by
  unfold printf
  rw [scan, if_pos rfl, scan_sizes hsizes hc]
  simp

/-- `%X`, of a word. -/
theorem printf_hexadecimal (w : UInt32) :
    printf [37, 88] [.word32 w] = some (numeral 16 1 w.toNat) := by
  have htext : ({ long := false } : Spec).text 88 (.word32 w)
      = some (numeral 16 1 w.toNat) := by
    simp [Spec.text, Arg.unsigned, Spec.integer, minus]
  exact (printf_integer [] (.word32 w) (by simp) (by simp)).trans htext

/-- Text in front of the rest of a format. -/
theorem scan_append {t : List UInt8} (h : 37 ∉ t) (cs : List UInt8)
    (args : List Arg) :
    scan none (t ++ cs) args = (scan none cs args).map (t ++ ·) := by
  induction t with
  | nil => exact (Option.map_id_fun' ▸ rfl)
  | cons c t ih =>
      rw [List.mem_cons, not_or] at h
      rw [List.cons_append, scan, if_neg fun hc => h.1 hc.symm, ih h.2,
        Option.map_map]
      rfl

/-- An integer in a text. -/
theorem printf_integer_between {t rest : List UInt8} (ht : 37 ∉ t)
    (hrest : 37 ∉ rest) {c : UInt8} (hc : c ∈ [100, 105, 117, 88]) (a : Arg) :
    printf (t ++ 37 :: c :: rest) [a]
      = (({} : Spec).text c a).map fun u => t ++ (u ++ rest) := by
  unfold printf
  rw [scan_append ht, scan, if_pos rfl, scan_letter hc hrest,
    Option.map_map]
  rfl

/-- Nothing is left open of it. -/
theorem snprintf_integer_between {t rest : List UInt8} (ht : 37 ∉ t)
    (hrest : 37 ∉ rest) {c : UInt8} (hc : c ∈ [100, 105, 117, 88])
    (w : UInt32) :
    ∃ o, snprintf (t ++ 37 :: c :: rest) [.word32 w] = some o := by
  have htext : ∃ u, ({} : Spec).text c (.word32 w) = some u := by
    simp only [List.mem_cons, List.not_mem_nil, or_false] at hc
    rcases hc with hc | hc | hc | hc <;>
      · subst hc
        exact ⟨_, rfl⟩
  obtain ⟨u, hu⟩ := htext
  unfold snprintf
  rw [printf_integer_between ht hrest hc, hu]
  exact ⟨_, rfl⟩

/-- A string ends at its first NUL. -/
theorem cString_append (s rest : List UInt8) :
    cString (s ++ 0 :: rest) = some (s.takeWhile (· ≠ 0)) := by
  have hmem : (0 : UInt8) ∈ s ++ 0 :: rest :=
    List.mem_append_right s (List.mem_cons_self ..)
  unfold cString
  rw [if_pos hmem]
  induction s with
  | nil => simp
  | cons c s ih =>
      by_cases hc : c = 0
      · simp [hc]
      · simpa [hc] using ih

/-- A string without a NUL is all that is in front of one. -/
theorem takeWhile_eq_self {s : List UInt8} (h : 0 ∉ s) :
    s.takeWhile (· ≠ 0) = s := by
  rw [List.takeWhile_eq_self_iff]
  intro c hc
  have hne : c ≠ 0 := fun hzero => h (hzero ▸ hc)
  simpa using hne

/-- The letter of a string ends its conversion. -/
theorem scan_string {s : Spec} (hwidth : s.width = 0) (memory : List UInt8) :
    scan (some s) [115] [.string memory]
      = boundedString memory s.precision := by
  have hextend : s.extend 115 [.string memory] = none := by
    simp [Spec.extend]
  simp only [scan, hextend, Spec.convert, Spec.text]
  cases boundedString memory s.precision with
  | none => simp
  | some t => simp [pad_of_width_zero hwidth]

/-- `%s`, up to the first NUL. -/
theorem printf_string (memory : List UInt8) :
    printf [37, 115] [.string memory] = cString memory := by
  show scan (some {}) [115] _ = _
  rw [scan_string rfl]
  rfl

/-- `%s`, of a string and the NUL behind it. -/
theorem printf_string_append (s rest : List UInt8) :
    printf [37, 115] [.string (s ++ 0 :: rest)]
      = some (s.takeWhile (· ≠ 0)) := by
  rw [printf_string, cString_append]

/-- `%.*s`; a negative precision is none. -/
theorem printf_bounded (w : UInt32) (v : List UInt8) :
    printf [37, 46, 42, 115] [.word32 w, .string v]
      = boundedString v (if w.toInt32.toInt < 0 then none
          else some w.toInt32.toInt.toNat) := by
  show scan (some {
    precision := if w.toInt32.toInt < 0 then none
      else some w.toInt32.toInt.toNat
    stage := .size }) [115] [.string v] = _
  rw [scan_string rfl]

/-- A word that is no negative number. -/
theorem toInt_of_lt {w : UInt32} (h : w.toNat < 2 ^ 31) :
    w.toInt32.toInt = w.toNat := by
  show w.toBitVec.toInt = w.toBitVec.toNat
  apply BitVec.toInt_eq_toNat_of_lt
  show 2 * w.toNat < 2 ^ 32
  omega

/-- `%.*s`, of all bytes of a string. -/
theorem printf_view {v : List UInt8} (h : v.length ≤ intMax) :
    printf [37, 46, 42, 115] [.word32 (UInt32.ofNat v.length), .string v]
      = some (v.takeWhile (· ≠ 0)) := by
  have hnat : (UInt32.ofNat v.length).toNat = v.length := by
    unfold intMax at h
    rw [UInt32.toNat_ofNat']
    omega
  have hlength : (UInt32.ofNat v.length).toInt32.toInt = v.length := by
    unfold intMax at h
    rw [toInt_of_lt (by omega), hnat]
  rw [printf_bounded, hlength, if_neg (by omega), Int.toNat_natCast,
    boundedString, if_pos (Or.inl (Nat.le_refl _)), List.take_length]

/-- What a shorter piece of the memory gives is the front of what the whole
of it gives. -/
theorem takeWhile_take_prefix (p : UInt8 → Bool) (v : List UInt8) (n : Nat) :
    (v.take n).takeWhile p <+: v.takeWhile p := by
  obtain ⟨rest, hrest⟩ := List.take_prefix n v
  have happend : List.takeWhile p (v.take n ++ rest) = _ :=
    List.takeWhile_append
  rw [hrest] at happend
  rw [happend]
  split
  · exact (List.takeWhile_prefix p).trans (List.prefix_append _ _)
  · exact List.prefix_refl _

/-- What `%.*s` prints of a string at all. -/
theorem printf_view_eq_some {w : UInt32} {v u : List UInt8}
    (h : printf [37, 46, 42, 115] [.word32 w, .string v] = some u) :
    ∃ n, u = (v.take n).takeWhile (· ≠ 0) := by
  rw [printf_bounded] at h
  split at h
  · refine ⟨v.length, ?_⟩
    obtain ⟨hmem, heq⟩ := Option.ite_none_right_eq_some.mp h
    rw [List.take_length]
    exact (Option.some.inj heq).symm
  · obtain ⟨hmem, heq⟩ := Option.ite_none_right_eq_some.mp h
    exact ⟨_, (Option.some.inj heq).symm⟩

/-- `%f`. -/
theorem printf_floating (v : Binary) :
    printf [37, 102] [.double v] = some (fixed v) := by
  cases v with
  | nan negative =>
      simp [printf, scan, Spec.extend, Spec.convert, Spec.text,
        Spec.floating, fixed]
  | infinity negative =>
      simp [printf, scan, Spec.extend, Spec.convert, Spec.text,
        Spec.floating, fixed]
  | finite negative significand exponent =>
      simp [printf, scan, Spec.extend, Spec.convert, Spec.text,
        Spec.floating, fixed]

-- ============================================================== any format

/-- A field is filled with blanks or zeros. -/
theorem zero_notMem_pad (s : Spec) (zero : Bool) {sign digits : List UInt8}
    (hsign : 0 ∉ sign) (hdigits : 0 ∉ digits) :
    0 ∉ s.pad zero sign digits := by
  have hboth : 0 ∉ sign ++ digits := by
    rw [List.mem_append, not_or]
    exact ⟨hsign, hdigits⟩
  have hblanks : ∀ n c, c ≠ (0 : UInt8) → 0 ∉ List.replicate n c :=
    fun n c hc hmem => hc (List.eq_of_mem_replicate hmem).symm
  unfold Spec.pad
  simp only
  split
  · rw [List.mem_append, not_or]
    exact ⟨hboth, hblanks _ 32 (by decide)⟩
  · split
    · rw [List.mem_append, List.mem_append, not_or, not_or]
      exact ⟨⟨hsign, hblanks _ 48 (by decide)⟩, hdigits⟩
    · rw [List.mem_append, not_or]
      exact ⟨hblanks _ 32 (by decide), hboth⟩

/-- The text of an integer has no NUL. -/
theorem zero_notMem_integer (s : Spec) {base : Nat} (hbase : 1 < base)
    (hbase' : base ≤ 16) (negative : Bool) (n : Nat) :
    0 ∉ s.integer base negative n :=
  zero_notMem_pad s _ (zero_notMem_minus negative)
    (zero_notMem_numeral base hbase hbase' _ n)

/-- The text of a floating point number has no NUL. -/
theorem zero_notMem_floating (s : Spec) (v : Binary) : 0 ∉ s.floating v := by
  cases v with
  | nan negative =>
      exact zero_notMem_pad s _ (zero_notMem_minus negative) (by simp)
  | infinity negative =>
      exact zero_notMem_pad s _ (zero_notMem_minus negative) (by simp)
  | finite negative significand exponent =>
      exact zero_notMem_pad s _ (zero_notMem_minus negative)
        (zero_notMem_decimalPlaces _ _)

/-- A string ends in front of its NUL. -/
theorem zero_notMem_takeWhile (v : List UInt8) :
    0 ∉ v.takeWhile (· ≠ 0) := by
  intro hmem
  have hne := List.mem_takeWhile_imp hmem
  simp at hne

/-- So does one with a precision. -/
theorem zero_notMem_boundedString {memory t : List UInt8}
    {precision : Option Nat} (h : boundedString memory precision = some t) :
    0 ∉ t := by
  cases precision with
  | none =>
      obtain ⟨_, heq⟩ := Option.ite_none_right_eq_some.mp h
      cases heq
      exact zero_notMem_takeWhile _
  | some n =>
      obtain ⟨_, heq⟩ := Option.ite_none_right_eq_some.mp h
      cases heq
      exact zero_notMem_takeWhile _

/-- No conversion gives a NUL: there is none for single characters, a string
ends in front of its NUL, and digits, signs and names are printable. -/
theorem zero_notMem_text {s : Spec} {c : UInt8} {a : Arg} {t : List UInt8}
    (h : s.text c a = some t) : 0 ∉ t := by
  unfold Spec.text at h
  split at h
  · obtain ⟨v, _, heq⟩ := Option.map_eq_some_iff.mp h
    subst heq
    exact zero_notMem_integer s (by omega) (by omega) _ _
  · split at h
    · obtain ⟨n, _, heq⟩ := Option.map_eq_some_iff.mp h
      subst heq
      exact zero_notMem_integer s (by omega) (by omega) _ _
    · split at h
      · obtain ⟨n, _, heq⟩ := Option.map_eq_some_iff.mp h
        subst heq
        exact zero_notMem_integer s (by omega) (by omega) _ _
      · split at h
        · cases a with
          | string memory =>
              obtain ⟨v, hv, heq⟩ := Option.map_eq_some_iff.mp h
              subst heq
              exact zero_notMem_pad s _ List.not_mem_nil
                (zero_notMem_boundedString hv)
          | _ => cases h
        · split at h
          · cases a with
            | double v =>
                cases h
                exact zero_notMem_floating s v
            | _ => cases h
          · cases h

/-- A whole conversion gives no NUL either: `%%` is a percent sign. -/
theorem zero_notMem_convert {s : Spec} {c : UInt8} {args args' : List Arg}
    {t : List UInt8} (h : s.convert c args = some (t, args')) : 0 ∉ t := by
  unfold Spec.convert at h
  split at h
  · obtain ⟨_, heq⟩ := Option.ite_none_right_eq_some.mp h
    cases heq
    simp
  · cases args with
    | nil => cases h
    | cons a args =>
        obtain ⟨u, hu, heq⟩ := Option.map_eq_some_iff.mp h
        cases heq
        exact zero_notMem_text hu

/-- The rest of a scan, wherever it is: the induction is on the format, and
the conversion that a scan may be in has printed nothing yet. -/
theorem zero_notMem_scan {st : Option Spec} {format u : List UInt8}
    {args : List Arg} (hformat : 0 ∉ format)
    (h : scan st format args = some u) : 0 ∉ u := by
  induction format generalizing st args u with
  | nil =>
      cases st with
      | none =>
          cases h
          exact List.not_mem_nil
      | some s => cases h
  | cons c cs ih =>
      rw [List.mem_cons, not_or] at hformat
      obtain ⟨hc, hcs⟩ := hformat
      cases st with
      | none =>
          rw [scan] at h
          split at h
          · exact ih hcs h
          · obtain ⟨v, hv, heq⟩ := Option.map_eq_some_iff.mp h
            subst heq
            rw [List.mem_cons, not_or]
            exact ⟨hc, ih hcs hv⟩
      | some s =>
          rw [scan] at h
          split at h
          · exact ih hcs h
          · obtain ⟨⟨t, args'⟩, ht, hrest⟩ := Option.bind_eq_some_iff.mp h
            obtain ⟨v, hv, heq⟩ := Option.map_eq_some_iff.mp hrest
            subst heq
            rw [List.mem_append, not_or]
            exact ⟨zero_notMem_convert ht, ih hcs hv⟩

/-- The text of a C string's format is a C string. -/
theorem zero_notMem_printf {format u : List UInt8} {args : List Arg}
    (hformat : 0 ∉ format) (h : printf format args = some u) : 0 ∉ u :=
  zero_notMem_scan hformat h

/-- Only a `*` takes an argument. -/
theorem extend_args {s s' : Spec} {c : UInt8} {args : List Arg}
    (h : s.extend c [] = some (s', args)) : args = [] := by
  simp only [Spec.extend] at h
  grind

/-- Without arguments a conversion can only be `%%`, which loses a byte. So
the text is no longer than the format, and outside of a conversion it is as
long only if there was no percent sign to begin one. -/
theorem length_scan_le {st : Option Spec} {format u : List UInt8}
    (h : scan st format [] = some u) :
    u.length ≤ format.length
      ∧ (st = none → u.length = format.length → 37 ∉ format) := by
  induction format generalizing st u with
  | nil =>
      cases st with
      | none =>
          cases h
          exact ⟨Nat.le_refl _, fun _ _ => List.not_mem_nil⟩
      | some s => cases h
  | cons c cs ih =>
      rw [List.length_cons]
      cases st with
      | none =>
          rw [scan] at h
          split at h
          · obtain ⟨hle, _⟩ := ih h
            -- the percent sign is gone, so the lengths cannot be equal
            refine ⟨by omega, fun _ hlength => ?_⟩
            omega
          · next hc =>
              obtain ⟨v, hv, heq⟩ := Option.map_eq_some_iff.mp h
              subst heq
              obtain ⟨hle, hall⟩ := ih hv
              rw [List.length_cons]
              refine ⟨by omega, fun _ hlength => ?_⟩
              rw [List.mem_cons, not_or]
              exact ⟨fun heq => hc heq.symm, hall rfl (by omega)⟩
      | some s =>
          refine ⟨?_, fun hnone => by cases hnone⟩
          rw [scan] at h
          split at h
          · next s' args' hextend =>
              -- still in the conversion; no argument was there for a `*`
              have hargs := extend_args hextend
              subst hargs
              obtain ⟨hle, _⟩ := ih h
              omega
          · obtain ⟨⟨t, args'⟩, ht, hrest⟩ := Option.bind_eq_some_iff.mp h
            obtain ⟨v, hv, heq⟩ := Option.map_eq_some_iff.mp hrest
            subst heq
            -- a letter would take an argument, so this is the second percent
            -- sign
            have hpercent : t = [37] ∧ args' = [] := by
              unfold Spec.convert at ht
              split at ht
              · obtain ⟨_, heq⟩ := Option.ite_none_right_eq_some.mp ht
                cases heq
                exact ⟨rfl, rfl⟩
              · cases ht
            obtain ⟨ht, hargs⟩ := hpercent
            subst ht hargs
            obtain ⟨hle, _⟩ := ih hv
            rw [List.length_append, List.length_singleton]
            omega

/-- A text is its own format exactly if it has no conversions. -/
theorem printf_self_iff {format u : List UInt8}
    (h : printf format [] = some u) :
    u.length ≤ format.length ∧ (u = format ↔ 37 ∉ format) := by
  obtain ⟨hle, hall⟩ := length_scan_le h
  refine ⟨hle, ?_, ?_⟩
  · intro heq
    exact hall rfl (congrArg List.length heq)
  · intro hnone
    rw [printf_literal hnone] at h
    exact (Option.some.inj h).symm

end Printf
