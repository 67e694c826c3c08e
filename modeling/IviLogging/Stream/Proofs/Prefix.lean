/-
The default prefix of a record.

`DEFAULT_PREFIX` has two words padded with zeros, the first four characters
of the context's id, and the name of the severity. Each of these conversions
has a text for any argument it gets, so that the prefix can always be
printed, and none of them is long: a word has at most eleven characters, its
sign included, the id is cut at four, and no severity has more than seven
(`printf_defaultPrefix`).

# What it is for

The results about lines ask for a prefix that can be printed and that is
shorter than the largest `int`, because the format of a prefix may be set to
any other one. For a record with the default these hypotheses always hold,
and are taken from here (`exists_defaultPrefix`). The front of the text, the
two words and what stands between them, is what the time is read back from.
-/
import IviLogging.Stream.StreamLogData

namespace IviLogging.Stream

open Printf (Arg Spec minus numeral printf scan intMax)

-- =========================================================== the conversions

/-- A word under `%05d` or `%03d`. -/
def zeroPadded (width : Nat) (v : Int) : List UInt8 :=
  ({ zero := true, width := width } : Spec).integer 10 (decide (v < 0))
    v.natAbs

/-- An id under `%4.4s`. -/
def shortId (id : List UInt8) : List UInt8 :=
  ({ width := 4, precision := some 4 } : Spec).pad false []
    (((id ++ [0]).take 4).takeWhile (· ≠ 0))

/-- A conversion of a word: `%05d` or `%03d`. -/
theorem scan_zeroPadded {d : UInt8} (hd : d = 51 ∨ d = 53) (w : UInt32)
    (cs : List UInt8) (args : List Arg) :
    scan none (37 :: 48 :: d :: 100 :: cs) (.word32 w :: args)
      = (scan none cs args).map
        (zeroPadded (d.toNat - 48) w.toInt32.toInt ++ ·) := by
  rcases hd with rfl | rfl
  · simp [scan, Spec.extend, Spec.convert, Spec.text, Arg.signed]
    rfl
  · simp [scan, Spec.extend, Spec.convert, Spec.text, Arg.signed]
    rfl

/-- `%4.4s` looks at four characters of the id at most, so the NUL behind it is
met or not needed. -/
theorem scan_shortId (id cs : List UInt8) (args : List Arg) :
    scan none (37 :: 52 :: 46 :: 52 :: 115 :: cs)
        (.string (id ++ [0]) :: args)
      = (scan none cs args).map (shortId id ++ ·) := by
  simp [scan, Spec.extend, Spec.convert, Spec.text, Printf.boundedString,
    shortId, Spec.pad]

/-- `%s` prints up to the NUL. -/
theorem scan_cString (s cs : List UInt8) (args : List Arg) :
    scan none (37 :: 115 :: cs) (.string (s ++ [0]) :: args)
      = (scan none cs args).map (cText s ++ ·) := by
  have hstring : Printf.cString (s ++ [0]) = some (cText s) :=
    Printf.cString_append s []
  simp [scan, Spec.extend, Spec.convert, Spec.text, Printf.boundedString,
    hstring]

/-- Any other byte is copied. -/
theorem scan_cons {c : UInt8} (hc : c ≠ 37) (cs : List UInt8)
    (args : List Arg) :
    scan none (c :: cs) args = (scan none cs args).map (c :: ·) := by
  rw [scan, if_neg hc]

-- =============================================================== the lengths

/-- The padding is no wider than the field, and the digits are at most ten. -/
theorem length_zeroPadded_le (width : Nat) (hwidth : width ≤ 11) {v : Int}
    (hv : v.natAbs < 10 ^ 10) : (zeroPadded width v).length ≤ 11 := by
  -- a sign, the padding up to the width, and the digits, of which only the
  -- longer of the last two counts
  have hsign := Printf.length_minus_le (decide (v < 0))
  have hdigits := Printf.length_numeral_le 10 1 (by omega) hv (by omega)
  unfold zeroPadded Spec.integer Spec.pad
  simp only [Bool.false_eq_true, if_false, Option.isNone_none, Bool.and_self,
    if_true, Option.getD_none, List.length_append, List.length_replicate]
  omega

/-- Cut at four characters, and padded to four. -/
theorem length_shortId (id : List UInt8) : (shortId id).length = 4 := by
  have hle : (((id ++ [0]).take 4).takeWhile (· ≠ 0)).length ≤ 4 :=
    (List.takeWhile_sublist _).length_le.trans (List.length_take_le ..)
  unfold shortId Spec.pad
  simp only [Bool.false_eq_true, if_false, Bool.and_false, List.nil_append,
    List.length_append, List.length_replicate]
  omega

/-- The shorter names have blanks around them, so that all take seven
characters. -/
theorem length_string_le (level : LogLevel) :
    (cText level.string).length ≤ 7 := by
  cases level <;> decide

/-- A word as it is printed has at most ten digits. -/
theorem natAbs_lt (w : UInt32) : w.toInt32.toInt.natAbs < 10 ^ 10 := by
  have hlow : -2 ^ 31 ≤ w.toInt32.toInt := Int32.le_toInt _
  have hhigh : w.toInt32.toInt < 2 ^ 31 := Int32.toInt_lt _
  omega

-- ================================================================ the prefix

/-- The text of the default prefix: the time, the id of the context and the
severity. -/
theorem printf_defaultPrefix (r : StreamLogData) (env : Environment) :
    printf defaultPrefix (r.prefixArgs env)
      = some (zeroPadded 5 env.seconds.toInt32.toInt
        ++ 46 :: (zeroPadded 3 env.milliseconds.toInt32.toInt
        ++ 32 :: 124 :: 32 :: (shortId r.context.context.id.chars
        ++ 32 :: 91 :: (cText r.data.level.string ++ [93, 32])))) := by
  have hformat : defaultPrefix = 37 :: 48 :: 53 :: 100 :: 46
      :: 37 :: 48 :: 51 :: 100 :: 32 :: 124 :: 32
      :: 37 :: 52 :: 46 :: 52 :: 115 :: 32 :: 91
      :: 37 :: 115 :: 93 :: 32 :: [] := by
    decide
  unfold printf StreamLogData.prefixArgs
  -- one conversion after the other, and the characters between them
  rw [hformat, scan_zeroPadded (.inr rfl), scan_cons (c := 46) (by decide),
    scan_zeroPadded (.inl rfl), scan_cons (c := 32) (by decide),
    scan_cons (c := 124) (by decide), scan_cons (c := 32) (by decide),
    scan_shortId, scan_cons (c := 32) (by decide),
    scan_cons (c := 91) (by decide), scan_cString,
    scan_cons (c := 93) (by decide), scan_cons (c := 32) (by decide), scan]
  rfl

/-- A record with the default prefix has one that can be printed, and that
is far from the largest `int`. -/
theorem exists_defaultPrefix {r : StreamLogData} (env : Environment)
    (h : r.prefixFormat = defaultPrefix) :
    ∃ p, printf r.prefixFormat (r.prefixArgs env) = some p
      ∧ p.length < intMax := by
  refine ⟨_, h ▸ printf_defaultPrefix r env, ?_⟩
  have hseconds := length_zeroPadded_le 5 (by omega)
    (natAbs_lt env.seconds)
  have hmilliseconds := length_zeroPadded_le 3 (by omega)
    (natAbs_lt env.milliseconds)
  have hid := length_shortId r.context.context.id.chars
  have hlevel := length_string_le r.data.level
  have hmax : intMax = 2 ^ 31 - 1 := rfl
  simp only [List.length_append, List.length_cons, List.length_nil]
  omega

end IviLogging.Stream
