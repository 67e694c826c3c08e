/-
The stamp of a record tells the time.

A line begins with the time since the start, in seconds and milliseconds
(`getCurrentTime`). The two are computed in unsigned words and printed as
signed ones, so for a time that is long, or in front of the start, it is not
clear what comes out.

# The words

As they are printed, the seconds are the elapsed ones around the range of an
`int`, and the milliseconds are those of the time that is left, with its
sign (`getCurrentTime_eq`). What the conversion takes away of the seconds is
left in the rest, as a multiple of 2 ^ 32 seconds; it is a multiple of 2 ^ 32
milliseconds as well, so it goes away in the second conversion
(`bmod_tdiv`). All quotients are those of C, towards zero.

# The stamp

`readStamp` reads two numerals back, with a point between them. Words that
are not negative are printed as numerals, padded with zeros, and are read
back (`readStamp_numeral`); a sign is no digit, so a stamp with one in it is
none (`readStamp_of_neg`).

So the front of a line is a stamp, and the right one, exactly as long as the
clock has not been set back by a millisecond behind the start, and for less
than 2 ^ 31 seconds (`stamp_tells_time_iff`).
-/
import IviLogging.Stream.Proofs.Content
import IviLogging.Stream.Proofs.Prefix
import IviLogging.Stream.Time

namespace IviLogging.Stream

open Printf (Spec minus numeral printf)

-- ================================================================= the words

/-- The conversion to `unsigned int`, and what `%d` makes of it. -/
theorem toInt_toUnsignedInt (n : Int) :
    (toUnsignedInt n).toInt32.toInt = n.bmod (2 ^ 32) := by
  show (BitVec.ofInt 32 n).toInt = _
  rw [BitVec.toInt_ofInt]

theorem toNat_toUnsignedInt (n : Int) :
    ((toUnsignedInt n).toNat : Int) = n % 2 ^ 32 := by
  show ((BitVec.ofInt 32 n).toNat : Int) = _
  rw [BitVec.toNat_ofInt]
  omega

/-- The quotient of a time is the one of its amount, with the sign. -/
theorem tdiv_of_nonpos {n : Int} (h : n ≤ 0) (k : Int) :
    n.tdiv k = -(-n / k) := by
  rw [← Int.tdiv_eq_ediv_of_nonneg (by omega), Int.neg_tdiv, Int.neg_neg]

/-- A multiple that is added on the side of a number's sign is a multiple in
the quotient. -/
theorem tdiv_add_mul {r k : Int} (h : 0 ≤ r ∧ 0 ≤ k ∨ r ≤ 0 ∧ k ≤ 0) :
    (r + 1000000 * k).tdiv 1000000 = r.tdiv 1000000 + k := by
  rcases h with ⟨hr, hk⟩ | ⟨hr, hk⟩
  · rw [Int.tdiv_eq_ediv_of_nonneg (by omega), Int.tdiv_eq_ediv_of_nonneg hr]
    omega
  · rw [tdiv_of_nonpos (by omega), tdiv_of_nonpos hr]
    omega

/-- Seconds and the rest of them have one sign. -/
theorem seconds_and_rest (e : Int) :
    e = 1000000000 * e.tdiv 1000000000 + e.tmod 1000000000
      ∧ (0 ≤ e.tdiv 1000000000 ∧ 0 ≤ e.tmod 1000000000
        ∨ e.tdiv 1000000000 ≤ 0 ∧ e.tmod 1000000000 ≤ 0)
      ∧ -1000000000 < e.tmod 1000000000
      ∧ e.tmod 1000000000 < 1000000000 := by
  refine ⟨(Int.mul_tdiv_add_tmod e 1000000000).symm, ?_⟩
  rcases Int.le_total 0 e with he | he
  · rw [Int.tdiv_eq_ediv_of_nonneg he, Int.tmod_eq_emod_of_nonneg he]
    omega
  · have htmod : e.tmod 1000000000 = -(-e % 1000000000) := by
      rw [← Int.tmod_eq_emod_of_nonneg (by omega), Int.neg_tmod, Int.neg_neg]
    rw [tdiv_of_nonpos he, htmod]
    omega

/-- A number of milliseconds below a second, and seconds around the range of
a word. -/
theorem bmod_tdiv {r k : Int} (h : 0 ≤ r ∧ 0 ≤ k ∨ r ≤ 0 ∧ k ≤ 0)
    (hlow : -1000000000 < r) (hhigh : r < 1000000000) :
    ((r + 1000000 * (4294967296 * k)).tdiv 1000000).bmod (2 ^ 32)
      = r.tdiv 1000000 := by
  rw [tdiv_add_mul (by omega)]
  have hmultiple : (r.tdiv 1000000 + 4294967296 * k).bmod (2 ^ 32)
      = (r.tdiv 1000000).bmod (2 ^ 32) :=
    Int.add_mul_bmod_self_left ..
  rw [hmultiple]
  have hsmall : -1000 < r.tdiv 1000000 ∧ r.tdiv 1000000 < 1000 := by
    rcases Int.le_total 0 r with hr | hr
    · rw [Int.tdiv_eq_ediv_of_nonneg hr]
      omega
    · rw [tdiv_of_nonpos hr]
      omega
  exact Int.bmod_eq_of_le (by omega) (by omega)

/-- The words of a time, as they are printed. -/
theorem getCurrentTime_eq {e : Int64} {seconds milliseconds : UInt32}
    (h : getCurrentTime e = some (seconds, milliseconds)) :
    seconds.toInt32.toInt = (e.toInt.tdiv 1000000000).bmod (2 ^ 32)
      ∧ milliseconds.toInt32.toInt
        = (e.toInt.tmod 1000000000).tdiv 1000000 := by
  unfold getCurrentTime at h
  obtain ⟨-, heq⟩ := Option.ite_none_right_eq_some.mp h
  obtain ⟨rfl, rfl⟩ := Prod.mk.inj (Option.some.inj heq)
  refine ⟨toInt_toUnsignedInt _, ?_⟩
  obtain ⟨hsum, hsign, hlow, hhigh⟩ := seconds_and_rest e.toInt
  rw [toInt_toUnsignedInt, toNat_toUnsignedInt, nanoseconds,
    nanosecondsOfMillisecond]
  -- what the conversion took away of the seconds is left in the rest
  have hrest : e.toInt - e.toInt.tdiv 1000000000 % 2 ^ 32 * 1000000000
      = e.toInt.tmod 1000000000 + 1000000 * (4294967296
        * (1000 * (e.toInt.tdiv 1000000000 / 2 ^ 32))) := by
    omega
  rw [hrest]
  refine bmod_tdiv ?_ hlow hhigh
  omega

-- ================================================================== the text

/-- A number that is not negative is padded to a numeral. -/
theorem zeroPadded_natCast {width : Nat} (hwidth : 0 < width) (n : Nat) :
    zeroPadded width n = numeral 10 width n := by
  have hnot : ¬ (n : Int) < 0 := by omega
  unfold zeroPadded Spec.integer Spec.pad numeral
  simp only [hnot, decide_false, minus, Int.natAbs_natCast]
  simp only [Bool.false_eq_true, if_false, Option.isNone_none, Bool.and_self,
    if_true, List.nil_append, Option.getD_none, List.length_append,
    List.length_replicate, List.length_map, List.length_reverse]
  rw [← List.append_assoc, List.replicate_append_replicate]
  congr 2
  omega

/-- A negative one has its sign in front. -/
theorem zeroPadded_of_neg (width : Nat) {v : Int} (hv : v < 0) :
    ∃ digits, zeroPadded width v = 45 :: digits := by
  unfold zeroPadded Spec.integer Spec.pad
  simp only [hv, decide_true, minus]
  exact ⟨_, rfl⟩

/-- A numeral has digits only, the padding included. -/
theorem isDigit_numeral (width n : Nat) :
    ∀ c ∈ numeral 10 width n, isDigit c = true := by
  have hdigit : ∀ d : Fin 10, isDigit (Printf.digit d) = true := by
    decide
  intro c hc
  rcases List.mem_append.mp hc with hzero | hdigits
  · rw [List.eq_of_mem_replicate hzero]
    decide
  · obtain ⟨d, hd, rfl⟩ := List.mem_map.mp hdigits
    exact hdigit ⟨d, Nat.digits_lt_base (by decide) (List.mem_reverse.mp hd)⟩

/-- It is at least as long as it is padded to, -/
theorem le_length_numeral (width n : Nat) :
    width ≤ (numeral 10 width n).length := by
  simp [numeral]
  omega

/-- and no longer if the number has no more digits. -/
theorem length_numeral {width n : Nat} (h : n < 10 ^ width) :
    (numeral 10 width n).length = width := by
  have hle : (Nat.digits 10 n).length ≤ width :=
    (Nat.digits_length_le_iff (by decide) n).mpr h
  simp [numeral]
  omega

/-- A stamp is read back: the point ends the digits of the seconds and the
blank those of the milliseconds, of which there are three. -/
theorem readStamp_numeral (s : Nat) {m : Nat} (hm : m < 1000)
    (rest : List UInt8) :
    readStamp (numeral 10 5 s ++ 46 :: (numeral 10 3 m ++ 32 :: rest))
      = some (s * 1000 + m) := by
  -- a numeral ends where something comes that is no digit
  have htake : ∀ (w n : Nat) (c : UInt8) (cs : List UInt8),
      isDigit c = false →
      (numeral 10 w n ++ c :: cs).takeWhile isDigit = numeral 10 w n := by
    intro w n c cs hc
    rw [List.takeWhile_append_of_pos (isDigit_numeral w n),
      List.takeWhile_cons_of_neg (by simp [hc]), List.append_nil]
  have hdrop : ∀ (w n : Nat) (c : UInt8) (cs : List UInt8),
      isDigit c = false →
      (numeral 10 w n ++ c :: cs).dropWhile isDigit = c :: cs := by
    intro w n c cs hc
    rw [List.dropWhile_append_of_pos (isDigit_numeral w n),
      List.dropWhile_cons_of_neg (by simp [hc])]
  have hsome : numeral 10 5 s ≠ [] := by
    intro hnil
    have hlength := le_length_numeral 5 s
    rw [hnil] at hlength
    exact absurd hlength (by decide)
  unfold readStamp
  rw [htake _ _ _ _ (by decide), hdrop _ _ _ _ (by decide)]
  have hlength : (numeral 10 3 m).length = 3 := length_numeral hm
  simp only [htake 3 m 32 rest (by decide)]
  rw [if_pos ⟨hsome, hlength⟩, Digits.spelled_numeral (by decide) (by decide),
    Digits.spelled_numeral (by decide) (by decide)]

/-- Words with a sign are no stamp: the sign of the seconds comes first, and the
one of the milliseconds behind the point. -/
theorem readStamp_of_neg {s m : Int} (h : s < 0 ∨ 0 ≤ s ∧ m < 0)
    (rest : List UInt8) :
    readStamp (zeroPadded 5 s ++ 46 :: (zeroPadded 3 m ++ 32 :: rest))
      = none := by
  rcases h with hs | ⟨hs, hm⟩
  · obtain ⟨digits, hdigits⟩ := zeroPadded_of_neg 5 hs
    rw [hdigits]
    rfl
  · -- the seconds are read, and then there is a sign
    obtain ⟨n, rfl⟩ := Int.eq_ofNat_of_zero_le hs
    obtain ⟨digits, hdigits⟩ := zeroPadded_of_neg 3 hm
    rw [zeroPadded_natCast (by decide), hdigits]
    unfold readStamp
    rw [List.dropWhile_append_of_pos (isDigit_numeral 5 n),
      List.dropWhile_cons_of_neg (by decide)]
    simp only [List.cons_append]
    rw [List.takeWhile_cons_of_neg (by decide)]
    exact if_neg fun hcon => absurd hcon.2 (by decide)

-- ================================================================== the time

/-- The stamp that a line begins with is the time since the start, in whole
milliseconds towards it, exactly as long as the clock has not been set a
millisecond or more in front of the start, and less than 2 ^ 31 seconds have
passed. -/
theorem stamp_tells_time_iff {r : StreamLogData} {env : Environment}
    {e : Int64} {p : List UInt8} (hformat : r.prefixFormat = defaultPrefix)
    (htime : getCurrentTime e = some (env.seconds, env.milliseconds))
    (hp : printf r.prefixFormat (r.prefixArgs env) = some p) :
    (readStamp p).map Int.ofNat = some (e.toInt.tdiv nanosecondsOfMillisecond)
      ↔ -nanosecondsOfMillisecond < e.toInt
        ∧ e.toInt < 2 ^ 31 * nanoseconds := by
  rw [hformat, printf_defaultPrefix] at hp
  obtain rfl := Option.some.inj hp
  obtain ⟨hseconds, hmilliseconds⟩ := getCurrentTime_eq htime
  obtain ⟨hsum, hsign, hlow, hhigh⟩ := seconds_and_rest e.toInt
  have htotal : e.toInt.tdiv 1000000
      = (e.toInt.tmod 1000000000).tdiv 1000000
        + 1000 * e.toInt.tdiv 1000000000 := by
    rw [← tdiv_add_mul (by omega)]
    congr 1
    omega
  -- the milliseconds that are left, and the seconds up to their range
  have hrest : 0 ≤ e.toInt.tmod 1000000000
        ∧ (e.toInt.tmod 1000000000).tdiv 1000000
          = e.toInt.tmod 1000000000 / 1000000
      ∨ e.toInt.tmod 1000000000 ≤ 0
        ∧ (e.toInt.tmod 1000000000).tdiv 1000000
          = -(-e.toInt.tmod 1000000000 / 1000000) := by
    rcases Int.le_total 0 (e.toInt.tmod 1000000000) with hr | hr
    · exact .inl ⟨hr, Int.tdiv_eq_ediv_of_nonneg hr⟩
    · exact .inr ⟨hr, tdiv_of_nonpos hr _⟩
  have hrange : env.seconds.toInt32.toInt % 2 ^ 32
        = e.toInt.tdiv 1000000000 % 2 ^ 32
      ∧ -2 ^ 31 ≤ env.seconds.toInt32.toInt
      ∧ env.seconds.toInt32.toInt < 2 ^ 31 := by
    rw [hseconds]
    refine ⟨?_, Int.le_bmod (by decide), Int.bmod_lt (by decide)⟩
    exact Int.bmod_emod ..
  rw [← hmilliseconds] at hrest htotal
  rw [nanosecondsOfMillisecond, nanoseconds, htotal]
  -- a word with a sign: the time is in front of the start, or the seconds
  -- have wrapped
  by_cases hneg : env.seconds.toInt32.toInt < 0
      ∨ 0 ≤ env.seconds.toInt32.toInt ∧ env.milliseconds.toInt32.toInt < 0
  · rw [readStamp_of_neg hneg]
    refine ⟨fun h => absurd h (by simp), fun h => ?_⟩
    omega
  · obtain ⟨s, hs⟩ := Int.eq_ofNat_of_zero_le
      (show 0 ≤ env.seconds.toInt32.toInt by omega)
    obtain ⟨m, hm⟩ := Int.eq_ofNat_of_zero_le
      (show 0 ≤ env.milliseconds.toInt32.toInt by omega)
    rw [hs] at hrange
    rw [hm] at hrest
    rw [hs, hm]
    rw [zeroPadded_natCast (by decide), zeroPadded_natCast (by decide),
      readStamp_numeral s (by omega)]
    show some (((s * 1000 + m : Nat) : Int)) = _ ↔ _
    rw [Option.some_inj]
    -- both sides are numbers of milliseconds now
    push_cast
    omega

/-- The stamp of the fixed inputs, just in front of the next millisecond. -/
theorem stamp_tells_time_iff_sample :
    (readStamp samplePrefix).map Int.ofNat
        = some ((1002999999 : Int64).toInt.tdiv nanosecondsOfMillisecond)
      ↔ -nanosecondsOfMillisecond < (1002999999 : Int64).toInt
        ∧ (1002999999 : Int64).toInt < 2 ^ 31 * nanoseconds :=
  stamp_tells_time_iff (r := StreamLogData.fresh ByteArray.sampleMemory
      (sampleContextOf .console false) sampleInfo)
    rfl (by decide : getCurrentTime 1002999999
      = some (sampleEnvironment.seconds, sampleEnvironment.milliseconds))
    (by decide)

end IviLogging.Stream
