/-
The pieces of a record.

A record is an array of bytes, and all that is done to it is `writeFormatted`:
a format and its arguments are measured, the array grows by the text and a
NUL, the text is printed there, and the array is made shorter by the NUL.
This module says what one such piece does, and which text each overload of
`write` puts there.

# One piece

`Holds` says that an array has a text and room for a byte behind it. A text
that can be printed is put behind it, wherever the bytes lie, on the stack
or in the vector; its NUL stays in the memory and no longer counts. Or there
is no room left in a vector, and the piece is not defined
(`ByteArray.Holds.appendOutcome`).

There are two ways to go wrong, and the model has both. A text of exactly
`INT_MAX` bytes makes the sum overflow that counts the NUL
(`appendOutcome_long`); and where `snprintf` fails, with more than that, the
array loses its last byte (`Holds.appendOutcome_failed`). What a piece can
become is one of these (`Holds.writeFormatted_eq_some`).

# The overloads

Each overload of `write` is a format and an argument, and its conversion
gives the text of the value without a NUL (`prints`). The integers are
similar: the size letters, and `X` or the letter of the type, as the
hexadecimal switch says (`printf_integerFormat`). Only a string can be long
(`length_text_lt`), so only a string can make a piece go wrong; and only a
string view can be printed in part, since its length goes through an `int`
(`Prints.stringView`).
-/
import IviLogging.Stream.Line
import IviLogging.Utils.Proofs.ByteArray

namespace IviLogging

open Printf (Arg Outcome snprintf printf cString intMax)

namespace ByteArray

-- =============================================================== one piece

/-- The array has a text, and room for a byte behind it. -/
structure Holds (a : ByteArray) (t : List UInt8) : Prop where
  wf : a.Wf
  contents : a.contents = t
  room : t.length < charVectorMaxSize

/-- The text is all there is. -/
theorem Holds.size {a : ByteArray} {t : List UInt8} (h : a.Holds t) :
    a.size = t.length := by
  rw [← length_contents h.wf, h.contents]

/-- A fresh array holds the empty text. -/
theorem Holds.fresh (memory : StaticData) :
    (ByteArray.fresh memory).Holds [] :=
  ⟨Nat.zero_le _, contents_static rfl, by simp [charVectorMaxSize]⟩

/-- A shrink leaves the memory alone: the bytes that are cut off are still
behind the others. -/
theorem getData_resize {a b : ByteArray} {n : Nat} (h : a.Wf)
    (hn : n ≤ a.size) (hb : a.resize n = some b) :
    b.getData = a.getData := by
  have hmax : a.size ≤ charVectorMaxSize := size_le h
  unfold Wf at h
  unfold resize at hb
  cases hmode : a.dynamicData with
  | some v =>
      have hsize : a.size = v.elements.length := by rw [size, hmode]
      rw [hsize] at hn hmax
      simp only [hmode] at hb
      rw [if_pos (by omega)] at hb
      cases hb
      simp only [getData, hmode, CharVector.resize, if_pos hn]
      rw [← List.append_assoc, List.take_append_drop]
  | none =>
      have hsize : a.size = a.length := by rw [size, hmode]
      rw [hmode] at h
      have hlength : a.length ≤ staticSize := h
      rw [hsize] at hn
      simp only [hmode] at hb
      rw [if_pos (by omega)] at hb
      cases hb
      simp only [getData, hmode]

theorem getData_eq (a : ByteArray) :
    a.getData = a.contents ++ a.getData.drop a.size :=
  (List.take_append_drop _ _).symm

/-- A shrink: the bytes in front stay, and so does the memory. -/
theorem shrink_spec {a : ByteArray} (h : a.Wf) {n : Nat} (hn : n ≤ a.size) :
    ∃ b, a.resize n = some b ∧ b.Wf ∧ b.contents = a.contents.take n
      ∧ b.getData = a.getData := by
  obtain ⟨b, rest, hb, hresized⟩ :=
    resize_spec h (Nat.le_trans hn (size_le h))
  -- nothing is new where nothing grows
  have hnil : rest = [] := by
    apply List.eq_nil_of_length_eq_zero
    rw [hresized.length]
    omega
  refine ⟨b, hb, hresized.wf, ?_, getData_resize h hn hb⟩
  rw [hresized.contents, hnil, List.append_nil]

/-- The array grown by some bytes, and the bytes stored behind the old
ones. -/
theorem put_spec {a : ByteArray} (h : a.Wf) (src : List UInt8)
    (hroom : a.size + src.length ≤ charVectorMaxSize) :
    ∃ b c, a.resize (a.size + src.length) = some b ∧ b.Wf
      ∧ b.size = a.size + src.length ∧ b.store a.size src = some c
      ∧ c.Wf ∧ c.size = a.size + src.length
      ∧ c.contents = a.contents ++ src := by
  have hlength := length_contents h
  obtain ⟨b, rest, hb, hresized⟩ := resize_spec h hroom
  have hbefore : b.contents = a.contents ++ rest := by
    rw [hresized.contents, List.take_of_length_le (by omega)]
  have hrest : rest.length = src.length := by
    rw [hresized.length, Nat.add_sub_cancel_left]
  have hfits : a.size + src.length ≤ b.size := by
    rw [hresized.size]
  obtain ⟨c, hc, hwf, hsize, hcontents⟩ :=
    store_spec hresized.wf a.size src hfits
  refine ⟨b, c, hb, hresized.wf, hresized.size, hc, hwf, ?_, ?_⟩
  · rw [hsize, hresized.size]
  · have hall : (a.contents ++ rest).length ≤ a.size + src.length := by
      rw [List.length_append, hrest, hlength]
    rw [hcontents, hbefore, Buffer.write, List.take_left' hlength,
      List.drop_eq_nil_of_le hall, List.append_nil]

theorem Holds.put {a : ByteArray} {t : List UInt8} (h : a.Holds t)
    (src : List UInt8) (hroom : t.length + src.length ≤ charVectorMaxSize) :
    ∃ b c, a.resize (t.length + src.length) = some b ∧ b.Wf
      ∧ b.size = t.length + src.length ∧ b.store t.length src = some c
      ∧ c.Wf ∧ c.size = t.length + src.length ∧ c.contents = t ++ src := by
  rw [← h.size] at hroom ⊢
  rw [← h.contents]
  exact put_spec h.wf src hroom

/-- The room that is made for an outcome is the one that is used. -/
theorem length_written (o : Outcome) :
    (o.written (o.returned + 1).toNat).length = (o.returned + 1).toNat := by
  cases o with
  | failed => rfl
  | printed u =>
      have hsize : ((Outcome.printed u).returned + 1).toNat
          = u.length + 1 := by
        show ((u.length : Int) + 1).toNat = u.length + 1
        omega
      simp [hsize, Outcome.written]

/-- An array grown for an outcome, if there is room in a vector. -/
theorem grow_spec {a : ByteArray} (h : a.Wf) (o : Outcome)
    (hroom : a.size + (o.returned + 1).toNat ≤ charVectorMaxSize) :
    ∃ c, ((a.resize ((a.size + (o.returned + 1).toNat) % 2 ^ 64)).bind
        fun b => b.store a.size (o.written (o.returned + 1).toNat)) = some c
      ∧ c.Wf ∧ c.size = a.size + (o.returned + 1).toNat
      ∧ c.contents = a.contents ++ o.written (o.returned + 1).toNat := by
  have hmax : charVectorMaxSize = 2 ^ 63 - 1 := rfl
  have hlength := length_written o
  obtain ⟨b, c, hb, _, _, hc, hwf, hsize, hcontents⟩ :=
    put_spec h (o.written (o.returned + 1).toNat) (by omega)
  rw [hlength] at hb hsize
  refine ⟨c, ?_, hwf, hsize, hcontents⟩
  rw [Nat.mod_eq_of_lt (by omega), hb, Option.bind_some, hc]

/-- It is left to drop the last byte of what was grown. -/
theorem appendOutcome_eq {a : ByteArray} (h : a.Wf) (o : Outcome)
    (hreturned : o.returned + 1 ≤ (intMax : Int))
    (hroom : a.size + (o.returned + 1).toNat ≤ charVectorMaxSize) :
    ∃ c : ByteArray, c.Wf ∧ c.size = a.size + (o.returned + 1).toNat
      ∧ c.contents = a.contents ++ o.written (o.returned + 1).toNat
      ∧ a.appendOutcome o = c.resize ((c.size + (2 ^ 64 - 1)) % 2 ^ 64) := by
  obtain ⟨c, hc, hwf, hsize, hcontents⟩ := grow_spec h o hroom
  refine ⟨c, hwf, hsize, hcontents, ?_⟩
  unfold ByteArray.appendOutcome
  simp only [if_pos hreturned]
  rw [← Option.bind_assoc, hc, Option.bind_some]

/-- A text that can be printed is put behind what is there, and its NUL is
left in the memory. If the two together and the NUL are longer than a vector
may get, the growth throws, and nothing is defined. -/
theorem Holds.appendOutcome {a : ByteArray} {t u : List UInt8}
    (h : a.Holds t) (hu : u.length < intMax) :
    if t.length + u.length < charVectorMaxSize then
      ∃ b rest, a.appendOutcome (.printed u) = some b ∧ b.Holds (t ++ u)
        ∧ b.getData = t ++ u ++ 0 :: rest
    else a.appendOutcome (.printed u) = none := by
  have hmax : charVectorMaxSize = 2 ^ 63 - 1 := rfl
  have hint : intMax = 2 ^ 31 - 1 := rfl
  have hroom := h.room
  have hfits : (Outcome.printed u).returned + 1 ≤ intMax := by
    show (u.length : Int) + 1 ≤ intMax
    omega
  have hsize : ((Outcome.printed u).returned + 1).toNat = u.length + 1 := by
    show ((u.length : Int) + 1).toNat = u.length + 1
    omega
  split
  case isFalse hlong =>
      -- the sum does not wrap, as both parts are far below 2^64
      have hgrown : (a.size + (u.length + 1)) % 2 ^ 64
          = t.length + (u.length + 1) := by
        rw [h.size]
        omega
      simp only [ByteArray.appendOutcome, if_pos hfits, hsize, hgrown]
      rw [resize_eq_none (by omega)]
      rfl
  case isTrue hshort =>
      have hwritten : (Outcome.printed u).written (u.length + 1)
          = u ++ [0] := by
        simp [Outcome.written]
      obtain ⟨c, hwf, hcsize, hcontents, heq⟩ :=
        appendOutcome_eq h.wf _ hfits (by
          rw [hsize, h.size]
          omega)
      rw [hsize, h.size] at hcsize
      rw [hsize, hwritten, h.contents] at hcontents
      -- the size minus one, as unsigned numbers count
      have hshrunk : (c.size + (2 ^ 64 - 1)) % 2 ^ 64
          = t.length + u.length := by
        rw [hcsize]
        omega
      obtain ⟨d, hd, hdwf, hdcontents, hdata⟩ :=
        shrink_spec hwf (n := t.length + u.length) (by
          rw [hcsize]
          omega)
      refine ⟨d, c.getData.drop c.size, ?_, ⟨hdwf, ?_, ?_⟩, ?_⟩
      · rw [heq, hshrunk, hd]
      · rw [hdcontents, hcontents, ← List.append_assoc,
          ← List.length_append, List.take_left]
      · rw [List.length_append]
        exact hshort
      · have hmemory := getData_eq c
        rw [hcontents, ← List.append_assoc, List.append_assoc _ [0]] at hmemory
        rw [hdata]
        exact hmemory

/-- A text of `INT_MAX` bytes, or more: with its NUL it is more than an `int`
can count. -/
theorem appendOutcome_long (a : ByteArray) {u : List UInt8}
    (hu : intMax ≤ u.length) : a.appendOutcome (.printed u) = none := by
  have hreturned : ¬ (Outcome.printed u).returned + 1 ≤ (intMax : Int) := by
    show ¬ (u.length : Int) + 1 ≤ intMax
    omega
  simp only [ByteArray.appendOutcome, if_neg hreturned]

/-- Where `snprintf` fails the array is made one byte shorter, and one
without a byte far too large. -/
theorem Holds.appendOutcome_failed {a : ByteArray} {t : List UInt8}
    (h : a.Holds t) :
    if t = [] then a.appendOutcome .failed = none
    else ∃ b, a.appendOutcome .failed = some b ∧ b.Holds t.dropLast := by
  have hmax : charVectorMaxSize = 2 ^ 63 - 1 := rfl
  have hroom := h.room
  have hnat : (Outcome.failed.returned + 1).toNat = 0 := rfl
  obtain ⟨c, hwf, hsize, hcontents, heq⟩ :=
    appendOutcome_eq h.wf .failed (Int.natCast_nonneg intMax) (by
      rw [hnat, h.size]
      omega)
  have hnothing : Outcome.failed.written 0 = [] := rfl
  rw [hnat, h.size] at hsize
  rw [hnat, hnothing, h.contents, List.append_nil] at hcontents
  rw [heq, hsize]
  split
  case isTrue hempty =>
      subst hempty
      exact resize_eq_none (by simp [charVectorMaxSize])
  case isFalse hempty =>
      have hpos := List.length_pos_of_ne_nil hempty
      -- nothing was grown, so the byte that is dropped is one of the text
      have hmod : (t.length + 0 + (2 ^ 64 - 1)) % 2 ^ 64 = t.length - 1 := by
        omega
      obtain ⟨d, hd, hdwf, hdcontents, _⟩ :=
        shrink_spec hwf (n := t.length - 1) (by
          rw [hsize]
          omega)
      refine ⟨d, ?_, hdwf, ?_, ?_⟩
      · rw [hmod, hd]
      · rw [hdcontents, hcontents, List.dropLast_eq_take]
      · rw [List.length_dropLast]
        omega

/-- The same with the format and its arguments. -/
theorem Holds.writeFormatted {a : ByteArray} {t u format : List UInt8}
    {args : List Arg} (h : a.Holds t) (hprintf : printf format args = some u)
    (hu : u.length < intMax) :
    if t.length + u.length < charVectorMaxSize then
      ∃ b rest, a.writeFormatted format args = some b ∧ b.Holds (t ++ u)
        ∧ b.getData = t ++ u ++ 0 :: rest
    else a.writeFormatted format args = none := by
  have hsnprintf : snprintf format args = some (.printed u) := by
    rw [snprintf, hprintf, Option.map_some, if_pos (Nat.le_of_lt hu)]
  rw [ByteArray.writeFormatted, hsnprintf, Option.bind_some]
  exact h.appendOutcome hu

/-- What can become of a piece: it is printed, or `snprintf` fails and the
array loses its last byte. -/
theorem Holds.writeFormatted_eq_some {a b : ByteArray}
    {t format : List UInt8} {args : List Arg} (h : a.Holds t)
    (hb : a.writeFormatted format args = some b) :
    ∃ u, printf format args = some u
      ∧ (u.length < intMax ∧ b.Holds (t ++ u)
          ∧ (∃ rest, b.getData = t ++ u ++ 0 :: rest)
        ∨ intMax < u.length ∧ t ≠ [] ∧ b.Holds t.dropLast) := by
  obtain ⟨o, ho, hout⟩ := Option.bind_eq_some_iff.mp hb
  obtain ⟨u, hu, heq⟩ := Option.map_eq_some_iff.mp ho
  refine ⟨u, hu, ?_⟩
  split at heq
  case isTrue hle =>
      subst heq
      -- printed, but `INT_MAX` bytes are one too many to add the NUL
      rcases Nat.eq_or_lt_of_le hle with hint | hlt
      · rw [appendOutcome_long a (Nat.le_of_eq hint.symm)] at hout
        cases hout
      · have hpiece := h.appendOutcome hlt
        split at hpiece
        · obtain ⟨b', rest, hb', hholds, hmemory⟩ := hpiece
          rw [hb'] at hout
          cases hout
          exact Or.inl ⟨hlt, hholds, rest, hmemory⟩
        · rw [hpiece] at hout
          cases hout
  case isFalse hlong =>
      subst heq
      have hpiece := h.appendOutcome_failed
      split at hpiece
      · rw [hpiece] at hout
        cases hout
      · next hne =>
          obtain ⟨b', hb', hholds⟩ := hpiece
          rw [hb'] at hout
          cases hout
          exact Or.inr ⟨Nat.lt_of_not_le hlong, hne, hholds⟩

/-- The terminal NUL. -/
theorem Holds.terminate {a : ByteArray} {t : List UInt8} (h : a.Holds t) :
    ∃ b c rest, a.resize ((a.size + 1) % 2 ^ 64) = some b
      ∧ b.setAt (b.size - 1) 0 = some c ∧ c.contents = t ++ [0]
      ∧ c.getData = t ++ 0 :: rest := by
  have hmax : charVectorMaxSize = 2 ^ 63 - 1 := rfl
  have hroom := h.room
  have hmod : (a.size + 1) % 2 ^ 64 = t.length + 1 := by
    rw [h.size]
    omega
  obtain ⟨b, c, hb, hbwf, hbsize, hc, hwf, hsize, hcontents⟩ :=
    h.put [0] hroom
  rw [List.length_singleton] at hb hbsize
  have hset : b.setAt (b.size - 1) 0 = some c := by
    have hlength := size_le_length hbwf
    rw [setAt, if_pos (by omega), hbsize, Nat.add_sub_cancel, hc]
  have hmemory := getData_eq c
  rw [hcontents, List.append_assoc _ [0]] at hmemory
  exact ⟨b, c, c.getData.drop c.size, by rw [hmod, hb], hset, hcontents,
    hmemory⟩

end ByteArray

namespace Stream

open Printf (numeral signedDecimal fixed)

-- ================================================================== values

/-- The two conversions of an integer, with one size: `X` prints the bits, and
the other letter the number, signed or unsigned. -/
theorem printf_integerFormat (r : StreamLogData) (sizes : List Char)
    {letter : Char} {a : Arg} {bits : Nat} {v : Int}
    (hsizes : ∀ x ∈ ascii sizes, x = 108 ∨ x = 122)
    (hbits : a.unsigned (!sizes.isEmpty) = some bits)
    (hv : letter = 'd' ∧ a.signed (!sizes.isEmpty) = some v
      ∨ letter = 'u' ∧ v = bits) :
    printf (r.integerFormat ('%' :: (sizes ++ ['X']))
        ('%' :: (sizes ++ [letter]))) [a]
      = some (integerText r.data.hexEnabled v bits) := by
  have hempty : (ascii sizes).isEmpty = sizes.isEmpty := by
    cases sizes with
    | nil => rfl
    | cons x sizes => rfl
  have hformat : ∀ c : Char, ascii ('%' :: (sizes ++ [c]))
      = 37 :: (ascii sizes ++ [UInt8.ofNat c.toNat]) := by
    intro c
    simp [ascii]
  unfold StreamLogData.integerFormat integerText
  cases r.data.hexEnabled with
  | true =>
      simp only [if_true]
      rw [hformat, Printf.printf_integer _ a hsizes (by simp), hempty]
      simp [Printf.Spec.text, hbits, Printf.Spec.integer, Printf.minus]
  | false =>
      simp only [Bool.false_eq_true, if_false]
      rw [hformat]
      -- `d` and `u` differ in how the bits are read
      rcases hv with hv | hv
      · obtain ⟨hletter, hsigned⟩ := hv
        subst hletter
        rw [Printf.printf_integer _ a hsizes (by simp), hempty]
        simp [Printf.Spec.text, hsigned, Printf.Spec.integer, signedDecimal]
      · obtain ⟨hletter, hv⟩ := hv
        subst hletter hv
        have hnonneg : ¬ (bits : Int) < 0 := by omega
        rw [Printf.printf_integer _ a hsizes (by simp), hempty]
        simp [Printf.Spec.text, hbits, Printf.Spec.integer, signedDecimal,
          hnonneg]

/-- An unsigned integer that is promoted to `int`. -/
theorem printf_promoted (r : StreamLogData) {w : UInt32} {n : Nat}
    (hw : w.toNat = n) (hn : n < 2 ^ 31) :
    printf (r.integerFormat ['%', 'X'] ['%', 'd'])
        [.word32 w.toInt32.toUInt32]
      = some (integerText r.data.hexEnabled n n) := by
  subst hw
  refine printf_integerFormat r [] (by simp [ascii]) rfl (Or.inl ⟨rfl, ?_⟩)
  simp only [Arg.signed, UInt32.toUInt32_toInt32]
  exact congrArg some (Printf.toInt_of_lt hn)

/-- A pointer is printed in hexadecimal digits. -/
theorem zero_notMem_pointerText (p : UInt64) : 0 ∉ pointerText p := by
  intro hmem
  rcases List.mem_append.mp hmem with hmem | hmem
  · simp [ascii] at hmem
  · exact Printf.zero_notMem_numeral 16 (by omega) (by omega) _ _ hmem

theorem length_pointerText_le (p : UInt64) :
    (pointerText p).length ≤ 18 := by
  have hlt : p.toNat < 16 ^ 16 := p.toNat_lt
  have hnumeral := Printf.length_numeral_le 16 1 (by omega) hlt (by omega)
  rw [pointerText, List.length_append]
  simp only [ascii, List.length_map, List.length_cons, List.length_nil]
  omega

/-- The array that a pointer is printed to has room for all its digits. -/
theorem pointerToString_eq (p : UInt64) :
    pointerToString p = some (pointerText p) := by
  have hlength := length_pointerText_le p
  have hint : intMax = 2 ^ 31 - 1 := rfl
  have hprintf : printf (ascii ['0', 'x', '%', 'z', 'X']) [.word64 p]
      = some (pointerText p) := by
    have hnumber := Printf.printf_integer (c := 88) [122] (.word64 p)
      (by simp) (by simp)
    have htext : ({ long := true } : Printf.Spec).text 88 (.word64 p)
        = some (numeral 16 1 p.toNat) := by
      simp [Printf.Spec.text, Arg.unsigned, Printf.Spec.integer,
        Printf.minus]
    show printf (48 :: 120 :: 37 :: ([122] ++ [88])) _ = _
    unfold printf at hnumber ⊢
    rw [Printf.scan, if_neg (by simp), Printf.scan, if_neg (by simp),
      hnumber]
    simp [htext, pointerText, ascii]
  rw [pointerToString, snprintf, hprintf, Option.map_some,
    if_pos (by omega), Option.bind_some, Outcome.written, if_neg (by omega),
    List.take_of_length_le (by omega), Printf.cString_append,
    Printf.takeWhile_eq_self (zero_notMem_pointerText p)]

/-- `%s` stops at the first NUL of a string, its own at the latest. -/
theorem printf_writeString (s : List UInt8) :
    printf (ascii ['%', 's']) [.string (s ++ [0])] = some (cText s) := by
  exact Printf.printf_string_append s []

theorem write_pointer (r : StreamLogData) (l : Levels) (v : UInt64) :
    r.write l (.pointer v) = r.writeFormatted l (ascii ['%', 's'])
      [.string (pointerText v ++ [0])] := by
  simp only [StreamLogData.write, pointerToString_eq, Option.bind_some,
    StreamLogData.writeString]

/-- The overload of a value: its format, its argument, and what they print.
A value that is printed whole gives its text; any other, a beginning of
it. -/
def Prints (r : StreamLogData) (l : Levels) (c : WriteCall) : Prop :=
  ∃ format args, r.write l c = r.writeFormatted l format args
    ∧ (c.Whole → printf format args = some (c.text r.data.hexEnabled))
    ∧ ∀ u, printf format args = some u →
        u <+: c.text r.data.hexEnabled
        ∧ (u = c.text r.data.hexEnabled → c.Whole)

theorem Prints.of_printf {r : StreamLogData} {l : Levels} {c : WriteCall}
    {format : List UInt8} {args : List Arg}
    (hwrite : r.write l c = r.writeFormatted l format args)
    (hprintf : printf format args = some (c.text r.data.hexEnabled))
    (hwhole : c.Whole) : Prints r l c := by
  refine ⟨format, args, hwrite, fun _ => hprintf, ?_⟩
  intro u hu
  rw [hprintf] at hu
  cases hu
  exact ⟨List.prefix_refl _, fun _ => hwhole⟩

/-- A string view of more bytes than an `int` can count is cut, or read as
a C string. -/
theorem Prints.stringView (r : StreamLogData) (l : Levels)
    (v : List UInt8) : Prints r l (.stringView v) := by
  refine ⟨_, _, rfl, fun h => h, ?_⟩
  intro u hu
  refine ⟨?_, fun heq => hu.trans (congrArg some heq)⟩
  obtain ⟨n, hn⟩ := Printf.printf_view_eq_some hu
  rw [hn]
  exact Printf.takeWhile_take_prefix _ _ _

/-- A view that is not too long is seen whole. -/
theorem whole_of_short {c : WriteCall} (h : c.bytes.length ≤ intMax) :
    c.Whole := by
  cases c with
  | stringView v => exact Printf.printf_view h
  | _ => exact True.intro

/-- Every overload but the switch prints its value. The formats are those of
the source; a char and a short are promoted to `int` on the way. -/
theorem prints (r : StreamLogData) (l : Levels) {c : WriteCall}
    (hc : ∀ enabled, c ≠ .setHexEnabled enabled) : Prints r l c := by
  cases c with
  | stringView v => exact Prints.stringView r l v
  | bool v =>
      refine Prints.of_printf rfl ?_ True.intro
      rw [printf_writeString]
      cases v with
      | true => rfl
      | false => rfl
  | char v =>
      refine Prints.of_printf rfl ?_ True.intro
      exact printf_integerFormat r [] (by simp [ascii]) rfl
        (Or.inl ⟨rfl, by simp [Arg.signed]⟩)
  | unsignedChar v =>
      have hv := v.toNat_lt
      refine Prints.of_printf rfl ?_ True.intro
      exact printf_promoted r v.toNat_toUInt32 (by omega)
  | short v =>
      refine Prints.of_printf rfl ?_ True.intro
      exact printf_integerFormat r [] (by simp [ascii]) rfl
        (Or.inl ⟨rfl, by simp [Arg.signed]⟩)
  | unsignedShort v =>
      have hv := v.toNat_lt
      refine Prints.of_printf rfl ?_ True.intro
      exact printf_promoted r v.toNat_toUInt32 (by omega)
  | int v =>
      refine Prints.of_printf rfl ?_ True.intro
      exact printf_integerFormat r [] (by simp [ascii]) rfl
        (Or.inl ⟨rfl, by simp [Arg.signed]⟩)
  | unsignedInt v =>
      refine Prints.of_printf rfl ?_ True.intro
      exact printf_integerFormat r [] (by simp [ascii]) rfl
        (Or.inr ⟨rfl, rfl⟩)
  | longLong v =>
      refine Prints.of_printf rfl ?_ True.intro
      exact printf_integerFormat r ['l', 'l'] (by simp [ascii])
        rfl (Or.inl ⟨rfl, by simp [Arg.signed]⟩)
  | unsignedLongLong v =>
      refine Prints.of_printf rfl ?_ True.intro
      exact printf_integerFormat r ['l', 'l'] (by simp [ascii])
        rfl (Or.inr ⟨rfl, rfl⟩)
  | long v =>
      refine Prints.of_printf rfl ?_ True.intro
      exact printf_integerFormat r ['l'] (by simp [ascii])
        rfl (Or.inl ⟨rfl, by simp [Arg.signed]⟩)
  | unsignedLong v =>
      refine Prints.of_printf rfl ?_ True.intro
      exact printf_integerFormat r ['l'] (by simp [ascii])
        rfl (Or.inr ⟨rfl, rfl⟩)
  | pointer v =>
      refine Prints.of_printf (write_pointer r l v) ?_ True.intro
      rw [printf_writeString, cText,
        Printf.takeWhile_eq_self (zero_notMem_pointerText v)]
      rfl
  | cString v => exact Prints.of_printf rfl (printf_writeString _) True.intro
  | float bits =>
      exact Prints.of_printf rfl (Printf.printf_floating _) True.intro
  | string v => exact Prints.of_printf rfl (printf_writeString v) True.intro
  | double bits =>
      exact Prints.of_printf rfl (Printf.printf_floating _) True.intro
  | setHexEnabled enabled => exact absurd rfl (hc enabled)

theorem zero_notMem_cText (v : List UInt8) : 0 ∉ cText v :=
  Printf.zero_notMem_takeWhile v

theorem length_cText_le (v : List UInt8) : (cText v).length ≤ v.length :=
  List.IsPrefix.length_le (List.takeWhile_prefix _)

theorem zero_notMem_integerText (hex : Bool) (v : Int) (bits : Nat) :
    0 ∉ integerText hex v bits := by
  unfold integerText
  split
  · exact Printf.zero_notMem_numeral 16 (by omega) (by omega) _ _
  · exact Printf.zero_notMem_signedDecimal v

/-- Twenty digits and a sign are enough for 64 bits. -/
theorem length_integerText_le {v : Int} {bits : Nat} (hex : Bool)
    (hbits : bits < 2 ^ 64) (hv : v.natAbs < 2 ^ 64) :
    (integerText hex v bits).length ≤ 21 := by
  unfold integerText
  split
  · have hnumeral := Printf.length_numeral_le 16 1 (n := bits)
      (k := 16) (by omega) hbits (by omega)
    omega
  · have hnumeral := Printf.length_numeral_le 10 1 (n := v.natAbs)
      (k := 20) (by omega) (by omega) (by omega)
    have hsign := Printf.length_minus_le (decide (v < 0))
    rw [signedDecimal, List.length_append]
    omega

/-- No text has a NUL. -/
theorem zero_notMem_text (hex : Bool) (c : WriteCall) : 0 ∉ c.text hex := by
  cases c with
  | stringView v => exact zero_notMem_cText v
  | bool v =>
      cases v with
      | true => simp [WriteCall.text, ascii]
      | false => simp [WriteCall.text, ascii]
  | char v => exact zero_notMem_integerText hex _ _
  | unsignedChar v => exact zero_notMem_integerText hex _ _
  | short v => exact zero_notMem_integerText hex _ _
  | unsignedShort v => exact zero_notMem_integerText hex _ _
  | int v => exact zero_notMem_integerText hex _ _
  | unsignedInt v => exact zero_notMem_integerText hex _ _
  | longLong v => exact zero_notMem_integerText hex _ _
  | unsignedLongLong v => exact zero_notMem_integerText hex _ _
  | long v => exact zero_notMem_integerText hex _ _
  | unsignedLong v => exact zero_notMem_integerText hex _ _
  | pointer v => exact zero_notMem_pointerText v
  | cString v => exact zero_notMem_cText _
  | float bits => exact Printf.zero_notMem_fixed _
  | string v => exact zero_notMem_cText v
  | double bits => exact Printf.zero_notMem_fixed _
  | setHexEnabled enabled => exact List.not_mem_nil

/-- Only a string is long: the digits of a number are bounded by its type,
those of a floating point number by the largest one of its format. -/
theorem length_text_lt (hex : Bool) {c : WriteCall}
    (hc : c.bytes.length < intMax) : (c.text hex).length < intMax := by
  have hint : intMax = 2 ^ 31 - 1 := rfl
  -- no integer has more than 64 bits
  have hinteger : ∀ {v : Int} {bits : Nat}, bits < 2 ^ 64 →
      -2 ^ 63 ≤ v → v < 2 ^ 64 →
      (integerText hex v bits).length < intMax := by
    intro v bits hbits hlow hhigh
    have hle := length_integerText_le hex hbits (v := v) (by omega)
    omega
  have hword : ∀ w : UInt32, w.toNat < 2 ^ 64 :=
    fun w => Nat.lt_trans w.toNat_lt (by omega)
  cases c with
  | stringView v => exact Nat.lt_of_le_of_lt (length_cText_le v) hc
  | bool v =>
      cases v with
      | true => simp [WriteCall.text, ascii, intMax]
      | false => simp [WriteCall.text, ascii, intMax]
  | char v =>
      have hlow := v.le_toInt
      have hhigh := v.toInt_lt
      exact hinteger (hword _) (by omega) (by omega)
  | unsignedChar v =>
      have hv := v.toNat_lt
      exact hinteger (by omega) (by omega) (by omega)
  | short v =>
      have hlow := v.le_toInt
      have hhigh := v.toInt_lt
      exact hinteger (hword _) (by omega) (by omega)
  | unsignedShort v =>
      have hv := v.toNat_lt
      exact hinteger (by omega) (by omega) (by omega)
  | int v =>
      have hlow := v.le_toInt
      have hhigh := v.toInt_lt
      exact hinteger (hword _) (by omega) (by omega)
  | unsignedInt v =>
      have hv := v.toNat_lt
      exact hinteger (by omega) (by omega) (by omega)
  | longLong v =>
      have hhigh := v.toInt_lt
      exact hinteger v.toUInt64.toNat_lt v.le_toInt (by omega)
  | unsignedLongLong v =>
      have hv := v.toNat_lt
      exact hinteger (by omega) (by omega) (by omega)
  | long v =>
      have hhigh := v.toInt_lt
      exact hinteger v.toUInt64.toNat_lt v.le_toInt (by omega)
  | unsignedLong v =>
      have hv := v.toNat_lt
      exact hinteger (by omega) (by omega) (by omega)
  | pointer v =>
      have hle := length_pointerText_le v
      show (pointerText v).length < intMax
      omega
  | cString v =>
      cases v with
      | none => simp [WriteCall.text, ascii, cText, intMax]
      | some v => exact Nat.lt_of_le_of_lt (length_cText_le v) hc
  | float bits =>
      have hle := Printf.length_fixed_ofBits_le 23 8 bits.toNat
      show (fixed (.ofFloat bits)).length < intMax
      unfold Printf.Binary.ofFloat
      omega
  | string v => exact Nat.lt_of_le_of_lt (length_cText_le v) hc
  | double bits =>
      have hle := Printf.length_fixed_ofBits_le 52 11 bits.toNat
      show (fixed (.ofDouble bits)).length < intMax
      unfold Printf.Binary.ofDouble
      omega
  | setHexEnabled enabled => exact hc

/-- The bound that is left for a string of exactly `INT_MAX` bytes. -/
theorem length_text_le (hex : Bool) {c : WriteCall}
    (hc : c.bytes.length ≤ intMax) : (c.text hex).length ≤ intMax := by
  by_cases hlt : c.bytes.length < intMax
  · exact Nat.le_of_lt (length_text_lt hex hlt)
  · have hempty : c.bytes ≠ [] := by
      intro hnil
      rw [hnil] at hlt
      simp [intMax] at hlt
    cases c with
    | stringView v => exact Nat.le_trans (length_cText_le v) hc
    | string v => exact Nat.le_trans (length_cText_le v) hc
    | cString v =>
        cases v with
        | none => exact absurd rfl hempty
        | some v => exact Nat.le_trans (length_cText_le v) hc
    | _ => exact absurd rfl hempty

end Stream

end IviLogging
