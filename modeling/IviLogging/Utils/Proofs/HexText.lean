/-
What `byteArrayToString` makes of a buffer.

A buffer is shown as hexadecimal digits with blanks between them, in a text
buffer of 1024 bytes that all calls share. The number of bytes is clamped to
a third of that.

# The loop

The loop puts two digits and a blank for each byte (`putHex_eq`), so over
the first bytes it is one run of `put`s (`foldlM_putHex`). The trace of a
frame uses the same loop.

# The text

The text of 341 bytes and the NUL fill the buffer exactly, so every index
is inside (`byteArrayToString_spec`). The clamp adds 1 to the number of
bytes, and that wraps for the largest number there is; no buffer has that
many. The text reads back as the bytes that it shows
(`byteArrayToString_decodes`). The same holds of the contents of a byte
array (`ByteArray.toString_decodes`).
-/
import IviLogging.Lib.Digits
import IviLogging.Utils.HexText
import IviLogging.Utils.Proofs.ByteArray

namespace IviLogging

open Digits (byteFormat)

-- ============================================================== the loop

/-- The table of the digits. -/
theorem getElem?_hexcode {d : Nat} (h : d < 16) :
    hexcode[d]? = some (Printf.digit d) := by
  have hall : ∀ d : Fin 16, hexcode[d.val]? = some (Printf.digit d) := by
    decide
  exact hall ⟨d, h⟩

/-- The upper four bits of a byte and the lower ones, and a blank. -/
theorem putHex_eq {size : Nat} (o : Cursor UInt8 size) (b : UInt8) :
    putHex o b = o.puts (byteFormat.write b) := by
  have hlt : b.toNat < 256 := b.toNat_lt
  have hhigh : (b >>> 4).toNat = b.toNat / 16 := by
    rw [UInt8.toNat_shiftRight]
    exact Nat.shiftRight_eq_div_pow b.toNat 4
  have hlow : (b &&& 0xF).toNat = b.toNat % 16 := by
    rw [UInt8.toNat_and]
    exact Nat.and_two_pow_sub_one_eq_mod b.toNat 4
  unfold putHex
  rw [hhigh, hlow, getElem?_hexcode (by omega), getElem?_hexcode (by omega)]
  show _ = o.puts [_, _, _]
  simp only [Cursor.puts_cons, Cursor.puts_nil, Option.bind_eq_bind,
    Option.bind_some, Option.bind_fun_some]

/-- The loop over the first bytes of a buffer. -/
theorem foldlM_putHex {size : Nat} (o : Cursor UInt8 size)
    {buffer : List UInt8} {n : Nat} (h : n ≤ buffer.length) :
    (List.range n).foldlM (fun o i => do putHex o (← buffer[i]?)) o
      = o.puts (byteFormat.writeAll (buffer.take n)) :=
  Cursor.foldlM_range_puts o putHex_eq h

-- ============================================================== the text

section Text

variable (textBuffer : Vector UInt8 textBufferSize)

/-- The bytes that are shown. -/
def shownBytes (buffer : List UInt8) (n : Nat) : List UInt8 :=
  buffer.take (min n 341)

/-- The clamped loop and the NUL behind its text are one filling of the
buffer: the text of the bytes that are shown, and a NUL. -/
theorem byteArrayToString_eq {buffer : List UInt8} {n : Nat}
    (hn : n + 1 < 2 ^ 64) (hbuffer : n ≤ buffer.length) :
    byteArrayToString textBuffer buffer n
      = ((Cursor.start textBuffer).puts
          (byteFormat.writeAll (shownBytes buffer n) ++ [0])).map
            fun o => (cText o.cells.toList, o.cells) := by
  -- the source clamps when the number of bytes is a third of the buffer or
  -- more
  have hclamp : (if textBufferSize / 3 < (n + 1) % 2 ^ 64 then
      textBufferSize / 3 else n) = min n 341 := by
    have hthird : textBufferSize / 3 = 341 := rfl
    rw [Nat.mod_eq_of_lt hn, hthird]
    split
    · omega
    · omega
  unfold byteArrayToString
  simp only [hclamp]
  rw [foldlM_putHex _ (by omega), Cursor.puts_append]
  show Option.bind ((Cursor.start textBuffer).puts
    (byteFormat.writeAll (shownBytes buffer n))) _ = _
  cases (Cursor.start textBuffer).puts
      (byteFormat.writeAll (shownBytes buffer n)) with
  | none => rfl
  | some o =>
      show (o.put 0).bind _ = (o.puts [0]).map _
      rw [Cursor.puts_singleton]
      cases o.put 0 with
      | none => rfl
      | some o => rfl

/-- The text of the bytes that are shown. -/
theorem byteArrayToString_spec {buffer : List UInt8} {n : Nat}
    (hn : n + 1 < 2 ^ 64) (hbuffer : n ≤ buffer.length) :
    ∃ textBuffer', byteArrayToString textBuffer buffer n
      = some (byteFormat.writeAll (shownBytes buffer n), textBuffer') := by
  have hlength := Digits.length_writeAll_byteFormat (shownBytes buffer n)
  have hshown : (shownBytes buffer n).length ≤ 341 := by
    rw [shownBytes, List.length_take]
    omega
  -- three characters for each of at most 341 bytes leave room for the NUL
  obtain ⟨o, ho, hwritten⟩ := Cursor.exists_puts (.start textBuffer)
    (byteFormat.writeAll (shownBytes buffer n) ++ [0]) (by
      have hsize : textBufferSize = 1024 := rfl
      rw [Cursor.next_start, List.length_append, List.length_singleton]
      omega)
  refine ⟨o.cells, ?_⟩
  have htext : cText o.cells.toList
      = byteFormat.writeAll (shownBytes buffer n) := by
    rw [← List.take_append_drop o.next o.cells.toList]
    show cText (o.written ++ _) = _
    rw [hwritten, Cursor.written_start, List.nil_append,
      List.append_assoc, List.singleton_append]
    exact cText_append (Digits.zero_notMem_writeAll_byteFormat _) _
  rw [byteArrayToString_eq textBuffer hn hbuffer, ho, Option.map_some, htext]

/-- No index leaves the buffer, and the text reads back as the bytes that
it shows, three characters for each. -/
theorem byteArrayToString_decodes {buffer : List UInt8}
    (h : buffer.length + 1 < 2 ^ 64) :
    ∃ text textBuffer',
      byteArrayToString textBuffer buffer buffer.length
          = some (text, textBuffer')
        ∧ text.length = 3 * min buffer.length 341
        ∧ byteFormat.readAll text
          = some (buffer.take (min buffer.length 341)) := by
  obtain ⟨textBuffer', htext⟩ :=
    byteArrayToString_spec textBuffer h (Nat.le_refl _)
  refine ⟨_, textBuffer', htext, ?_, ?_⟩
  · rw [Digits.length_writeAll_byteFormat, shownBytes, List.length_take]
    omega
  · exact byteFormat.readAll_writeAll fun _ _ => trivial

/-- Two bytes. -/
theorem byteArrayToString_decodes_sample :
    ∃ text textBuffer',
      byteArrayToString (Vector.replicate textBufferSize 7) [10, 255] 2
          = some (text, textBuffer')
        ∧ text.length = 3 * min 2 341
        ∧ byteFormat.readAll text = some ([10, 255].take (min 2 341)) :=
  byteArrayToString_decodes _
    (by rw [List.length_cons, List.length_singleton]; omega)

/-- The contents of a byte array, in the same way. -/
theorem ByteArray.toString_decodes {a : ByteArray} (h : a.Wf) :
    ∃ text textBuffer', a.toString textBuffer = some (text, textBuffer')
      ∧ byteFormat.readAll text = some (a.contents.take 341) := by
  have hsize := size_le h
  have hlength := length_contents h
  have hdata : a.size ≤ a.getData.length := by
    rw [contents, List.length_take] at hlength
    omega
  have hmax : charVectorMaxSize = 2 ^ 63 - 1 := rfl
  obtain ⟨textBuffer', htext⟩ :=
    byteArrayToString_spec textBuffer (by omega) hdata
  refine ⟨_, textBuffer', htext, ?_⟩
  rw [byteFormat.readAll_writeAll fun _ _ => trivial, shownBytes, contents,
    List.take_take, Nat.min_comm]

end Text

end IviLogging
