/-
Bytes as hexadecimal text (`byteArrayToString`, `ByteArray::toString`).

The text is put together in a static buffer, which keeps it until the next
call. What the loop reads and writes is a matter of its indices: an access
outside the bytes, the digits or the buffer is `none`.
-/
import IviLogging.Common
import IviLogging.Lib.Cursor
import IviLogging.Utils.ByteArray

namespace IviLogging

/-- `hexcode`, and the `hex` of the trace: the NUL of the literal is
included. -/
def hexcode : List UInt8 :=
  ascii ['0', '1', '2', '3', '4', '5', '6', '7', '8', '9', 'A', 'B', 'C',
    'D', 'E', 'F'] ++ [0]

/-- The body of both loops: a byte's two digits and a blank. -/
def putHex {size : Nat} (o : Cursor UInt8 size) (b : UInt8) :
    Option (Cursor UInt8 size) := do
  let o ← o.put (← hexcode[(b >>> 4).toNat]?)
  let o ← o.put (← hexcode[(b &&& 0xF).toNat]?)
  o.put 32

/-- `sizeof(textBuffer)`. -/
def textBufferSize : Nat := 1024

/-- `byteArrayToString`, over what the text buffer held: the text, and the
buffer afterwards. -/
def byteArrayToString (textBuffer : Vector UInt8 textBufferSize)
    (buffer : List UInt8) (length : Nat) :
    Option (List UInt8 × Vector UInt8 textBufferSize) := do
  let length :=
    if textBufferSize / 3 < (length + 1) % 2 ^ 64 then textBufferSize / 3
    else length
  let o ← (List.range length).foldlM
    (fun o byteIndex => do putHex o (← buffer[byteIndex]?))
    (.start textBuffer)
  let o ← o.put 0
  some (cText o.cells.toList, o.cells)

/-- `ByteArray::toString`. -/
def ByteArray.toString (textBuffer : Vector UInt8 textBufferSize)
    (a : ByteArray) : Option (List UInt8 × Vector UInt8 textBufferSize) :=
  byteArrayToString textBuffer a.getData a.size

end IviLogging
