/-
The trace of what is sent (`binaryToHex`), as it is with
`IVILOGGING_DLT_DEBUG_IPC_TRACE` switched on: `to_iovec` then prints every
buffer it passes on.

The text is put together in an array of the thread, which keeps it until
the next buffer. No length is compared with the array's, so a text that
does not fit leaves it; that is `none` here.
-/
import IviLogging.DltCpp.Frames
import IviLogging.Utils.HexText

namespace IviLogging.DltCpp

/-- The size of `out`. -/
def outSize : Nat := 65535

/-- `printableAscii`. Bytes from 128 on are negative where `char` is
signed, and greater than 126 where it is not. -/
def printableAscii (c : UInt8) : UInt8 := if 32 < c ∧ c < 126 then c else 46

/-- `binaryToHex`, over what the array held. -/
def binaryToHex (out : Vector UInt8 outSize) (inStr : List UInt8)
    (inSize : Nat) : Option (Cursor UInt8 outSize) := do
  let o ← (List.range inSize).foldlM
    (fun o i => do putHex o (← inStr[i]?)) (.start out)
  let o ← o.put 32
  let o ← o.put 124
  let o ← o.put 32
  let o ← (List.range inSize).foldlM
    (fun o i => do
      let o ← o.put (printableAscii (← inStr[i]?))
      o.put 32) o
  o.put 0

/-- `to_iovec`, as far as the trace goes. -/
def traceIovec (out : Vector UInt8 outSize) (buffer : List UInt8) :
    Option (Vector UInt8 outSize) :=
  (binaryToHex out buffer buffer.length).map Cursor.cells

namespace Frame

/-- The buffers that `send` calls `to_iovec` for. -/
def iovecs : Frame → List (List UInt8)
  | .registerApp userHeader message description =>
      [userHeader.bytes, message.bytes, description]
  | .registerContext userHeader message description =>
      [userHeader.bytes, message.bytes, description]
  | .sendLog userHeader standardheader headerextra extendedheader payload =>
      [userHeader.bytes, standardheader.bytes, headerextra.bytes,
        extendedheader.bytes, payload]

/-- They are what `writev` sends. -/
theorem flatten_iovecs (f : Frame) : f.iovecs.flatten = f.bytes := by
  cases f with
  | registerApp userHeader message description => simp [iovecs, bytes]
  | registerContext userHeader message description => simp [iovecs, bytes]
  | sendLog userHeader standardheader headerextra extendedheader payload =>
      simp [iovecs, bytes]

/-- The traces of a `send`, one after the other in the same array. -/
def trace (f : Frame) (out : Vector UInt8 outSize) :
    Option (Vector UInt8 outSize) :=
  f.iovecs.foldlM traceIovec out

end Frame

end IviLogging.DltCpp
