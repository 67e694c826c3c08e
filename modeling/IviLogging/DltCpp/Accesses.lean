/-
The accesses of the message's writers to `m_content`.

# Why a trace

`LogData` is a list under the copies: a copy that left the array would
make it longer and go unnoticed. Here the same statements are run on a
message and a trace of what they touch (`Traced`). A `memcpy` touches
what it copies, `snprintf` may touch all of the bytes it is given, and
the length behind a reserved pointer is stored as its two bytes. Nothing
reads the array before the message is sent.

# The same statements

`Traced.call` is `LogData.call` with the trace (`data_call`), and its
trace is all that happens to the array (`Proofs/Accesses.lean`): replaying
it on the array of the fresh message gives the array of the message.
-/
import IviLogging.DltCpp.LogData

namespace IviLogging.DltCpp

open DltConstants
open LittleEndian (encode ofUInt16 ofUInt32)

-- ============================================================= accesses

/-- Bytes of the array that may be written, and those that are. -/
structure Access where
  offset : Nat
  size : Nat
  stored : List UInt8

namespace Access

/-- A copy touches the bytes it copies. -/
def copy (offset : Nat) (bytes : List UInt8) : Access :=
  ⟨offset, bytes.length, bytes⟩

/-- The array after an access. -/
def apply (content : List UInt8) (a : Access) : List UInt8 :=
  Buffer.write content a.offset a.stored

/-- The access stays in an array of `n` bytes, and what is stored in it. -/
def InRange (n : Nat) (a : Access) : Prop :=
  a.stored.length ≤ a.size ∧ a.offset + a.size ≤ n

end Access

/-- The subtractions of `getAvailableSpace`, minuend first: the second one
is reached when the comparison lets it. -/
def LogData.subtractions (d : LogData) (infoSize : Nat) : List (Nat × Nat) :=
  if d.isFull then []
  else if infoSize ≤ sizeTSub maxContentSize d.contentSize then
    [(maxContentSize, d.contentSize),
      (sizeTSub maxContentSize d.contentSize, infoSize)]
  else [(maxContentSize, d.contentSize)]

-- ========================================================== the writers

/-- A message, and the accesses made to its array so far. -/
structure Traced where
  data : LogData
  accesses : List Access

namespace Traced

/-- `writeBuffer`. -/
def writeBuffer (t : Traced) (v : List UInt8) : Traced where
  data := t.data.writeBuffer v
  accesses := t.accesses
    ++ if !t.data.isFull then [.copy t.data.contentSize v] else []

/-- `writeType`. -/
def writeType (t : Traced) (type : UInt32) : Traced :=
  let t := t.writeBuffer (ofUInt32 type)
  { t with data := { t.data with argsCount := t.data.argsCount + 1 } }

variable [DltConstants]

/-- `addMessageTooLargeIndication`. -/
def addMessageTooLargeIndication (t : Traced) : Traced where
  data := t.data.addMessageTooLargeIndication
  accesses := t.accesses
    ++ if !t.data.isFull then
        [.copy t.data.contentSize LogData.messageTooLargeData]
      else []

/-- `checkOverflow`. -/
def checkOverflow (t : Traced) (additionalSize : Nat) : Traced × Bool :=
  let t :=
    if !t.data.isFull && t.data.getAvailableSpace additionalSize == 0 then
      t.addMessageTooLargeIndication
    else t
  (t, !t.data.isFull)

/-- `writeWithTypeInfo`. -/
def writeWithTypeInfo (t : Traced) (type : UInt32) (value : List UInt8) :
    Traced :=
  let (t, hasRoom) := t.checkOverflow (value.length + sizeofDltTypeInfo)
  if hasRoom then (t.writeType type).writeBuffer value else t

/-- `snprintf` into the `n` bytes behind the reserved length, and the
length stored there. -/
def formatInto (t : Traced) (n stringSizeInBuffer : Nat)
    (text : Option FormattedText) : Traced :=
  let size := t.data.contentSize
  let d := t.data.reserve
  let format : Access := ⟨d.contentSize, n, LogData.snprintfStored n text⟩
  let length : Access :=
    .copy size (ofUInt16 (UInt16.ofNat stringSizeInBuffer))
  { data := { d with
      content := length.apply (format.apply d.content)
      contentSize := d.contentSize + stringSizeInBuffer }
    accesses := t.accesses ++ [format, length] }

/-- `writeFormatted`. -/
def writeFormatted (t : Traced) (text : Option FormattedText) : Traced :=
  let spaceForStringContent := t.data.getAvailableSpace
    (sizeofDltStringLengthType + sizeofDltTypeInfo + 1)
  let (t, overflow) :=
    if 0 < spaceForStringContent then
      let t := t.writeType (dltTypeInfoStrg ||| dltScodUtf8)
      let stringSize := LogData.snprintfResult text
      let stringSizeInBuffer :=
        min ((stringSize + 1) % 2 ^ 64) spaceForStringContent
      (t.formatInto spaceForStringContent stringSizeInBuffer text,
        decide (spaceForStringContent < stringSize))
    else (t, true)
  if overflow then t.addMessageTooLargeIndication else t

/-- `write(char const*, size_t)`. -/
def writeString (t : Traced) (v : List UInt8) : Traced :=
  let spaceForStringContent := min v.length
    (t.data.getAvailableSpace
      (sizeofDltStringLengthType + sizeofDltTypeInfo + 1))
  let t := if 0 < spaceForStringContent then
      let t := t.writeType (dltTypeInfoStrg ||| dltScodUtf8)
      let t := t.writeBuffer (ofUInt16 (UInt16.ofNat spaceForStringContent + 1))
      let t := t.writeBuffer (v.take spaceForStringContent)
      t.writeBuffer [0]
    else t
  if spaceForStringContent < v.length then
    t.addMessageTooLargeIndication
  else t

/-- One call. -/
def call (t : Traced) : WriteCall → Traced
  | .bool v => t.writeWithTypeInfo dltTypeInfoBool (encode 1 v.toNat)
  | .float bits => t.writeWithTypeInfo (dltTypeInfoFloa ||| dltTyle32Bit)
      (encode 4 bits.toNat)
  | .double bits => t.writeWithTypeInfo (dltTypeInfoFloa ||| dltTyle64Bit)
      (encode 8 bits.toNat)
  | .uint64 v => t.writeWithTypeInfo
      (dltTypeInfoUint ||| dltTyle64Bit ||| t.data.hexCoding)
      (encode 8 v.toNat)
  | .int64 v => t.writeWithTypeInfo (dltTypeInfoSint ||| dltTyle64Bit)
      (encode 8 v.toUInt64.toNat)
  | .uint32 v => t.writeWithTypeInfo
      (dltTypeInfoUint ||| dltTyle32Bit ||| t.data.hexCoding)
      (encode 4 v.toNat)
  | .int32 v => t.writeWithTypeInfo (dltTypeInfoSint ||| dltTyle32Bit)
      (encode 4 v.toUInt32.toNat)
  | .uint16 v => t.writeWithTypeInfo
      (dltTypeInfoUint ||| dltTyle16Bit ||| t.data.hexCoding)
      (encode 2 v.toNat)
  | .int16 v => t.writeWithTypeInfo (dltTypeInfoSint ||| dltTyle16Bit)
      (encode 2 v.toUInt16.toNat)
  | .uint8 v => t.writeWithTypeInfo
      (dltTypeInfoUint ||| dltTyle8Bit ||| t.data.hexCoding)
      (encode 1 v.toNat)
  | .int8 v => t.writeWithTypeInfo (dltTypeInfoSint ||| dltTyle8Bit)
      (encode 1 v.toUInt8.toNat)
  | .string v => t.writeString v
  | .cString v => t.writeString (cText v)
  | .formatted text => t.writeFormatted (some text)
  | .setHexEnabled enabled =>
      { t with data := t.data.setHexEnabled enabled }

/-- A sequence of calls. -/
def calls (t : Traced) (cs : List WriteCall) : Traced := cs.foldl call t

end Traced

end IviLogging.DltCpp
