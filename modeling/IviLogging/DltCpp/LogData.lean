/-
The DLT message under construction (`DltCppLogData`), written as the
sources write it.

# The array

`content` is the whole 16384-byte array, of which the first
`contentSize` bytes are the payload. Every write copies into that array
at `contentSize`; the three space checks (`getAvailableSpace`,
`checkOverflow` and the comparison inside `writeFormatted`) decide what
is copied, and `addMessageTooLargeIndication` closes the message with
the marker that `maxContentSize` keeps room for.

`size_t` differences wrap (`sizeTSub`), so an underflow would show. The
host is little-endian, as every DLT target of the sources is: a value
is copied as its bytes, lowest first.

# The calls

The `write` overloads differ in their type word and in the bytes of their
value, and each is written out under its own type. A `WriteCall` is one of
them, as a statement makes it; the writes of the destructor (`writeTrailer`)
are calls as well (`trailerCalls` in Proofs/LogData.lean), so what holds of
any calls holds of a whole message.
-/
import IviLogging.Common
import IviLogging.DltCpp.DltUser
import IviLogging.Lib.Buffer
import IviLogging.Lib.LittleEndian
import IviLogging.Lib.Printf

namespace IviLogging.DltCpp

open DltConstants
open LittleEndian (encode ofUInt16 ofUInt32)

/-- A context object, by its address. -/
abbrev ContextId := Nat

-- ============================================================ constants

/-- `maxMessageSize`: the bytes of `m_content`. -/
def maxMessageSize : Nat := 16384

/-- `messageTooLargeStringLength`, the NUL included. -/
def messageTooLargeStringLength : Nat := 12

/-- `MessageTooLargeData::message`. -/
def messageTooLargeText : List UInt8 :=
  ascii ['.', '.', 't', 'r', 'u', 'n', 'c', 'a', 't', 'e', 'd']

/-- `sizeof(DltTypeInfo)`. -/
def sizeofDltTypeInfo : Nat := 4

/-- `sizeof(DltStringLengthType)`. -/
def sizeofDltStringLengthType : Nat := 2

/-- `sizeof(MessageTooLargeData)`, a packed structure. -/
def sizeofMessageTooLargeData : Nat :=
  sizeofDltTypeInfo + sizeofDltStringLengthType + messageTooLargeStringLength

/-- `maxContentSize`: what is left when the marker has its place. -/
def maxContentSize : Nat := maxMessageSize - sizeofMessageTooLargeData

/-- The difference of two `size_t`. -/
def sizeTSub (a b : Nat) : Nat := (a + 2 ^ 64 - b) % 2 ^ 64

/-- A difference that does not underflow is the difference. -/
theorem sizeTSub_of_le {a b : Nat} (hb : b ≤ a) (ha : a < 2 ^ 64) :
    sizeTSub a b = a - b := by
  unfold sizeTSub
  omega

-- ============================================================== the state

/-- A text `snprintf` can format: its length fits the `int` it is
reported in. -/
structure FormattedText where
  chars : List UInt8
  length_lt : chars.length < 2 ^ 31

/-- The text of an outcome. -/
def FormattedText.ofOutcome : Printf.Outcome → Option FormattedText
  | .printed text => if h : text.length < 2 ^ 31 then some ⟨text, h⟩ else none
  | .failed => none

/-- `DltCppLogData`. -/
structure LogData where
  content : List UInt8
  contentSize : Nat
  context : ContextId
  data : LogInfo
  dltLogLevel : Int
  enabled : Bool
  argsCount : UInt8
  isFull : Bool
  messageCount : UInt8

namespace LogData

/-- The bytes of the message. -/
def payload (d : LogData) : List UInt8 := d.content.take d.contentSize

variable [DltConstants]

/-- `isHexEnabled`, read through `m_data`. -/
def isHexEnabled (d : LogData) : Bool := d.data.hexEnabled

/-- `getAvailableSpace`. -/
def getAvailableSpace (d : LogData) (infoSize : Nat) : Nat :=
  if !d.isFull && decide (infoSize ≤ sizeTSub maxContentSize d.contentSize) then
    sizeTSub (sizeTSub maxContentSize d.contentSize) infoSize
  else 0

/-- The bytes of a `MessageTooLargeData`. -/
def messageTooLargeData : List UInt8 :=
  ofUInt32 (dltTypeInfoStrg ||| dltScodUtf8)
    ++ ofUInt16 (UInt16.ofNat messageTooLargeStringLength)
    ++ (messageTooLargeText ++ [0])

/-- `addMessageTooLargeIndication`. -/
def addMessageTooLargeIndication (d : LogData) : LogData :=
  if !d.isFull then
    { d with
      content := Buffer.write d.content d.contentSize messageTooLargeData
      contentSize := d.contentSize + sizeofMessageTooLargeData
      argsCount := d.argsCount + 1
      isFull := true }
  else d

/-- `checkOverflow`: the message afterwards, and whether it has room. -/
def checkOverflow (d : LogData) (additionalSize : Nat) : LogData × Bool :=
  let d := if !d.isFull && d.getAvailableSpace additionalSize == 0 then
      d.addMessageTooLargeIndication
    else d
  (d, !d.isFull)

/-- `writeBuffer`. -/
def writeBuffer (d : LogData) (v : List UInt8) : LogData :=
  if !d.isFull then
    { d with
      content := Buffer.write d.content d.contentSize v
      contentSize := d.contentSize + v.length }
  else d

/-- `writeType`: the counter moves whether or not the word was written. -/
def writeType (d : LogData) (type : UInt32) : LogData :=
  let d := d.writeBuffer (ofUInt32 type)
  { d with argsCount := d.argsCount + 1 }

/-- `reserve` for a `DltStringLengthType`: step over it unwritten. -/
def reserve (d : LogData) : LogData :=
  { d with contentSize := d.contentSize + sizeofDltStringLengthType }

/-- `writeWithTypeInfo`, over the bytes of the value. -/
def writeWithTypeInfo (d : LogData) (type : UInt32) (value : List UInt8) :
    LogData :=
  let (d, hasRoom) := d.checkOverflow (value.length + sizeofDltTypeInfo)
  if hasRoom then (d.writeType type).writeBuffer value else d

/-- What `snprintf(buf, n, ..)` stores: at most `n - 1` characters of the
formatted text and a NUL. `none` is a call that fails. -/
def snprintfStored (n : Nat) : Option FormattedText → List UInt8
  | some text => if n = 0 then [] else text.chars.take (n - 1) ++ [0]
  | none => []

/-- What `snprintf` returns, cast to `size_t`: the length of the whole
formatted text, or the largest `size_t` for the negative result of a
call that fails. -/
def snprintfResult : Option FormattedText → Nat
  | some text => text.chars.length
  | none => 2 ^ 64 - 1

/-- `writeFormatted`.

The text is formatted in place behind a reserved length field, which is
filled in afterwards. -/
def writeFormatted (d : LogData) (text : Option FormattedText) : LogData :=
  let spaceForStringContent :=
    d.getAvailableSpace (sizeofDltStringLengthType + sizeofDltTypeInfo + 1)
  let (d, overflow) :=
    if 0 < spaceForStringContent then
      let d := d.writeType (dltTypeInfoStrg ||| dltScodUtf8)
      -- the length field is stepped over, and written when it is known
      let size := d.contentSize
      let d := d.reserve
      let content := Buffer.write d.content d.contentSize
        (snprintfStored spaceForStringContent text)
      let stringSize := snprintfResult text
      let stringSizeInBuffer :=
        min ((stringSize + 1) % 2 ^ 64) spaceForStringContent
      let content :=
        Buffer.write content size (ofUInt16 (UInt16.ofNat stringSizeInBuffer))
      ({ d with
          content := content
          contentSize := d.contentSize + stringSizeInBuffer },
        -- the space counts the NUL, which the size does not
        decide (spaceForStringContent < stringSize))
    else (d, true)
  if overflow then d.addMessageTooLargeIndication else d

/-- `writeFormatted`, from the format and its arguments; `none` is what
the language leaves open. -/
def writeFormat (d : LogData) (format : List UInt8)
    (args : List Printf.Arg) : Option LogData :=
  (Printf.snprintf format args).map fun o =>
    d.writeFormatted (FormattedText.ofOutcome o)

/-- `write(char const*, size_t)`. -/
def writeString (d : LogData) (v : List UInt8) : LogData :=
  let spaceForStringContent := min v.length
    (d.getAvailableSpace (sizeofDltStringLengthType + sizeofDltTypeInfo + 1))
  let d := if 0 < spaceForStringContent then
      let d := d.writeType (dltTypeInfoStrg ||| dltScodUtf8)
      -- the length counts the NUL
      let d := d.writeBuffer (ofUInt16 (UInt16.ofNat spaceForStringContent + 1))
      let d := d.writeBuffer (v.take spaceForStringContent)
      d.writeBuffer [0]
    else d
  if spaceForStringContent < v.length then
    d.addMessageTooLargeIndication
  else d

/-- `write(char const*)`. -/
def writeCString (d : LogData) (v : List UInt8) : LogData :=
  d.writeString (cText v)

/-- `write(bool)`. -/
def writeBool (d : LogData) (v : Bool) : LogData :=
  d.writeWithTypeInfo dltTypeInfoBool (encode 1 v.toNat)

/-- `write(float)`, over the bits of the value. -/
def writeFloat (d : LogData) (bits : UInt32) : LogData :=
  d.writeWithTypeInfo (dltTypeInfoFloa ||| dltTyle32Bit)
    (encode 4 bits.toNat)

/-- `write(double)`, over the bits of the value. -/
def writeDouble (d : LogData) (bits : UInt64) : LogData :=
  d.writeWithTypeInfo (dltTypeInfoFloa ||| dltTyle64Bit)
    (encode 8 bits.toNat)

/-- `isHexEnabled() ? DLT_SCOD_HEX : 0`. -/
def hexCoding (d : LogData) : UInt32 :=
  if d.isHexEnabled then dltScodHex else 0

/-- `write(uint64_t)`. -/
def writeUInt64 (d : LogData) (v : UInt64) : LogData :=
  d.writeWithTypeInfo (dltTypeInfoUint ||| dltTyle64Bit ||| d.hexCoding)
    (encode 8 v.toNat)

/-- `write(int64_t)`. -/
def writeInt64 (d : LogData) (v : Int64) : LogData :=
  d.writeWithTypeInfo (dltTypeInfoSint ||| dltTyle64Bit)
    (encode 8 v.toUInt64.toNat)

/-- `write(uint32_t)`. -/
def writeUInt32 (d : LogData) (v : UInt32) : LogData :=
  d.writeWithTypeInfo (dltTypeInfoUint ||| dltTyle32Bit ||| d.hexCoding)
    (encode 4 v.toNat)

/-- `write(int32_t)`. -/
def writeInt32 (d : LogData) (v : Int32) : LogData :=
  d.writeWithTypeInfo (dltTypeInfoSint ||| dltTyle32Bit)
    (encode 4 v.toUInt32.toNat)

/-- `write(uint16_t)`. -/
def writeUInt16 (d : LogData) (v : UInt16) : LogData :=
  d.writeWithTypeInfo (dltTypeInfoUint ||| dltTyle16Bit ||| d.hexCoding)
    (encode 2 v.toNat)

/-- `write(int16_t)`. -/
def writeInt16 (d : LogData) (v : Int16) : LogData :=
  d.writeWithTypeInfo (dltTypeInfoSint ||| dltTyle16Bit)
    (encode 2 v.toUInt16.toNat)

/-- `write(uint8_t)`. -/
def writeUInt8 (d : LogData) (v : UInt8) : LogData :=
  d.writeWithTypeInfo (dltTypeInfoUint ||| dltTyle8Bit ||| d.hexCoding)
    (encode 1 v.toNat)

/-- `write(int8_t)`. -/
def writeInt8 (d : LogData) (v : Int8) : LogData :=
  d.writeWithTypeInfo (dltTypeInfoSint ||| dltTyle8Bit)
    (encode 1 v.toUInt8.toNat)

/-- `LogInfo::setHexEnabled` on the statement's description, which the
message reads through `m_data`. -/
def setHexEnabled (d : LogData) (enabled : Bool) : LogData :=
  { d with data := { d.data with hexEnabled := enabled } }

-- ======================================================== the destructor

/-- The separator in front of the source code location: 52 blanks, a bar
and a blank. -/
def locationSeparator : List UInt8 := List.replicate 52 32 ++ [124, 32]

/-- The writes of `~DltCppLogData`, made before the message is handed to
the daemon connection. -/
def writeTrailer (d : LogData) (base : LogContextBase)
    (thread : ThreadInformation) : LogData :=
  let d := if base.enableSourceCodeLocationInfo then
      let d := d.writeCString locationSeparator
      let d := d.writeCString d.data.getFileName
      let d := if d.data.lineNumber ≠ -1 then d.writeInt32 d.data.lineNumber
        else d
      match d.data.prettyFunction with
      | some f => d.writeCString f
      | none => d
    else d
  if base.enableThreadInfo then
    let d := d.writeCString
      (ascii ['T', 'h', 'r', 'e', 'a', 'd', 'I', 'D'])
    let d := d.writeInt32 thread.id
    d.writeCString thread.name
  else d

/-- A message as its members are initialised, over whatever the content
array holds. -/
def fresh (memory : Vector UInt8 maxMessageSize) (context : ContextId)
    (data : LogInfo) (dltLogLevel : Int) (enabled : Bool)
    (messageCount : UInt8) : LogData where
  content := memory.toList
  contentSize := 0
  context := context
  data := data
  dltLogLevel := dltLogLevel
  enabled := enabled
  argsCount := 0
  isFull := false
  messageCount := messageCount

end LogData

-- ============================================================ the calls

/-- A call made on a message while its statement is evaluated: one of
the `write` overloads, `writeFormatted` with the text it formats, or the
hex switch of the statement. `string` stands for
`write(char const*, size_t)`, `write(string_view)` and `write(string)`,
which all pass bytes and a length. -/
inductive WriteCall
  | bool (v : Bool)
  | float (bits : UInt32)
  | double (bits : UInt64)
  | uint64 (v : UInt64)
  | int64 (v : Int64)
  | uint32 (v : UInt32)
  | int32 (v : Int32)
  | uint16 (v : UInt16)
  | int16 (v : Int16)
  | uint8 (v : UInt8)
  | int8 (v : Int8)
  | string (v : List UInt8)
  | cString (v : List UInt8)
  | formatted (text : FormattedText)
  | setHexEnabled (enabled : Bool)

namespace LogData

variable [DltConstants]

/-- The message after one call. -/
def call (d : LogData) : WriteCall → LogData
  | .bool v => d.writeBool v
  | .float bits => d.writeFloat bits
  | .double bits => d.writeDouble bits
  | .uint64 v => d.writeUInt64 v
  | .int64 v => d.writeInt64 v
  | .uint32 v => d.writeUInt32 v
  | .int32 v => d.writeInt32 v
  | .uint16 v => d.writeUInt16 v
  | .int16 v => d.writeInt16 v
  | .uint8 v => d.writeUInt8 v
  | .int8 v => d.writeInt8 v
  | .string v => d.writeString v
  | .cString v => d.writeCString v
  | .formatted text => d.writeFormatted (some text)
  | .setHexEnabled enabled => d.setHexEnabled enabled

/-- The message after a sequence of calls. -/
def calls (d : LogData) (cs : List WriteCall) : LogData := cs.foldl call d

end LogData

end IviLogging.DltCpp
