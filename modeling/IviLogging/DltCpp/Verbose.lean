/-
The DLT verbose argument format, and the message as a reader sees it.

# Arguments

An argument is a 32-bit type-info word and then either the value or a
16-bit length and that many bytes, the last of them a NUL.
`verboseFormat` packages the writer and the reader with their law, so
whole payloads split back into arguments by `Format.readAll`. The reader
knows the documented type words and nothing of the writer.

# Messages

`Message` is what the payload is for: a list of arguments under a byte
budget, closed by a marker once something did not fit. Its operations
say which arguments a call leaves in the message without a byte of
encoding; `Proofs/LogData.lean` shows that the buffer code refines them.

# Calls

`WriteCall.arg` is the argument that a call asks for, under the hex switch
as it stands, and `writtenValues` are those of a whole statement: what a
message with room enough would hold.
-/
import IviLogging.DltCpp.LogData
import IviLogging.Lib.Format

namespace IviLogging.DltCpp

open DltConstants
open LittleEndian (encode decode ofUInt16 ofUInt32 toUInt32)

-- =========================================================== arguments

/-- One argument of a message: a fixed-size value, as its bits, or a
string, as the bytes in front of its NUL. -/
inductive Arg
  | scalar (t : ScalarType) (bits : BitVec (8 * t.bytes))
  | strg (s : List UInt8)
  deriving DecidableEq

namespace Arg

/-- The scalar argument with the given number as its bits. -/
def ofNat (t : ScalarType) (n : Nat) : Arg := .scalar t (BitVec.ofNat _ n)

/-- The type an argument announces. -/
def type : Arg → ArgType
  | .scalar t _ => .scalar t
  | .strg _ => .strg

/-- The string that marks a message as truncated. -/
def truncated : Arg := .strg messageTooLargeText

/-- What fits the format: a string's length field has 16 bits. -/
def Valid : Arg → Prop
  | .scalar _ _ => True
  | .strg s => s.length + 1 < 2 ^ 16

/-- The bytes an argument takes. -/
def size : Arg → Nat
  | .scalar t _ => sizeofDltTypeInfo + t.bytes
  | .strg s => sizeofDltTypeInfo + sizeofDltStringLengthType + s.length + 1

theorem size_pos (a : Arg) : 0 < a.size := by
  cases a <;> simp only [size, sizeofDltTypeInfo] <;> omega

variable [DltConstants]

/-- An argument in the payload. -/
def write : Arg → List UInt8
  | .scalar t bits => ofUInt32 (typeInfo (.scalar t)) ++ encode t.bytes bits.toNat
  | .strg s =>
      ofUInt32 (typeInfo .strg) ++ ofUInt16 (UInt16.ofNat (s.length + 1))
        ++ (s ++ [0])

/-- The type a type-info word announces. -/
def typeOf (word : UInt32) : Option ArgType :=
  ArgType.all.find? fun t => typeInfo t == word

/-- Read an argument off the front of a payload. -/
def read : Reader UInt8 Arg := fun bs => do
  let (word, bs) ← Reader.take sizeofDltTypeInfo bs
  match typeOf (toUInt32 word) with
  | some (.scalar t) =>
      let (value, bs) ← Reader.take t.bytes bs
      some (ofNat t (decode value), bs)
  | some .strg =>
      let (length, bs) ← Reader.take sizeofDltStringLengthType bs
      let (s, bs) ← Reader.take (decode length) bs
      if s.getLast? = some 0 then some (.strg s.dropLast, bs) else none
  | none => none

theorem length_write (a : Arg) : a.write.length = a.size := by
  cases a with
  | scalar t bits => simp [write, size, sizeofDltTypeInfo]
  | strg s =>
      simp only [write, size, sizeofDltTypeInfo, sizeofDltStringLengthType,
        List.length_append, LittleEndian.length_ofUInt32,
        LittleEndian.length_ofUInt16, List.length_singleton]
      omega

end Arg

section Reading

variable [DltUser]

/-- Distinct words make the reader's table exact. -/
theorem Arg.typeOf_typeInfo (t : ArgType) :
    Arg.typeOf (typeInfo t) = some t := by
  have hsome : (ArgType.all.find? fun u => typeInfo u == typeInfo t).isSome := by
    rw [List.find?_isSome]
    exact ⟨t, t.mem_all, beq_self_eq_true _⟩
  obtain ⟨u, hu⟩ := Option.isSome_iff_exists.mp hsome
  have heq : typeInfo u = typeInfo t := by
    simpa using List.find?_some hu
  rw [Arg.typeOf, hu, DltUser.typeInfo_injective heq]

/-- A written argument is read back, whatever follows it: the type word says
how many bytes a scalar has, and the length of a string is in front of its
characters. -/
theorem Arg.read_write {a : Arg} (hv : a.Valid) (rest : List UInt8) :
    Arg.read (a.write ++ rest) = some (a, rest) := by
  cases a with
  | scalar t bits =>
      have hlt : bits.toNat < 256 ^ t.bytes := by
        have h := bits.isLt
        rwa [Nat.pow_mul] at h
      simp only [Arg.write, Arg.read, List.append_assoc]
      rw [Reader.take_append (n := sizeofDltTypeInfo)
        (LittleEndian.length_ofUInt32 _)]
      simp only [Option.bind_eq_bind, Option.bind_some,
        LittleEndian.toUInt32_ofUInt32, Arg.typeOf_typeInfo]
      rw [Reader.take_append (LittleEndian.length_encode _ _)]
      simp only [Option.bind_some, LittleEndian.decode_encode_of_lt hlt,
        Arg.ofNat, BitVec.ofNat_toNat, BitVec.setWidth_eq]
  | strg s =>
      have hlt : s.length + 1 < 2 ^ 16 := hv
      have hlen : decode (ofUInt16 (UInt16.ofNat (s.length + 1)))
          = s.length + 1 := by
        rw [ofUInt16, UInt16.toNat_ofNat', Nat.mod_eq_of_lt hlt]
        exact LittleEndian.decode_encode_of_lt hlt
      simp only [Arg.write, Arg.read, List.append_assoc]
      rw [Reader.take_append (n := sizeofDltTypeInfo)
        (LittleEndian.length_ofUInt32 _)]
      simp only [Option.bind_eq_bind, Option.bind_some,
        LittleEndian.toUInt32_ofUInt32, Arg.typeOf_typeInfo]
      rw [Reader.take_append (n := sizeofDltStringLengthType)
        (LittleEndian.length_ofUInt16 _)]
      simp only [Option.bind_some, hlen]
      rw [← List.append_assoc, Reader.take_append (by simp)]
      simp

/-- The payload format. -/
def verboseFormat : Format UInt8 Arg where
  Valid := Arg.Valid
  write := Arg.write
  read := Arg.read
  read_write hv rest := Arg.read_write hv rest
  write_ne_nil {a} _ h := by
    have hlen := a.length_write
    rw [h, List.length_nil] at hlen
    exact absurd hlen.symm (Nat.ne_of_gt a.size_pos)

/-- The arguments a payload encodes; `none` unless it is used up. -/
def decodePayload (payload : List UInt8) : Option (List Arg) :=
  verboseFormat.readAll payload

end Reading

-- ============================================================ messages

/-- A message as its reader sees it. -/
structure Message where
  args : List Arg := []
  full : Bool := false

namespace Message

/-- The bytes a message takes. -/
def size (m : Message) : Nat := (m.args.map Arg.size).sum

/-- The message with one more argument. -/
def add (m : Message) (a : Arg) : Message := { m with args := m.args ++ [a] }

/-- The message closed by the marker. -/
def truncate (m : Message) : Message where
  args := m.args ++ [.truncated]
  full := true

/-- The characters a string argument can still have. -/
def room (m : Message) : Nat := maxContentSize - (m.size + 7)

/-- Log a scalar. One that would use the last byte is already too
large. -/
def putScalar (m : Message) (t : ScalarType) (n : Nat) : Message :=
  if m.full then m
  else if m.size + (t.bytes + sizeofDltTypeInfo) < maxContentSize then
    m.add (.ofNat t n)
  else m.truncate

/-- Log a string: all of it, or what there is room for and the marker.
An empty string leaves no trace. -/
def putString (m : Message) (s : List UInt8) : Message :=
  if m.full then m
  else if s.length ≤ m.room then
    if s = [] then m else m.add (.strg s)
  else if m.room = 0 then m.truncate
  else (m.add (.strg (s.take m.room))).truncate

/-- Log a formatted text. The room counts its NUL, but a text of exactly
the room's length is cut by one character without a marker. -/
def putFormatted (m : Message) (text : List UInt8) : Message :=
  if m.full then m
  else if m.room = 0 then m.truncate
  else if text.length ≤ m.room then
    m.add (.strg (text.take (m.room - 1)))
  else (m.add (.strg (text.take (m.room - 1)))).truncate

/-- Log a value. -/
def put (m : Message) : Arg → Message
  | .scalar t bits => m.putScalar t bits.toNat
  | .strg s => m.putString s

theorem size_add (m : Message) (a : Arg) : (m.add a).size = m.size + a.size := by
  simp [size, add]

end Message

-- ============================================== what the calls ask for

/-- The argument a call asks for, under the hex switch in force; `none`
for a call that asks for none. -/
def WriteCall.arg (hex : Bool) : WriteCall → Option Arg
  | .bool v => some (.ofNat .bool v.toNat)
  | .float bits => some (.ofNat .floa32 bits.toNat)
  | .double bits => some (.ofNat .floa64 bits.toNat)
  | .uint64 v => some (.ofNat (.uint .bit64 hex) v.toNat)
  | .int64 v => some (.ofNat (.sint .bit64) v.toUInt64.toNat)
  | .uint32 v => some (.ofNat (.uint .bit32 hex) v.toNat)
  | .int32 v => some (.ofNat (.sint .bit32) v.toUInt32.toNat)
  | .uint16 v => some (.ofNat (.uint .bit16 hex) v.toNat)
  | .int16 v => some (.ofNat (.sint .bit16) v.toUInt16.toNat)
  | .uint8 v => some (.ofNat (.uint .bit8 hex) v.toNat)
  | .int8 v => some (.ofNat (.sint .bit8) v.toUInt8.toNat)
  | .string v => some (.strg v)
  | .cString v => some (.strg (cText v))
  | .formatted text => some (.strg text.chars)
  | .setHexEnabled _ => none

/-- The hex switch after a call. -/
def WriteCall.hexAfter (hex : Bool) : WriteCall → Bool
  | .setHexEnabled enabled => enabled
  | _ => hex

/-- The values a sequence of calls logs, in order, each with the hex
switch in force at its call. -/
def writtenValues (hex : Bool) : List WriteCall → List Arg
  | [] => []
  | c :: cs => (c.arg hex).toList ++ writtenValues (c.hexAfter hex) cs

/-- A message after one call. -/
def Message.call (m : Message) (hex : Bool) (c : WriteCall) : Message :=
  match c with
  | .formatted text => m.putFormatted text.chars
  | c =>
      match c.arg hex with
      | some a => m.put a
      | none => m

/-- A message after a sequence of calls. -/
def Message.calls (m : Message) (hex : Bool) : List WriteCall → Message
  | [] => m
  | c :: cs => (m.call hex c).calls (c.hexAfter hex) cs

end IviLogging.DltCpp
