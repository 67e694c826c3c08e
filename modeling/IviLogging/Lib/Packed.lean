/-
Reading the fields of a packed, little-endian structure one after the
other: each reader takes the bytes of one field off the front, and
undoes the corresponding writer of LittleEndian.lean whatever follows.
-/
import IviLogging.Lib.Format
import IviLogging.Lib.LittleEndian

namespace Packed

open LittleEndian

/-- A byte field. -/
def readUInt8 : Reader UInt8 UInt8
  | [] => none
  | b :: bs => some (b, bs)

/-- A signed byte field. -/
def readInt8 : Reader UInt8 Int8
  | [] => none
  | b :: bs => some (b.toInt8, bs)

/-- A 16-bit field. -/
def readUInt16 : Reader UInt8 UInt16 := fun bs =>
  (Reader.take 2 bs).map fun (w, bs) => (toUInt16 w, bs)

/-- A 32-bit field. -/
def readUInt32 : Reader UInt8 UInt32 := fun bs =>
  (Reader.take 4 bs).map fun (w, bs) => (toUInt32 w, bs)

/-- A signed 32-bit field. -/
def readInt32 : Reader UInt8 Int32 := fun bs =>
  (Reader.take 4 bs).map fun (w, bs) => (toInt32 w, bs)

@[simp] theorem readUInt8_cons (v : UInt8) (rest : List UInt8) :
    readUInt8 (v :: rest) = some (v, rest) := rfl

@[simp] theorem readInt8_cons (v : Int8) (rest : List UInt8) :
    readInt8 (v.toUInt8 :: rest) = some (v, rest) := by
  simp [readInt8]

@[simp] theorem readUInt16_append (v : UInt16) (rest : List UInt8) :
    readUInt16 (ofUInt16 v ++ rest) = some (v, rest) := by
  unfold readUInt16
  rw [Reader.take_append (length_ofUInt16 v)]
  simp

@[simp] theorem readUInt32_append (v : UInt32) (rest : List UInt8) :
    readUInt32 (ofUInt32 v ++ rest) = some (v, rest) := by
  unfold readUInt32
  rw [Reader.take_append (length_ofUInt32 v)]
  simp

@[simp] theorem readInt32_append (v : Int32) (rest : List UInt8) :
    readInt32 (ofInt32 v ++ rest) = some (v, rest) := by
  unfold readInt32
  rw [Reader.take_append (length_ofInt32 v)]
  simp

end Packed
