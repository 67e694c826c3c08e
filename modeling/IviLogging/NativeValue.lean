/-
The values that the console and the DltCpp backend both take.

`operator<<` hands a native value to `write` of each backend, and there
the language chooses among the overloads. Neither backend has one for
every type: on the console a `signed char` is promoted to an `int`, in
DltCpp a `char` is, which is signed; and DltCpp has no overload for the
address of an object, so that it is converted to a `bool`. A `long long`
has no best overload in DltCpp, where `long` is the type of 64 bits, and
does not compile. Strings are without NULs.
-/
import IviLogging.DltCpp.LogData
import IviLogging.Stream.StreamLogData

namespace IviLogging

/-- The bytes of a string, none of which is a NUL. -/
structure NulFree where
  bytes : List UInt8
  nul : 0 ∉ bytes

/-- A native value, by its type. -/
inductive NativeValue
  | bool (v : Bool)
  | char (v : Int8)
  | signedChar (v : Int8)
  | unsignedChar (v : UInt8)
  | short (v : Int16)
  | unsignedShort (v : UInt16)
  | int (v : Int32)
  | unsignedInt (v : UInt32)
  | long (v : Int64)
  | unsignedLong (v : UInt64)
  | float (bits : UInt32)
  | double (bits : UInt64)
  | pointer (address : UInt64)
  | cString (v : NulFree)
  | stringView (v : NulFree)
  | string (v : NulFree)

namespace NativeValue

/-- The overload of `DltCppLogData::write`. -/
def dltCppCall : NativeValue → DltCpp.WriteCall
  | .bool v => .bool v
  | .char v => .int32 v.toInt32
  | .signedChar v => .int8 v
  | .unsignedChar v => .uint8 v
  | .short v => .int16 v
  | .unsignedShort v => .uint16 v
  | .int v => .int32 v
  | .unsignedInt v => .uint32 v
  | .long v => .int64 v
  | .unsignedLong v => .uint64 v
  | .float bits => .float bits
  | .double bits => .double bits
  | .pointer address => .bool (decide (address ≠ 0))
  | .cString v => .cString v.bytes
  | .stringView v => .string v.bytes
  | .string v => .string v.bytes

/-- The overload of `StreamLogData::write`. -/
def streamCall : NativeValue → Stream.WriteCall
  | .bool v => .bool v
  | .char v => .char v
  | .signedChar v => .int v.toInt32
  | .unsignedChar v => .unsignedChar v
  | .short v => .short v
  | .unsignedShort v => .unsignedShort v
  | .int v => .int v
  | .unsignedInt v => .unsignedInt v
  | .long v => .long v
  | .unsignedLong v => .unsignedLong v
  | .float bits => .float bits
  | .double bits => .double bits
  | .pointer address => .pointer address
  | .cString v => .cString (some v.bytes)
  | .stringView v => .stringView v.bytes
  | .string v => .string v.bytes

/-- The bytes of a string. -/
def bytes : NativeValue → List UInt8
  | .cString v => v.bytes
  | .stringView v => v.bytes
  | .string v => v.bytes
  | _ => []

/-- A `bool`, or what DltCpp takes for one. -/
def IsBool : NativeValue → Prop
  | .bool _ => True
  | .pointer _ => True
  | _ => False

end NativeValue

/-- The message of DltCpp behind some values. -/
def dltCppMessage [DltCpp.DltConstants] (d : DltCpp.LogData)
    (xs : List NativeValue) : DltCpp.LogData :=
  d.calls (xs.map NativeValue.dltCppCall)

/-- The content of a stream record behind its prefix and some values;
`none` if it does not get there. -/
def streamContent (r : Stream.StreamLogData) (l : Stream.Levels)
    (env : Stream.Environment) (xs : List NativeValue) :
    Option (List UInt8) :=
  (r.after l env (xs.map fun x => .write x.streamCall)).map
    fun u => u.record.content.contents

end IviLogging
