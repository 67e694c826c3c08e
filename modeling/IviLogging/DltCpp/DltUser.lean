/-
What the backend takes from `dlt_user.h`, which is not part of this
repository.

# The names

`DltConstants` names the macros and enumerators the sources use;
`DltUser` adds what the code relies on and the header documents: the
type-info words of different argument types are different words, and
the extra header that the fields of the default `htyp` announce takes
twelve bytes. Everything below is stated for any header with these
properties; `documentedDltUser` is the header as DLT documents it.

# What is a number

`DLT_ID_SIZE` fixes the layout of every packed structure of the
backend, and the sources initialise arrays of that size with four
elements, so it is a number here and not a parameter.
-/
import Mathlib.Logic.Function.Basic

namespace IviLogging.DltCpp

-- ======================================================= argument types

/-- The widths an integer argument comes in. -/
inductive Width
  | bit8 | bit16 | bit32 | bit64
  deriving DecidableEq, Repr

/-- The number of bytes of a width. -/
def Width.bytes : Width → Nat
  | .bit8 => 1
  | .bit16 => 2
  | .bit32 => 4
  | .bit64 => 8

/-- The fixed-size argument types the backend writes. Only unsigned
integers carry a coding: `hex` or decimal. -/
inductive ScalarType
  | bool
  | sint (w : Width)
  | uint (w : Width) (hex : Bool)
  | floa32
  | floa64
  deriving DecidableEq, Repr

/-- The number of bytes of a scalar's value, `sizeof` of its C type. -/
def ScalarType.bytes : ScalarType → Nat
  | .bool => 1
  | .sint w => w.bytes
  | .uint w _ => w.bytes
  | .floa32 => 4
  | .floa64 => 8

/-- The argument types the backend writes. -/
inductive ArgType
  | scalar (t : ScalarType)
  | strg
  deriving DecidableEq, Repr

/-- Every argument type, for the reader's table. -/
def ArgType.all : List ArgType :=
  [.scalar .bool,
    .scalar (.sint .bit8), .scalar (.sint .bit16),
    .scalar (.sint .bit32), .scalar (.sint .bit64),
    .scalar (.uint .bit8 false), .scalar (.uint .bit16 false),
    .scalar (.uint .bit32 false), .scalar (.uint .bit64 false),
    .scalar (.uint .bit8 true), .scalar (.uint .bit16 true),
    .scalar (.uint .bit32 true), .scalar (.uint .bit64 true),
    .scalar .floa32, .scalar .floa64, .strg]

theorem ArgType.mem_all (t : ArgType) : t ∈ ArgType.all := by
  cases t with
  | strg => decide
  | scalar t =>
      cases t with
      | bool => decide
      | sint w => cases w <;> decide
      | uint w hex => cases w <;> cases hex <;> decide
      | floa32 => decide
      | floa64 => decide

-- =========================================================== the header

/-- The size of an id field: `DLT_ID_SIZE`. -/
def dltIdSize : Nat := 4

/-- The macros and enumerators of `dlt_user.h` that the sources use. -/
class DltConstants where
  dltTypeInfoBool : UInt32
  dltTypeInfoSint : UInt32
  dltTypeInfoUint : UInt32
  dltTypeInfoFloa : UInt32
  dltTypeInfoStrg : UInt32
  dltTyle8Bit : UInt32
  dltTyle16Bit : UInt32
  dltTyle32Bit : UInt32
  dltTyle64Bit : UInt32
  dltScodUtf8 : UInt32
  dltScodHex : UInt32
  dltLogDefault : Int
  dltLogOff : Int
  dltLogFatal : Int
  dltLogError : Int
  dltLogWarn : Int
  dltLogInfo : Int
  dltLogDebug : Int
  dltLogVerbose : Int
  dltMsinVerb : UInt8
  dltTypeLog : UInt8
  dltMsinMstpShift : UInt8
  dltMsinMtinShift : Nat
  dltMsinMtin : UInt8
  dltHtypProtocolVersion1 : UInt8
  dltHtypWeid : UInt8
  dltHtypWtms : UInt8
  dltHtypWsid : UInt8
  dltHtypUeh : UInt8
  dltStandardHeaderExtraSize : UInt8 → Nat

section Words

variable [DltConstants]

open DltConstants

/-- The type-length bits of a width. -/
def dltTyle : Width → UInt32
  | .bit8 => dltTyle8Bit
  | .bit16 => dltTyle16Bit
  | .bit32 => dltTyle32Bit
  | .bit64 => dltTyle64Bit

/-- The type-info word that announces an argument of a type. -/
def typeInfo : ArgType → UInt32
  | .scalar .bool => dltTypeInfoBool
  | .scalar (.sint w) => dltTypeInfoSint ||| dltTyle w
  | .scalar (.uint w hex) =>
      dltTypeInfoUint ||| dltTyle w ||| (if hex then dltScodHex else 0)
  | .scalar .floa32 => dltTypeInfoFloa ||| dltTyle32Bit
  | .scalar .floa64 => dltTypeInfoFloa ||| dltTyle64Bit
  | .strg => dltTypeInfoStrg ||| dltScodUtf8

/-- The `htyp` a `DltStandardHeader` is initialised with. -/
def defaultHtyp : UInt8 :=
  dltHtypProtocolVersion1 ||| dltHtypWeid ||| dltHtypWtms ||| dltHtypWsid
    ||| dltHtypUeh

end Words

/-- A DLT header the backend can be built against: its constants and
what the code relies on them for. -/
class DltUser extends DltConstants where
  typeInfo_injective : Function.Injective typeInfo
  extraSize_defaultHtyp : dltStandardHeaderExtraSize defaultHtyp = 12

/-- The constants with their documented values. -/
@[reducible] def documentedConstants : DltConstants where
  dltTypeInfoBool := 0x10
  dltTypeInfoSint := 0x20
  dltTypeInfoUint := 0x40
  dltTypeInfoFloa := 0x80
  dltTypeInfoStrg := 0x200
  dltTyle8Bit := 1
  dltTyle16Bit := 2
  dltTyle32Bit := 3
  dltTyle64Bit := 4
  dltScodUtf8 := 0x8000
  dltScodHex := 0x10000
  dltLogDefault := -1
  dltLogOff := 0
  dltLogFatal := 1
  dltLogError := 2
  dltLogWarn := 3
  dltLogInfo := 4
  dltLogDebug := 5
  dltLogVerbose := 6
  dltMsinVerb := 0x01
  dltTypeLog := 0
  dltMsinMstpShift := 1
  dltMsinMtinShift := 4
  dltMsinMtin := 0xf0
  dltHtypProtocolVersion1 := 0x20
  dltHtypWeid := 0x04
  dltHtypWtms := 0x10
  dltHtypWsid := 0x08
  dltHtypUeh := 0x01
  dltStandardHeaderExtraSize htyp :=
    (if htyp &&& 0x04 = 0 then 0 else 4)
      + (if htyp &&& 0x08 = 0 then 0 else 4)
      + (if htyp &&& 0x10 = 0 then 0 else 4)

/-- The documented words tell the argument types apart. -/
theorem documented_typeInfo_injective :
    Function.Injective (@typeInfo documentedConstants) := by
  have hall : ∀ a ∈ ArgType.all, ∀ b ∈ ArgType.all,
      @typeInfo documentedConstants a = @typeInfo documentedConstants b →
      a = b := by decide
  intro a b h
  exact hall a a.mem_all b b.mem_all h

/-- The header as DLT documents it. -/
@[reducible] def documentedDltUser : DltUser where
  toDltConstants := documentedConstants
  typeInfo_injective := documented_typeInfo_injective
  extraSize_defaultHtyp := by decide

end IviLogging.DltCpp
