/-
The data every backend shares (ivi-logging-common.h): severities, the
description of one log statement, the calling thread, and the ids and
descriptions an application and its contexts are created with.

# Strings

A `std::string` is its characters together with whatever memory lies
behind their terminating NUL: the backend copies ids with a fixed-size
`memcpy`, so what a short id is followed by is part of what it sends. What
a C function takes for the string ends at its first NUL (`cText`).

# Statements

The description of a statement is made where it stands, and lives as long
as its entry; the hex switch in it is what the entry's own `<<` changes.
-/
import Mathlib.Algebra.Ring.Int.Defs
import Mathlib.Algebra.Ring.Nat
import Mathlib.Data.List.Basic

namespace IviLogging

-- ============================================================= strings

/-- The bytes of an ASCII literal. -/
def ascii (s : List Char) : List UInt8 := s.map fun c => UInt8.ofNat c.toNat

/-- A `std::string` as a C function sees it through `c_str()`. -/
structure StdString where
  chars : List UInt8
  behind : Nat → UInt8

/-- The memory at `c_str()`: the characters, a NUL, and what follows. -/
def StdString.cStr (s : StdString) (i : Nat) : UInt8 :=
  if i < s.chars.length then s.chars.getD i 0
  else if i = s.chars.length then 0
  else s.behind (i - s.chars.length - 1)

/-- The characters in front of the first NUL: `strlen` many. -/
def cText (chars : List UInt8) : List UInt8 := chars.takeWhile (· ≠ 0)

theorem cText_append {s : List UInt8} (h : 0 ∉ s) (rest : List UInt8) :
    cText (s ++ 0 :: rest) = s := by
  have hall : ∀ c ∈ s, decide (c ≠ 0) = true := by
    intro c hc
    have hne : c ≠ 0 := fun hzero => h (hzero ▸ hc)
    simpa using hne
  rw [cText, List.takeWhile_append_of_pos hall,
    List.takeWhile_cons_of_neg (by simp), List.append_nil]

-- ========================================================== statements

/-- The severities (`LogLevel`). -/
inductive LogLevel
  | none | fatal | error | warning | info | debug | verbose | all | invalid
  deriving DecidableEq, Repr

/-- The description of one log statement (`LogInfo`). -/
structure LogInfo where
  longFileName : List UInt8
  prettyFunction : Option (List UInt8)
  lineNumber : Int32
  level : LogLevel
  hexEnabled : Bool := false

/-- The scan of `LogInfo::getFileName`, from the end of the name back to
the last slash. -/
def shortNamePosition (name : List UInt8) : Nat → Nat
  | 0 => 0
  | p + 1 => if name.getD p 0 ≠ 47 then shortNamePosition name p else p + 1

/-- `LogInfo::getFileName`: the name without its directories. -/
def LogInfo.getFileName (data : LogInfo) : List UInt8 :=
  data.longFileName.drop
    (shortNamePosition data.longFileName data.longFileName.length)

/-- The calling thread (`ThreadInformation`). -/
structure ThreadInformation where
  id : Int32
  name : List UInt8

/-- The switches all contexts share (`LogContextBase`). -/
structure LogContextBase where
  enableSourceCodeLocationInfo : Bool
  enableThreadInfo : Bool

/-- The application's id and description (`AppLogContext`). -/
structure AppLogContext where
  id : StdString
  description : StdString

/-- A context's id and description (`LogContextCommon`). -/
structure LogContextCommon where
  id : StdString
  description : StdString

-- ============================================================= a sample

/-- The application of the fixed inputs. -/
def sampleApp : AppLogContext where
  id := ⟨ascii ['D', 'E', 'M', 'O'], fun _ => 0⟩
  description := ⟨ascii ['d', 'e', 'm', 'o'], fun _ => 0⟩

/-- The context of the fixed inputs. -/
def sampleContext : LogContextCommon where
  id := ⟨ascii ['M', 'A', 'I', 'N'], fun _ => 0⟩
  description := ⟨ascii ['M', 'a', 'i', 'n'], fun _ => 0⟩

/-- The source location of the fixed inputs. -/
def sampleInfo : LogInfo where
  longFileName := ascii ['s', 'r', 'c', '/', 'm', 'a', 'i', 'n', '.', 'c']
  prettyFunction := none
  lineNumber := 12
  level := .info

end IviLogging
