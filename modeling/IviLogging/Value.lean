/-
The values that are streamed into an entry (`operator<<` of
ivi-logging.h, ivi-logging-stl.h, ivi-logging-types.h).

# Values

The operators take a value apart until only native ones are left, which
they hand to `write` of the log. A container of containers is a tree, and
the operators are mutual recursions over it, with a flag or an index in the
loops by which they know the first element.

A string literal is an array of characters, for which there is an operator
of its own that makes a view of it; the texts of `printTuple` come out of a
conditional expression, which makes pointers of them.

# Logs

The log is an entry, or its `LogNoFail`, which also takes types that have
no operator; an entry does not compile with them, so the type of a value
says which of them are in it (`Value`). The pairs of an unordered map are of
that kind.

The entry of a `DefaultLogContext` is that of both backends, the message
of DltCpp and the record of the console (`DefaultLogEntry`). Its hex
switch is read through a pointer by each of them; here each has its own
copy.
-/
import IviLogging.DltCpp.Logging
import IviLogging.LogEntry
import IviLogging.NativeValue

namespace IviLogging

-- ================================================================== values

/-- The durations that have an operator. -/
inductive Duration
  | years | months | weeks | days | hours | minutes | seconds
  | milliseconds | microseconds | nanoseconds
  deriving DecidableEq

/-- The text behind the count of a duration. -/
def Duration.unit : Duration → NulFree
  | years => ⟨ascii ['y', 'r'], by decide⟩
  | months => ⟨ascii ['m', 'o'], by decide⟩
  | weeks => ⟨ascii ['w', 'k'], by decide⟩
  | days => ⟨ascii ['d'], by decide⟩
  | hours => ⟨ascii ['h'], by decide⟩
  | minutes => ⟨ascii ['m', 'i', 'n'], by decide⟩
  | seconds => ⟨ascii ['s'], by decide⟩
  | milliseconds => ⟨ascii ['m', 's'], by decide⟩
  | microseconds => ⟨ascii ['u', 's'], by decide⟩
  | nanoseconds => ⟨ascii ['n', 's'], by decide⟩

/-- The types that are streamed with `streamArrayType`. -/
inductive Sequence
  | vector | set | array | cArray | span | unorderedMap

/-- A value, by the operator that takes it; the ones without an operator
are in `U`. A container has its elements in the order of its iterator, a
`StringBuilder`, an exception and a point in time have the text that they
give. -/
inductive Value (U : Type)
  | native (v : NativeValue)
  | literal (v : NulFree)
  | stringBuilder (str : NulFree)
  | exception (what : NulFree)
  | timePoint (str : NulFree)
  | duration (d : Duration) (count : Int64)
  | sequence (type : Sequence) (elements : List (Value U))
  | map (elements : List (Value U × Value U))
  | tuple (elements : List (Value U))
  | variant (v : Value U)
  | optional (v : Option (Value U))
  | unsupported (v : U)

-- ==================================================================== logs

/-- What the operators ask of a log that takes the types `U` without an
operator. -/
class LogType (L : Type) (U : outParam Type) where
  write : L → NativeValue → L
  writeUnsupported : L → U → L

section Operators

variable {L U : Type} [LogType L U]

/-- `log << s`, for a string literal. -/
def writeLiteral (log : L) (s : NulFree) : L :=
  LogType.write log (.stringView s)

namespace Literal

/-- The string literals of the operators. -/
def openArray : NulFree := ⟨ascii ['[', ' '], by decide⟩
def closeArray : NulFree := ⟨ascii [' ', ']'], by decide⟩
def openMap : NulFree := ⟨ascii [' ', '[', ' '], by decide⟩
def closeMap : NulFree := ⟨ascii [' ', ']', ' '], by decide⟩
def openEntry : NulFree := ⟨ascii ['{', ' '], by decide⟩
def equals : NulFree := ⟨ascii ['='], by decide⟩
def closeEntry : NulFree := ⟨ascii [' ', '}'], by decide⟩
def comma : NulFree := ⟨ascii [',', ' '], by decide⟩
def openTuple : NulFree := ⟨ascii ['{'], by decide⟩
def closeTuple : NulFree := ⟨ascii ['}'], by decide⟩
def nothing : NulFree := ⟨[], by decide⟩
def noValue : NulFree := ⟨ascii ['{', '}'], by decide⟩
def newline : NulFree := ⟨ascii ['\n'], by decide⟩

end Literal

open Literal

namespace Value

mutual

/-- `operator<<`. -/
def insert (log : L) : Value U → L
  | .native v => LogType.write log v
  | .literal v => writeLiteral log v
  | .stringBuilder str => LogType.write log (.string str)
  | .exception what => LogType.write log (.cString what)
  | .timePoint str => LogType.write log (.string str)
  | .duration d count =>
      writeLiteral (LogType.write log (.long count)) d.unit
  | .sequence _ elements =>
      writeLiteral (streamArrayLoop true (writeLiteral log openArray) elements)
        closeArray
  | .map elements =>
      writeLiteral (streamMapLoop true (writeLiteral log openMap) elements)
        closeMap
  | .tuple elements =>
      writeLiteral (printTupleLoop 0 (writeLiteral log openTuple) elements)
        closeTuple
  | .variant v => insert log v
  | .optional v => insertOptional log v
  | .unsupported v => LogType.writeUnsupported log v

/-- The loop of `streamArrayType`. -/
def streamArrayLoop (isFirst : Bool) (log : L) : List (Value U) → L
  | [] => log
  | element :: elements =>
      let log := if not isFirst then writeLiteral log comma else log
      streamArrayLoop false (insert log element) elements

/-- The loop of `streamMapType`. -/
def streamMapLoop (isFirst : Bool) (log : L) :
    List (Value U × Value U) → L
  | [] => log
  | element :: elements =>
      let log := if not isFirst then writeLiteral log comma else log
      let log := insertEntry (writeLiteral log openEntry) element
      streamMapLoop false (writeLiteral log closeEntry) elements

/-- The key and the value of an element in it. -/
def insertEntry (log : L) : Value U × Value U → L
  | (first, second) => insert (writeLiteral (insert log first) equals) second

/-- The fold of `printTuple`, from the index `I` on. -/
def printTupleLoop (I : Nat) (log : L) : List (Value U) → L
  | [] => log
  | element :: elements =>
      let log := LogType.write log (.cString (if I = 0 then nothing else comma))
      printTupleLoop (I + 1) (insert log element) elements

/-- The operator for a `std::optional`. -/
def insertOptional (log : L) : Option (Value U) → L
  | some v => insert log v
  | none => writeLiteral log noValue

end

/-- `streamArrayType`. -/
def streamArrayType (log : L) (v : List (Value U)) : L :=
  writeLiteral (streamArrayLoop true (writeLiteral log openArray) v)
    closeArray

/-- `streamMapType`. -/
def streamMapType (log : L) (v : List (Value U × Value U)) : L :=
  writeLiteral (streamMapLoop true (writeLiteral log openMap) v) closeMap

/-- `printTuple`. -/
def printTuple (log : L) (tup : List (Value U)) : L :=
  writeLiteral (printTupleLoop 0 (writeLiteral log openTuple) tup) closeTuple

theorem insert_sequence (log : L) (type : Sequence) (v : List (Value U)) :
    insert log (.sequence type v) = streamArrayType log v := rfl

theorem insert_map (log : L) (v : List (Value U × Value U)) :
    insert log (.map v) = streamMapType log v := rfl

theorem insert_tuple (log : L) (tup : List (Value U)) :
    insert log (.tuple tup) = printTuple log tup := rfl

end Value

end Operators

-- ================================================================= entries

/-- An entry takes what has an operator. -/
instance : LogType (List (Backend NativeValue)) Empty where
  write logs v := LogEntry.write (fun _ => [v]) logs
  writeUnsupported _ v := nomatch v

/-- `LogNoFail`, with the entry that it refers to. -/
structure LogNoFail (L : Type) where
  logData : L
  unsupportedText : NulFree

/-- `noFail`, and `enableUnsupportedTypes`. -/
def enableUnsupportedTypes {L : Type} (log : L) (unsupportedText : NulFree) :
    LogNoFail L :=
  ⟨log, unsupportedText⟩

/-- `write` and `writeUnsupported` of `LogNoFail`. -/
instance {L : Type} [LogType L Empty] : LogType (LogNoFail L) Unit where
  write n v := { n with logData := LogType.write n.logData v }
  writeUnsupported n _ :=
    { n with logData := LogType.write n.logData (.stringView n.unsupportedText) }

/-- The hex switch of the entry's `LogInfo`. -/
class HexSwitch (L : Type) where
  setHexEnabled : L → Bool → L

/-- The entry of a `DefaultLogContext`; the console's part is `none` if
one of its operations does not come to its end. -/
structure DefaultLogEntry where
  dltCpp : DltCpp.Entry
  console : Option Stream.State

namespace DefaultLogEntry

variable [DltCpp.DltConstants]

/-- `LogEntry::write`. -/
def write (e : DefaultLogEntry) (v : NativeValue) : DefaultLogEntry where
  dltCpp := e.dltCpp.write v.dltCppCall
  console := e.console.bind fun s => Stream.step s (.write v.streamCall)

/-- `LogInfo::setHexEnabled`. -/
def setHexEnabled (e : DefaultLogEntry) (enabled : Bool) :
    DefaultLogEntry where
  dltCpp := e.dltCpp.write (.setHexEnabled enabled)
  console := e.console.bind fun s =>
    Stream.step s (.write (.setHexEnabled enabled))

instance logType : LogType DefaultLogEntry Empty where
  write := write
  writeUnsupported _ v := nomatch v

instance hexSwitch : HexSwitch DefaultLogEntry where
  setHexEnabled := setHexEnabled

end DefaultLogEntry

/-- What stands behind a `<<` of a statement: a value, or one of the
manipulators. -/
inductive Item
  | value (v : Value Empty)
  | endl | hex | dec | ends | flush

/-- `log << item`. -/
def Item.insert {L : Type} [LogType L Empty] [HexSwitch L] (log : L) :
    Item → L
  | value v => v.insert log
  | endl => writeLiteral log Literal.newline
  | hex => HexSwitch.setHexEnabled log true
  | dec => HexSwitch.setHexEnabled log false
  | ends => log
  | flush => log

/-- `log << item << item << ..` -/
def Item.insertAll {L : Type} [LogType L Empty] [HexSwitch L] (log : L)
    (items : List Item) : L :=
  items.foldl Item.insert log

end IviLogging
