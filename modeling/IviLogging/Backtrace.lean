/-
The stack trace (backtrace.cpp).

# A line

Each line that `backtrace_symbols` gives is searched for the parentheses
and the offset around a mangled name, which are then overwritten by NULs,
so that the module, the name and the offset are C strings in the memory of
the line. The search keeps the last places of an opening
parenthesis and of a plus, and ends at the first closing one behind a plus
(`Marks`). Whether the name is in front of the offset is looked at then.

# What is given

The frames and their lines, and what `__cxa_demangle` makes of a name, are
given: a line is the bytes in front of its NUL.
-/
import IviLogging.NativeValue

namespace IviLogging.Backtrace

-- ==================================================================== marks

/-- The three pointers into a line, as indices. -/
structure Marks where
  beginName : Option Nat := none
  beginOffset : Option Nat := none
  endOffset : Option Nat := none

/-- The search for parentheses and offset, from the index `p` on. -/
def scan (marks : Marks) (p : Nat) : List UInt8 → Marks
  | [] => marks
  | c :: cs =>
      if c = 40 then scan { marks with beginName := some p } (p + 1) cs
      else if c = 43 then scan { marks with beginOffset := some p } (p + 1) cs
      else if c = 41 ∧ marks.beginOffset.isSome then
        { marks with endOffset := some p }
      else scan marks (p + 1) cs

/-- A line that was taken apart. -/
structure Parts where
  module : List UInt8
  name : List UInt8
  offset : List UInt8

/-- The C strings behind the NULs at the marks; `none` if the line could
not be parsed. -/
def parse (line : NulFree) : Option Parts :=
  match scan {} 0 line.bytes with
  | ⟨some beginName, some beginOffset, some endOffset⟩ =>
      if beginName < beginOffset then
        let memory := (((line.bytes ++ [0]).set beginName 0).set beginOffset
          0).set endOffset 0
        some {
          module := cText memory
          name := cText (memory.drop (beginName + 1))
          offset := cText (memory.drop (beginOffset + 1)) }
      else none
  | _ => none

-- ==================================================================== lines

/-- What is printed of a frame. -/
def frameText (demangle : List UInt8 → Option (List UInt8)) (line : NulFree) :
    List UInt8 :=
  match parse line with
  | some ⟨module, name, offset⟩ =>
      let function :=
        match demangle name with
        | some funcname => funcname
        | none => name ++ ascii ['(', ')']
      ascii [' ', ' '] ++ module ++ ascii [' ', ':', ' '] ++ function
        ++ ascii ['+'] ++ offset ++ ascii ['\n']
  | none => ascii [' ', ' '] ++ line.bytes ++ ascii ['\n']

/-- The length of `addrlist`. -/
def addrlistSize : Nat := 63

/-- `getStackTrace`, for a stack of some frames, by their lines: the first
one is the address of the function itself. -/
def getStackTrace (demangle : List UInt8 → Option (List UInt8))
    (stack : List NulFree) (maxFrames : Nat) : List UInt8 :=
  let symbollist := stack.take (min maxFrames addrlistSize)
  ascii ['\n']
    ++ match symbollist with
      | [] =>
          ascii ['<', 'e', 'm', 'p', 't', 'y', ',', ' ', 'p', 'o', 's', 's',
            'i', 'b', 'l', 'y', ' ', 'c', 'o', 'r', 'r', 'u', 'p', 't', '>']
      | _ :: lines => lines.flatMap (frameText demangle)

end IviLogging.Backtrace
