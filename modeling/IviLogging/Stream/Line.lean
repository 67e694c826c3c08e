/-
What a record says, on paper.

# A line

A record that is enabled from its beginning to its end is a line: the
prefix, the text of every value, and the suffix (`linePrefix`,
`lineSuffix`). The text of a value is the one a reader expects (`text`): a
number in decimal or hexadecimal digits, a string up to its first NUL.

In any other run the levels let some of the texts through (`shown`).

# What is a parameter

The prefix and the suffix are given by their formats, so their texts are
parameters here, and only the console's colours and the place of its suffix
are put in. The colours take no room on the line, which is what
`prefixInvisible` and `startInvisible` count.
-/
import IviLogging.Stream.StreamLogData

namespace IviLogging.Stream

open Printf (Binary fixed numeral signedDecimal)

-- ================================================================== values

/-- An integer; the hexadecimal digits are those of its bits. -/
def integerText (hex : Bool) (v : Int) (bits : Nat) : List UInt8 :=
  if hex then numeral 16 1 bits else signedDecimal v

/-- The text of an address. -/
def pointerText (p : UInt64) : List UInt8 :=
  ascii ['0', 'x'] ++ numeral 16 1 p.toNat

/-- The text of a value. -/
def WriteCall.text (hex : Bool) : WriteCall → List UInt8
  | .stringView v => cText v
  | .bool v =>
      if v then ascii ['t', 'r', 'u', 'e']
      else ascii ['f', 'a', 'l', 's', 'e']
  | .char v => integerText hex v.toInt v.toInt32.toUInt32.toNat
  | .unsignedChar v => integerText hex v.toNat v.toNat
  | .short v => integerText hex v.toInt v.toInt32.toUInt32.toNat
  | .unsignedShort v => integerText hex v.toNat v.toNat
  | .int v => integerText hex v.toInt v.toUInt32.toNat
  | .unsignedInt v => integerText hex v.toNat v.toNat
  | .longLong v => integerText hex v.toInt v.toUInt64.toNat
  | .unsignedLongLong v => integerText hex v.toNat v.toNat
  | .long v => integerText hex v.toInt v.toUInt64.toNat
  | .unsignedLong v => integerText hex v.toNat v.toNat
  | .pointer v => pointerText v
  | .cString v => cText (v.getD (ascii ['n', 'u', 'l', 'l']))
  | .float bits => fixed (.ofFloat bits)
  | .string v => cText v
  | .double bits => fixed (.ofDouble bits)
  | .setHexEnabled _ => []

/-- The bytes of a string among the values. -/
def WriteCall.bytes : WriteCall → List UInt8
  | .stringView v => v
  | .string v => v
  | .cString v => v.getD []
  | _ => []

/-- The conversion sees all of the text: the length of a string view is
handed to it as an `int`. -/
def WriteCall.Whole : WriteCall → Prop
  | .stringView v =>
      Printf.printf (ascii ['%', '.', '*', 's'])
        [.word32 (UInt32.ofNat v.length), .string v] = some (cText v)
  | _ => True

/-- The hex switch behind an action. -/
def Action.hexEnabled (hex : Bool) : Action → Bool
  | .write (.setHexEnabled enabled) => enabled
  | _ => hex

/-- The hex switch behind some actions. -/
def hexAfter (hex : Bool) (as : List Action) : Bool :=
  as.foldl Action.hexEnabled hex

/-- What an action adds to a line. -/
def Action.text (hex : Bool) : Action → List UInt8
  | .write c => c.text hex
  | _ => []

/-- The texts of some actions. -/
def texts : Bool → List Action → List UInt8
  | _, [] => []
  | hex, a :: as => a.text hex ++ texts (a.hexEnabled hex) as

-- =================================================================== levels

/-- The levels behind an action. -/
def Action.levels (l : Levels) : Action → Levels
  | .setLogLevel level => { l with level := level }
  | .setGlobalLogLevel level => { l with defaultLogLevel := level }
  | .write _ => l

/-- The levels behind some actions. -/
def levelsAfter (l : Levels) (as : List Action) : Levels :=
  as.foldl Action.levels l

/-- The record is enabled before and behind every action. -/
def StaysEnabled (kind : Kind) (severity : LogLevel) :
    Levels → List Action → Prop
  | l, [] => l.isEnabled kind severity = true
  | l, a :: as => l.isEnabled kind severity = true
      ∧ StaysEnabled kind severity (a.levels l) as

/-- What an action adds to a line, as the levels let it through. -/
def Action.shown (kind : Kind) (severity : LogLevel) (l : Levels)
    (hex : Bool) (a : Action) : List UInt8 :=
  if l.isEnabled kind severity then a.text hex else []

/-- The texts of some actions, as the levels let them through. -/
def shown (kind : Kind) (severity : LogLevel) :
    Levels → Bool → List Action → List UInt8
  | _, _, [] => []
  | l, hex, a :: as => a.shown kind severity l hex
      ++ shown kind severity (a.levels l) (a.hexEnabled hex) as

/-- Each of these texts is one that can be printed. -/
def ShownShort (kind : Kind) (severity : LogLevel) :
    Levels → Bool → List Action → Prop
  | _, _, [] => True
  | l, hex, a :: as =>
      (a.shown kind severity l hex).length < Printf.intMax
      ∧ ShownShort kind severity (a.levels l) (a.hexEnabled hex) as

-- ================================================================ the line

/-- A colour, if there are any. -/
def colored (context : StreamLogContext) (color : List UInt8) :
    List UInt8 :=
  if context.colorSupport then color else []

/-- What is in front of the prefix, and of the suffix. -/
def headerText (context : StreamLogContext) (severity : LogLevel) :
    List UInt8 :=
  colored context (StreamLogData.headerColor severity)

/-- What is behind them. -/
def resetText (context : StreamLogContext) : List UInt8 :=
  colored context
    (StreamLogData.ansiColorOff ++ StreamLogData.ansiResetBright)

/-- The prefix, by its text. -/
def linePrefix (context : StreamLogContext) (severity : LogLevel)
    (p : List UInt8) : List UInt8 :=
  match context.kind with
  | .console => headerText context severity ++ (p ++ resetText context)
  | .file => p

/-- The characters of the prefix that take no room. -/
def prefixInvisible (context : StreamLogContext) (severity : LogLevel) :
    Int :=
  match context.kind with
  | .console =>
      (headerText context severity).length + (resetText context).length
  | .file => 0

/-- What is in front of the values: the prefix of a record that is enabled in
the beginning. -/
def startText (context : StreamLogContext) (severity : LogLevel)
    (l : Levels) (p : List UInt8) : List UInt8 :=
  if l.isEnabled context.kind severity then linePrefix context severity p
  else []

/-- The characters of it that take no room. -/
def startInvisible (context : StreamLogContext) (severity : LogLevel)
    (l : Levels) : Int :=
  if l.isEnabled context.kind severity then prefixInvisible context severity
  else 0

/-- What stands between the text and the suffix. -/
def padding (env : Environment) (contentSize suffixSize : Nat)
    (invisible : Int) : List UInt8 :=
  let width := StreamLogData.remainingWidth env contentSize suffixSize
    invisible
  if width < 0 then
    10 :: List.replicate
      (StreamLogData.nextLineWidth env suffixSize).toNat 32
  else List.replicate width.toNat 32

/-- The suffix, by its text, behind a line of some size. -/
def lineSuffix (context : StreamLogContext) (severity : LogLevel)
    (env : Environment) (size : Nat) (invisible : Int) (s : List UInt8) :
    List UInt8 :=
  match context.kind with
  | .console =>
      let color := headerText context severity
      color
        ++ (padding env (size + color.length) (s ++ [10]).length
            (invisible + color.length)
        ++ (s ++ [10] ++ resetText context))
  | .file => s

/-- The text of the suffix. -/
def suffixText (r : StreamLogData) (env : Environment) :
    Option (List UInt8) :=
  (Printf.printf r.suffixFormat r.suffixArgs).bind fun location =>
    if r.context.base.enableThreadInfo then
      (Printf.printf r.suffixThreadNameFormat
        (StreamLogData.threadArgs env)).map (location ++ ·)
    else some location

/-- The text that is written for the suffix. -/
def suffixString (kind : Kind) (s : List UInt8) : List UInt8 :=
  match kind with
  | .console => s ++ [10]
  | .file => s

end IviLogging.Stream
