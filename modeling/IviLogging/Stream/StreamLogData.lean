/-
The records of the stream backends (ivi-logging-console.h,
ivi-logging-file.h).

# Records

A record's text is in a byte array. Every piece of it is formatted twice,
to measure it and then into the place made for it (`writeFormatted`), and
only while the severity of the statement is enabled: the levels may be set
at any time, so each function takes the ones it finds (`Levels`). What a
record asks the system for is its `Environment`: the time, the thread, the
width of the console.

# The two backends

`ConsoleLogData` puts colours around the prefix and behind the text, and
fills the line up so that the suffix ends at the last column; `FileLogData`
has what `StreamLogData` has. Both are one model with the kind of the
context, in place of the virtual functions.

# What does not come to its end

`none` is an operation that does not come to its end: a text for which
`snprintf` has no meaning or whose size overflows an `int`, or an array
that gets too long. `getSuffix` returns its local array without copying
it, so that the NUL behind the text is still there: that is the one the
suffix's `%s`, or the format of a file, is read up to.

# A run

The actions on a record (`Action`) are its writes and the changes of both
levels; `output` is what it hands to the context when it is flushed.
-/
import IviLogging.Common
import IviLogging.Lib.Printf
import IviLogging.Lib.Transition
import IviLogging.Utils.ByteArray

namespace IviLogging

open Printf (Arg Outcome snprintf cString intMax)

-- ============================================================== severities

/-- The value of a severity. -/
def LogLevel.value : LogLevel → Nat
  | none => 0
  | fatal => 1
  | error => 2
  | warning => 3
  | info => 4
  | debug => 5
  | verbose => 6
  | all => 7
  | invalid => 8

/-- `getLogLevelString`. -/
def LogLevel.string : LogLevel → List UInt8
  | debug => ascii [' ', 'D', 'e', 'b', 'u', 'g', ' ']
  | info => ascii [' ', 'I', 'n', 'f', 'o', ' ', ' ']
  | warning => ascii ['W', 'a', 'r', 'n', 'i', 'n', 'g']
  | error => ascii [' ', 'E', 'r', 'r', 'o', 'r', ' ']
  | fatal => ascii [' ', 'F', 'a', 't', 'a', 'l', ' ']
  | verbose => ascii ['V', 'e', 'r', 'b', 'o', 's', 'e']
  | _ => ascii ['I', 'n', 'v', 'a', 'l', 'i', 'd']

-- ======================================================== formatted pieces

/-- `writeFormatted` of a byte array, once `snprintf` has said what it does:
room for the text and a NUL, the text, and the NUL dropped again. -/
def ByteArray.appendOutcome (a : ByteArray) (o : Outcome) :
    Option ByteArray :=
  let size : Int := o.returned + 1
  -- the NUL is counted in an `int`, which a failure leaves at 0
  if size ≤ intMax then
    (a.resize ((a.size + size.toNat) % 2 ^ 64)).bind fun b =>
      (b.store a.size (o.written size.toNat)).bind fun c =>
        -- one byte less, also if no NUL was written
        c.resize ((c.size + (2 ^ 64 - 1)) % 2 ^ 64)
  else none

/-- `writeFormatted` of a byte array. -/
def ByteArray.writeFormatted (a : ByteArray) (format : List UInt8)
    (args : List Arg) : Option ByteArray :=
  (snprintf format args).bind a.appendOutcome

/-- `pointerToString`, with its buffer of 64 bytes. -/
def pointerToString (p : UInt64) : Option (List UInt8) :=
  (snprintf (ascii ['0', 'x', '%', 'z', 'X']) [.word64 p]).bind fun o =>
    cString (o.written 64)

namespace Stream

-- ================================================================ contexts

/-- The two stream backends. -/
inductive Kind
  | console | file
  deriving DecidableEq

/-- The levels that are looked at whenever a record is touched: the level
of the context, and `s_defaultLogLevel` for the console. -/
structure Levels where
  level : LogLevel
  defaultLogLevel : LogLevel

/-- `isEnabled` of a context. -/
def Levels.isEnabled (l : Levels) : Kind → LogLevel → Bool
  | .console, level =>
      decide (level.value ≤ l.level.value)
        && decide (level.value ≤ l.defaultLogLevel.value)
  | .file, level => decide (level.value ≤ l.level.value)

/-- `StreamLogContextAbstract`, with the colours of a `ConsoleLogContext`. -/
structure StreamLogContext where
  kind : Kind
  context : LogContextCommon
  base : LogContextBase
  colorSupport : Bool

/-- What a record asks the system for; a width of 0 is that of no console.
`memory` is where the suffix is put together, and `file` says if the file
of the `FileLogContext` is open. -/
structure Environment where
  seconds : UInt32
  milliseconds : UInt32
  thread : ThreadInformation
  consoleWidth : UInt16
  memory : StaticData
  file : Bool

/-- Where a record is printed. -/
inductive OutputFile
  | stdout | stderr | logFile
  deriving DecidableEq

/-- `getFile`. -/
def getFile (env : Environment) : Kind → LogLevel → Option OutputFile
  | .console, level => some (if level = .error then .stderr else .stdout)
  | .file, _ => if env.file then some .logFile else none

-- ================================================================= records

/-- `DEFAULT_PREFIX`. -/
def defaultPrefix : List UInt8 :=
  ascii ['%', '0', '5', 'd', '.', '%', '0', '3', 'd', ' ', '|', ' ', '%', '4',
    '.', '4', 's', ' ', '[', '%', 's', ']', ' ']

/-- `DEFAULT_SUFFIX_WITH_SHORT_FILE_LOCATION_WITHOUT_FUNCTION`. -/
def defaultSuffix : List UInt8 :=
  ascii [' ', '|', ' ', '%', 's', '%', '.', '0', 's', ':', '%', 'd', ' ']

/-- `DEFAULT_THREAD_NAME_SUFFIX`. -/
def defaultThreadNameSuffix : List UInt8 :=
  ascii ['|', ' ', '%', '.', '2', 'i', ' ', '/', ' ', '%', 's', ' ']

/-- `StreamLogData`, with the count of a `ConsoleLogData`. -/
structure StreamLogData where
  context : StreamLogContext
  data : LogInfo
  content : ByteArray
  prefixFormat : List UInt8 := defaultPrefix
  suffixFormat : List UInt8 := defaultSuffix
  suffixThreadNameFormat : List UInt8 := defaultThreadNameSuffix
  invisibleCharacterCount : Int := 0

/-- The values a record takes, by the overload of `write`, and the hex
switch of its statement. Strings are the bytes up to their length, a C
string the bytes in front of the NUL that ends its memory. -/
inductive WriteCall
  | stringView (v : List UInt8)
  | bool (v : Bool)
  | char (v : Int8)
  | unsignedChar (v : UInt8)
  | short (v : Int16)
  | unsignedShort (v : UInt16)
  | int (v : Int32)
  | unsignedInt (v : UInt32)
  | longLong (v : Int64)
  | unsignedLongLong (v : UInt64)
  | long (v : Int64)
  | unsignedLong (v : UInt64)
  | pointer (v : UInt64)
  | cString (v : Option (List UInt8))
  | float (bits : UInt32)
  | string (v : List UInt8)
  | double (bits : UInt64)
  | setHexEnabled (enabled : Bool)

namespace StreamLogData

/-- `isEnabled`. -/
def isEnabled (r : StreamLogData) (l : Levels) : Bool :=
  l.isEnabled r.context.kind r.data.level

/-- `writeFormatted`. -/
def writeFormatted (r : StreamLogData) (l : Levels) (format : List UInt8)
    (args : List Arg) : Option StreamLogData :=
  if r.isEnabled l then
    (r.content.writeFormatted format args).map fun content =>
      { r with content := content }
  else some r

/-- `isHexEnabled() ? hex : decimal`. -/
def integerFormat (r : StreamLogData) (hex decimal : List Char) :
    List UInt8 :=
  ascii (if r.data.hexEnabled then hex else decimal)

/-- `writeInt(int)`. -/
def writeInt (r : StreamLogData) (l : Levels) (v : Int32) :
    Option StreamLogData :=
  r.writeFormatted l (r.integerFormat ['%', 'X'] ['%', 'd'])
    [.word32 v.toUInt32]

/-- `writeInt(unsigned int)`. -/
def writeUnsignedInt (r : StreamLogData) (l : Levels) (v : UInt32) :
    Option StreamLogData :=
  r.writeFormatted l (r.integerFormat ['%', 'X'] ['%', 'u']) [.word32 v]

/-- `writeFormatted("%s", s)`, over the bytes in front of the NUL. -/
def writeString (r : StreamLogData) (l : Levels) (s : List UInt8) :
    Option StreamLogData :=
  r.writeFormatted l (ascii ['%', 's']) [.string (s ++ [0])]

/-- `write`, and the hex switch. What is smaller than an `int` is promoted
to it, signed or not. -/
def write (r : StreamLogData) (l : Levels) :
    WriteCall → Option StreamLogData
  | .stringView v =>
      r.writeFormatted l (ascii ['%', '.', '*', 's'])
        [.word32 (UInt32.ofNat v.length), .string v]
  | .bool v =>
      r.writeString l (if v then ascii ['t', 'r', 'u', 'e']
        else ascii ['f', 'a', 'l', 's', 'e'])
  | .char v => r.writeInt l v.toInt32
  | .unsignedChar v => r.writeInt l v.toUInt32.toInt32
  | .short v => r.writeInt l v.toInt32
  | .unsignedShort v => r.writeInt l v.toUInt32.toInt32
  | .int v => r.writeInt l v
  | .unsignedInt v => r.writeUnsignedInt l v
  | .longLong v =>
      r.writeFormatted l
        (r.integerFormat ['%', 'l', 'l', 'X'] ['%', 'l', 'l', 'd'])
        [.word64 v.toUInt64]
  | .unsignedLongLong v =>
      r.writeFormatted l
        (r.integerFormat ['%', 'l', 'l', 'X'] ['%', 'l', 'l', 'u'])
        [.word64 v]
  | .long v =>
      r.writeFormatted l (r.integerFormat ['%', 'l', 'X'] ['%', 'l', 'd'])
        [.word64 v.toUInt64]
  | .unsignedLong v =>
      r.writeFormatted l (r.integerFormat ['%', 'l', 'X'] ['%', 'l', 'u'])
        [.word64 v]
  | .pointer v => (pointerToString v).bind fun s => r.writeString l s
  | .cString v => r.writeString l (v.getD (ascii ['n', 'u', 'l', 'l']))
  | .float bits =>
      r.writeFormatted l (ascii ['%', 'f']) [.double (.ofFloat bits)]
  | .string v => r.writeString l v
  | .double bits =>
      r.writeFormatted l (ascii ['%', 'f']) [.double (.ofDouble bits)]
  | .setHexEnabled enabled =>
      some { r with data := { r.data with hexEnabled := enabled } }

-- ================================================================= colours

/-- `ANSI_COLOR_OFF`. -/
def ansiColorOff : List UInt8 := 27 :: ascii ['[', '0', 'm']

/-- `ANSI_RESET_BRIGHT`. -/
def ansiResetBright : List UInt8 := 27 :: ascii ['[', '0', 'm']

/-- The colour of a severity. -/
def headerColor : LogLevel → List UInt8
  | .warning => 27 :: ascii ['[', '3', '5', 'm']
  | .error | .fatal =>
      27 :: ascii ['[', '3', '1', 'm'] ++ 27 :: ascii ['[', '1', 'm']
  | .verbose => 27 :: ascii ['[', '3', '2', 'm']
  | _ => ansiColorOff

/-- A colour, which takes no room on the line. -/
def writeColor (r : StreamLogData) (l : Levels) (color : List UInt8) :
    Option StreamLogData :=
  if r.context.colorSupport then
    (r.write l (.string color)).map fun r =>
      { r with
        invisibleCharacterCount := r.invisibleCharacterCount + color.length }
  else some r

/-- `writeHeaderColor`, and `writeFooterColor`. -/
def writeHeaderColor (r : StreamLogData) (l : Levels) :
    Option StreamLogData :=
  r.writeColor l (headerColor r.data.level)

/-- `resetColor`. -/
def resetColor (r : StreamLogData) (l : Levels) : Option StreamLogData :=
  r.writeColor l (ansiColorOff ++ ansiResetBright)

-- ======================================================= prefix and suffix

/-- The arguments of the prefix. -/
def prefixArgs (r : StreamLogData) (env : Environment) : List Arg :=
  [.word32 env.seconds, .word32 env.milliseconds,
    .string (r.context.context.id.chars ++ [0]),
    .string (r.data.level.string ++ [0])]

/-- `writePrefix`. -/
def writePrefix (r : StreamLogData) (l : Levels) (env : Environment) :
    Option StreamLogData :=
  match r.context.kind with
  | .console =>
      (r.writeHeaderColor l).bind fun r =>
        (r.writeFormatted l r.prefixFormat (r.prefixArgs env)).bind fun r =>
          r.resetColor l
  | .file => r.writeFormatted l r.prefixFormat (r.prefixArgs env)

/-- The arguments of the suffix; at a null pointer there is no memory. -/
def suffixArgs (r : StreamLogData) : List Arg :=
  [.string (r.data.getFileName ++ [0]),
    .string ((r.data.prettyFunction.map (· ++ [0])).getD []),
    .word32 r.data.lineNumber.toUInt32]

/-- The arguments of the thread's part of the suffix. -/
def threadArgs (env : Environment) : List Arg :=
  [.word32 env.thread.id.toUInt32, .string (env.thread.name ++ [0])]

/-- `getSuffix`. -/
def getSuffix (r : StreamLogData) (env : Environment) : Option ByteArray :=
  ((ByteArray.fresh env.memory).writeFormatted r.suffixFormat
    r.suffixArgs).bind fun array =>
    if r.context.base.enableThreadInfo then
      array.writeFormatted r.suffixThreadNameFormat (threadArgs env)
    else some array

/-- `DEFAULT_WIDTH`. -/
def defaultWidth : Nat := 150

/-- The blanks that fill the line, one by one. -/
def writeBlanks (l : Levels) : Nat → StreamLogData → Option StreamLogData
  | 0, r => some r
  | n + 1, r => (r.writeFormatted l (ascii [' ']) []).bind (writeBlanks l n)

/-- What the width is left with behind the text and in front of the suffix;
the sizes are `size_t` and the result is an `int` again. -/
def remainingWidth (env : Environment) (contentSize suffixSize : Nat)
    (invisible : Int) : Int :=
  let width := if env.consoleWidth = 0 then defaultWidth
    else env.consoleWidth.toNat
  Int.bmod (width - (contentSize + suffixSize - invisible)) (2 ^ 32)

/-- The same for a suffix on the next line. -/
def nextLineWidth (env : Environment) (suffixSize : Nat) : Int :=
  Int.bmod (env.consoleWidth.toNat - suffixSize) (2 ^ 32)

/-- The line feed, if the suffix does not fit the line, and the blanks. -/
def writePadding (r : StreamLogData) (l : Levels) (env : Environment)
    (suffixSize : Nat) : Option StreamLogData :=
  let width := remainingWidth env r.content.size suffixSize
    r.invisibleCharacterCount
  if width < 0 then
    -- the line is too long; the width asked for again is the console's own
    (r.writeFormatted l (ascii ['\n']) []).bind fun r =>
      writeBlanks l (nextLineWidth env suffixSize).toNat r
  else writeBlanks l width.toNat r

/-- `writeSuffix`. -/
def writeSuffix (r : StreamLogData) (l : Levels) (env : Environment) :
    Option StreamLogData :=
  match r.context.kind with
  | .console =>
      (r.writeHeaderColor l).bind fun r =>
        (r.getSuffix env).bind fun suffixArray =>
          (suffixArray.writeFormatted (ascii ['\n']) []).bind
            fun suffixArray =>
              (r.writePadding l env suffixArray.size).bind fun r =>
                (r.writeFormatted l (ascii ['%', 's'])
                  [.string suffixArray.getData]).bind fun r =>
                    r.resetColor l
  | .file =>
      -- the text of the suffix is the format
      (r.getSuffix env).bind fun suffix =>
        (cString suffix.getData).bind fun format =>
          r.writeFormatted l format []

-- ==================================================== the life of a record

/-- A record as its members are initialised, over whatever the memory
held. -/
def fresh (memory : StaticData) (context : StreamLogContext)
    (data : LogInfo) : StreamLogData where
  context := context
  data := data
  content := .fresh memory

/-- `setPrefixFormat`. -/
def setPrefixFormat (r : StreamLogData) (format : List UInt8) :
    StreamLogData :=
  { r with prefixFormat := format }

/-- `setSuffixFormat`. -/
def setSuffixFormat (r : StreamLogData) (format : List UInt8) :
    StreamLogData :=
  { r with suffixFormat := format }

/-- `init`. -/
def init (r : StreamLogData) (l : Levels) (env : Environment) :
    Option StreamLogData :=
  if r.isEnabled l then r.writePrefix l env else some r

/-- `flushLog`, with the C string that is handed to `write` of the
context. -/
def flushLog (r : StreamLogData) (l : Levels) (env : Environment) :
    Option (StreamLogData × Option (List UInt8)) :=
  -- a record that was disabled since is not printed at all
  if r.isEnabled l then
    (r.writeSuffix l env).bind fun r =>
      (r.content.resize ((r.content.size + 1) % 2 ^ 64)).bind fun content =>
        (content.setAt (content.size - 1) 0).bind fun content =>
          (cString content.getData).map fun s =>
            ({ r with content := content }, some s)
  else some (r, none)

/-- `write` of the context. -/
def print (r : StreamLogData) (env : Environment) (s : List UInt8) :
    Option (OutputFile × List UInt8) :=
  (getFile env r.context.kind r.data.level).map fun file => (file, s)

end StreamLogData

/-- What happens between the beginning and the end of a record. -/
inductive Action
  | write (c : WriteCall)
  | setLogLevel (level : LogLevel)
  | setGlobalLogLevel (level : LogLevel)

/-- A record and the levels. -/
structure State where
  levels : Levels
  record : StreamLogData

/-- A value is written if the entry finds the record enabled. -/
def step (s : State) : Action → Option State
  | .write (.setHexEnabled enabled) =>
      (s.record.write s.levels (.setHexEnabled enabled)).map fun r =>
        { s with record := r }
  | .write c =>
      if s.record.isEnabled s.levels then
        (s.record.write s.levels c).map fun r => { s with record := r }
      else some s
  | .setLogLevel level =>
      some { s with levels := { s.levels with level := level } }
  | .setGlobalLogLevel level =>
      some { s with levels := { s.levels with defaultLogLevel := level } }

/-- A record behind its `init` and some actions. -/
def StreamLogData.after (r : StreamLogData) (l : Levels) (env : Environment)
    (as : List Action) : Option State :=
  (r.init l env).bind fun r => Transition.run step ⟨l, r⟩ as

/-- What a record prints when it is flushed. -/
def StreamLogData.output (r : StreamLogData) (l : Levels)
    (env : Environment) : Option (Option (OutputFile × List UInt8)) :=
  (r.flushLog l env).map fun flushed => flushed.2.bind (r.print env)

end Stream

end IviLogging
