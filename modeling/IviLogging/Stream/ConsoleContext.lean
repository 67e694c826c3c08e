/-
The contexts of the console, and the environment (`ConsoleLogContext`,
`DefaultConsoleLogContext`, `LogContextBase::registerContext`).

# The levels

A context has a level of its own, and all of them share one
(`s_defaultLogLevel`); a record is printed if both let it through.

# The variables

The first `ConsoleLogContext` that is constructed reads two variables, and
may set the level that all consoles share by them. The first context that
is registered reads two others, for the switches that all contexts share.
Each of the two reads is made once, so a variable that is set later is not
seen.

Any of the variables may be set at any time. `tolower` is that of the C
locale.
-/
import IviLogging.Stream.StreamLogData
import Mathlib.Logic.Function.Basic

namespace IviLogging.Stream

-- =========================================================== the environment

/-- What `getenv` gives for a name. -/
abbrev Variables := List UInt8 → Option (List UInt8)

/-- `LOGGING_ENABLE_CONSOLE`. -/
def enableConsole : List UInt8 :=
  ascii ['L', 'O', 'G', 'G', 'I', 'N', 'G', '_', 'E', 'N', 'A', 'B', 'L', 'E',
    '_', 'C', 'O', 'N', 'S', 'O', 'L', 'E']

/-- `LOGGING_CONSOLE_LOGLEVEL`. -/
def consoleLogLevel : List UInt8 :=
  ascii ['L', 'O', 'G', 'G', 'I', 'N', 'G', '_', 'C', 'O', 'N', 'S', 'O', 'L',
    'E', '_', 'L', 'O', 'G', 'L', 'E', 'V', 'E', 'L']

/-- `LOGGING_ENABLE_SOURCE_CODE_INFORMATION`. -/
def enableSourceCodeInformation : List UInt8 :=
  ascii ['L', 'O', 'G', 'G', 'I', 'N', 'G', '_', 'E', 'N', 'A', 'B', 'L', 'E',
    '_', 'S', 'O', 'U', 'R', 'C', 'E', '_', 'C', 'O', 'D', 'E', '_', 'I', 'N',
    'F', 'O', 'R', 'M', 'A', 'T', 'I', 'O', 'N']

/-- `LOGGING_ENABLE_THREAD_INFORMATION`. -/
def enableThreadInformation : List UInt8 :=
  ascii ['L', 'O', 'G', 'G', 'I', 'N', 'G', '_', 'E', 'N', 'A', 'B', 'L', 'E',
    '_', 'T', 'H', 'R', 'E', 'A', 'D', '_', 'I', 'N', 'F', 'O', 'R', 'M', 'A',
    'T', 'I', 'O', 'N']

/-- `readEnvVarAsBool`. -/
def readEnvVarAsBool (getenv : Variables) (varName : List UInt8)
    (defaultValue : Bool := false) : Bool :=
  match getenv varName with
  | none => defaultValue
  | some value => decide (value = ascii ['1'])

/-- `std::tolower`. -/
def tolower (c : UInt8) : UInt8 := if 65 ≤ c ∧ c ≤ 90 then c + 32 else c

/-- `logLevelStrings`. -/
def logLevelStrings : List (LogLevel × List UInt8) :=
  [(.none, ascii ['n', 'o', 'n', 'e']),
    (.fatal, ascii ['f', 'a', 't', 'a', 'l']),
    (.error, ascii ['e', 'r', 'r', 'o', 'r']),
    (.warning, ascii ['w', 'a', 'r', 'n', 'i', 'n', 'g']),
    (.info, ascii ['i', 'n', 'f', 'o']),
    (.debug, ascii ['d', 'e', 'b', 'u', 'g']),
    (.verbose, ascii ['v', 'e', 'r', 'b', 'o', 's', 'e'])]

/-- `s_defaultLogLevel` behind the check of the variables. -/
def checkEnvVars (getenv : Variables) (defaultLogLevel : LogLevel) :
    LogLevel :=
  if readEnvVarAsBool getenv enableConsole true then
    match getenv consoleLogLevel with
    | none => defaultLogLevel
    | some logLevelEnv =>
        let levelString := logLevelEnv.map tolower
        logLevelStrings.foldl
          (fun level entry =>
            if levelString = entry.2 then entry.1 else level)
          defaultLogLevel
  else .none

-- ============================================================== the contexts

/-- A `ConsoleLogContext`. -/
structure ConsoleLogContext where
  level : LogLevel := .debug
  colorSupport : Bool := false

/-- The contexts, by their addresses, the static members, and the
variables. -/
structure ConsoleContexts where
  getenv : Variables
  base : LogContextBase := ⟨false, false⟩
  initialized : Bool := false
  defaultLogLevel : LogLevel := .debug
  envVarCheckDone : Bool := false
  context : Nat → ConsoleLogContext := fun _ => {}

namespace ConsoleContexts

/-- `setLogLevel`. -/
def setLogLevel (s : ConsoleContexts) (c : Nat) (level : LogLevel) :
    ConsoleContexts :=
  { s with
    context := Function.update s.context c
      { s.context c with level := level } }

/-- `setGlobalLogLevel`. -/
def setGlobalLogLevel (s : ConsoleContexts) (level : LogLevel) :
    ConsoleContexts :=
  { s with defaultLogLevel := level }

/-- The constructor of `ConsoleLogContext`, for a width of the console. -/
def construct (s : ConsoleContexts) (c : Nat) (consoleWidth : UInt16) :
    ConsoleContexts :=
  let s := { s with
    context := Function.update s.context c
      { colorSupport := decide (consoleWidth ≠ 0) } }
  let s := if !s.envVarCheckDone then
      { s with
        defaultLogLevel := checkEnvVars s.getenv s.defaultLogLevel
        envVarCheckDone := true }
    else s
  s.setLogLevel c s.defaultLogLevel

/-- The constructor of `DefaultConsoleLogContext`. -/
def constructDefault (s : ConsoleContexts) (c : Nat)
    (consoleWidth : UInt16) : ConsoleContexts :=
  (s.construct c consoleWidth).setLogLevel c .debug

/-- `LogContextBase::registerContext`. -/
def registerContext (s : ConsoleContexts) : ConsoleContexts :=
  if !s.initialized then
    { s with
      base := {
        enableSourceCodeLocationInfo :=
          readEnvVarAsBool s.getenv enableSourceCodeInformation
        enableThreadInfo :=
          readEnvVarAsBool s.getenv enableThreadInformation }
      initialized := true }
  else s

/-- The levels that a record of a context looks at. -/
def levels (s : ConsoleContexts) (c : Nat) : Levels :=
  ⟨(s.context c).level, s.defaultLogLevel⟩

/-- `ConsoleLogContext::isEnabled`. -/
def isEnabled (s : ConsoleContexts) (c : Nat) (severity : LogLevel) : Bool :=
  (s.levels c).isEnabled .console severity

end ConsoleContexts

/-- What can happen to them. -/
inductive ConsoleEvent
  | setenv (name : List UInt8) (value : Option (List UInt8))
  | construct (c : Nat) (consoleWidth : UInt16)
  | constructDefault (c : Nat) (consoleWidth : UInt16)
  | setLogLevel (c : Nat) (level : LogLevel)
  | setGlobalLogLevel (level : LogLevel)
  | registerContext

namespace ConsoleContexts

/-- The contexts behind an event. -/
def step (s : ConsoleContexts) : ConsoleEvent → ConsoleContexts
  | .setenv name value =>
      { s with getenv := Function.update s.getenv name value }
  | .construct c consoleWidth => s.construct c consoleWidth
  | .constructDefault c consoleWidth => s.constructDefault c consoleWidth
  | .setLogLevel c level => s.setLogLevel c level
  | .setGlobalLogLevel level => s.setGlobalLogLevel level
  | .registerContext => s.registerContext

/-- The contexts behind some events, from the start of the process on. -/
def run (getenv : Variables) (events : List ConsoleEvent) :
    ConsoleContexts :=
  events.foldl step { getenv := getenv }

end ConsoleContexts

end IviLogging.Stream
