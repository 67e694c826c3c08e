/-
The backends of the repository, as the template of the log contexts takes
them: the console, the file, and the DLT.

A backend keeps its contexts, what they share, and what it has done: the
texts that were printed, or the connections to the daemon. The stream
backends are one definition: a `FileLogContext` has the levels of a
`ConsoleLogContext`, and does not look at the one that all consoles share.
-/
import IviLogging.DltCpp.Control
import IviLogging.LogContext
import IviLogging.NativeValue
import IviLogging.Stream.ConsoleContext

namespace IviLogging

/-- What the system answers at the creation of an entry and at its end: the
clocks, the thread, the console, the memory that is not initialised, and the
result of the DLT library if it is asked to start a message then. -/
structure Moment where
  stream : Stream.Environment
  content : StaticData
  message : Vector UInt8 DltCpp.maxMessageSize
  uptime : UInt32
  logWriteStart : Int

/-- What is done to the backends besides logging. -/
inductive Command
  | stream (event : Stream.ConsoleEvent)
  | receive (chunk : DltCpp.Chunk)
  | setActiveLogLevel (c : DltCpp.ContextId) (level : Int)

-- =================================================================== streams

namespace Stream

/-- The contexts of a stream backend, what they were created with, and what
was printed. -/
structure Printer where
  contexts : ConsoleContexts
  parent : Nat → LogContextCommon
  printed : List (OutputFile × List UInt8) := []

namespace Printer

variable (s : Printer) (kind : Kind)

/-- A context, as its records see it. -/
def streamContext (c : Nat) : StreamLogContext where
  kind := kind
  context := s.parent c
  base := s.contexts.base
  colorSupport := (s.contexts.context c).colorSupport

/-- `init` of a new record. -/
def init (c : Nat) (info : LogInfo) (created : Moment) :
    Option StreamLogData :=
  (StreamLogData.fresh created.content (s.streamContext kind c) info).init
    (s.contexts.levels c) created.stream

/-- The destructor of a record: `flushLog`, and `write` of the context. -/
def destroy (c : Nat) (r : StreamLogData) (destroyed : Moment) :
    Option Printer :=
  (r.flushLog (s.contexts.levels c) destroyed.stream).map fun flushed =>
    match flushed.2.bind (r.print destroyed.stream) with
    | none => s
    | some text => { s with printed := s.printed ++ [text] }

end Printer

/-- A stream context type, with its records; a record knows its context. -/
def streamLogContext (kind : Kind) :
    BackendType NativeValue Moment Command where
  State := Printer
  Data := Nat × StreamLogData
  registerContext s _ :=
    some { s with contexts := s.contexts.registerContext }
  isEnabled s c level := (s.contexts.levels c).isEnabled kind level
  init s c info created :=
    (s.init kind c info created).map fun r => (s, (c, r))
  dataEnabled s d := d.2.isEnabled (s.contexts.levels d.1)
  write s d v :=
    (d.2.write (s.contexts.levels d.1) v.streamCall).map fun r => (d.1, r)
  setHexEnabled d enabled :=
    (d.1, { d.2 with data := { d.2.data with hexEnabled := enabled } })
  destroy s d destroyed := s.destroy d.1 d.2 destroyed
  control s command :=
    match command with
    | .stream event => some { s with contexts := s.contexts.step event }
    | _ => some s

/-- `ConsoleLogContext`, with `ConsoleLogData`. -/
def consoleLogContext : BackendType NativeValue Moment Command :=
  streamLogContext .console

/-- `FileLogContext`, with `FileLogData`. -/
def fileLogContext : BackendType NativeValue Moment Command :=
  streamLogContext .file

end Stream

-- ======================================================================= DLT

namespace DltCpp

variable [DltConstants] (env : Environment)

/-- `DltCppContextClass`, with `DltCppLogData`. -/
def dltCppContextClass : BackendType NativeValue Moment Command where
  State := DaemonConnection
  Data := LogData
  registerContext s c := step env s (.registerContext c)
  isEnabled s c level := (s.object c).isEnabled level
  init s c info created :=
    some (s.modify c fun context =>
        { context with messageCount := context.messageCount + 1 },
      LogData.fresh created.message c info
        (DltCppContext.getDLTLogLevel info.level)
        ((s.object c).isEnabled info.level) (s.object c).messageCount)
  dataEnabled _ d := d.enabled
  write _ d v := some (d.call v.dltCppCall)
  setHexEnabled d enabled := d.setHexEnabled enabled
  destroy s d destroyed :=
    if d.enabled then
      step env s (.sendLog destroyed.uptime
        (d.writeTrailer env.base destroyed.stream.thread))
    else some s
  control s command :=
    match command with
    | .receive chunk => step env s (.receive chunk)
    | .setActiveLogLevel c level => some (s.setActiveLogLevel c level)
    | .stream _ => some s

end DltCpp

end IviLogging
