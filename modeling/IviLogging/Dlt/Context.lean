/-
The backend on the DLT library (`DltContextClass`, `DltLogData`).

# The library

The library is not part of the repository. What is here is what the
backend calls, in the order of the calls, and what it makes of the answers:
the result of `dlt_register_app`, the level behind the pointer of a
registered context, which the daemon may change, and the result of
`dlt_user_log_write_start`, which may be another one at each start, and so
is part of the `Moment` in which an entry is created. The writes of a record
go into the message that its start has begun, and come out with its end.

# The build

`isEnabled` is the one of a build without `DLT_2_9`, which no build file
defines. The other one is a call of the library as well: it starts a message
on a record of its own, which nothing finishes.
-/
import IviLogging.Application
import IviLogging.ContextTypes

namespace IviLogging.Dlt

open Printf (snprintf)

-- =============================================================== the library

/-- A function `dlt_user_log_write_..`, with what it puts into a message. -/
inductive UserLogWrite
  | bool (v : Bool)
  | string (v : List UInt8)
  | utf8String (v : List UInt8)
  | float32 (bits : UInt32)
  | float64 (bits : UInt64)
  | int8 (v : Int8)
  | int16 (v : Int16)
  | int32 (v : Int32)
  | int64 (v : Int64)
  | uint8 (v : UInt8)
  | uint16 (v : UInt16)
  | uint32 (v : UInt32)
  | uint64 (v : UInt64)
  | uint8Formatted (v : UInt8)
  | uint16Formatted (v : UInt16)
  | uint32Formatted (v : UInt32)
  | uint64Formatted (v : UInt64)

/-- The other calls: what registers, and the start and the end of a message;
the start with its result, the end with what was written in between. -/
inductive LibraryCall
  | registerApp (id description : List UInt8)
  | registerContext (c : Nat) (id description : List UInt8)
  | logWriteStart (c : Nat) (dltLogLevel result : Int)
  | logWriteFinish (c : Nat) (dltLogLevel : Int) (written : List UserLogWrite)

/-- The process, and the library: its result for an application, and the
level that a context is registered with. -/
structure Environment where
  pid : Int32
  app : AppLogContext
  base : LogContextBase
  registerApp : List UInt8 → List UInt8 → Int
  registeredLevel : Nat → Option Int

-- ============================================================== the contexts

/-- All contexts of the backend: `isDLTAppRegistered`, what is behind their
`log_level_ptr`, and the calls. -/
structure DltContexts where
  parent : Nat → LogContextCommon
  appRegistered : Bool := false
  logLevel : Nat → Option Int := fun _ => none
  calls : List LibraryCall := []

namespace DltContexts

variable (env : Environment) (s : DltContexts)

/-- A call of the library. -/
def call (c : LibraryCall) : DltContexts := { s with calls := s.calls ++ [c] }

/-- `"%s / PID:%i"`. -/
def descriptionFormat : List UInt8 :=
  37 :: 115 :: (ascii [' ', '/', ' ', 'P', 'I', 'D', ':'] ++ [37, 105])

/-- What `snprintf` leaves in a buffer, which is not initialised. -/
def formatted (size : Nat) (format : List UInt8) (args : List Printf.Arg) :
    Option (List UInt8) :=
  (snprintf format args).bind fun
    | .printed text => some (cText ((Printf.Outcome.printed text).written size))
    | .failed => none

/-- `registerDLTApp`. -/
def registerDLTApp (id description : List UInt8) : Option DltContexts := do
  let descriptionWithPID ← formatted 1024 descriptionFormat
    [.string (description ++ [0]), .word32 env.pid.toUInt32]
  let s := s.call (.registerApp id descriptionWithPID)
  if env.registerApp id descriptionWithPID ≠ 0 then do
    let pidAsHexString ← formatted 5 [37, 88] [.word32 env.pid.toUInt32]
    some { s.call (.registerApp pidAsHexString descriptionWithPID) with
      appRegistered := true }
  else some { s with appRegistered := true }

/-- `registerContext`. -/
def registerContext (c : Nat) : Option DltContexts :=
  (if s.appRegistered then some s
    else s.registerDLTApp env (cText env.app.id.chars)
      (cText env.app.description.chars)).map fun s =>
    { s.call (.registerContext c (cText (s.parent c).id.chars)
        (cText (s.parent c).description.chars)) with
      logLevel := Function.update s.logLevel c (env.registeredLevel c) }

/-- The level of a context that the daemon sets. -/
def setLogLevel (c : Nat) (level : Int) : DltContexts :=
  { s with logLevel :=
      Function.update s.logLevel c ((s.logLevel c).map fun _ => level) }

variable [DltCpp.DltConstants]

/-- `getDLTLogLevel`. -/
def getDLTLogLevel : LogLevel → Int := DltCpp.DltCppContext.getDLTLogLevel

/-- `isEnabled`, without `DLT_2_9`. -/
def isEnabled (c : Nat) (level : LogLevel) : Bool :=
  let dltLogLevel := getDLTLogLevel level
  match s.logLevel c with
  | none => false
  | some l => decide (dltLogLevel ≤ l) && decide (dltLogLevel ≠ 0)

end DltContexts

-- =============================================================== the records

/-- `DltLogData`, with what the message that it began has in it. -/
structure LogData where
  context : Nat
  data : LogInfo
  dltLogLevel : Int
  enabled : Bool
  written : List UserLogWrite := []

/-- The overloads of `write`, and the hex switch. -/
inductive WriteCall
  | bool (v : Bool)
  | cString (v : List UInt8)
  | stringView (v : List UInt8)
  | string (v : List UInt8)
  | float (bits : UInt32)
  | double (bits : UInt64)
  | uint64 (v : UInt64)
  | int64 (v : Int64)
  | uint32 (v : UInt32)
  | int32 (v : Int32)
  | uint16 (v : UInt16)
  | int16 (v : Int16)
  | uint8 (v : UInt8)
  | int8 (v : Int8)

namespace LogData

variable (d : LogData)

/-- A call of a `dlt_user_log_write_..`. -/
def put (w : UserLogWrite) : LogData := { d with written := d.written ++ [w] }

/-- `isHexEnabled`. -/
def isHexEnabled : Bool := d.data.hexEnabled

/-- `setHexEnabled` of the `LogInfo`. -/
def setHexEnabled (enabled : Bool) : LogData :=
  { d with data := { d.data with hexEnabled := enabled } }

/-- `writeFormatted`, into a buffer of 65536 bytes. -/
def writeFormatted (format : List UInt8) (args : List Printf.Arg) :
    Option LogData :=
  if d.enabled then
    (DltContexts.formatted 65536 format args).map fun buffer =>
      d.put (.utf8String buffer)
  else some d

/-- `write`. -/
def write : WriteCall → Option LogData
  | .bool v => some (d.put (.bool v))
  | .cString v => some (d.put (.utf8String (cText v)))
  | .stringView v =>
      d.writeFormatted (ascii ['%', '.', '*', 's'])
        [.word32 (UInt32.ofNat v.length), .string v]
  | .string v => some (d.put (.utf8String (cText v)))
  | .float bits => some (d.put (.float32 bits))
  | .double bits => some (d.put (.float64 bits))
  | .uint64 v =>
      some (d.put (if d.isHexEnabled then .uint64Formatted v else .uint64 v))
  | .int64 v => some (d.put (.int64 v))
  | .uint32 v =>
      some (d.put (if d.isHexEnabled then .uint32Formatted v else .uint32 v))
  | .int32 v => some (d.put (.int32 v))
  | .uint16 v =>
      some (d.put (if d.isHexEnabled then .uint16Formatted v else .uint16 v))
  | .int16 v => some (d.put (.int16 v))
  | .uint8 v =>
      some (d.put (if d.isHexEnabled then .uint8Formatted v else .uint8 v))
  | .int8 v => some (d.put (.int8 v))

/-- The writes of `~DltLogData`. -/
def writeTrailer (base : LogContextBase) (thread : ThreadInformation) :
    LogData :=
  let d := if base.enableSourceCodeLocationInfo then
      let d := d.put (.utf8String DltCpp.LogData.locationSeparator)
      let d := d.put (.utf8String (cText d.data.getFileName))
      let d := if d.data.lineNumber ≠ -1 then
          d.put (.uint32 d.data.lineNumber.toUInt32)
        else d
      match d.data.prettyFunction with
      | some f => d.put (.utf8String (cText f))
      | none => d
    else d
  if base.enableThreadInfo then
    let d := d.put
      (.string (ascii ['T', 'h', 'r', 'e', 'a', 'd', 'I', 'D']))
    let d := d.put (.uint8 thread.id.toUInt32.toUInt8)
    d.put (.string (cText thread.name))
  else d

end LogData

/-- The overload of `DltLogData::write` that a native value takes. -/
def overload : NativeValue → WriteCall
  | .bool v => .bool v
  | .char v => .int32 v.toInt32
  | .signedChar v => .int8 v
  | .unsignedChar v => .uint8 v
  | .short v => .int16 v
  | .unsignedShort v => .uint16 v
  | .int v => .int32 v
  | .unsignedInt v => .uint32 v
  | .long v => .int64 v
  | .unsignedLong v => .uint64 v
  | .float bits => .float bits
  | .double bits => .double bits
  | .pointer address => .bool (decide (address ≠ 0))
  | .cString v => .cString v.bytes
  | .stringView v => .stringView v.bytes
  | .string v => .string v.bytes

-- =============================================================== the backend

variable [DltCpp.DltConstants] (env : Environment)

/-- `DltContextClass`, with `DltLogData`. -/
def dltContextClass : BackendType NativeValue Moment Command where
  State := DltContexts
  Data := LogData
  registerContext s c := s.registerContext env c
  isEnabled s c level := s.isEnabled c level
  init s c info created :=
    let dltLogLevel := DltContexts.getDLTLogLevel info.level
    let result := created.logWriteStart
    some (s.call (.logWriteStart c dltLogLevel result),
      { context := c
        data := info
        dltLogLevel := dltLogLevel
        enabled := decide (0 < result) })
  dataEnabled _ d := d.enabled
  write _ d v := d.write (overload v)
  setHexEnabled d enabled := d.setHexEnabled enabled
  destroy s d destroyed :=
    if d.enabled then
      some (s.call (.logWriteFinish d.context d.dltLogLevel
        (d.writeTrailer env.base destroyed.stream.thread).written))
    else some s
  control s command :=
    match command with
    | .setActiveLogLevel c level => some (s.setLogLevel c level)
    | _ => some s

end IviLogging.Dlt
