/-
The frames on the daemon's pipe.

# Structures

First the packed structures of ivi-logging-dltcpp.cpp and their bytes. Each
has a reader that takes it off the front of a stream and undoes the writer,
whatever follows. Fields are stored as the program stores them: `len`,
`seid` and `tmsp` hold values already in network byte order.

# Frames

Then the three frames the sources assemble from them, each built as its
function builds it: the application's registration, a context's
registration, and a log message. The application's one is made from a buffer
on the stack and a length that `snprintf` gave, which may say more than the
buffer holds, so the bytes behind the buffer are among its arguments.

# The reader

Last the reader of the daemon's side, which is told nothing but a frame's
message type and length fields. It is a `Format`, so streams of frames can
be split as soon as one frame can be read.
-/
import IviLogging.DltCpp.Verbose
import IviLogging.Lib.Packed

namespace IviLogging.DltCpp

open DltConstants
open LittleEndian (ofUInt16 ofUInt32 ofInt32 swap)
open Packed (readUInt8 readInt8 readUInt16 readUInt32 readInt32)

-- ========================================================== identifiers

/-- A `char[DLT_ID_SIZE]`. -/
structure DltId where
  b0 : UInt8
  b1 : UInt8
  b2 : UInt8
  b3 : UInt8
  deriving DecidableEq, Repr

namespace DltId

/-- The bytes of an id field. -/
def bytes (x : DltId) : List UInt8 := [x.b0, x.b1, x.b2, x.b3]

/-- Read an id field. -/
def read : Reader UInt8 DltId
  | b0 :: b1 :: b2 :: b3 :: rest => some (⟨b0, b1, b2, b3⟩, rest)
  | _ => none

@[simp] theorem read_append (x : DltId) (rest : List UInt8) :
    read (x.bytes ++ rest) = some (x, rest) := rfl

@[simp] theorem length_bytes (x : DltId) : x.bytes.length = dltIdSize := rfl

/-- A zero-initialised id field. -/
def zero : DltId := ⟨0, 0, 0, 0⟩

end DltId

/-- `assign_id`: the first four bytes at an address. -/
def assignId (src : Nat → UInt8) : DltId := ⟨src 0, src 1, src 2, src 3⟩

-- ==================================================== packed structures

/-- `MessageType`. -/
inductive MessageType
  | sendLog | registerApp | registerContext | logState | logLevel
  deriving DecidableEq, Repr

/-- The enumerators' values. -/
def MessageType.word : MessageType → UInt32
  | .sendLog => 1
  | .registerApp => 2
  | .registerContext => 4
  | .logState => 12
  | .logLevel => 6

/-- `DltUserHeader`; its pattern is initialised to `DUH` and 1. -/
structure DltUserHeader where
  pattern : DltId := ⟨68, 85, 72, 1⟩
  message : UInt32
  deriving DecidableEq

/-- `DltUserControlMsgRegisterApplication`. -/
structure DltUserControlMsgRegisterApplication where
  apid : DltId
  pid : Int32
  descriptionLength : UInt32
  deriving DecidableEq

/-- `DltUserControlMsgRegisterContext`. -/
structure DltUserControlMsgRegisterContext where
  apid : DltId
  ctid : DltId
  logLevelPos : Int32
  logLevel : Int8
  traceStatus : Int8
  pid : Int32
  descriptionLength : UInt32
  deriving DecidableEq

/-- `DltStandardHeader`. -/
structure DltStandardHeader where
  htyp : UInt8
  mcnt : UInt8
  len : UInt16
  deriving DecidableEq

/-- `DltStandardHeaderExtra`; its ECU id is initialised to `ECU1`. -/
structure DltStandardHeaderExtra where
  ecu : DltId := ⟨69, 67, 85, 49⟩
  seid : UInt32
  tmsp : UInt32
  deriving DecidableEq

/-- `DltExtendedHeader`. -/
structure DltExtendedHeader where
  msin : UInt8
  noar : UInt8
  apid : DltId
  ctid : DltId
  deriving DecidableEq

/-- `sizeof(DltUserHeader)`. -/
def sizeofDltUserHeader : Nat := dltIdSize + 4

/-- `sizeof(DltStandardHeader)`. -/
def sizeofDltStandardHeader : Nat := 4

/-- `sizeof(DltExtendedHeader)`. -/
def sizeofDltExtendedHeader : Nat := 2 + dltIdSize + dltIdSize

namespace DltUserHeader

/-- The bytes of the structure. -/
def bytes (x : DltUserHeader) : List UInt8 :=
  x.pattern.bytes ++ ofUInt32 x.message

/-- Read the structure. -/
def read : Reader UInt8 DltUserHeader := fun bs => do
  let (pattern, bs) ← DltId.read bs
  let (message, bs) ← readUInt32 bs
  some (⟨pattern, message⟩, bs)

@[simp] theorem read_append (x : DltUserHeader) (rest : List UInt8) :
    read (x.bytes ++ rest) = some (x, rest) := by
  simp [read, bytes, List.append_assoc]

theorem length_bytes (x : DltUserHeader) :
    x.bytes.length = sizeofDltUserHeader := by
  simp [bytes, sizeofDltUserHeader]

end DltUserHeader

namespace DltUserControlMsgRegisterApplication

/-- The bytes of the structure. -/
def bytes (x : DltUserControlMsgRegisterApplication) : List UInt8 :=
  x.apid.bytes ++ ofInt32 x.pid ++ ofUInt32 x.descriptionLength

/-- Read the structure. -/
def read : Reader UInt8 DltUserControlMsgRegisterApplication := fun bs => do
  let (apid, bs) ← DltId.read bs
  let (pid, bs) ← readInt32 bs
  let (descriptionLength, bs) ← readUInt32 bs
  some (⟨apid, pid, descriptionLength⟩, bs)

@[simp] theorem read_append (x : DltUserControlMsgRegisterApplication)
    (rest : List UInt8) : read (x.bytes ++ rest) = some (x, rest) := by
  simp [read, bytes, List.append_assoc]

end DltUserControlMsgRegisterApplication

namespace DltUserControlMsgRegisterContext

/-- The bytes of the structure. -/
def bytes (x : DltUserControlMsgRegisterContext) : List UInt8 :=
  x.apid.bytes ++ x.ctid.bytes ++ ofInt32 x.logLevelPos
    ++ [x.logLevel.toUInt8, x.traceStatus.toUInt8]
    ++ ofInt32 x.pid ++ ofUInt32 x.descriptionLength

/-- Read the structure. -/
def read : Reader UInt8 DltUserControlMsgRegisterContext := fun bs => do
  let (apid, bs) ← DltId.read bs
  let (ctid, bs) ← DltId.read bs
  let (logLevelPos, bs) ← readInt32 bs
  let (logLevel, bs) ← readInt8 bs
  let (traceStatus, bs) ← readInt8 bs
  let (pid, bs) ← readInt32 bs
  let (descriptionLength, bs) ← readUInt32 bs
  some (⟨apid, ctid, logLevelPos, logLevel, traceStatus, pid,
    descriptionLength⟩, bs)

@[simp] theorem read_append (x : DltUserControlMsgRegisterContext)
    (rest : List UInt8) : read (x.bytes ++ rest) = some (x, rest) := by
  simp [read, bytes, List.append_assoc]

end DltUserControlMsgRegisterContext

namespace DltStandardHeader

/-- The bytes of the structure. -/
def bytes (x : DltStandardHeader) : List UInt8 :=
  [x.htyp, x.mcnt] ++ ofUInt16 x.len

/-- Read the structure. -/
def read : Reader UInt8 DltStandardHeader := fun bs => do
  let (htyp, bs) ← readUInt8 bs
  let (mcnt, bs) ← readUInt8 bs
  let (len, bs) ← readUInt16 bs
  some (⟨htyp, mcnt, len⟩, bs)

@[simp] theorem read_append (x : DltStandardHeader) (rest : List UInt8) :
    read (x.bytes ++ rest) = some (x, rest) := by
  simp [read, bytes]

end DltStandardHeader

namespace DltStandardHeaderExtra

/-- The bytes of the structure. -/
def bytes (x : DltStandardHeaderExtra) : List UInt8 :=
  x.ecu.bytes ++ ofUInt32 x.seid ++ ofUInt32 x.tmsp

/-- Read the structure. -/
def read : Reader UInt8 DltStandardHeaderExtra := fun bs => do
  let (ecu, bs) ← DltId.read bs
  let (seid, bs) ← readUInt32 bs
  let (tmsp, bs) ← readUInt32 bs
  some (⟨ecu, seid, tmsp⟩, bs)

@[simp] theorem read_append (x : DltStandardHeaderExtra)
    (rest : List UInt8) : read (x.bytes ++ rest) = some (x, rest) := by
  simp [read, bytes, List.append_assoc]

end DltStandardHeaderExtra

namespace DltExtendedHeader

/-- The bytes of the structure. -/
def bytes (x : DltExtendedHeader) : List UInt8 :=
  [x.msin, x.noar] ++ x.apid.bytes ++ x.ctid.bytes

/-- Read the structure. -/
def read : Reader UInt8 DltExtendedHeader := fun bs => do
  let (msin, bs) ← readUInt8 bs
  let (noar, bs) ← readUInt8 bs
  let (apid, bs) ← DltId.read bs
  let (ctid, bs) ← DltId.read bs
  some (⟨msin, noar, apid, ctid⟩, bs)

@[simp] theorem read_append (x : DltExtendedHeader) (rest : List UInt8) :
    read (x.bytes ++ rest) = some (x, rest) := by
  simp [read, bytes, List.append_assoc]

end DltExtendedHeader

-- =========================================================== byte order

/-- `htons` on a little-endian host; `ntohs` is the same exchange. -/
def htons (v : UInt16) : UInt16 := UInt16.ofNat (swap 2 v.toNat)

/-- `htonl` on a little-endian host. -/
def htonl (v : UInt32) : UInt32 := UInt32.ofNat (swap 4 v.toNat)

/-- Exchanging the bytes twice gives the value back. -/
theorem htons_htons (v : UInt16) : htons (htons v) = v := by
  have hlt : v.toNat < 256 ^ 2 := v.toNat_lt
  have hswap : swap 2 v.toNat < 2 ^ 16 := LittleEndian.swap_lt 2 v.toNat
  unfold htons
  rw [UInt16.toNat_ofNat', Nat.mod_eq_of_lt hswap,
    LittleEndian.swap_swap hlt, UInt16.ofNat_toNat]

-- ============================================================== contexts

/-- `DltCppContextClass`. -/
structure DltCppContext where
  parent : LogContextCommon
  extendedHeader : DltExtendedHeader
  messageCount : UInt8
  logLevelPos : Int32
  activeLogLevel : Int

namespace DltCppContext

variable [DltConstants]

/-- A context as its members are initialised. -/
def fresh (parent : LogContextCommon) : DltCppContext where
  parent := parent
  extendedHeader :=
    { msin := dltMsinVerb ||| (dltTypeLog <<< dltMsinMstpShift)
      noar := 0
      apid := .zero
      ctid := .zero }
  messageCount := 0
  logLevelPos := -1
  activeLogLevel := dltLogVerbose

/-- `getDLTLogLevel`. -/
def getDLTLogLevel : LogLevel → Int
  | .debug => dltLogDebug
  | .info => dltLogInfo
  | .warning => dltLogWarn
  | .fatal => dltLogFatal
  | .error => dltLogError
  | .verbose => dltLogVerbose
  | .none => dltLogOff
  | _ => dltLogDefault

/-- `isEnabled`. -/
def isEnabled (context : DltCppContext) (level : LogLevel) : Bool :=
  decide (getDLTLogLevel level ≤ context.activeLogLevel)

end DltCppContext

-- =============================================================== frames

/-- One `writev` to the daemon: the structures and the trailing bytes it
gathers. -/
inductive Frame
  | registerApp (userHeader : DltUserHeader)
      (message : DltUserControlMsgRegisterApplication)
      (description : List UInt8)
  | registerContext (userHeader : DltUserHeader)
      (message : DltUserControlMsgRegisterContext)
      (description : List UInt8)
  | sendLog (userHeader : DltUserHeader)
      (standardheader : DltStandardHeader)
      (headerextra : DltStandardHeaderExtra)
      (extendedheader : DltExtendedHeader)
      (payload : List UInt8)
  deriving DecidableEq

namespace Frame

/-- The bytes handed to `writev`. -/
def bytes : Frame → List UInt8
  | .registerApp userHeader message description =>
      userHeader.bytes ++ (message.bytes ++ description)
  | .registerContext userHeader message description =>
      userHeader.bytes ++ (message.bytes ++ description)
  | .sendLog userHeader standardheader headerextra extendedheader payload =>
      userHeader.bytes ++ (standardheader.bytes ++ (headerextra.bytes
        ++ (extendedheader.bytes ++ payload)))

end Frame

/-- The `%i` conversion. -/
def decimal (n : Int) : List UInt8 :=
  (if n < 0 then [45] else []) ++ ascii (Nat.toDigits 10 n.natAbs)

/-- The text of the format `"%s / PID:%i"`. -/
def descriptionText (app : AppLogContext) (pid : Int32) : List UInt8 :=
  cText app.description.chars
    ++ ascii [' ', '/', ' ', 'P', 'I', 'D', ':'] ++ decimal pid.toInt

/-- The memory from `descriptionWithPID` on, once `snprintf` has filled
the 1024 bytes there over what the stack held. -/
def descriptionWithPID (text : List UInt8) (stack : Nat → UInt8) (i : Nat) :
    UInt8 :=
  if i < (text.take 1023 ++ [0]).length then
    (text.take 1023 ++ [0]).getD i 0
  else stack i

/-- The result of that `snprintf` as a `uint32_t`: the length of the
text, or the cast of -1 when it exceeds an `int`. -/
def descriptionLength (text : List UInt8) : UInt32 :=
  if text.length < 2 ^ 31 then UInt32.ofNat text.length else 4294967295

/-- The RegisterApp frame of `initDaemonConnection`. Its description is
a span of `descriptionLength` bytes from the start of the buffer. -/
def registerAppFrame (app : AppLogContext) (pid : Int32)
    (stack : Nat → UInt8) : Frame :=
  let text := descriptionText app pid
  .registerApp { message := MessageType.registerApp.word }
    { apid := assignId app.id.cStr
      pid := pid
      descriptionLength := descriptionLength text }
    ((List.range (descriptionLength text).toNat).map
      (descriptionWithPID text stack))

/-- `registerMessage` of `sendContextRegistration`. -/
def registerMessage (app : AppLogContext) (pid : Int32)
    (context : DltCppContext) : DltUserControlMsgRegisterContext where
  apid := assignId app.id.cStr
  ctid := assignId context.parent.id.cStr
  logLevelPos := context.logLevelPos
  logLevel := -2
  traceStatus := -2
  pid := pid
  descriptionLength :=
    UInt32.ofNat (cText context.parent.description.chars).length

/-- The RegisterContext frame of `sendContextRegistration`. -/
def registerContextFrame (app : AppLogContext) (pid : Int32)
    (context : DltCppContext) : Frame :=
  .registerContext { message := MessageType.registerContext.word }
    (registerMessage app pid context)
    (cText context.parent.description.chars)

section SendLog

variable [DltConstants]

/-- `DLT_MSIN_MTIN` bits of a level, cast to `uint8_t`. -/
def mtinBits (dltLogLevel : Int) : UInt8 :=
  UInt8.ofNat ((dltLogLevel * 2 ^ dltMsinMtinShift % 256).toNat)
    &&& dltMsinMtin

/-- The standard-header length `sendLog` computes, in host byte order. -/
def standardheaderLen (data : LogData) : UInt16 :=
  UInt16.ofNat (sizeofDltStandardHeader + sizeofDltExtendedHeader
    + dltStandardHeaderExtraSize defaultHtyp + data.contentSize)

/-- The SendLog frame of `sendLog`. -/
def sendLogFrame (pid : Int32) (uptime : UInt32) (context : DltCppContext)
    (data : LogData) : Frame :=
  .sendLog { message := MessageType.sendLog.word }
    { htyp := defaultHtyp
      mcnt := data.messageCount
      len := htons (standardheaderLen data) }
    { seid := htonl pid.toUInt32
      tmsp := htonl uptime }
    { context.extendedHeader with
      msin := context.extendedHeader.msin ||| mtinBits data.dltLogLevel
      noar := data.argsCount }
    (data.content.take data.contentSize)

end SendLog

-- ============================================================ the reader

namespace Frame

/-- Read one frame: the message type says which structures come, and
their length field how many bytes follow them. -/
def read : Reader UInt8 Frame := fun bs => do
  let (userHeader, bs) ← DltUserHeader.read bs
  if userHeader.message = MessageType.registerApp.word then
    let (message, bs) ← DltUserControlMsgRegisterApplication.read bs
    let (description, bs) ← Reader.take message.descriptionLength.toNat bs
    some (.registerApp userHeader message description, bs)
  else if userHeader.message = MessageType.registerContext.word then
    let (message, bs) ← DltUserControlMsgRegisterContext.read bs
    let (description, bs) ← Reader.take message.descriptionLength.toNat bs
    some (.registerContext userHeader message description, bs)
  else if userHeader.message = MessageType.sendLog.word then
    let (standardheader, bs) ← DltStandardHeader.read bs
    let (headerextra, bs) ← DltStandardHeaderExtra.read bs
    let (extendedheader, bs) ← DltExtendedHeader.read bs
    let (payload, bs) ← Reader.take ((htons standardheader.len).toNat - 26) bs
    some (.sendLog userHeader standardheader headerextra extendedheader
      payload, bs)
  else none

/-- The frame's message type and length fields are its own. -/
def Valid : Frame → Prop
  | .registerApp userHeader message description =>
      userHeader.message = MessageType.registerApp.word
        ∧ message.descriptionLength.toNat = description.length
  | .registerContext userHeader message description =>
      userHeader.message = MessageType.registerContext.word
        ∧ message.descriptionLength.toNat = description.length
  | .sendLog userHeader standardheader _ _ payload =>
      userHeader.message = MessageType.sendLog.word
        ∧ (htons standardheader.len).toNat = 26 + payload.length

theorem read_write {f : Frame} (hv : f.Valid) (rest : List UInt8) :
    read (f.bytes ++ rest) = some (f, rest) := by
  cases f with
  | registerApp userHeader message description =>
      obtain ⟨htype, hlen⟩ := hv
      simp only [read, bytes, List.append_assoc, DltUserHeader.read_append,
        DltUserControlMsgRegisterApplication.read_append,
        Option.bind_eq_bind, Option.bind_some, htype, if_true]
      rw [Reader.take_append hlen.symm]
      rfl
  | registerContext userHeader message description =>
      obtain ⟨htype, hlen⟩ := hv
      have hne : ¬ MessageType.registerContext.word
          = MessageType.registerApp.word := by decide
      simp only [read, bytes, List.append_assoc, DltUserHeader.read_append,
        DltUserControlMsgRegisterContext.read_append,
        Option.bind_eq_bind, Option.bind_some, htype, hne, if_true, if_false]
      rw [Reader.take_append hlen.symm]
      rfl
  | sendLog userHeader standardheader headerextra extendedheader payload =>
      obtain ⟨htype, hlen⟩ := hv
      have hne : ¬ MessageType.sendLog.word
          = MessageType.registerApp.word := by decide
      have hne' : ¬ MessageType.sendLog.word
          = MessageType.registerContext.word := by decide
      have hpayload : payload.length
          = (htons standardheader.len).toNat - 26 := by omega
      simp only [read, bytes, List.append_assoc, DltUserHeader.read_append,
        DltStandardHeader.read_append, DltStandardHeaderExtra.read_append,
        DltExtendedHeader.read_append, Option.bind_eq_bind,
        Option.bind_some, htype, hne, hne', if_true, if_false]
      rw [Reader.take_append hpayload]
      rfl

/-- The format of the outgoing stream. -/
def format : Format UInt8 Frame where
  Valid := Valid
  write := bytes
  read := read
  read_write hv rest := read_write hv rest
  write_ne_nil {f} _ h := by
    have hlen := congrArg List.length h
    cases f <;>
      simp [bytes, DltUserHeader.length_bytes, sizeofDltUserHeader,
        dltIdSize] at hlen

end Frame

/-- The frames of an outgoing stream; `none` unless it is used up. -/
def readStream (stream : List UInt8) : Option (List Frame) :=
  Frame.format.readAll stream

end IviLogging.DltCpp
