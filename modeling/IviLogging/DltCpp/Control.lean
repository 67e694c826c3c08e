/-
The connection to the daemon (`DaemonConnection`), incoming side.

# The chunk

`handleIncomingMessage` reads up to 1024 bytes into an array on its stack
and walks a pointer over it. The array is a memory: the bytes `read`
delivered, then whatever was there before (`Chunk`). The walk is the loop
of the sources, pointer arithmetic included, and keeps a list of the
`Span`s of that memory it took for a header or for the body of a log
level message, in order.

A log level message applies to `m_contexts[log_level_pos]`. An access
outside the vector is undefined behaviour, and the state behind it is
`none`.

# The operations

`Op` are the whole operations on a connection, outgoing and incoming, and
`step` is the state behind one. What the callers see to is a condition of
the step: a context is registered once, and before its messages are sent.

# The messages

`ControlMsg` is what a chunk is for: the messages the daemon writes, with
their bytes and what they do. A chunk that holds whole messages is
`Chunk.Holds`, and one that ends in the middle of a level is
`TruncatedLevel`.
-/
import IviLogging.DltCpp.Connection

namespace IviLogging.DltCpp

open LittleEndian (ofInt32 toUInt32 toInt32)
open Packed (readUInt8 readInt8 readInt32)

-- =================================================== incoming structures

/-- `DltUserControlMsgLogLevel`. -/
structure DltUserControlMsgLogLevel where
  logLevel : UInt8
  traceStatus : UInt8
  logLevelPos : Int32
  deriving DecidableEq

/-- `sizeof(DltUserControlMsgLogState)`: one `int8_t`, never read. -/
def sizeofDltUserControlMsgLogState : Nat := 1

/-- `sizeof(DltUserControlMsgLogLevel)`, a packed structure. -/
def sizeofDltUserControlMsgLogLevel : Nat := 6

/-- What one `read` leaves in the array: `byteCount` bytes over what the
stack held. -/
structure Chunk where
  bytes : List UInt8
  stale : Nat → UInt8
  length_le : bytes.length ≤ 1024

/-- The memory from `buffer` on. -/
def Chunk.memory (chunk : Chunk) (i : Nat) : UInt8 :=
  if i < chunk.bytes.length then chunk.bytes.getD i 0 else chunk.stale i

/-- The `n` bytes of a memory from `p` on. -/
def load (memory : Nat → UInt8) (p n : Nat) : List UInt8 :=
  (List.range n).map fun i => memory (p + i)

/-- `DltUserHeader::message` of the header at an address. -/
def messageAt (memory : Nat → UInt8) (p : Nat) : UInt32 :=
  toUInt32 (load memory (p + dltIdSize) 4)

/-- The `DltUserControlMsgLogLevel` at an address. -/
def logLevelMsgAt (memory : Nat → UInt8) (p : Nat) :
    DltUserControlMsgLogLevel where
  logLevel := memory p
  traceStatus := memory (p + 1)
  logLevelPos := toInt32 (load memory (p + 2) 4)

-- ============================================================ the filter

/-- The index a signed position converts to as a `size_t`. -/
def vectorIndex (pos : Int32) : Nat := (pos.toInt % 2 ^ 64).toNat

namespace DaemonConnection

/-- `DltCppContextClass::setActiveLogLevel`. -/
def setActiveLogLevel (s : DaemonConnection) (c : ContextId) (level : Int) :
    DaemonConnection :=
  s.modify c fun context => { context with activeLogLevel := level }

/-- `applyLogLevel`. -/
def applyLogLevel (s : DaemonConnection)
    (message : DltUserControlMsgLogLevel) : Option DaemonConnection :=
  if message.logLevelPos < Int32.ofNat s.contexts.length then
    -- a negative position is less than the size, and a large index
    match s.contexts[vectorIndex message.logLevelPos]? with
    | some c => some (s.setActiveLogLevel c message.logLevel.toNat)
    | none => none
  else some s

end DaemonConnection

-- ============================================================== the loop

/-- Bytes of the array that were interpreted. -/
structure Span where
  start : Nat
  size : Nat
  deriving DecidableEq

/-- The loop of `handleIncomingMessage` from `pMessage` on. -/
def handleMessages (memory : Nat → UInt8) (byteCount pMessage : Nat)
    (s : Option DaemonConnection) : List Span × Option DaemonConnection :=
  if byteCount > pMessage + sizeofDltUserHeader then
    let userHeader : Span := ⟨pMessage, sizeofDltUserHeader⟩
    let body := pMessage + sizeofDltUserHeader
    -- the pattern of the header is not looked at
    if messageAt memory pMessage = MessageType.logState.word then
      let rest := handleMessages memory byteCount
        (body + sizeofDltUserControlMsgLogState) s
      (userHeader :: rest.1, rest.2)
    else if messageAt memory pMessage = MessageType.logLevel.word then
      -- the body is taken as it lies in the array, also behind the chunk
      let logLevelMsg : Span := ⟨body, sizeofDltUserControlMsgLogLevel⟩
      let rest := handleMessages memory byteCount
        (body + sizeofDltUserControlMsgLogLevel)
        (s.bind fun s => s.applyLogLevel (logLevelMsgAt memory body))
      (userHeader :: logLevelMsg :: rest.1, rest.2)
    -- a message of any other type ends the loop
    else ([userHeader], s)
  else ([], s)
termination_by byteCount - pMessage
decreasing_by
  all_goals
    have hhead : sizeofDltUserHeader = 8 := rfl
    omega

/-- `handleIncomingMessage` for a successful `read`: what it interpreted,
and the state. -/
def DaemonConnection.handleIncomingMessage (s : DaemonConnection)
    (chunk : Chunk) : List Span × Option DaemonConnection :=
  handleMessages chunk.memory chunk.bytes.length 0 (some s)

/-- The reader thread: the state after one chunk more. -/
def readerStep (s : DaemonConnection) (chunk : Chunk) :
    Option DaemonConnection :=
  (s.handleIncomingMessage chunk).2

-- ========================================================== operations

/-- `max_size()` of a vector of pointers. -/
def vectorMaxSize : Nat := 2 ^ 60 - 1

/-- A whole operation on the connection. -/
inductive Op
  | registerContext (c : ContextId)
  | sendLog (uptime : UInt32) (data : LogData)
  | receive (chunk : Chunk)

/-- The state after an operation. A context registers once and before its
messages are sent, and `push_back` throws on a full vector. -/
def step [DltConstants] (env : Environment) (s : DaemonConnection) :
    Op → Option DaemonConnection
  | .registerContext c =>
      if c ∈ s.contexts ∨ vectorMaxSize ≤ s.contexts.length then none
      else some (s.registerContext env c)
  | .sendLog uptime data =>
      if data.context ∈ s.contexts then some (s.sendLog env uptime data)
      else none
  | .receive chunk => readerStep s chunk

-- ====================================================== whole messages

/-- A message of the daemon; the pattern of its header is not looked
at. -/
inductive ControlMsg
  | logState (pattern : DltId) (state : Int8)
  | logLevel (pattern : DltId) (message : DltUserControlMsgLogLevel)
  deriving DecidableEq

namespace DltUserControlMsgLogLevel

/-- The bytes of the structure. -/
def bytes (x : DltUserControlMsgLogLevel) : List UInt8 :=
  [x.logLevel, x.traceStatus] ++ ofInt32 x.logLevelPos

/-- Read the structure. -/
def read : Reader UInt8 DltUserControlMsgLogLevel := fun bs => do
  let (logLevel, bs) ← readUInt8 bs
  let (traceStatus, bs) ← readUInt8 bs
  let (logLevelPos, bs) ← readInt32 bs
  some (⟨logLevel, traceStatus, logLevelPos⟩, bs)

@[simp] theorem read_append (x : DltUserControlMsgLogLevel)
    (rest : List UInt8) : read (x.bytes ++ rest) = some (x, rest) := by
  simp [read, bytes]

theorem length_bytes (x : DltUserControlMsgLogLevel) :
    x.bytes.length = sizeofDltUserControlMsgLogLevel := by
  simp [bytes, sizeofDltUserControlMsgLogLevel]

end DltUserControlMsgLogLevel

namespace ControlMsg

/-- The header of a message. -/
def header : ControlMsg → DltUserHeader
  | .logState pattern _ => ⟨pattern, MessageType.logState.word⟩
  | .logLevel pattern _ => ⟨pattern, MessageType.logLevel.word⟩

/-- What follows the header. -/
def body : ControlMsg → List UInt8
  | .logState _ state => [state.toUInt8]
  | .logLevel _ message => message.bytes

/-- The bytes of a message. -/
def bytes (m : ControlMsg) : List UInt8 := m.header.bytes ++ m.body

/-- Read a message. -/
def read : Reader UInt8 ControlMsg := fun bs => do
  let (header, bs) ← DltUserHeader.read bs
  if header.message = MessageType.logState.word then
    let (state, bs) ← readInt8 bs
    some (.logState header.pattern state, bs)
  else if header.message = MessageType.logLevel.word then
    let (message, bs) ← DltUserControlMsgLogLevel.read bs
    some (.logLevel header.pattern message, bs)
  else none

theorem read_write (m : ControlMsg) (rest : List UInt8) :
    read (m.bytes ++ rest) = some (m, rest) := by
  have hne : ¬ MessageType.logLevel.word = MessageType.logState.word := by
    decide
  cases m with
  | logState pattern state => simp [read, bytes, header, body]
  | logLevel pattern message => simp [read, bytes, header, body, hne]

/-- The format of the incoming stream. -/
def format : Format UInt8 ControlMsg where
  Valid := fun _ => True
  write := bytes
  read := read
  read_write {m} _ rest := read_write m rest
  write_ne_nil {m} _ h := by
    have hlen := congrArg List.length h
    simp [bytes, DltUserHeader.length_bytes, sizeofDltUserHeader,
      dltIdSize] at hlen

/-- What a message does to the levels. -/
def apply : ControlMsg → DaemonConnection → Option DaemonConnection
  | .logState _ _, s => some s
  | .logLevel _ message, s => s.applyLogLevel message

end ControlMsg

/-- The bytes of a chunk are these messages, each of them whole. -/
def Chunk.Holds (chunk : Chunk) (messages : List ControlMsg) : Prop :=
  chunk.bytes = ControlMsg.format.writeAll messages

/-- Whole messages, then the header of a log level message with one to
five of its six body bytes. -/
inductive TruncatedLevel : List UInt8 → Prop
  | here {bytes : List UInt8} : 8 < bytes.length → bytes.length < 14 →
      toUInt32 ((bytes.drop 4).take 4) = MessageType.logLevel.word →
      TruncatedLevel bytes
  | afterState {bytes : List UInt8} : 8 < bytes.length →
      toUInt32 ((bytes.drop 4).take 4) = MessageType.logState.word →
      TruncatedLevel (bytes.drop 9) → TruncatedLevel bytes
  | afterLevel {bytes : List UInt8} : 14 ≤ bytes.length →
      toUInt32 ((bytes.drop 4).take 4) = MessageType.logLevel.word →
      TruncatedLevel (bytes.drop 14) → TruncatedLevel bytes

end IviLogging.DltCpp
