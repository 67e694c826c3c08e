/-
A process that logs (`LogContextT`, `LogEntry`, `DltCppLogData::init`).

# Entries

A log statement tests whether any backend wants its severity, which
registers the context at its first use, and if so creates an entry. The
entry takes its number in the context's messages, and the filter's answer
for the DLT, when it is created; the message is sent when it is
destroyed. In between its arguments are evaluated, and they may log
themselves: `entries` are the open ones, the innermost first.

The other backends of a context are a parameter of the statement: all
that matters here is whether one of them is enabled.

# Events

An `Event` is one thing that happens in the process or to it: the parts of a
statement, a chunk of the daemon, a level that the application sets. They
come in any order that has an entry to write to, so a run of events is an
interleaving of nested statements with the reader thread.

`begun` and `handed` are history: the statements so far, and those whose
message went to `sendLog`.
-/
import IviLogging.DltCpp.Control

namespace IviLogging.DltCpp

open DltConstants

-- ============================================================== entries

/-- An open `LogEntry`: the statement it belongs to and its message. -/
structure Entry where
  statement : Nat
  data : LogData

/-- `LogEntry::write` and `writeFormatted`: no argument is written to a
message that is not enabled. The hex switch is the entry's own. -/
def Entry.write [DltConstants] (e : Entry) : WriteCall → Entry
  | .setHexEnabled enabled => { e with data := e.data.setHexEnabled enabled }
  | c => if e.data.enabled then { e with data := e.data.call c } else e

/-- The process, as far as it logs. -/
structure Process where
  daemon : DaemonConnection
  registered : ContextId → Bool
  entries : List Entry
  begun : Nat
  handed : List Nat
  aborted : Bool

/-- What can happen next: a first use of a context, a log statement up to
its entry, a write to the innermost entry, its destruction, a chunk for
the reader, a level set by the application. -/
inductive Event
  | use (c : ContextId)
  | log (c : ContextId) (info : LogInfo) (others : Bool)
      (memory : Vector UInt8 maxMessageSize)
  | write (call : WriteCall)
  | destroy (thread : ThreadInformation) (uptime : UInt32)
  | receive (chunk : Chunk)
  | setActiveLogLevel (c : ContextId) (level : Int)

namespace Process

variable [DltConstants] (env : Environment)

/-- The process at its start. -/
def initial (parent : ContextId → LogContextCommon) : Process where
  daemon := .initial parent
  registered := fun _ => false
  entries := []
  begun := 0
  handed := []
  aborted := false

/-- `checkContext`. -/
def checkContext (s : Process) (c : ContextId) : Option Process :=
  if s.registered c then some s
  else (DltCpp.step env s.daemon (.registerContext c)).map fun daemon =>
    { s with
      daemon := daemon
      registered := Function.update s.registered c true }

/-- The entry of the next statement, as `init` leaves its message: the
DLT level, the filter's answer and the counter are read here. -/
def newEntry (s : Process) (c : ContextId) (info : LogInfo)
    (memory : Vector UInt8 maxMessageSize) : Entry where
  statement := s.begun
  data := LogData.fresh memory c { info with hexEnabled := false }
    (DltCppContext.getDLTLogLevel info.level)
    ((s.daemon.object c).isEnabled info.level)
    (s.daemon.object c).messageCount

/-- `createLog`; `messageCounter` increments what it returns. -/
def createLog (s : Process) (c : ContextId) (info : LogInfo)
    (memory : Vector UInt8 maxMessageSize) : Process :=
  { s with
    daemon := s.daemon.modify c fun context =>
      { context with messageCount := context.messageCount + 1 }
    entries := s.newEntry c info memory :: s.entries }

theorem daemon_createLog (s : Process) (c : ContextId) (info : LogInfo)
    (memory : Vector UInt8 maxMessageSize) :
    (s.createLog c info memory).daemon = s.daemon.modify c fun context =>
      { context with messageCount := context.messageCount + 1 } := rfl

/-- A log statement up to its entry. -/
def log (s : Process) (c : ContextId) (info : LogInfo) (others : Bool)
    (memory : Vector UInt8 maxMessageSize) : Option Process :=
  (s.checkContext env c).map fun s =>
    let enabled := (s.daemon.object c).isEnabled info.level || others
    -- an entry that only another backend wants takes a number as well
    let s := if enabled then s.createLog c info memory else s
    { s with begun := s.begun + 1 }

/-- The end of an enabled message: `~DltCppLogData` up to `sendLog`. -/
def sendEntry (s : Process) (e : Entry) (thread : ThreadInformation)
    (uptime : UInt32) : Option Process :=
  (DltCpp.step env s.daemon
      (.sendLog uptime (e.data.writeTrailer env.base thread))).map
    fun daemon => { s with
      daemon := daemon
      handed := s.handed ++ [e.statement] }

/-- `~LogEntry`: the message, then `~LogInfo`, which ends the process
after a fatal one. -/
def destroyEntry (s : Process) (e : Entry) (thread : ThreadInformation)
    (uptime : UInt32) : Option Process :=
  (if e.data.enabled then s.sendEntry env e thread uptime else some s).map
    fun s => { s with aborted := decide (e.data.data.level = .fatal) }

/-- The process after one event; `none` once it has ended, for an entry
that is not there, and for an operation the connection does not allow. -/
def step (s : Process) (event : Event) : Option Process :=
  if s.aborted then none
  else match event with
  | .use c => s.checkContext env c
  | .log c info others memory => s.log env c info others memory
  | .write call =>
      match s.entries with
      | [] => none
      | e :: es => some { s with entries := e.write call :: es }
  | .destroy thread uptime =>
      match s.entries with
      | [] => none
      -- the entry is gone while its message is sent
      | e :: es => { s with entries := es }.destroyEntry env e thread uptime
  | .receive chunk =>
      (DltCpp.step env s.daemon (.receive chunk)).map fun daemon =>
        { s with daemon := daemon }
  | .setActiveLogLevel c level =>
      some { s with daemon := s.daemon.setActiveLogLevel c level }

end Process

-- ============================================================= a sample

/-- An informational statement of the fixed inputs. -/
def sampleLog (others : Bool) : Event :=
  .log 0 sampleInfo others (Vector.replicate maxMessageSize 255)

/-- The end of its entry. -/
def sampleDestroy : Event := .destroy ⟨1, []⟩ 0

/-- The process of the fixed inputs at its start. -/
def sampleProcess : Process :=
  @Process.initial documentedConstants fun _ => sampleContext

end IviLogging.DltCpp
