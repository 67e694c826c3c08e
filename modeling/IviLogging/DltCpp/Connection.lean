/-
The connection to the daemon (`DaemonConnection`), outgoing side.

# The state

The state is the registry `m_contexts`, the descriptor and the memory of
the context objects. The descriptor is open or -1; an open one is
modelled by its connection, the frames written since the `open`, and
`closed` keeps the connections lost so far. Both are history: no function
reads what was written.

# The system

What the operating system answers is the `Environment`: whether the n-th
`open` succeeds and what the n-th `writev` returns, a count or a failure. A
count that is short of the frame is no failure to `send`, so the part that
was taken is kept beside the frame (`Sent.accepted`). What is on the stack
of `initDaemonConnection` when it is called for the n-th time is given too,
as its buffer is not cleared.

# One function at a time

A function that the sources call with the mutex held, or that only one
thread runs, is one function on the state here. Two threads in `sendLog`,
which takes no mutex, are in Threads.lean.
-/
import IviLogging.DltCpp.Frames
import Mathlib.Logic.Function.Basic

namespace IviLogging.DltCpp

-- ========================================================= environment

/-- What the process cannot choose. -/
structure Environment where
  pid : Int32
  app : AppLogContext
  base : LogContextBase
  stack : Nat → Nat → UInt8
  openFifo : Nat → Bool
  writev : Nat → Option Nat

/-- The environment of the fixed inputs: nobody reads the daemon's pipe
while `connected` is false, and every write is taken whole. -/
def sampleEnvironment (connected : Bool) : Environment where
  pid := 4711
  app := sampleApp
  base := ⟨false, false⟩
  stack := fun _ _ => 0
  openFifo := fun _ => connected
  writev := fun _ => some 65536

/-- A frame that was written: the context it was written for, if any, and
how many of its bytes `writev` took. -/
structure Sent where
  context : Option ContextId
  frame : Frame
  accepted : Nat

/-- What was written between an `open` and the reset of the descriptor,
and the frame whose write failed. -/
structure Connection where
  written : List Sent := []
  failed : Option Frame := none

/-- `DaemonConnection`, with the context objects it points to. -/
structure DaemonConnection where
  contexts : List ContextId
  daemon : Option Connection
  closed : List Connection
  object : ContextId → DltCppContext
  opens : Nat
  writevs : Nat

namespace DaemonConnection

/-- `isDaemonConnected`. -/
def isDaemonConnected (s : DaemonConnection) : Bool := s.daemon.isSome

/-- All connections, in order. -/
def connections (s : DaemonConnection) : List Connection :=
  s.closed ++ s.daemon.toList

/-- A write to the members of a context object. -/
def modify (s : DaemonConnection) (c : ContextId)
    (f : DltCppContext → DltCppContext) : DaemonConnection :=
  { s with object := Function.update s.object c (f (s.object c)) }

section Modify

variable (s : DaemonConnection) (c : ContextId)
  (f : DltCppContext → DltCppContext)

@[simp] theorem contexts_modify : (s.modify c f).contexts = s.contexts := rfl

@[simp] theorem daemon_modify : (s.modify c f).daemon = s.daemon := rfl

@[simp] theorem object_modify_self :
    (s.modify c f).object c = f (s.object c) :=
  Function.update_self ..

@[simp] theorem object_modify_of_ne {c' : ContextId} (h : c' ≠ c) :
    (s.modify c f).object c' = s.object c' :=
  Function.update_of_ne h ..

end Modify

/-- The state at the start: nothing registered, not connected. -/
def initial [DltConstants] (parent : ContextId → LogContextCommon) :
    DaemonConnection where
  contexts := []
  daemon := none
  closed := []
  object := fun c => .fresh (parent c)
  opens := 0
  writevs := 0

-- ============================================================ the writes

variable (env : Environment)

/-- `send`. On the descriptor -1 the write fails and the descriptor is
reset to -1, so nothing changes. -/
def send (s : DaemonConnection) (context : Option ContextId)
    (frame : Frame) : DaemonConnection :=
  match s.daemon with
  | none => s
  | some connection =>
      match env.writev s.writevs with
      | some count =>
          { s with
            writevs := s.writevs + 1
            daemon := some { connection with
              written := connection.written
                ++ [⟨context, frame, min count frame.bytes.length⟩] } }
      -- the descriptor is closed and set to -1; the frame is not tried again
      | none =>
          { s with
            writevs := s.writevs + 1
            daemon := none
            closed := s.closed ++ [{ connection with failed := some frame }] }

/-- The ids `sendContextRegistration` copies into a context's header. -/
def assignIds (context : DltCppContext) : DltCppContext :=
  { context with
    extendedHeader := { context.extendedHeader with
      apid := assignId env.app.id.cStr
      ctid := assignId context.parent.id.cStr } }

/-- `sendContextRegistration`. -/
def sendContextRegistration (s : DaemonConnection) (c : ContextId) :
    DaemonConnection :=
  (s.modify c (assignIds env)).send env (some c)
    (registerContextFrame env.app env.pid (s.object c))

/-- `initDaemonConnection`. The loop over the contexts does not look at
the descriptor again. -/
def initDaemonConnection (s : DaemonConnection) : DaemonConnection :=
  if s.isDaemonConnected then s
  else if env.openFifo s.opens then
    -- the descriptor is set in front of the first write, which may reset it
    s.contexts.foldl (sendContextRegistration env)
      ({ s with opens := s.opens + 1, daemon := some {} }.send env none
        (registerAppFrame env.app env.pid (env.stack s.opens)))
  else { s with opens := s.opens + 1 }

/-- The part of `registerContext` in front of the connection: the position
is the registry's size as a `uint32_t`, stored in an `int32_t`. -/
def pushContext (s : DaemonConnection) (c : ContextId) : DaemonConnection :=
  { s with
    object := Function.update s.object c { s.object c with
      logLevelPos := (UInt32.ofNat s.contexts.length).toInt32 }
    contexts := s.contexts ++ [c] }

theorem object_pushContext_self (s : DaemonConnection) (c : ContextId) :
    (s.pushContext c).object c = { s.object c with
      logLevelPos := (UInt32.ofNat s.contexts.length).toInt32 } :=
  Function.update_self ..

theorem object_pushContext_of_ne (s : DaemonConnection) {c c' : ContextId}
    (h : c' ≠ c) : (s.pushContext c).object c' = s.object c' :=
  Function.update_of_ne h ..

/-- `registerContext`. -/
def registerContext (s : DaemonConnection) (c : ContextId) :
    DaemonConnection :=
  let s := (s.pushContext c).initDaemonConnection env
  -- a second registration, if the loop above has just made the first
  if s.isDaemonConnected then s.sendContextRegistration env c else s

/-- `sendLog`, at a given uptime. -/
def sendLog [DltConstants] (s : DaemonConnection) (uptime : UInt32)
    (data : LogData) : DaemonConnection :=
  let s := s.initDaemonConnection env
  if s.isDaemonConnected then
    s.send env (some data.context)
      (sendLogFrame env.pid uptime (s.object data.context) data)
  else s

end DaemonConnection

end IviLogging.DltCpp
