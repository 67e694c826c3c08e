/-
Two threads in `sendLog`.

# The steps

`sendLog` takes no lock, and neither does the `initDaemonConnection` it
calls. Each thread is its program counter (`Pc`): the tests of the
descriptor, the `open` with the assignment of its result, and each
`writev` are one step. All of them go to the one descriptor; an `open`
that overwrites an open descriptor leaves its connection behind without a
way to it (`lost`).

# What is left out

A step that fails (an `open` or a `writev`) is no step here: only the
interleavings without one are looked at. The contexts are registered, and
neither thread registers one.

A thread that runs alone is `DaemonConnection.sendLog`
(`Proofs/Threads.lean`).
-/
import IviLogging.DltCpp.Connection

namespace IviLogging.DltCpp

/-- The two threads. -/
inductive Thread
  | first | second
  deriving DecidableEq

/-- The other thread. -/
def Thread.other : Thread → Thread
  | .first => .second
  | .second => .first

/-- Where in `sendLog` a thread is: in front of the test of
`initDaemonConnection`, of its `open`, of the test behind it, of the
RegisterApp, of the registration of the `k`-th context, of the test of
`sendLog`, of its write, or at the end. -/
inductive Pc
  | init | opening | opened | registerApp | registerContext (k : Nat)
  | check | sendLog | done
  deriving DecidableEq

/-- The connection, the connections whose descriptor was overwritten, and
the threads. -/
structure Threads where
  daemon : DaemonConnection
  lost : List Connection
  pc : Thread → Pc

/-- What a thread logs, and when. -/
structure Statement where
  uptime : UInt32
  data : LogData

namespace Threads

/-- Two threads that begin. -/
def start (daemon : DaemonConnection) : Threads := ⟨daemon, [], fun _ => .init⟩

/-- The connections opened so far. -/
def opened (s : Threads) : List Connection := s.lost ++ s.daemon.daemon.toList

/-- A thread goes on. -/
def goto (s : Threads) (t : Thread) (pc : Pc) : Threads :=
  { s with pc := Function.update s.pc t pc }

variable (env : Environment)

/-- The `open`, and the assignment to the descriptor. -/
def openDaemon (s : Threads) : Option Threads :=
  if env.openFifo s.daemon.opens then
    some { s with
      daemon := { s.daemon with
        opens := s.daemon.opens + 1
        daemon := some {} }
      lost := s.opened }
  else none

/-- A `writev` that does not fail. -/
def write (s : Threads) (daemon : DaemonConnection) : Option Threads :=
  if env.writev s.daemon.writevs = none then none
  else some { s with daemon := daemon }

/-- The next step of a thread. -/
def step [DltConstants] (statement : Thread → Statement) (s : Threads)
    (t : Thread) : Option Threads :=
  match s.pc t with
  | .init =>
      some (s.goto t (if s.daemon.isDaemonConnected then .check else .opening))
  | .opening => (s.openDaemon env).map fun s => s.goto t .opened
  | .opened =>
      some (s.goto t
        (if s.daemon.isDaemonConnected then .registerApp else .check))
  | .registerApp =>
      (s.write env (s.daemon.send env none (registerAppFrame env.app env.pid
        (env.stack (s.daemon.opens - 1))))).map fun s =>
          s.goto t (.registerContext 0)
  | .registerContext k =>
      -- the loop over the contexts does not look at the descriptor
      match s.daemon.contexts[k]? with
      | some c =>
          (s.write env (s.daemon.sendContextRegistration env c)).map fun s =>
            s.goto t (.registerContext (k + 1))
      | none => some (s.goto t .check)
  | .check =>
      some (s.goto t (if s.daemon.isDaemonConnected then .sendLog else .done))
  | .sendLog =>
      let data := (statement t).data
      (s.write env (s.daemon.send env (some data.context)
        (sendLogFrame env.pid (statement t).uptime
          (s.daemon.object data.context) data))).map fun s => s.goto t .done
  | .done => none

end Threads

end IviLogging.DltCpp
