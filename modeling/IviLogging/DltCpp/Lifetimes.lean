/-
The context objects behind the registry.

# Objects

`m_contexts` holds pointers. `registerContext` pushes one, nothing ever
takes one out: `~DltCppContextClass` is empty, while the destructor of the
other DLT backend unregisters its context. What is behind a pointer is
kept beside the connection here (`Life`): there is no object, or one that
was created, or one that was registered as well. A pointer is the address
of its object, so that an object created where another one was destroyed
has its pointers.

# Dereferences

`dereferences` lists what an operation reads through `m_contexts`: the
loop of `initDaemonConnection` that registers the contexts again, and the
element `applyLogLevel` sets the level of; `none` is an element the vector
does not have. What an operation is called on it may use without them
(`LifeOp.operand`).
-/
import IviLogging.DltCpp.Control

namespace IviLogging.DltCpp

-- ============================================================== objects

/-- What is at the address of a context object. -/
inductive Life
  | absent | created | registered
  deriving DecidableEq

/-- The connection, and what its pointers point to. -/
structure Objects where
  daemon : DaemonConnection
  life : ContextId → Life

/-- What happens to the objects and to the connection. -/
inductive LifeOp
  | create (c : ContextId) (parent : LogContextCommon)
  | register (c : ContextId)
  | destroy (c : ContextId)
  | sendLog (uptime : UInt32) (data : LogData)
  | applyLogLevel (message : DltUserControlMsgLogLevel)

/-- The object an operation is called on or with, so that it may use it
without taking it out of `m_contexts`. -/
def LifeOp.operand : LifeOp → Option ContextId
  | .create c _ => some c
  | .register c => some c
  | .destroy c => some c
  | .sendLog _ data => some data.context
  | .applyLogLevel _ => none

namespace Objects

variable [DltConstants] (env : Environment)

/-- No object, and no connection. -/
def initial : Objects where
  daemon := .initial fun _ => ⟨⟨[], fun _ => 0⟩, ⟨[], fun _ => 0⟩⟩
  life := fun _ => .absent

/-- The state after an operation; `none` where C++ does not allow it:
two objects at one address, an object used before or after its life, a
full vector, an access outside `m_contexts`. The destructor has an empty
body. -/
def step (s : Objects) : LifeOp → Option Objects
  | .create c parent =>
      if s.life c = .absent then
        some ⟨s.daemon.modify c fun _ => .fresh parent,
          Function.update s.life c .created⟩
      else none
  | .register c =>
      if s.life c = .absent ∨ vectorMaxSize ≤ s.daemon.contexts.length then
        none
      else some ⟨s.daemon.registerContext env c,
        Function.update s.life c .registered⟩
  | .destroy c =>
      if s.life c = .absent then none
      -- the pointer stays in the vector
      else some { s with life := Function.update s.life c .absent }
  | .sendLog uptime data =>
      if s.life data.context = .registered then
        some { s with daemon := s.daemon.sendLog env uptime data }
      else none
  | .applyLogLevel message =>
      (s.daemon.applyLogLevel message).map fun daemon =>
        { s with daemon := daemon }

end Objects

-- ====================================================== the dereferences

namespace DaemonConnection

variable (env : Environment)

/-- The contexts `initDaemonConnection` registers again: all of them, if
it opens the connection. -/
def replayed (s : DaemonConnection) : List ContextId :=
  if s.isDaemonConnected then []
  else if env.openFifo s.opens then s.contexts
  else []

/-- What `applyLogLevel` takes out of `m_contexts`. -/
def levelContexts (s : DaemonConnection)
    (message : DltUserControlMsgLogLevel) : List (Option ContextId) :=
  if message.logLevelPos < Int32.ofNat s.contexts.length then
    [s.contexts[vectorIndex message.logLevelPos]?]
  else []

end DaemonConnection

namespace Objects

variable (env : Environment)

/-- The elements of `m_contexts` an operation dereferences. -/
def dereferences (s : Objects) : LifeOp → List (Option ContextId)
  | .create _ _ => []
  | .register c => ((s.daemon.pushContext c).replayed env).map some
  | .destroy _ => []
  | .sendLog _ _ => (s.daemon.replayed env).map some
  | .applyLogLevel message => s.daemon.levelContexts message

/-- The context was registered and is not destroyed; the one that is being
registered counts. -/
def IsLive (s : Objects) (op : LifeOp) (c : ContextId) : Prop :=
  s.life c = .registered ∨ op = .register c

/-- An operation dereferences registered contexts that are still there. -/
def DereferencesLive (s : Objects) (op : LifeOp) : Prop :=
  ∀ x ∈ s.dereferences env op, ∃ c, x = some c ∧ s.IsLive op c

end Objects

end IviLogging.DltCpp
