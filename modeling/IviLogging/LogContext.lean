/-
The contexts of an application and its log statements (`LogContextT`,
`LogEntry`, `log_with_context`), over any backends.

# Backends

The class is a template of its backends. What it uses of one is a
`BackendType`: a context type and the type of its records. The contexts of
all backends side by side, and the records of an entry, are a tuple, and
every operation on them goes through the tuple (`Backends`); an entry hands
a value to the records that are enabled.

# Statements

A log statement is a loop that runs once if any backend wants the severity.
What stands behind its `<<` is evaluated one after the other, while the
entry is there, and may log itself: a statement is a tree, and its operands
are values or functions that make statements of their own. A fatal
statement ends the process when its entry is gone: what the backends did by
then has been done, and what would come behind it is not.

What the system answers a backend is given with the statement, for the
creation of its entry and for the end of it.
-/
import IviLogging.Common
import Mathlib.Logic.Function.Basic

namespace IviLogging

-- ============================================================== the backends

section Backends

variable (V E K : Type)

/-- A backend as the template takes it. `State` is all its contexts, what
they share, and what was done to the outside; `Data` is a record. Behind an
operation that is not defined there is no state. `control` is what is done
to it besides logging. -/
structure BackendType where
  State : Type
  Data : Type
  registerContext : State → Nat → Option State
  isEnabled : State → Nat → LogLevel → Bool
  init : State → Nat → LogInfo → E → Option (State × Data)
  dataEnabled : State → Data → Bool
  write : State → Data → V → Option Data
  setHexEnabled : Data → Bool → Data
  destroy : State → Data → E → Option State
  control : State → K → Option State

/-- A tuple of backends, `m_contexts`, with that of the records. -/
structure Backends where
  State : Type
  Data : Type
  registerContext : State → Nat → Option State
  isEnabled : State → Nat → LogLevel → Bool
  init : State → Nat → LogInfo → E → Option (State × Data)
  write : State → Data → V → Option Data
  setHexEnabled : Data → Bool → Data
  destroy : State → Data → E → Option State
  control : State → K → Option State

variable {V E K}

namespace Backends

/-- The end of the recursions. -/
def nil : Backends V E K where
  State := Unit
  Data := Unit
  registerContext s _ := some s
  isEnabled _ _ _ := false
  init s _ _ _ := some (s, ())
  write _ d _ := some d
  setHexEnabled d _ := d
  destroy s _ _ := some s
  control s _ := some s

/-- `for_each_in_tuple_` and `for_each_init`: the backend, then the ones
behind it. -/
def cons (b : BackendType V E K) (bs : Backends V E K) :
    Backends V E K where
  State := b.State × bs.State
  Data := b.Data × bs.Data
  registerContext s c :=
    (b.registerContext s.1 c).bind fun s₁ =>
      (bs.registerContext s.2 c).map fun s₂ => (s₁, s₂)
  isEnabled s c level := b.isEnabled s.1 c level || bs.isEnabled s.2 c level
  init s c info created :=
    (b.init s.1 c info created).bind fun r₁ =>
      (bs.init s.2 c info created).map fun r₂ =>
        ((r₁.1, r₂.1), (r₁.2, r₂.2))
  write s d v :=
    (if b.dataEnabled s.1 d.1 then b.write s.1 d.1 v else some d.1).bind
      fun d₁ => (bs.write s.2 d.2 v).map fun d₂ => (d₁, d₂)
  setHexEnabled d enabled :=
    (b.setHexEnabled d.1 enabled, bs.setHexEnabled d.2 enabled)
  destroy s d destroyed :=
    (b.destroy s.1 d.1 destroyed).bind fun s₁ =>
      (bs.destroy s.2 d.2 destroyed).map fun s₂ => (s₁, s₂)
  control s command :=
    (b.control s.1 command).bind fun s₁ =>
      (bs.control s.2 command).map fun s₂ => (s₁, s₂)

/-- The tuple of a parameter pack. -/
def ofList : List (BackendType V E K) → Backends V E K
  | [] => nil
  | b :: bs => cons b (ofList bs)

end Backends

/-- `NullLogContext`, with `NullLogData`. -/
def nullLogContext : BackendType V E K where
  State := Unit
  Data := Unit
  registerContext s _ := some s
  isEnabled _ _ _ := false
  init s _ _ _ := some (s, ())
  dataEnabled _ _ := false
  write _ d _ := some d
  setHexEnabled d _ := d
  destroy s _ _ := some s
  control s _ := some s

end Backends

-- ============================================================== the programs

section Programs

variable (V E K M : Type)

mutual

/-- What an application does: it computes on its memory, does something to
the backends, or logs. -/
inductive LogStatement
  | compute (f : M → M)
  | control (command : K)
  | log (context : Nat) (info : LogInfo) (created destroyed : E)
      (operands : List LogOperand)

/-- What stands behind a `<<`: a value, with what is done to get it, or the
hex switch. -/
inductive LogOperand
  | insert (evaluation : List LogStatement) (value : M → V)
  | setHexEnabled (enabled : Bool)

end

end Programs

variable {V E K M : Type}

/-- The process, as far as it logs. -/
structure World (bs : Backends V E K) (M : Type) where
  memory : M
  registered : Nat → Bool
  state : bs.State
  aborted : Bool

namespace World

variable {bs : Backends V E K}

/-- `checkContext`. -/
def checkContext (w : World bs M) (c : Nat) : Option (World bs M) :=
  if w.registered c then some w
  else (bs.registerContext w.state c).map fun state =>
    { w with
      registered := Function.update w.registered c true
      state := state }

/-- `createLog`: the hex switch of a new entry is off. -/
def createLog (w : World bs M) (c : Nat) (info : LogInfo) (created : E) :
    Option (World bs M × bs.Data) :=
  (bs.init w.state c { info with hexEnabled := false } created).map fun r =>
    ({ w with state := r.1 }, r.2)

/-- `~LogEntry`: the records, then `~LogInfo`. -/
def destroyEntry (w : World bs M) (info : LogInfo) (destroyed : E)
    (d : bs.Data) : Option (World bs M) :=
  if w.aborted then some w
  else (bs.destroy w.state d destroyed).map fun state =>
    { w with state := state, aborted := decide (info.level = .fatal) }

mutual

/-- A statement. The loop of `log_with_context` runs at most once. -/
def exec (w : World bs M) : LogStatement V E K M → Option (World bs M)
  | .compute f => some { w with memory := f w.memory }
  | .control command =>
      (bs.control w.state command).map fun state => { w with state := state }
  | .log c info created destroyed operands =>
      (w.checkContext c).bind fun w =>
        if bs.isEnabled w.state c info.level then
          (w.createLog c info created).bind fun r =>
            (stream r.1 r.2 operands).bind fun r =>
              r.1.destroyEntry info destroyed r.2
        else some w

/-- Some statements, until the process ends. -/
def execAll (w : World bs M) : List (LogStatement V E K M) →
    Option (World bs M)
  | [] => some w
  | s :: rest =>
      if w.aborted then some w
      else (exec w s).bind fun w => execAll w rest

/-- What stands behind a `<<`. -/
def insert (w : World bs M) (d : bs.Data) : LogOperand V E K M →
    Option (World bs M × bs.Data)
  | .insert evaluation value =>
      (execAll w evaluation).bind fun w =>
        if w.aborted then some (w, d)
        else (bs.write w.state d (value w.memory)).map fun d => (w, d)
  | .setHexEnabled enabled => some (w, bs.setHexEnabled d enabled)

/-- All that stands behind the `<<` of a statement. -/
def stream (w : World bs M) (d : bs.Data) : List (LogOperand V E K M) →
    Option (World bs M × bs.Data)
  | [] => some (w, d)
  | operand :: rest =>
      if w.aborted then some (w, d)
      else (insert w d operand).bind fun r => stream r.1 r.2 rest

end

end World

end IviLogging
