/-
What a stream backend prints among other backends.

# Idle records

A record of a stream backend looks at the levels for each piece, so a record
that is not wanted has no prefix, takes no value and is not flushed
(`streamLogContext_idle`). Nothing is printed for it, and no state of the
backend moves.

# Alone

That is what a backend needs to do among others what it does alone, in a
program whose operands only are values (`stream_alone`). An operand that
logs itself is evaluated as soon as any backend wants the statement around
it, so a backend that does not want it would miss the operand when it is
alone.
-/
import IviLogging.ContextTypes
import IviLogging.Proofs.LogContext
import IviLogging.Stream.Proofs.Content

namespace IviLogging

namespace Stream

-- ========================================================= records of no use

/-- A record that is not wanted prints nothing: neither when it begins nor when
it ends, and no value is written to it. -/
theorem streamLogContext_idle (kind : Kind) :
    (streamLogContext kind).Idle fun s d =>
      d.2.isEnabled (s.contexts.levels d.1) = false where
  init {s c info created s' d} hdisabled hinit := by
    obtain ⟨r, hr, heq⟩ := Option.map_eq_some_iff.mp hinit
    cases heq
    have hr := hr.symm.trans (if_neg (Bool.eq_false_iff.mp hdisabled))
    cases hr
    exact ⟨rfl, hdisabled⟩
  dataEnabled h := h
  setHexEnabled _ h := h
  destroy {s d destroyed s'} hdisabled hdestroy := by
    obtain ⟨flushed, hflush, rfl⟩ := Option.map_eq_some_iff.mp hdestroy
    rw [StreamLogData.flushLog, hdisabled] at hflush
    cases hflush
    rfl

end Stream

/-- A stream backend prints among others what it prints alone: in a program
whose operands only are values, no other backend makes a difference, unless
it ends the process, and then the statements until there do the same. -/
theorem stream_alone (kind : Stream.Kind)
    (front back : List (BackendType NativeValue Moment Command)) {M : Type}
    {p : List (LogStatement NativeValue Moment Command M)}
    (hplain : ∀ s ∈ p, s.Plain)
    {w w' : World
      (.ofList (front ++ Stream.streamLogContext kind :: back)) M}
    (hrun : w.execAll p = some w') :
    ∃ q rest, p = q ++ rest ∧ (w'.aborted = false → rest = [])
      ∧ w.execAll q = some w'
      ∧ ∃ aborted,
        ((Component.only (Stream.streamLogContext kind) back front).world
          w).execAll q
        = some { (Component.only (Stream.streamLogContext kind) back
            front).world w' with aborted := aborted } :=
  (Component.only _ back front).alone
    (Stream.streamLogContext_idle kind).single hplain hrun

-- ================================================================== a sample

/-- The system at some moment. -/
def sampleMoment : Moment where
  stream := Stream.sampleEnvironment
  content := ByteArray.sampleMemory
  message := Vector.replicate DltCpp.maxMessageSize 255
  uptime := 0
  logWriteStart := 1

/-- The DLT wants an informational statement, and the console is off. -/
def sampleBackends (connected : Bool) : World (.ofList [
    @DltCpp.dltCppContextClass DltCpp.documentedConstants
      (DltCpp.sampleEnvironment connected), Stream.consoleLogContext])
    Unit where
  memory := ()
  registered _ := false
  state := (@DltCpp.DaemonConnection.initial DltCpp.documentedConstants
      fun _ => sampleContext,
    { contexts := { getenv := fun _ => none, defaultLogLevel := .none }
      parent := fun _ => sampleContext }, ())
  aborted := false

/-- A statement with a value. -/
def sampleProgram : List (LogStatement NativeValue Moment Command Unit) :=
  [.log 0 sampleInfo sampleMoment sampleMoment
    [.setHexEnabled true, .insert [] fun _ => .unsignedInt 42]]

theorem stream_alone_sample :
    ∃ w', (sampleBackends false).execAll sampleProgram = some w'
      ∧ ∃ q rest, sampleProgram = q ++ rest
        ∧ (w'.aborted = false → rest = [])
        ∧ (sampleBackends false).execAll q = some w'
        ∧ ∃ aborted,
          ((Component.only Stream.consoleLogContext [] [_]).world
            (sampleBackends false)).execAll q
          = some { (Component.only Stream.consoleLogContext [] [_]).world w'
              with aborted := aborted } := by
  have hrun : ((sampleBackends false).execAll sampleProgram).isSome = true := by
    decide
  obtain ⟨w', hw'⟩ := Option.isSome_iff_exists.mp hrun
  refine ⟨w', hw', stream_alone .console [_] [] ?_ hw'⟩
  simp [sampleProgram, LogStatement.Plain, LogOperand.Plain]

end IviLogging
