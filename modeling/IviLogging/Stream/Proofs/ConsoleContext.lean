/-
What the environment says about the console, and when.

Which severities a console lets through depends on two levels, its own and
one that all consoles share, and these on variables of the environment, on
constructors and on what the program sets. In which order all that happens
matters, and this module says how.

# When the variables count

The variables count at one moment: when the first context is constructed,
and for the switches when the first one is registered. Before it they may
be set, behind it nothing that is done to them is seen. That is `Once`,
from the library, with what is looked up and what moves the value else:
the shared level (`sharedLevel`), which the program may also set, and the
switches (`sharedSwitches`), which nothing else does. So both are known from
the events, cut at the first that looks (`globalLevel`, `switches`).

# The own level

A constructor gives a context the shared level as its own, but the one
without arguments sets it to Debug again. So a context's own level is known
from the last event that sets it (`level_run`), and with both levels it is
known which severities it lets through (`console_enabled_iff`).

# Off

A console that the environment has switched off shares the level None. Its
contexts' own levels do not matter then: it stays off until the program
sets the shared one (`console_off`).
-/
import IviLogging.Lib.Once
import IviLogging.Stream.ConsoleContext

namespace IviLogging.Stream

-- ================================================================ the events

namespace ConsoleEvent

/-- A constructor runs. -/
def constructs : ConsoleEvent → Bool
  | construct _ _ => true
  | constructDefault _ _ => true
  | _ => false

/-- A context is registered. -/
def registers : ConsoleEvent → Bool
  | registerContext => true
  | _ => false

/-- The context whose own level is set. -/
def levelOf : ConsoleEvent → Option Nat
  | construct c _ => some c
  | constructDefault c _ => some c
  | setLogLevel c _ => some c
  | _ => none

/-- The level it is set to, where all consoles share `level`. -/
def ownLevel (level : LogLevel) : ConsoleEvent → LogLevel
  | construct _ _ => level
  | setLogLevel _ own => own
  | _ => .debug

/-- The variables behind an event. -/
def environment (getenv : Variables) : ConsoleEvent → Variables
  | setenv name value => Function.update getenv name value
  | _ => getenv

/-- The level all consoles share behind an event, the variables apart. -/
def globalLevel (level : LogLevel) : ConsoleEvent → LogLevel
  | setGlobalLogLevel level => level
  | _ => level

end ConsoleEvent

/-- The level all consoles share: the variables are those in front of the
first constructor. -/
def globalLevel (getenv : Variables) (events : List ConsoleEvent) :
    LogLevel :=
  let before := events.takeWhile fun event => !event.constructs
  let level := before.foldl ConsoleEvent.globalLevel .debug
  match events.dropWhile fun event => !event.constructs with
  | [] => level
  | _ :: rest =>
      rest.foldl ConsoleEvent.globalLevel
        (checkEnvVars (before.foldl ConsoleEvent.environment getenv) level)

/-- The switches all contexts share: the variables are those in front of
the first registration. -/
def switches (getenv : Variables) (events : List ConsoleEvent) :
    LogContextBase :=
  let before := events.takeWhile fun event => !event.registers
  let getenv := before.foldl ConsoleEvent.environment getenv
  match events.dropWhile fun event => !event.registers with
  | [] => ⟨false, false⟩
  | _ :: _ =>
      ⟨readEnvVarAsBool getenv enableSourceCodeInformation,
        readEnvVarAsBool getenv enableThreadInformation⟩

-- ============================================================= the variables

/-- The level with a name, in small or in capital letters. -/
def levelNamed (text : List UInt8) : Option LogLevel :=
  (logLevelStrings.find? fun entry => decide (text.map tolower = entry.2)).map
    Prod.fst

/-- A search that goes on behind what it found finds the same when there is
nothing else to find. The loop over the names has no `break`. -/
theorem foldl_named {entries : List (LogLevel × List UInt8)}
    (hnames : (entries.map Prod.snd).Nodup) (text : List UInt8)
    (level : LogLevel) :
    entries.foldl
        (fun level entry => if text = entry.2 then entry.1 else level) level
      = ((entries.find? fun entry => decide (text = entry.2)).map
          Prod.fst).getD level := by
  induction entries generalizing level with
  | nil => rfl
  | cons entry entries ih =>
      rw [List.map_cons, List.nodup_cons] at hnames
      obtain ⟨hfresh, hrest⟩ := hnames
      rw [List.foldl_cons, ih hrest, List.find?_cons]
      by_cases hname : text = entry.2
      · -- the name is found here, so no later entry has it
        have hnone : entries.find? (fun entry => decide (text = entry.2))
            = none := by
          rw [List.find?_eq_none]
          intro other hmem heq
          apply hfresh
          rw [← hname, of_decide_eq_true heq]
          exact List.mem_map_of_mem hmem
        rw [hnone, if_pos hname, decide_eq_true hname]
        rfl
      · simp [hname]

/-- No two levels have the same name. -/
theorem logLevelStrings_nodup :
    (logLevelStrings.map Prod.snd).Nodup := by decide

/-- The console is off when its variable is there and is not 1. Else a level
is taken from the other one, if that names one. -/
theorem checkEnvVars_eq (getenv : Variables) (level : LogLevel) :
    checkEnvVars getenv level =
      if ∃ text, getenv enableConsole = some text ∧ text ≠ ascii ['1'] then
        .none
      else ((getenv consoleLogLevel).bind levelNamed).getD level := by
  have hnamed : checkEnvVars getenv level =
      if readEnvVarAsBool getenv enableConsole true then
        ((getenv consoleLogLevel).bind levelNamed).getD level
      else .none := by
    rw [checkEnvVars]
    cases getenv consoleLogLevel with
    | none => rfl
    | some text =>
        exact if_congr Iff.rfl (foldl_named logLevelStrings_nodup _ level) rfl
  rw [hnamed, readEnvVarAsBool]
  cases getenv enableConsole with
  | none => simp
  | some value => by_cases hone : value = ascii ['1'] <;> simp [hone]

-- ========================================================== what a step does

namespace ConsoleContexts

variable {s : ConsoleContexts} {getenv : Variables}
  {events : List ConsoleEvent}

/-- A constructor, with the level it looks up or finds. -/
theorem construct_eq (s : ConsoleContexts) (c : Nat) (width : UInt16) :
    s.construct c width =
      let level :=
        if s.envVarCheckDone then s.defaultLogLevel
        else checkEnvVars s.getenv s.defaultLogLevel
      { s with
        context := Function.update s.context c
          { level := level, colorSupport := decide (width ≠ 0) }
        defaultLogLevel := level
        envVarCheckDone := true } := by
  obtain ⟨getenv, base, initialized, level, done, context⟩ := s
  cases done <;> simp [construct, setLogLevel]

/-- Only `setenv` changes the variables. -/
@[simp] theorem step_getenv (s : ConsoleContexts) (event : ConsoleEvent) :
    (s.step event).getenv = event.environment s.getenv := by
  cases event with
  | construct c width => simp [step, construct_eq, ConsoleEvent.environment]
  | constructDefault c width =>
      simp [step, constructDefault, construct_eq, setLogLevel,
        ConsoleEvent.environment]
  | registerContext =>
      simp only [step, registerContext, ConsoleEvent.environment]
      split <;> rfl
  | setenv name value => rfl
  | setLogLevel c level => rfl
  | setGlobalLogLevel level => rfl

/-- So they are known from the events. -/
theorem foldl_getenv (s : ConsoleContexts) (events : List ConsoleEvent) :
    (events.foldl step s).getenv
      = events.foldl ConsoleEvent.environment s.getenv := by
  induction events generalizing s with
  | nil => rfl
  | cons event events ih =>
      rw [List.foldl_cons, List.foldl_cons, ih, step_getenv]

/-- The shared level is looked up once, by the first constructor. -/
def sharedLevel : Once ConsoleContexts ConsoleEvent LogLevel where
  step := step
  flag s := s.envVarCheckDone
  value s := s.defaultLogLevel
  occasion := ConsoleEvent.constructs
  lookup s := checkEnvVars s.getenv s.defaultLogLevel
  move := ConsoleEvent.globalLevel
  flag_step s event := by
    cases event with
    | construct c width =>
        simp [step, construct_eq, ConsoleEvent.constructs]
    | constructDefault c width =>
        simp [step, constructDefault, construct_eq, setLogLevel,
          ConsoleEvent.constructs]
    | registerContext =>
        simp only [step, registerContext, ConsoleEvent.constructs,
          Bool.or_false]
        split <;> rfl
    | setenv name value => simp [step, ConsoleEvent.constructs]
    | setLogLevel c level =>
        simp [step, setLogLevel, ConsoleEvent.constructs]
    | setGlobalLogLevel level =>
        simp [step, setGlobalLogLevel, ConsoleEvent.constructs]
  value_first s event hflag hfirst := by
    cases event with
    | construct c width => simp [step, construct_eq, hflag]
    | constructDefault c width =>
        simp [step, constructDefault, construct_eq, setLogLevel, hflag]
    | registerContext => cases hfirst
    | setenv name value => cases hfirst
    | setLogLevel c level => cases hfirst
    | setGlobalLogLevel level => cases hfirst
  value_step s event hlater := by
    cases event with
    | construct c width =>
        have hdone : s.envVarCheckDone = true :=
          hlater.resolve_right Bool.noConfusion
        simp [step, construct_eq, hdone, ConsoleEvent.globalLevel]
    | constructDefault c width =>
        have hdone : s.envVarCheckDone = true :=
          hlater.resolve_right Bool.noConfusion
        simp [step, constructDefault, construct_eq, setLogLevel, hdone,
          ConsoleEvent.globalLevel]
    | registerContext =>
        simp only [step, registerContext, ConsoleEvent.globalLevel]
        split <;> rfl
    | setenv name value => rfl
    | setLogLevel c level => rfl
    | setGlobalLogLevel level => rfl

/-- The switches are looked up once, by the first registration. -/
def sharedSwitches : Once ConsoleContexts ConsoleEvent LogContextBase where
  step := step
  flag s := s.initialized
  value s := s.base
  occasion := ConsoleEvent.registers
  lookup s :=
    ⟨readEnvVarAsBool s.getenv enableSourceCodeInformation,
      readEnvVarAsBool s.getenv enableThreadInformation⟩
  move base _ := base
  flag_step s event := by
    cases event with
    | construct c width => simp [step, construct_eq, ConsoleEvent.registers]
    | constructDefault c width =>
        simp [step, constructDefault, construct_eq, setLogLevel,
          ConsoleEvent.registers]
    | registerContext =>
        cases hdone : s.initialized <;>
          simp [step, registerContext, hdone, ConsoleEvent.registers]
    | setenv name value => simp [step, ConsoleEvent.registers]
    | setLogLevel c level =>
        simp [step, setLogLevel, ConsoleEvent.registers]
    | setGlobalLogLevel level =>
        simp [step, setGlobalLogLevel, ConsoleEvent.registers]
  value_first s event hflag hfirst := by
    cases event with
    | registerContext => simp [step, registerContext, hflag]
    | construct c width => cases hfirst
    | constructDefault c width => cases hfirst
    | setenv name value => cases hfirst
    | setLogLevel c level => cases hfirst
    | setGlobalLogLevel level => cases hfirst
  value_step s event hlater := by
    cases event with
    | registerContext =>
        have hdone : s.initialized = true :=
          hlater.resolve_right Bool.noConfusion
        simp [step, registerContext, hdone]
    | construct c width => simp [step, construct_eq]
    | constructDefault c width =>
        simp [step, constructDefault, construct_eq, setLogLevel]
    | setenv name value => rfl
    | setLogLevel c level => rfl
    | setGlobalLogLevel level => rfl

-- =========================================================== what a run does

/-- The shared level, from the events. -/
theorem defaultLogLevel_run (getenv : Variables)
    (events : List ConsoleEvent) :
    (run getenv events).defaultLogLevel = globalLevel getenv events := by
  have hvalue := sharedLevel.foldl_value
    (s := { getenv := getenv }) rfl events
  have hlevel := (sharedLevel.foldl_before { getenv := getenv } events).1
  have hgetenv := foldl_getenv { getenv := getenv }
    (sharedLevel.before events)
  cases hafter : sharedLevel.after events with
  | nil =>
      rw [hafter] at hvalue
      have hnone : (events.dropWhile fun event => !event.constructs) = [] :=
        hafter
      rw [globalLevel, hnone]
      exact hvalue
  | cons event rest =>
      rw [hafter] at hvalue
      have hsome : (events.dropWhile fun event => !event.constructs)
          = event :: rest := hafter
      rw [globalLevel, hsome]
      -- looked up in the variables and the level at that moment
      refine hvalue.trans (congrArg (List.foldl _ · rest) ?_)
      exact congrArg₂ checkEnvVars hgetenv hlevel

/-- The switches, from the events. They are read at the first registration,
from the variables as the events in front of it have set them, and nothing
moves them again. -/
theorem base_run (getenv : Variables) (events : List ConsoleEvent) :
    (run getenv events).base = switches getenv events := by
  have hkeep : ∀ (events : List ConsoleEvent) (base : LogContextBase),
      events.foldl sharedSwitches.move base = base := by
    intro events base
    exact List.foldl_fixed events
  have hvalue := sharedSwitches.foldl_value
    (s := { getenv := getenv }) rfl events
  have hgetenv := foldl_getenv { getenv := getenv }
    (sharedSwitches.before events)
  cases hafter : sharedSwitches.after events with
  | nil =>
      rw [hafter] at hvalue
      have hnone : (events.dropWhile fun event => !event.registers) = [] :=
        hafter
      rw [switches, hnone]
      exact hvalue.trans (hkeep _ _)
  | cons event rest =>
      rw [hafter] at hvalue
      have hsome : (events.dropWhile fun event => !event.registers)
          = event :: rest := hafter
      rw [switches, hsome]
      refine hvalue.trans ((hkeep _ _).trans ?_)
      exact congrArg (fun getenv => (⟨readEnvVarAsBool getenv _,
        readEnvVarAsBool getenv _⟩ : LogContextBase)) hgetenv

/-- The level of a context that an event does not set. -/
theorem step_level_of_ne (s : ConsoleContexts) {event : ConsoleEvent}
    {c : Nat} (hother : event.levelOf ≠ some c) :
    ((s.step event).context c).level = (s.context c).level := by
  cases event with
  | construct d width =>
      have hne : c ≠ d := fun heq => hother (by rw [heq]; rfl)
      simp [step, construct_eq, hne]
  | constructDefault d width =>
      have hne : c ≠ d := fun heq => hother (by rw [heq]; rfl)
      simp [step, constructDefault, construct_eq, setLogLevel, hne]
  | setLogLevel d level =>
      have hne : c ≠ d := fun heq => hother (by rw [heq]; rfl)
      simp [step, setLogLevel, hne]
  | registerContext =>
      simp only [step, registerContext]
      split <;> rfl
  | setenv name value => rfl
  | setGlobalLogLevel level => rfl

/-- The level of a context that an event sets. -/
theorem step_level_of_eq (s : ConsoleContexts) {event : ConsoleEvent}
    {c : Nat} (hown : event.levelOf = some c) :
    ((s.step event).context c).level
      = event.ownLevel (s.step event).defaultLogLevel := by
  cases event with
  | construct d width =>
      cases hown
      simp [step, construct_eq, ConsoleEvent.ownLevel]
  | constructDefault d width =>
      cases hown
      simp [step, constructDefault, setLogLevel, ConsoleEvent.ownLevel]
  | setLogLevel d level =>
      cases hown
      simp [step, setLogLevel, ConsoleEvent.ownLevel]
  | registerContext => cases hown
  | setenv name value => cases hown
  | setGlobalLogLevel level => cases hown

/-- Events that do not set it, one after the other. -/
theorem foldl_level_of_ne (s : ConsoleContexts) {events : List ConsoleEvent}
    {c : Nat} (hother : ∀ event ∈ events, event.levelOf ≠ some c) :
    ((events.foldl step s).context c).level = (s.context c).level := by
  induction events generalizing s with
  | nil => rfl
  | cons event events ih =>
      rw [List.foldl_cons,
        ih (s.step event) fun later hmem => hother later (by simp [hmem]),
        step_level_of_ne s (hother event (by simp))]

/-- The own level of a context, from the last event that sets it. -/
theorem level_run (getenv : Variables) {front back : List ConsoleEvent}
    {event : ConsoleEvent} {c : Nat} (hown : event.levelOf = some c)
    (hlast : ∀ later ∈ back, later.levelOf ≠ some c) :
    ((run getenv (front ++ event :: back)).context c).level
      = event.ownLevel (globalLevel getenv (front ++ [event])) := by
  have hshared : ((run getenv front).step event).defaultLogLevel
      = globalLevel getenv (front ++ [event]) := by
    rw [← defaultLogLevel_run, run, run, List.foldl_append]
    rfl
  rw [run, List.foldl_append, List.foldl_cons, foldl_level_of_ne _ hlast,
    ← hshared]
  exact step_level_of_eq _ hown

end ConsoleContexts

open ConsoleContexts

/-- A context lets a severity through when neither the level it was last
given nor the level all consoles share is below it. -/
theorem console_enabled_iff (getenv : Variables)
    {front back : List ConsoleEvent} {event : ConsoleEvent} {c : Nat}
    (hown : event.levelOf = some c)
    (hlast : ∀ later ∈ back, later.levelOf ≠ some c) (severity : LogLevel) :
    (run getenv (front ++ event :: back)).isEnabled c severity = true
      ↔ severity.value
          ≤ (event.ownLevel (globalLevel getenv (front ++ [event]))).value
        ∧ severity.value
          ≤ (globalLevel getenv (front ++ event :: back)).value := by
  rw [isEnabled, levels, Levels.isEnabled, Bool.and_eq_true,
    decide_eq_true_iff, decide_eq_true_iff, level_run getenv hown hlast,
    defaultLogLevel_run]

/-- The variable that switches the console off was set too late for the
first context, and the level that is named in capital letters was not. -/
def sampleConsole : List ConsoleEvent :=
  [.setenv consoleLogLevel (some (ascii ['I', 'n', 'F', 'O'])),
    .construct 0 80, .setenv enableConsole (some (ascii ['0'])),
    .constructDefault 1 80, .setGlobalLogLevel .verbose]

theorem console_enabled_iff_sample :
    (run (fun _ => none) sampleConsole).isEnabled 0 .info = true
      ∧ (run (fun _ => none) sampleConsole).isEnabled 0 .debug = false
      ∧ (run (fun _ => none) sampleConsole).isEnabled 1 .debug = true := by
  refine ⟨?_, ?_, ?_⟩
  · refine (@console_enabled_iff _ [_] [_, _, _] (.construct 0 80) 0 rfl ?_
      .info).mpr ?_
    · simp [ConsoleEvent.levelOf]
    · decide
  · rw [← Bool.not_eq_true]
    refine fun h => absurd ((@console_enabled_iff _ [_] [_, _, _]
      (.construct 0 80) 0 rfl ?_ .debug).mp h) ?_
    · simp [ConsoleEvent.levelOf]
    · decide
  · refine (@console_enabled_iff _ [_, _, _] [_] (.constructDefault 1 80) 1
      rfl ?_ .debug).mpr ?_
    · simp [ConsoleEvent.levelOf]
    · decide

/-- Switched off in time, the console stays off whatever else is done, until
the program sets the level that all consoles share. -/
theorem console_off (getenv : Variables) {before after : List ConsoleEvent}
    {first : ConsoleEvent} (hbefore : ∀ event ∈ before, !event.constructs)
    (hfirst : first.constructs)
    (hoff : ∃ text, before.foldl ConsoleEvent.environment getenv enableConsole
      = some text ∧ text ≠ ascii ['1'])
    (hlevel : ∀ event ∈ after, ∀ level, event ≠ .setGlobalLogLevel level)
    {c : Nat} {severity : LogLevel}
    (henabled : (run getenv (before ++ first :: after)).isEnabled c severity) :
    severity = .none := by
  have hsplit : ((before ++ first :: after).takeWhile
        fun event => !event.constructs) = before
      ∧ ((before ++ first :: after).dropWhile
        fun event => !event.constructs) = first :: after := by
    rw [List.takeWhile_append_of_pos hbefore,
      List.dropWhile_append_of_pos hbefore]
    simp [hfirst]
  -- no event behind the first constructor moves the shared level
  have hquiet : ∀ (events : List ConsoleEvent) (level : LogLevel),
      (∀ event ∈ events, ∀ level, event ≠ .setGlobalLogLevel level) →
      events.foldl ConsoleEvent.globalLevel level = level := by
    intro events level hnone
    induction events with
    | nil => rfl
    | cons event events ih =>
        have hevent : event.globalLevel level = level := by
          cases event with
          | setGlobalLogLevel other =>
              exact absurd rfl (hnone _ (by simp) other)
          | _ => rfl
        rw [List.foldl_cons, hevent]
        exact ih fun later hmem => hnone later (by simp [hmem])
  have hshared : (run getenv (before ++ first :: after)).defaultLogLevel
      = .none := by
    rw [defaultLogLevel_run, globalLevel, hsplit.1, hsplit.2]
    exact (hquiet after _ hlevel).trans
      ((checkEnvVars_eq _ _).trans (if_pos hoff))
  rw [isEnabled, levels, Levels.isEnabled, hshared, Bool.and_eq_true]
    at henabled
  have hzero : severity.value ≤ 0 := of_decide_eq_true henabled.2
  cases severity <;> simp [LogLevel.value] at hzero ⊢

end IviLogging.Stream
