/-
The levels log level messages set (`applyLogLevel`).

# One number, three types

A position arrives as an `int32_t`. It is compared, as a signed number,
with the registry's size cast to an `int32_t`, and then used as the index
of a vector, where it is unsigned and as wide as a `size_t`. The lemmas in
front follow it through these: below 2^31 nothing changes
(`toInt_ofNat_of_lt`), a size never becomes more by the cast
(`toInt_ofNat_le`), and a negative position is an index that no vector has
(`vectorIndex_of_neg`).

# When the level arrives

What should happen is said without any of these types: the context at the
position, if there is one, gets the level, no other context does, and no
access leaves the registry (`LevelApplied`). It happens exactly under
`LevelApplicable` (`levelApplied_iff`), which fails in two ways: a negative
position passes the comparison in every registry that is not empty, and is
then no index of it; and from 2^31 contexts on the size is negative, so
that no position passes. For a registry that is reached by a run the one
thing to know is that a vector is never longer than it can be
(`levelApplied_iff_levelApplicable`).
-/
import IviLogging.DltCpp.Proofs.Registration

namespace IviLogging.DltCpp

-- ==================================================== the level's context

/-- A log level message is applied as it should be: the context at its
position gets the level, no other does, and no access leaves the
registry. -/
def LevelApplied (s : DaemonConnection)
    (message : DltUserControlMsgLogLevel) : Prop :=
  ∃ t, s.applyLogLevel message = some t
    ∧ ∀ c, (t.object c).activeLogLevel
      = if 0 ≤ message.logLevelPos.toInt
          ∧ s.contexts[message.logLevelPos.toInt.toNat]? = some c then
          (message.logLevel.toNat : Int)
        else (s.object c).activeLogLevel

/-- A level is set for one context. -/
theorem activeLogLevel_setActiveLogLevel (s : DaemonConnection)
    (c c' : ContextId) (level : Int) :
    ((s.setActiveLogLevel c level).object c').activeLogLevel
      = if c' = c then level else (s.object c').activeLogLevel := by
  unfold DaemonConnection.setActiveLogLevel
  by_cases hc : c' = c
  · subst hc
    rw [DaemonConnection.object_modify_self, if_pos rfl]
  · rw [DaemonConnection.object_modify_of_ne s c _ hc, if_neg hc]

/-- A size as an `int32_t` is never more than the size. -/
theorem toInt_ofNat_le (n : Nat) : (Int32.ofNat n).toInt ≤ n := by
  have hsize : Int32.size = 2 ^ 32 := rfl
  rw [Int32.toInt_ofNat', Int.bmod_def, hsize]
  split <;> omega

/-- A position below 2^31 is itself as an `int32_t`. -/
theorem toInt_ofNat_of_lt {i : Nat} (h : i < 2 ^ 31) :
    (Int32.ofNat i).toInt = i := by
  have hsize : Int32.size = 2 ^ 32 := rfl
  rw [Int32.toInt_ofNat', Int.bmod_def, hsize]
  split <;> omega

/-- A position that is not negative is its own index. -/
theorem vectorIndex_of_nonneg {pos : Int32} (h : 0 ≤ pos.toInt) :
    vectorIndex pos = pos.toInt.toNat := by
  have hlt := pos.toInt_lt
  rw [vectorIndex, Int.emod_eq_of_lt h (by omega)]

/-- A negative position is an index no vector has. -/
theorem vectorIndex_of_neg {pos : Int32} (h : pos.toInt < 0) :
    vectorMaxSize < vectorIndex pos := by
  have hle := pos.le_toInt
  have hmax : vectorMaxSize = 2 ^ 60 - 1 := rfl
  rw [vectorIndex]
  omega

/-- When a level message is applied as it should be: its position does
not pass for small by being negative, and a position of the registry is
below the registry's size also as an `int32_t` (or the level is set
already). Both parts speak of the message and of the state in front of
it. -/
def LevelApplicable (s : DaemonConnection)
    (message : DltUserControlMsgLogLevel) : Prop :=
  (message.logLevelPos.toInt < 0 →
      ¬ message.logLevelPos < Int32.ofNat s.contexts.length)
    ∧ ∀ c, 0 ≤ message.logLevelPos.toInt →
      s.contexts[message.logLevelPos.toInt.toNat]? = some c →
      message.logLevelPos < Int32.ofNat s.contexts.length
        ∨ (s.object c).activeLogLevel = message.logLevel.toNat

/-- A position below the registry's size. -/
theorem applyLogLevel_of_lt {s : DaemonConnection}
    {message : DltUserControlMsgLogLevel} {c : ContextId}
    (hpos : 0 ≤ message.logLevelPos.toInt)
    (hlt : message.logLevelPos < Int32.ofNat s.contexts.length)
    (hc : s.contexts[message.logLevelPos.toInt.toNat]? = some c) :
    s.applyLogLevel message
      = some (s.setActiveLogLevel c message.logLevel.toNat) := by
  unfold DaemonConnection.applyLogLevel
  rw [if_pos hlt, vectorIndex_of_nonneg hpos, hc]

/-- A level message is applied as it should be exactly if it is applicable,
in a registry that is no longer than a vector can be. -/
theorem levelApplied_iff {s : DaemonConnection}
    (hlen : s.contexts.length ≤ vectorMaxSize)
    (message : DltUserControlMsgLogLevel) :
    LevelApplied s message ↔ LevelApplicable s message := by
  have hcast := toInt_ofNat_le s.contexts.length
  constructor
  · intro hex
    obtain ⟨t, happ, hlevels⟩ := hex
    refine ⟨?_, ?_⟩
    · intro hneg hlt
      -- a negative position that passes leaves the vector
      have hindex := vectorIndex_of_neg hneg
      have hnone : s.contexts[vectorIndex message.logLevelPos]? = none :=
        List.getElem?_eq_none (by omega)
      rw [DaemonConnection.applyLogLevel, if_pos hlt, hnone] at happ
      cases happ
    · intro c hpos hc
      by_cases hlt : message.logLevelPos < Int32.ofNat s.contexts.length
      · exact Or.inl hlt
      · -- turned away: the context has its old level, which must be the new one
        rw [DaemonConnection.applyLogLevel, if_neg hlt] at happ
        cases happ
        have hc' := hlevels c
        rw [if_pos ⟨hpos, hc⟩] at hc'
        exact Or.inr hc'
  · intro hboth
    obtain ⟨hneg, hknown⟩ := hboth
    by_cases hlt : message.logLevelPos < Int32.ofNat s.contexts.length
    · have hpos : 0 ≤ message.logLevelPos.toInt :=
        Int.not_lt.mp fun h => hneg h hlt
      have hsmall : message.logLevelPos.toInt.toNat < s.contexts.length := by
        have hlt' := Int32.lt_iff_toInt_lt.mp hlt
        omega
      have hc := List.getElem?_eq_getElem hsmall
      refine ⟨_, applyLogLevel_of_lt hpos hlt hc, ?_⟩
      intro c
      rw [activeLogLevel_setActiveLogLevel]
      by_cases heq : c = s.contexts[message.logLevelPos.toInt.toNat]
      · rw [if_pos heq, if_pos ⟨hpos, by rw [hc, heq]⟩]
      · rw [if_neg heq, if_neg ?_]
        intro hboth
        obtain ⟨-, hc'⟩ := hboth
        rw [hc] at hc'
        exact heq (Option.some.inj hc').symm
    · refine ⟨s, ?_, ?_⟩
      · rw [DaemonConnection.applyLogLevel, if_neg hlt]
      · intro c
        by_cases hc : 0 ≤ message.logLevelPos.toInt
            ∧ s.contexts[message.logLevelPos.toInt.toNat]? = some c
        · rw [if_pos hc]
          rcases hknown c hc.1 hc.2 with h | h
          · exact absurd h hlt
          · exact h
        · rw [if_neg hc]

section Runs

variable [DltConstants] {env : Environment}

/-- A vector is never longer than it can be. -/
theorem length_contexts_step (s : DaemonConnection) (op : Op)
    (t : DaemonConnection) (hlen : s.contexts.length ≤ vectorMaxSize)
    (hstep : step env s op = some t) :
    t.contexts.length ≤ vectorMaxSize := by
  cases op with
  | registerContext c =>
      obtain ⟨-, hroom, rfl⟩ := step_registerContext_iff.mp hstep
      rw [DaemonConnection.contexts_registerContext, List.length_append,
        List.length_singleton]
      omega
  | sendLog uptime data =>
      obtain ⟨-, rfl⟩ := step_sendLog_iff.mp hstep
      rw [DaemonConnection.contexts_sendLog]
      exact hlen
  | receive chunk =>
      rw [contexts_readerStep hstep]
      exact hlen

/-- In every reachable registry a level message reaches exactly the
context at its position, or none, without an access outside the registry,
exactly when it is applicable. -/
theorem levelApplied_iff_levelApplicable
    (parent : ContextId → LogContextCommon) (ops : List Op)
    (s : DaemonConnection)
    (hrun : Transition.run (step env)
      (DaemonConnection.initial parent) ops = some s)
    (message : DltUserControlMsgLogLevel) :
    LevelApplied s message ↔ LevelApplicable s message := by
  have hlen := Transition.run_invariant
    (fun u => u.contexts.length ≤ vectorMaxSize) length_contexts_step
    (Nat.zero_le _) hrun
  exact levelApplied_iff hlen message

end Runs

theorem levelApplied_iff_levelApplicable_sample :
    LevelApplied sampleState ⟨1, 0, 0⟩ ↔ LevelApplicable sampleState ⟨1, 0, 0⟩ :=
  @levelApplied_iff_levelApplicable documentedConstants
    (sampleEnvironment true) (fun _ => sampleContext) sampleOps sampleState
    run_sampleOps ⟨1, 0, 0⟩

/-- Position -1 is below the size of the registry and no index of it. -/
theorem negative_position_not_applied :
    ¬ LevelApplied sampleRegistry ⟨1, 0, -1⟩ := by
  have hlen : sampleRegistry.contexts.length ≤ vectorMaxSize := by decide
  rw [levelApplied_iff hlen]
  intro h
  obtain ⟨hneg, -⟩ := h
  exact hneg (by decide) (by decide)

end IviLogging.DltCpp
