/-
What the registry's pointers point to.

`m_contexts` is a vector of plain pointers. A context puts itself there
when it is registered, and its destructor does not take it out, so whether
a pointer of the vector still points to an object is a matter of what the
program destroys.

# The invariant

`Tracked` says that `m_contexts` holds registered contexts only. Every
operation keeps it but one: the destructor of a registered context
(`tracked_step`). A context that was created and never registered may go.

# The dereferences

Every operation dereferences contexts of the vector only. A registration
and a message may open the connection, and then the loop runs over all of
them. A level message takes one, by its position; a position that is not
negative and passes `applyLogLevel`'s comparison is one of the vector
(`mem_of_mem_levelContexts`). That `dereferences` leaves nothing out is
`object_step_of_not_mem`: an object that is not among them, and not the
one the operation is called on, is the same before and after.

# The runs

So in a run that destroys no registered context every dereference meets an
object that is there (`dereferencesLive_of_keepsRegistered`). The
destructor is the one operation that breaks it, and it breaks it every
time: the pointer stays in the vector, and a level message for its
position dereferences it (`destroy_dangles`).
-/
import IviLogging.DltCpp.Lifetimes
import IviLogging.DltCpp.Proofs.Levels

namespace IviLogging.DltCpp

open Transition (Throughout throughout_of_invariant)

namespace Objects

variable (env : Environment)

-- ========================================================= the invariant

/-- Everything in the registry is registered and there. -/
def Tracked (s : Objects) : Prop :=
  ∀ c ∈ s.daemon.contexts, s.life c = .registered

/-- No registered context is destroyed, and no negative position passes
for a small one. -/
def KeepsRegistered (s : Objects) : LifeOp → Prop
  | .destroy c => s.life c ≠ .registered
  | .applyLogLevel message => message.logLevelPos.toInt < 0 →
      ¬ message.logLevelPos < Int32.ofNat s.daemon.contexts.length
  | _ => True

/-- An empty registry. -/
theorem tracked_initial [DltConstants] : initial.Tracked := by
  intro c hc
  cases hc

/-- An object whose context is not registered may change, as it is not in the
vector. -/
theorem Tracked.update {s : Objects} (h : s.Tracked) {c : ContextId}
    (hc : s.life c ≠ .registered) (life : Life) {daemon : DaemonConnection}
    (hcontexts : daemon.contexts = s.daemon.contexts) :
    Tracked ⟨daemon, Function.update s.life c life⟩ := by
  intro c' hc'
  rw [hcontexts] at hc'
  have hlive := h c' hc'
  have hne : c' ≠ c := by
    intro heq
    rw [heq] at hlive
    exact hc hlive
  exact (Function.update_of_ne hne ..).trans hlive

/-- The context that is registered joins the registry. -/
theorem Tracked.register {s : Objects} (h : s.Tracked) (c : ContextId) :
    Tracked ⟨s.daemon.registerContext env c,
      Function.update s.life c .registered⟩ := by
  intro c' hc'
  by_cases hne : c' = c
  · subst hne
    exact Function.update_self ..
  · refine (Function.update_of_ne hne ..).trans (h c' ?_)
    rw [DaemonConnection.contexts_registerContext] at hc'
    rcases List.mem_append.mp hc' with hc' | hc'
    · exact hc'
    · exact absurd (List.mem_singleton.mp hc') hne

/-- A level message changes a level and no registration. -/
theorem contexts_applyLogLevel {s t : DaemonConnection}
    {message : DltUserControlMsgLogLevel}
    (h : s.applyLogLevel message = some t) : t.contexts = s.contexts := by
  unfold DaemonConnection.applyLogLevel at h
  split at h
  · split at h
    · cases h
      rfl
    · cases h
  · cases h
    rfl

/-- The invariant, operation by operation. Only the destructor needs the
assumption: it makes an object absent, and that must not be a registered
one. -/
theorem tracked_step [DltConstants] {s s' : Objects} {op : LifeOp} (h : s.Tracked)
    (hop : s.KeepsRegistered op) (hstep : s.step env op = some s') :
    s'.Tracked := by
  cases op with
  | create c parent =>
      simp only [step, Option.ite_none_right_eq_some] at hstep
      obtain ⟨habsent, heq⟩ := hstep
      cases heq
      -- an object that is not there yet is not registered
      refine h.update ?_ .created rfl
      rw [habsent]
      simp
  | register c =>
      simp only [step, Option.ite_none_left_eq_some] at hstep
      obtain ⟨-, heq⟩ := hstep
      cases heq
      exact h.register env c
  | destroy c =>
      simp only [step, Option.ite_none_left_eq_some] at hstep
      obtain ⟨-, heq⟩ := hstep
      cases heq
      exact h.update hop .absent rfl
  | sendLog uptime data =>
      simp only [step, Option.ite_none_right_eq_some] at hstep
      obtain ⟨-, heq⟩ := hstep
      cases heq
      intro c hc
      rw [DaemonConnection.contexts_sendLog] at hc
      exact h c hc
  | applyLogLevel message =>
      obtain ⟨t, happ, heq⟩ := Option.map_eq_some_iff.mp hstep
      cases heq
      intro c hc
      rw [contexts_applyLogLevel happ] at hc
      exact h c hc

-- ==================================================== the dereferences

/-- The loop runs over the vector, if it runs at all. -/
theorem mem_of_mem_replayed {s : DaemonConnection} {c : ContextId}
    (h : c ∈ s.replayed env) : c ∈ s.contexts := by
  unfold DaemonConnection.replayed at h
  split at h
  · cases h
  · split at h
    · exact h
    · cases h

/-- A position that is not negative and passes the comparison is one of the
vector. The comparison is between signed numbers, so a negative position
would pass it too. -/
theorem mem_of_mem_levelContexts {s : DaemonConnection}
    {message : DltUserControlMsgLogLevel} {x : Option ContextId}
    (hneg : message.logLevelPos.toInt < 0 →
      ¬ message.logLevelPos < Int32.ofNat s.contexts.length)
    (h : x ∈ s.levelContexts message) : ∃ c, x = some c ∧ c ∈ s.contexts := by
  unfold DaemonConnection.levelContexts at h
  by_cases hlt : message.logLevelPos < Int32.ofNat s.contexts.length
  · rw [if_pos hlt] at h
    have hpos : 0 ≤ message.logLevelPos.toInt := by
      by_contra hcon
      exact hneg (by omega) hlt
    have hlt' := Int32.lt_iff_toInt_lt.mp hlt
    have hcast := toInt_ofNat_le s.contexts.length
    -- as an index the position is the number it is, and it is below the
    -- length, or the length has wrapped
    have hindex : vectorIndex message.logLevelPos < s.contexts.length := by
      rw [vectorIndex_of_nonneg hpos]
      omega
    rw [List.mem_singleton.mp h, List.getElem?_eq_getElem hindex]
    exact ⟨_, rfl, List.getElem_mem hindex⟩
  · rw [if_neg hlt] at h
    cases h

/-- Only the contexts of the loop are touched by `initDaemonConnection`, for
which the loop assigns the ids of their headers. -/
theorem object_initDaemonConnection_of_not_mem {s : DaemonConnection}
    {c : ContextId} (h : c ∉ s.replayed env) :
    (s.initDaemonConnection env).object c = s.object c := by
  -- each turn of the loop writes its own context
  have hloop : ∀ (cs : List ContextId) (t : DaemonConnection), c ∉ cs →
      (cs.foldl (DaemonConnection.sendContextRegistration env) t).object c
        = t.object c := by
    intro cs
    induction cs with
    | nil => exact fun _ _ => rfl
    | cons d cs ih =>
        intro t hmem
        rw [List.mem_cons, not_or] at hmem
        rw [List.foldl_cons, ih _ hmem.2,
          DaemonConnection.sendContextRegistration,
          DaemonConnection.object_send,
          DaemonConnection.object_modify_of_ne _ _ _ hmem.1]
  unfold DaemonConnection.replayed at h
  unfold DaemonConnection.initDaemonConnection
  by_cases hconn : s.isDaemonConnected
  · rw [if_pos hconn]
  · rw [if_neg hconn] at h ⊢
    by_cases hopen : env.openFifo s.opens
    · rw [if_pos hopen] at h ⊢
      rw [hloop _ _ h, DaemonConnection.object_send]
    · rw [if_neg hopen]

/-- An element the vector does not have is undefined behaviour, any other
is the context whose level is set. -/
theorem applyLogLevel_eq {s : DaemonConnection}
    {message : DltUserControlMsgLogLevel} :
    s.applyLogLevel message
      = (s.levelContexts message).foldl
          (fun t x => t.bind fun t => x.map fun c =>
            t.setActiveLogLevel c message.logLevel.toNat) (some s) := by
  unfold DaemonConnection.applyLogLevel DaemonConnection.levelContexts
  split
  · cases s.contexts[vectorIndex message.logLevelPos]? with
    | none => rfl
    | some c => rfl
  · rfl

/-- What `dereferences` leaves out is out of reach: an operation changes
no object but the one it is called on and those it takes out of
`m_contexts`. -/
theorem object_step_of_not_mem [DltConstants] {s s' : Objects}
    {op : LifeOp} {c : ContextId} (hstep : s.step env op = some s')
    (hc : some c ∉ s.dereferences env op) (hoperand : op.operand ≠ some c) :
    s'.daemon.object c = s.daemon.object c := by
  cases op with
  | create c' parent =>
      simp only [step, Option.ite_none_right_eq_some] at hstep
      obtain ⟨-, heq⟩ := hstep
      cases heq
      have hne : c ≠ c' := fun h => hoperand (congrArg some h.symm)
      exact Function.update_of_ne hne ..
  | register c' =>
      simp only [step, Option.ite_none_left_eq_some] at hstep
      obtain ⟨-, heq⟩ := hstep
      cases heq
      have hne : c ≠ c' := fun h => hoperand (congrArg some h.symm)
      have hloop : c ∉ (s.daemon.pushContext c').replayed env :=
        fun h => hc (List.mem_map_of_mem h)
      have hinit := (object_initDaemonConnection_of_not_mem env hloop).trans
        (DaemonConnection.object_pushContext_of_ne _ hne)
      simp only [DaemonConnection.registerContext]
      split
      · rw [DaemonConnection.sendContextRegistration,
          DaemonConnection.object_send,
          DaemonConnection.object_modify_of_ne _ _ _ hne, hinit]
      · exact hinit
  | destroy c' =>
      simp only [step, Option.ite_none_left_eq_some] at hstep
      obtain ⟨-, heq⟩ := hstep
      cases heq
      rfl
  | sendLog uptime data =>
      simp only [step, Option.ite_none_right_eq_some] at hstep
      obtain ⟨-, heq⟩ := hstep
      cases heq
      have hloop : c ∉ s.daemon.replayed env :=
        fun h => hc (List.mem_map_of_mem h)
      simp only [DaemonConnection.sendLog]
      split
      · rw [DaemonConnection.object_send,
          object_initDaemonConnection_of_not_mem env hloop]
      · exact object_initDaemonConnection_of_not_mem env hloop
  | applyLogLevel message =>
      obtain ⟨t, happ, heq⟩ := Option.map_eq_some_iff.mp hstep
      cases heq
      rw [applyLogLevel_eq] at happ
      -- the comparison lets through one element of the vector, or nothing
      simp only [dereferences, DaemonConnection.levelContexts] at happ hc
      split at happ
      · next hlt =>
        rw [if_pos hlt, List.mem_singleton] at hc
        obtain ⟨c', hc', heq⟩ := Option.map_eq_some_iff.mp happ
        have hne : c ≠ c' := fun h => hc (by rw [h, hc'])
        rw [← heq]
        exact Function.update_of_ne hne ..
      · cases happ
        rfl

/-- With the invariant every context that is dereferenced is there. The one
that is just being registered is in the vector already and is there
too. -/
theorem dereferencesLive_of_tracked {s : Objects} {op : LifeOp}
    (h : s.Tracked) (hop : s.KeepsRegistered op) :
    s.DereferencesLive env op := by
  intro x hx
  cases op with
  | create c parent => cases hx
  | register c =>
      obtain ⟨c', hc', rfl⟩ := List.mem_map.mp hx
      refine ⟨c', rfl, ?_⟩
      rcases List.mem_append.mp (mem_of_mem_replayed env hc') with hc' | hc'
      · exact Or.inl (h c' hc')
      · rw [List.mem_singleton.mp hc']
        exact Or.inr rfl
  | destroy c => cases hx
  | sendLog uptime data =>
      obtain ⟨c', hc', rfl⟩ := List.mem_map.mp hx
      exact ⟨c', rfl, Or.inl (h c' (mem_of_mem_replayed env hc'))⟩
  | applyLogLevel message =>
      obtain ⟨c, rfl, hc⟩ := mem_of_mem_levelContexts hop hx
      exact ⟨c, rfl, Or.inl (h c hc)⟩

/-- Destroying a context of the registry leaves its pointer there: the
next level message for its position goes to the destroyed object. -/
theorem destroy_dangles [DltConstants] {s s' : Objects} {c : ContextId}
    (hc : c ∈ s.daemon.contexts) (hlen : s.daemon.contexts.length < 2 ^ 31)
    (hstep : s.step env (.destroy c) = some s') :
    ∃ message, 0 ≤ message.logLevelPos.toInt
      ∧ ¬ s'.DereferencesLive env (.applyLogLevel message) := by
  obtain ⟨i, hi⟩ := List.mem_iff_getElem?.mp hc
  have hlt : i < s.daemon.contexts.length :=
    (List.getElem?_eq_some_iff.mp hi).1
  have hpos : (Int32.ofNat i).toInt = i := toInt_ofNat_of_lt (by omega)
  -- the message for the position at which the context stands
  refine ⟨⟨0, 0, Int32.ofNat i⟩, ?_, ?_⟩
  · show 0 ≤ (Int32.ofNat i).toInt
    omega
  · intro hlive
    simp only [step, Option.ite_none_left_eq_some] at hstep
    obtain ⟨-, heq⟩ := hstep
    cases heq
    have hbelow : Int32.ofNat i < Int32.ofNat s.daemon.contexts.length := by
      rw [Int32.lt_iff_toInt_lt, hpos, toInt_ofNat_of_lt hlen]
      omega
    have hindex : vectorIndex (Int32.ofNat i) = i := by
      rw [vectorIndex_of_nonneg (by omega), hpos, Int.toNat_natCast]
    -- the position passes the comparison and finds the pointer
    have hmem : some c ∈ s.daemon.levelContexts ⟨0, 0, Int32.ofNat i⟩ := by
      unfold DaemonConnection.levelContexts
      rw [if_pos hbelow, hindex, hi]
      exact List.mem_singleton_self _
    obtain ⟨c', hc', hlife⟩ := hlive (some c) hmem
    cases hc'
    rcases hlife with hlife | hop
    · have habsent := (Function.update_self ..).symm.trans hlife
      cases habsent
    · cases hop

-- ============================================================== the runs

/-- In a run that destroys no registered context and applies no message
with a negative position that passes the comparison, every context taken
out of `m_contexts` is one that was registered and is not destroyed. -/
theorem dereferencesLive_of_keepsRegistered [DltConstants]
    {ops : List LifeOp}
    (h : Throughout (step env) KeepsRegistered initial ops) :
    Throughout (step env) (DereferencesLive env) initial ops :=
  throughout_of_invariant Tracked
    (fun _ _ _ hs hop hstep => tracked_step env hs hop hstep)
    (fun _ _ hs hop => dereferencesLive_of_tracked env hs hop)
    tracked_initial h

-- ============================================================== a sample

end Objects

/-- A context is created, registered, and destroyed in the end. -/
def sampleLife (last : LifeOp) : List LifeOp :=
  [.create 0 sampleContext, .register 0, last, .applyLogLevel ⟨4, 0, 0⟩]

/-- The level message of a context that is gone. -/
theorem destroyed_context_dereferenced :
    ¬ Throughout (@Objects.step documentedConstants (sampleEnvironment true))
      (Objects.DereferencesLive (sampleEnvironment true))
      (@Objects.initial documentedConstants) (sampleLife (.destroy 0)) := by
  intro h
  obtain ⟨-, h⟩ := h
  obtain ⟨-, h⟩ := h _ rfl
  obtain ⟨-, h⟩ := h _ rfl
  obtain ⟨hlast, -⟩ := h _ rfl
  obtain ⟨c, hc, hlive⟩ := hlast (some 0) (List.mem_singleton_self _)
  cases hc
  rcases hlive with hlive | hop
  · cases hlive
  · cases hop

theorem dereferencesLive_of_keepsRegistered_sample :
    Throughout (@Objects.step documentedConstants (sampleEnvironment true))
      (Objects.DereferencesLive (sampleEnvironment true))
      (@Objects.initial documentedConstants)
      (sampleLife (.create 1 sampleContext)) := by
  apply @Objects.dereferencesLive_of_keepsRegistered
    (sampleEnvironment true) documentedConstants
  refine ⟨trivial, fun s h => ?_⟩
  cases h
  refine ⟨trivial, fun s h => ?_⟩
  cases h
  refine ⟨trivial, fun s h => ?_⟩
  cases h
  refine ⟨?_, fun _ _ => trivial⟩
  intro hneg
  cases hneg

end IviLogging.DltCpp
