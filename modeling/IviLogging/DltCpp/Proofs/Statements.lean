/-
Which statements were handed to `sendLog`.

A log statement is over when its entry is destroyed, and its message goes
to `sendLog` then, if the DLT wanted it when the statement began. Between
the two anything may happen: the operands are expressions, so they may log
themselves, and the level may be set meanwhile.

# The numbers

Statements are numbered as they begin, so the number of a statement is how
many there were before it (`statements`), and an open entry knows its
number. `EntriesInv` says that the numbers are distinct and given out, and
that every open entry is of a registered context, which is what sending its
message asks for. Every event keeps it (`EntriesInv.step`): a new entry
gets the next number, a write leaves an entry its number, the end of an
entry takes the innermost one away.

# One statement

`Settled s k wanted` follows one statement through a run, and says two
things of it, wanted by the DLT or not: its entry, while it is open, knows
the answer; and when the entry is over, the statement was handed to
`sendLog` exactly if the answer was yes. The first is there for the second,
as it is what the end of the entry looks at.

A statement that begins is settled by the filter's answer (`Settled.log`),
and whatever comes in between, nested statements and changes of the level
included, no event unsettles it (`Settled.step`). That the numbers of the
open entries are distinct is needed once: the entry that ends must be the
only one of its statement, or the statement would be handed over while
another entry of it is open (`Settled.sent`).
-/
import IviLogging.DltCpp.Proofs.Logging
import Mathlib.Data.List.Nodup

namespace IviLogging.DltCpp

-- ========================================================== the numbers

/-- The event is a log statement. -/
def Event.isLog : Event → Bool
  | .log _ _ _ _ => true
  | _ => false

/-- The number of the next statement. -/
def statements (events : List Event) : Nat := events.countP Event.isLog

/-- A history that is one event longer. -/
theorem statements_concat (events : List Event) (event : Event) :
    statements (events ++ [event])
      = statements events + if event.isLog then 1 else 0 := by
  rw [statements, List.countP_append, List.countP_singleton]
  rfl

/-- A statement of a history has a number below the next one. -/
theorem statements_lt (before : List Event) {event : Event}
    (hlog : event.isLog = true) (after : List Event) :
    statements before < statements (before ++ event :: after) := by
  unfold statements
  rw [List.countP_append, List.countP_cons_of_pos hlog]
  omega

-- ======================================================= the statements

/-- The open entries and the handed statements have numbers given out,
no two open entries the same one, and their contexts are registered. The
contexts that count as registered are those of the registry. -/
structure EntriesInv (s : Process) : Prop where
  known : ∀ c, s.registered c = true ↔ c ∈ s.daemon.contexts
  open_lt : ∀ e ∈ s.entries, e.statement < s.begun
  handed_lt : ∀ k ∈ s.handed, k < s.begun
  distinct : (s.entries.map Entry.statement).Nodup
  context : ∀ e ∈ s.entries, e.data.context ∈ s.daemon.contexts

/-- The innermost entry, and what holds of the others. -/
theorem EntriesInv.tail {s : Process} (h : EntriesInv s) {e : Entry} {es : List Entry}
    (hentries : s.entries = e :: es) :
    e.statement < s.begun ∧ (∀ e' ∈ es, e'.statement < s.begun)
      ∧ (es.map Entry.statement).Nodup
      ∧ ∀ e' ∈ es, e'.data.context ∈ s.daemon.contexts := by
  have hopen := h.open_lt
  have hdistinct := h.distinct
  have hcontexts := h.context
  rw [hentries] at hopen hdistinct hcontexts
  refine ⟨hopen e (List.mem_cons_self ..), ?_,
    (List.nodup_cons.mp hdistinct).2, ?_⟩
  · intro e' he'
    exact hopen e' (List.mem_cons_of_mem _ he')
  · intro e' he'
    exact hcontexts e' (List.mem_cons_of_mem _ he')

/-- Statement `k`, wanted by the DLT or not: its entry, while open, knows;
when it is over, it was handed to `sendLog` exactly if it was wanted. -/
structure Settled (s : Process) (k : Nat) (wanted : Prop) : Prop where
  enabled : ∀ e ∈ s.entries, e.statement = k →
    (e.data.enabled = true ↔ wanted)
  handed : k ∈ s.handed ↔ wanted ∧ ∀ e ∈ s.entries, e.statement ≠ k

namespace Settled

variable {s t : Process} {k : Nat} {wanted : Prop}

/-- It depends on the entries and on what was handed over only. -/
theorem congr (h : Settled s k wanted) (hentries : t.entries = s.entries)
    (hhanded : t.handed = s.handed) : Settled t k wanted := by
  refine ⟨?_, ?_⟩
  · rw [hentries]
    exact h.enabled
  · rw [hentries, hhanded]
    exact h.handed

/-- An entry of another statement is created. -/
theorem cons (h : Settled s k wanted) {e : Entry} (hne : e.statement ≠ k)
    (hentries : t.entries = e :: s.entries)
    (hhanded : t.handed = s.handed) : Settled t k wanted := by
  refine ⟨?_, ?_⟩
  · intro e' he' hstatement
    rw [hentries] at he'
    rcases List.mem_cons.mp he' with rfl | he'
    · exact absurd hstatement hne
    · exact h.enabled e' he' hstatement
  · rw [hhanded, h.handed, hentries, List.forall_mem_cons]
    exact and_congr_right fun _ => (and_iff_right hne).symm

/-- The innermost entry is sent. It is the entry of `k`, and then the statement
is over and was wanted, or of another statement, and then nothing changes
for `k`. -/
theorem sent (h : Settled s k wanted)
    (hdistinct : (s.entries.map Entry.statement).Nodup) {e : Entry}
    (hentries : s.entries = e :: t.entries) (hen : e.data.enabled = true)
    (hhanded : t.handed = s.handed ++ [e.statement]) :
    Settled t k wanted := by
  have henabled := h.enabled
  have hbefore := h.handed
  rw [hentries] at henabled hbefore hdistinct
  rw [List.forall_mem_cons] at hbefore
  refine ⟨fun e' he' => henabled e' (List.mem_cons_of_mem _ he'), ?_⟩
  rw [hhanded, List.mem_append, List.mem_singleton, hbefore]
  by_cases hstatement : e.statement = k
  · -- the entry of `k`: wanted, and the only one
    have hwanted := (henabled e (List.mem_cons_self ..) hstatement).mp hen
    refine iff_of_true (Or.inr hstatement.symm) ⟨hwanted, ?_⟩
    intro e' he' heq
    -- another entry of `k` would have the same number
    refine (List.nodup_cons.mp hdistinct).1 (List.mem_map.mpr ⟨e', he', ?_⟩)
    rw [heq, hstatement]
  · constructor
    · intro hor
      rcases hor with ⟨hwanted, -, hall⟩ | heq
      · exact ⟨hwanted, hall⟩
      · exact absurd heq.symm hstatement
    · intro hboth
      obtain ⟨hwanted, hall⟩ := hboth
      exact Or.inl ⟨hwanted, hstatement, hall⟩

/-- The innermost entry ends without being sent. If it is the entry of `k`, the
statement was not wanted. -/
theorem dropped (h : Settled s k wanted) {e : Entry}
    (hentries : s.entries = e :: t.entries) (hdis : e.data.enabled = false)
    (hhanded : t.handed = s.handed) : Settled t k wanted := by
  have henabled := h.enabled
  have hbefore := h.handed
  rw [hentries] at henabled hbefore
  rw [List.forall_mem_cons] at hbefore
  refine ⟨fun e' he' => henabled e' (List.mem_cons_of_mem _ he'), ?_⟩
  rw [hhanded, hbefore]
  refine and_congr_right fun hwanted => and_iff_right ?_
  intro hstatement
  -- the entry of `k` knows that it is wanted, so it would be enabled
  have hen := (henabled e (List.mem_cons_self ..) hstatement).mpr hwanted
  rw [hdis] at hen
  cases hen

end Settled

section Statements

variable [DltConstants] {env : Environment} {s t : Process}

/-- `checkContext` registers at most one context more. -/
theorem Process.contexts_checkContext {c : ContextId}
    (h : s.checkContext env c = some t) :
    t.daemon.contexts = s.daemon.contexts
        ∧ s.registered c = true ∧ t = s
      ∨ t.daemon.contexts = s.daemon.contexts ++ [c]
        ∧ s.registered c = false
        ∧ t = { s with
            daemon := s.daemon.registerContext env c
            registered := Function.update s.registered c true } := by
  rcases Process.checkContext_cases h with ⟨hreg, rfl⟩ | ⟨hreg, -, rfl⟩
  · exact Or.inl ⟨rfl, hreg, rfl⟩
  · exact Or.inr ⟨DaemonConnection.contexts_registerContext env c, hreg, rfl⟩

/-- An event registers contexts behind the others only: a first use puts one
there, and no event takes one away. -/
theorem Process.contexts_step {event : Event}
    (hstep : s.step env event = some t) :
    ∃ cs, t.daemon.contexts = s.daemon.contexts ++ cs := by
  have hcheck : ∀ {u : Process} {c : ContextId},
      s.checkContext env c = some u →
      ∃ cs, u.daemon.contexts = s.daemon.contexts ++ cs := by
    intro u c h
    rcases Process.contexts_checkContext h with ⟨hsame, -⟩ | ⟨hmore, -⟩
    · exact ⟨[], by rw [hsame, List.append_nil]⟩
    · exact ⟨[c], hmore⟩
  have hsame : ∀ {u : DaemonConnection}, u.contexts = s.daemon.contexts →
      ∃ cs, u.contexts = s.daemon.contexts ++ cs := by
    intro u h
    exact ⟨[], by rw [h, List.append_nil]⟩
  obtain ⟨-, heffect⟩ := Process.step_cases hstep
  cases event with
  | use c => exact hcheck heffect
  | log c info others memory =>
      obtain ⟨u, hu, hcases⟩ := Process.log_cases heffect
      have hcontexts := hcheck hu
      rcases hcases with ⟨-, rfl⟩ | ⟨-, rfl⟩
      · exact hcontexts
      · exact hcontexts
  | write call =>
      obtain ⟨e, es, -, rfl⟩ := heffect
      exact hsame rfl
  | destroy thread uptime =>
      obtain ⟨e, es, -, hdestroy⟩ := heffect
      rcases Process.destroyEntry_cases hdestroy with ⟨-, -, rfl⟩ | ⟨-, rfl⟩
      · exact hsame (DaemonConnection.contexts_sendLog ..)
      · exact hsame rfl
  | receive chunk =>
      obtain ⟨daemon, hread, rfl⟩ := heffect
      exact hsame (contexts_readerStep hread)
  | setActiveLogLevel c level =>
      obtain rfl := heffect
      exact hsame rfl

/-- The statements begun are counted, whether they have an entry or not. So
the number of a statement is how many log events stand in front of its
own. -/
theorem Process.begun_step {event : Event}
    (hstep : s.step env event = some t) :
    t.begun = s.begun + if event.isLog then 1 else 0 := by
  have hcheck : ∀ {u : Process} {c : ContextId},
      s.checkContext env c = some u → u.begun = s.begun :=
    fun h => (Process.checkContext_keeps h).2.1
  obtain ⟨-, heffect⟩ := Process.step_cases hstep
  cases event with
  | use c => exact hcheck heffect
  | log c info others memory =>
      obtain ⟨u, hu, hcases⟩ := Process.log_cases heffect
      rcases hcases with ⟨-, rfl⟩ | ⟨-, rfl⟩
      · exact congrArg (· + 1) (hcheck hu)
      · exact congrArg (· + 1) (hcheck hu)
  | write call =>
      obtain ⟨e, es, -, rfl⟩ := heffect
      rfl
  | destroy thread uptime =>
      obtain ⟨e, es, -, hdestroy⟩ := heffect
      rcases Process.destroyEntry_cases hdestroy with ⟨-, -, rfl⟩ | ⟨-, rfl⟩
      · rfl
      · rfl
  | receive chunk =>
      obtain ⟨daemon, -, rfl⟩ := heffect
      rfl
  | setActiveLogLevel c level =>
      obtain rfl := heffect
      rfl

namespace EntriesInv

/-- A process that has not logged. -/
theorem initial (parent : ContextId → LogContextCommon) :
    EntriesInv (Process.initial parent) := by
  refine ⟨?_, ?_, ?_, List.nodup_nil, ?_⟩
  · intro c
    exact iff_of_false Bool.false_ne_true List.not_mem_nil
  · intro e he
    cases he
  · intro k hk
    cases hk
  · intro e he
    cases he

/-- A registration keeps the entries' invariant, and its context is in
the registry then. -/
theorem checkContext (h : EntriesInv s) {c : ContextId}
    (hcheck : s.checkContext env c = some t) :
    EntriesInv t ∧ c ∈ t.daemon.contexts := by
  rcases Process.contexts_checkContext hcheck with
    ⟨-, hreg, rfl⟩ | ⟨hcontexts, -, ht⟩
  · exact ⟨h, (h.known c).mp hreg⟩
  · obtain ⟨hentries, hbegun, hhanded⟩ := Process.checkContext_keeps hcheck
    refine ⟨⟨?_, ?_, ?_, ?_, ?_⟩, ?_⟩
    · -- the context itself is registered now and in the registry; the others
      -- are as before
      intro c'
      have hreg : t.registered = Function.update s.registered c true := by
        rw [ht]
      rw [hreg, hcontexts, List.mem_append, List.mem_singleton]
      by_cases hc : c' = c
      · subst hc
        simp
      · rw [Function.update_of_ne hc, h.known c']
        simp [hc]
    · rw [hentries, hbegun]
      exact h.open_lt
    · rw [hhanded, hbegun]
      exact h.handed_lt
    · rw [hentries]
      exact h.distinct
    · intro e he
      rw [hentries] at he
      rw [hcontexts]
      exact List.mem_append_left _ (h.context e he)
    · rw [hcontexts]
      exact List.mem_append_right _ (List.mem_singleton_self c)

/-- An entry gets the next number. -/
theorem createLog (h : EntriesInv s) {c : ContextId}
    (hc : c ∈ s.daemon.contexts) (info : LogInfo)
    (memory : Vector UInt8 maxMessageSize) :
    EntriesInv { s.createLog c info memory with begun := s.begun + 1 } := by
  refine ⟨h.known, ?_, ?_, ?_, ?_⟩
  · intro e he
    rcases List.mem_cons.mp he with rfl | he
    · exact Nat.lt_succ_self _
    · exact Nat.lt_succ_of_lt (h.open_lt e he)
  · intro k hk
    exact Nat.lt_succ_of_lt (h.handed_lt k hk)
  · show (s.begun :: s.entries.map Entry.statement).Nodup
    refine List.nodup_cons.mpr ⟨?_, h.distinct⟩
    intro hmem
    obtain ⟨e, he, heq⟩ := List.mem_map.mp hmem
    -- all open entries have a smaller number
    have hlt := h.open_lt e he
    omega
  · intro e he
    rcases List.mem_cons.mp he with rfl | he
    · exact hc
    · exact h.context e he

/-- A write leaves an entry's number and its context. -/
theorem write (h : EntriesInv s) {e : Entry} {es : List Entry}
    (hentries : s.entries = e :: es) (call : WriteCall) :
    EntriesInv { s with entries := e.write call :: es } := by
  obtain ⟨hstatement, hcontext, -, -⟩ := e.write_keeps call
  have hopen := h.open_lt
  have hdistinct := h.distinct
  have hcontexts := h.context
  rw [hentries] at hopen hdistinct hcontexts
  refine ⟨h.known, ?_, h.handed_lt, ?_, ?_⟩
  · intro e' he'
    rcases List.mem_cons.mp he' with rfl | he'
    · rw [hstatement]
      exact hopen e (List.mem_cons_self ..)
    · exact hopen e' (List.mem_cons_of_mem _ he')
  · show ((e.write call).statement :: es.map Entry.statement).Nodup
    rw [hstatement]
    exact hdistinct
  · intro e' he'
    rcases List.mem_cons.mp he' with rfl | he'
    · rw [hcontext]
      exact hcontexts e (List.mem_cons_self ..)
    · exact hcontexts e' (List.mem_cons_of_mem _ he')

/-- Every event keeps the entries' invariant: the open entries and the
statements handed over have numbers that were given out, no two entries the
same one, and an entry's context is registered. -/
theorem step (h : EntriesInv s) {event : Event}
    (hstep : s.step env event = some t) : EntriesInv t := by
  obtain ⟨-, heffect⟩ := Process.step_cases hstep
  cases event with
  | use c => exact (h.checkContext heffect).1
  | log c info others memory =>
      obtain ⟨u, hcheck, hu⟩ := Process.log_cases heffect
      obtain ⟨hinv, hc⟩ := h.checkContext hcheck
      rcases hu with ⟨-, rfl⟩ | ⟨-, rfl⟩
      · exact hinv.createLog hc info memory
      · -- the number is taken also if there is no entry
        exact ⟨hinv.known, fun e he => Nat.lt_succ_of_lt (hinv.open_lt e he),
          fun k hk => Nat.lt_succ_of_lt (hinv.handed_lt k hk), hinv.distinct,
          hinv.context⟩
  | write call =>
      obtain ⟨e, es, hentries, rfl⟩ := heffect
      exact h.write hentries call
  | destroy thread uptime =>
      obtain ⟨e, es, hentries, hdestroy⟩ := heffect
      obtain ⟨hlt, hopen, hdistinct, hcontexts⟩ := h.tail hentries
      rcases Process.destroyEntry_cases hdestroy with
        ⟨-, -, rfl⟩ | ⟨-, rfl⟩
      · have hsame : (s.daemon.sendLog env uptime
            (e.data.writeTrailer env.base thread)).contexts
              = s.daemon.contexts := DaemonConnection.contexts_sendLog ..
        refine ⟨?_, hopen, ?_, hdistinct, ?_⟩
        · intro c
          rw [hsame]
          exact h.known c
        · -- the statement handed over is the one that ends, and its number
          -- was given out
          intro k hk
          rcases List.mem_append.mp hk with hk | hk
          · exact h.handed_lt k hk
          · rw [List.mem_singleton.mp hk]
            exact hlt
        · rw [hsame]
          exact hcontexts
      · exact ⟨h.known, hopen, h.handed_lt, hdistinct, hcontexts⟩
  | receive chunk =>
      obtain ⟨daemon, hread, rfl⟩ := heffect
      have hsame := contexts_readerStep hread
      refine ⟨?_, h.open_lt, h.handed_lt, h.distinct, ?_⟩
      · intro c
        rw [hsame]
        exact h.known c
      · rw [hsame]
        exact h.context
  | setActiveLogLevel c level =>
      obtain rfl := heffect
      exact ⟨h.known, h.open_lt, h.handed_lt, h.distinct, h.context⟩

/-- A context can be used as long as the registry has room. -/
theorem checkContext_defined (env : Environment) (h : EntriesInv s)
    (hroom : s.daemon.contexts.length < vectorMaxSize) (c : ContextId) :
    ∃ t, s.checkContext env c = some t := by
  unfold Process.checkContext
  cases hreg : s.registered c with
  | true => exact ⟨s, rfl⟩
  | false =>
      have hnew : c ∉ s.daemon.contexts := by
        intro hc
        rw [(h.known c).mpr hc] at hreg
        cases hreg
      rw [if_neg Bool.false_ne_true,
        step_registerContext_iff.mpr ⟨hnew, hroom, rfl⟩]
      exact ⟨_, rfl⟩

end EntriesInv

/-- An entry of a registered context can end: the context of its message is
the one it began with. -/
theorem Process.destroyEntry_defined (env : Environment) {e : Entry}
    (hc : e.data.context ∈ s.daemon.contexts) (thread : ThreadInformation)
    (uptime : UInt32) : ∃ t, s.destroyEntry env e thread uptime = some t := by
  have hcontext : (e.data.writeTrailer env.base thread).context
      ∈ s.daemon.contexts := by
    rw [LogData.writeTrailer_eq_calls, (LogData.calls_keep _ _).1]
    exact hc
  unfold Process.destroyEntry Process.sendEntry
  rw [step_sendLog_iff.mpr ⟨hcontext, rfl⟩]
  split
  · exact ⟨_, rfl⟩
  · exact ⟨_, rfl⟩

/-- A statement that begins is settled by the filter's answer. It has the next
number, so no entry and nothing handed over is of it yet. -/
theorem Settled.log (h : EntriesInv s) {c : ContextId} {info : LogInfo}
    {others : Bool} {memory : Vector UInt8 maxMessageSize}
    (hlog : s.log env c info others memory = some t) :
    ∃ u, s.checkContext env c = some u ∧ c ∈ u.daemon.contexts
      ∧ t.daemon.contexts = u.daemon.contexts
      ∧ Settled t s.begun
        ((u.daemon.object c).isEnabled info.level = true) := by
  obtain ⟨u, hcheck, hcases⟩ := Process.log_cases hlog
  obtain ⟨hinv, hc⟩ := h.checkContext hcheck
  have hbegun : u.begun = s.begun := (Process.checkContext_keeps hcheck).2.1
  -- no number given out is the next one
  have hopen : ∀ e ∈ u.entries, e.statement ≠ s.begun := by
    intro e he
    have hlt := hinv.open_lt e he
    omega
  have hhanded : s.begun ∉ u.handed := by
    intro hk
    have hlt := hinv.handed_lt _ hk
    omega
  rcases hcases with ⟨-, rfl⟩ | ⟨hdis, rfl⟩
  · refine ⟨u, hcheck, hc, rfl, ?_, ?_⟩
    · intro e he hstatement
      rcases List.mem_cons.mp he with rfl | he
      · exact Iff.rfl
      · exact absurd hstatement (hopen e he)
    · -- the new entry is open
      apply iff_of_false hhanded
      intro hboth
      obtain ⟨-, hover⟩ := hboth
      exact hover (u.newEntry c info memory) (List.mem_cons_self ..) hbegun
  · -- no entry at all: then the DLT does not want the statement either
    have hnot : ¬ (u.daemon.object c).isEnabled info.level = true := by
      intro hen
      rw [hen, Bool.true_or] at hdis
      cases hdis
    refine ⟨u, hcheck, hc, rfl, ?_, ?_⟩
    · intro e he hstatement
      exact absurd hstatement (hopen e he)
    · exact iff_of_false hhanded fun hcon => hnot hcon.1

namespace Settled

variable {k : Nat} {wanted : Prop}

/-- The innermost entry is written to. -/
theorem write (h : Settled s k wanted) {e : Entry} {es : List Entry}
    (hentries : s.entries = e :: es) (call : WriteCall) :
    Settled { s with entries := e.write call :: es } k wanted := by
  obtain ⟨hstatement, -, hen, -⟩ := e.write_keeps call
  have henabled := h.enabled
  have hhanded := h.handed
  rw [hentries] at henabled hhanded
  refine ⟨?_, ?_⟩
  · intro e' he' hk'
    rcases List.mem_cons.mp he' with rfl | he'
    · rw [hen]
      exact henabled e (List.mem_cons_self ..) (hstatement.symm.trans hk')
    · exact henabled e' (List.mem_cons_of_mem _ he') hk'
  · rw [hhanded, List.forall_mem_cons, List.forall_mem_cons, hstatement]

/-- No event unsettles an earlier statement. A new entry has a number of its
own, a write leaves an entry's number and flag alone, and the end of an
entry hands over its own number if it hands over any. -/
theorem step (h : EntriesInv s) (hk : k < s.begun)
    (hsettled : Settled s k wanted) {event : Event}
    (hstep : s.step env event = some t) : Settled t k wanted := by
  obtain ⟨-, heffect⟩ := Process.step_cases hstep
  cases event with
  | use c =>
      obtain ⟨hentries, -, hhanded⟩ := Process.checkContext_keeps heffect
      exact hsettled.congr hentries hhanded
  | log c info others memory =>
      obtain ⟨u, hcheck, hu⟩ := Process.log_cases heffect
      obtain ⟨hentries, hbegun, hhanded⟩ :=
        Process.checkContext_keeps hcheck
      rcases hu with ⟨-, rfl⟩ | ⟨-, rfl⟩
      · have hnew : (u.newEntry c info memory).statement ≠ k := by
          show u.begun ≠ k
          omega
        exact (hsettled.congr hentries hhanded).cons hnew rfl rfl
      · exact hsettled.congr hentries hhanded
  | write call =>
      obtain ⟨e, es, hentries, rfl⟩ := heffect
      exact hsettled.write hentries call
  | destroy thread uptime =>
      obtain ⟨e, es, hentries, hdestroy⟩ := heffect
      rcases Process.destroyEntry_cases hdestroy with
        ⟨hen, -, rfl⟩ | ⟨hdis, rfl⟩
      · exact hsettled.sent h.distinct hentries hen rfl
      · exact hsettled.dropped hentries hdis rfl
  | receive chunk =>
      obtain ⟨daemon, -, rfl⟩ := heffect
      exact hsettled.congr rfl rfl
  | setActiveLogLevel c level =>
      obtain rfl := heffect
      exact hsettled.congr rfl rfl

end Settled

end Statements

end IviLogging.DltCpp
