/-
Level control, from the daemon's message to the log statement.

# The specification

The daemon sets levels by position, the application logs on contexts, and
in between are the registry, the chunks the reader's thread reads, and
statements that begin under one level and end under another. What all of
it is for is one sentence: a statement is sent exactly if its level is at
most the last one that was set for its context's position before it began.
`lastLevel` says it over a history of events alone: it reads the level
messages out of the chunks of the history, and looks at no state.

# The invariant

`LevelsFollow` is the registry's side: each context of it has the level
that `lastLevel` gives for its position, and a context that is not in it
has the level it was created with, which is `lastLevel` for a position that
no message has named yet. This is why the messages of a history have to be
for contexts of the registry: a message for a position that is given away
later would be lost for the code and not for the specification.

`LevelInv` adds the statements: each one that began is settled
(Statements.lean) by the level its context's position had then. Both hold
over every history whose chunks are whole messages for contexts of the
registry (`InDomain`), with fewer than 2^31 contexts (`InRange`), and no
event of such a history is undefined behaviour (`LevelInv.step_defined`).
Statements may be nested in any way, and chunks may come between the
beginning and the end of one.

# A full registry

From 2^31 contexts on the registry's size is negative as an `int32_t`,
and no level message is applied any more (`level_ignored_when_full`). The
run that shows it registers that many contexts, so nothing here evaluates
it: `UsedUpTo` says what the state is after `n` of them.
-/
import IviLogging.DltCpp.Proofs.Levels
import IviLogging.DltCpp.Proofs.Statements

namespace IviLogging.DltCpp

open DltConstants

-- ===================================================== the specification

/-- The log level message, if the message is one. -/
def ControlMsg.logLevel? : ControlMsg → Option DltUserControlMsgLogLevel
  | .logState _ _ => none
  | .logLevel _ message => some message

/-- The log level messages of a chunk. -/
def Chunk.levelMessages (chunk : Chunk) : List DltUserControlMsgLogLevel :=
  ((ControlMsg.format.readAll chunk.bytes).getD []).filterMap
    ControlMsg.logLevel?

/-- The log level messages of an event. -/
def Event.levelMessages : Event → List DltUserControlMsgLogLevel
  | .receive chunk => chunk.levelMessages
  | _ => []

/-- The level a position has after some messages, if it had `level` in
front of them: each message for the position sets it, the last one
stays. -/
def levelAfter (pos : Int32) (level : Int)
    (messages : List DltUserControlMsgLogLevel) : Int :=
  messages.foldl
    (fun level message =>
      if message.logLevelPos = pos then message.logLevel.toNat else level)
    level

/-- The level of the last log level message for a position, or
`DLT_LOG_VERBOSE`. -/
def lastLevel [DltConstants] (pos : Int32) (events : List Event) : Int :=
  levelAfter pos dltLogVerbose (events.flatMap Event.levelMessages)

/-- Chunks of whole messages whose positions are in the registry, and
levels set by nobody else. -/
def InDomain (s : Process) : Event → Prop
  | .receive chunk => ∃ messages, chunk.Holds messages
      ∧ ∀ message ∈ messages.filterMap ControlMsg.logLevel?,
        0 ≤ message.logLevelPos.toInt
          ∧ message.logLevelPos.toInt < s.daemon.contexts.length
  | .setActiveLogLevel _ _ => False
  | _ => True

/-- The same with fewer contexts than an `int32_t` counts. -/
def InRange (s : Process) (event : Event) : Prop :=
  s.daemon.contexts.length < 2 ^ 31 ∧ InDomain s event

/-- The process has not ended, and there is an entry to write to or to
end. -/
def Process.Ready (s : Process) : Event → Prop
  | .write _ => s.aborted = false ∧ s.entries ≠ []
  | .destroy _ _ => s.aborted = false ∧ s.entries ≠ []
  | _ => s.aborted = false

/-- The messages that a chunk was written from are the ones that are read
out of it. -/
theorem levelMessages_of_holds {chunk : Chunk} {messages : List ControlMsg}
    (h : chunk.Holds messages) :
    chunk.levelMessages = messages.filterMap ControlMsg.logLevel? := by
  unfold Chunk.levelMessages
  rw [h, ControlMsg.format.readAll_writeAll fun _ _ => trivial]
  rfl

theorem levelAfter_append (pos : Int32) (level : Int)
    (ms ms' : List DltUserControlMsgLogLevel) :
    levelAfter pos level (ms ++ ms')
      = levelAfter pos (levelAfter pos level ms) ms' :=
  List.foldl_append

/-- Messages for other positions do not matter. -/
theorem levelAfter_of_ne {pos : Int32} {level : Int}
    {ms : List DltUserControlMsgLogLevel}
    (h : ∀ m ∈ ms, m.logLevelPos ≠ pos) : levelAfter pos level ms = level := by
  induction ms generalizing level with
  | nil => rfl
  | cons m ms ih =>
      have hm := h m (List.mem_cons_self ..)
      rw [levelAfter, List.foldl_cons, if_neg hm]
      exact ih fun m' hm' => h m' (List.mem_cons_of_mem _ hm')

/-- One event more. -/
theorem lastLevel_concat [DltConstants] (pos : Int32) (events : List Event)
    (event : Event) :
    lastLevel pos (events ++ [event])
      = levelAfter pos (lastLevel pos events) event.levelMessages := by
  rw [lastLevel, List.flatMap_append, levelAfter_append, List.flatMap_cons,
    List.flatMap_nil, List.append_nil]
  rfl

-- ======================================================== the registry

/-- A position of the registry is the one of the context there. -/
theorem eq_getElem_iff {contexts : List ContextId} (hnodup : contexts.Nodup)
    (hlen : contexts.length < 2 ^ 31) {pos : Int32}
    (hnonneg : 0 ≤ pos.toInt) (hsmall : pos.toInt.toNat < contexts.length)
    {i : Nat} {c : ContextId} (hi : contexts[i]? = some c) :
    c = contexts[pos.toInt.toNat] ↔ pos = Int32.ofNat i := by
  obtain ⟨hlt, hc⟩ := List.getElem?_eq_some_iff.mp hi
  rw [← Int32.toInt_inj, toInt_ofNat_of_lt (by omega)]
  -- no context is twice in the registry, so it has one position
  constructor
  · intro heq
    have hindex := hnodup.getElem_inj_iff.mp (hc.trans heq)
    omega
  · intro heq
    have hindex : pos.toInt.toNat = i := by omega
    subst hindex
    exact hc.symm

/-- A message for a context of the registry sets its level, and no other
one. The position converts to the index it says, because the registry is
shorter than an `int32_t` can count, and the context stands there only. -/
theorem applyLogLevel_levels {s : DaemonConnection}
    {message : DltUserControlMsgLogLevel}
    (hlen : s.contexts.length < 2 ^ 31) (hnodup : s.contexts.Nodup)
    (hnonneg : 0 ≤ message.logLevelPos.toInt)
    (hlt : message.logLevelPos.toInt < s.contexts.length) :
    ∃ t, s.applyLogLevel message = some t
      ∧ t.contexts = s.contexts
      ∧ (∀ i c, s.contexts[i]? = some c →
        (t.object c).activeLogLevel
          = levelAfter (Int32.ofNat i) (s.object c).activeLogLevel [message])
      ∧ ∀ c, c ∉ s.contexts →
        (t.object c).activeLogLevel = (s.object c).activeLogLevel := by
  have hsmall : message.logLevelPos.toInt.toNat < s.contexts.length := by
    omega
  have hget := List.getElem?_eq_getElem hsmall
  have hbelow : message.logLevelPos < Int32.ofNat s.contexts.length := by
    rw [Int32.lt_iff_toInt_lt, toInt_ofNat_of_lt hlen]
    exact hlt
  refine ⟨_, applyLogLevel_of_lt hnonneg hbelow hget, rfl, ?_, ?_⟩
  · intro i c hi
    have hiff := eq_getElem_iff hnodup hlen hnonneg hsmall hi
    rw [activeLogLevel_setActiveLogLevel]
    show _ = if _ then _ else _
    by_cases hc : c = s.contexts[message.logLevelPos.toInt.toNat]
    · rw [if_pos hc, if_pos (hiff.mp hc)]
    · rw [if_neg hc, if_neg fun h => hc (hiff.mpr h)]
  · intro c hc
    rw [activeLogLevel_setActiveLogLevel, if_neg ?_]
    intro heq
    exact hc (heq ▸ List.getElem_mem hsmall)

/-- Messages for contexts of the registry set their levels, in order. The
induction is on the messages, from any state: none of them changes the
registry, so the positions of the others are in range still. -/
theorem applyAll_levels {s : DaemonConnection} {messages : List ControlMsg}
    (hlen : s.contexts.length < 2 ^ 31) (hnodup : s.contexts.Nodup)
    (hpos : ∀ message ∈ messages.filterMap ControlMsg.logLevel?,
      0 ≤ message.logLevelPos.toInt
        ∧ message.logLevelPos.toInt < s.contexts.length) :
    ∃ t, ControlMsg.applyAll messages (some s) = some t
      ∧ t.contexts = s.contexts
      ∧ (∀ i c, s.contexts[i]? = some c →
        (t.object c).activeLogLevel
          = levelAfter (Int32.ofNat i) (s.object c).activeLogLevel
            (messages.filterMap ControlMsg.logLevel?))
      ∧ ∀ c, c ∉ s.contexts →
        (t.object c).activeLogLevel = (s.object c).activeLogLevel := by
  induction messages generalizing s with
  | nil => exact ⟨s, rfl, rfl, fun _ _ _ => rfl, fun _ _ => rfl⟩
  | cons m messages ih =>
      cases m with
      | logState pattern state => exact ih hlen hnodup hpos
      | logLevel pattern message =>
          obtain ⟨hnonneg, hlt⟩ := hpos message (List.mem_cons_self ..)
          obtain ⟨u, happly, hsame, hone, hothers⟩ :=
            applyLogLevel_levels hlen hnodup hnonneg hlt
          obtain ⟨t, hrun, hcontexts, hlevels, hothers'⟩ := ih
            (s := u) (by rw [hsame]; exact hlen) (by rw [hsame]; exact hnodup)
            fun m' hm' => by
              rw [hsame]
              exact hpos m' (List.mem_cons_of_mem _ hm')
          -- the messages behind the first one, from the state it leaves
          rw [hsame] at hcontexts hlevels hothers'
          refine ⟨t, ?_, hcontexts, ?_, ?_⟩
          · rw [ControlMsg.applyAll, List.foldl_cons]
            exact (congrArg (ControlMsg.applyAll messages) happly).trans hrun
          · intro i c hi
            rw [hlevels i c hi, hone i c hi, ← levelAfter_append]
            rfl
          · intro c hc
            rw [hothers' c hc, hothers c hc]

/-- The registry follows the level messages of a history: every message
was for a position that it has, its contexts have the last level of their
positions, and any other context the one it was created with. -/
structure LevelsFollow [DltConstants] (events : List Event)
    (s : DaemonConnection) : Prop where
  positions : ∀ message ∈ events.flatMap Event.levelMessages,
    0 ≤ message.logLevelPos.toInt
      ∧ message.logLevelPos.toInt < s.contexts.length
  levels : ∀ i c, s.contexts[i]? = some c →
    (s.object c).activeLogLevel = lastLevel (Int32.ofNat i) events
  fresh : ∀ c, c ∉ s.contexts → (s.object c).activeLogLevel = dltLogVerbose

namespace LevelsFollow

variable [DltConstants] {env : Environment} {events : List Event}
  {s t : DaemonConnection}

theorem initial (parent : ContextId → LogContextCommon) :
    LevelsFollow [] (DaemonConnection.initial parent) := by
  refine ⟨?_, ?_, fun _ _ => rfl⟩
  · intro message h
    cases h
  · intro i c h
    cases h

/-- Neither the registry nor a level changes. -/
theorem congr (h : LevelsFollow events s)
    (hcontexts : t.contexts = s.contexts)
    (hkeeps : Keeps DltCppContext.activeLogLevel s t) :
    LevelsFollow events t := by
  refine ⟨?_, ?_, ?_⟩
  · rw [hcontexts]
    exact h.positions
  · intro i c hi
    rw [hcontexts] at hi
    rw [hkeeps c]
    exact h.levels i c hi
  · intro c hc
    rw [hcontexts] at hc
    rw [hkeeps c]
    exact h.fresh c hc

/-- An event without level messages. -/
theorem concat (h : LevelsFollow events s) (event : Event)
    (hnone : event.levelMessages = []) :
    LevelsFollow (events ++ [event]) s := by
  refine ⟨?_, ?_, h.fresh⟩
  · rw [List.flatMap_append, List.flatMap_singleton, hnone, List.append_nil]
    exact h.positions
  · intro i c hi
    rw [lastLevel_concat, hnone]
    exact h.levels i c hi

/-- The new context has the position behind all others, for which there
was no message. -/
theorem registerContext (h : LevelsFollow events s)
    (hlen : s.contexts.length < 2 ^ 31) {c : ContextId}
    (hc : c ∉ s.contexts) :
    LevelsFollow events (s.registerContext env c) := by
  have hkeeps := Keeps.registerContext env
    (f := DltCppContext.activeLogLevel) (s := s) (fun _ => rfl)
    (fun _ _ => rfl) c
  have hcontexts := DaemonConnection.contexts_registerContext env (s := s) c
  refine ⟨?_, ?_, ?_⟩
  · intro message hmessage
    obtain ⟨hnonneg, hlt⟩ := h.positions message hmessage
    rw [hcontexts, List.length_append, List.length_singleton]
    omega
  · intro i c' hi
    rw [hcontexts] at hi
    rw [hkeeps c']
    rcases Nat.lt_or_ge i s.contexts.length with hold | hnew
    · rw [List.getElem?_append_left hold] at hi
      exact h.levels i c' hi
    · rw [List.getElem?_append_right hnew,
        List.getElem?_singleton] at hi
      split at hi
      · next hzero =>
        cases hi
        -- all messages so far were for positions below that of the new context
        have hlast : i = s.contexts.length := by omega
        have hother : ∀ m ∈ events.flatMap Event.levelMessages,
            m.logLevelPos ≠ Int32.ofNat i := by
          intro m hm heq
          obtain ⟨-, hlt⟩ := h.positions m hm
          rw [heq, toInt_ofNat_of_lt (by omega)] at hlt
          omega
        rw [h.fresh c hc, lastLevel, levelAfter_of_ne hother]
      · cases hi
  · intro c' hc'
    rw [hcontexts, List.mem_append] at hc'
    rw [hkeeps c']
    exact h.fresh c' fun hmem => hc' (Or.inl hmem)

/-- A chunk sets the levels of its messages' positions: what was known of the
levels is what the messages behind the history make of them. -/
theorem receive (h : LevelsFollow events s)
    (hlen : s.contexts.length < 2 ^ 31) (hnodup : s.contexts.Nodup)
    {chunk : Chunk} {messages : List ControlMsg}
    (hholds : chunk.Holds messages)
    (hpos : ∀ message ∈ messages.filterMap ControlMsg.logLevel?,
      0 ≤ message.logLevelPos.toInt
        ∧ message.logLevelPos.toInt < s.contexts.length) :
    ∃ t, readerStep s chunk = some t
      ∧ LevelsFollow (events ++ [.receive chunk]) t := by
  obtain ⟨t, happly, hcontexts, hlevels, hothers⟩ :=
    applyAll_levels hlen hnodup hpos
  have hmessages : (Event.receive chunk).levelMessages
      = messages.filterMap ControlMsg.logLevel? :=
    levelMessages_of_holds hholds
  refine ⟨t, (readerStep_whole hholds s).trans happly, ?_, ?_, ?_⟩
  · intro message hmessage
    rw [List.flatMap_append, List.flatMap_singleton, hmessages,
      List.mem_append] at hmessage
    rw [hcontexts]
    rcases hmessage with hold | hnew
    · exact h.positions message hold
    · exact hpos message hnew
  · intro i c hi
    rw [hcontexts] at hi
    rw [lastLevel_concat, hmessages, hlevels i c hi, h.levels i c hi]
  · intro c hc
    rw [hcontexts] at hc
    rw [hothers c hc]
    exact h.fresh c hc

/-- A use of a context registers it or changes nothing. -/
theorem checkContext {p q : Process} (h : LevelsFollow events p.daemon)
    (hlen : p.daemon.contexts.length < 2 ^ 31) {c : ContextId}
    (hcheck : p.checkContext env c = some q) :
    LevelsFollow events q.daemon := by
  rcases Process.checkContext_cases hcheck with ⟨-, rfl⟩ | ⟨-, hc, rfl⟩
  · exact h
  · exact h.registerContext hlen hc

end LevelsFollow

-- ============================================================ whole runs

/-- What holds after a history: the registry follows its level messages,
and every statement is settled by the level its context's position had
when it began. -/
structure LevelInv [DltConstants] (events : List Event) (s : Process) :
    Prop where
  registry : RegistryInv s.daemon
  entries : EntriesInv s
  begun : s.begun = statements events
  levels : LevelsFollow events s.daemon
  settled : ∀ before c info others memory after,
    events = before ++ .log c info others memory :: after →
    ∃ i, s.daemon.contexts[i]? = some c ∧ Settled s (statements before)
      (DltCppContext.getDLTLogLevel info.level
        ≤ lastLevel (Int32.ofNat i) before)

namespace LevelInv

variable [DltConstants] {env : Environment} {events : List Event}
  {s t : Process}

/-- An empty history. -/
theorem initial (parent : ContextId → LogContextCommon) :
    LevelInv [] (Process.initial parent) := by
  refine ⟨registryInv_initial parent, EntriesInv.initial parent, rfl,
    LevelsFollow.initial parent, ?_⟩
  intro before c info others memory after heq
  cases before <;> cases heq

/-- The levels after one event more. Only a chunk has messages in it; all
that the other events do to a context keeps its level, and to the registry,
adds a context that has the first level. -/
theorem levels_step (h : LevelInv events s) {event : Event}
    (hrange : InRange s event) (hstep : s.step env event = some t) :
    LevelsFollow (events ++ [event]) t.daemon := by
  obtain ⟨hlen, hdomain⟩ := hrange
  have hlevels := h.levels
  obtain ⟨-, heffect⟩ := Process.step_cases hstep
  cases event with
  | use c => exact (hlevels.checkContext hlen heffect).concat _ rfl
  | log c info others memory =>
      obtain ⟨u, hcheck, hcases⟩ := Process.log_cases heffect
      have hu := (hlevels.checkContext hlen hcheck).concat
        (.log c info others memory) rfl
      rcases hcases with ⟨-, rfl⟩ | ⟨-, rfl⟩
      · exact hu.congr rfl (Keeps.createLog (fun _ _ => rfl) c info memory)
      · exact hu
  | write call =>
      obtain ⟨e, es, -, rfl⟩ := heffect
      exact hlevels.concat _ rfl
  | destroy thread uptime =>
      obtain ⟨e, es, -, hdestroy⟩ := heffect
      rcases Process.destroyEntry_cases hdestroy with ⟨-, -, rfl⟩ | ⟨-, rfl⟩
      · exact (hlevels.concat _ rfl).congr
          (DaemonConnection.contexts_sendLog ..)
          (Keeps.sendLog env (fun _ => rfl) uptime _)
      · exact hlevels.concat _ rfl
  | receive chunk =>
      obtain ⟨daemon, hread, rfl⟩ := heffect
      obtain ⟨messages, hholds, hpos⟩ := hdomain
      obtain ⟨sent, hcons, -⟩ := h.registry
      obtain ⟨u, hu, hfollow⟩ := hlevels.receive hlen hcons.nodup hholds hpos
      rw [hread] at hu
      cases hu
      exact hfollow
  | setActiveLogLevel c level => exact hdomain.elim

/-- The new statement of a log event is settled by the level its context's
position has. -/
theorem settled_log (h : LevelInv events s)
    (hlen : s.daemon.contexts.length < 2 ^ 31) {c : ContextId}
    {info : LogInfo} {others : Bool} {memory : Vector UInt8 maxMessageSize}
    (hlog : s.log env c info others memory = some t) :
    ∃ i, t.daemon.contexts[i]? = some c ∧ Settled t (statements events)
      (DltCppContext.getDLTLogLevel info.level
        ≤ lastLevel (Int32.ofNat i) events) := by
  obtain ⟨u, hcheck, hc, hsame, hsettled⟩ := Settled.log h.entries hlog
  have hlevels := h.levels.checkContext hlen hcheck
  obtain ⟨i, hi⟩ := List.mem_iff_getElem?.mp hc
  have hwanted : (u.daemon.object c).isEnabled info.level = true
      ↔ DltCppContext.getDLTLogLevel info.level
        ≤ lastLevel (Int32.ofNat i) events := by
    rw [DltCppContext.isEnabled, decide_eq_true_iff, hlevels.levels i c hi]
  rw [h.begun] at hsettled
  refine ⟨i, hsame ▸ hi, ?_⟩
  -- the filter's answer is the one of the specification
  rw [← propext hwanted]
  exact hsettled

/-- Every event in range keeps the invariant. A statement that was settled
before stays so, with the same position in the registry; one that has just
begun is settled by the level of this moment. -/
theorem step (events : List Event) (s : Process) (event : Event)
    (t : Process) (h : LevelInv events s) (hrange : InRange s event)
    (hstep : s.step env event = some t) :
    LevelInv (events ++ [event]) t := by
  obtain ⟨-, heffect⟩ := Process.step_cases hstep
  obtain ⟨cs, hcontexts⟩ := Process.contexts_step hstep
  refine ⟨Process.registryInv_step h.registry hstep, h.entries.step hstep, ?_,
    h.levels_step hrange hstep, ?_⟩
  · rw [Process.begun_step hstep, statements_concat, h.begun]
  · intro before c info others memory after heq
    rcases List.eq_nil_or_concat after with rfl | ⟨after', z, rfl⟩
    · -- the statement that just began
      obtain ⟨rfl, hlast⟩ := List.append_inj' heq rfl
      cases hlast
      exact h.settled_log hrange.1 heffect
    · -- an earlier one
      rw [List.concat_eq_append, ← List.cons_append,
        ← List.append_assoc] at heq
      obtain ⟨hinit, -⟩ := List.append_inj' heq rfl
      obtain ⟨i, hi, hsettled⟩ :=
        h.settled before c info others memory after' hinit
      have hbegun : statements before < s.begun := by
        rw [h.begun, hinit]
        exact statements_lt before rfl after'
      have hlt : i < s.daemon.contexts.length :=
        (List.getElem?_eq_some_iff.mp hi).1
      refine ⟨i, ?_, Settled.step h.entries hbegun hsettled hstep⟩
      rw [hcontexts, List.getElem?_append_left hlt, hi]

/-- Nothing in range is undefined behaviour: an event for which the process
is ready has a state behind it. A registration has room, the contexts of
the entries are registered, and a chunk finds its positions. -/
theorem step_defined (env : Environment) (h : LevelInv events s)
    {event : Event} (hrange : InRange s event) (hready : s.Ready event) :
    ∃ t, s.step env event = some t := by
  obtain ⟨hlen, hdomain⟩ := hrange
  have hroom : s.daemon.contexts.length < vectorMaxSize := by
    have hmax : vectorMaxSize = 2 ^ 60 - 1 := rfl
    omega
  have hrunning : s.aborted = false := by
    cases event with
    | write call => exact hready.1
    | destroy thread uptime => exact hready.1
    | _ => exact hready
  unfold Process.step
  rw [if_neg (Bool.not_eq_true _ ▸ hrunning)]
  cases event with
  | use c => exact h.entries.checkContext_defined env hroom c
  | log c info others memory =>
      obtain ⟨u, hcheck⟩ := h.entries.checkContext_defined env hroom c
      dsimp only
      rw [Process.log, hcheck]
      exact ⟨_, rfl⟩
  | write call =>
      cases hentries : s.entries with
      | nil => exact absurd hentries hready.2
      | cons e es => exact ⟨_, rfl⟩
  | destroy thread uptime =>
      cases hentries : s.entries with
      | nil => exact absurd hentries hready.2
      | cons e es =>
          have hmem : e ∈ s.entries := by
            rw [hentries]
            exact List.mem_cons_self ..
          exact Process.destroyEntry_defined (s := { s with entries := es })
            env (h.entries.context e hmem) thread uptime
  | receive chunk =>
      obtain ⟨messages, hholds, hpos⟩ := hdomain
      obtain ⟨sent, hcons, -⟩ := h.registry
      obtain ⟨u, hu, -⟩ := h.levels.receive hlen hcons.nodup hholds hpos
      dsimp only [DltCpp.step]
      rw [hu]
      exact ⟨_, rfl⟩
  | setActiveLogLevel c level => exact hdomain.elim

end LevelInv

section Runs

variable [DltConstants] {env : Environment}

/-- In every run whose chunks are whole messages for contexts of the
registry, a log statement that is over was handed to `sendLog` exactly if
its DLT level is at most the level of the last message for its context's
position when it began; and the run can go on with every such event. -/
theorem handed_iff_level (parent : ContextId → LogContextCommon)
    (events : List Event) (s : Process)
    (hrun : Transition.run (Process.step env) (Process.initial parent) events
      = some s)
    (hrange : Transition.Throughout (Process.step env) InRange
      (Process.initial parent) events) :
    (∀ before c info others memory after,
      events = before ++ .log c info others memory :: after →
      (∀ e ∈ s.entries, e.statement ≠ statements before) →
      (statements before ∈ s.handed
        ↔ DltCppContext.getDLTLogLevel info.level
          ≤ lastLevel (s.daemon.object c).logLevelPos before))
    ∧ ∀ event, InRange s event → s.Ready event →
      ∃ t, s.step env event = some t := by
  -- the invariant speaks of the whole history, of any event in it
  have hinv : LevelInv events s := Transition.run_history_of_throughout
    LevelInv LevelInv.step (LevelInv.initial parent) hrange hrun
  refine ⟨?_, fun event hevent hready => hinv.step_defined env hevent hready⟩
  intro before c info others memory after hevents hover
  obtain ⟨i, hi, hsettled⟩ :=
    hinv.settled before c info others memory after hevents
  obtain ⟨sent, hcons, -⟩ := hinv.registry
  rw [hcons.position i c hi, hsettled.handed]
  exact and_iff_left hover

end Runs

/-- A chunk with the level message of the fixed inputs. -/
def sampleLevelChunk : Chunk := sampleChunk sampleLevel.bytes (by decide)

/-- Level 1 for the one context, then an informational statement. -/
theorem handed_iff_level_sample :
    ∃ s, Transition.run
        (@Process.step documentedConstants (sampleEnvironment true))
        sampleProcess [.use 0, .receive sampleLevelChunk, sampleLog true,
          sampleDestroy] = some s
      ∧ (0 ∈ s.handed
        ↔ @DltCppContext.getDLTLogLevel documentedConstants .info
          ≤ @lastLevel documentedConstants (s.daemon.object 0).logLevelPos
            [.use 0, .receive sampleLevelChunk]) := by
  let step := @Process.step documentedConstants (sampleEnvironment true)
  let registered : Process := (step sampleProcess (.use 0)).getD sampleProcess
  let filtered : Process := { registered with
    daemon := registered.daemon.setActiveLogLevel 0 1 }
  have huse : step sampleProcess (.use 0) = some registered := rfl
  have hholds : sampleLevelChunk.Holds [sampleLevel] :=
    (List.append_nil _).symm
  have hreceive : step registered (.receive sampleLevelChunk)
      = some filtered := by
    show (readerStep registered.daemon sampleLevelChunk).map _ = _
    rw [readerStep_whole hholds]
    rfl
  have hrun : Transition.run step sampleProcess
      [.use 0, .receive sampleLevelChunk, sampleLog true, sampleDestroy]
        = Transition.run step filtered [sampleLog true, sampleDestroy] := by
    rw [Transition.run, huse, Option.bind_some, Transition.run, hreceive,
      Option.bind_some]
  refine ⟨_, hrun.trans rfl, ?_⟩
  refine (@handed_iff_level documentedConstants (sampleEnvironment true)
    (fun _ => sampleContext) _ _ (hrun.trans rfl) ?_).1
      [.use 0, .receive sampleLevelChunk] 0 sampleInfo true
      (Vector.replicate maxMessageSize 255) [sampleDestroy] rfl ?_
  · refine (Transition.throughout_cons huse).mpr ⟨⟨by decide, trivial⟩, ?_⟩
    refine (Transition.throughout_cons hreceive).mpr
      ⟨⟨by decide, [sampleLevel], hholds, ?_⟩, ?_⟩
    · intro message hmessage
      rw [List.mem_singleton.mp hmessage]
      exact ⟨by decide, by decide⟩
    · refine (Transition.throughout_cons rfl).mpr ⟨⟨by decide, trivial⟩, ?_⟩
      exact (Transition.throughout_cons rfl).mpr
        ⟨⟨by decide, trivial⟩, trivial⟩
  · intro e he
    cases he

-- ====================================================== a full registry

/-- The contexts below `n` are registered, and nothing else happened. -/
structure UsedUpTo [DltConstants] (n : Nat) (s : Process) : Prop where
  contexts : s.daemon.contexts = List.range n
  registered : ∀ c, s.registered c = true ↔ c < n
  level : ∀ c, (s.daemon.object c).activeLogLevel = dltLogVerbose
  entries : s.entries = []
  handed : s.handed = []
  begun : s.begun = 0
  running : s.aborted = false

namespace UsedUpTo

variable [DltConstants] {env : Environment} {n : Nat} {s : Process}

theorem initial (parent : ContextId → LogContextCommon) :
    UsedUpTo 0 (Process.initial parent) := by
  refine ⟨rfl, ?_, fun _ => rfl, rfl, rfl, rfl, rfl⟩
  intro c
  exact iff_of_false Bool.false_ne_true (Nat.not_lt_zero c)

/-- The next context registers, as none with its number did. It is at the end
of the registry, and its level is the first one. -/
theorem use (env : Environment) (h : UsedUpTo n s)
    (hroom : n < vectorMaxSize) :
    ∃ t, s.step env (.use n) = some t ∧ UsedUpTo (n + 1) t := by
  have hnew : n ∉ s.daemon.contexts := by
    rw [h.contexts]
    exact List.not_mem_range_self
  have hlen : s.daemon.contexts.length = n := by
    rw [h.contexts, List.length_range]
  have hunregistered : ¬ s.registered n = true := by
    rw [h.registered]
    exact Nat.lt_irrefl n
  refine ⟨{ s with
    daemon := s.daemon.registerContext env n
    registered := Function.update s.registered n true }, ?_, ?_⟩
  · unfold Process.step
    rw [if_neg (Bool.not_eq_true _ ▸ h.running)]
    dsimp only
    rw [Process.checkContext, if_neg hunregistered,
      step_registerContext_iff.mpr ⟨hnew, hlen ▸ hroom, rfl⟩]
    rfl
  · refine ⟨?_, ?_, ?_, h.entries, h.handed, h.begun, h.running⟩
    · rw [DaemonConnection.contexts_registerContext, h.contexts,
        List.range_succ]
    · intro c
      dsimp only
      by_cases hc : c = n
      · subst hc
        rw [Function.update_self]
        exact iff_of_true rfl (Nat.lt_succ_self _)
      · rw [Function.update_of_ne hc, h.registered]
        constructor
        · exact Nat.lt_succ_of_lt
        · intro hle
          exact Nat.lt_of_le_of_ne (Nat.le_of_lt_succ hle) hc
    · intro c
      exact (Keeps.registerContext env (f := DltCppContext.activeLogLevel)
        (fun _ => rfl) (fun _ _ => rfl) n c).trans (h.level c)

/-- All contexts below `n`, one after the other. -/
theorem run_uses (env : Environment)
    (parent : ContextId → LogContextCommon) (hroom : n ≤ vectorMaxSize) :
    ∃ s, Transition.run (Process.step env) (Process.initial parent)
        ((List.range n).map .use) = some s ∧ UsedUpTo n s := by
  induction n with
  | zero => exact ⟨_, rfl, initial parent⟩
  | succ n ih =>
      obtain ⟨s, hrun, hused⟩ := ih (by omega)
      obtain ⟨t, hstep, hused'⟩ := hused.use env hroom
      refine ⟨t, ?_, hused'⟩
      rw [List.range_succ, List.map_append]
      exact Transition.run_concat.mpr ⟨s, hrun, hstep⟩

/-- With 2^31 contexts no level message is applied. -/
theorem receive_ignored (env : Environment) (h : UsedUpTo (2 ^ 31) s)
    {chunk : Chunk} {pattern : DltId} {message : DltUserControlMsgLogLevel}
    (hholds : chunk.Holds [.logLevel pattern message]) :
    s.step env (.receive chunk) = some s := by
  have hfull : ¬ message.logLevelPos
      < Int32.ofNat s.daemon.contexts.length := by
    have hcast : (Int32.ofNat (2 ^ 31)).toInt = -2 ^ 31 := by decide
    rw [h.contexts, List.length_range, Int32.lt_iff_toInt_lt, hcast]
    exact Int.not_lt.mpr message.logLevelPos.le_toInt
  have happly : s.daemon.applyLogLevel message = some s.daemon := by
    rw [DaemonConnection.applyLogLevel, if_neg hfull]
  have hread : readerStep s.daemon chunk = some s.daemon :=
    (readerStep_whole hholds s.daemon).trans happly
  unfold Process.step
  rw [if_neg (Bool.not_eq_true _ ▸ h.running)]
  dsimp only [DltCpp.step]
  rw [hread]
  rfl

/-- A statement on a registered context, wanted at the level all contexts
have, is handed to `sendLog`. -/
theorem log_handed (env : Environment) (h : UsedUpTo n s) {c : ContextId}
    (hc : c < n) {info : LogInfo}
    (hlevel : DltCppContext.getDLTLogLevel info.level ≤ dltLogVerbose)
    (others : Bool) (memory : Vector UInt8 maxMessageSize)
    (thread : ThreadInformation) (uptime : UInt32) :
    ∃ t, Transition.run (Process.step env) s
        [.log c info others memory, .destroy thread uptime] = some t
      ∧ t.daemon.contexts = s.daemon.contexts ∧ t.entries = []
      ∧ 0 ∈ t.handed := by
  have hen : (s.daemon.object c).isEnabled info.level = true := by
    rw [DltCppContext.isEnabled, h.level c]
    exact decide_eq_true hlevel
  have hlog : s.step env (.log c info others memory)
      = some { s.createLog c info memory with begun := s.begun + 1 } := by
    unfold Process.step
    rw [if_neg (Bool.not_eq_true _ ▸ h.running)]
    dsimp only
    rw [Process.log, Process.checkContext, if_pos ((h.registered c).mpr hc),
      Option.map_some]
    dsimp only
    rw [hen, Bool.true_or, if_pos rfl]
    rfl
  have hmem : c ∈ s.daemon.contexts := by
    rw [h.contexts]
    exact List.mem_range.mpr hc
  obtain ⟨t, ht⟩ := Process.destroyEntry_defined
    (s := { s.createLog c info memory with
      begun := s.begun + 1, entries := s.entries })
    env (e := s.newEntry c info memory) hmem thread uptime
  have hdestroy : Process.step env
      { s.createLog c info memory with begun := s.begun + 1 }
        (.destroy thread uptime) = some t := by
    unfold Process.step
    rw [if_neg (Bool.not_eq_true _ ▸ h.running)]
    exact ht
  refine ⟨t, Transition.run_cons.mpr ⟨_, hlog,
    Transition.run_cons.mpr ⟨t, hdestroy, rfl⟩⟩, ?_⟩
  rcases Process.destroyEntry_cases ht with ⟨-, -, rfl⟩ | ⟨hdis, -⟩
  · refine ⟨DaemonConnection.contexts_sendLog .., h.entries, ?_⟩
    rw [show (s.newEntry c info memory).statement = 0 from h.begun]
    exact List.mem_append_right _ (List.mem_singleton_self 0)
  · exact absurd (hen.symm.trans hdis) (by decide)

/-- After level 0 for the first of 2^31 contexts, a statement on it is
handed to `sendLog` all the same. -/
theorem handed_when_full (env : Environment)
    (parent : ContextId → LogContextCommon) {n : Nat} (hn : n = 2 ^ 31)
    {chunk : Chunk} {pattern : DltId}
    (hholds : chunk.Holds [.logLevel pattern ⟨0, 0, 0⟩]) {info : LogInfo}
    (hlevel : DltCppContext.getDLTLogLevel info.level ≤ dltLogVerbose)
    (hpositive : 0 < DltCppContext.getDLTLogLevel info.level)
    (memory : Vector UInt8 maxMessageSize) (thread : ThreadInformation)
    (uptime : UInt32) :
    let before := (List.range n).map Event.use ++ [.receive chunk]
    let events := before ++ [.log 0 info false memory,
      .destroy thread uptime]
    ∃ t, Transition.run (Process.step env) (Process.initial parent) events
        = some t
      ∧ Transition.Throughout (Process.step env) InDomain
        (Process.initial parent) events
      ∧ t.entries = [] ∧ statements before ∈ t.handed
      ∧ ¬ DltCppContext.getDLTLogLevel info.level
        ≤ lastLevel (t.daemon.object 0).logLevelPos before := by
  intro before events
  obtain ⟨s, huses, hused⟩ := run_uses env parent (n := n) (by
    rw [hn]
    decide)
  have hreceive : s.step env (.receive chunk) = some s :=
    (hn ▸ hused : UsedUpTo (2 ^ 31) s).receive_ignored env hholds
  have hzero : 0 < n := by
    rw [hn]
    decide
  obtain ⟨t, hlog, hcontexts, hentries, hhanded⟩ :=
    hused.log_handed env hzero hlevel false memory thread uptime
  have hrun : Transition.run (Process.step env) (Process.initial parent)
      events = some t :=
    Transition.run_append.mpr
      ⟨s, Transition.run_concat.mpr ⟨s, huses, hreceive⟩, hlog⟩
  refine ⟨t, hrun, ?_, hentries, ?_, ?_⟩
  · refine Transition.throughout_append.mpr
      ⟨Transition.throughout_append.mpr ⟨?_, ?_⟩, ?_⟩
    · apply Transition.throughout_of_forall
      intro event hevent
      obtain ⟨c, -, rfl⟩ := List.mem_map.mp hevent
      exact fun _ => trivial
    · intro u hu
      obtain rfl : s = u := Option.some.inj (huses.symm.trans hu)
      refine ⟨⟨_, hholds, ?_⟩, fun _ _ => trivial⟩
      intro message hmessage
      rw [List.mem_singleton.mp hmessage, hused.contexts, List.length_range]
      exact ⟨Int.le_refl 0, Int.natCast_pos.mpr hzero⟩
    · intro u hu
      exact ⟨trivial, fun _ _ => ⟨trivial, fun _ _ => trivial⟩⟩
  · have huse : statements ((List.range n).map Event.use) = 0 := by
      rw [statements, List.countP_map, List.countP_eq_zero]
      intro c _
      exact Bool.false_ne_true
    rw [statements_concat, huse]
    exact hhanded
  · obtain ⟨sent, hcons, -⟩ := Transition.run_invariant
      (fun u : Process => RegistryInv u.daemon)
      (fun _ _ _ hu hstep => Process.registryInv_step hu hstep)
      (registryInv_initial parent) hrun
    have hfirst : t.daemon.contexts[0]? = some 0 := by
      rw [hcontexts, hused.contexts, List.getElem?_range hzero]
    rw [hcons.position 0 0 hfirst, lastLevel_concat]
    show ¬ _ ≤ levelAfter _ _ chunk.levelMessages
    rw [levelMessages_of_holds hholds]
    exact Int.not_le.mpr hpositive

end UsedUpTo

/-- 2^31 contexts, level 0 for the first of them, then an informational
statement on it: handed to `sendLog` all the same. -/
theorem level_ignored_when_full :
    ∃ before after s, Transition.run
        (@Process.step documentedConstants (sampleEnvironment false))
        sampleProcess (before ++ sampleLog false :: after) = some s
      ∧ Transition.Throughout
        (@Process.step documentedConstants (sampleEnvironment false))
        InDomain sampleProcess (before ++ sampleLog false :: after)
      ∧ s.entries = []
      ∧ ¬ (statements before ∈ s.handed
        ↔ @DltCppContext.getDLTLogLevel documentedConstants .info
          ≤ @lastLevel documentedConstants (s.daemon.object 0).logLevelPos
            before) := by
  -- the number stays a variable: nothing evaluates the list of contexts
  obtain ⟨n, hn⟩ : ∃ n, n = 2 ^ 31 := ⟨_, rfl⟩
  let off : ControlMsg := .logLevel ⟨68, 85, 72, 1⟩ ⟨0, 0, 0⟩
  let chunk : Chunk := sampleChunk off.bytes (by decide)
  obtain ⟨s, hrun, hdomain, hentries, hhanded, hlevel⟩ :=
    @UsedUpTo.handed_when_full documentedConstants (sampleEnvironment false)
      (fun _ => sampleContext) n hn chunk ⟨68, 85, 72, 1⟩
      (List.append_nil _).symm sampleInfo (by decide) (by decide)
      (Vector.replicate maxMessageSize 255) ⟨1, []⟩ 0
  refine ⟨(List.range n).map Event.use ++ [Event.receive chunk], [sampleDestroy],
    s, hrun, hdomain, hentries, ?_⟩
  intro hiff
  exact hlevel (hiff.mp hhanded)

end IviLogging.DltCpp
