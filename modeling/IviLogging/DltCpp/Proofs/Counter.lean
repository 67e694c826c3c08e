/-
The message counter of a context, and what the daemon sees of it.

# When the number is taken

An entry takes its number when it is created, in `init`, and sends it when
it is destroyed, if it sends at all. Two things can come in between. An
entry that only another backend wants takes a number all the same and never
sends it, so the daemon misses one (`counter_skips`). And two open entries
of one context, in the way that nested statements are, are sent in the
reverse of the order in which they took their numbers.

# The condition and its invariant

`SendsInOrder` excludes both: an entry that is created is one that will be
sent, and is the only open one of its context. Under it the numbers sent
for a context are 0, 1, 2, … in `uint8_t`, and the counter is as far, or
one farther with one open entry that has the number in between
(`CounterInv`, whose `n` is how many were sent). The condition is about the
state in front of each event, and is asked of every event of a run
(`sentCounts_of_sendsInOrder`).

That the frames are really sent needs the daemon: `Environment.Up` is one
that is there and takes every write. What was sent is read from all
connections of the run, the closed ones included (`written`); a
registration or a chunk adds no log frame to it, and a log message adds its
own counter (`sentCounts_sendLog`).
-/
import IviLogging.DltCpp.Proofs.Logging

namespace IviLogging.DltCpp

-- ========================================================= what was sent

/-- The counter of a log frame of `c`, if the write is one. -/
def Sent.messageCount (c : ContextId) (x : Sent) : Option UInt8 :=
  match x.frame with
  | .sendLog _ standardheader _ _ _ =>
      if x.context = some c then some standardheader.mcnt else none
  | _ => none

/-- Everything that was written, connection by connection. -/
def DaemonConnection.written (s : DaemonConnection) : List Sent :=
  s.connections.flatMap Connection.written

/-- The counters of the log frames of `c`, in order. -/
def DaemonConnection.sentCounts (s : DaemonConnection) (c : ContextId) :
    List UInt8 :=
  s.written.filterMap (Sent.messageCount c)

/-- The daemon is there and every write is taken. -/
structure Environment.Up (env : Environment) : Prop where
  openFifo : ∀ n, env.openFifo n = true
  writev : ∀ n, env.writev n ≠ none

namespace DaemonConnection

variable {env : Environment} {s : DaemonConnection}

/-- A write on an open connection that is taken is one more. -/
theorem written_send (hwrite : env.writev s.writevs ≠ none)
    (hup : s.isDaemonConnected = true) (context : Option ContextId)
    (frame : Frame) :
    ∃ n, (s.send env context frame).written
      = s.written ++ [⟨context, frame, n⟩] := by
  rcases send_cases env (s := s) context frame with
    ⟨hdaemon, -⟩ | ⟨connection, count, hdaemon, -, hsend⟩
      | ⟨connection, -, hnone, -⟩
  · rw [isDaemonConnected, hdaemon] at hup
    cases hup
  · refine ⟨min count frame.bytes.length, ?_⟩
    rw [hsend, written, written, connections, connections, hdaemon]
    simp [List.flatMap_append]
  · exact absurd hnone hwrite

/-- A write that is no log frame of `c` shows no counter of `c`. -/
theorem sentCounts_send_other {context : Option ContextId} {frame : Frame}
    {c : ContextId}
    (hother : ∀ n, Sent.messageCount c ⟨context, frame, n⟩ = none) :
    (s.send env context frame).sentCounts c = s.sentCounts c := by
  unfold sentCounts written connections
  rcases send_cases env (s := s) context frame with
    ⟨-, hsend⟩ | ⟨connection, count, hdaemon, -, hsend⟩
      | ⟨connection, hdaemon, -, hsend⟩
  all_goals rw [hsend]
  · simp [hdaemon, hother]
  · simp [hdaemon]

/-- A registration is no log frame, -/
theorem sentCounts_sendContextRegistration (c c' : ContextId) :
    (s.sendContextRegistration env c).sentCounts c' = s.sentCounts c' := by
  have hmodify : (s.modify c (assignIds env)).sentCounts c'
      = s.sentCounts c' := rfl
  rw [sendContextRegistration, sentCounts_send_other fun _ => rfl, hmodify]

/-- and neither is any frame of a connection that is opened, -/
theorem sentCounts_initDaemonConnection (c : ContextId) :
    (s.initDaemonConnection env).sentCounts c = s.sentCounts c := by
  have hloop : ∀ (cs : List ContextId) (t : DaemonConnection),
      (cs.foldl (sendContextRegistration env) t).sentCounts c
        = t.sentCounts c := by
    intro cs
    induction cs with
    | nil =>
        intro t
        rfl
    | cons c' cs ih =>
        intro t
        rw [List.foldl_cons, ih, sentCounts_sendContextRegistration]
  unfold initDaemonConnection
  split
  · rfl
  · next hdown =>
    have hdaemon := not_isDaemonConnected_iff.mp (Bool.not_eq_true _ ▸ hdown)
    split
    · rw [hloop, sentCounts_send_other fun _ => rfl]
      simp [sentCounts, written, connections, hdaemon]
    · rfl

/-- or of a context that joins. -/
theorem sentCounts_registerContext (c c' : ContextId) :
    (s.registerContext env c).sentCounts c' = s.sentCounts c' := by
  have hpush : (s.pushContext c).sentCounts c' = s.sentCounts c' := rfl
  unfold registerContext
  dsimp only
  split
  · rw [sentCounts_sendContextRegistration, sentCounts_initDaemonConnection,
      hpush]
  · rw [sentCounts_initDaemonConnection, hpush]

/-- With the daemon there, `initDaemonConnection` connects. -/
theorem isDaemonConnected_initDaemonConnection (hup : env.Up)
    (s : DaemonConnection) :
    (s.initDaemonConnection env).isDaemonConnected = true := by
  cases hs : s.isDaemonConnected with
  | true =>
      rw [initDaemonConnection, if_pos hs]
      exact hs
  | false =>
      have hdown := not_isDaemonConnected_iff.mp hs
      exact (initDaemonConnection_up env hdown).1.mpr
        ⟨hup.openFifo _, fun _ _ => hup.writev _⟩

/-- With the daemon there, a log message sends its counter. -/
theorem sentCounts_sendLog [DltConstants] (hup : env.Up) (uptime : UInt32)
    (data : LogData) (c : ContextId) :
    (s.sendLog env uptime data).sentCounts c
      = s.sentCounts c
        ++ if data.context = c then [data.messageCount] else [] := by
  have hconn := isDaemonConnected_initDaemonConnection hup s
  unfold sendLog
  simp only [hconn, if_true]
  obtain ⟨n, hwritten⟩ := written_send (hup.writev _) hconn
    (some data.context) (sendLogFrame env.pid uptime
      ((s.initDaemonConnection env).object data.context) data)
  have hinit : (s.initDaemonConnection env).sentCounts c = s.sentCounts c :=
    sentCounts_initDaemonConnection c
  -- the one write behind the connection is the log frame
  rw [sentCounts, hwritten, List.filterMap_append, ← hinit]
  congr 1
  by_cases hc : data.context = c
  · simp [Sent.messageCount, sendLogFrame, hc]
  · simp [Sent.messageCount, sendLogFrame, hc]

end DaemonConnection

-- ========================================================= the invariant

/-- The entry is of context `c`. -/
def Entry.isOf (c : ContextId) (e : Entry) : Bool :=
  decide (e.data.context = c)

/-- The counter of `c` and the numbers sent, with `n` of them: nothing
open, or the one entry that has the next number. In the first case the
counter is the next number, in the second it is one ahead. -/
structure CounterInv (s : Process) (c : ContextId) (n : Nat) : Prop where
  sent : s.daemon.sentCounts c = (List.range n).map UInt8.ofNat
  counter : (s.entries.filter (Entry.isOf c) = []
      ∧ (s.daemon.object c).messageCount = UInt8.ofNat n)
    ∨ ∃ e, s.entries.filter (Entry.isOf c) = [e]
      ∧ e.data.enabled = true ∧ e.data.messageCount = UInt8.ofNat n
      ∧ (s.daemon.object c).messageCount = UInt8.ofNat (n + 1)

/-- An entry that is created will be sent, and no other entry of its
context is open. `others` is what the other backends of the context say:
an entry is created if any of them wants it. -/
def SendsInOrder [DltConstants] (s : Process) : Event → Prop
  | .log c info others _ =>
      ((s.daemon.object c).isEnabled info.level || others) = true →
        (s.daemon.object c).isEnabled info.level = true
          ∧ ∀ e ∈ s.entries, e.data.context ≠ c
  | _ => True

/-- What the condition says where an entry is created. -/
theorem SendsInOrder.of_log [DltConstants] {s : Process} {c : ContextId}
    {info : LogInfo} {others : Bool} {memory : Vector UInt8 maxMessageSize}
    (h : SendsInOrder s (.log c info others memory))
    (hen : ((s.daemon.object c).isEnabled info.level || others) = true) :
    (s.daemon.object c).isEnabled info.level = true
      ∧ s.entries.filter (Entry.isOf c) = [] := by
  obtain ⟨hdlt, hopen⟩ := h hen
  refine ⟨hdlt, List.filter_eq_nil_iff.mpr ?_⟩
  intro e he hof
  exact hopen e he (of_decide_eq_true hof)

namespace CounterInv

variable {s t : Process} {c : ContextId} {n : Nat}

/-- The invariant looks at the counter, the entries and what was sent. -/
theorem congr (h : CounterInv s c n)
    (hsent : t.daemon.sentCounts c = s.daemon.sentCounts c)
    (hcount : (t.daemon.object c).messageCount
      = (s.daemon.object c).messageCount)
    (hentries : t.entries = s.entries) : CounterInv t c n := by
  refine ⟨hsent.trans h.sent, ?_⟩
  rw [hentries, hcount]
  exact h.counter

variable [DltConstants] {env : Environment}

/-- The registration of a context on its first use. -/
theorem checkContext (h : CounterInv s c n) {c' : ContextId}
    (hcheck : s.checkContext env c' = some t) : CounterInv t c n := by
  have hcount := Keeps.checkContext (f := DltCppContext.messageCount)
    (fun _ => rfl) (fun _ _ => rfl) hcheck c
  rcases Process.checkContext_cases hcheck with ⟨-, rfl⟩ | ⟨-, -, rfl⟩
  · exact h
  · exact h.congr (DaemonConnection.sentCounts_registerContext c' c) hcount
      rfl

/-- An entry takes the next number. If it is one of `c` then no other one is
open, so that its number is the one behind all that were sent; an entry of
another context counts on another counter. -/
theorem createLog (h : CounterInv s c n) {c' : ContextId} {info : LogInfo}
    {memory : Vector UInt8 maxMessageSize}
    (hdlt : (s.daemon.object c').isEnabled info.level = true)
    (hnone : s.entries.filter (Entry.isOf c') = []) (b : Nat) :
    CounterInv { s.createLog c' info memory with begun := b } c n := by
  refine ⟨h.sent, ?_⟩
  by_cases hc : c' = c
  · subst hc
    -- no entry of `c` is open, so the number taken is the next one
    rcases h.counter with ⟨-, hcount⟩ | ⟨e, hone, -⟩
    · refine Or.inr ⟨s.newEntry c' info memory, ?_, hdlt, hcount, ?_⟩
      · have hof : Entry.isOf c' (s.newEntry c' info memory) = true :=
          decide_eq_true rfl
        show List.filter _ (s.newEntry c' info memory :: s.entries) = _
        rw [List.filter_cons_of_pos hof, hnone]
      · show ((s.createLog c' info memory).daemon.object c').messageCount = _
        rw [Process.daemon_createLog, DaemonConnection.object_modify_self,
          hcount]
        simp
    · rw [hnone] at hone
      cases hone
  · have hfilter : (s.createLog c' info memory).entries.filter
        (Entry.isOf c) = s.entries.filter (Entry.isOf c) :=
      List.filter_cons_of_neg (by
        intro hof
        exact hc (of_decide_eq_true hof))
    have hobject : (s.createLog c' info memory).daemon.object c
        = s.daemon.object c := by
      rw [Process.daemon_createLog,
        DaemonConnection.object_modify_of_ne _ _ _ (Ne.symm hc)]
    show (List.filter _ (s.createLog c' info memory).entries = [] ∧ _) ∨ _
    rw [hfilter, hobject]
    exact h.counter

/-- A write leaves whose an entry is, its number and the filter's
answer. -/
theorem write (h : CounterInv s c n) {e : Entry} {es : List Entry}
    (hentries : s.entries = e :: es) (call : WriteCall) :
    CounterInv { s with entries := e.write call :: es } c n := by
  obtain ⟨-, hcontext, hen, hnumber⟩ := e.write_keeps call
  have hof : Entry.isOf c (e.write call) = Entry.isOf c e := by
    rw [Entry.isOf, Entry.isOf, hcontext]
  have hcounter := h.counter
  rw [hentries] at hcounter
  refine ⟨h.sent, ?_⟩
  show (List.filter _ (e.write call :: es) = [] ∧ _) ∨ _
  cases hc : Entry.isOf c e with
  | true =>
      rw [List.filter_cons_of_pos hc] at hcounter
      rw [List.filter_cons_of_pos (hof.trans hc)]
      rcases hcounter with ⟨hnil, -⟩ | ⟨e', hone, hrest⟩
      · cases hnil
      · obtain ⟨rfl, hnil⟩ := List.cons.inj hone
        refine Or.inr ⟨e.write call, by rw [hnil], ?_⟩
        rw [hen, hnumber]
        exact hrest
  | false =>
      have hneg : ¬ Entry.isOf c e = true := by
        rw [hc]
        exact Bool.false_ne_true
      rw [List.filter_cons_of_neg hneg] at hcounter
      rw [List.filter_cons_of_neg (by rw [hof]; exact hneg)]
      exact hcounter

/-- The end of an entry sends its number. An entry of `c` is the only one and
has the next number, so that the frames are the first `n + 1` numbers
behind it; the end of another one writes a frame of another context. -/
theorem destroy (hup : env.Up) (h : CounterInv s c n) {e : Entry}
    {es : List Entry} (hentries : s.entries = e :: es)
    {thread : ThreadInformation} {uptime : UInt32}
    (hdestroy : { s with entries := es }.destroyEntry env e thread uptime
      = some t) : ∃ m, CounterInv t c m := by
  have hcounter := h.counter
  rw [hentries] at hcounter
  have hkeeps := LogData.calls_keep e.data
    (LogData.trailerCalls env.base thread e.data.data)
  rw [← LogData.writeTrailer_eq_calls] at hkeeps
  obtain ⟨hcontext, -, -, hnumber⟩ := hkeeps
  have hobject : ∀ t : Process, t.daemon = s.daemon.sendLog env uptime
      (e.data.writeTrailer env.base thread) →
      (t.daemon.object c).messageCount = (s.daemon.object c).messageCount := by
    intro t ht
    rw [ht]
    exact Keeps.sendLog env (f := DltCppContext.messageCount) (fun _ => rfl)
      uptime _ c
  by_cases hc : e.data.context = c
  · -- the entry of `c`: it has the next number, and `c` has no other
    have hof : Entry.isOf c e = true := decide_eq_true hc
    rw [List.filter_cons_of_pos hof] at hcounter
    rcases hcounter with ⟨hnil, -⟩ | ⟨e', hone, hen, hmessage, hcount⟩
    · cases hnil
    · cases hone'' : List.filter (Entry.isOf c) es with
      | cons x xs =>
          rw [hone''] at hone
          cases hone
      | nil =>
          rw [hone''] at hone
          cases hone
          rcases Process.destroyEntry_cases hdestroy with
            ⟨-, -, rfl⟩ | ⟨hdis, -⟩
          · refine ⟨n + 1, ?_, Or.inl ⟨hone'', ?_⟩⟩
            · show (s.daemon.sendLog env uptime _).sentCounts c = _
              rw [DaemonConnection.sentCounts_sendLog hup, hcontext, hnumber,
                if_pos hc, h.sent, hmessage, List.range_succ, List.map_append]
              rfl
            · rw [hobject _ rfl]
              exact hcount
          · rw [hen] at hdis
            cases hdis
  · -- an entry of another context
    have hof : ¬ Entry.isOf c e = true := by
      intro hof
      exact hc (of_decide_eq_true hof)
    rw [List.filter_cons_of_neg hof] at hcounter
    rcases Process.destroyEntry_cases hdestroy with ⟨-, -, rfl⟩ | ⟨-, rfl⟩
    · refine ⟨n, ?_, ?_⟩
      · show (s.daemon.sendLog env uptime _).sentCounts c = _
        rw [DaemonConnection.sentCounts_sendLog hup, hcontext, if_neg hc,
          List.append_nil, h.sent]
      · rw [hobject _ rfl]
        exact hcounter
    · exact ⟨n, h.sent, hcounter⟩

/-- Every event keeps the invariant, if it meets the condition. Only the
end of an entry changes how many were sent. -/
theorem step (hup : env.Up) (h : CounterInv s c n) {event : Event}
    (horder : SendsInOrder s event) (hstep : s.step env event = some t) :
    ∃ m, CounterInv t c m := by
  obtain ⟨-, heffect⟩ := Process.step_cases hstep
  cases event with
  | use c' => exact ⟨n, h.checkContext heffect⟩
  | log c' info others memory =>
      obtain ⟨u, hcheck, hu⟩ := Process.log_cases heffect
      have hinv := h.checkContext hcheck
      have hlevel := Keeps.checkContext
        (f := DltCppContext.activeLogLevel) (fun _ => rfl) (fun _ _ => rfl)
        hcheck c'
      have hfilter : (u.daemon.object c').isEnabled info.level
          = (s.daemon.object c').isEnabled info.level := by
        rw [DltCppContext.isEnabled, DltCppContext.isEnabled, hlevel]
      -- an entry is created if a backend wants it; the condition speaks then
      rcases hu with ⟨hen, rfl⟩ | ⟨-, rfl⟩
      · rw [hfilter] at hen
        obtain ⟨hdlt, hnone⟩ := horder.of_log hen
        exact ⟨n, hinv.createLog (hfilter.trans hdlt)
          (by rw [(Process.checkContext_keeps hcheck).1, hnone]) _⟩
      · exact ⟨n, hinv.congr rfl rfl rfl⟩
  | write call =>
      obtain ⟨e, es, hentries, rfl⟩ := heffect
      exact ⟨n, h.write hentries call⟩
  | destroy thread uptime =>
      obtain ⟨e, es, hentries, hdestroy⟩ := heffect
      exact h.destroy hup hentries hdestroy
  | receive chunk =>
      obtain ⟨daemon, hread, rfl⟩ := heffect
      have hsent := readerStep_invariant
        (fun u => u.sentCounts c = s.daemon.sentCounts c)
        (fun _ _ _ hu => hu) rfl hread
      exact ⟨n, h.congr hsent (Keeps.readerStep
        (f := DltCppContext.messageCount) (fun _ _ => rfl) hread c) rfl⟩
  | setActiveLogLevel c' level =>
      obtain rfl := heffect
      have hkeeps : Keeps DltCppContext.messageCount s.daemon
          (s.daemon.setActiveLogLevel c' level) := Keeps.modify c' fun _ => rfl
      exact ⟨n, h.congr rfl (hkeeps c) rfl⟩

end CounterInv

section Runs

variable [DltConstants] {env : Environment}

/-- In a run that only creates entries it sends, one at a time for each
context, the k-th log frame of a context carries k modulo 256. -/
theorem sentCounts_of_sendsInOrder (hup : env.Up)
    (parent : ContextId → LogContextCommon) (events : List Event)
    (s : Process)
    (hrun : Transition.run (Process.step env) (Process.initial parent) events
      = some s)
    (horder : Transition.Throughout (Process.step env) SendsInOrder
      (Process.initial parent) events)
    (c : ContextId) (k : Nat) (mcnt : UInt8)
    (hk : (s.daemon.sentCounts c)[k]? = some mcnt) :
    mcnt.toNat = k % 256 := by
  have hinitial : CounterInv (Process.initial parent) c 0 :=
    ⟨rfl, Or.inl ⟨rfl, rfl⟩⟩
  -- what was sent are the first `n` numbers, for some `n`
  obtain ⟨n, hinv⟩ := Transition.run_invariant_of_throughout
    (fun u => ∃ n, CounterInv u c n)
    (fun u event v hu hP hstep => by
      obtain ⟨n, hn⟩ := hu
      exact hn.step hup hP hstep)
    ⟨0, hinitial⟩ horder hrun
  rw [hinv.sent, List.getElem?_map, Option.map_eq_some_iff] at hk
  obtain ⟨i, hi, rfl⟩ := hk
  obtain ⟨hlt, hget⟩ := List.getElem?_eq_some_iff.mp hi
  rw [List.getElem_range] at hget
  rw [UInt8.toNat_ofNat', hget]

end Runs

theorem sampleEnvironment_up : (sampleEnvironment true).Up :=
  ⟨fun _ => rfl, fun _ => Option.some_ne_none _⟩

/-- A statement filtered out for the DLT and wanted by another backend,
then one that is sent: the first frame carries 1. -/
theorem counter_skips :
    ∃ s, Transition.run
        (@Process.step documentedConstants (sampleEnvironment true))
        sampleProcess
        [.setActiveLogLevel 0 1, sampleLog true, sampleDestroy,
          .setActiveLogLevel 0 6, sampleLog true, sampleDestroy] = some s
      ∧ ¬ ∀ k mcnt, (s.daemon.sentCounts 0)[k]? = some mcnt →
        mcnt.toNat = k % 256 := by
  refine ⟨_, rfl, ?_⟩
  intro hall
  have hfirst := hall 0 1 rfl
  revert hfirst
  decide

/-- Two statements of the fixed inputs, one after the other. -/
def sampleStatements : List Event :=
  [sampleLog false, sampleDestroy, sampleLog false, sampleDestroy]

/-- The process after them. -/
def sampleLogged : Process :=
  (Transition.run (@Process.step documentedConstants (sampleEnvironment true))
    sampleProcess sampleStatements).getD sampleProcess

theorem sentCounts_of_sendsInOrder_sample :
    (sampleLogged.daemon.sentCounts 0)[1]? = some 1
      ∧ (1 : UInt8).toNat = 1 % 256 := by
  refine ⟨rfl, ?_⟩
  refine @sentCounts_of_sendsInOrder documentedConstants
    (sampleEnvironment true) sampleEnvironment_up (fun _ => sampleContext)
    sampleStatements sampleLogged rfl ?_ 0 1 1 rfl
  have hfirst : @SendsInOrder documentedConstants sampleProcess
      (sampleLog false) := by
    intro _
    refine ⟨by decide, ?_⟩
    intro e he
    cases he
  refine (Transition.throughout_cons rfl).mpr ⟨hfirst, ?_⟩
  refine (Transition.throughout_cons rfl).mpr ⟨trivial, ?_⟩
  refine (Transition.throughout_cons rfl).mpr ⟨?_, ?_⟩
  · intro _
    refine ⟨by decide, ?_⟩
    intro e he
    cases he
  · exact (Transition.throughout_cons rfl).mpr ⟨trivial, trivial⟩

end IviLogging.DltCpp
