/-
Frames that are cut on the daemon's pipe.

`writev` may take a part of a frame. `send` looks for a negative result
only, so the connection stays open behind the part, and the next frame
continues it: for the daemon the rest of the stream is shifted.

# What is looked at

The pipe does not see contexts or levels. It sees a descriptor that is
opened and frames that are given to it, and this is the system here:
`sendStep`, of opens and sends alone, for any frames in any order. That it
is enough is a theorem: every operation of the connection is a run of it up
to the part of the state that the pipe has no part in (`step_runs_sends`;
`wire` is the other part).

# The condition

A state is torn free if the frames an open connection took bytes of are
complete, and those of a closed one all but the last (`TornFree`); a reader
then gets whole frames and at most the beginning of one more before the end
of the stream (`delivered_live`, `delivered_closed`). Each step decides for
itself: a write that fails closes the connection behind complete frames, a
write that takes nothing or everything adds none that is cut, and one that
takes a part has cut its frame while the connection is open
(`tornFree_step_iff`). So a run stays torn free exactly as long as no
`writev` takes a part (`tornFree_iff_takesWhole`). The code does not see to
that, as `send` does not look at how much was taken
(`torn_frame_followed`).
-/
import IviLogging.DltCpp.Proofs.Registration

namespace IviLogging.DltCpp

open Transition (run run_nil run_cons run_append Throughout)

-- ============================================================== the bytes

/-- The bytes of a frame that went out. -/
def Sent.taken (x : Sent) : List UInt8 := x.frame.bytes.take x.accepted

/-- All of a frame went out. -/
def Sent.Complete (x : Sent) : Prop := x.accepted = x.frame.bytes.length

namespace Connection

/-- The frames of which bytes went out, in order. A write that was taken
with no byte leaves nothing on the pipe that could be cut. -/
def pieces (connection : Connection) : List Sent :=
  connection.written.filter fun x => decide (0 < x.accepted)

/-- The bytes a connection delivered. -/
def delivered (connection : Connection) : List UInt8 :=
  connection.written.flatMap Sent.taken

/-- The others delivered nothing. -/
theorem delivered_eq (connection : Connection) :
    connection.delivered = connection.pieces.flatMap Sent.taken := by
  unfold delivered pieces
  induction connection.written with
  | nil => rfl
  | cons x xs ih =>
      rw [List.flatMap_cons, ih]
      by_cases hx : 0 < x.accepted
      · rw [List.filter_cons_of_pos (by simpa using hx), List.flatMap_cons]
      · have hzero : x.taken = [] := by
          rw [Sent.taken, Nat.eq_zero_of_not_pos hx, List.take_zero]
        rw [List.filter_cons_of_neg (by simpa using hx), hzero,
          List.nil_append]

/-- Of complete frames all bytes went out. -/
theorem flatMap_taken {xs : List Sent} (h : ∀ x ∈ xs, x.Complete) :
    xs.flatMap Sent.taken = (xs.map Sent.frame).flatMap Frame.bytes := by
  induction xs with
  | nil => rfl
  | cons x xs ih =>
      have hx : x.accepted = x.frame.bytes.length :=
        h x (List.mem_cons_self ..)
      rw [List.flatMap_cons, List.map_cons, List.flatMap_cons, Sent.taken,
        hx, List.take_length, ih fun y hy => h y (List.mem_cons_of_mem _ hy)]

/-- Complete frames, then at most a part of one. -/
theorem delivered_of_dropLast {connection : Connection}
    (h : ∀ x ∈ connection.pieces.dropLast, x.Complete) :
    ∃ (frames : List Frame) (part : List UInt8),
      connection.delivered = frames.flatMap Frame.bytes ++ part
        ∧ (part = [] ∨ ∃ last : Frame, part <+: last.bytes) := by
  rw [delivered_eq]
  -- all but the last are whole, and of the last the front is there
  rcases List.eq_nil_or_concat connection.pieces with hnil | ⟨xs, x, heq⟩
  · rw [hnil]
    exact ⟨[], [], rfl, Or.inl rfl⟩
  · rw [heq, List.concat_eq_append, List.dropLast_concat] at h
    refine ⟨xs.map Sent.frame, x.taken, ?_,
      Or.inr ⟨x.frame, List.take_prefix ..⟩⟩
    rw [heq, List.concat_eq_append, List.flatMap_append, flatMap_taken h,
      List.flatMap_singleton]

end Connection

/-- The frames an open connection took bytes of are complete; those of a
closed one all but the last. The last one of a closed connection may be
cut, since nothing comes behind it. -/
structure TornFree (s : DaemonConnection) : Prop where
  live : ∀ connection, s.daemon = some connection →
    ∀ x ∈ connection.pieces, x.Complete
  closed : ∀ connection ∈ s.closed,
    ∀ x ∈ connection.pieces.dropLast, x.Complete

namespace TornFree

variable {s : DaemonConnection} (h : TornFree s)
include h

/-- What an open connection delivered are complete frames. -/
theorem delivered_live {connection : Connection}
    (hdaemon : s.daemon = some connection) :
    ∃ frames : List Frame,
      connection.delivered = frames.flatMap Frame.bytes := by
  refine ⟨connection.pieces.map Sent.frame, ?_⟩
  rw [connection.delivered_eq,
    Connection.flatMap_taken (h.live connection hdaemon)]

/-- What a closed one delivered ends with a part of a frame at most. -/
theorem delivered_closed {connection : Connection}
    (hclosed : connection ∈ s.closed) :
    ∃ (frames : List Frame) (part : List UInt8),
      connection.delivered = frames.flatMap Frame.bytes ++ part
        ∧ (part = [] ∨ ∃ last : Frame, part <+: last.bytes) :=
  Connection.delivered_of_dropLast (h.closed connection hclosed)

end TornFree

-- =============================================================== the sends

/-- What the pipe sees of the connection's operations. -/
inductive SendOp
  | connect
  | send (context : Option ContextId) (frame : Frame)

variable (env : Environment)

/-- The state after one of them: the `open` of `initDaemonConnection`, or
`send`. -/
def sendStep (s : DaemonConnection) : SendOp → Option DaemonConnection
  | .connect =>
      if s.isDaemonConnected then none
      else if env.openFifo s.opens then
        some { s with opens := s.opens + 1, daemon := some {} }
      else some { s with opens := s.opens + 1 }
  | .send context frame => some (s.send env context frame)

/-- If the descriptor is open, its `writev` fails, or takes nothing or
everything. -/
def TakesWhole (s : DaemonConnection) : SendOp → Prop
  | .connect => True
  | .send _ frame => s.isDaemonConnected = true →
      ∀ count, env.writev s.writevs = some count →
        count = 0 ∨ frame.bytes.length ≤ count

/-- One write more on an open connection. -/
theorem Connection.pieces_concat (connection : Connection) (x : Sent) :
    ({ connection with written := connection.written ++ [x] }
      : Connection).pieces
      = connection.pieces ++ if 0 < x.accepted then [x] else [] := by
  unfold pieces
  rw [List.filter_append]
  by_cases hx : 0 < x.accepted
  · simp [hx]
  · simp [hx]

/-- A frame that was given to `writev` is complete, or left no byte. -/
theorem complete_iff {frame : Frame} {context : Option ContextId}
    {count : Nat} :
    (∀ x ∈ (if 0 < min count frame.bytes.length then
        [(⟨context, frame, min count frame.bytes.length⟩ : Sent)] else []),
      x.Complete)
      ↔ count = 0 ∨ frame.bytes.length ≤ count := by
  by_cases hpos : 0 < min count frame.bytes.length
  · rw [if_pos hpos]
    simp only [List.mem_singleton, forall_eq, Sent.Complete]
    omega
  · rw [if_neg hpos]
    constructor
    · intro _
      omega
    · intro _ x hx
      cases hx

/-- An `open` begins with no frame at all. -/
theorem TornFree.connect {s s' : DaemonConnection} (h : TornFree s)
    (hstep : sendStep env s .connect = some s') : TornFree s' := by
  simp only [sendStep, Option.ite_none_left_eq_some] at hstep
  obtain ⟨-, hstep⟩ := hstep
  by_cases hopen : env.openFifo s.opens = true
  · rw [if_pos hopen] at hstep
    cases hstep
    refine ⟨?_, h.closed⟩
    intro connection hdaemon x hx
    cases hdaemon
    cases hx
  · rw [if_neg hopen] at hstep
    cases hstep
    exact ⟨h.live, h.closed⟩

/-- A frame that is taken in part is torn as long as the descriptor is
open. -/
theorem tornFree_written_iff {s s' : DaemonConnection} (h : TornFree s)
    {connection : Connection} (hdaemon : s.daemon = some connection)
    {context : Option ContextId} {frame : Frame} {count : Nat}
    (hdaemon' : s'.daemon = some { connection with
      written := connection.written
        ++ [⟨context, frame, min count frame.bytes.length⟩] })
    (hclosed : s'.closed = s.closed) :
    TornFree s' ↔ count = 0 ∨ frame.bytes.length ≤ count := by
  have hpieces := connection.pieces_concat
    ⟨context, frame, min count frame.bytes.length⟩
  rw [← @complete_iff frame context]
  constructor
  · intro hfree x hx
    apply hfree.live _ hdaemon' x
    rw [hpieces]
    exact List.mem_append_right _ hx
  · intro hcomplete
    refine ⟨?_, ?_⟩
    · intro connection' hsome x hx
      rw [hdaemon'] at hsome
      cases hsome
      rw [hpieces] at hx
      rcases List.mem_append.mp hx with hx | hx
      · exact h.live connection hdaemon x hx
      · exact hcomplete x hx
    · rw [hclosed]
      exact h.closed

/-- A write that fails closes the descriptor behind complete frames, so it
does no harm: the next frame goes to a connection of its own. -/
theorem TornFree.failed {s s' : DaemonConnection} (h : TornFree s)
    {connection : Connection} (hdaemon : s.daemon = some connection)
    (frame : Frame) (hdaemon' : s'.daemon = none)
    (hclosed : s'.closed
      = s.closed ++ [{ connection with failed := some frame }]) :
    TornFree s' := by
  refine ⟨?_, ?_⟩
  · intro other hsome
    rw [hdaemon'] at hsome
    cases hsome
  · intro other hother
    rw [hclosed] at hother
    rcases List.mem_append.mp hother with hother | hother
    · exact h.closed other hother
    · rw [List.mem_singleton.mp hother]
      intro x hx
      apply h.live connection hdaemon x
      exact (List.dropLast_sublist _).subset hx

/-- A step keeps a state torn free exactly when its `writev`, if there is
one, takes no part of a frame. -/
theorem tornFree_step_iff {s s' : DaemonConnection} {op : SendOp}
    (h : TornFree s) (hstep : sendStep env s op = some s') :
    TornFree s' ↔ TakesWhole env s op := by
  cases op with
  | connect => exact ⟨fun _ => trivial, fun _ => h.connect env hstep⟩
  | send context frame =>
      cases hstep
      rcases s.send_cases env context frame with
        ⟨hdaemon, heq⟩ | ⟨connection, count, hdaemon, hwrite, heq⟩
          | ⟨connection, hdaemon, hwrite, heq⟩
      · rw [heq]
        refine ⟨fun _ hconn => ?_, fun _ => h⟩
        rw [DaemonConnection.isDaemonConnected, hdaemon] at hconn
        cases hconn
      · rw [tornFree_written_iff h hdaemon (by rw [heq]) (by rw [heq])]
        constructor
        · intro hwhole _ n hn
          rw [hwrite] at hn
          cases hn
          exact hwhole
        · intro hwhole
          apply hwhole _ count hwrite
          exact DaemonConnection.isDaemonConnected_iff.mpr ⟨_, hdaemon⟩
      · -- a failed write is torn free, and the condition asks nothing of it
        have hfree : TornFree (s.send env context frame) :=
          h.failed hdaemon frame (by rw [heq]) (by rw [heq])
        refine ⟨fun _ _ n hn => ?_, fun _ => hfree⟩
        rw [hwrite] at hn
        cases hn

-- ============================================== the operations are sends

/-- The part of the state the pipe sees. -/
def DaemonConnection.wire (s : DaemonConnection) :
    Option Connection × List Connection × Nat × Nat :=
  (s.daemon, s.closed, s.opens, s.writevs)

/-- The step reads and writes that part only: the connections and the two
counts decide where a frame goes and what becomes of it. -/
theorem sendStep_wire {s t : DaemonConnection} (h : s.wire = t.wire)
    (op : SendOp) :
    (sendStep env s op).map DaemonConnection.wire
      = (sendStep env t op).map DaemonConnection.wire := by
  simp only [DaemonConnection.wire, Prod.mk.injEq] at h
  obtain ⟨hdaemon, hclosed, hopens, hwritevs⟩ := h
  cases op with
  | connect =>
      have hsame : s.isDaemonConnected = t.isDaemonConnected := by
        rw [DaemonConnection.isDaemonConnected, hdaemon,
          DaemonConnection.isDaemonConnected]
      simp only [sendStep, hsame, hopens]
      by_cases hconn : t.isDaemonConnected = true
      · rw [if_pos hconn, if_pos hconn]
      · rw [if_neg hconn, if_neg hconn]
        by_cases hopen : env.openFifo t.opens = true
        · rw [if_pos hopen, if_pos hopen]
          simp [DaemonConnection.wire, hclosed, hwritevs]
        · rw [if_neg hopen, if_neg hopen]
          simp [DaemonConnection.wire, hdaemon, hclosed, hwritevs]
  | send context frame =>
      simp only [sendStep, DaemonConnection.send, hdaemon, hwritevs]
      cases hcase : t.daemon with
      | none => simp [DaemonConnection.wire, hdaemon, hclosed, hopens,
          hwritevs, hcase]
      | some connection =>
          cases env.writev t.writevs with
          | none => simp [DaemonConnection.wire, hclosed, hopens]
          | some count => simp [DaemonConnection.wire, hclosed, hopens]

/-- Nor does a run read or write anything else. -/
theorem run_sendStep_wire {s t : DaemonConnection} (h : s.wire = t.wire)
    (ops : List SendOp) :
    (run (sendStep env) s ops).map DaemonConnection.wire
      = (run (sendStep env) t ops).map DaemonConnection.wire := by
  induction ops generalizing s t with
  | nil => exact congrArg some h
  | cons op ops ih =>
      have hstep := sendStep_wire env h op
      unfold run
      cases hs : sendStep env s op with
      | none =>
          rw [hs, Option.map_none] at hstep
          rw [Option.map_eq_none_iff.mp hstep.symm]
      | some s' =>
          rw [hs, Option.map_some] at hstep
          obtain ⟨t', ht, hwire⟩ := Option.map_eq_some_iff.mp hstep.symm
          rw [ht]
          exact ih hwire.symm

/-- `t` is what some opens and sends make of `s`, as far as the pipe is
concerned. -/
def Sends (s t : DaemonConnection) : Prop :=
  ∃ ops u, run (sendStep env) s ops = some u ∧ u.wire = t.wire

namespace Sends

variable {env} {s t u : DaemonConnection}

/-- No step at all. -/
theorem of_wire (h : s.wire = t.wire) : Sends env s t :=
  ⟨[], s, rfl, h⟩

/-- Some steps, and some more. The second run starts where the pipe's part
of the state is, not the state itself, and can be run from there too. -/
theorem trans (h : Sends env s t) (h' : Sends env t u) : Sends env s u := by
  obtain ⟨ops, v, hrun, hwire⟩ := h
  obtain ⟨ops', v', hrun', hwire'⟩ := h'
  have hsame := run_sendStep_wire env hwire ops'
  rw [hrun'] at hsame
  obtain ⟨w, hw, hwirew⟩ := Option.map_eq_some_iff.mp hsame
  exact ⟨ops ++ ops', w, run_append.mpr ⟨v, hrun, hw⟩,
    hwirew.trans hwire'⟩

theorem send (s : DaemonConnection) (context : Option ContextId)
    (frame : Frame) : Sends env s (s.send env context frame) :=
  ⟨[.send context frame], s.send env context frame, rfl, rfl⟩

theorem sendContextRegistration (s : DaemonConnection) (c : ContextId) :
    Sends env s (s.sendContextRegistration env c) := by
  have hids : Sends env s (s.modify c (DaemonConnection.assignIds env)) :=
    of_wire rfl
  exact hids.trans (send ..)

theorem foldl (cs : List ContextId) (s : DaemonConnection) :
    Sends env s
      (cs.foldl (DaemonConnection.sendContextRegistration env) s) := by
  induction cs generalizing s with
  | nil => exact of_wire rfl
  | cons c cs ih => exact (sendContextRegistration s c).trans (ih _)

/-- An `open`, and if it succeeds a RegisterApp and the loop. -/
theorem initDaemonConnection (s : DaemonConnection) :
    Sends env s (s.initDaemonConnection env) := by
  unfold DaemonConnection.initDaemonConnection
  by_cases hconn : s.isDaemonConnected = true
  · rw [if_pos hconn]
    exact of_wire rfl
  · rw [if_neg hconn]
    by_cases hopen : env.openFifo s.opens = true
    · rw [if_pos hopen]
      have hconnect : Sends env s
          { s with opens := s.opens + 1, daemon := some {} } := by
        refine ⟨[.connect], _, run_cons.mpr ⟨_, ?_, run_nil _⟩, rfl⟩
        simp only [sendStep]
        rw [if_neg hconn, if_pos hopen]
      exact (hconnect.trans (send ..)).trans (foldl ..)
    · rw [if_neg hopen]
      refine ⟨[.connect], _, run_cons.mpr ⟨_, ?_, run_nil _⟩, rfl⟩
      simp only [sendStep]
      rw [if_neg hconn, if_neg hopen]

theorem registerContext (s : DaemonConnection) (c : ContextId) :
    Sends env s (s.registerContext env c) := by
  have hpush : Sends env s (s.pushContext c) := of_wire rfl
  have hinit := hpush.trans (initDaemonConnection (s.pushContext c))
  unfold DaemonConnection.registerContext
  dsimp only
  split
  · exact hinit.trans (sendContextRegistration ..)
  · exact hinit

theorem sendLog [DltConstants] (s : DaemonConnection) (uptime : UInt32)
    (data : LogData) : Sends env s (s.sendLog env uptime data) := by
  unfold DaemonConnection.sendLog
  dsimp only
  split
  · exact (initDaemonConnection s).trans (send ..)
  · exact initDaemonConnection s

end Sends

/-- A chunk of the daemon leaves the pipe alone. -/
theorem wire_readerStep {s t : DaemonConnection} {chunk : Chunk}
    (h : readerStep s chunk = some t) : t.wire = s.wire :=
  readerStep_invariant (fun u => u.wire = s.wire)
    (fun _ _ _ hu => hu) rfl h

/-- Every operation of the connection is a run of opens and sends. -/
theorem step_runs_sends [DltConstants] {s t : DaemonConnection} {op : Op}
    (h : step env s op = some t) : Sends env s t := by
  cases op with
  | registerContext c =>
      obtain ⟨-, -, rfl⟩ := step_registerContext_iff.mp h
      exact Sends.registerContext s c
  | sendLog uptime data =>
      obtain ⟨-, rfl⟩ := step_sendLog_iff.mp h
      exact Sends.sendLog s uptime data
  | receive chunk => exact Sends.of_wire (wire_readerStep h).symm

-- ============================================================== the runs

/-- A run leaves no torn frame on a connection, but at the end of a closed
one, exactly as long as each of its writes fails or takes nothing or the
whole frame. -/
theorem tornFree_iff_takesWhole [DltConstants]
    (parent : ContextId → LogContextCommon) {ops : List SendOp}
    {t : DaemonConnection}
    (hrun : run (sendStep env) (.initial parent) ops = some t) :
    (∀ before after u, ops = before ++ after →
      run (sendStep env) (.initial parent) before = some u → TornFree u)
      ↔ Throughout (sendStep env) (TakesWhole env) (.initial parent) ops := by
  refine Transition.forall_reached_iff_throughout (fun _ => True)
    (fun _ _ _ _ _ => trivial)
    (fun _ _ _ _ hfree hstep => tornFree_step_iff env hfree hstep)
    trivial ⟨?_, ?_⟩ hrun
  · intro connection hdaemon
    cases hdaemon
  · intro connection hclosed
    cases hclosed

-- ============================================================== a sample

/-- A pipe that has room for four bytes when the first frame is written. -/
def shortEnvironment : Environment :=
  { sampleEnvironment true with
    writev := fun n => some (if n = 0 then 4 else 65536) }

/-- The frame of the fixed inputs. -/
def sampleFrame : Frame :=
  registerAppFrame sampleApp 4711 fun _ => 0

/-- Two frames on one connection. -/
def sampleSends : List SendOp :=
  [.connect, .send none sampleFrame, .send none sampleFrame]

/-- Four bytes of the first frame are followed by the second one, and the
connection is open. -/
theorem torn_frame_followed :
    ∃ u connection,
      run (sendStep shortEnvironment)
          (@DaemonConnection.initial documentedConstants
            fun _ => sampleContext) sampleSends = some u
        ∧ u.daemon = some connection
        ∧ connection.delivered
          = sampleFrame.bytes.take 4 ++ sampleFrame.bytes
        ∧ ¬ TornFree u := by
  refine ⟨_, _, rfl, rfl, by decide, ?_⟩
  intro hfree
  have hfirst := hfree.live _ rfl ⟨none, sampleFrame, 4⟩
    (List.mem_filter.mpr ⟨List.mem_append_left _
      (List.mem_append_right _ (List.mem_singleton_self _)), rfl⟩)
  revert hfirst
  unfold Sent.Complete
  decide

theorem tornFree_iff_takesWhole_sample :
    (∀ before after u, sampleSends = before ++ after →
      run (sendStep (sampleEnvironment true))
        (@DaemonConnection.initial documentedConstants
          fun _ => sampleContext) before = some u → TornFree u)
      ↔ Throughout (sendStep (sampleEnvironment true))
          (TakesWhole (sampleEnvironment true))
          (@DaemonConnection.initial documentedConstants
            fun _ => sampleContext) sampleSends :=
  @tornFree_iff_takesWhole (sampleEnvironment true) documentedConstants
    (fun _ => sampleContext) sampleSends _ rfl

end IviLogging.DltCpp
