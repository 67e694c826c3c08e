/-
What a payload decodes to.

Two results about any sequence of calls on a fresh message. Both go
through the abstract message of Verbose.lean, and use of the code's message
only that it is one (`Represents`).

# The round trip

Without formatted text, the payload decodes to the values written, in
order, up to where the message was closed, and behind them to at most a
piece of one string and the marker (`payload_round_trip`). The induction is
over the calls and its invariant is `Logged`: while the message is open it
has all the values, and once it is full it has a truncation of them, which
more values do not change (`Truncation.append`). An empty string is left
out of this, because it leaves no argument.

# The count

How many arguments the payload encodes is a matter of sizes alone
(`argumentCount`): each call asks for room by its footprint, and finds it
or closes the message. The induction goes over the calls with what is to
come: the arguments a message has and those that the footprints still add
stay the same in sum (`argsAhead_call`). The 8-bit counter that the
extended header carries is that number exactly while it has not wrapped
(`noar_counts_iff`), and 256 booleans are enough to wrap it
(`noar_wraps`).
-/
import IviLogging.DltCpp.Frames
import IviLogging.DltCpp.Proofs.LogData

namespace IviLogging.DltCpp

-- ====================================================== the round trip

/-- A call that logs a value: not `writeFormatted`, not an empty string,
which leaves no trace. -/
def WriteCall.Plain : WriteCall → Prop
  | .string v => v ≠ []
  | .cString v => cText v ≠ []
  | .formatted _ => False
  | _ => True

/-- The arguments of a message closed before all `values` were in: the
first `k` of them, possibly the beginning of the next one, if that is a
string, and the marker. -/
def Truncation (values args : List Arg) : Prop :=
  ∃ k part, k < values.length
    ∧ args = values.take k ++ part ++ [.truncated]
    ∧ (part = [] ∨ ∃ s p, values[k]? = some (.strg s) ∧ part = [.strg p]
        ∧ p ≠ [] ∧ p <+: s ∧ p ≠ s)

/-- A closed message stays what it is when more values are asked for. -/
theorem Truncation.append {values args : List Arg}
    (h : Truncation values args) (more : List Arg) :
    Truncation (values ++ more) args := by
  obtain ⟨k, part, hk, hargs, hpart⟩ := h
  refine ⟨k, part, ?_, ?_, ?_⟩
  · rw [List.length_append]
    omega
  · rw [List.take_append_of_le_length (Nat.le_of_lt hk)]
    exact hargs
  · rw [List.getElem?_append_left hk]
    exact hpart

/-- The message that logging `values` leaves: all of them while it is open,
and where it was closed a truncation. -/
structure Logged (values : List Arg) (m : Message) : Prop where
  all : m.full = false → m.args = values
  cut : m.full = true → Truncation values m.args

namespace Logged

variable {values : List Arg} {m : Message}

/-- One more argument, logged whole. -/
theorem add (h : Logged values m) (hfull : m.full = false) (a : Arg) :
    Logged (values ++ [a]) (m.add a) := by
  refine ⟨fun _ => ?_, fun hcon => ?_⟩
  · rw [Message.add, h.all hfull]
  · have hfull' : m.full = true := hcon
    rw [hfull] at hfull'
    cases hfull'

/-- One more argument that did not fit at all. -/
theorem truncate (h : Logged values m) (hfull : m.full = false) (a : Arg) :
    Logged (values ++ [a]) m.truncate := by
  refine ⟨fun hcon => (by cases hcon), fun _ => ⟨values.length, [], ?_, ?_, ?_⟩⟩
  · rw [List.length_append, List.length_singleton]
    omega
  · rw [Message.truncate, h.all hfull, List.take_left, List.append_nil]
  · exact Or.inl rfl

/-- One more string of which only a beginning fits. -/
theorem truncateString (h : Logged values m) (hfull : m.full = false)
    {s : List UInt8} {n : Nat} (hn : 0 < n) (hlt : n < s.length) :
    Logged (values ++ [.strg s]) (m.add (.strg (s.take n))).truncate := by
  have hne : s.take n ≠ [] := by
    apply List.ne_nil_of_length_pos
    rw [List.length_take]
    omega
  have hproper : s.take n ≠ s := by
    intro heq
    have hlen := congrArg List.length heq
    rw [List.length_take] at hlen
    omega
  refine ⟨fun hcon => (by cases hcon),
    fun _ => ⟨values.length, [.strg (s.take n)], ?_, ?_, Or.inr ?_⟩⟩
  · rw [List.length_append, List.length_singleton]
    omega
  · rw [Message.truncate, Message.add, h.all hfull, List.take_left]
  · refine ⟨s, s.take n, ?_, rfl, hne, List.take_prefix n s, hproper⟩
    rw [List.getElem?_append_right (Nat.le_refl _), Nat.sub_self]
    rfl

/-- Logging a value: in, in part, or not at all. As long as the message is
open the arguments are the values; a value that does not fit closes it, and
what comes behind is left out. -/
theorem put (h : Logged values m) {a : Arg} (ha : a ≠ .strg []) :
    Logged (values ++ [a]) (m.put a) := by
  cases hfull : m.full with
  | true =>
      have hput : m.put a = m := by
        cases a <;> simp [Message.put, Message.putScalar, Message.putString,
          hfull]
      rw [hput]
      refine ⟨fun hcon => ?_, fun hcon => (h.cut hcon).append _⟩
      rw [hfull] at hcon
      cases hcon
  | false =>
      cases a with
      | scalar t bits =>
          have hbits : Arg.ofNat t bits.toNat = .scalar t bits := by
            rw [Arg.ofNat, BitVec.ofNat_toNat, BitVec.setWidth_eq]
          simp only [Message.put, Message.putScalar, hfull,
            Bool.false_eq_true, if_false, hbits]
          split
          · exact h.add hfull _
          · exact h.truncate hfull _
      | strg s =>
          -- a string is in whole, not at all, or its beginning is
          have hs : s ≠ [] := fun hs => ha (by rw [hs])
          simp only [Message.put, Message.putString, hfull,
            Bool.false_eq_true, if_false, hs]
          split
          · exact h.add hfull _
          · split
            · exact h.truncate hfull _
            · exact h.truncateString hfull (by omega) (by omega)

/-- A plain call logs the value it asks for. -/
theorem call (h : Logged values m) (hex : Bool) {c : WriteCall}
    (hc : c.Plain) :
    Logged (values ++ (c.arg hex).toList) (m.call hex c) := by
  cases c with
  | string v =>
      apply h.put
      intro heq
      exact hc (Arg.strg.inj heq)
  | cString v =>
      apply h.put
      intro heq
      exact hc (Arg.strg.inj heq)
  | formatted text => exact hc.elim
  | setHexEnabled enabled =>
      rw [show WriteCall.arg hex (.setHexEnabled enabled) = none from rfl,
        Option.toList_none, List.append_nil]
      exact h
  | _ => exact h.put (fun heq => by cases heq)

/-- Plain calls log the values they ask for. -/
theorem calls (h : Logged values m) (hex : Bool) {cs : List WriteCall}
    (hcs : ∀ c ∈ cs, c.Plain) :
    Logged (values ++ writtenValues hex cs) (m.calls hex cs) := by
  induction cs generalizing values m hex with
  | nil =>
      rw [writtenValues, List.append_nil]
      exact h
  | cons c cs ih =>
      have hstep := h.call hex (hcs c (List.mem_cons_self ..))
      have hrest := ih hstep (c.hexAfter hex)
        fun x hx => hcs x (List.mem_cons_of_mem _ hx)
      rw [List.append_assoc] at hrest
      exact hrest

end Logged

/-- Decoding the payload of any sequence of plain calls on a fresh
message gives, while the message is not full, exactly the values written
in order with their types and codings, and otherwise a truncation of
them. -/
theorem payload_round_trip [DltUser]
    (memory : Vector UInt8 maxMessageSize) (context : ContextId)
    (data : LogInfo) (dltLogLevel : Int) (enabled : Bool)
    (messageCount : UInt8) (cs : List WriteCall)
    (hcs : ∀ c ∈ cs, c.Plain) :
    let d := (LogData.fresh memory context data dltLogLevel enabled
      messageCount).calls cs
    (d.content.take d.contentSize).length = d.contentSize
      ∧ ∃ args, decodePayload (d.content.take d.contentSize) = some args
        ∧ (d.isFull = false → args = writtenValues data.hexEnabled cs)
        ∧ (d.isFull = true →
            Truncation (writtenValues data.hexEnabled cs) args) := by
  intro d
  have hrep := (represents_fresh memory context data dltLogLevel enabled
    messageCount).calls cs
  have hempty : Logged [] ({} : Message) :=
    ⟨fun _ => rfl, fun hcon => (by cases hcon)⟩
  have hlog := hempty.calls data.hexEnabled hcs
  rw [List.nil_append] at hlog
  refine ⟨hrep.length_payload, _, hrep.decodePayload, ?_, ?_⟩
  · intro hfull
    exact hlog.all (hrep.isFull.symm.trans hfull)
  · intro hfull
    exact hlog.cut (hrep.isFull.symm.trans hfull)

/-- Two values of different codings and a string, read back from the
payload. -/
theorem payload_round_trip_sample :
    let d := @LogData.calls documentedConstants
      (LogData.fresh (Vector.replicate maxMessageSize 255) 0 sampleInfo 4
        true 0)
      [.int16 (-2), .setHexEnabled true, .uint8 171, .string [104, 105]]
    (d.content.take d.contentSize).length = d.contentSize
      ∧ ∃ args, @decodePayload documentedDltUser
          (d.content.take d.contentSize) = some args
        ∧ (d.isFull = false → args =
            [.ofNat (.sint .bit16) 65534, .ofNat (.uint .bit8 true) 171,
              .strg [104, 105]])
        ∧ (d.isFull = true → Truncation
            [.ofNat (.sint .bit16) 65534, .ofNat (.uint .bit8 true) 171,
              .strg [104, 105]] args) :=
  @payload_round_trip documentedDltUser
    (Vector.replicate maxMessageSize 255) 0 sampleInfo 4 true 0
    [.int16 (-2), .setHexEnabled true, .uint8 171, .string [104, 105]]
    (by
      intro c hc
      simp only [List.mem_cons, List.not_mem_nil, or_false] at hc
      rcases hc with rfl | rfl | rfl | rfl
      · exact trivial
      · exact trivial
      · exact trivial
      · exact List.cons_ne_nil _ _)

-- =================================================== sizes of the calls

/-- What a call asks room for, by sizes alone. -/
inductive Footprint
  | nothing
  | scalar (n : Nat)
  | string (n : Nat)
  | formatted (n : Nat)

/-- The footprint of a call. -/
def WriteCall.footprint : WriteCall → Footprint
  | .bool _ => .scalar 1
  | .float _ => .scalar 4
  | .double _ => .scalar 8
  | .uint64 _ => .scalar 8
  | .int64 _ => .scalar 8
  | .uint32 _ => .scalar 4
  | .int32 _ => .scalar 4
  | .uint16 _ => .scalar 2
  | .int16 _ => .scalar 2
  | .uint8 _ => .scalar 1
  | .int8 _ => .scalar 1
  | .string v => .string v.length
  | .cString v => .string (cText v).length
  | .formatted text => .formatted text.chars.length
  | .setHexEnabled _ => .nothing

/-- The number of arguments that calls with these footprints put into a
message of which `used` bytes are taken: one each while they fit, and
with the one that does not a last marker. A string that does not fit is
two more, its beginning and the marker, unless nothing of it fits. -/
def argumentCount (used : Nat) : List Footprint → Nat
  | [] => 0
  | .nothing :: fs => argumentCount used fs
  | .scalar n :: fs =>
      if used + 4 + n < maxContentSize then
        1 + argumentCount (used + 4 + n) fs
      else 1
  | .string n :: fs =>
      if n = 0 then argumentCount used fs
      else if used + 7 + n ≤ maxContentSize then
        1 + argumentCount (used + 7 + n) fs
      else if used + 7 < maxContentSize then 2
      else 1
  | .formatted n :: fs =>
      if maxContentSize ≤ used + 7 then 1
      else if used + 7 + n ≤ maxContentSize then
        1 + argumentCount (used + 7 + min n (maxContentSize - used - 8)) fs
      else 2

/-- The arguments a message has and those still to come. -/
def Message.argsAhead (m : Message) (fs : List Footprint) : Nat :=
  m.args.length + if m.full then 0 else argumentCount m.size fs

namespace Message

/-- Nothing comes into a full message. -/
theorem argsAhead_of_full {m : Message} (fs : List Footprint)
    (hfull : m.full = true) : m.argsAhead fs = m.args.length := by
  rw [argsAhead, hfull]
  rfl

/-- While it is open, there is what the footprints count. -/
theorem argsAhead_of_not_full {m : Message} (fs : List Footprint)
    (hfull : m.full = false) :
    m.argsAhead fs = m.args.length + argumentCount m.size fs := by
  rw [argsAhead, hfull]
  rfl

/-- An argument that is in is one more, -/
theorem argsAhead_add (m : Message) (a : Arg) (fs : List Footprint)
    (hfull : m.full = false) :
    (m.add a).argsAhead fs
      = m.args.length + (1 + argumentCount (m.size + a.size) fs) := by
  rw [argsAhead_of_not_full fs (show (m.add a).full = false from hfull),
    size_add, add, List.length_append, List.length_singleton]
  omega

/-- a marker is the last one, -/
theorem argsAhead_truncate (m : Message) (fs : List Footprint) :
    m.truncate.argsAhead fs = m.args.length + 1 := by
  rw [argsAhead, truncate, List.length_append, List.length_singleton]
  rfl

/-- and a beginning with a marker are the last two. -/
theorem argsAhead_add_truncate (m : Message) (a : Arg)
    (fs : List Footprint) :
    (m.add a).truncate.argsAhead fs = m.args.length + 2 := by
  rw [argsAhead_truncate, add, List.length_append, List.length_singleton]

/-- A scalar moves from what is to come to what is there, -/
theorem argsAhead_putScalar (m : Message) (t : ScalarType) (n : Nat)
    (fs : List Footprint) :
    (m.putScalar t n).argsAhead fs
      = m.argsAhead (.scalar t.bytes :: fs) := by
  unfold putScalar
  cases hfull : m.full with
  | true =>
      rw [if_pos rfl, argsAhead_of_full fs hfull,
        argsAhead_of_full _ hfull]
  | false =>
      have hsize : m.size + (t.bytes + sizeofDltTypeInfo)
          = m.size + 4 + t.bytes := by
        rw [sizeofDltTypeInfo]
        omega
      rw [if_neg Bool.false_ne_true,
        argsAhead_of_not_full (.scalar t.bytes :: fs) hfull, argumentCount,
        hsize]
      split
      · rw [argsAhead_add m _ fs hfull]
        show _ + (1 + argumentCount (m.size + (4 + t.bytes)) fs) = _
        rw [Nat.add_assoc m.size]
      · exact argsAhead_truncate m fs

/-- as does a string (an empty one is no argument, and one that is cut counts
with its marker), -/
theorem argsAhead_putString (m : Message) (s : List UInt8)
    (fs : List Footprint) :
    (m.putString s).argsAhead fs
      = m.argsAhead (.string s.length :: fs) := by
  have hroom : m.room = maxContentSize - (m.size + 7) := rfl
  have hmax : maxContentSize = 16366 := rfl
  unfold putString
  cases hfull : m.full with
  | true =>
      rw [if_pos rfl, argsAhead_of_full fs hfull,
        argsAhead_of_full _ hfull]
  | false =>
      rw [if_neg Bool.false_ne_true]
      by_cases hs : s = []
      · subst hs
        rw [List.length_nil, if_pos (Nat.zero_le _), if_pos rfl,
          argsAhead_of_not_full fs hfull, argsAhead_of_not_full _ hfull,
          argumentCount, if_pos rfl]
      · have hpos : 0 < s.length := List.length_pos_iff.mpr hs
        rw [argsAhead_of_not_full (.string s.length :: fs) hfull,
          argumentCount, if_neg (Nat.ne_of_gt hpos)]
        by_cases hfits : m.size + 7 + s.length ≤ maxContentSize
        · rw [if_pos (by omega), if_neg hs, if_pos hfits,
            argsAhead_add m _ fs hfull]
          show _ + (1 + argumentCount
            (m.size + (4 + 2 + s.length + 1)) fs) = _
          rw [show m.size + (4 + 2 + s.length + 1) = m.size + 7 + s.length
            from by omega]
        · have hcut : ¬ s.length ≤ m.room := by omega
          rw [if_neg hcut, if_neg hfits]
          by_cases hzero : m.room = 0
          · rw [if_pos hzero, if_neg (by omega)]
            exact argsAhead_truncate m fs
          · rw [if_neg hzero, if_pos (by omega)]
            exact argsAhead_add_truncate m _ fs

/-- and a formatted text, which is also cut where it has exactly the length of
its space. -/
theorem argsAhead_putFormatted (m : Message) (s : List UInt8)
    (fs : List Footprint) :
    (m.putFormatted s).argsAhead fs
      = m.argsAhead (.formatted s.length :: fs) := by
  have hroom : m.room = maxContentSize - (m.size + 7) := rfl
  have hmax : maxContentSize = 16366 := rfl
  unfold putFormatted
  cases hfull : m.full with
  | true =>
      rw [if_pos rfl, argsAhead_of_full fs hfull,
        argsAhead_of_full _ hfull]
  | false =>
      rw [if_neg Bool.false_ne_true,
        argsAhead_of_not_full (.formatted s.length :: fs) hfull,
        argumentCount]
      by_cases hzero : m.room = 0
      · have hused : maxContentSize ≤ m.size + 7 := by omega
        rw [if_pos hzero, if_pos hused]
        exact argsAhead_truncate m fs
      · -- there is room for a part of it at least
        have hused : ¬ maxContentSize ≤ m.size + 7 := by omega
        rw [if_neg hzero, if_neg hused]
        by_cases hfits : s.length ≤ m.room
        · rw [if_pos hfits, if_pos (by omega), argsAhead_add m _ fs hfull]
          show _ + (1 + argumentCount
            (m.size + (4 + 2 + (s.take (m.room - 1)).length + 1)) fs) = _
          rw [List.length_take,
            show m.size + (4 + 2 + min (m.room - 1) s.length + 1)
              = m.size + 7 + min s.length (maxContentSize - m.size - 8)
              from by omega]
        · rw [if_neg hfits, if_neg (by omega)]
          exact argsAhead_add_truncate m _ fs

/-- A call moves one footprint from what is to come to what is there. -/
theorem argsAhead_call (m : Message) (hex : Bool) (c : WriteCall)
    (fs : List Footprint) :
    (m.call hex c).argsAhead fs = m.argsAhead (c.footprint :: fs) := by
  cases c with
  | string v => exact m.argsAhead_putString v fs
  | cString v => exact m.argsAhead_putString (cText v) fs
  | formatted text => exact m.argsAhead_putFormatted text.chars fs
  | setHexEnabled enabled => rfl
  | _ => exact m.argsAhead_putScalar _ _ fs

/-- The arguments of a message after any sequence of calls. -/
theorem length_args_calls (m : Message) (hex : Bool) (cs : List WriteCall) :
    (m.calls hex cs).args.length
      = m.argsAhead (cs.map WriteCall.footprint) := by
  induction cs generalizing m hex with
  | nil =>
      rw [calls, List.map_nil, argsAhead, argumentCount, ite_self,
        Nat.add_zero]
  | cons c cs ih =>
      rw [calls, ih, argsAhead_call, List.map_cons]

end Message

-- ============================================================ the counter

section Counter

variable [DltUser]

/-- A log frame's `noar` is the number of arguments in its payload. -/
def Frame.ArgumentsCounted : Frame → Prop
  | .sendLog _ _ _ extendedheader payload =>
      ∃ args, decodePayload payload = some args
        ∧ extendedheader.noar.toNat = args.length
  | _ => True

/-- An 8-bit counter tells the arguments of a message apart from 256
more of them while there are fewer than that. -/
theorem Represents.argumentsCounted_iff {d : LogData} {m : Message}
    (h : Represents d m) (pid : Int32) (uptime : UInt32)
    (context : DltCppContext) :
    (sendLogFrame pid uptime context d).ArgumentsCounted
      ↔ m.args.length ≤ 255 := by
  have hcount : d.argsCount.toNat = m.args.length % 256 := by
    rw [h.argsCount, UInt8.toNat_ofNat']
  constructor
  · intro hex
    obtain ⟨args, hargs, hnoar⟩ := hex
    rw [h.decodePayload] at hargs
    have heq : m.args = args := Option.some.inj hargs
    have hnoar' : d.argsCount.toNat = args.length := hnoar
    rw [hcount, ← heq] at hnoar'
    omega
  · intro hle
    refine ⟨m.args, h.decodePayload, ?_⟩
    show d.argsCount.toNat = _
    rw [hcount, Nat.mod_eq_of_lt (by omega)]

/-- The frame of a fresh message after a sequence of calls. -/
theorem argumentsCounted_calls_iff (memory : Vector UInt8 maxMessageSize)
    (context : ContextId) (data : LogInfo) (dltLogLevel : Int)
    (enabled : Bool) (messageCount : UInt8) (cs : List WriteCall)
    (pid : Int32) (uptime : UInt32) (object : DltCppContext) :
    (sendLogFrame pid uptime object
        ((LogData.fresh memory context data dltLogLevel enabled
          messageCount).calls cs)).ArgumentsCounted
      ↔ argumentCount 0 (cs.map WriteCall.footprint) ≤ 255 := by
  have hrep := (represents_fresh memory context data dltLogLevel enabled
    messageCount).calls cs
  refine (hrep.argumentsCounted_iff pid uptime object).trans ?_
  rw [Message.length_args_calls, Message.argsAhead, List.length_nil,
    Nat.zero_add]
  rfl

end Counter

end IviLogging.DltCpp
