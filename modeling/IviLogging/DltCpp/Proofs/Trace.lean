/-
How much the trace has room for.

With tracing switched on, every buffer that goes to the daemon is written
out once more as text, into an array of 65535 bytes on the stack and
without a look at the room that is left. So the question is which buffers
fit.

# The text

The trace of a buffer is one run of `put`s (`binaryToHex_eq`): for each
byte two digits and a blank, a bar, for each byte its character and a
blank, and the NUL. That is five bytes for each byte of the buffer and
four besides (`length_traceText`), and a run of `put`s stays in the array
exactly if it is no longer than the array. So 13106 bytes still fit, and
13107 do not (`isSome_binaryToHex`).

# The buffers

A frame is traced buffer by buffer, each from the start of the array, so
the lengths do not add up: every buffer has to fit alone
(`isSome_foldlM_traceIovec`). The structures in front of a frame are at
most 22 bytes (`iovecs_eq`) and never the ones that do not fit; what is
left is the description or the payload behind them (`isSome_trace`).

A payload may have up to 16384 bytes, so there are messages that are not
even full whose trace leaves the array (`trace_leaves_array`).
-/
import IviLogging.DltCpp.Proofs.Framing
import IviLogging.DltCpp.Proofs.Truncation
import IviLogging.DltCpp.Trace
import IviLogging.Utils.Proofs.HexText

namespace IviLogging.DltCpp

open Digits (byteFormat)

-- ============================================================== the text

/-- The trace of a buffer: its bytes in digits, a bar, its characters. -/
def traceText (buffer : List UInt8) : List UInt8 :=
  byteFormat.writeAll buffer ++ ([32, 124, 32]
    ++ (buffer.flatMap (fun c => [printableAscii c, 32]) ++ [0]))

/-- Five bytes for each byte of the buffer, and four besides: the bar between
two blanks, and the NUL. -/
theorem length_traceText (buffer : List UInt8) :
    (traceText buffer).length = 5 * buffer.length + 4 := by
  have hcharacters : (buffer.flatMap
      (fun c => [printableAscii c, 32])).length = 2 * buffer.length := by
    induction buffer with
    | nil => rfl
    | cons c buffer ih =>
        simp only [List.flatMap_cons, List.length_append, ih,
          List.length_cons, List.length_nil]
        omega
  simp only [traceText, List.length_append, hcharacters,
    Digits.length_writeAll_byteFormat, List.length_cons, List.length_nil]
  omega

/-- The loop over the characters of a buffer: each is put as it is, or as a
dot if it cannot be printed, and a blank behind it. -/
theorem foldlM_printable (o : Cursor UInt8 outSize) (buffer : List UInt8) :
    (List.range buffer.length).foldlM
        (fun o i => buffer[i]?.bind fun c =>
          (o.put (printableAscii c)).bind fun o => o.put 32) o
      = o.puts (buffer.flatMap fun c => [printableAscii c, 32]) := by
  have hbody : ∀ (o : Cursor UInt8 outSize) (c : UInt8),
      ((o.put (printableAscii c)).bind fun o => o.put 32)
        = o.puts [printableAscii c, 32] := by
    -- the body of the loop is a run of two `put`s
    intro o c
    rw [Cursor.puts_cons]
    exact congrArg _ (funext fun o => (o.puts_singleton 32).symm)
  rw [Cursor.foldlM_range_puts o hbody (Nat.le_refl _), List.take_length]

/-- The two loops and what stands between and behind them are one run of
`put`s. -/
theorem binaryToHex_eq (out : Vector UInt8 outSize) (buffer : List UInt8) :
    binaryToHex out buffer buffer.length
      = (Cursor.start out).puts (traceText buffer) := by
  unfold binaryToHex traceText
  rw [foldlM_putHex _ (Nat.le_refl _), List.take_length]
  simp only [foldlM_printable, Cursor.puts_append, Cursor.puts_cons,
    Cursor.puts_nil, Option.bind_eq_bind, Option.bind_assoc,
    Option.bind_fun_some]

-- =============================================================== the room

/-- `outSize` is 65535, and 13106 is the largest number whose fivefold is at
most 65531. -/
theorem isSome_binaryToHex (out : Vector UInt8 outSize)
    (buffer : List UInt8) :
    (binaryToHex out buffer buffer.length).isSome
      ↔ buffer.length ≤ 13106 := by
  have hsize : outSize = 65535 := rfl
  rw [binaryToHex_eq, Cursor.isSome_puts, Cursor.next_start,
    length_traceText]
  omega

theorem isSome_traceIovec (out : Vector UInt8 outSize)
    (buffer : List UInt8) :
    (traceIovec out buffer).isSome ↔ buffer.length ≤ 13106 := by
  rw [traceIovec, Option.isSome_map, isSome_binaryToHex]

/-- The buffers of a frame in front of its span are short: the longest is
what a context registers with, of 22 bytes. -/
theorem iovecs_eq (f : Frame) :
    ∃ structures, f.iovecs = structures ++ [f.trailing]
      ∧ ∀ buffer ∈ structures, buffer.length ≤ 22 := by
  cases f with
  | registerApp userHeader message description =>
      refine ⟨[_, _], rfl, ?_⟩
      simp [DltUserHeader.bytes, DltUserControlMsgRegisterApplication.bytes,
        dltIdSize]
  | registerContext userHeader message description =>
      refine ⟨[_, _], rfl, ?_⟩
      simp [DltUserHeader.bytes, DltUserControlMsgRegisterContext.bytes,
        dltIdSize]
  | sendLog userHeader standardheader headerextra extendedheader payload =>
      refine ⟨[_, _, _, _], rfl, ?_⟩
      simp [DltUserHeader.bytes, DltStandardHeader.bytes,
        DltStandardHeaderExtra.bytes, DltExtendedHeader.bytes, dltIdSize]

/-- A loop of traces: each starts at the beginning of the array again, so
every buffer has to fit alone. -/
theorem isSome_foldlM_traceIovec (out : Vector UInt8 outSize)
    (buffers : List (List UInt8)) :
    (buffers.foldlM traceIovec out).isSome
      ↔ ∀ buffer ∈ buffers, buffer.length ≤ 13106 := by
  induction buffers generalizing out with
  | nil => exact iff_of_true rfl (by simp)
  | cons buffer buffers ih =>
      rw [List.foldlM_cons, List.forall_mem_cons,
        ← isSome_traceIovec out buffer]
      -- what the buffer leaves in the array does not matter for the next
      cases htrace : traceIovec out buffer with
      | none => simp
      | some out' =>
          show (buffers.foldlM traceIovec out').isSome ↔ _
          rw [ih]
          simp

/-- The traces of a frame: only the span behind its structures can be too
long. -/
theorem isSome_trace (f : Frame) (out : Vector UInt8 outSize) :
    (f.trace out).isSome ↔ f.trailing.length ≤ 13106 := by
  obtain ⟨structures, heq, hshort⟩ := iovecs_eq f
  rw [Frame.trace, isSome_foldlM_traceIovec, heq]
  constructor
  · intro h
    exact h _ (List.mem_append_right _ (List.mem_singleton_self _))
  · intro h buffer hbuffer
    rcases List.mem_append.mp hbuffer with hbuffer | hbuffer
    · have hlen := hshort buffer hbuffer
      omega
    · rw [List.mem_singleton.mp hbuffer]
      exact h

/-- The trace of a buffer stays in the array exactly if the buffer has no
more than 13106 bytes, and the traces of a message exactly if its payload
has no more. -/
theorem trace_inside_iff [DltUser] (out : Vector UInt8 outSize) :
    (∀ (f : Frame) (buffer : List UInt8), buffer ∈ f.iovecs →
        ((binaryToHex out buffer buffer.length).isSome
          ↔ buffer.length ≤ 13106))
      ∧ ∀ d : LogData, d.Reachable →
        ∀ (pid : Int32) (uptime : UInt32) (context : DltCppContext),
          ((sendLogFrame pid uptime context d).trace out).isSome
            ↔ d.contentSize ≤ 13106 := by
  refine ⟨fun _ buffer _ => isSome_binaryToHex out buffer, ?_⟩
  intro d hd pid uptime context
  rw [isSome_trace, ← hd.length_payload]
  rfl

theorem trace_inside_iff_sample :
    ((@sendLogFrame documentedConstants 4711 0
          (@DltCppContext.fresh documentedConstants sampleContext)
          untouchedMessage).trace (Vector.replicate outSize 0)).isSome
      ↔ untouchedMessage.contentSize ≤ 13106 :=
  (@trace_inside_iff documentedDltUser _).2 _ reachable_untouchedMessage _ _ _

/-- A text whose argument takes 13107 bytes. -/
def untraceableText : List UInt8 := List.replicate 13100 97

/-- A message with it. -/
def untraceableMessage : LogData :=
  @LogData.call documentedConstants untouchedMessage
    (.string untraceableText)

theorem reachable_untraceableMessage :
    @LogData.Reachable documentedDltUser untraceableMessage :=
  @LogData.Reachable.call documentedDltUser untouchedMessage
    (.string untraceableText) reachable_untouchedMessage

theorem untraceableMessage_spec :
    untraceableMessage.contentSize = 13107
      ∧ untraceableMessage.isFull = false := by
  let _ := documentedDltUser
  have hm : Represents untouchedMessage {} := represents_fresh ..
  have hlength : untraceableText.length = 13100 := List.length_replicate
  have hroom : ({} : Message).room = 16359 := rfl
  have hne : untraceableText ≠ [] := by
    intro hnil
    rw [hnil] at hlength
    cases hlength
  -- the text leaves room for more, so nothing is cut
  have hput : ({} : Message).putString untraceableText
      = ({} : Message).add (.strg untraceableText) := by
    rw [Message.putString, if_neg Bool.false_ne_true, if_pos (by omega),
      if_neg hne]
  have hrepresents := hm.writeString untraceableText
  have hsize := hrepresents.contentSize
  rw [hput, Message.size_add, Arg.size, hlength] at hsize
  have hopen := hrepresents.isFull
  rw [hput] at hopen
  exact ⟨hsize, hopen⟩

/-- The trace of a message that is not even full leaves the array. -/
theorem trace_leaves_array :
    @LogData.Reachable documentedDltUser untraceableMessage
      ∧ untraceableMessage.isFull = false
      ∧ ∀ out, ¬ (binaryToHex out untraceableMessage.payload
        untraceableMessage.payload.length).isSome := by
  have hlength : untraceableMessage.payload.length = 13107 :=
    (@LogData.Reachable.length_payload documentedDltUser _
      reachable_untraceableMessage).trans untraceableMessage_spec.1
  refine ⟨reachable_untraceableMessage, untraceableMessage_spec.2, ?_⟩
  intro out
  rw [isSome_binaryToHex, hlength]
  omega

end IviLogging.DltCpp
