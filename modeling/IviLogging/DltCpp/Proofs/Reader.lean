/-
The reader of the control channel (`handleIncomingMessage`).

# The loop

The reader's thread takes up to 1024 bytes from the pipe and goes through
them with a pointer: a header, the message behind it if it is of a known
type, the next header. The loop's cases are stated once, over the memory a
message lies in (`handleMessages_done`, `handleMessages_logState`,
`handleMessages_logLevel`, `handleMessages_other`), and once as an
induction (`handleMessages_induction`). No later proof looks into the loop.

# Whole messages

By induction over the messages of a chunk, a chunk of whole messages is the
fold of their effects, whatever lies in the buffer behind it
(`readerStep_whole`). So only the stream of messages matters, not where
between messages it is cut (`cuts_between_messages_agree`). Where it is cut
inside of one does matter: the two parts are read on their own, and neither
has the effect of the whole (`cut_in_message_differs`). Nothing puts them
together again, the buffer is one of the function.

# Bytes that were not received

The loop's guard asks for a header and one byte more. That is a whole
LOG_STATE message, but up to five bytes short of a LOG_LEVEL message, whose
body is then read from what an earlier chunk left in the buffer.
`TruncatedLevel` says of the bytes alone that they are whole messages and
then a level message that is cut in its body, and those are the only chunks
that are read behind their end (`spans_inside_iff`).
-/
import IviLogging.DltCpp.Control
import IviLogging.Lib.Transition

namespace IviLogging.DltCpp

open LittleEndian (ofUInt32 ofInt32 toUInt32 toInt32)

-- ========================================================== the memory

/-- A load inside the chunk reads the chunk. -/
theorem load_memory (chunk : Chunk) {p n : Nat}
    (h : p + n ≤ chunk.bytes.length) :
    load chunk.memory p n = (chunk.bytes.drop p).take n := by
  refine List.ext_getElem ?_ fun i hi hi' => ?_
  · rw [load, List.length_map, List.length_range, List.length_take,
      List.length_drop]
    omega
  · rw [load, List.length_map, List.length_range] at hi
    have hlt : p + i < chunk.bytes.length := by omega
    simp only [load, List.getElem_map, List.getElem_range, Chunk.memory]
    rw [if_pos hlt, List.getD_eq_getElem?_getD,
      List.getElem?_eq_getElem hlt, List.getElem_take, List.getElem_drop]
    rfl

/-- The byte the chunk goes on with. -/
theorem memory_of_drop (chunk : Chunk) {p : Nat} {b : UInt8}
    {rest : List UInt8} (h : chunk.bytes.drop p = b :: rest) :
    chunk.memory p = b := by
  have hget : chunk.bytes[p]? = some b := by
    rw [← List.head?_drop, h]
    rfl
  have hlt : p < chunk.bytes.length :=
    (List.getElem?_eq_some_iff.mp hget).1
  rw [Chunk.memory, if_pos hlt, List.getD_eq_getElem?_getD, hget]
  rfl

/-- The bytes the chunk goes on with. -/
theorem load_of_drop (chunk : Chunk) {p : Nat} {bs rest : List UInt8}
    (h : chunk.bytes.drop p = bs ++ rest) :
    load chunk.memory p bs.length = bs := by
  have hlen := congrArg List.length h
  rw [List.length_drop, List.length_append] at hlen
  rcases Nat.eq_zero_or_pos bs.length with hzero | hpos
  · rw [hzero, List.length_eq_zero_iff.mp hzero]
    rfl
  · rw [load_memory chunk (by omega), h, List.take_left]

/-- The message type of a header inside the chunk. -/
theorem messageAt_memory (chunk : Chunk) {p : Nat}
    (h : p + 8 ≤ chunk.bytes.length) :
    messageAt chunk.memory p
      = toUInt32 (((chunk.bytes.drop p).drop 4).take 4) := by
  have hid : dltIdSize = 4 := rfl
  rw [messageAt, load_memory chunk (by omega), List.drop_drop, hid]

-- ============================================================= the loop

section Loop

variable {memory : Nat → UInt8} {byteCount p : Nat}
  {s : Option DaemonConnection}

/-- The loop ends when there is no byte behind a header. -/
theorem handleMessages_done (h : byteCount ≤ p + 8) :
    handleMessages memory byteCount p s = ([], s) := by
  have hhead : sizeofDltUserHeader = 8 := rfl
  rw [handleMessages, if_neg (by omega)]

/-- A LOG_STATE message: its header is interpreted, its byte is not. -/
theorem handleMessages_logState (h : p + 8 < byteCount)
    (hmessage : messageAt memory p = MessageType.logState.word) :
    handleMessages memory byteCount p s
      = (⟨p, 8⟩ :: (handleMessages memory byteCount (p + 9) s).1,
          (handleMessages memory byteCount (p + 9) s).2) := by
  rw [handleMessages, if_pos (show byteCount > p + sizeofDltUserHeader from h),
    if_pos hmessage]
  rfl

/-- A LOG_LEVEL message: its header is interpreted and its body applied. -/
theorem handleMessages_logLevel (h : p + 8 < byteCount)
    (hmessage : messageAt memory p = MessageType.logLevel.word) :
    handleMessages memory byteCount p s
      = (⟨p, 8⟩ :: ⟨p + 8, 6⟩ ::
          (handleMessages memory byteCount (p + 14)
            (s.bind fun s => s.applyLogLevel (logLevelMsgAt memory (p + 8)))).1,
          (handleMessages memory byteCount (p + 14)
            (s.bind fun s =>
              s.applyLogLevel (logLevelMsgAt memory (p + 8)))).2) := by
  have hne : ¬ MessageType.logLevel.word = MessageType.logState.word := by
    decide
  rw [handleMessages, if_pos (show byteCount > p + sizeofDltUserHeader from h),
    if_neg (by rw [hmessage]; exact hne), if_pos hmessage]
  rfl

/-- Anything else ends the loop. -/
theorem handleMessages_other (h : p + 8 < byteCount)
    (hstate : messageAt memory p ≠ MessageType.logState.word)
    (hlevel : messageAt memory p ≠ MessageType.logLevel.word) :
    handleMessages memory byteCount p s = ([⟨p, 8⟩], s) := by
  rw [handleMessages, if_pos (show byteCount > p + sizeofDltUserHeader from h),
    if_neg hstate, if_neg hlevel]
  rfl

end Loop

/-- The loop's case distinction, as an induction over the bytes left. The
state runs along with the position, since a level message changes it. -/
theorem handleMessages_induction (memory : Nat → UInt8) (byteCount : Nat)
    {motive : Nat → Option DaemonConnection → Prop}
    (done : ∀ p s, byteCount ≤ p + 8 → motive p s)
    (logState : ∀ p s, p + 8 < byteCount →
      messageAt memory p = MessageType.logState.word →
      motive (p + 9) s → motive p s)
    (logLevel : ∀ p s, p + 8 < byteCount →
      messageAt memory p = MessageType.logLevel.word →
      motive (p + 14) (s.bind fun s =>
        s.applyLogLevel (logLevelMsgAt memory (p + 8))) → motive p s)
    (other : ∀ p s, p + 8 < byteCount →
      messageAt memory p ≠ MessageType.logState.word →
      messageAt memory p ≠ MessageType.logLevel.word → motive p s)
    (p : Nat) (s : Option DaemonConnection) : motive p s := by
  induction hn : byteCount - p using Nat.strong_induction_on
    generalizing p s with
  | _ n ih =>
      rcases Nat.lt_or_ge (p + 8) byteCount with hlt | hge
      · by_cases hstate : messageAt memory p = MessageType.logState.word
        · exact logState p s hlt hstate (ih _ (by omega) _ _ rfl)
        · by_cases hlevel : messageAt memory p = MessageType.logLevel.word
          · exact logLevel p s hlt hlevel (ih _ (by omega) _ _ rfl)
          · exact other p s hlt hstate hlevel
      · exact done p s hge

/-- What setting a level preserves, a chunk preserves. All that other
modules know of a chunk whose bytes are arbitrary comes from this. -/
theorem readerStep_invariant (Inv : DaemonConnection → Prop)
    (hset : ∀ s c level, Inv s → Inv (s.setActiveLogLevel c level))
    {s t : DaemonConnection} {chunk : Chunk} (hs : Inv s)
    (h : readerStep s chunk = some t) : Inv t := by
  have happly : ∀ (s t : DaemonConnection) message, Inv s →
      s.applyLogLevel message = some t → Inv t := by
    intro s t message hs happ
    unfold DaemonConnection.applyLogLevel at happ
    split at happ
    · split at happ
      · cases happ
        exact hset _ _ _ hs
      · cases happ
    · cases happ
      exact hs
  have hloop : ∀ p (o : Option DaemonConnection),
      (∀ u, o = some u → Inv u) →
      ∀ u, (handleMessages chunk.memory chunk.bytes.length p o).2 = some u →
        Inv u := by
    intro p o
    induction p, o using handleMessages_induction chunk.memory
        chunk.bytes.length with
    | done p o hp =>
        intro ho u hu
        rw [handleMessages_done hp] at hu
        exact ho u hu
    | logState p o hp hmessage ih =>
        intro ho u hu
        rw [handleMessages_logState hp hmessage] at hu
        exact ih ho u hu
    | logLevel p o hp hmessage ih =>
        intro ho u hu
        rw [handleMessages_logLevel hp hmessage] at hu
        refine ih ?_ u hu
        intro v hv
        obtain ⟨w, hw, happ⟩ := Option.bind_eq_some_iff.mp hv
        exact happly w v _ (ho w hw) happ
    | other p o hp hstate hlevel =>
        intro ho u hu
        rw [handleMessages_other hp hstate hlevel] at hu
        exact ho u hu
  refine hloop 0 (some s) ?_ t h
  intro u hu
  cases hu
  exact hs

-- ==================================================== interpreted bytes

/-- Every interpreted byte lies in the chunk. -/
def SpansInside (spans : List Span) (byteCount : Nat) : Prop :=
  ∀ span ∈ spans, span.start + span.size ≤ byteCount

/-- The first of some spans. -/
theorem spansInside_cons {span : Span} {spans : List Span}
    {byteCount : Nat} :
    SpansInside (span :: spans) byteCount
      ↔ span.start + span.size ≤ byteCount ∧ SpansInside spans byteCount :=
  List.forall_mem_cons

/-- The two types are told apart by their numbers. -/
theorem logLevel_word_ne :
    ¬ MessageType.logLevel.word = MessageType.logState.word := by
  decide

namespace TruncatedLevel

variable {bytes : List UInt8}

/-- A log state message in front does not matter. -/
theorem afterState_iff (hlen : 8 < bytes.length)
    (hstate : toUInt32 ((bytes.drop 4).take 4)
      = MessageType.logState.word) :
    TruncatedLevel bytes ↔ TruncatedLevel (bytes.drop 9) := by
  constructor
  · intro hcut
    cases hcut with
    | here _ _ hlevel =>
        exact absurd (hlevel.symm.trans hstate) logLevel_word_ne
    | afterState _ _ hrest => exact hrest
    | afterLevel _ hlevel _ =>
        exact absurd (hlevel.symm.trans hstate) logLevel_word_ne
  · exact .afterState hlen hstate

/-- Nor does a whole log level message. -/
theorem afterLevel_iff (hlen : 14 ≤ bytes.length)
    (hlevel : toUInt32 ((bytes.drop 4).take 4)
      = MessageType.logLevel.word) :
    TruncatedLevel bytes ↔ TruncatedLevel (bytes.drop 14) := by
  constructor
  · intro hcut
    cases hcut with
    | here _ hlt _ => omega
    | afterState _ hstate _ =>
        exact absurd (hlevel.symm.trans hstate) logLevel_word_ne
    | afterLevel _ _ hrest => exact hrest
  · exact .afterLevel hlen hlevel

end TruncatedLevel

/-- From any place on, the loop stays inside the chunk unless the bytes
left end in a log level message cut in its body. -/
theorem spansInside_handleMessages_iff (chunk : Chunk) (p : Nat)
    (s : Option DaemonConnection) :
    SpansInside
        (handleMessages chunk.memory chunk.bytes.length p s).1
        chunk.bytes.length
      ↔ ¬ TruncatedLevel (chunk.bytes.drop p) := by
  have hlen : ∀ q, (chunk.bytes.drop q).length
      = chunk.bytes.length - q := fun _ => List.length_drop
  induction p, s using handleMessages_induction chunk.memory
      chunk.bytes.length with
  | done p s hp =>
      have hshort := hlen p
      rw [handleMessages_done hp]
      constructor
      · intro _ hcut
        cases hcut <;> omega
      · intro _ span hspan
        cases hspan
  | logState p s hp hmessage ih =>
      have hlong := hlen p
      have hrest : SpansInside _ _ ↔ ¬ _ := ih
      rw [handleMessages_logState hp hmessage, spansInside_cons, hrest]
      rw [messageAt_memory chunk (by omega)] at hmessage
      -- the guard leaves room for the whole message, so it is not the cut one
      have hcut : TruncatedLevel (chunk.bytes.drop p)
          ↔ TruncatedLevel (chunk.bytes.drop (p + 9)) := by
        rw [← List.drop_drop]
        exact TruncatedLevel.afterState_iff (by omega) hmessage
      rw [hcut]
      apply and_iff_right
      show p + 8 ≤ _
      omega
  | logLevel p s hp hmessage ih =>
      have hlong := hlen p
      have hrest : SpansInside _ _ ↔ ¬ _ := ih
      rw [handleMessages_logLevel hp hmessage, spansInside_cons,
        spansInside_cons, hrest]
      rw [messageAt_memory chunk (by omega)] at hmessage
      have hheader : p + 8 ≤ chunk.bytes.length := by omega
      rcases Nat.lt_or_ge chunk.bytes.length (p + 14) with hshort | hwhole
      · -- the body does not fit: the message is the cut one
        constructor
        · intro hboth
          obtain ⟨-, hbody, -⟩ := hboth
          have hbody' : p + 8 + 6 ≤ chunk.bytes.length := hbody
          omega
        · intro hcut
          exact absurd (.here (by omega) (by omega) hmessage) hcut
      · have hcut : TruncatedLevel (chunk.bytes.drop p)
            ↔ TruncatedLevel (chunk.bytes.drop (p + 14)) := by
          rw [← List.drop_drop]
          exact TruncatedLevel.afterLevel_iff (by omega) hmessage
        rw [hcut]
        constructor
        · intro hboth
          obtain ⟨-, -, hinside⟩ := hboth
          exact hinside
        · intro hinside
          exact ⟨hheader, hwhole, hinside⟩
  | other p s hp hstate hlevel =>
      rw [handleMessages_other hp hstate hlevel]
      rw [messageAt_memory chunk (by omega)] at hstate hlevel
      constructor
      · intro _ hcut
        cases hcut with
        | here _ _ h => exact hlevel h
        | afterState _ h _ => exact hstate h
        | afterLevel _ h _ => exact hlevel h
      · intro _ span hspan
        rw [List.mem_singleton.mp hspan]
        show p + 8 ≤ _
        omega

/-- Every byte `handleIncomingMessage` interprets lies in the chunk
exactly when the chunk is not whole messages followed by a log level
message cut in its body. -/
theorem spans_inside_iff (chunk : Chunk) (s : DaemonConnection) :
    SpansInside (s.handleIncomingMessage chunk).1 chunk.bytes.length
      ↔ ¬ TruncatedLevel chunk.bytes :=
  spansInside_handleMessages_iff chunk 0 (some s)

/-- The reader registers no context. -/
theorem contexts_readerStep {s t : DaemonConnection} {chunk : Chunk}
    (h : readerStep s chunk = some t) : t.contexts = s.contexts :=
  readerStep_invariant (fun u => u.contexts = s.contexts)
    (fun _ _ _ hu => hu) rfl h

/-- The header of a log level message and one byte of its body. -/
def truncatedChunk : Chunk where
  bytes := [68, 85, 72, 1, 6, 0, 0, 0, 4]
  stale := fun _ => 0
  length_le := by decide

/-- The body is read from nine bytes, five of them not received. -/
theorem truncatedChunk_not_inside :
    ¬ SpansInside
      ((@DaemonConnection.initial documentedConstants
        fun _ => sampleContext).handleIncomingMessage truncatedChunk).1
      truncatedChunk.bytes.length := by
  intro hinside
  apply (spansInside_handleMessages_iff truncatedChunk 0 _).mp hinside
  exact .here (by decide) (by decide) (by decide)

-- ======================================================= whole messages

/-- What a list of messages does to the levels. -/
def ControlMsg.applyAll (messages : List ControlMsg)
    (s : Option DaemonConnection) : Option DaemonConnection :=
  messages.foldl (fun s m => s.bind m.apply) s

namespace Chunk

variable {chunk : Chunk} {p : Nat} {m : ControlMsg} {rest : List UInt8}

/-- The type of the message the chunk goes on with. -/
theorem messageAt_of_drop (h : chunk.bytes.drop p = m.bytes ++ rest) :
    messageAt chunk.memory p = m.header.message := by
  have hword : chunk.bytes.drop (p + 4)
      = ofUInt32 m.header.message ++ (m.body ++ rest) := by
    rw [← List.drop_drop, h, ControlMsg.bytes, DltUserHeader.bytes]
    simp only [List.append_assoc]
    exact List.drop_left' (DltId.length_bytes _)
  have hload := load_of_drop chunk hword
  rw [LittleEndian.length_ofUInt32] at hload
  rw [messageAt, show p + dltIdSize = p + 4 from rfl, hload,
    LittleEndian.toUInt32_ofUInt32]

/-- The body of the message the chunk goes on with. -/
theorem drop_body (h : chunk.bytes.drop p = m.bytes ++ rest) :
    chunk.bytes.drop (p + 8) = m.body ++ rest := by
  rw [← List.drop_drop, h, ControlMsg.bytes, List.append_assoc]
  exact List.drop_left' (DltUserHeader.length_bytes _)

/-- The members of the level message that the chunk goes on with. -/
theorem logLevelMsgAt_of_drop {message : DltUserControlMsgLogLevel}
    (h : chunk.bytes.drop p = message.bytes ++ rest) :
    logLevelMsgAt chunk.memory p = message := by
  have hlevel : chunk.bytes.drop p
      = message.logLevel :: (message.traceStatus
        :: (ofInt32 message.logLevelPos ++ rest)) := by
    rw [h]
    rfl
  have htrace : chunk.bytes.drop (p + 1)
      = message.traceStatus :: (ofInt32 message.logLevelPos ++ rest) := by
    rw [← List.drop_drop, hlevel]
    rfl
  have hpos : chunk.bytes.drop (p + 2)
      = ofInt32 message.logLevelPos ++ rest := by
    rw [← List.drop_drop, hlevel]
    rfl
  have hload := load_of_drop chunk hpos
  rw [LittleEndian.length_ofInt32] at hload
  rw [logLevelMsgAt, memory_of_drop chunk hlevel, memory_of_drop chunk htrace,
    hload, LittleEndian.toInt32_ofInt32]

end Chunk

/-- The loop over whole messages is the fold of their effects. By induction
on the messages that are left: what is in front of the loop's pointer has
been read, and behind it are the bytes of one message and of the others. -/
theorem handleMessages_whole {chunk : Chunk} {messages : List ControlMsg}
    {p : Nat} (s : Option DaemonConnection)
    (h : chunk.bytes.drop p = ControlMsg.format.writeAll messages) :
    (handleMessages chunk.memory chunk.bytes.length p s).2
      = ControlMsg.applyAll messages s := by
  induction messages generalizing p s with
  | nil =>
      have hlen := congrArg List.length h
      rw [List.length_drop, Format.writeAll_nil, List.length_nil] at hlen
      rw [handleMessages_done (by omega)]
      rfl
  | cons m messages ih =>
      have hm : chunk.bytes.drop p
          = m.bytes ++ ControlMsg.format.writeAll messages := h
      have htype := Chunk.messageAt_of_drop hm
      have hbody := Chunk.drop_body hm
      have hlen := congrArg List.length hbody
      rw [List.length_drop, List.length_append] at hlen
      cases m with
      | logState pattern state =>
          have hone : (ControlMsg.logState pattern state).body.length = 1 :=
            rfl
          have hrest : chunk.bytes.drop (p + 9)
              = ControlMsg.format.writeAll messages := by
            rw [show p + 9 = p + 8 + 1 from rfl, ← List.drop_drop, hbody]
            rfl
          rw [handleMessages_logState (by omega) htype, ih s hrest]
          cases s <;> rfl
      | logLevel pattern message =>
          have hsix : (ControlMsg.logLevel pattern message).body.length = 6 :=
            message.length_bytes
          have hrest : chunk.bytes.drop (p + 14)
              = ControlMsg.format.writeAll messages := by
            rw [show p + 14 = p + 8 + 6 from rfl, ← List.drop_drop, hbody]
            exact List.drop_left' hsix
          rw [handleMessages_logLevel (by omega) htype,
            Chunk.logLevelMsgAt_of_drop hbody, ih _ hrest]
          rfl

/-- A chunk of whole messages has their effects, in order. -/
theorem readerStep_whole {chunk : Chunk} {messages : List ControlMsg}
    (h : chunk.Holds messages) (s : DaemonConnection) :
    readerStep s chunk = ControlMsg.applyAll messages (some s) :=
  handleMessages_whole (some s) h

/-- Behind undefined behaviour there is nothing to apply to. -/
theorem ControlMsg.applyAll_none (messages : List ControlMsg) :
    applyAll messages none = none := by
  induction messages with
  | nil => rfl
  | cons m messages ih => exact ih

theorem ControlMsg.applyAll_append (ms ms' : List ControlMsg)
    (s : Option DaemonConnection) :
    applyAll (ms ++ ms') s = applyAll ms' (applyAll ms s) :=
  List.foldl_append

/-- Chunks of whole messages have the effects of all their messages, and
these are the messages of the stream that the chunks are cut from. -/
theorem run_readerStep_whole {chunks : List Chunk}
    (h : ∀ chunk ∈ chunks, ∃ messages, chunk.Holds messages)
    (s : DaemonConnection) :
    ∃ messages, chunks.flatMap Chunk.bytes
        = ControlMsg.format.writeAll messages
      ∧ Transition.run readerStep s chunks
        = ControlMsg.applyAll messages (some s) := by
  induction chunks generalizing s with
  | nil => exact ⟨[], rfl, rfl⟩
  | cons chunk chunks ih =>
      obtain ⟨ms, hms⟩ := h chunk (List.mem_cons_self ..)
      have hrest := ih fun c hc => h c (List.mem_cons_of_mem _ hc)
      obtain ⟨ms', hbytes, -⟩ := hrest s
      refine ⟨ms ++ ms', ?_, ?_⟩
      · rw [List.flatMap_cons, hbytes, Format.writeAll_append, hms]
      · rw [Transition.run, readerStep_whole hms, ControlMsg.applyAll_append]
        cases hnext : ControlMsg.applyAll ms (some s) with
        | none => rw [Option.bind_none, ControlMsg.applyAll_none]
        | some t =>
            obtain ⟨ms'', hbytes', hrun⟩ := hrest t
            -- the stream has one list of messages, so it is the same in any
            -- state
            have hsame : ms' = ms'' :=
              ControlMsg.format.writeAll_injective (fun _ _ => trivial)
                (fun _ _ => trivial) (hbytes.symm.trans hbytes')
            rw [Option.bind_some, hrun, hsame]

/-- Two ways of cutting a stream of messages between messages lead to the
same state, whatever lies behind the chunks. -/
theorem cuts_between_messages_agree (s : DaemonConnection)
    (chunks chunks' : List Chunk)
    (h : ∀ chunk ∈ chunks, ∃ messages, chunk.Holds messages)
    (h' : ∀ chunk ∈ chunks', ∃ messages, chunk.Holds messages)
    (hstream : chunks.flatMap Chunk.bytes = chunks'.flatMap Chunk.bytes) :
    Transition.run readerStep s chunks
      = Transition.run readerStep s chunks' := by
  obtain ⟨ms, hbytes, hrun⟩ := run_readerStep_whole h s
  obtain ⟨ms', hbytes', hrun'⟩ := run_readerStep_whole h' s
  have hsame : ms = ms' :=
    ControlMsg.format.writeAll_injective (fun _ _ => trivial)
      (fun _ _ => trivial) (hbytes.symm.trans (hstream.trans hbytes'))
  rw [hrun, hrun', hsame]

/-- A chunk no longer than a header has no effect. -/
theorem readerStep_short {chunk : Chunk} (h : chunk.bytes.length ≤ 8)
    (s : DaemonConnection) : readerStep s chunk = some s := by
  rw [readerStep, DaemonConnection.handleIncomingMessage,
    handleMessages_done (by omega)]

/-- The log level message of the fixed inputs: position 0, level 1. -/
def sampleLevel : ControlMsg := .logLevel ⟨68, 85, 72, 1⟩ ⟨1, 0, 0⟩

/-- The state of the fixed inputs: one context, no connection. -/
def sampleRegistry : DaemonConnection :=
  (@DaemonConnection.initial documentedConstants
    fun _ => sampleContext).registerContext (sampleEnvironment false) 0

/-- A chunk of the fixed inputs. -/
def sampleChunk (bytes : List UInt8) (h : bytes.length ≤ 1024) : Chunk :=
  ⟨bytes, fun _ => 0, h⟩

/-- Cut behind its header, a log level message has no effect. -/
theorem cut_in_message_differs :
    let whole := sampleChunk sampleLevel.bytes (by decide)
    let head := sampleChunk (sampleLevel.bytes.take 8) (by decide)
    let tail := sampleChunk (sampleLevel.bytes.drop 8) (by decide)
    [head, tail].flatMap Chunk.bytes = [whole].flatMap Chunk.bytes
      ∧ whole.Holds [sampleLevel]
      ∧ (Transition.run readerStep sampleRegistry [whole]).map
          (fun t => (t.object 0).activeLogLevel) = some 1
      ∧ (Transition.run readerStep sampleRegistry [head, tail]).map
          (fun t => (t.object 0).activeLogLevel) = some 6 := by
  intro whole head tail
  have hwhole : whole.Holds [sampleLevel] := (List.append_nil _).symm
  have hhead : readerStep sampleRegistry head = some sampleRegistry :=
    readerStep_short (by decide) _
  have htail : readerStep sampleRegistry tail = some sampleRegistry :=
    readerStep_short (by decide) _
  refine ⟨by decide, hwhole, ?_, ?_⟩
  · rw [Transition.run, readerStep_whole hwhole]
    rfl
  · simp only [Transition.run, hhead, htail, Option.bind_some]
    rfl

/-- A log level message between two states, cut in front of either. -/
theorem cuts_between_messages_agree_sample :
    let state : ControlMsg := .logState ⟨68, 85, 72, 1⟩ 1
    let ms := state.bytes ++ sampleLevel.bytes
    let front := sampleChunk ms (by decide)
    let back := sampleChunk state.bytes (by decide)
    let front' := sampleChunk state.bytes (by decide)
    let back' := sampleChunk (sampleLevel.bytes ++ state.bytes) (by decide)
    Transition.run readerStep sampleRegistry [front, back]
      = Transition.run readerStep sampleRegistry [front', back'] := by
  intro state ms front back front' back'
  refine cuts_between_messages_agree sampleRegistry [front, back]
    [front', back'] ?_ ?_ (by decide)
  · intro chunk hchunk
    simp only [List.mem_cons, List.not_mem_nil, or_false] at hchunk
    rcases hchunk with rfl | rfl
    · exact ⟨[state, sampleLevel], rfl⟩
    · exact ⟨[state], rfl⟩
  · intro chunk hchunk
    simp only [List.mem_cons, List.not_mem_nil, or_false] at hchunk
    rcases hchunk with rfl | rfl
    · exact ⟨[state], rfl⟩
    · exact ⟨[sampleLevel, state], rfl⟩

end IviLogging.DltCpp
