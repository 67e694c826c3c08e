/-
The outgoing stream splits back into its frames.

# What is to show

The daemon gets one stream of bytes. A reader that knows the types of the
frames and nothing of their contents can split it if every frame announces
its own length, and `Frame.format` is that reader: once the length field of
a frame is its own (`Frame.Valid`), reading what was written is a fact
about formats in general. So what is to show is that every frame the
sources build has that property.

For the registrations it is the width of the length field. For a log
message it is the size of the message buffer: the length is sixteen bits
wide, and a payload of 16384 bytes with its headers stays below them. That
needs the payload to stay inside its array, over every sequence of calls
and every failing `snprintf` (`Reachable.contentSize_le`).

# Reachable messages

`LogData.Reachable` are the messages that any use of the class leaves. Most
are abstract messages (`Represents`), with everything that follows from
that. The exception is a format string that fails: it leaves an empty
length field behind and closes the message (`closed_writeFormatted_none`),
and from then on no call changes the payload (`payloadState_call_of_full`).
A message that is still open is an abstract one in any case
(`Reachable.represents`).

# The limit

The width is a limit of the design: a context description of 2^32 bytes
announces none of them, and what follows it is read as frames
(`readStream_registerContextFrame_iff`, `readStream_description_wraps`).
-/
import IviLogging.DltCpp.Frames
import IviLogging.DltCpp.Proofs.LogData

namespace IviLogging.DltCpp

open DltConstants

-- ================================================== a message that is full

namespace LogData

/-- The payload of a message: its array, its size, its counter and its
flag. -/
def payloadState (d : LogData) : List UInt8 × Nat × UInt8 × Bool :=
  (d.content, d.contentSize, d.argsCount, d.isFull)

section Full

variable {d : LogData}

/-- A full message has no space, -/
theorem getAvailableSpace_of_full (h : d.isFull = true) (n : Nat) :
    d.getAvailableSpace n = 0 := by
  rw [getAvailableSpace, h]
  rfl

variable [DltConstants]

/-- takes no scalar, -/
theorem writeWithTypeInfo_of_full (h : d.isFull = true) (type : UInt32)
    (value : List UInt8) : d.writeWithTypeInfo type value = d := by
  have hcheck : ∀ n, d.checkOverflow n = (d, false) := by
    intro n
    unfold checkOverflow
    simp [h]
  rw [writeWithTypeInfo, hcheck]
  rfl

/-- no string, -/
theorem writeString_of_full (h : d.isFull = true) (v : List UInt8) :
    d.writeString v = d := by
  unfold writeString
  rw [getAvailableSpace_of_full h]
  simp only [Nat.min_zero, Nat.lt_irrefl, if_false]
  rw [addMessageTooLargeIndication_of_full h, ite_self]

/-- and no formatted text. -/
theorem writeFormatted_of_full (h : d.isFull = true)
    (text : Option FormattedText) : d.writeFormatted text = d := by
  unfold writeFormatted
  rw [getAvailableSpace_of_full h]
  simp only [Nat.lt_irrefl, if_false, if_true]
  exact addMessageTooLargeIndication_of_full h

/-- No call touches the payload of a message that is full. -/
theorem payloadState_call_of_full (h : d.isFull = true) (c : WriteCall) :
    (d.call c).payloadState = d.payloadState := by
  cases c with
  | string v => rw [call, writeString_of_full h]
  | cString v => rw [call, writeCString, writeString_of_full h]
  | formatted text => rw [call, writeFormatted_of_full h]
  | setHexEnabled enabled => rfl
  | _ => exact congrArg payloadState (writeWithTypeInfo_of_full h _ _)

end Full

end LogData

-- ================================================== the size of a message

section Reachable

variable [DltUser]

/-- A message as any use of the class leaves it: calls, those of the
destructor included, and formatting that fails. -/
inductive LogData.Reachable : LogData → Prop
  | fresh (memory : Vector UInt8 maxMessageSize) (context : ContextId)
      (data : LogInfo) (dltLogLevel : Int) (enabled : Bool)
      (messageCount : UInt8) :
      Reachable (.fresh memory context data dltLogLevel enabled messageCount)
  | call {d : LogData} (c : WriteCall) :
      Reachable d → Reachable (d.call c)
  | formatFailed {d : LogData} :
      Reachable d → Reachable (d.writeFormatted none)

/-- Calls lead from reachable messages to reachable messages. -/
theorem LogData.Reachable.calls {d : LogData} (h : d.Reachable)
    (cs : List WriteCall) : (d.calls cs).Reachable := by
  induction cs generalizing d with
  | nil => exact h
  | cons c cs ih => exact ih (h.call c)

/-- A full message inside its array; nothing is said about what it
holds. -/
structure LogData.Closed (d : LogData) : Prop where
  isFull : d.isFull = true
  length : d.content.length = maxMessageSize
  size : d.contentSize ≤ maxMessageSize

/-- A full abstract message is one inside its array. -/
theorem Represents.closed {d : LogData} {m : Message}
    (h : Represents d m) (hfull : m.full = true) : d.Closed :=
  ⟨h.isFull.trans hfull, h.holds.length, h.contentSize ▸ h.size_le⟩

/-- A failing format string closes the message behind an empty length
field. -/
theorem Represents.closed_writeFormatted_none {d : LogData} {m : Message}
    (h : Represents d m) : (d.writeFormatted none).Closed := by
  cases hfull : m.full with
  | true =>
      rw [LogData.writeFormatted_of_full (h.isFull.trans hfull)]
      exact h.closed hfull
  | false =>
      obtain ⟨hclosed, hholds⟩ := h.holds_writeFormatted_none hfull
      exact ⟨hclosed, hholds.length, hholds.size ▸ hholds.fits⟩

/-- A reachable message is an abstract one or was closed by a failing
format string. The induction is over how the message came about. -/
theorem LogData.Reachable.represents_or_closed {d : LogData}
    (h : d.Reachable) : (∃ m, Represents d m) ∨ d.Closed := by
  induction h with
  | fresh memory context data dltLogLevel enabled messageCount =>
      exact Or.inl ⟨_, represents_fresh memory context data dltLogLevel
        enabled messageCount⟩
  | call c _ ih =>
      rcases ih with ⟨m, hm⟩ | hd
      · exact Or.inl ⟨_, hm.call c⟩
      · -- closed: the call leaves the payload as it is
        have hsame := LogData.payloadState_call_of_full hd.isFull c
        simp only [LogData.payloadState, Prod.mk.injEq] at hsame
        obtain ⟨hcontent, hsize, -, hfull⟩ := hsame
        exact Or.inr ⟨hfull.trans hd.isFull, hcontent ▸ hd.length,
          hsize ▸ hd.size⟩
  | formatFailed _ ih =>
      rcases ih with ⟨m, hm⟩ | hd
      · exact Or.inr hm.closed_writeFormatted_none
      · rw [LogData.writeFormatted_of_full hd.isFull]
        exact Or.inr hd

/-- One that is not full is an abstract one. -/
theorem LogData.Reachable.represents {d : LogData} (h : d.Reachable)
    (hopen : d.isFull = false) : ∃ m, Represents d m ∧ m.full = false := by
  rcases h.represents_or_closed with ⟨m, hm⟩ | hclosed
  · exact ⟨m, hm, hm.isFull.symm.trans hopen⟩
  · rw [hclosed.isFull] at hopen
    cases hopen

/-- The payload never leaves its array. -/
theorem LogData.Reachable.contentSize_le {d : LogData} (h : d.Reachable) :
    d.content.length = maxMessageSize ∧ d.contentSize ≤ maxMessageSize := by
  rcases h.represents_or_closed with ⟨m, hm⟩ | hd
  · exact ⟨hm.holds.length, hm.contentSize ▸ hm.size_le⟩
  · exact ⟨hd.length, hd.size⟩

/-- So the payload has as many bytes as the message says. -/
theorem LogData.Reachable.length_payload {d : LogData} (h : d.Reachable) :
    (d.content.take d.contentSize).length = d.contentSize := by
  obtain ⟨hlen, hsize⟩ := h.contentSize_le
  rw [List.length_take, hlen, Nat.min_eq_left hsize]

end Reachable

-- =========================================================== valid frames

/-- A length that fits an `int` is announced. -/
theorem toNat_descriptionLength {text : List UInt8}
    (h : text.length < 2 ^ 31) :
    (descriptionLength text).toNat = text.length := by
  unfold descriptionLength
  rw [if_pos h, UInt32.toNat_ofNat', Nat.mod_eq_of_lt (by omega)]

/-- A description buffer that was not too small holds the text. -/
theorem map_descriptionWithPID {text : List UInt8} {stack : Nat → UInt8}
    (h : text.length < 1024) :
    (List.range text.length).map (descriptionWithPID text stack) = text := by
  refine List.ext_getElem (by simp) fun i _ hi => ?_
  have htake : text.take 1023 = text := List.take_of_length_le (by omega)
  rw [List.getElem_map, List.getElem_range, descriptionWithPID, htake,
    if_pos (by rw [List.length_append, List.length_singleton]; omega),
    List.getD_eq_getElem?_getD, List.getElem?_append_left hi,
    List.getElem?_eq_getElem hi]
  rfl

section Frames

/-- The announced length is the one that is sent, -/
theorem valid_registerAppFrame (app : AppLogContext) (pid : Int32)
    (stack : Nat → UInt8) : (registerAppFrame app pid stack).Valid := by
  refine ⟨rfl, ?_⟩
  rw [List.length_map, List.length_range]

/-- as is that of a context, if it fits its field, -/
theorem valid_registerContextFrame (app : AppLogContext) (pid : Int32)
    {context : DltCppContext}
    (h : (cText context.parent.description.chars).length < 2 ^ 32) :
    (registerContextFrame app pid context).Valid := by
  refine ⟨rfl, ?_⟩
  show (UInt32.ofNat (cText context.parent.description.chars).length).toNat = _
  rw [UInt32.toNat_ofNat', Nat.mod_eq_of_lt h]

variable [DltUser]

/-- The 16-bit length of a log frame does not wrap. -/
theorem toNat_standardheaderLen {data : LogData}
    (h : data.contentSize ≤ maxMessageSize) :
    (standardheaderLen data).toNat = 26 + data.contentSize := by
  have hmsg : maxMessageSize = 16384 := rfl
  have hsum : sizeofDltStandardHeader + sizeofDltExtendedHeader
      + dltStandardHeaderExtraSize defaultHtyp + data.contentSize
        = 26 + data.contentSize := by
    rw [DltUser.extraSize_defaultHtyp]
    rfl
  rw [standardheaderLen, hsum, UInt16.toNat_ofNat',
    Nat.mod_eq_of_lt (by omega)]

/-- and that of a log message, which always does. -/
theorem valid_sendLogFrame (pid : Int32) (uptime : UInt32)
    (context : DltCppContext) {data : LogData} (h : data.Reachable) :
    (sendLogFrame pid uptime context data).Valid := by
  refine ⟨rfl, ?_⟩
  rw [htons_htons, toNat_standardheaderLen h.contentSize_le.2,
    h.length_payload]

/-- The bytes behind a frame's structures. -/
def Frame.trailing : Frame → List UInt8
  | .registerApp _ _ description => description
  | .registerContext _ _ description => description
  | .sendLog _ _ _ _ payload => payload

/-- The frames the sources build, each with the text or the payload it is
built for: an application description that fits its buffer, a context
description that fits its length field, and any message. -/
inductive Built : Frame → List UInt8 → Prop
  | registerApp (app : AppLogContext) (pid : Int32) (stack : Nat → UInt8) :
      (descriptionText app pid).length < 1024 →
      Built (registerAppFrame app pid stack) (descriptionText app pid)
  | registerContext (app : AppLogContext) (pid : Int32)
      (context : DltCppContext) :
      (cText context.parent.description.chars).length < 2 ^ 32 →
      Built (registerContextFrame app pid context)
        (cText context.parent.description.chars)
  | sendLog (pid : Int32) (uptime : UInt32) (context : DltCppContext)
      (data : LogData) : data.Reachable →
      Built (sendLogFrame pid uptime context data)
        (data.content.take data.contentSize)

/-- What the sources build announces its own length. -/
theorem Built.valid {f : Frame} {bytes : List UInt8} (h : Built f bytes) :
    f.Valid := by
  cases h with
  | registerApp app pid stack htext =>
      exact valid_registerAppFrame app pid stack
  | registerContext app pid context hdesc =>
      exact valid_registerContextFrame app pid hdesc
  | sendLog pid uptime context data hdata =>
      exact valid_sendLogFrame pid uptime context hdata

/-- Behind the structures is what the frame was built for. -/
theorem Built.trailing {f : Frame} {bytes : List UInt8} (h : Built f bytes) :
    f.trailing = bytes := by
  cases h with
  | registerApp app pid stack htext =>
      show (List.range (descriptionLength (descriptionText app pid)).toNat).map
        _ = _
      rw [toNat_descriptionLength (by omega)]
      exact map_descriptionWithPID htext
  | registerContext app pid context hdesc => rfl
  | sendLog pid uptime context data hdata => rfl

/-- A reader of the concatenated frames gets exactly those frames back,
every length field is exact, and what lies behind the structures is the
text or the payload the frame was built for. -/
theorem readStream_built (frames : List (Frame × List UInt8))
    (h : ∀ p ∈ frames, Built p.1 p.2) :
    readStream ((frames.map Prod.fst).flatMap Frame.bytes)
        = some (frames.map Prod.fst)
      ∧ ∀ p ∈ frames, p.1.Valid ∧ p.1.trailing = p.2 := by
  have hvalid : ∀ f ∈ frames.map Prod.fst, f.Valid := by
    intro f hf
    obtain ⟨p, hp, rfl⟩ := List.mem_map.mp hf
    exact (h p hp).valid
  exact ⟨Frame.format.readAll_writeAll hvalid,
    fun p hp => ⟨(h p hp).valid, (h p hp).trailing⟩⟩

end Frames

/-- A registration of either kind and a message of two arguments, split
again. -/
theorem readStream_built_sample :
    let data := @LogData.calls documentedConstants
      (LogData.fresh (Vector.replicate maxMessageSize 255) 0 sampleInfo 4
        true 7)
      [.int16 (-2), .string [104, 105]]
    let context := @DltCppContext.fresh documentedConstants sampleContext
    let frames :=
      [(registerAppFrame sampleApp 4711 fun _ => 255,
          descriptionText sampleApp 4711),
        (registerContextFrame sampleApp 4711 context,
          ascii ['M', 'a', 'i', 'n']),
        (@sendLogFrame documentedConstants 4711 0 context data,
          data.content.take data.contentSize)]
    readStream ((frames.map Prod.fst).flatMap Frame.bytes)
        = some (frames.map Prod.fst)
      ∧ ∀ p ∈ frames, p.1.Valid ∧ p.1.trailing = p.2 :=
  @readStream_built documentedDltUser _ (by
    let _ := documentedDltUser
    intro p hp
    simp only [List.mem_cons, List.not_mem_nil, or_false] at hp
    rcases hp with rfl | rfl | rfl
    · exact Built.registerApp sampleApp 4711 _ (by decide)
    · exact Built.registerContext sampleApp 4711 _ (by decide)
    · exact Built.sendLog 4711 0 _ _ (LogData.Reachable.calls (.fresh ..) _))

-- ==================================================== the length's width

/-- What is read as a context's registration has as many description
bytes as it announces. -/
theorem Frame.length_of_read_registerContext {bs rest : List UInt8}
    {userHeader : DltUserHeader} {message : DltUserControlMsgRegisterContext}
    {description : List UInt8}
    (h : Frame.read bs
      = some (.registerContext userHeader message description, rest)) :
    description.length = message.descriptionLength.toNat := by
  simp only [Frame.read, Option.bind_eq_bind, Option.bind_eq_some_iff] at h
  obtain ⟨⟨header, bs₁⟩, -, h⟩ := h
  split at h
  · obtain ⟨_, -, h⟩ := Option.bind_eq_some_iff.mp h
    obtain ⟨_, -, h⟩ := Option.bind_eq_some_iff.mp h
    cases h
  · split at h
    · obtain ⟨⟨msg, bs₂⟩, -, h⟩ := Option.bind_eq_some_iff.mp h
      -- the only place where a registration of a context is read
      obtain ⟨⟨desc, bs₃⟩, htake, h⟩ := Option.bind_eq_some_iff.mp h
      cases h
      exact (Reader.take_eq_some.mp htake).2
    · split at h
      · obtain ⟨_, -, h⟩ := Option.bind_eq_some_iff.mp h
        obtain ⟨_, -, h⟩ := Option.bind_eq_some_iff.mp h
        obtain ⟨_, -, h⟩ := Option.bind_eq_some_iff.mp h
        obtain ⟨_, -, h⟩ := Option.bind_eq_some_iff.mp h
        cases h
      · cases h

/-- A registration is read back exactly when its description's length
fits the field. -/
theorem readStream_registerContextFrame_iff (app : AppLogContext)
    (pid : Int32) (context : DltCppContext) :
    readStream (registerContextFrame app pid context).bytes
        = some [registerContextFrame app pid context]
      ↔ (cText context.parent.description.chars).length < 2 ^ 32 := by
  constructor
  · intro h
    obtain ⟨rest, hread⟩ := Frame.format.read_of_readAll_cons h
    rw [Frame.length_of_read_registerContext hread]
    exact UInt32.toNat_lt _
  · intro h
    have hvalid : ∀ f ∈ [registerContextFrame app pid context], f.Valid := by
      intro f hf
      rw [List.mem_singleton.mp hf]
      exact valid_registerContextFrame app pid h
    have hall := Frame.format.readAll_writeAll hvalid
    rw [Format.writeAll_cons, Format.writeAll_nil, List.append_nil] at hall
    exact hall

/-- A description of 2^32 bytes is not read back. -/
theorem readStream_description_wraps :
    ¬ readStream (registerContextFrame sampleApp 4711
          (@DltCppContext.fresh documentedConstants
            { sampleContext with
              description := ⟨List.replicate (2 ^ 32) 97, fun _ => 0⟩ })).bytes
        = some [registerContextFrame sampleApp 4711
          (@DltCppContext.fresh documentedConstants
            { sampleContext with
              description := ⟨List.replicate (2 ^ 32) 97, fun _ => 0⟩ })] := by
  rw [readStream_registerContextFrame_iff]
  show ¬ (cText (List.replicate (2 ^ 32) 97)).length < 2 ^ 32
  rw [cText, List.takeWhile_replicate, if_pos (by decide),
    List.length_replicate]
  exact Nat.lt_irrefl _

end IviLogging.DltCpp
