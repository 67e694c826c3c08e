/-
Every access to `m_content` stays in the array.

# What is counted

The model's copies cannot leave an array: `Buffer.write` on a list only
ever changes what is there. So the accesses are written down beside the
message (`Traced`): where each one starts, and how many bytes it may touch,
for `snprintf` all that it is told it may. The trace leaves the message
what it is (`data_calls`), so whatever is shown of the accesses is shown of
the calls.

# The invariant

`Traced.Inside` is the invariant of the trace: all its accesses lie in the
16384 bytes, and replaying them gives the array, so that none is missing.
What a call needs for it is one bound: a message that is not full has its
size at most `maxContentSize`. Each writer then copies what
`getAvailableSpace` says there is room for, and the marker has the bytes
between the two constants. That bound is one of the abstract message's, and
every call keeps it (`Represents.payloadSafe`).

`PayloadSafe` collects what holds of a message after any calls, that no
subtraction of the code underflows and that a full message stays as it is
among it, and `payloadSafe_calls` says that it does, of any list of
calls.
-/
import IviLogging.DltCpp.Accesses
import IviLogging.DltCpp.Proofs.Framing

namespace IviLogging.DltCpp

open DltConstants
open LittleEndian (encode ofUInt16 ofUInt32)

-- ============================================================ the traces

namespace Traced

section Data

/-- Each traced writer does to the message what the writer does. -/
@[simp] theorem data_writeBuffer (t : Traced) (v : List UInt8) :
    (t.writeBuffer v).data = t.data.writeBuffer v := rfl

@[simp] theorem data_writeType (t : Traced) (type : UInt32) :
    (t.writeType type).data = t.data.writeType type := rfl

variable [DltConstants] (t : Traced)

@[simp] theorem data_addMessageTooLargeIndication :
    t.addMessageTooLargeIndication.data
      = t.data.addMessageTooLargeIndication := rfl

/-- The overflow check has the same message and the same answer. -/
theorem data_checkOverflow (n : Nat) :
    (t.checkOverflow n).1.data = (t.data.checkOverflow n).1
      ∧ (t.checkOverflow n).2 = (t.data.checkOverflow n).2 := by
  unfold checkOverflow LogData.checkOverflow
  split
  · exact ⟨rfl, rfl⟩
  · exact ⟨rfl, rfl⟩

/-- So have a scalar, -/
theorem data_writeWithTypeInfo (type : UInt32) (value : List UInt8) :
    (t.writeWithTypeInfo type value).data
      = t.data.writeWithTypeInfo type value := by
  obtain ⟨hdata, hroom⟩ :=
    t.data_checkOverflow (value.length + sizeofDltTypeInfo)
  unfold writeWithTypeInfo LogData.writeWithTypeInfo
  dsimp only
  rw [hroom]
  split
  · rw [data_writeBuffer, data_writeType, hdata]
  · exact hdata

/-- a string, -/
theorem data_writeString (v : List UInt8) :
    (t.writeString v).data = t.data.writeString v := by
  unfold writeString LogData.writeString
  dsimp only
  split
  · split <;> rfl
  · split <;> rfl

/-- and a formatted text. -/
theorem data_writeFormatted (text : Option FormattedText) :
    (t.writeFormatted text).data = t.data.writeFormatted text := by
  unfold writeFormatted LogData.writeFormatted
  dsimp only
  by_cases hspace : 0 < t.data.getAvailableSpace
      (sizeofDltStringLengthType + sizeofDltTypeInfo + 1)
  · simp only [hspace, if_true]
    split
    · rfl
    · rfl
  · simp only [hspace, if_false, if_true]
    rfl

/-- The trace leaves the message what it is. -/
theorem data_call (c : WriteCall) : (t.call c).data = t.data.call c := by
  cases c with
  | string v => exact t.data_writeString v
  | cString v => exact t.data_writeString (cText v)
  | formatted text => exact t.data_writeFormatted (some text)
  | setHexEnabled enabled => rfl
  | _ => exact t.data_writeWithTypeInfo _ _

/-- Nor does the trace of many calls change their message. -/
theorem data_calls (cs : List WriteCall) :
    (t.calls cs).data = t.data.calls cs := by
  induction cs generalizing t with
  | nil => rfl
  | cons c cs ih =>
      have hrest := ih (t.call c)
      rw [t.data_call c] at hrest
      exact hrest

end Data

-- ======================================================== the invariant

/-- Every access lies in the array, and the accesses are all that happened
to it since it was `content`. -/
structure Inside (content : List UInt8) (t : Traced) : Prop where
  range : ∀ a ∈ t.accesses, a.InRange maxMessageSize
  replay : t.data.content = t.accesses.foldl Access.apply content

namespace Inside

variable {content : List UInt8} {t : Traced}

/-- Accesses more. -/
theorem append (h : t.Inside content) {t' : Traced} {accesses : List Access}
    (haccesses : t'.accesses = t.accesses ++ accesses)
    (hcontent : t'.data.content
      = accesses.foldl Access.apply t.data.content)
    (hrange : ∀ a ∈ accesses, a.InRange maxMessageSize) :
    t'.Inside content := by
  refine ⟨?_, ?_⟩
  · intro a ha
    rw [haccesses] at ha
    rcases List.mem_append.mp ha with ha | ha
    · exact h.range a ha
    · exact hrange a ha
  · rw [hcontent, haccesses, List.foldl_append, h.replay]

/-- A copy is inside if there is room for it, or if the flag stops it. -/
theorem writeBuffer (h : t.Inside content) {v : List UInt8}
    (hroom : t.data.isFull = false →
      t.data.contentSize + v.length ≤ maxMessageSize) :
    (t.writeBuffer v).Inside content := by
  refine h.append rfl ?_ ?_
  · rw [data_writeBuffer]
    unfold LogData.writeBuffer
    split <;> rfl
  · intro a ha
    split at ha
    · next hfull =>
        rw [List.mem_singleton.mp ha]
        exact ⟨Nat.le_refl _, hroom (by simpa using hfull)⟩
    · cases ha

/-- `snprintf` may write what it is given, and the length is in front of
it. -/
theorem formatInto (h : t.Inside content) {n : Nat} (k : Nat)
    (hroom : t.data.contentSize + 2 + n ≤ maxMessageSize)
    (text : Option FormattedText) :
    (t.formatInto n k text).Inside content := by
  refine h.append rfl rfl ?_
  have hsize : sizeofDltStringLengthType = 2 := rfl
  intro a ha
  rcases List.mem_cons.mp ha with rfl | ha
  · refine ⟨?_, ?_⟩
    · show (LogData.snprintfStored n text).length ≤ n
      unfold LogData.snprintfStored
      split
      · split
        · exact Nat.zero_le _
        · simp only [List.length_append, List.length_take,
            List.length_singleton]
          omega
      · exact Nat.zero_le _
    · show t.data.contentSize + sizeofDltStringLengthType + n
        ≤ maxMessageSize
      omega
  · rw [List.mem_singleton.mp ha]
    refine ⟨Nat.le_refl _, ?_⟩
    show t.data.contentSize
      + (ofUInt16 (UInt16.ofNat k)).length ≤ maxMessageSize
    rw [LittleEndian.length_ofUInt16]
    omega

/-- A copy to a message that is not full. -/
theorem writeBytes (h : t.Inside content) (hfull : t.data.isFull = false)
    {v : List UInt8}
    (hroom : t.data.contentSize + v.length ≤ maxMessageSize) :
    (t.writeBuffer v).Inside content
      ∧ (t.writeBuffer v).data.isFull = false
      ∧ (t.writeBuffer v).data.contentSize
        = t.data.contentSize + v.length := by
  refine ⟨h.writeBuffer fun _ => hroom, ?_, ?_⟩
  · rw [data_writeBuffer, LogData.isFull_writeBuffer, hfull]
  · rw [data_writeBuffer, LogData.contentSize_writeBuffer hfull]

/-- A type word in a message that is not full. -/
theorem writeWord (h : t.Inside content) (hfull : t.data.isFull = false)
    (hroom : t.data.contentSize + 4 ≤ maxMessageSize) (type : UInt32) :
    (t.writeType type).Inside content
      ∧ (t.writeType type).data.isFull = false
      ∧ (t.writeType type).data.contentSize = t.data.contentSize + 4 := by
  obtain ⟨hin, hfull', hsize⟩ := h.writeBytes hfull (v := ofUInt32 type) hroom
  exact ⟨⟨hin.range, hin.replay⟩, hfull', hsize⟩

variable [DltConstants]

/-- The marker has the bytes between the two constants. -/
theorem addMessageTooLargeIndication (h : t.Inside content)
    (hroom : t.data.isFull = false → t.data.contentSize ≤ maxContentSize) :
    t.addMessageTooLargeIndication.Inside content := by
  have hmsg : maxMessageSize = 16384 := rfl
  have hmax : maxContentSize = 16366 := rfl
  have hdata : LogData.messageTooLargeData.length = 18 := rfl
  refine h.append rfl ?_ ?_
  · rw [data_addMessageTooLargeIndication]
    unfold LogData.addMessageTooLargeIndication
    split <;> rfl
  · intro a ha
    split at ha
    · next hfull =>
        rw [List.mem_singleton.mp ha]
        have hle := hroom (by simpa using hfull)
        refine ⟨Nat.le_refl _, ?_⟩
        show t.data.contentSize + LogData.messageTooLargeData.length
          ≤ maxMessageSize
        omega
    · cases ha

/-- A scalar takes four bytes of type and its own, or the marker does. -/
theorem writeWithTypeInfo (h : t.Inside content)
    (hle : t.data.isFull = false → t.data.contentSize ≤ maxContentSize)
    (type : UInt32) (value : List UInt8) :
    (t.writeWithTypeInfo type value).Inside content := by
  have hmsg : maxMessageSize = 16384 := rfl
  have hmax : maxContentSize = 16366 := rfl
  have htype : sizeofDltTypeInfo = 4 := rfl
  unfold Traced.writeWithTypeInfo Traced.checkOverflow
  dsimp only
  cases hfull : t.data.isFull with
  | true => simpa [hfull] using h
  | false =>
      have hspace := LogData.getAvailableSpace_of_le hfull (hle hfull)
        (value.length + sizeofDltTypeInfo)
      by_cases hzero : t.data.getAvailableSpace
          (value.length + sizeofDltTypeInfo) = 0
      · have hmarked := h.addMessageTooLargeIndication hle
        have hclosed : t.data.addMessageTooLargeIndication.isFull = true := by
          simp [LogData.addMessageTooLargeIndication, hfull]
        simpa [hzero, hclosed] using hmarked
      · obtain ⟨hword, -, hsize⟩ := h.writeWord hfull (by omega) type
        have hvalue := hword.writeBuffer (v := value) fun _ => by omega
        simpa [hzero, hfull] using hvalue

/-- A string takes four bytes of type, two of length, what there is room
for, and a NUL. -/
theorem writeString (h : t.Inside content)
    (hle : t.data.isFull = false → t.data.contentSize ≤ maxContentSize)
    (v : List UInt8) : (t.writeString v).Inside content := by
  have hmsg : maxMessageSize = 16384 := rfl
  have hmax : maxContentSize = 16366 := rfl
  have hinfo : sizeofDltStringLengthType + sizeofDltTypeInfo + 1 = 7 := rfl
  unfold Traced.writeString
  dsimp only
  cases hfull : t.data.isFull with
  | true =>
      rw [LogData.getAvailableSpace_of_full hfull, Nat.min_zero,
        if_neg (Nat.lt_irrefl 0)]
      split
      · exact h.addMessageTooLargeIndication hle
      · exact h
  | false =>
      have hspace := LogData.getAvailableSpace_of_le hfull (hle hfull) 7
      rw [hinfo, hspace]
      generalize hn : min v.length (maxContentSize - (t.data.contentSize + 7))
        = n
      by_cases hpos : 0 < n
      · rw [if_pos hpos]
        obtain ⟨hword, hfull₁, hsize₁⟩ :=
          h.writeWord hfull (by omega) (dltTypeInfoStrg ||| dltScodUtf8)
        have htake : (v.take n).length = n := by
          rw [List.length_take]
          omega
        -- four copies, each with the room that the ones in front of it left
        obtain ⟨hlen, hfull₂, hsize₂⟩ := hword.writeBytes hfull₁
          (v := ofUInt16 (UInt16.ofNat n + 1)) (by
            rw [LittleEndian.length_ofUInt16]
            omega)
        rw [LittleEndian.length_ofUInt16] at hsize₂
        obtain ⟨htext, hfull₃, hsize₃⟩ := hlen.writeBytes hfull₂
          (v := v.take n) (by omega)
        obtain ⟨hnul, hfull₄, hsize₄⟩ := htext.writeBytes hfull₃
          (v := [0]) (by rw [List.length_singleton]; omega)
        rw [List.length_singleton] at hsize₄
        split
        · exact hnul.addMessageTooLargeIndication fun _ => by omega
        · exact hnul
      · rw [if_neg hpos]
        split
        · exact h.addMessageTooLargeIndication hle
        · exact h

/-- A formatted text takes four bytes of type, two of length, and hands
`snprintf` the rest of the space. -/
theorem writeFormatted (h : t.Inside content)
    (hle : t.data.isFull = false → t.data.contentSize ≤ maxContentSize)
    (text : Option FormattedText) :
    (t.writeFormatted text).Inside content := by
  have hmsg : maxMessageSize = 16384 := rfl
  have hmax : maxContentSize = 16366 := rfl
  have hinfo : sizeofDltStringLengthType + sizeofDltTypeInfo + 1 = 7 := rfl
  have hlength : sizeofDltStringLengthType = 2 := rfl
  unfold Traced.writeFormatted
  dsimp only
  cases hfull : t.data.isFull with
  | true =>
      rw [LogData.getAvailableSpace_of_full hfull]
      simp only [Nat.lt_irrefl, if_false, if_true]
      exact h.addMessageTooLargeIndication hle
  | false =>
      have hspace := LogData.getAvailableSpace_of_le hfull (hle hfull) 7
      rw [hinfo, hspace]
      generalize hn : maxContentSize - (t.data.contentSize + 7) = n
      by_cases hpos : 0 < n
      · -- the space that `snprintf` is told of ends at the marker's place
        obtain ⟨hword, hfull₁, hsize₁⟩ :=
          h.writeWord hfull (by omega) (dltTypeInfoStrg ||| dltScodUtf8)
        have hformat := hword.formatInto (n := n)
          (min ((LogData.snprintfResult text + 1) % 2 ^ 64) n) (by omega) text
        simp only [hpos, if_true]
        split
        · refine hformat.addMessageTooLargeIndication fun _ => ?_
          simp only [Traced.formatInto, LogData.reserve]
          omega
        · exact hformat
      · simp only [hpos, if_false, if_true]
        exact h.addMessageTooLargeIndication hle

/-- Every call of a message that leaves the marker its place. -/
theorem call (h : t.Inside content)
    (hle : t.data.isFull = false → t.data.contentSize ≤ maxContentSize)
    (c : WriteCall) : (t.call c).Inside content := by
  cases c with
  | string v => exact h.writeString hle v
  | cString v => exact h.writeString hle (cText v)
  | formatted text => exact h.writeFormatted hle (some text)
  | setHexEnabled enabled => exact ⟨h.range, h.replay⟩
  | _ => exact h.writeWithTypeInfo hle _ _

end Inside

end Traced

-- ====================================================== payload safety

section Safety

/-- No subtraction underflows. -/
theorem LogData.subtractions_le {d : LogData}
    (hle : d.isFull = false → d.contentSize ≤ maxContentSize) (n : Nat) :
    ∀ x ∈ d.subtractions n, x.2 ≤ x.1 := by
  intro x hx
  unfold LogData.subtractions at hx
  cases hfull : d.isFull with
  | true =>
      rw [hfull] at hx
      cases hx
  | false =>
      rw [hfull] at hx
      have hfirst := hle hfull
      by_cases hn : n ≤ sizeTSub maxContentSize d.contentSize
      · simp only [Bool.false_eq_true, if_false, hn, if_true,
          List.mem_cons, List.not_mem_nil, or_false] at hx
        rcases hx with rfl | rfl
        · exact hfirst
        · exact hn
      · simp only [Bool.false_eq_true, if_false, hn,
          List.mem_singleton] at hx
        rw [hx]
        exact hfirst

variable [DltUser]

/-- What holds of a message between two calls. -/
structure LogData.PayloadSafe (d : LogData) : Prop where
  length : d.content.length = maxMessageSize
  available : d.isFull = false → d.contentSize ≤ maxContentSize
  size : d.contentSize ≤ maxMessageSize
  subtractions : ∀ n, ∀ x ∈ d.subtractions n, x.2 ≤ x.1
  parses : ∃ args, decodePayload (d.content.take d.contentSize) = some args
  sticky : d.isFull = true →
    ∀ cs, (d.calls cs).payloadState = d.payloadState

/-- No sequence of calls touches the payload of a message that is full. -/
theorem LogData.payloadState_calls_of_full {d : LogData}
    (h : d.isFull = true) (cs : List WriteCall) :
    (d.calls cs).payloadState = d.payloadState := by
  induction cs generalizing d with
  | nil => rfl
  | cons c cs ih =>
      have hstep := LogData.payloadState_call_of_full h c
      have hfull : (d.call c).isFull = true := by
        have hflag := congrArg (fun s => s.2.2.2) hstep
        exact Eq.trans hflag h
      exact (ih hfull).trans hstep

theorem Represents.payloadSafe {d : LogData} {m : Message}
    (h : Represents d m) : d.PayloadSafe := by
  have hle : d.isFull = false → d.contentSize ≤ maxContentSize := by
    intro hfull
    rw [h.contentSize]
    exact h.bound (h.isFull.symm.trans hfull)
  refine ⟨h.holds.length, hle, ?_, ?_, ⟨m.args, h.decodePayload⟩, ?_⟩
  · rw [h.contentSize]
    exact h.size_le
  · exact LogData.subtractions_le hle
  · exact LogData.payloadState_calls_of_full

/-- Payload safety: after any sequence of calls of a fresh message, every
access made to its array lay inside it, these accesses are all that
happened to the array, and the message is safe. -/
theorem payloadSafe_calls (memory : Vector UInt8 maxMessageSize)
    (context : ContextId) (data : LogInfo) (dltLogLevel : Int)
    (enabled : Bool) (messageCount : UInt8) (cs : List WriteCall) :
    let fresh := LogData.fresh memory context data dltLogLevel enabled
      messageCount
    let t := Traced.calls ⟨fresh, []⟩ cs
    t.data = fresh.calls cs ∧ t.Inside fresh.content
      ∧ (fresh.calls cs).PayloadSafe := by
  intro fresh t
  have hfresh : Represents fresh {} := represents_fresh ..
  have hrun : ∀ (cs : List WriteCall) (t : Traced) (m : Message),
      Represents t.data m → t.Inside fresh.content →
      (t.calls cs).Inside fresh.content := by
    intro cs
    induction cs with
    | nil => exact fun _ _ _ h => h
    | cons c cs ih =>
        intro t m hrep hin
        -- the abstract message goes along, for the bound it keeps
        refine ih (t.call c) (m.call t.data.data.hexEnabled c) ?_ ?_
        · rw [t.data_call]
          exact hrep.call c
        · exact hin.call hrep.payloadSafe.available c
  refine ⟨Traced.data_calls _ cs, ?_, (hfresh.calls cs).payloadSafe⟩
  refine hrun cs ⟨fresh, []⟩ {} hfresh ⟨?_, rfl⟩
  intro a ha
  cases ha

end Safety

end IviLogging.DltCpp
