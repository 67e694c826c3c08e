/-
What a call leaves out, and whether the message says so.

# What a reader is told

A message that is full ends with the marker, so a reader is told of a cut
as long as a message becomes full exactly when something is missing
(`NoSilentTruncation`). `Carries` says when nothing is: every byte of the
value is there, or it was an empty string, which has none. The bytes that
are shown are left open in the statement, but the payload determines them
(`noSilentTruncation_of_payload`).

# The calls

For the bytes that a call adds this is a question about the abstract
message: which arguments it has more, and whether it is full now
(`noSilentTruncation_of_added`). A scalar that does not fit closes the
message without a byte of it, a string closes it exactly when it is longer
than the space, and neither leaves out anything silently. For a formatted
text the space counts the NUL and the length it is compared with does not:
a text of exactly as many characters as the space has bytes loses the last
one and nothing says so. That is the only exception
(`noSilentTruncation_formatted_iff`, `noSilentTruncation_iff`). A text that
is too long for `snprintf` to report is missing as a whole, and marked.
-/
import IviLogging.DltCpp.Proofs.Framing

namespace IviLogging.DltCpp

open DltConstants
open LittleEndian (ofUInt16 ofUInt32)

-- ============================================================= requests

/-- A call that asks for an argument. `overlong` is `writeFormatted` with
a text longer than the `int` that `snprintf` reports it in, so that what is
asked for and what the code gets to know of it differ. -/
inductive Request
  | call (c : WriteCall)
  | overlong (text : List UInt8) (h : 2 ^ 31 ≤ text.length)

/-- What is asked for, under the hex switch in force. -/
def Request.arg (hex : Bool) : Request → Option Arg
  | .call c => c.arg hex
  | .overlong text _ => some (.strg text)

section Requests

variable [DltConstants]

/-- The message afterwards. -/
def LogData.request (d : LogData) : Request → LogData
  | .call c => d.call c
  | .overlong _ _ => d.writeFormatted none

/-- The formatted text is as long as the space `writeFormatted` finds. -/
def Request.Fills (d : LogData) : Request → Prop
  | .call (.formatted text) =>
      text.chars.length = d.getAvailableSpace
        (sizeofDltStringLengthType + sizeofDltTypeInfo + 1)
  | _ => False

-- ==================================================== what a reader is told

/-- No byte of a value and no character of a string is missing; there is
none in an empty string. -/
def Carries (shown : List UInt8) (a : Arg) : Prop :=
  shown = a.write ∨ a = .strg []

/-- A call that asked for `a` put `shown` behind the payload, and closed
the message exactly if that is not all of it. -/
structure NoSilentTruncation (d d' : LogData) (a : Arg)
    (shown : List UInt8) : Prop where
  payload : d'.payload = d.payload
    ++ (shown ++ if d'.isFull then LogData.messageTooLargeData else [])
  isFull : d'.isFull = true ↔ ¬ Carries shown a
  marked : ¬ Carries shown a →
    d'.payload = d.payload ++ (shown ++ LogData.messageTooLargeData)

/-- No byte carries no value but the empty string. -/
theorem not_carries_nil {a : Arg} (h : a ≠ .strg []) : ¬ Carries [] a := by
  intro hcarries
  rcases hcarries with hnil | hempty
  · have hlen := a.length_write
    have hpos := a.size_pos
    rw [← hnil, List.length_nil] at hlen
    omega
  · exact h hempty

/-- A part of a text does not carry it. -/
theorem not_carries_take {s : List UInt8} {n : Nat} (h : n < s.length) :
    ¬ Carries (Arg.strg (s.take n)).write (.strg s) := by
  intro hcarries
  rcases hcarries with heq | hempty
  · have hlen := congrArg List.length heq
    simp only [Arg.length_write, Arg.size, List.length_take] at hlen
    omega
  · cases hempty
    simp at h

-- =================================================== the bytes of a call

section Added

variable {d d' : LogData} {a : Arg} {shown : List UInt8}

/-- What a call put behind the payload settles its case. -/
theorem noSilentTruncation_of_payload
    (hpayload : d'.payload = d.payload
      ++ (shown ++ if d'.isFull then LogData.messageTooLargeData else [])) :
    (∃ shown', NoSilentTruncation d d' a shown')
      ↔ (d'.isFull = true ↔ ¬ Carries shown a) := by
  constructor
  · intro h
    obtain ⟨shown', hshown⟩ := h
    have heq : shown' = shown := by
      have hboth := hshown.payload.symm.trans hpayload
      exact List.append_cancel_right (List.append_cancel_left hboth)
    exact heq ▸ hshown.isFull
  · intro h
    refine ⟨shown, hpayload, h, ?_⟩
    intro hmissing
    rw [if_pos (h.mpr hmissing)] at hpayload
    exact hpayload

end Added

end Requests

-- =================================================== what a string adds

/-- What a string adds, and when it closes the message. -/
theorem Message.putString_added {m : Message} (hfull : m.full = false)
    (s : List UInt8) :
    (m.putString s).args = m.args
        ++ ((if s = [] ∨ m.room = 0 then [] else [.strg (s.take m.room)])
          ++ if (m.putString s).full then [.truncated] else [])
      ∧ ((m.putString s).full = true ↔ m.room < s.length) := by
  unfold Message.putString
  rw [hfull, if_neg Bool.false_ne_true]
  by_cases hall : s.length ≤ m.room
  · rw [if_pos hall]
    by_cases hs : s = []
    · simp [hs, hfull]
    · have hpos := List.length_pos_of_ne_nil hs
      have hroom : ¬ m.room = 0 := by omega
      simp [hs, hroom, hall, hfull, Message.add, List.take_of_length_le]
  · have hs : ¬ s = [] := by
      intro hnil
      exact hall (by simp [hnil])
    rw [if_neg hall]
    by_cases hroom : m.room = 0
    · have hpos := List.length_pos_of_ne_nil hs
      simp [hroom, hpos, Message.truncate]
    · have hlt : m.room < s.length := by omega
      simp [hs, hroom, hlt, Message.truncate, Message.add]

/-- What a formatted text adds, and when it closes the message. -/
theorem Message.putFormatted_added {m : Message} (hfull : m.full = false)
    (text : List UInt8) :
    (m.putFormatted text).args = m.args
        ++ ((if m.room = 0 then []
            else [.strg (text.take (m.room - 1))])
          ++ if (m.putFormatted text).full then [.truncated] else [])
      ∧ ((m.putFormatted text).full = true
        ↔ m.room = 0 ∨ m.room < text.length) := by
  unfold Message.putFormatted
  rw [hfull, if_neg Bool.false_ne_true]
  by_cases hroom : m.room = 0
  · simp [hroom, Message.truncate]
  · by_cases hfits : text.length ≤ m.room
    · simp [hroom, hfits, hfull, Message.add]
    · have hlt : m.room < text.length := by omega
      rw [if_neg hroom, if_neg hfits]
      simp [hroom, hlt, Message.truncate, Message.add]

section Simulation

variable [DltUser] {d d' : LogData} {m m' : Message}

/-- The payload is the encoding of the arguments. -/
theorem Represents.payload (h : Represents d m) :
    d.payload = verboseFormat.writeAll m.args := by
  rw [LogData.payload, h.holds.size, h.holds.filled]

/-- The arguments a call added are what it put behind the payload. -/
theorem payload_of_added (h : Represents d m) (h' : Represents d' m')
    {added : List Arg} (hargs : m'.args = m.args ++ (added
      ++ if m'.full then [.truncated] else [])) :
    d'.payload = d.payload ++ (verboseFormat.writeAll added
      ++ if d'.isFull then LogData.messageTooLargeData else []) := by
  rw [h.payload, h'.payload, hargs, Format.writeAll_append,
    Format.writeAll_append, h'.isFull]
  cases m'.full with
  | true => rfl
  | false => rfl

/-- A call is honest exactly if it closes the message just when the
arguments it added do not carry what was asked for. -/
theorem noSilentTruncation_of_added (h : Represents d m)
    (h' : Represents d' m') {added : List Arg} (a : Arg)
    (hargs : m'.args = m.args ++ (added
      ++ if m'.full then [.truncated] else [])) :
    (∃ shown, NoSilentTruncation d d' a shown)
      ↔ (m'.full = true ↔ ¬ Carries (verboseFormat.writeAll added) a) := by
  rw [← h'.isFull]
  exact noSilentTruncation_of_payload (payload_of_added h h' hargs)

-- ============================================================== the calls

/-- A scalar is there or the message is full: it is never put in part, and
where it has no room the marker is all there is. -/
theorem noSilentTruncation_scalar (h : Represents d m)
    (hfull : m.full = false) (t : ScalarType) (n : Nat)
    (h' : Represents d' (m.putScalar t (BitVec.ofNat (8 * t.bytes) n).toNat)) :
    ∃ shown, NoSilentTruncation d d' (.ofNat t n) shown := by
  have hsame : Arg.ofNat t (BitVec.ofNat (8 * t.bytes) n).toNat
      = .ofNat t n := by
    rw [Arg.ofNat, BitVec.ofNat_toNat, BitVec.setWidth_eq, Arg.ofNat]
  have hne : Arg.ofNat t n ≠ .strg [] := by
    intro hcon
    cases hcon
  unfold Message.putScalar at h'
  rw [hfull, hsame, if_neg Bool.false_ne_true] at h'
  by_cases hroom : m.size + (t.bytes + sizeofDltTypeInfo) < maxContentSize
  · rw [if_pos hroom] at h'
    have hadded : (m.add (.ofNat t n)).args = m.args ++ ([.ofNat t n]
        ++ if (m.add (.ofNat t n)).full then [.truncated] else []) := by
      simp [Message.add, hfull]
    apply (noSilentTruncation_of_added h h' _ hadded).mpr
    rw [Format.writeAll_cons, Format.writeAll_nil, List.append_nil]
    constructor
    · intro hclosed
      exact absurd hclosed (by simp [Message.add, hfull])
    · intro hmissing
      exact absurd (Or.inl rfl) hmissing
  · -- no room: the marker alone, and nothing of the value
    rw [if_neg hroom] at h'
    have hadded : m.truncate.args = m.args ++ ([]
        ++ if m.truncate.full then [.truncated] else []) := rfl
    apply (noSilentTruncation_of_added h h' _ hadded).mpr
    exact ⟨fun _ => not_carries_nil hne, fun _ => rfl⟩

/-- So is a string, or its beginning is there with the marker. An empty one
is carried by nothing, and one that is cut is shorter than it was. -/
theorem noSilentTruncation_string (h : Represents d m)
    (hfull : m.full = false) (s : List UInt8)
    (h' : Represents d' (m.putString s)) :
    ∃ shown, NoSilentTruncation d d' (.strg s) shown := by
  obtain ⟨hadded, hclosed⟩ := Message.putString_added hfull s
  apply (noSilentTruncation_of_added h h' _ hadded).mpr
  rw [hclosed]
  by_cases hs : s = []
  · subst hs
    constructor
    · intro hlong
      simp at hlong
    · intro hmissing
      exact absurd (Or.inr rfl) hmissing
  · by_cases hroom : m.room = 0
    · have hne : Arg.strg s ≠ .strg [] := fun heq => hs (by cases heq; rfl)
      have hpos := List.length_pos_of_ne_nil hs
      rw [if_pos (Or.inr hroom)]
      exact ⟨fun _ => not_carries_nil hne, fun _ => by omega⟩
    · rw [if_neg (by simp [hs, hroom]), Format.writeAll_cons,
        Format.writeAll_nil, List.append_nil]
      constructor
      · intro hlong
        exact not_carries_take hlong
      · intro hmissing
        -- a string that is no longer than the space is there as a whole
        by_contra hfits
        apply hmissing
        rw [List.take_of_length_le (by omega)]
        exact Or.inl rfl

/-- A formatted text of exactly the length of its space is cut by a
character, or the message is closed for want of space for no text. -/
theorem noSilentTruncation_formatted_iff (h : Represents d m)
    (hfull : m.full = false) (text : List UInt8)
    (h' : Represents d' (m.putFormatted text)) :
    (∃ shown, NoSilentTruncation d d' (.strg text) shown)
      ↔ text.length ≠ m.room := by
  obtain ⟨hadded, hclosed⟩ := Message.putFormatted_added hfull text
  rw [noSilentTruncation_of_added h h' _ hadded, hclosed]
  by_cases hroom : m.room = 0
  · rw [if_pos hroom]
    constructor
    · intro hiff hempty
      rw [hroom] at hempty
      rw [List.eq_nil_of_length_eq_zero hempty] at hiff
      exact hiff.mp (Or.inl hroom) (Or.inr rfl)
    · intro hlength
      have hne : Arg.strg text ≠ .strg [] := by
        intro heq
        cases heq
        exact hlength hroom.symm
      exact ⟨fun _ => not_carries_nil hne, fun _ => Or.inl hroom⟩
  · rw [if_neg hroom, Format.writeAll_cons, Format.writeAll_nil,
      List.append_nil]
    by_cases hshort : text.length < m.room
    · rw [List.take_of_length_le (by omega)]
      refine ⟨fun _ => by omega, fun _ => ?_⟩
      constructor
      · intro hlong
        omega
      · intro hmissing
        exact absurd (Or.inl rfl) hmissing
    · -- the last character in the space gives way to the NUL
      have hmissing := not_carries_take (s := text) (n := m.room - 1)
        (by omega)
      constructor
      · intro hiff
        have hlong := hiff.mpr hmissing
        omega
      · intro hlength
        exact ⟨fun _ => hmissing, fun _ => Or.inr (by omega)⟩

/-- A text that is too long for `snprintf` is missing, and marked. What is
put in its place, a type and a length of 0, is no argument of it. -/
theorem noSilentTruncation_overlong (h : Represents d m)
    (hfull : m.full = false) {text : List UInt8}
    (htext : 2 ^ 31 ≤ text.length) :
    ∃ shown, NoSilentTruncation d (d.writeFormatted none) (.strg text)
      shown := by
  obtain ⟨hclosed, hholds⟩ := h.holds_writeFormatted_none hfull
  have hpayload : (d.writeFormatted none).payload = d.payload
      ++ ((if m.room = 0 then []
        else ofUInt32 (dltTypeInfoStrg ||| dltScodUtf8) ++ ofUInt16 0)
        ++ if (d.writeFormatted none).isFull then
          LogData.messageTooLargeData else []) := by
    rw [hclosed, if_pos rfl, h.payload]
    rw [LogData.payload, hholds.size, hholds.filled]
  apply (noSilentTruncation_of_payload hpayload).mpr
  refine ⟨fun _ => ?_, fun _ => hclosed⟩
  intro hcarries
  rcases hcarries with heq | hempty
  · have hlen := congrArg List.length heq
    rw [Arg.length_write] at hlen
    simp only [Arg.size] at hlen
    split at hlen
    · rw [List.length_nil] at hlen
      omega
    · rw [List.length_append, LittleEndian.length_ofUInt32,
        LittleEndian.length_ofUInt16] at hlen
      omega
  · cases hempty
    simp at htext

/-- Every call leaves nothing out silently, but for a formatted text of
exactly the length of its space. -/
theorem noSilentTruncation_iff {d : LogData} (hd : d.Reachable)
    (hopen : d.isFull = false) {q : Request} {a : Arg}
    (ha : q.arg d.data.hexEnabled = some a) :
    (∃ shown, NoSilentTruncation d (d.request q) a shown)
      ↔ ¬ q.Fills d := by
  obtain ⟨m, hm, hfull⟩ := hd.represents hopen
  have hscalar : ∀ t n, Represents (d.request q)
        (m.putScalar t (BitVec.ofNat (8 * t.bytes) n).toNat) →
      a = .ofNat t n → ¬ q.Fills d →
      ((∃ shown, NoSilentTruncation d (d.request q) a shown)
        ↔ ¬ q.Fills d) := by
    intro t n hput heq hfills
    subst heq
    exact iff_of_true (noSilentTruncation_scalar hm hfull t n hput) hfills
  cases q with
  | overlong text htext =>
      cases ha
      exact iff_of_true (noSilentTruncation_overlong hm hfull htext) id
  | call c =>
      have hcall := hm.call c
      cases c with
      | string v =>
          cases ha
          exact iff_of_true (noSilentTruncation_string hm hfull v hcall) id
      | cString v =>
          cases ha
          exact iff_of_true (noSilentTruncation_string hm hfull _ hcall) id
      | formatted text =>
          cases ha
          rw [Request.Fills, hm.stringSpace_of_open hfull]
          exact noSilentTruncation_formatted_iff hm hfull _ hcall
      | setHexEnabled enabled => cases ha
      | _ =>
          cases ha
          exact hscalar _ _ hcall rfl id

end Simulation

-- ============================================================== a sample

/-- A message nothing was written to. -/
def untouchedMessage : LogData :=
  LogData.fresh (Vector.replicate maxMessageSize 0) 0 sampleInfo 4 true 0

/-- As many characters as the space of a message holds bytes. -/
def fillingText : FormattedText where
  chars := List.replicate 16359 97
  length_lt := by
    rw [List.length_replicate]
    omega

theorem reachable_untouchedMessage :
    @LogData.Reachable documentedDltUser untouchedMessage :=
  @LogData.Reachable.fresh documentedDltUser ..

/-- More characters than that: the text is cut, with the marker behind. -/
def overlongText : FormattedText where
  chars := List.replicate 20000 97
  length_lt := by
    rw [List.length_replicate]
    omega

theorem noSilentTruncation_iff_sample :
    (∃ shown, @NoSilentTruncation documentedConstants untouchedMessage
        (@LogData.request documentedConstants untouchedMessage
          (.call (.formatted overlongText))) (.strg overlongText.chars)
        shown)
      ↔ ¬ (Request.call (.formatted overlongText)).Fills untouchedMessage :=
  @noSilentTruncation_iff documentedDltUser untouchedMessage
    reachable_untouchedMessage rfl (.call (.formatted overlongText)) _ rfl

/-- The last of 16359 characters is lost, and nothing says so. -/
theorem last_character_lost :
    @LogData.Reachable documentedDltUser untouchedMessage
      ∧ untouchedMessage.isFull = false
      ∧ ¬ ∃ shown, @NoSilentTruncation documentedConstants untouchedMessage
        (@LogData.request documentedConstants untouchedMessage
          (.call (.formatted fillingText))) (.strg fillingText.chars)
        shown := by
  refine ⟨reachable_untouchedMessage, rfl, ?_⟩
  let _ := documentedDltUser
  have hm : Represents untouchedMessage {} := represents_fresh ..
  intro hshown
  apply (noSilentTruncation_formatted_iff hm rfl _
    (hm.writeFormatted fillingText)).mp hshown
  show (List.replicate 16359 (97 : UInt8)).length = _
  rw [List.length_replicate]
  rfl

end IviLogging.DltCpp
