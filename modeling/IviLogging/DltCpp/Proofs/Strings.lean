/-
Two ways to write a string: `write` and `writeFormatted("%s", …)`.

# The same message

The two encoders copy in different orders: `write` puts down the type, the
length and the text one behind the other, `writeFormatted` leaves a gap for
the length, lets `snprintf` store the text behind it, and fills the gap
when it knows the length. As bytes this is one copy in both cases
(`writeBuffer_writeBuffer`, `reserve_patch`), so that a string with room to
spare gives the same message (`writeString_eq_writeFormatted`). The empty
string is the exception: it is an argument of `writeFormatted` and none of
`write`. With room for the string that is the only one (`sameMessage_iff`).

# Characters

Both cut by bytes and mark the argument as UTF-8 whatever the cut leaves.
What they place of a UTF-8 text is UTF-8 exactly if the cut is at the
boundary of a character (`placesUtf8_iff`). The space of a formatted text
counts one byte less here, since it has the NUL in it. A call that places
no string argument, because the message is full or `snprintf` fails, places
none that is wrong (`placesUtf8_of_short`).
-/
import IviLogging.DltCpp.Proofs.Truncation
import IviLogging.Lib.Utf8

namespace IviLogging.DltCpp

open DltConstants
open LittleEndian (ofUInt16 ofUInt32)

-- =============================================== messages and characters

/-- The array and its counters are the same. -/
structure SameMessage (d d' : LogData) : Prop where
  content : d.content = d'.content
  contentSize : d.contentSize = d'.contentSize
  argsCount : d.argsCount = d'.argsCount
  isFull : d.isFull = d'.isFull

section Messages

variable [DltConstants]

/-- `writeFormatted("%s", s)`. -/
def LogData.writeFormattedString (d : LogData) (s : List UInt8) :
    Option LogData :=
  d.writeFormat (ascii ['%', 's']) [.string (s ++ [0])]

/-- The marker of a message that a call closed. -/
def LogData.closing (d d' : LogData) : List UInt8 :=
  if d'.isFull && !d.isFull then messageTooLargeData else []

/-- A string argument that a call put behind the payload is UTF-8. -/
def PlacesUtf8 (d d' : LogData) : Prop :=
  ∀ u, d'.payload = d.payload ++ ((Arg.strg u).write ++ d.closing d') →
    Utf8.Valid u

/-- The outcome of `"%s"`. -/
theorem LogData.writeFormattedString_eq (d : LogData) (s : List UInt8) :
    d.writeFormattedString s = some (d.writeFormatted
      (if h : (cText s).length < 2 ^ 31 then some ⟨cText s, h⟩ else none)) := by
  have hprintf : Printf.printf (ascii ['%', 's']) [.string (s ++ [0])]
      = some (cText s) := Printf.printf_string_append s []
  have hmax : Printf.intMax = 2 ^ 31 - 1 := rfl
  unfold writeFormattedString writeFormat Printf.snprintf
  rw [hprintf, Option.map_some, Option.map_some]
  by_cases hshort : (cText s).length < 2 ^ 31
  · rw [if_pos (by omega), dif_pos hshort]
    simp only [FormattedText.ofOutcome, dif_pos hshort]
  · rw [if_neg (by omega), dif_neg hshort]
    rfl

end Messages

-- ================================================================= copies

namespace LogData

/-- Two copies are one. -/
theorem writeBuffer_writeBuffer {d : LogData} (hfull : d.isFull = false)
    (a b : List UInt8) (h : d.contentSize + a.length ≤ d.content.length) :
    (d.writeBuffer a).writeBuffer b = d.writeBuffer (a ++ b) := by
  simp only [writeBuffer, hfull, Bool.not_false, if_true]
  rw [Buffer.write_append b h, List.length_append, Nat.add_assoc]

/-- A copy behind a reserved length that is patched afterwards. -/
theorem reserve_patch {d : LogData} (hfull : d.isFull = false)
    (length : UInt16) (b : List UInt8)
    (h : d.contentSize + 2 ≤ d.content.length) :
    ({ d.reserve with
      content := Buffer.write
        (Buffer.write d.content (d.contentSize + 2) b) d.contentSize
        (ofUInt16 length)
      contentSize := d.contentSize + 2 + b.length } : LogData)
      = d.writeBuffer (ofUInt16 length ++ b) := by
  have hpatch := @Buffer.write_write _ d.content (ofUInt16 length)
    d.contentSize b (by rw [LittleEndian.length_ofUInt16]; exact h)
  rw [LittleEndian.length_ofUInt16] at hpatch
  simp only [writeBuffer, hfull, Bool.not_false, if_true, reserve]
  rw [hpatch, List.length_append, LittleEndian.length_ofUInt16,
    Nat.add_assoc]

end LogData

section Simulation

variable [DltUser] {d d' : LogData} {m : Message}

/-- A nonempty string that leaves a byte of its space. Both writers put the
type, and behind it the copies of length, text and NUL are one copy: one
makes them one behind the other, and the other one steps over the length
and patches it in. -/
theorem writeString_eq_writeFormatted (h : Represents d m)
    (hfull : m.full = false) (text : FormattedText)
    (hne : text.chars ≠ []) (hroom : text.chars.length < m.room) :
    d.writeString text.chars = d.writeFormatted (some text) := by
  have hd : d.isFull = false := by rw [h.isFull, hfull]
  have hdef : m.room = maxContentSize - (m.size + 7) := rfl
  have hmax : maxContentSize = 16366 := rfl
  have hmsg : maxMessageSize = 16384 := rfl
  have hpos := List.length_pos_of_ne_nil hne
  have hlong := text.length_lt
  have hlen := length_writeAll m
  have htype := h.holds.writeType hd (dltTypeInfoStrg ||| dltScodUtf8)
    (by omega)
  have hopen : (d.writeType (dltTypeInfoStrg ||| dltScodUtf8)).isFull
      = false := (LogData.isFull_writeType d _).trans hd
  have hsize := htype.size
  rw [List.length_append, LittleEndian.length_ofUInt32] at hsize
  have hinside : ∀ n, n ≤ text.chars.length + 3 →
      (d.writeType (dltTypeInfoStrg ||| dltScodUtf8)).contentSize + n
        ≤ (d.writeType (dltTypeInfoStrg ||| dltScodUtf8)).content.length := by
    intro n hn
    rw [htype.length]
    omega
  have hresult : min ((LogData.snprintfResult (some text) + 1) % 2 ^ 64)
      m.room = text.chars.length + 1 := by
    show min ((text.chars.length + 1) % 2 ^ 64) m.room = _
    omega
  have hstored : LogData.snprintfStored m.room (some text)
      = text.chars ++ [0] := by
    show (if m.room = 0 then [] else text.chars.take (m.room - 1) ++ [0]) = _
    rw [if_neg (by omega), List.take_of_length_le (by omega)]
  have hover : decide (m.room < LogData.snprintfResult (some text))
      = false := by
    apply decide_eq_false
    show ¬ m.room < text.chars.length
    omega
  have hword : UInt16.ofNat text.chars.length + 1
      = UInt16.ofNat (text.chars.length + 1) := by simp
  unfold LogData.writeString LogData.writeFormatted
  rw [h.stringSpace_of_open hfull, Nat.min_eq_left (Nat.le_of_lt hroom)]
  simp only [if_pos hpos, if_neg (Nat.lt_irrefl _), List.take_length,
    if_pos (Nat.lt_of_le_of_lt (Nat.zero_le _) hroom), hresult, hstored,
    hover, Bool.false_eq_true, if_false, hword]
  -- both are the copy of length, text and NUL
  have htwo : (ofUInt16 (UInt16.ofNat (text.chars.length + 1))).length
      ≤ text.chars.length + 3 := by
    rw [LittleEndian.length_ofUInt16]
    omega
  have hboth : (ofUInt16 (UInt16.ofNat (text.chars.length + 1))
      ++ text.chars).length ≤ text.chars.length + 3 := by
    rw [List.length_append, LittleEndian.length_ofUInt16]
    omega
  rw [LogData.writeBuffer_writeBuffer hopen _ _ (hinside _ htwo),
    LogData.writeBuffer_writeBuffer hopen _ _ (hinside _ hboth),
    List.append_assoc]
  have hpatch := LogData.reserve_patch hopen
    (UInt16.ofNat (text.chars.length + 1)) (text.chars ++ [0])
    (hinside 2 (by omega))
  rw [List.length_append, List.length_singleton] at hpatch
  exact hpatch.symm

/-- The empty string is an argument of `writeFormatted` and none of
`write`. -/
theorem not_sameMessage_nil (h : Represents d m) (hfull : m.full = false)
    (hshort : ([] : List UInt8).length < 2 ^ 31) (hroom : m.room ≠ 0) :
    ¬ SameMessage (d.writeString [])
      (d.writeFormatted (some ⟨[], hshort⟩)) := by
  intro hsame
  have hleft := (h.writeString []).argsCount
  have hright := (h.writeFormatted ⟨[], hshort⟩).argsCount
  have hcount := hleft.symm.trans (hsame.argsCount.trans hright)
  simp [Message.putString, Message.putFormatted, hfull, hroom,
    Message.add] at hcount

/-- `write` and `writeFormatted("%s")` leave the same message, but for the
empty string. -/
theorem sameMessage_iff {d : LogData} (hd : d.Reachable)
    (hopen : d.isFull = false) {s : List UInt8} (hzero : 0 ∉ s)
    (hs : s.length + 7 < maxContentSize - d.contentSize) :
    (∃ d', d.writeFormattedString s = some d'
        ∧ SameMessage (d.writeString s) d')
      ↔ s ≠ [] := by
  have htext : cText s = s := Printf.takeWhile_eq_self hzero
  have hmax : maxContentSize = 16366 := rfl
  have hshort : s.length < 2 ^ 31 := by omega
  obtain ⟨m, hm, hfull⟩ := hd.represents hopen
  have hroom : s.length < m.room := by
    show s.length < maxContentSize - (m.size + 7)
    rw [← hm.contentSize]
    omega
  rw [LogData.writeFormattedString_eq, htext, dif_pos hshort]
  by_cases hne : s = []
  · subst hne
    refine ⟨?_, fun hcon => absurd rfl hcon⟩
    intro hsame
    obtain ⟨d', hd', hsame⟩ := hsame
    cases hd'
    exact absurd hsame (not_sameMessage_nil hm hfull hshort
      (Nat.ne_of_gt hroom))
  · refine ⟨fun _ => hne, fun _ => ⟨_, rfl, ?_⟩⟩
    have heq := writeString_eq_writeFormatted hm hfull ⟨s, hshort⟩ hne hroom
    have hstring : d.writeString s = _ := heq
    rw [hstring]
    exact ⟨rfl, rfl, rfl, rfl⟩

end Simulation

/-- The string of one character. -/
theorem sameMessage_iff_sample :
    (∃ d', @LogData.writeFormattedString documentedConstants
          untouchedMessage [65] = some d'
        ∧ SameMessage (@LogData.writeString documentedConstants
          untouchedMessage [65]) d')
      ↔ [(65 : UInt8)] ≠ [] :=
  @sameMessage_iff documentedDltUser untouchedMessage
    reachable_untouchedMessage rfl _ (by decide) (by
      show 1 + 7 < maxContentSize - 0
      decide)

/-- `write("")` and `writeFormatted("%s", "")`. -/
theorem empty_string_dropped :
    @LogData.Reachable documentedDltUser untouchedMessage
      ∧ untouchedMessage.isFull = false
      ∧ 0 + 7 < maxContentSize - untouchedMessage.contentSize
      ∧ ¬ ∃ d', @LogData.writeFormattedString documentedConstants
            untouchedMessage [] = some d'
          ∧ SameMessage (@LogData.writeString documentedConstants
            untouchedMessage []) d' := by
  refine ⟨reachable_untouchedMessage, rfl, ?_, ?_⟩
  · show 0 + 7 < maxContentSize - 0
    decide
  · let _ := documentedDltUser
    intro hsame
    obtain ⟨d', hd', hsame⟩ := hsame
    cases hd'
    have hm : Represents untouchedMessage {} := represents_fresh ..
    exact not_sameMessage_nil hm rfl (by decide) (by decide) hsame

-- ================================================================= cuts

section Cuts

variable [DltConstants] {d d' : LogData}

/-- A string argument has one text. -/
theorem Arg.strg_of_write {u v : List UInt8}
    (h : (Arg.strg u).write = (Arg.strg v).write) : u = v := by
  have hlen := congrArg List.length h
  simp only [Arg.length_write, Arg.size] at hlen
  have htail : (u ++ [0]).length = (v ++ [0]).length := by
    simp only [List.length_append, List.length_singleton]
    omega
  have hboth := (List.append_inj' h htail).2
  exact List.append_cancel_right hboth

/-- What was placed is that text. -/
theorem placesUtf8_of_placed {v : List UInt8}
    (hpayload : d'.payload
      = d.payload ++ ((Arg.strg v).write ++ d.closing d')) :
    PlacesUtf8 d d' ↔ Utf8.Valid v := by
  constructor
  · intro h
    exact h v hpayload
  · intro hvalid u hu
    have hboth := List.append_cancel_left (hu.symm.trans hpayload)
    rw [Arg.strg_of_write (List.append_cancel_right hboth)]
    exact hvalid

/-- Too few bytes for an argument are none. -/
theorem placesUtf8_of_short (shown : List UInt8) (hshown : shown.length < 7)
    (hpayload : d'.payload = d.payload ++ (shown ++ d.closing d')) :
    PlacesUtf8 d d' := by
  intro u hu
  have hboth := List.append_cancel_left (hu.symm.trans hpayload)
  have hlen := congrArg List.length (List.append_cancel_right hboth)
  rw [Arg.length_write] at hlen
  simp only [Arg.size, sizeofDltTypeInfo, sizeofDltStringLengthType] at hlen
  omega

/-- The marker behind an open message is there if the call closed it. -/
theorem closing_of_open (hopen : d.isFull = false) :
    d.closing d' = if d'.isFull then LogData.messageTooLargeData else [] := by
  rw [LogData.closing, hopen, Bool.not_false, Bool.and_true]

/-- A call that leaves a full message alone places nothing. -/
theorem placesUtf8_of_full (hfull : d.isFull = true) : PlacesUtf8 d d := by
  apply placesUtf8_of_short [] (by simp)
  simp [LogData.closing, hfull]

end Cuts

section Utf8

variable [DltUser] {d d' : LogData} {m : Message}

/-- `write` cuts behind as many bytes as there are. -/
theorem placesUtf8_writeString (h : Represents d m) (hfull : m.full = false)
    {s : List UInt8} (hs : Utf8.Valid s) :
    PlacesUtf8 d (d.writeString s) ↔ Utf8.Boundary s m.room := by
  have hd : d.isFull = false := h.isFull.trans hfull
  have hadded := (Message.putString_added hfull s).1
  have hpayload := payload_of_added h (h.writeString s) hadded
  rw [← closing_of_open hd] at hpayload
  -- nothing is placed, and nothing is cut
  by_cases hnone : s = [] ∨ m.room = 0
  · rw [if_pos hnone] at hpayload
    refine iff_of_true (placesUtf8_of_short _ (by simp) hpayload) ?_
    rcases hnone with hempty | hroom
    · rw [hempty]
      exact Or.inl (Nat.zero_le _)
    · rw [hroom]
      exact Utf8.boundary_zero hs
  · rw [if_neg hnone, Format.writeAll_cons, Format.writeAll_nil,
      List.append_nil] at hpayload
    rw [placesUtf8_of_placed hpayload, Utf8.valid_take_iff hs]

/-- `writeFormatted` cuts one byte earlier. -/
theorem placesUtf8_writeFormatted (h : Represents d m)
    (hfull : m.full = false) {text : FormattedText}
    (htext : Utf8.Valid text.chars) :
    PlacesUtf8 d (d.writeFormatted (some text))
      ↔ Utf8.Boundary text.chars (m.room - 1) := by
  have hd : d.isFull = false := h.isFull.trans hfull
  have hadded := (Message.putFormatted_added hfull text.chars).1
  have hpayload := payload_of_added h (h.writeFormatted text) hadded
  rw [← closing_of_open hd] at hpayload
  by_cases hroom : m.room = 0
  · rw [if_pos hroom] at hpayload
    refine iff_of_true (placesUtf8_of_short _ (by simp) hpayload) ?_
    rw [hroom]
    exact Utf8.boundary_zero htext
  · rw [if_neg hroom, Format.writeAll_cons, Format.writeAll_nil,
      List.append_nil] at hpayload
    rw [placesUtf8_of_placed hpayload, Utf8.valid_take_iff htext]

/-- A formatting that fails places no text. -/
theorem placesUtf8_writeFormatted_none (h : Represents d m)
    (hfull : m.full = false) : PlacesUtf8 d (d.writeFormatted none) := by
  have hd : d.isFull = false := h.isFull.trans hfull
  obtain ⟨hclosed, hholds⟩ := h.holds_writeFormatted_none hfull
  apply placesUtf8_of_short (if m.room = 0 then []
    else ofUInt32 (dltTypeInfoStrg ||| dltScodUtf8) ++ ofUInt16 0)
  · split
    · simp
    · simp
  · rw [closing_of_open hd, hclosed, if_pos rfl, h.payload]
    rw [LogData.payload, hholds.size, hholds.filled]

/-- What the encoders place of a UTF-8 text is UTF-8 exactly if they do
not cut a character; a formatted text that is too long for `snprintf` is
not placed at all. -/
theorem placesUtf8_iff {d : LogData} (hd : d.Reachable) {s : List UInt8}
    (hs : Utf8.Valid s) :
    (PlacesUtf8 d (d.writeString s)
        ↔ Utf8.Boundary s (d.getAvailableSpace
          (sizeofDltStringLengthType + sizeofDltTypeInfo + 1)))
      ∧ ∃ d', d.writeFormattedString s = some d'
        ∧ (PlacesUtf8 d d'
          ↔ 2 ^ 31 ≤ (cText s).length
            ∨ Utf8.Boundary (cText s) (d.getAvailableSpace
              (sizeofDltStringLengthType + sizeofDltTypeInfo + 1) - 1)) := by
  have htext : Utf8.Valid (cText s) := Utf8.valid_takeWhile hs
  rw [LogData.writeFormattedString_eq]
  cases hopen : d.isFull with
  | true =>
      rw [LogData.getAvailableSpace_of_full hopen,
        LogData.writeString_of_full hopen, LogData.writeFormatted_of_full hopen]
      have hnothing := placesUtf8_of_full hopen
      refine ⟨iff_of_true hnothing (Utf8.boundary_zero hs), _, rfl, ?_⟩
      exact iff_of_true hnothing (Or.inr (Utf8.boundary_zero htext))
  | false =>
      obtain ⟨m, hm, hfull⟩ := hd.represents hopen
      rw [hm.stringSpace_of_open hfull]
      refine ⟨placesUtf8_writeString hm hfull hs, _, rfl, ?_⟩
      by_cases hshort : (cText s).length < 2 ^ 31
      · rw [dif_pos hshort]
        rw [placesUtf8_writeFormatted hm hfull htext]
        refine ⟨Or.inr, fun hcut => ?_⟩
        rcases hcut with hlong | hboundary
        · omega
        · exact hboundary
      · rw [dif_neg hshort]
        exact iff_of_true (placesUtf8_writeFormatted_none hm hfull)
          (Or.inl (by omega))

end Utf8

/-- An umlaut in a message with room. -/
theorem placesUtf8_iff_sample :
    (@PlacesUtf8 documentedConstants untouchedMessage
          (@LogData.writeString documentedConstants untouchedMessage
            [195, 164])
        ↔ Utf8.Boundary [195, 164] (untouchedMessage.getAvailableSpace 7))
      ∧ ∃ d', @LogData.writeFormattedString documentedConstants
            untouchedMessage [195, 164] = some d'
        ∧ (@PlacesUtf8 documentedConstants untouchedMessage d'
          ↔ 2 ^ 31 ≤ (cText [195, 164]).length
            ∨ Utf8.Boundary (cText [195, 164])
              (untouchedMessage.getAvailableSpace 7 - 1)) :=
  @placesUtf8_iff documentedDltUser untouchedMessage
    reachable_untouchedMessage _ (Utf8.valid_encode [Char.ofNat 228])

/-- Some characters of one byte and one of two. -/
def umlautBehind (n : Nat) : List UInt8 := List.replicate n 97 ++ [195, 164]

/-- It is UTF-8, -/
theorem valid_umlautBehind (n : Nat) : Utf8.Valid (umlautBehind n) := by
  have hencode := Utf8.valid_encode
    (List.replicate n 'a' ++ [Char.ofNat 228])
  rw [List.flatMap_append, List.flatMap_replicate] at hencode
  have hone : String.utf8EncodeChar 'a' = [97] := rfl
  rw [hone, List.flatten_replicate_singleton] at hencode
  exact hencode

/-- and in the middle of its last character it has no boundary. -/
theorem not_boundary_umlautBehind (n : Nat) :
    ¬ Utf8.Boundary (umlautBehind n) (n + 1) := by
  have hlen : (umlautBehind n).length = n + 2 := by simp [umlautBehind]
  intro hboundary
  rcases hboundary with hle | hfirst
  · omega
  · obtain ⟨hlt, hfirst⟩ := hfirst
    have hlast : (umlautBehind n)[n + 1] = 164 := by simp [umlautBehind]
    rw [hlast] at hfirst
    revert hfirst
    decide

/-- The cut goes through the last character. -/
theorem character_cut :
    @LogData.Reachable documentedDltUser untouchedMessage
      ∧ Utf8.Valid (umlautBehind 16358)
      ∧ ¬ @PlacesUtf8 documentedConstants untouchedMessage
        (@LogData.writeString documentedConstants untouchedMessage
          (umlautBehind 16358)) := by
  refine ⟨reachable_untouchedMessage, valid_umlautBehind _, ?_⟩
  let _ := documentedDltUser
  have hm : Represents untouchedMessage {} := represents_fresh ..
  have hroom : ({} : Message).room = 16358 + 1 := rfl
  intro hplaces
  have hcut := (placesUtf8_writeString hm rfl (valid_umlautBehind _)).mp
    hplaces
  rw [hroom] at hcut
  exact not_boundary_umlautBehind _ hcut

end IviLogging.DltCpp
