/-
What a run leaves of a record.

A text that cannot be printed may take a byte of the content away, and a
level may leave texts out, so behind some run little is known of what a
record has in its content. All the same there is some text in it, and room
behind that; and of the rest only the hex switch has moved, and once the
count of the colours. `Follows` says so of a state behind a run, with the
record and the levels it began with.

That is enough for what comes in the end. The formats, the context and the
severity are what they were, so the text of the suffix is the one that it
would have been at the beginning (`Follows.suffixText_eq`); and how many
characters take no room is known from whether `init` has written the prefix
(`Follows.invisible`).

The frame lemmas follow the source: each function of a record returns it
with another content, and with the length of the colours added.
-/
import IviLogging.Stream.Proofs.Atomicity

namespace IviLogging.Stream

open Printf (Arg printf intMax)

-- ================================================================== pieces

section Pieces

variable {r r' : StreamLogData} {l : Levels} {env : Environment}

/-- A piece changes the content. -/
theorem frame_writeFormatted {format : List UInt8} {args : List Arg}
    (hr : r.writeFormatted l format args = some r') :
    r' = r.withContent r'.content 0 := by
  unfold StreamLogData.writeFormatted at hr
  split at hr
  · obtain ⟨content, _, heq⟩ := Option.map_eq_some_iff.mp hr
    subst heq
    simp only [StreamLogData.withContent, Int.add_zero]
  · cases hr
    simp only [StreamLogData.withContent, Int.add_zero]

/-- A colour is counted, if it is written. -/
theorem frame_writeColor {color : List UInt8}
    (hr : r.writeColor l color = some r') :
    r' = r.withContent r'.content (colored r.context color).length := by
  unfold StreamLogData.writeColor at hr
  unfold colored
  split at hr
  · next hon =>
      obtain ⟨r₁, hwrite, heq⟩ := Option.map_eq_some_iff.mp hr
      have hframe := frame_writeFormatted hwrite
      rw [hframe] at heq
      subst heq
      rw [if_pos hon]
      simp only [StreamLogData.withContent, Int.add_zero]
  · next hoff =>
      cases hr
      rw [if_neg hoff]
      simp only [StreamLogData.withContent, List.length_nil,
        Int.natCast_zero, Int.add_zero]

/-- The prefix with its two colours. -/
theorem frame_writePrefix (hr : r.writePrefix l env = some r') :
    r' = r.withContent r'.content
      (prefixInvisible r.context r.data.level) := by
  unfold StreamLogData.writePrefix at hr
  unfold prefixInvisible
  cases hkind : r.context.kind with
  | file =>
      rw [hkind] at hr
      exact frame_writeFormatted hr
  | console =>
      rw [hkind] at hr
      obtain ⟨r₁, hheader, hr⟩ := Option.bind_eq_some_iff.mp hr
      obtain ⟨r₂, htext, hreset⟩ := Option.bind_eq_some_iff.mp hr
      have h₁ := frame_writeColor hheader
      have h₂ := frame_writeFormatted htext
      have h₃ := frame_writeColor hreset
      rw [h₁, withContent_withContent] at h₂
      rw [h₂, withContent_withContent] at h₃
      simpa only [headerText, resetText, StreamLogData.withContent,
        Int.add_zero] using h₃

/-- There is a text in the content behind the prefix, whatever became of its
pieces. -/
theorem sound_writePrefix (h : Sound r)
    (hr : r.writePrefix l env = some r') : Sound r' := by
  unfold StreamLogData.writePrefix at hr
  split at hr
  · obtain ⟨r₁, hheader, hr⟩ := Option.bind_eq_some_iff.mp hr
    obtain ⟨r₂, htext, hreset⟩ := Option.bind_eq_some_iff.mp hr
    have h₂ := sound_writeFormatted (sound_writeColor h hheader) htext
    exact sound_writeColor h₂ hreset
  · exact sound_writeFormatted h hr

end Pieces

-- ==================================================================== runs

/-- What is left of the record `r` behind a run that began with the levels
`l`. -/
structure Follows (r : StreamLogData) (l : Levels) (as : List Action)
    (u : State) : Prop where
  levels : u.levels = levelsAfter l as
  frame : ∃ hex, u.record = (r.withContent u.record.content
    (startInvisible r.context r.data.level l)).written u.record.content hex
  sound : Sound u.record

/-- Behind `init` and some actions, of which each may have been left out or
cut. -/
theorem after_follows {r : StreamLogData} {l : Levels} {env : Environment}
    {as : List Action} {u : State} (h : Sound r)
    (hu : r.after l env as = some u) : Follows r l as u := by
  obtain ⟨r₁, hinit, hrun⟩ := Option.bind_eq_some_iff.mp hu
  -- `init` writes the prefix or does nothing
  have hstart : Sound r₁ ∧ r₁ = r.withContent r₁.content
      (startInvisible r.context r.data.level l) := by
    unfold StreamLogData.init at hinit
    unfold startInvisible
    by_cases hen : r.isEnabled l = true
    · have hcount : l.isEnabled r.context.kind r.data.level = true := hen
      rw [if_pos hen] at hinit
      rw [if_pos hcount]
      exact ⟨sound_writePrefix h hinit, frame_writePrefix hinit⟩
    · have hcount : ¬ l.isEnabled r.context.kind r.data.level = true := hen
      rw [if_neg hen] at hinit
      cases hinit
      rw [if_neg hcount]
      refine ⟨h, ?_⟩
      simp only [StreamLogData.withContent, Int.add_zero]
  obtain ⟨hsound, hframe⟩ := hstart
  obtain ⟨t, hholds⟩ := hsound
  obtain ⟨hlast, hends⟩ := run_ends (s := ⟨l, r₁⟩) hholds hrun
  obtain ⟨hex, hlast⟩ := hlast
  refine ⟨by rw [hlast], ⟨hex, ?_⟩, hends.exists_holds⟩
  have hrecord := congrArg State.record hlast
  rw [hframe] at hrecord
  exact hrecord

namespace Follows

variable {r : StreamLogData} {l : Levels} {as : List Action} {u : State}

theorem context (h : Follows r l as u) :
    u.record.context = r.context := by
  obtain ⟨hex, hframe⟩ := h.frame
  rw [hframe]
  rfl

theorem level (h : Follows r l as u) :
    u.record.data.level = r.data.level := by
  obtain ⟨hex, hframe⟩ := h.frame
  rw [hframe]
  rfl

theorem invisible (h : Follows r l as u) :
    u.record.invisibleCharacterCount = r.invisibleCharacterCount
      + startInvisible r.context r.data.level l := by
  obtain ⟨hex, hframe⟩ := h.frame
  rw [hframe]
  rfl

/-- The suffix says of a record what it said in the beginning. -/
theorem suffixText_eq (h : Follows r l as u) (env : Environment) :
    suffixText u.record env = suffixText r env := by
  obtain ⟨hex, hframe⟩ := h.frame
  rw [hframe]
  rfl

end Follows

/-- A record begins without a text. -/
theorem sound_fresh (memory : StaticData) (context : StreamLogContext)
    (data : LogInfo) (prefixFormat suffixFormat : List UInt8) :
    Sound (((StreamLogData.fresh memory context data).setPrefixFormat
      prefixFormat).setSuffixFormat suffixFormat) :=
  ⟨[], ByteArray.Holds.fresh memory⟩

end IviLogging.Stream
