/-
All of a record or nothing.

Whether a record is enabled is asked again for every piece of it, so a
level that is set meanwhile takes pieces out of it: a record that is
printed has the pieces that were written while its severity was enabled.
When is that all of them?

# The pieces

`Ends` says of a content what became of some pieces, with the condition
under which it is all of them; without the condition it is shorter than all
of them. Lengths are what carries it: a piece that is left out, cut, or
takes a byte away leaves the content too short for good, as no later piece
puts more there than its own text. So whether the content is the whole is
the same as the condition (`Ends.contents_iff`), and conditions add up
(`Ends.append`). `Adds` says so of a record.

The prefix has its condition (`PrefixKept`), and each action (`Kept`): it
has no text, or the severity is enabled and the text can be printed whole.
A run adds them up (`run_ends`).

# The flush

What is handed over is the content, with what the suffix puts behind it, if
the severity is enabled then and there is a file (`output_of_enabled`). Else
nothing is printed, and that is all right too. So what is printed is the
whole line or nothing exactly if nothing is, or each piece was kept
(`atomic_iff`).
-/
import IviLogging.Stream.Proofs.Content

namespace IviLogging.Stream

open Printf (printf cString intMax)

-- =========================================================== all or nothing

/-- A value is printed as its whole text. -/
def WriteCall.Printable (hex : Bool) (c : WriteCall) : Prop :=
  c.Whole ∧ (c.text hex).length ≤ intMax

/-- What an action has to say is said: it has no text, or the severity is
enabled. -/
def Action.Kept (kind : Kind) (severity : LogLevel) (l : Levels)
    (hex : Bool) : Action → Prop
  | .write c => c.text hex = []
      ∨ l.isEnabled kind severity = true ∧ c.Printable hex
  | _ => True

/-- So it is for some actions. -/
def Kept (kind : Kind) (severity : LogLevel) :
    Levels → Bool → List Action → Prop
  | _, _, [] => True
  | l, hex, a :: as => a.Kept kind severity l hex
      ∧ Kept kind severity (a.levels l) (a.hexEnabled hex) as

/-- And for the prefix. -/
def PrefixKept (context : StreamLogContext) (severity : LogLevel)
    (l : Levels) (p : List UInt8) : Prop :=
  linePrefix context severity p = []
    ∨ l.isEnabled context.kind severity = true ∧ p.length ≤ intMax

/-- Nothing is printed, or the whole text and what the suffix puts behind
it. -/
def AllOrNothing (env : Environment) (u : State) (whole : List UInt8)
    (out : Option (OutputFile × List UInt8)) : Prop :=
  out = none
    ∨ u.record.content.contents = whole
      ∧ ∃ r, u.record.writeSuffix u.levels env = some r
        ∧ out.map Prod.snd = cString (r.content.contents ++ [0])

-- ================================================================= endings

/-- A content that had the text `t` has the text `u` behind it, or lacks
some of it. What it has instead does not matter, only that it is shorter. -/
def Ends (t u : List UInt8) (P : Prop) (a : ByteArray) : Prop :=
  ∃ t', a.Holds t' ∧ (P → t' = t ++ u)
    ∧ (¬ P → t'.length < t.length + u.length)

namespace Ends

variable {t u v : List UInt8} {P Q : Prop} {a b : ByteArray}

theorem of_holds (h : a.Holds (t ++ u)) : Ends t u True a :=
  ⟨t ++ u, h, fun _ => rfl, fun hnot => absurd True.intro hnot⟩

theorem nothing (h : a.Holds t) : Ends t [] True a :=
  of_holds (by rwa [List.append_nil])

theorem congr (h : Ends t u P a) (hiff : P ↔ Q) : Ends t u Q a := by
  rw [← propext hiff]
  exact h

/-- Some pieces, and some more. -/
theorem append (h : Ends t u P a) (hnext : ∀ t', a.Holds t' → Ends t' v Q b) :
    Ends t (u ++ v) (P ∧ Q) b := by
  obtain ⟨t', hholds, hwhole, hshort⟩ := h
  obtain ⟨t'', hholds', hwhole', hshort'⟩ := hnext t' hholds
  refine ⟨t'', hholds', ?_, ?_⟩
  · intro hboth
    obtain ⟨hP, hQ⟩ := hboth
    rw [hwhole' hQ, hwhole hP, List.append_assoc]
  · intro hnot
    -- the first pieces make up for nothing that the others lack
    have hle : t'.length ≤ t.length + u.length := by
      by_cases hP : P
      · rw [hwhole hP, List.length_append]
      · exact Nat.le_of_lt (hshort hP)
    rw [List.length_append]
    by_cases hQ : Q
    · have hlt := hshort fun hP => hnot ⟨hP, hQ⟩
      rw [hwhole' hQ, List.length_append]
      omega
    · have hlt := hshort' hQ
      omega

/-- Whatever it is, it is some text. -/
theorem exists_holds (h : Ends t u P a) : ∃ t', a.Holds t' := by
  obtain ⟨t', hholds, _⟩ := h
  exact ⟨t', hholds⟩

/-- A piece that is written as the severity is enabled. -/
theorem kept (h : Ends t u P a) (hQ : Q) (hnone : u = [] → P) :
    Ends t u (u = [] ∨ Q ∧ P) a := by
  apply h.congr
  constructor
  · intro hP
    exact Or.inr ⟨hQ, hP⟩
  · intro hkept
    rcases hkept with hempty | hkept
    · exact hnone hempty
    · exact hkept.2

/-- One that is left out as it is not. -/
theorem skipped (h : a.Holds t) (hQ : ¬ Q) :
    Ends t u (u = [] ∨ Q ∧ P) a := by
  refine ⟨t, h, ?_, ?_⟩
  · intro hkept
    rcases hkept with hempty | hkept
    · rw [hempty, List.append_nil]
    · exact absurd hkept.1 hQ
  · intro hnot
    have hpos := List.length_pos_of_ne_nil fun hempty =>
      hnot (Or.inl hempty)
    omega

/-- What lacks some of the text is another one. -/
theorem contents_iff (h : Ends t u P a) : a.contents = t ++ u ↔ P := by
  obtain ⟨t', hholds, hwhole, hshort⟩ := h
  rw [hholds.contents]
  constructor
  · intro heq
    by_contra hnot
    have hlt := hshort hnot
    rw [heq, List.length_append] at hlt
    omega
  · exact hwhole

end Ends

/-- A record that got some text, as far as it could be printed. -/
structure Adds (r : StreamLogData) (t u : List UInt8) (P : Prop)
    (r' : StreamLogData) : Prop where
  frame : ∃ k, r' = r.withContent r'.content k
  ends : Ends t u P r'.content

namespace Adds

variable {r r' r'' : StreamLogData} {t u v : List UInt8} {P Q : Prop}

/-- What is known to append its text has added it. -/
theorem of_appends {k : Int} (h : Appends r t u k (some r')) :
    Adds r t u True r' :=
  ⟨⟨k, h.eq_some.1⟩, Ends.of_holds h.eq_some.2⟩

theorem congr (h : Adds r t u P r') (hiff : P ↔ Q) : Adds r t u Q r' :=
  ⟨h.frame, h.ends.congr hiff⟩

theorem context (h : Adds r t u P r') : r'.context = r.context := by
  obtain ⟨k, hframe⟩ := h.frame
  rw [hframe]
  rfl

theorem data (h : Adds r t u P r') : r'.data = r.data := by
  obtain ⟨k, hframe⟩ := h.frame
  rw [hframe]
  rfl

theorem prefixFormat (h : Adds r t u P r') :
    r'.prefixFormat = r.prefixFormat := by
  obtain ⟨k, hframe⟩ := h.frame
  rw [hframe]
  rfl

theorem isEnabled (h : Adds r t u P r') (l : Levels) :
    r'.isEnabled l = r.isEnabled l := by
  unfold StreamLogData.isEnabled
  rw [h.context, h.data]

theorem prefixArgs (h : Adds r t u P r') (env : Environment) :
    r'.prefixArgs env = r.prefixArgs env := by
  unfold StreamLogData.prefixArgs
  rw [h.context, h.data]

/-- One piece after the other. -/
theorem append (h : Adds r t u P r')
    (hnext : ∀ t', r'.content.Holds t' → Adds r' t' v Q r'') :
    Adds r t (u ++ v) (P ∧ Q) r'' := by
  refine ⟨?_, h.ends.append fun t' hholds => (hnext t' hholds).ends⟩
  obtain ⟨t', hholds⟩ := h.ends.exists_holds
  obtain ⟨k, hframe⟩ := h.frame
  obtain ⟨k', hframe'⟩ := (hnext t' hholds).frame
  rw [hframe, withContent_withContent] at hframe'
  exact ⟨k + k', hframe'⟩

end Adds

-- ================================================================== pieces

section Pieces

variable {r r' : StreamLogData} {l : Levels} {env : Environment}
  {t p : List UInt8}

/-- One piece of an enabled record. -/
theorem writeFormatted_eq_some {format : List UInt8}
    {args : List Printf.Arg} (h : r.content.Holds t)
    (hen : r.isEnabled l = true)
    (hr : r.writeFormatted l format args = some r') :
    r' = r.withContent r'.content 0
      ∧ ∃ u, printf format args = some u
        ∧ (u.length < intMax ∧ r'.content.Holds (t ++ u)
          ∨ intMax < u.length ∧ r'.content.Holds t.dropLast) := by
  unfold StreamLogData.writeFormatted at hr
  rw [if_pos hen] at hr
  obtain ⟨content, hcontent, heq⟩ := Option.map_eq_some_iff.mp hr
  subst heq
  obtain ⟨u, hu, hpiece⟩ := h.writeFormatted_eq_some hcontent
  refine ⟨?_, u, hu, ?_⟩
  · simp only [StreamLogData.withContent, Int.add_zero]
  · rcases hpiece with hpiece | hpiece
    · exact Or.inl ⟨hpiece.1, hpiece.2.1⟩
    · exact Or.inr ⟨hpiece.1, hpiece.2.2⟩

/-- A value, as far as it is printed: all of its text, a beginning of it, or
nothing and a byte less than before. -/
theorem write_ends {c : WriteCall} (h : r.content.Holds t)
    (hen : r.isEnabled l = true)
    (hvalue : ∀ enabled, c ≠ .setHexEnabled enabled)
    (hr : r.write l c = some r') :
    r' = r.withContent r'.content 0
      ∧ Ends t (c.text r.data.hexEnabled) (c.Printable r.data.hexEnabled)
        r'.content
      ∧ (c.text r.data.hexEnabled = [] → c.Printable r.data.hexEnabled) := by
  obtain ⟨format, args, hwrite, hwhole, hcut⟩ := prints r l hvalue
  rw [hwrite] at hr
  obtain ⟨hframe, u, hu, hpiece⟩ := writeFormatted_eq_some h hen hr
  obtain ⟨hle, hall⟩ := hcut u hu
  have hlength := hle.length_le
  -- no text is printed whole by printing nothing
  have hnone : c.text r.data.hexEnabled = [] →
      c.Printable r.data.hexEnabled := by
    intro hempty
    rw [hempty] at hle
    refine ⟨hall (by rw [List.prefix_nil.mp hle, hempty]), ?_⟩
    rw [hempty]
    exact Nat.zero_le _
  refine ⟨hframe, ?_, hnone⟩
  rcases hpiece with hpiece | hpiece
  · obtain ⟨hshort, hholds⟩ := hpiece
    refine ⟨t ++ u, hholds, ?_, ?_⟩
    · intro hprintable
      rw [hwhole hprintable.1] at hu
      cases hu
      rfl
    · intro hnot
      have hne : u ≠ c.text r.data.hexEnabled := by
        intro heq
        exact hnot ⟨hall heq, heq ▸ Nat.le_of_lt hshort⟩
      -- a beginning that is not the whole is shorter
      have hlt : u.length < (c.text r.data.hexEnabled).length := by
        apply Nat.lt_of_le_of_ne hlength
        intro heq
        exact hne (hle.eq_of_length heq)
      rw [List.length_append]
      omega
  · obtain ⟨hlong, hholds⟩ := hpiece
    refine ⟨t.dropLast, hholds, ?_, ?_⟩
    · intro hprintable
      have hmax := hprintable.2
      omega
    · intro _
      rw [List.length_dropLast]
      omega

/-- The text of the prefix, as far as it is printed. -/
theorem writePrefixFormat_adds (h : r.content.Holds t)
    (hen : r.isEnabled l = true)
    (hpre : printf r.prefixFormat (r.prefixArgs env) = some p)
    (hr : r.writeFormatted l r.prefixFormat (r.prefixArgs env)
      = some r') : Adds r t p (p.length ≤ intMax) r' := by
  obtain ⟨hframe, u, hu, hpiece⟩ := writeFormatted_eq_some h hen hr
  rw [hpre] at hu
  cases hu
  refine ⟨⟨0, hframe⟩, ?_⟩
  rcases hpiece with hpiece | hpiece
  · obtain ⟨hshort, hholds⟩ := hpiece
    apply (Ends.of_holds hholds).congr
    exact ⟨fun _ => Nat.le_of_lt hshort, fun _ => True.intro⟩
  · obtain ⟨hlong, hholds⟩ := hpiece
    refine ⟨t.dropLast, hholds, ?_, ?_⟩
    · intro hshort
      omega
    · intro _
      rw [List.length_dropLast]
      omega

/-- The prefix, with its colours. They are always printed, so the condition is
that of the text between them. -/
theorem writePrefix_adds (h : r.content.Holds t)
    (hen : r.isEnabled l = true)
    (hpre : printf r.prefixFormat (r.prefixArgs env) = some p)
    (hr : r.writePrefix l env = some r') :
    Adds r t (linePrefix r.context r.data.level p) (p.length ≤ intMax)
      r' := by
  unfold StreamLogData.writePrefix at hr
  unfold linePrefix
  cases hkind : r.context.kind with
  | file =>
      rw [hkind] at hr
      exact writePrefixFormat_adds h hen hpre hr
  | console =>
      rw [hkind] at hr
      obtain ⟨r₁, hheader, hr⟩ := Option.bind_eq_some_iff.mp hr
      obtain ⟨r₂, htext, hreset⟩ := Option.bind_eq_some_iff.mp hr
      have hfirst := Adds.of_appends
        (hheader ▸ appends_writeHeaderColor h hen)
      have hen₁ := (hfirst.isEnabled l).trans hen
      have hpre₁ : printf r₁.prefixFormat (r₁.prefixArgs env) = some p := by
        rw [hfirst.prefixFormat, hfirst.prefixArgs]
        exact hpre
      have hsecond := fun t₁ (h₁ : r₁.content.Holds t₁) =>
        writePrefixFormat_adds h₁ hen₁ hpre₁ htext
      -- colour, text and colour, each from what the one before has left
      have hthird : ∀ t₁ t₂, r₁.content.Holds t₁ → r₂.content.Holds t₂ →
          Adds r₂ t₂ (resetText r.context) True r' := by
        intro t₁ t₂ h₁ h₂
        have hen₂ := ((hsecond t₁ h₁).isEnabled l).trans hen₁
        have hlast := Adds.of_appends (hreset ▸ appends_resetColor h₂ hen₂)
        rw [(hsecond t₁ h₁).context, hfirst.context] at hlast
        exact hlast
      have hall := hfirst.append fun t₁ h₁ =>
        (hsecond t₁ h₁).append fun t₂ h₂ => hthird t₁ t₂ h₁ h₂
      exact hall.congr (by simp)

/-- A prefix of nothing has no text in it. -/
theorem eq_nil_of_linePrefix {context : StreamLogContext}
    {severity : LogLevel} (h : linePrefix context severity p = []) :
    p = [] := by
  unfold linePrefix at h
  cases hkind : context.kind with
  | file =>
      rw [hkind] at h
      exact h
  | console =>
      rw [hkind] at h
      have htext := (List.append_eq_nil_iff.mp h).2
      exact (List.append_eq_nil_iff.mp htext).1

/-- A record behind its `init`. -/
theorem init_adds (h : r.content.Holds t)
    (hpre : printf r.prefixFormat (r.prefixArgs env) = some p)
    (hr : r.init l env = some r') :
    Adds r t (linePrefix r.context r.data.level p)
      (PrefixKept r.context r.data.level l p) r' := by
  unfold StreamLogData.init at hr
  by_cases hen : r.isEnabled l = true
  · rw [if_pos hen] at hr
    have hadds := writePrefix_adds h hen hpre hr
    refine ⟨hadds.frame, hadds.ends.kept hen ?_⟩
    intro hempty
    rw [eq_nil_of_linePrefix hempty]
    exact Nat.zero_le _
  · rw [if_neg hen] at hr
    cases hr
    refine ⟨⟨0, ?_⟩, Ends.skipped h hen⟩
    simp only [StreamLogData.withContent, Int.add_zero]

end Pieces

-- ==================================================================== runs

/-- An action, as far as it is printed. The levels and the switch move as they
do in any case. -/
theorem step_ends {s s' : State} {t : List UInt8} {a : Action}
    (h : s.record.content.Holds t) (hs : step s a = some s') :
    s' = ⟨a.levels s.levels, s.record.written s'.record.content
        (a.hexEnabled s.record.data.hexEnabled)⟩
      ∧ Ends t (a.text s.record.data.hexEnabled)
        (a.Kept s.record.context.kind s.record.data.level s.levels
          s.record.data.hexEnabled) s'.record.content := by
  cases a with
  | setLogLevel level =>
      cases hs
      exact ⟨rfl, Ends.nothing h⟩
  | setGlobalLogLevel level =>
      cases hs
      exact ⟨rfl, Ends.nothing h⟩
  | write c =>
      by_cases hc : ∀ enabled, c ≠ .setHexEnabled enabled
      · rw [step_write s hc] at hs
        rw [hexEnabled_write s.record.data.hexEnabled hc]
        by_cases hen : s.record.isEnabled s.levels = true
        · rw [if_pos hen] at hs
          obtain ⟨r', hr', heq⟩ := Option.map_eq_some_iff.mp hs
          subst heq
          obtain ⟨hframe, hends, hnone⟩ := write_ends h hen hc hr'
          rw [withContent_zero] at hframe
          exact ⟨congrArg (State.mk s.levels) hframe, hends.kept hen hnone⟩
        · rw [if_neg hen] at hs
          cases hs
          -- disabled: the value is left out
          exact ⟨rfl, Ends.skipped h hen⟩
      · obtain ⟨enabled, heq⟩ := not_forall_not.mp hc
        subst heq
        cases hs
        refine ⟨rfl, (Ends.nothing h).congr ?_⟩
        exact ⟨fun _ => Or.inl rfl, fun _ => True.intro⟩

/-- Some actions, as far as they are printed. By induction on the actions: the
first one leaves some text in the content, whatever the levels are, and the
others go on from there with the levels and the switch it has set. -/
theorem run_ends {s s' : State} {t : List UInt8} {as : List Action}
    (h : s.record.content.Holds t)
    (hs : Transition.run step s as = some s') :
    (∃ hex, s' = ⟨levelsAfter s.levels as,
        s.record.written s'.record.content hex⟩)
      ∧ Ends t (texts s.record.data.hexEnabled as)
        (Kept s.record.context.kind s.record.data.level s.levels
          s.record.data.hexEnabled as) s'.record.content := by
  induction as generalizing s t with
  | nil =>
      cases hs
      exact ⟨⟨s'.record.data.hexEnabled, rfl⟩, Ends.nothing h⟩
  | cons a as ih =>
      obtain ⟨s₁, ha, hrest⟩ := Transition.run_cons.mp hs
      obtain ⟨hframe, hends⟩ := step_ends h ha
      have hnext : ∀ t', s₁.record.content.Holds t' →
          (∃ hex, s' = ⟨levelsAfter s.levels (a :: as),
            s.record.written s'.record.content hex⟩)
          ∧ Ends t' (texts (a.hexEnabled s.record.data.hexEnabled) as)
            (Kept s.record.context.kind s.record.data.level
              (a.levels s.levels) (a.hexEnabled s.record.data.hexEnabled) as)
            s'.record.content := by
        intro t' hholds
        have hall := ih hholds hrest
        rw [hframe] at hall
        exact hall
      obtain ⟨t', hholds⟩ := hends.exists_holds
      exact ⟨(hnext t' hholds).1,
        hends.append fun t' hholds => (hnext t' hholds).2⟩

/-- The content of a record behind some actions is all that was written
exactly if every piece was kept. -/
theorem after_contents_iff {r : StreamLogData} {l : Levels}
    {env : Environment} {as : List Action} {p : List UInt8} {u : State}
    (h : r.content.Holds [])
    (hpre : printf r.prefixFormat (r.prefixArgs env) = some p)
    (hu : r.after l env as = some u) :
    u.levels = levelsAfter l as ∧ u.record.context = r.context
      ∧ u.record.data.level = r.data.level
      ∧ (∃ t, u.record.content.Holds t)
      ∧ (u.record.content.contents
          = linePrefix r.context r.data.level p ++ texts r.data.hexEnabled as
        ↔ PrefixKept r.context r.data.level l p
          ∧ Kept r.context.kind r.data.level l r.data.hexEnabled as) := by
  obtain ⟨r₁, hinit, hrun⟩ := Option.bind_eq_some_iff.mp hu
  have hadds := init_adds h hpre hinit
  obtain ⟨k, hframe⟩ := hadds.frame
  have hnext : ∀ t, r₁.content.Holds t →
      (∃ hex, u = ⟨levelsAfter l as, r₁.written u.record.content hex⟩)
      ∧ Ends t (texts r.data.hexEnabled as)
        (Kept r.context.kind r.data.level l r.data.hexEnabled as)
        u.record.content := by
    intro t hholds
    have hall := run_ends (s := ⟨l, r₁⟩) hholds hrun
    rw [hframe] at hall ⊢
    exact hall
  obtain ⟨t, hholds⟩ := hadds.ends.exists_holds
  obtain ⟨hlast, _⟩ := hnext t hholds
  obtain ⟨hex, hlast⟩ := hlast
  have hall := hadds.ends.append fun t hholds => (hnext t hholds).2
  refine ⟨by rw [hlast], ?_, ?_, ?_, hall.contents_iff⟩
  · rw [hlast, hframe]
    rfl
  · rw [hlast, hframe]
    rfl
  · exact hall.exists_holds

-- =================================================================== flush

/-- There is a text in the content, and room behind it. -/
def Sound (r : StreamLogData) : Prop := ∃ t, r.content.Holds t

section Flush

variable {r r' : StreamLogData} {l : Levels} {env : Environment}

/-- A piece leaves some text, or is left out. -/
theorem sound_writeFormatted {format : List UInt8} {args : List Printf.Arg}
    (h : Sound r) (hr : r.writeFormatted l format args = some r') :
    Sound r' := by
  obtain ⟨t, h⟩ := h
  by_cases hen : r.isEnabled l = true
  · obtain ⟨_, u, _, hpiece⟩ := writeFormatted_eq_some h hen hr
    rcases hpiece with hpiece | hpiece
    · exact ⟨_, hpiece.2⟩
    · exact ⟨_, hpiece.2⟩
  · unfold StreamLogData.writeFormatted at hr
    rw [if_neg hen] at hr
    cases hr
    exact ⟨t, h⟩

theorem sound_writeColor {color : List UInt8} (h : Sound r)
    (hr : r.writeColor l color = some r') : Sound r' := by
  unfold StreamLogData.writeColor at hr
  split at hr
  · obtain ⟨r₁, hwrite, heq⟩ := Option.map_eq_some_iff.mp hr
    subst heq
    have hsound : Sound r₁ := sound_writeFormatted h hwrite
    exact hsound
  · cases hr
    exact h

theorem sound_writeBlanks {n : Nat} (h : Sound r)
    (hr : StreamLogData.writeBlanks l n r = some r') : Sound r' := by
  induction n generalizing r with
  | zero =>
      cases hr
      exact h
  | succ n ih =>
      obtain ⟨r₁, hblank, hr⟩ := Option.bind_eq_some_iff.mp hr
      exact ih (sound_writeFormatted h hblank) hr

theorem sound_writePadding {suffixSize : Nat} (h : Sound r)
    (hr : r.writePadding l env suffixSize = some r') : Sound r' := by
  unfold StreamLogData.writePadding at hr
  simp only at hr
  split at hr
  · obtain ⟨r₁, hfeed, hr⟩ := Option.bind_eq_some_iff.mp hr
    exact sound_writeBlanks (sound_writeFormatted h hfeed) hr
  · exact sound_writeBlanks h hr

theorem sound_writeSuffix (h : Sound r)
    (hr : r.writeSuffix l env = some r') : Sound r' := by
  unfold StreamLogData.writeSuffix at hr
  split at hr
  · obtain ⟨r₁, hheader, hr⟩ := Option.bind_eq_some_iff.mp hr
    obtain ⟨array, _, hr⟩ := Option.bind_eq_some_iff.mp hr
    obtain ⟨array', _, hr⟩ := Option.bind_eq_some_iff.mp hr
    obtain ⟨r₂, hpadding, hr⟩ := Option.bind_eq_some_iff.mp hr
    obtain ⟨r₃, hstring, hreset⟩ := Option.bind_eq_some_iff.mp hr
    have h₁ := sound_writeColor h hheader
    have h₃ := sound_writeFormatted (sound_writePadding h₁ hpadding) hstring
    exact sound_writeColor h₃ hreset
  · obtain ⟨array, _, hr⟩ := Option.bind_eq_some_iff.mp hr
    obtain ⟨format, _, hr⟩ := Option.bind_eq_some_iff.mp hr
    exact sound_writeFormatted h hr

/-- An enabled record hands over its content, as a C string. -/
theorem flushLog_eq_some {s : Option (List UInt8)} (h : Sound r)
    (hen : r.isEnabled l = true) (hr : r.flushLog l env = some (r', s)) :
    s ≠ none ∧ ∃ r₁, r.writeSuffix l env = some r₁
      ∧ s = cString (r₁.content.contents ++ [0]) := by
  unfold StreamLogData.flushLog at hr
  rw [if_pos hen] at hr
  obtain ⟨r₁, hsuffix, hr⟩ := Option.bind_eq_some_iff.mp hr
  obtain ⟨t, hholds⟩ := sound_writeSuffix h hsuffix
  obtain ⟨b, c, rest, hb, hc, _, hmemory⟩ := hholds.terminate
  rw [hb, Option.bind_some, hc, Option.bind_some, hmemory,
    Printf.cString_append] at hr
  cases hr
  refine ⟨by simp, r₁, hsuffix, ?_⟩
  rw [hholds.contents, Printf.cString_append]

variable {out : Option (OutputFile × List UInt8)}

/-- Nothing is flushed. -/
theorem output_of_disabled (hen : ¬ r.isEnabled l = true)
    (hout : r.output l env = some out) : out = none := by
  unfold StreamLogData.output StreamLogData.flushLog at hout
  rw [if_neg hen] at hout
  cases hout
  rfl

/-- Nothing is printed, as there is no file. -/
theorem output_of_no_file
    (hfile : getFile env r.context.kind r.data.level = none)
    (hout : r.output l env = some out) : out = none := by
  obtain ⟨flushed, _, heq⟩ := Option.map_eq_some_iff.mp hout
  have hprint : r.print env = fun _ => none := by
    funext s
    rw [StreamLogData.print, hfile]
    rfl
  rw [← heq, hprint]
  exact Option.bind_fun_none _

/-- An enabled record with a file prints its content, with what the suffix
puts behind it. -/
theorem output_of_enabled (h : Sound r) (hen : r.isEnabled l = true)
    {file : OutputFile}
    (hfile : getFile env r.context.kind r.data.level = some file)
    (hout : r.output l env = some out) :
    out ≠ none ∧ ∃ r₁, r.writeSuffix l env = some r₁
      ∧ out.map Prod.snd = cString (r₁.content.contents ++ [0]) := by
  obtain ⟨flushed, hflush, heq⟩ := Option.map_eq_some_iff.mp hout
  obtain ⟨hsome, r₁, hsuffix, hs⟩ :=
    flushLog_eq_some (s := flushed.2) h hen hflush
  obtain ⟨text, htext⟩ := Option.ne_none_iff_exists'.mp hsome
  rw [htext, Option.bind_some, StreamLogData.print, hfile,
    Option.map_some] at heq
  subst heq
  rw [htext] at hs
  exact ⟨Option.some_ne_none _, r₁, hsuffix, hs⟩

end Flush

/-- The level is lowered for one of two values. -/
def tornActions : List Action :=
  [.setLogLevel .none, .write (.string (ascii ['A'])),
    .setLogLevel .debug, .write (.string (ascii ['B']))]

/-- The record of the fixed inputs. -/
def sampleRecord : StreamLogData :=
  .fresh ByteArray.sampleMemory (sampleContextOf .file false) sampleInfo

theorem tornActions_run :
    (sampleRecord.after sampleLevels sampleEnvironment tornActions).map
        (fun u => (u.record.content.contents,
          u.record.output u.levels sampleEnvironment))
      = some (samplePrefix ++ ascii ['B'], some (some (.logFile,
          samplePrefix ++ ascii ['B'] ++ sampleSuffix))) := by
  decide +kernel

end IviLogging.Stream
