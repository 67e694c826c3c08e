/-
Where the console puts the suffix.

The suffix belongs at the end of the line, or at the end of the next one if
it does not fit. `alignment` says how many blanks that takes, as a number of
columns; `padding` is what `writeSuffix` computes, in an `int`.

# The columns

While the suffix fits the line the two are the same
(`remainingWidth_of_fits`). Else there are two ways to differ. The width is
asked for again, and this time an unavailable one is 0 columns and not
`DEFAULT_WIDTH`, so the suffix is put at the beginning of the next line
(`nextLine_iff`). And a line that is too long by more than 2^31 looks as if
it fitted, since the remaining width wraps (`remainingWidth_neg_iff`).
`Alignable` leaves out just these, so the padding is the alignment exactly
if the line is alignable (`padding_eq_alignment_iff`).

# The bytes

`SuffixAligned` is about what stands in the content, where the padding is
one piece among others. A suffix that `%s` cannot print leaves the line too
short for any of this, and no padding could make up for it, as it has an
`int` of bytes at most (`writeSuffix_short`). So the suffix can be printed
if the line is aligned, and then the padding is what is between the colour
and the suffix.

# The run

How many characters of the content take room is known in every run: those
of the prefix, if there is one, and of the text behind it
(`length_startText`). With that the condition is about the run
(`suffixAligned_iff`).
-/
import IviLogging.Stream.Proofs.Suffix

namespace IviLogging.Stream

open Printf (printf cString intMax)

-- ================================================== the place of a suffix

/-- The columns of a line. -/
def lineWidth (env : Environment) : Nat :=
  if env.consoleWidth = 0 then StreamLogData.defaultWidth
  else env.consoleWidth.toNat

/-- What belongs between a text and a suffix of some length each: blanks
up to the last columns of the line, or of the next one. A suffix that is
wider than a line has none in front of it there. -/
def alignment (env : Environment) (textSize suffixSize : Nat) :
    List UInt8 :=
  if textSize + suffixSize ≤ lineWidth env then
    List.replicate (lineWidth env - textSize - suffixSize) 32
  else 10 :: List.replicate (lineWidth env - suffixSize) 32

/-- The suffix in its place, with its colours. -/
def alignedSuffix (context : StreamLogContext) (severity : LogLevel)
    (env : Environment) (textSize : Nat) (s : List UInt8) : List UInt8 :=
  headerText context severity
    ++ (alignment env textSize (s ++ [10]).length
      ++ (s ++ [10] ++ resetText context))

/-- `writeSuffix` puts the suffix there. -/
def SuffixAligned (u : State) (env : Environment) (textSize : Nat)
    (s : List UInt8) : Prop :=
  ∃ r, u.record.writeSuffix u.levels env = some r
    ∧ r.content.contents = u.record.content.contents
      ++ alignedSuffix u.record.context u.record.data.level env textSize s

/-- The suffix fits the line, or it is too long by something that an `int`
can tell, and the width is available or the suffix has the default width to
itself. -/
def Alignable (env : Environment) (textSize suffixSize : Nat) : Prop :=
  textSize + suffixSize ≤ lineWidth env
    ∨ 0 < (textSize + suffixSize - lineWidth env) % 2 ^ 32
      ∧ (textSize + suffixSize - lineWidth env) % 2 ^ 32 ≤ 2 ^ 31
      ∧ (env.consoleWidth ≠ 0 ∨ StreamLogData.defaultWidth ≤ suffixSize)

-- ============================================================= the columns

section Columns

variable {env : Environment} {textSize suffixSize contentSize : Nat}
  {invisible : Int}

/-- The suffix ends at the last column, unless it is wider than a line. -/
theorem alignment_ends (env : Environment) (textSize suffixSize : Nat) :
    (textSize + suffixSize ≤ lineWidth env →
        textSize + (alignment env textSize suffixSize).length + suffixSize
          = lineWidth env)
      ∧ (lineWidth env < textSize + suffixSize →
        ∃ blanks, alignment env textSize suffixSize = 10 :: blanks
          ∧ blanks.length + suffixSize = max (lineWidth env) suffixSize) := by
  unfold alignment
  constructor
  · intro hfits
    rw [if_pos hfits, List.length_replicate]
    omega
  · intro hlong
    refine ⟨_, if_neg (Nat.not_le_of_lt hlong), ?_⟩
    rw [List.length_replicate]
    omega

theorem toNat_consoleWidth_lt (env : Environment) :
    env.consoleWidth.toNat < 2 ^ 16 := env.consoleWidth.toNat_lt

/-- A width has 16 bits, and the default one is far below that. -/
theorem lineWidth_lt (env : Environment) : lineWidth env < 2 ^ 16 := by
  have hlt := toNat_consoleWidth_lt env
  unfold lineWidth StreamLogData.defaultWidth
  split
  · omega
  · exact hlt

/-- The width is that of the characters that take room, around the range of an
`int`. -/
theorem remainingWidth_eq (hsize : (contentSize : Int)
    = textSize + invisible) :
    StreamLogData.remainingWidth env contentSize suffixSize invisible
      = Int.bmod (lineWidth env - (textSize + suffixSize)) (2 ^ 32) := by
  have harg : (contentSize : Int) + suffixSize - invisible
      = textSize + suffixSize := by omega
  unfold StreamLogData.remainingWidth lineWidth
  by_cases hzero : env.consoleWidth = 0
  · simp only [if_pos hzero, harg]
  · simp only [if_neg hzero, harg]

/-- Nothing wraps while the suffix fits. -/
theorem remainingWidth_of_fits (hsize : (contentSize : Int)
    = textSize + invisible) (hfits : textSize + suffixSize ≤ lineWidth env) :
    StreamLogData.remainingWidth env contentSize suffixSize invisible
      = (lineWidth env - textSize - suffixSize : Nat) := by
  have hlt := lineWidth_lt env
  rw [remainingWidth_eq hsize, Int.bmod_eq_of_le (by omega) (by omega)]
  omega

/-- How a line that is too long looks in an `int`. -/
theorem remainingWidth_neg_iff (hsize : (contentSize : Int)
    = textSize + invisible) (hlong : lineWidth env < textSize + suffixSize) :
    StreamLogData.remainingWidth env contentSize suffixSize invisible < 0
      ↔ 0 < (textSize + suffixSize - lineWidth env) % 2 ^ 32
        ∧ (textSize + suffixSize - lineWidth env) % 2 ^ 32 ≤ 2 ^ 31 := by
  rw [remainingWidth_eq hsize, Int.bmod_def]
  -- the excess, with its sign
  have hover : ((lineWidth env : Int) - (textSize + suffixSize))
      = - ((textSize + suffixSize - lineWidth env : Nat) : Int) := by omega
  rw [hover]
  generalize textSize + suffixSize - lineWidth env = excess
  split
  · omega
  · omega

/-- What is left of the next line, for a suffix that is no longer than an `int`
can count. -/
theorem nextLineWidth_eq (env : Environment) (hshort : suffixSize < 2 ^ 31) :
    StreamLogData.nextLineWidth env suffixSize
      = env.consoleWidth.toNat - suffixSize := by
  have hlt := toNat_consoleWidth_lt env
  unfold StreamLogData.nextLineWidth
  exact Int.bmod_eq_of_le (by omega) (by omega)

/-- The blanks on the next line, where no width counts as the default
one. -/
theorem nextLine_iff (env : Environment) (hshort : suffixSize < 2 ^ 31) :
    (StreamLogData.nextLineWidth env suffixSize).toNat
        = lineWidth env - suffixSize
      ↔ env.consoleWidth ≠ 0 ∨ StreamLogData.defaultWidth ≤ suffixSize := by
  rw [nextLineWidth_eq env hshort]
  unfold lineWidth
  by_cases hzero : env.consoleWidth = 0
  · have hnat : env.consoleWidth.toNat = 0 := by
      rw [hzero]
      rfl
    rw [if_pos hzero, hnat]
    constructor
    · intro heq
      exact Or.inr (by omega)
    · intro hwide
      rcases hwide with hne | hwide
      · exact absurd hzero hne
      · omega
  · rw [if_neg hzero]
    constructor
    · intro _
      exact Or.inl hzero
    · intro _
      omega

/-- The padding is the alignment exactly if the line is alignable. If the
suffix fits the line nothing wraps. If it does not, the code has to see that
(no wrap may make the width look positive), and then has to take the width
of the console for the next line too. -/
theorem padding_eq_alignment_iff (hsize : (contentSize : Int)
    = textSize + invisible) (hshort : suffixSize < 2 ^ 31) :
    padding env contentSize suffixSize invisible
        = alignment env textSize suffixSize
      ↔ Alignable env textSize suffixSize := by
  unfold padding alignment Alignable
  simp only
  by_cases hfits : textSize + suffixSize ≤ lineWidth env
  · have hwidth := remainingWidth_of_fits hsize hfits
    rw [hwidth, if_neg (by omega), if_pos hfits]
    exact ⟨fun _ => Or.inl hfits, fun _ => rfl⟩
  · rw [if_neg hfits]
    have hneg := remainingWidth_neg_iff hsize (Nat.lt_of_not_le hfits)
    by_cases hseen : StreamLogData.remainingWidth env contentSize suffixSize
        invisible < 0
    · rw [if_pos hseen]
      obtain ⟨hpos, hle⟩ := hneg.mp hseen
      -- two paddings with a line feed are the same if they have as many
      -- blanks
      have hblanks : ∀ m n : Nat, (10 : UInt8) :: List.replicate m 32
          = 10 :: List.replicate n 32 ↔ m = n := by
        intro m n
        rw [List.cons_inj_right, List.replicate_left_inj]
      rw [hblanks, nextLine_iff env hshort]
      constructor
      · intro hright
        exact Or.inr ⟨hpos, hle, hright⟩
      · intro halign
        rcases halign with hfits' | halign
        · exact absurd hfits' hfits
        · exact halign.2.2
    · -- the line looks as if it had room
      rw [if_neg hseen]
      constructor
      · -- it has no line feed, so it is not what belongs there
        intro heq
        cases hn : (StreamLogData.remainingWidth env contentSize suffixSize
            invisible).toNat with
        | zero =>
            rw [hn] at heq
            cases heq
        | succ n =>
            rw [hn] at heq
            cases heq
      · intro halign
        rcases halign with hfits' | halign
        · exact absurd hfits' hfits
        · exact absurd (hneg.mpr ⟨halign.1, halign.2.1⟩) hseen

/-- The padding of any line has an `int` of bytes, and a line feed. -/
theorem length_padding_le (env : Environment)
    (contentSize suffixSize : Nat) (invisible : Int) :
    (padding env contentSize suffixSize invisible).length ≤ 2 ^ 31 := by
  have hwidth : StreamLogData.remainingWidth env contentSize suffixSize
      invisible < (2 ^ 32 + 1 : Nat) / 2 := Int.bmod_lt (by omega)
  have hnext : StreamLogData.nextLineWidth env suffixSize
      < (2 ^ 32 + 1 : Nat) / 2 := Int.bmod_lt (by omega)
  unfold padding
  simp only
  split
  · rw [List.length_cons, List.length_replicate]
    omega
  · rw [List.length_replicate]
    omega

end Columns

-- ============================================================== the suffix

section Suffix

variable {r r' : StreamLogData} {l : Levels} {env : Environment}
  {t s : List UInt8}

/-- The array of the suffix with its line feed. -/
theorem suffixLine_cases {array array' : ByteArray}
    (hsuffix : suffixText r env = some s)
    (harray : r.getSuffix env = some array)
    (hfeed : array.writeFormatted (ascii ['\n']) [] = some array') :
    ∃ x rest, array'.getData = x ++ [10] ++ 0 :: rest
      ∧ (x = s ∨ x.length + 1 + intMax < s.length) := by
  have hline : ∀ x, array.Holds x →
      ∃ rest, array'.getData = x ++ [10] ++ 0 :: rest := by
    intro x hholds
    obtain ⟨u, hu, hpiece⟩ := hholds.writeFormatted_eq_some hfeed
    rw [printf_lineFeed] at hu
    cases hu
    rcases hpiece with hpiece | hpiece
    · exact hpiece.2.2
    · have hlong := hpiece.1
      simp [intMax] at hlong
  rcases getSuffix_cases hsuffix harray with hspec | hspec
  · obtain ⟨rest, hmemory⟩ := hline s hspec.1
    exact ⟨s, rest, hmemory, Or.inl rfl⟩
  · obtain ⟨x, hholds, hlost⟩ := hspec
    obtain ⟨rest, hmemory⟩ := hline x hholds
    exact ⟨x, rest, hmemory, Or.inr hlost⟩

/-- A suffix that `%s` cannot print, or that has lost its text before,
leaves the line shorter than any padding could make up for. -/
theorem writeSuffix_short (hkind : r.context.kind = .console)
    (h : r.content.Holds t) (hen : r.isEnabled l = true)
    (hsuffix : suffixText r env = some s) (hzero : 0 ∉ s)
    (hlong : intMax ≤ (s ++ [10]).length)
    (hr : r.writeSuffix l env = some r') :
    intMax < (s ++ [10]).length
      ∧ r'.content.contents.length
        < t.length + (headerText r.context r.data.level).length
          + (s ++ [10]).length + (resetText r.context).length := by
  have hint : intMax = 2 ^ 31 - 1 := rfl
  rw [StreamLogData.writeSuffix, hkind] at hr
  obtain ⟨r₁, hheader, hr⟩ := Option.bind_eq_some_iff.mp hr
  obtain ⟨array, harray, hr⟩ := Option.bind_eq_some_iff.mp hr
  obtain ⟨array', hfeed, hr⟩ := Option.bind_eq_some_iff.mp hr
  obtain ⟨r₂, hpadding, hr⟩ := Option.bind_eq_some_iff.mp hr
  obtain ⟨r₃, hstring, hreset⟩ := Option.bind_eq_some_iff.mp hr
  obtain ⟨hframe₁, h₁⟩ :=
    (hheader ▸ appends_writeHeaderColor h hen).eq_some
  have hen₁ : r₁.isEnabled l = true := by
    rw [hframe₁]
    exact hen
  have hsuffix₁ : suffixText r₁ env = some s := by
    rw [hframe₁]
    exact hsuffix
  obtain ⟨hframe₂, h₂⟩ :=
    (hpadding ▸ appends_writePadding array'.size h₁ hen₁).eq_some
  have hen₂ : r₂.isEnabled l = true := by
    rw [hframe₂]
    exact hen₁
  obtain ⟨x, rest, hmemory, hx⟩ := suffixLine_cases hsuffix₁ harray hfeed
  obtain ⟨hframe₃, u, hu, hpiece⟩ := writeFormatted_eq_some h₂ hen₂ hstring
  have hen₃ : r₃.isEnabled l = true := by
    rw [hframe₃]
    exact hen₂
  -- what `%s` prints of the array: up to the first NUL
  have htext : u = (x ++ [10]).takeWhile (· ≠ 0) := by
    rw [hmemory] at hu
    exact Option.some.inj (hu.symm.trans (Printf.printf_string_append _ _))
  have hle : u.length ≤ x.length + 1 := by
    have hprefix := (List.takeWhile_prefix (p := (· ≠ (0 : UInt8)))
      (l := x ++ [10])).length_le
    rw [htext]
    simpa using hprefix
  have hblanks := length_padding_le env
    (t ++ headerText r.context r.data.level).length array'.size
    r₁.invisibleCharacterCount
  generalize padding env (t ++ headerText r.context r.data.level).length
    array'.size r₁.invisibleCharacterCount = blanks at hpiece hblanks
  -- colour, padding and suffix: the suffix lacks more than any padding has
  have hthird : ∃ z, r₃.content.Holds z ∧ intMax < (s ++ [10]).length
      ∧ z.length < t.length + (headerText r.context r.data.level).length
        + (s ++ [10]).length := by
    rw [List.length_append, List.length_singleton] at hlong ⊢
    rcases hpiece with hpiece | hpiece
    · obtain ⟨hprinted, hholds⟩ := hpiece
      refine ⟨_, hholds, ?_⟩
      rcases hx with hx | hx
      · -- all of it cannot have been printed
        subst hx
        rw [htext, Printf.takeWhile_eq_self (by simp [hzero]),
          List.length_append, List.length_singleton] at hprinted
        omega
      · rw [List.length_append, List.length_append, List.length_append]
        omega
    · obtain ⟨hfailed, hholds⟩ := hpiece
      refine ⟨_, hholds, ?_⟩
      rw [List.length_dropLast, List.length_append, List.length_append]
      rcases hx with hx | hx
      · subst hx
        omega
      · omega
  obtain ⟨z, h₃, hlonger, hlength⟩ := hthird
  obtain ⟨_, h₄⟩ := (hreset ▸ appends_resetColor h₃ hen₃).eq_some
  have hcontext : r₃.context = r.context := by
    rw [hframe₃, hframe₂, hframe₁]
    rfl
  refine ⟨hlonger, ?_⟩
  rw [h₄.contents, List.length_append, hcontext]
  omega

/-- The suffix of one record. From left to right its lengths show that it was
printed, and then the padding is cut out of the content; from right to left
the padding is the alignment. -/
theorem suffixAligned_of_console {levels : Levels} {textSize : Nat}
    (hkind : r.context.kind = .console) (h : r.content.Holds t)
    (hen : r.isEnabled levels = true)
    (hsize : (t.length : Int) = textSize + r.invisibleCharacterCount)
    (hsuffix : suffixText r env = some s) (hzero : 0 ∉ s) :
    SuffixAligned ⟨levels, r⟩ env textSize s
      ↔ Alignable env textSize (s ++ [10]).length
        ∧ (s ++ [10]).length < intMax
        ∧ t.length + (alignedSuffix r.context r.data.level env textSize
            s).length < charVectorMaxSize := by
  have hint : intMax = 2 ^ 31 - 1 := rfl
  have hline : lineSuffix r.context r.data.level env t.length
        r.invisibleCharacterCount s
      = headerText r.context r.data.level
        ++ (padding env
            (t.length + (headerText r.context r.data.level).length)
            (s ++ [10]).length (r.invisibleCharacterCount
              + (headerText r.context r.data.level).length)
          ++ (s ++ [10] ++ resetText r.context)) := by
    rw [lineSuffix, hkind]
  have hcount : ((t.length + (headerText r.context r.data.level).length
        : Nat) : Int)
      = textSize + (r.invisibleCharacterCount
        + (headerText r.context r.data.level).length) := by omega
  have happends : (s ++ [10]).length < intMax → ∃ k, Appends r t
      (lineSuffix r.context r.data.level env t.length
        r.invisibleCharacterCount s) k (r.writeSuffix levels env) := by
    intro hshort
    apply appends_writeSuffix h hen hsuffix _ hzero
    · intro hfile
      rw [hkind] at hfile
      cases hfile
    · rw [hkind]
      exact hshort
  constructor
  · intro haligned
    obtain ⟨r', hr', hcontents⟩ := haligned
    rw [h.contents] at hcontents
    have hshort : (s ++ [10]).length < intMax := by
      by_contra hlong
      obtain ⟨_, hlost⟩ := writeSuffix_short hkind h hen hsuffix hzero
        (Nat.le_of_not_lt hlong) hr'
      rw [hcontents, alignedSuffix] at hlost
      simp only [List.length_append] at hlost
      omega
    obtain ⟨k, hall⟩ := happends hshort
    rw [hr'] at hall
    have hholds := hall.eq_some.2
    have heq := List.append_cancel_left
      (hholds.contents.symm.trans hcontents)
    have hroom := hholds.room
    rw [heq, List.length_append] at hroom
    rw [hline, alignedSuffix] at heq
    -- the same colour in front, the same suffix behind
    have hpadding := List.append_cancel_right
      (List.append_cancel_left heq)
    exact ⟨(padding_eq_alignment_iff hcount (by omega)).mp hpadding,
      hshort, hroom⟩
  · intro hcond
    obtain ⟨halign, hshort, hroom⟩ := hcond
    have hpadding := (padding_eq_alignment_iff hcount (by omega)).mpr halign
    have hright : lineSuffix r.context r.data.level env t.length
          r.invisibleCharacterCount s
        = alignedSuffix r.context r.data.level env textSize s := by
      rw [hline, hpadding, alignedSuffix]
    obtain ⟨k, hall⟩ := happends hshort
    unfold Appends at hall
    rw [hright, if_pos hroom] at hall
    obtain ⟨content, hholds, heq⟩ := hall
    refine ⟨_, heq, ?_⟩
    rw [h.contents]
    exact hholds.contents

end Suffix

/-- The prefix has its text, and the colours that were counted. -/
theorem length_startText {context : StreamLogContext}
    (hkind : context.kind = .console) (severity : LogLevel) (l : Levels)
    (p : List UInt8) :
    ((startText context severity l p).length : Int)
      = (if l.isEnabled context.kind severity then p.length else 0 : Nat)
        + startInvisible context severity l := by
  unfold startText startInvisible
  split
  · simp only [linePrefix, prefixInvisible, hkind, List.length_append]
    omega
  · rfl

/-- In every run, the suffix of a console's record whose content has the
text `v` behind the prefix `p` is put in its place if and only if the line
can be aligned, and `%s` can print the suffix and the vector hold it. -/
theorem suffixAligned_iff {memory : StaticData}
    {context : StreamLogContext} {data : LogInfo}
    {prefixFormat suffixFormat p v s : List UInt8} {l : Levels}
    {env env' : Environment} {as : List Action} {u : State} :
    let r := ((StreamLogData.fresh memory context data).setPrefixFormat
      prefixFormat).setSuffixFormat suffixFormat
    let textSize := (if l.isEnabled context.kind data.level then p.length
      else 0) + v.length
    context.kind = .console → 0 ∉ suffixFormat →
    r.after l env as = some u → u.record.isEnabled u.levels = true →
    u.record.content.contents = startText context data.level l p ++ v →
    suffixText u.record env' = some s →
    (SuffixAligned u env' textSize s
      ↔ Alignable env' textSize (s ++ [10]).length
        ∧ (s ++ [10]).length < intMax
        ∧ u.record.content.size + (alignedSuffix context data.level env'
            textSize s).length < charVectorMaxSize) := by
  intro r textSize hkind hformat hu hen hcontents hsuffix
  have hfollows := after_follows (sound_fresh memory context data
    prefixFormat suffixFormat) hu
  have hzero := hfollows.zero_notMem hformat rfl hsuffix
  obtain ⟨t, hholds⟩ := hfollows.sound
  have hcontext : u.record.context = context := hfollows.context
  have hlevel : u.record.data.level = data.level := hfollows.level
  have hsize : (t.length : Int)
      = textSize + u.record.invisibleCharacterCount := by
    have hstart := length_startText hkind data.level l p
    have hcount : u.record.invisibleCharacterCount
        = 0 + startInvisible context data.level l := hfollows.invisible
    rw [← hholds.contents, hcontents, List.length_append, hcount]
    omega
  have hiff := suffixAligned_of_console (hcontext ▸ hkind) hholds hen hsize
    hsuffix hzero
  rw [hcontext, hlevel] at hiff
  rw [hholds.size]
  exact hiff

-- ============================================================== a sample

/-- The record of a console. -/
def consoleRecord : StreamLogData :=
  .fresh ByteArray.sampleMemory (sampleContextOf .console false) sampleInfo

/-- No width is available. -/
def noWidth : Environment := { sampleEnvironment with consoleWidth := 0 }

/-- A text that leaves less than the suffix needs on a line of the default
width. -/
def longText : List UInt8 := List.replicate 120 97

theorem consoleRecord_run :
    ∃ u, consoleRecord.after sampleLevels noWidth
        [.write (.string longText)] = some u
      ∧ u.record.isEnabled u.levels = true
      ∧ u.record.content.contents = samplePrefix ++ longText
      ∧ suffixText u.record noWidth = some sampleSuffix
      ∧ (u.record.writeSuffix u.levels noWidth).map (·.content.contents)
        = some (samplePrefix ++ longText
          ++ 10 :: (sampleSuffix ++ [10])) := by
  have hrun : (consoleRecord.after sampleLevels noWidth
      [.write (.string longText)]).map (fun u =>
        (u.record.isEnabled u.levels, u.record.content.contents,
          suffixText u.record noWidth,
          (u.record.writeSuffix u.levels noWidth).map
            (·.content.contents)))
      = some (true, samplePrefix ++ longText, some sampleSuffix,
        some (samplePrefix ++ longText ++ 10 :: (sampleSuffix ++ [10]))) := by
    decide +kernel
  obtain ⟨u, hu, heq⟩ := Option.map_eq_some_iff.mp hrun
  simp only [Prod.mk.injEq] at heq
  exact ⟨u, hu, heq⟩

theorem suffixAligned_iff_sample :
    ∃ u, consoleRecord.after sampleLevels noWidth
        [.write (.string longText)] = some u
      ∧ (SuffixAligned u noWidth 147 sampleSuffix
        ↔ Alignable noWidth 147 (sampleSuffix ++ [10]).length
          ∧ (sampleSuffix ++ [10]).length < intMax
          ∧ u.record.content.size + (alignedSuffix
              (sampleContextOf .console false) .info noWidth 147
              sampleSuffix).length < charVectorMaxSize) := by
  obtain ⟨u, hu, hen, hcontents, hsuffix, _⟩ := consoleRecord_run
  have hiff := @suffixAligned_iff ByteArray.sampleMemory
    (sampleContextOf .console false) sampleInfo defaultPrefix defaultSuffix
    samplePrefix longText _ sampleLevels _ _ _ _ rfl (by decide) hu hen
    hcontents hsuffix
  exact ⟨u, hu, hiff⟩

/-- The suffix of a long line stands at the beginning of the next one. -/
theorem suffix_not_aligned :
    ∃ u, consoleRecord.after sampleLevels noWidth
        [.write (.string longText)] = some u
      ∧ u.record.isEnabled u.levels = true
      ∧ u.record.content.contents = samplePrefix ++ longText
      ∧ suffixText u.record noWidth = some sampleSuffix
      ∧ ¬ SuffixAligned u noWidth 147 sampleSuffix := by
  obtain ⟨u, hu, hen, hcontents, hsuffix, hwrite⟩ := consoleRecord_run
  refine ⟨u, hu, hen, hcontents, hsuffix, ?_⟩
  intro haligned
  obtain ⟨r, hr, haligned⟩ := haligned
  have hfollows := after_follows (sound_fresh ByteArray.sampleMemory
    (sampleContextOf .console false) sampleInfo defaultPrefix
    defaultSuffix) hu
  rw [hr, Option.map_some, haligned, hcontents, hfollows.context,
    hfollows.level] at hwrite
  revert hwrite
  decide +kernel

end IviLogging.Stream
