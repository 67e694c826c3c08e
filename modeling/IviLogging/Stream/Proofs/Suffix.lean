/-
The suffix of a file's record.

`FileLogData` has the `writeSuffix` of `StreamLogData`, where the text of
the suffix is the format; `ConsoleLogData` hands the same text to `%s`. So
a `%` in the name of a source file, or of a thread, is copied by the one and
is the beginning of a conversion for the other.

# The text

The suffix is printed into an array of its own, in two pieces, the location
and the name of the thread. Either the array has the text of both, or
`snprintf` has failed for the second, and then a byte of the first is lost
and the array is shorter than the text by more than `INT_MAX`
(`getSuffix_cases`). Neither piece has a NUL, in any run
(`Follows.zero_notMem`).

# The copy

A format without conversions prints itself, and nothing else does: a `%%`
prints one byte for two, and any other conversion needs an argument that is
not there (`writeFormatted_self_iff`). So the file has the bytes of the
suffix exactly if there is no `%` in them, besides what any piece needs,
the length and the room (`suffixCopied_iff`); and the console has them in
any case (`writeSuffix_onConsole`).
-/
import IviLogging.Stream.Proofs.Runs

namespace IviLogging.Stream

open Printf (Arg printf cString intMax)

-- ======================================================== a copied suffix

/-- The bytes that `getSuffix` produces are the text of the suffix, and
`writeSuffix` puts them behind the content. -/
def SuffixCopied (u : State) (env : Environment) (s : List UInt8) : Prop :=
  ∃ array r, u.record.getSuffix env = some array ∧ array.contents = s
    ∧ u.record.writeSuffix u.levels env = some r
    ∧ r.content.contents = u.record.content.contents ++ array.contents

/-- The record as one of a console. -/
def StreamLogData.onConsole (r : StreamLogData) : StreamLogData :=
  { r with context := { r.context with kind := .console } }

-- ================================================================= the text

section Text

variable {r : StreamLogData} {env : Environment} {s : List UInt8}

/-- The text of the suffix is a C string, as its formats are, whatever their
arguments. -/
theorem zero_notMem_suffixText (hsuffix : suffixText r env = some s)
    (hformat : 0 ∉ r.suffixFormat)
    (hthread : 0 ∉ r.suffixThreadNameFormat) : 0 ∉ s := by
  obtain ⟨location, hlocation, hrest⟩ := Option.bind_eq_some_iff.mp hsuffix
  have hzero := Printf.zero_notMem_printf hformat hlocation
  split at hrest
  · obtain ⟨thread, hthread', heq⟩ := Option.map_eq_some_iff.mp hrest
    subst heq
    rw [List.mem_append, not_or]
    exact ⟨hzero, Printf.zero_notMem_printf hthread hthread'⟩
  · cases hrest
    exact hzero

theorem zero_notMem_defaultThreadNameSuffix :
    0 ∉ defaultThreadNameSuffix := by
  simp [defaultThreadNameSuffix, ascii]

/-- So it is behind any run. -/
theorem Follows.zero_notMem {l : Levels} {as : List Action} {u : State}
    (h : Follows r l as u) (hformat : 0 ∉ r.suffixFormat)
    (hthread : r.suffixThreadNameFormat = defaultThreadNameSuffix)
    (hsuffix : suffixText u.record env = some s) : 0 ∉ s := by
  rw [h.suffixText_eq] at hsuffix
  apply zero_notMem_suffixText hsuffix hformat
  rw [hthread]
  exact zero_notMem_defaultThreadNameSuffix

/-- The array of the suffix has its text, or `snprintf` has failed for the
thread's part of it and even the location has lost a byte. -/
theorem getSuffix_cases (hsuffix : suffixText r env = some s)
    {array : ByteArray} (harray : r.getSuffix env = some array) :
    array.Holds s ∧ (∃ rest, array.getData = s ++ 0 :: rest)
      ∨ ∃ t, array.Holds t ∧ t.length + 1 + intMax < s.length := by
  obtain ⟨location, hlocation, hrest⟩ := Option.bind_eq_some_iff.mp hsuffix
  obtain ⟨first, hfirst, harray⟩ := Option.bind_eq_some_iff.mp harray
  have hempty := ByteArray.Holds.fresh env.memory
  obtain ⟨u, hu, hpiece⟩ := hempty.writeFormatted_eq_some hfirst
  rw [hlocation] at hu
  cases hu
  rcases hpiece with hpiece | hpiece
  · obtain ⟨_, hholds, hmemory⟩ := hpiece
    split at hrest
    · next hinfo =>
        obtain ⟨thread, hthread, heq⟩ := Option.map_eq_some_iff.mp hrest
        subst heq
        rw [if_pos hinfo] at harray
        obtain ⟨v, hv, hpiece⟩ := hholds.writeFormatted_eq_some harray
        rw [hthread] at hv
        cases hv
        -- the second piece is printed, or it takes a byte of the first away
        rcases hpiece with hpiece | hpiece
        · exact Or.inl hpiece.2
        · obtain ⟨hlong, hne, hlost⟩ := hpiece
          refine Or.inr ⟨_, hlost, ?_⟩
          have hpos := List.length_pos_of_ne_nil hne
          rw [List.nil_append] at hpos
          rw [List.nil_append, List.length_dropLast, List.length_append]
          omega
    · next hinfo =>
        cases hrest
        rw [if_neg hinfo] at harray
        cases harray
        exact Or.inl ⟨hholds, hmemory⟩
  · -- a fresh array has no byte to lose
    exact absurd rfl hpiece.2.1

end Text

-- ================================================================= the file

section File

variable {r r' : StreamLogData} {l : Levels} {env : Environment}
  {t s : List UInt8}

/-- A piece that is its own format is copied only if it has no `%`, is short
enough to be printed, and has room. -/
theorem writeFormatted_self_iff (h : r.content.Holds t)
    (hen : r.isEnabled l = true)
    (hr : r.writeFormatted l s [] = some r')
    (hcopied : r'.content.contents = t ++ s) :
    37 ∉ s ∧ s.length < intMax
      ∧ t.length + s.length < charVectorMaxSize := by
  obtain ⟨_, u, hu, hpiece⟩ := writeFormatted_eq_some h hen hr
  rcases hpiece with hpiece | hpiece
  · obtain ⟨hshort, hholds⟩ := hpiece
    have heq : u = s :=
      List.append_cancel_left (hholds.contents.symm.trans hcopied)
    have hroom := hholds.room
    rw [heq, List.length_append] at hroom
    exact ⟨(Printf.printf_self_iff hu).2.mp heq, heq ▸ hshort, hroom⟩
  · -- the content got shorter
    obtain ⟨hlong, hholds⟩ := hpiece
    have hle := (Printf.printf_self_iff hu).1
    have hlength := congrArg List.length (hholds.contents.symm.trans hcopied)
    rw [List.length_dropLast, List.length_append] at hlength
    omega

/-- The suffix of one record of a file. The array has the text and a NUL, and
the text is printed as a format, so it comes out as it is exactly if it has
no percent sign; an array that has lost its text is too short for it. -/
theorem suffixCopied_of_file {levels : Levels}
    (hkind : r.context.kind = .file) (h : r.content.Holds t)
    (hen : r.isEnabled levels = true) (hsuffix : suffixText r env = some s)
    (hzero : 0 ∉ s) :
    SuffixCopied ⟨levels, r⟩ env s ↔ 37 ∉ s ∧ s.length < intMax
      ∧ t.length + s.length < charVectorMaxSize := by
  have hwrite : r.writeSuffix levels env = (r.getSuffix env).bind fun a =>
      (cString a.getData).bind fun format =>
        r.writeFormatted levels format [] := by
    rw [StreamLogData.writeSuffix, hkind]
  have hformat : ∀ {array : ByteArray} {rest : List UInt8},
      r.getSuffix env = some array → array.getData = s ++ 0 :: rest →
      r.writeSuffix levels env = r.writeFormatted levels s [] := by
    intro array rest harray hmemory
    rw [hwrite, harray, Option.bind_some, hmemory, Printf.cString_append,
      Printf.takeWhile_eq_self hzero, Option.bind_some]
  constructor
  · intro hcopied
    obtain ⟨array, r', harray, hcontents, hr', hcopied⟩ := hcopied
    rcases getSuffix_cases hsuffix harray with hspec | hspec
    · obtain ⟨_, rest, hmemory⟩ := hspec
      rw [hcontents, h.contents] at hcopied
      apply writeFormatted_self_iff h hen _ hcopied
      exact (hformat harray hmemory).symm.trans hr'
    · -- the array that has lost its text is shorter than it
      obtain ⟨v, hholds, hlost⟩ := hspec
      rw [← hcontents, hholds.contents] at hlost
      omega
  · intro hcond
    obtain ⟨hpercent, hshort, hroom⟩ := hcond
    obtain ⟨array, rest, harray, hholds, hmemory⟩ :=
      getSuffix_spec hsuffix hshort
    have happends := appends_writeFormatted h hen
      (Printf.printf_literal hpercent []) hshort
    unfold Appends at happends
    rw [if_pos hroom] at happends
    obtain ⟨content, hcontent, heq⟩ := happends
    refine ⟨array, _, harray, hholds.contents,
      (hformat harray hmemory).trans heq, ?_⟩
    rw [hholds.contents, h.contents]
    exact hcontent.contents

/-- The console prints the text whatever it is, between the padding and the
line feed. -/
theorem writeSuffix_onConsole (h : r.content.Holds t)
    (hen : r.onConsole.isEnabled l = true)
    (hsuffix : suffixText r env = some s) (hzero : 0 ∉ s)
    (hs : (s ++ [10]).length < intMax)
    (hr' : r.onConsole.writeSuffix l env = some r') :
    r'.content.contents = t ++ lineSuffix r.onConsole.context r.data.level
      env t.length r.invisibleCharacterCount s := by
  obtain ⟨k, happends⟩ := appends_writeSuffix (r := r.onConsole) h hen
    hsuffix hs hzero (fun hkind => by cases hkind)
  rw [hr'] at happends
  exact happends.eq_some.2.contents

end File

/-- In every run, a file's record has exactly the bytes of the suffix
behind its content if and only if there is no `%` among them, and they can
be printed and fit the vector. As one of a console the same record has them
in any case, behind the colour and the padding and in front of the line
feed and the reset. -/
theorem suffixCopied_iff {memory : StaticData} {context : StreamLogContext}
    {data : LogInfo} {prefixFormat suffixFormat s : List UInt8} {l : Levels}
    {env env' : Environment} {as : List Action} {u : State} :
    let r := ((StreamLogData.fresh memory context data).setPrefixFormat
      prefixFormat).setSuffixFormat suffixFormat
    context.kind = .file → 0 ∉ suffixFormat →
    r.after l env as = some u → u.record.isEnabled u.levels = true →
    suffixText u.record env' = some s →
    (SuffixCopied u env' s ↔ 37 ∉ s ∧ s.length < intMax
        ∧ u.record.content.size + s.length < charVectorMaxSize)
      ∧ ∀ r', u.record.onConsole.isEnabled u.levels = true →
        (s ++ [10]).length < intMax →
        u.record.onConsole.writeSuffix u.levels env' = some r' →
        r'.content.contents = u.record.content.contents
          ++ lineSuffix u.record.onConsole.context data.level env'
            u.record.content.size u.record.invisibleCharacterCount s := by
  intro r hkind hformat hu hen hsuffix
  have hfollows := after_follows (sound_fresh memory context data
    prefixFormat suffixFormat) hu
  have hzero := hfollows.zero_notMem hformat rfl hsuffix
  obtain ⟨t, hholds⟩ := hfollows.sound
  have hfile : u.record.context.kind = .file := by
    rw [hfollows.context]
    exact hkind
  rw [hholds.size]
  refine ⟨suffixCopied_of_file hfile hholds hen hsuffix hzero, ?_⟩
  intro r' hconsole hs hr'
  have hlevel : data.level = u.record.data.level := hfollows.level.symm
  rw [hholds.contents, hlevel]
  exact writeSuffix_onConsole hholds hconsole hsuffix hzero hs hr'

-- ============================================================== a sample

/-- A record of a file with two `%` in its name. -/
def percentRecord : StreamLogData :=
  .fresh ByteArray.sampleMemory (sampleContextOf .file false)
    { sampleInfo with
      longFileName := ascii ['a', '%', '%', 'b', '.', 'c'] }

/-- Its suffix. -/
def percentSuffix : List UInt8 :=
  ascii [' ', '|', ' ', 'a', '%', '%', 'b', '.', 'c', ':', '1', '2', ' ']

/-- What is printed for it. -/
def percentPrinted : List UInt8 :=
  ascii [' ', '|', ' ', 'a', '%', 'b', '.', 'c', ':', '1', '2', ' ']

theorem percentRecord_run :
    ∃ u, percentRecord.after sampleLevels sampleEnvironment [] = some u
      ∧ u.record.isEnabled u.levels = true
      ∧ suffixText u.record sampleEnvironment = some percentSuffix
      ∧ u.record.content.contents = samplePrefix
      ∧ (u.record.writeSuffix u.levels sampleEnvironment).map
          (·.content.contents)
        = some (samplePrefix ++ percentPrinted) := by
  have hrun : (percentRecord.after sampleLevels sampleEnvironment []).map
      (fun u => (u.record.isEnabled u.levels,
        suffixText u.record sampleEnvironment, u.record.content.contents,
        (u.record.writeSuffix u.levels sampleEnvironment).map
          (·.content.contents)))
      = some (true, some percentSuffix, samplePrefix,
        some (samplePrefix ++ percentPrinted)) := by
    decide +kernel
  obtain ⟨u, hu, heq⟩ := Option.map_eq_some_iff.mp hrun
  simp only [Prod.mk.injEq] at heq
  exact ⟨u, hu, heq⟩

theorem suffixCopied_iff_sample :
    ∃ u, percentRecord.after sampleLevels sampleEnvironment [] = some u
      ∧ (SuffixCopied u sampleEnvironment percentSuffix
        ↔ 37 ∉ percentSuffix ∧ percentSuffix.length < intMax
          ∧ u.record.content.size + percentSuffix.length
            < charVectorMaxSize) := by
  obtain ⟨u, hu, hen, hsuffix, _⟩ := percentRecord_run
  have hiff := @suffixCopied_iff ByteArray.sampleMemory
    (sampleContextOf .file false) percentRecord.data defaultPrefix
    defaultSuffix _ _ _ _ _ _ rfl (by decide) hu hen hsuffix
  exact ⟨u, hu, hiff.1⟩

/-- One of them is lost. -/
theorem percent_lost :
    ∃ u, percentRecord.after sampleLevels sampleEnvironment [] = some u
      ∧ u.record.isEnabled u.levels = true
      ∧ suffixText u.record sampleEnvironment = some percentSuffix
      ∧ ¬ SuffixCopied u sampleEnvironment percentSuffix := by
  obtain ⟨u, hu, hen, hsuffix, hcontents, hwrite⟩ := percentRecord_run
  refine ⟨u, hu, hen, hsuffix, ?_⟩
  intro hcopied
  obtain ⟨array, r, _, harray, hr, hcopied⟩ := hcopied
  rw [hr, Option.map_some, hcopied, harray, hcontents,
    Option.some.injEq] at hwrite
  have hlength := congrArg List.length hwrite
  cases hlength

end IviLogging.Stream
