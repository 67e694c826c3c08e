/-
A record that stays enabled is its line.

In any run a record gets the prefix, if it is enabled in the beginning, and
the texts that the levels let through, as long as each can be printed and
the vector holds them.

# What a step puts there

`Puts` has the two sides of that: under a condition a text is put behind
what was there, if there is room, and without the condition or the room
nothing is defined. It is said of the record alone, of the record with its
levels, and of what they are made to (`Puts.map`), and the conditions add up
under one after the other (`Puts.bind`). Both directions are needed later:
that the line with colours is printed exactly if the one without is.

A value puts its text there if the record is enabled by the levels at that
moment (`step_puts`); a run puts there what the levels let through
(`run_puts`), and in front of it `init` the prefix (`after_puts`).

# The line

A record that stays enabled has all of the texts. Then the condition of
each piece is a matter of its length, and what is left is the room in the
vector (`after_eq`). No text has a NUL, so the whole content is handed over
in the end (`content_exact`).
-/
import IviLogging.Stream.Proofs.Records

namespace IviLogging

open Printf (Arg printf cString intMax)

namespace Stream

-- ==================================================================== runs

/-- The record with another content and hex switch. -/
def StreamLogData.written (r : StreamLogData) (content : ByteArray)
    (hex : Bool) : StreamLogData :=
  { r with content := content, data := { r.data with hexEnabled := hex } }

theorem withContent_zero (r : StreamLogData) (content : ByteArray) :
    r.withContent content 0 = r.written content r.data.hexEnabled := by
  simp only [StreamLogData.withContent, StreamLogData.written, Int.add_zero]

/-- A value is written if the record is enabled; the switch is no value. -/
theorem step_write (s : State) {c : WriteCall}
    (hc : ∀ enabled, c ≠ .setHexEnabled enabled) :
    step s (.write c) = if s.record.isEnabled s.levels then
      (s.record.write s.levels c).map fun r => { s with record := r }
    else some s := by
  cases c with
  | setHexEnabled enabled => exact absurd rfl (hc enabled)
  | _ => rfl

/-- A value leaves the hex switch alone. -/
theorem hexEnabled_write (hex : Bool) {c : WriteCall}
    (hc : ∀ enabled, c ≠ .setHexEnabled enabled) :
    (Action.write c).hexEnabled hex = hex := by
  cases c with
  | setHexEnabled enabled => exact absurd rfl (hc enabled)
  | _ => rfl

/-- Under the condition `P` the text `u` is put behind the text `t`, and `f`
is made of it; or the vector refuses to get that long. Without `P` nothing
is made, whatever the room. -/
structure Puts {σ : Type} (P : Prop) (t u : List UInt8)
    (f : ByteArray → σ) (o : Option σ) : Prop where
  fits : P → t.length + u.length < charVectorMaxSize →
    ∃ content : ByteArray, content.Holds (t ++ u) ∧ o = some (f content)
  refuses : ¬ (P ∧ t.length + u.length < charVectorMaxSize) → o = none

namespace Puts

variable {σ τ : Type} {P Q : Prop} {t u v : List UInt8}
  {f : ByteArray → σ} {o : Option σ}

/-- Nothing is put there. -/
theorem nothing {content : ByteArray} (h : content.Holds t)
    (ho : o = some (f content)) : Puts True t [] f o := by
  refine ⟨fun _ _ => ⟨content, ?_, ho⟩, fun hnot => ?_⟩
  · rw [List.append_nil]
    exact h
  · exact absurd ⟨True.intro, h.room⟩ hnot

theorem congr (h : Puts P t u f o) (hiff : P ↔ Q) : Puts Q t u f o := by
  rw [← propext hiff]
  exact h

/-- A function of the record that appends a text under the condition, and is not
defined without it. -/
theorem of_appends {r : StreamLogData} {k : Int}
    {o : Option StreamLogData} (h : P → Appends r t u k o)
    (hnot : ¬ P → o = none) : Puts P t u (r.withContent · k) o := by
  constructor
  · intro hP hroom
    have hpiece := h hP
    unfold Appends at hpiece
    rw [if_pos hroom] at hpiece
    exact hpiece
  · intro hrefused
    by_cases hP : P
    · have hpiece := h hP
      unfold Appends at hpiece
      rw [if_neg fun hroom => hrefused ⟨hP, hroom⟩] at hpiece
      exact hpiece
    · exact hnot hP

/-- What is made of it in turn. -/
theorem map {g : σ → τ} (h : Puts P t u f o) :
    Puts P t u (fun content => g (f content)) (o.map g) := by
  constructor
  · intro hP hroom
    obtain ⟨content, hholds, heq⟩ := h.fits hP hroom
    exact ⟨content, hholds, congrArg (Option.map g) heq⟩
  · intro hrefused
    rw [h.refuses hrefused]
    rfl

/-- One text after the other. Both are put exactly if both conditions hold and
both texts fit; if not, it is the first or the second that refuses. -/
theorem bind {f' : ByteArray → τ} {g : σ → Option τ} (h : Puts P t u f o)
    (hg : ∀ content : ByteArray, content.Holds (t ++ u) →
      Puts Q (t ++ u) v f' (g (f content))) :
    Puts (P ∧ Q) t (u ++ v) f' (o.bind g) := by
  constructor
  · intro hboth hroom
    obtain ⟨hP, hQ⟩ := hboth
    rw [List.length_append] at hroom
    obtain ⟨content, hholds, heq⟩ := h.fits hP (by omega)
    obtain ⟨content', hholds', heq'⟩ := (hg content hholds).fits hQ (by
      rw [List.length_append]
      omega)
    rw [heq, Option.bind_some, heq', ← List.append_assoc]
    exact ⟨content', hholds', rfl⟩
  · intro hrefused
    rw [List.length_append] at hrefused
    -- if the first is made, it is the second that refuses
    by_cases hfirst : P ∧ t.length + u.length < charVectorMaxSize
    · obtain ⟨content, hholds, heq⟩ := h.fits hfirst.1 hfirst.2
      rw [heq, Option.bind_some]
      apply (hg content hholds).refuses
      intro hnext
      rw [List.length_append] at hnext
      exact hrefused ⟨⟨hfirst.1, hnext.1⟩, by omega⟩
    · rw [h.refuses hfirst]
      rfl

/-- What is there in the end. -/
theorem eq_some {x : σ} (h : Puts P t u f o) (ho : o = some x) :
    P ∧ t.length + u.length < charVectorMaxSize
      ∧ ∃ content : ByteArray, content.Holds (t ++ u) ∧ x = f content := by
  have hfits : P ∧ t.length + u.length < charVectorMaxSize := by
    by_contra hnot
    rw [h.refuses hnot] at ho
    cases ho
  obtain ⟨content, hholds, heq⟩ := h.fits hfits.1 hfits.2
  rw [ho] at heq
  cases heq
  exact ⟨hfits.1, hfits.2, content, hholds, rfl⟩

end Puts

/-- A value puts its text behind the line, if it is not too long. -/
theorem puts_write {r : StreamLogData} {l : Levels} {t : List UInt8}
    {c : WriteCall} (h : r.content.Holds t) (hen : r.isEnabled l = true)
    (hc : c.bytes.length ≤ intMax)
    (hvalue : ∀ enabled, c ≠ .setHexEnabled enabled) :
    Puts ((c.text r.data.hexEnabled).length < intMax) t
      (c.text r.data.hexEnabled) (r.withContent · 0) (r.write l c) := by
  apply Puts.of_appends
  · intro htext
    exact appends_write h hen hc htext hvalue
  · -- too long by the one byte that `INT_MAX` bytes are
    intro hlong
    have hle := length_text_le r.data.hexEnabled hc
    obtain ⟨format, args, hwrite, hprintf, _⟩ := prints r l hvalue
    rw [hwrite]
    exact writeFormatted_long hen (hprintf (whole_of_short hc)) (by omega)

/-- An action puts there what the levels let through: the text of a value, if
the severity is enabled at that moment, and nothing else. -/
theorem step_puts {s : State} {t : List UInt8} {a : Action}
    (h : s.record.content.Holds t)
    (ha : ∀ c, a = .write c → c.bytes.length ≤ intMax) {w : List UInt8}
    (hw : w = a.shown s.record.context.kind s.record.data.level s.levels
      s.record.data.hexEnabled) :
    Puts (w.length < intMax) t w
      (fun content => ⟨a.levels s.levels, s.record.written content
        (a.hexEnabled s.record.data.hexEnabled)⟩) (step s a) := by
  have hzero : 0 < intMax := by simp [intMax]
  -- the actions that put nothing there
  have hnothing : ∀ {levels : Levels} {hex : Bool} {o : Option State},
      o = some ⟨levels, s.record.written s.record.content hex⟩ → w = [] →
      Puts (w.length < intMax) t w
        (fun content => ⟨levels, s.record.written content hex⟩) o := by
    intro levels hex o ho hempty
    rw [hempty]
    exact (Puts.nothing h ho).congr ⟨fun _ => hzero, fun _ => True.intro⟩
  cases a with
  | setLogLevel level =>
      apply hnothing rfl
      rw [hw]
      exact ite_self _
  | setGlobalLogLevel level =>
      apply hnothing rfl
      rw [hw]
      exact ite_self _
  | write c =>
      by_cases hc : ∀ enabled, c ≠ .setHexEnabled enabled
      · have hhex := hexEnabled_write s.record.data.hexEnabled hc
        rw [step_write s hc]
        by_cases hen : s.record.isEnabled s.levels = true
        · have htext : w = c.text s.record.data.hexEnabled := by
            rw [hw]
            exact if_pos hen
          rw [if_pos hen, htext, hhex]
          simp only [← withContent_zero]
          exact (puts_write h hen (ha c rfl) hc).map
        · rw [if_neg hen]
          apply hnothing
          · rw [hhex]
            rfl
          · rw [hw]
            exact if_neg hen
      · obtain ⟨enabled, heq⟩ := not_forall_not.mp hc
        subst heq
        apply hnothing rfl
        rw [hw]
        exact ite_self _

/-- The texts of the values, one behind the other. -/
theorem run_puts {s : State} {t : List UInt8} {as : List Action}
    (h : s.record.content.Holds t)
    (hstrings : ∀ c, .write c ∈ as → c.bytes.length ≤ intMax) :
    Puts (ShownShort s.record.context.kind s.record.data.level s.levels
        s.record.data.hexEnabled as) t
      (shown s.record.context.kind s.record.data.level s.levels
        s.record.data.hexEnabled as)
      (fun content => ⟨levelsAfter s.levels as, s.record.written content
        (hexAfter s.record.data.hexEnabled as)⟩)
      (Transition.run step s as) := by
  induction as generalizing s t with
  | nil => exact Puts.nothing h rfl
  | cons a as ih =>
      apply (step_puts h (fun c hc =>
        hstrings c (hc ▸ List.mem_cons_self ..)) rfl).bind
      intro content hholds
      exact ih (s := ⟨a.levels s.levels, s.record.written content
        (a.hexEnabled s.record.data.hexEnabled)⟩) hholds
        fun c hc => hstrings c (List.mem_cons_of_mem _ hc)

/-- It is enabled in the beginning, -/
theorem StaysEnabled.start {kind : Kind} {severity : LogLevel} {l : Levels}
    {as : List Action} (h : StaysEnabled kind severity l as) :
    l.isEnabled kind severity = true := by
  cases as with
  | nil => exact h
  | cons a as => exact h.1

/-- and in the end. -/
theorem StaysEnabled.finish {kind : Kind} {severity : LogLevel} {l : Levels}
    {as : List Action} (h : StaysEnabled kind severity l as) :
    (levelsAfter l as).isEnabled kind severity = true := by
  induction as generalizing l with
  | nil => exact h
  | cons a as ih => exact ih h.2

theorem Action.zero_notMem_text (hex : Bool) (a : Action) :
    0 ∉ a.text hex := by
  cases a with
  | write c => exact Stream.zero_notMem_text hex c
  | setLogLevel level => exact List.not_mem_nil
  | setGlobalLogLevel level => exact List.not_mem_nil

theorem zero_notMem_texts (hex : Bool) (as : List Action) :
    0 ∉ texts hex as := by
  induction as generalizing hex with
  | nil => exact List.not_mem_nil
  | cons a as ih =>
      rw [texts, List.mem_append, not_or]
      exact ⟨a.zero_notMem_text hex, ih _⟩

/-- A record that stays enabled shows all of its texts. -/
theorem StaysEnabled.shown_eq {kind : Kind} {severity : LogLevel}
    {l : Levels} {as : List Action} (h : StaysEnabled kind severity l as)
    (hex : Bool) : shown kind severity l hex as = texts hex as := by
  induction as generalizing l hex with
  | nil => rfl
  | cons a as ih =>
      rw [shown, texts, ih h.2, Action.shown, if_pos h.1]

/-- Short strings make short texts, whatever the levels leave of them. -/
theorem shownShort_of_short (kind : Kind) (severity : LogLevel)
    {as : List Action} (hstrings : ∀ c, .write c ∈ as →
      c.bytes.length < intMax) (l : Levels) (hex : Bool) :
    ShownShort kind severity l hex as := by
  have hzero : 0 < intMax := by simp [intMax]
  induction as generalizing l hex with
  | nil => exact True.intro
  | cons a as ih =>
      refine ⟨?_, ih (fun c hc =>
        hstrings c (List.mem_cons_of_mem _ hc)) _ _⟩
      unfold Action.shown
      split
      · cases a with
        | write c => exact length_text_lt hex (hstrings c (by simp))
        | setLogLevel level => exact hzero
        | setGlobalLogLevel level => exact hzero
      · exact hzero

/-- A prefix of `INT_MAX` bytes overflows. -/
theorem writePrefix_long {r : StreamLogData} {l : Levels}
    {env : Environment} {t p : List UInt8} (h : r.content.Holds t)
    (hen : r.isEnabled l = true)
    (hpre : printf r.prefixFormat (r.prefixArgs env) = some p)
    (hp : p.length = intMax) : r.writePrefix l env = none := by
  unfold StreamLogData.writePrefix
  cases r.context.kind with
  | file => exact writeFormatted_long hen hpre hp
  -- behind the colour, if there was room for that
  | console =>
      have hheader := appends_writeHeaderColor h hen
      unfold Appends at hheader
      split at hheader
      · obtain ⟨content, _, heq⟩ := hheader
        have hlong : (r.withContent content
              (headerText r.context r.data.level).length).writeFormatted l
            r.prefixFormat (r.prefixArgs env) = none :=
          writeFormatted_long hen hpre hp
        rw [heq, Option.bind_some]
        exact congrArg (Option.bind · _) hlong
      · simp only [hheader, Option.bind_none]

/-- The prefix, if the record is enabled in the beginning, and nothing if it is
not. -/
theorem init_puts {r : StreamLogData} {l : Levels} {env : Environment}
    {t p : List UInt8} (h : r.content.Holds t)
    (hpre : printf r.prefixFormat (r.prefixArgs env) = some p)
    (hp : p.length ≤ intMax) :
    Puts (r.isEnabled l = true → p.length < intMax) t
      (startText r.context r.data.level l p)
      (r.withContent · (startInvisible r.context r.data.level l))
      (r.init l env) := by
  unfold StreamLogData.init
  by_cases hen : r.isEnabled l = true
  · have htext : startText r.context r.data.level l p
        = linePrefix r.context r.data.level p := if_pos hen
    have hcount : startInvisible r.context r.data.level l
        = prefixInvisible r.context r.data.level := if_pos hen
    rw [if_pos hen, htext, hcount]
    apply Puts.of_appends
    · intro hshort
      exact appends_writePrefix h hen hpre (hshort hen)
    · -- a prefix that is not too long, and not short, has `INT_MAX` bytes
      intro hlong
      apply writePrefix_long h hen hpre
      apply Nat.le_antisymm hp
      by_contra hshort
      exact hlong fun _ => Nat.lt_of_not_le hshort
  · have htext : startText r.context r.data.level l p = [] := if_neg hen
    have hcount : startInvisible r.context r.data.level l = 0 := if_neg hen
    rw [if_neg hen, htext, hcount]
    refine (Puts.nothing h ?_).congr
      ⟨fun _ hen' => absurd hen' hen, fun _ => True.intro⟩
    rw [withContent_zero]
    rfl

/-- The prefix, and the texts behind it. -/
theorem after_puts {r : StreamLogData} {l : Levels} {env : Environment}
    {as : List Action} {p : List UInt8} (h : r.content.Holds [])
    (hstrings : ∀ c, .write c ∈ as → c.bytes.length ≤ intMax)
    (hpre : printf r.prefixFormat (r.prefixArgs env) = some p)
    (hp : p.length ≤ intMax) :
    Puts ((r.isEnabled l = true → p.length < intMax)
        ∧ ShownShort r.context.kind r.data.level l r.data.hexEnabled as) []
      (startText r.context r.data.level l p
        ++ shown r.context.kind r.data.level l r.data.hexEnabled as)
      (fun content => ⟨levelsAfter l as,
        (r.withContent content
          (startInvisible r.context r.data.level l)).written content
          (hexAfter r.data.hexEnabled as)⟩)
      (r.after l env as) := by
  apply (init_puts h hpre hp).bind
  intro content hholds
  exact run_puts (s := ⟨l, r.withContent content _⟩) hholds hstrings

/-- The line of a record that stays enabled, as far as it got: all texts are
shown, so it is the prefix and the texts if these fit a vector, and if not
the record does not come to its end. -/
theorem after_eq {r : StreamLogData} {l : Levels} {env : Environment}
    {as : List Action} {p : List UInt8} (h : r.content.Holds [])
    (hen : StaysEnabled r.context.kind r.data.level l as)
    (hstrings : ∀ c, .write c ∈ as → c.bytes.length < intMax)
    (hpre : printf r.prefixFormat (r.prefixArgs env) = some p)
    (hp : p.length < intMax) {u : List UInt8}
    (hu : u = linePrefix r.context r.data.level p
      ++ texts r.data.hexEnabled as) :
    if u.length < charVectorMaxSize then
      ∃ content hex, ByteArray.Holds content u
        ∧ r.after l env as = some ⟨levelsAfter l as,
          (r.withContent content
            (prefixInvisible r.context r.data.level)).written content hex⟩
    else r.after l env as = none := by
  have hstart : r.isEnabled l = true := hen.start
  have htext : startText r.context r.data.level l p
      = linePrefix r.context r.data.level p := if_pos hstart
  have hcount : startInvisible r.context r.data.level l
      = prefixInvisible r.context r.data.level := if_pos hstart
  have hputs := after_puts (l := l) h
    (fun c hc => Nat.le_of_lt (hstrings c hc)) hpre (Nat.le_of_lt hp)
  rw [htext, hcount, hen.shown_eq, ← hu] at hputs
  have hshort := shownShort_of_short r.context.kind r.data.level hstrings l
    r.data.hexEnabled
  split
  case isTrue hfits =>
      obtain ⟨content, hholds, heq⟩ := hputs.fits ⟨fun _ => hp, hshort⟩ (by
        rw [List.length_nil, Nat.zero_add]
        exact hfits)
      exact ⟨content, _, hholds, heq⟩
  case isFalse hlong =>
      apply hputs.refuses
      intro hfits
      rw [List.length_nil, Nat.zero_add] at hfits
      exact hlong hfits.2

theorem zero_notMem_content (context : StreamLogContext)
    (severity : LogLevel) (hex : Bool) (as : List Action) {p : List UInt8}
    (hp : 0 ∉ p) : 0 ∉ linePrefix context severity p ++ texts hex as := by
  rw [List.mem_append, not_or]
  exact ⟨zero_notMem_linePrefix _ _ hp, zero_notMem_texts _ _⟩

/-- The line that is flushed behind the texts: the suffix is put behind the
content, and since there is no NUL in either, the C string that is handed on
is all of both. -/
theorem after_flushLog_eq {r : StreamLogData} {l : Levels}
    {env : Environment} {as : List Action} {p s : List UInt8}
    (h : r.content.Holds [])
    (hen : StaysEnabled r.context.kind r.data.level l as)
    (hstrings : ∀ c, .write c ∈ as → c.bytes.length < intMax)
    (hpre : printf r.prefixFormat (r.prefixArgs env) = some p)
    (hp : p.length < intMax) (hp0 : 0 ∉ p)
    (hsuffix : suffixText r env = some s)
    (hs : (suffixString r.context.kind s).length < intMax) (hs0 : 0 ∉ s)
    (hpercent : r.context.kind = .file → 37 ∉ s) {u v : List UInt8}
    (hu : u = linePrefix r.context r.data.level p
      ++ texts r.data.hexEnabled as)
    (hv : v = lineSuffix r.context r.data.level env u.length
      (r.invisibleCharacterCount
        + prefixInvisible r.context r.data.level) s) :
    if u.length + v.length < charVectorMaxSize then
      ∃ w r', r.after l env as = some w
        ∧ w.record.flushLog w.levels env = some (r', some (u ++ v))
        ∧ r'.content.contents = u ++ v ++ [0]
    else ((r.after l env as).bind fun w =>
      w.record.flushLog w.levels env) = none := by
  have hafter := after_eq h hen hstrings hpre hp hu
  split at hafter
  case isFalse hlong =>
      rw [if_neg (by omega), hafter]
      rfl
  case isTrue hshort =>
      obtain ⟨array, hex, hholds, heq⟩ := hafter
      have hzero : 0 ∉ u := by
        rw [hu]
        exact zero_notMem_content _ _ _ _ hp0
      have hflush := flushLog_eq
        (r := (r.withContent array
          (prefixInvisible r.context r.data.level)).written array hex)
        env hholds hen.finish hsuffix hs hs0 hpercent hzero hv
      rw [heq, Option.bind_some]
      split at hflush
      case isFalse hlong =>
          rw [if_neg hlong]
          exact hflush
      case isTrue hshort =>
          obtain ⟨r', hline, hcontents⟩ := hflush
          rw [if_pos hshort]
          exact ⟨_, r', rfl, hline, hcontents⟩

/-- A record that stays enabled has the prefix and the texts of the values
in its content, without a NUL, and hands all of its content, with the
suffix, to the context. Only the length of a vector ends this. -/
theorem content_exact (memory : StaticData) (context : StreamLogContext)
    (data : LogInfo) (prefixFormat suffixFormat : List UInt8) (l : Levels)
    (env : Environment) (as : List Action) (p s : List UInt8) :
    let r := ((StreamLogData.fresh memory context data).setPrefixFormat
      prefixFormat).setSuffixFormat suffixFormat
    let content := linePrefix context data.level p
      ++ texts data.hexEnabled as
    let line := content ++ lineSuffix context data.level env content.length
      (prefixInvisible context data.level) s
    StaysEnabled context.kind data.level l as →
    (∀ c, .write c ∈ as → c.bytes.length < intMax) →
    printf r.prefixFormat (r.prefixArgs env) = some p →
    p.length < intMax → 0 ∉ p →
    suffixText r env = some s →
    (suffixString context.kind s).length < intMax → 0 ∉ s → 37 ∉ s →
    0 ∉ content
      ∧ (if content.length < charVectorMaxSize then
          ∃ u, r.after l env as = some u
            ∧ u.record.content.contents = content
        else r.after l env as = none)
      ∧ (if line.length < charVectorMaxSize then
          ∃ u r', r.after l env as = some u
            ∧ u.record.flushLog u.levels env = some (r', some line)
            ∧ r'.content.contents = line ++ [0]
        else ((r.after l env as).bind fun u =>
          u.record.flushLog u.levels env) = none) := by
  intro r content line hen hstrings hpre hp hp0 hsuffix hs hs0 hpercent
  have hempty : r.content.Holds [] := ByteArray.Holds.fresh memory
  refine ⟨zero_notMem_content _ _ _ _ hp0, ?_, ?_⟩
  · have hafter := after_eq hempty hen hstrings hpre hp (u := content) rfl
    split at hafter
    case isFalse hlong =>
        rw [if_neg hlong]
        exact hafter
    case isTrue hshort =>
        obtain ⟨array, hex, hholds, heq⟩ := hafter
        rw [if_pos hshort]
        exact ⟨_, heq, hholds.contents⟩
  · have hcount : (0 : Int) + prefixInvisible context data.level
        = prefixInvisible context data.level := Int.zero_add _
    have hlength : line.length = content.length + (lineSuffix context
        data.level env content.length (prefixInvisible context data.level)
        s).length := List.length_append
    rw [hlength]
    exact after_flushLog_eq hempty hen hstrings hpre hp hp0 hsuffix hs hs0
      (fun _ => hpercent) (u := content) rfl
      (congrArg (lineSuffix context data.level env content.length · s)
        hcount.symm)

-- ============================================================== a sample

/-- A context of the fixed inputs. -/
def sampleContextOf (kind : Kind) (colorSupport : Bool) :
    StreamLogContext where
  kind := kind
  context := sampleContext
  base := ⟨false, false⟩
  colorSupport := colorSupport

/-- The levels of the fixed inputs. -/
def sampleLevels : Levels := ⟨.debug, .debug⟩

/-- The surroundings of the fixed inputs. -/
def sampleEnvironment : Environment where
  seconds := 1
  milliseconds := 2
  thread := ⟨0, ascii ['a']⟩
  consoleWidth := 80
  memory := ByteArray.sampleMemory
  file := true

/-- Some values, and a level between them. -/
def sampleActions : List Action :=
  [.write (.int (-5)), .setLogLevel .info,
    .write (.string (ascii ['h', 'i']))]

/-- The prefix of the fixed inputs. -/
def samplePrefix : List UInt8 :=
  ascii ['0', '0', '0', '0', '1', '.', '0', '0', '2', ' ', '|', ' ', 'M',
    'A', 'I', 'N', ' ', '[', ' ', 'I', 'n', 'f', 'o', ' ', ' ', ']', ' ']

/-- The suffix of the fixed inputs. -/
def sampleSuffix : List UInt8 :=
  ascii [' ', '|', ' ', 'm', 'a', 'i', 'n', '.', 'c', ':', '1', '2', ' ']

theorem content_exact_sample :
    ∃ u r', (StreamLogData.fresh ByteArray.sampleMemory
        (sampleContextOf .file false) sampleInfo).after sampleLevels
          sampleEnvironment sampleActions = some u
      ∧ u.record.flushLog u.levels sampleEnvironment = some (r', some
        (samplePrefix ++ ascii ['-', '5', 'h', 'i'] ++ sampleSuffix))
      ∧ r'.content.contents
        = samplePrefix ++ ascii ['-', '5', 'h', 'i'] ++ sampleSuffix
          ++ [0] := by
  have hexact := (content_exact ByteArray.sampleMemory
    (sampleContextOf .file false) sampleInfo defaultPrefix defaultSuffix
    sampleLevels sampleEnvironment sampleActions samplePrefix sampleSuffix
    ⟨rfl, rfl, rfl, rfl⟩
    (by simp [sampleActions, WriteCall.bytes, ascii, intMax])
    rfl (by decide) (by decide) rfl (by decide) (by decide) (by decide)).2.2
  rw [if_pos (by decide)] at hexact
  exact hexact

end Stream

end IviLogging
