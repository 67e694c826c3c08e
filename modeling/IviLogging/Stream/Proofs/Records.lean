/-
What the functions of a record put behind its line.

All that a record does is made of pieces. `Appends` says of a function of
the record which text it puts behind the line, and how much of it takes no
room on the screen; or that the vector refuses to get that long. It is
closed under doing one after the other (`Appends.bind`), so a lemma for each
function follows the source, from the colours to the flush.

# The prefix

On a console it stands between two colours, in a file it is alone
(`appends_writePrefix`). The formats of prefix and suffix can be set, so
what they print, and that they can be printed, comes as a hypothesis; for
the default prefix it always holds.

# The suffix

It is printed into an array of its own first, because its length decides
about the blanks in front of it (`getSuffix_spec`). On a console the array
gets its line feed and is handed to `%s` (`suffixLine_spec`), so a percent
sign in it does no harm. In a file the array is the format itself, so the
suffix has to be free of conversions (`appends_writeSuffix`).

# The flush

The context gets the content as a C string, up to the first NUL. None of
the parts of a line has one, so the C string is all of the content
(`flushLog_eq`).
-/
import IviLogging.Stream.Proofs.Pieces

namespace IviLogging

open Printf (Arg printf cString intMax)

namespace Stream

-- ================================================================ records

/-- The record with another content, and some more characters that take no
room. -/
def StreamLogData.withContent (r : StreamLogData) (content : ByteArray)
    (k : Int) : StreamLogData :=
  { r with
    content := content
    invisibleCharacterCount := r.invisibleCharacterCount + k }

@[simp] theorem content_withContent (r : StreamLogData)
    (content : ByteArray) (k : Int) :
    (r.withContent content k).content = content := rfl

theorem withContent_withContent (r : StreamLogData)
    (content content' : ByteArray) (k k' : Int) :
    (r.withContent content k).withContent content' k'
      = r.withContent content' (k + k') := by
  simp only [StreamLogData.withContent, Int.add_assoc]

/-- What was done to a record that has the text `t` puts the text `u`
behind it, of which `k` characters take no room; or the vector refuses to
get that long. -/
def Appends (r : StreamLogData) (t u : List UInt8) (k : Int)
    (o : Option StreamLogData) : Prop :=
  if t.length + u.length < charVectorMaxSize then
    ∃ content : ByteArray, content.Holds (t ++ u)
      ∧ o = some (r.withContent content k)
  else o = none

section Pieces

variable {r : StreamLogData} {l : Levels} {t u v : List UInt8} {k k' : Int}
  {o : Option StreamLogData}

/-- Nothing was done. -/
theorem Appends.skip (h : r.content.Holds t) : Appends r t [] 0 (some r) := by
  unfold Appends
  rw [List.length_nil, Nat.add_zero, if_pos h.room, List.append_nil]
  refine ⟨r.content, h, ?_⟩
  simp only [StreamLogData.withContent, Int.add_zero]

/-- One piece after the other. If the first is too long for the vector, so are
the two together, and nothing else is done. -/
theorem Appends.bind {f : StreamLogData → Option StreamLogData}
    (h : Appends r t u k o)
    (hf : ∀ content : ByteArray, content.Holds (t ++ u) →
      Appends (r.withContent content k) (t ++ u) v k'
        (f (r.withContent content k))) :
    Appends r t (u ++ v) (k + k') (o.bind f) := by
  unfold Appends at h hf ⊢
  rw [List.length_append]
  split at h
  case isFalse hlong =>
      rw [if_neg (by omega), h]
      rfl
  case isTrue hshort =>
      obtain ⟨content, hholds, ho⟩ := h
      have hnext := hf content hholds
      rw [ho, Option.bind_some]
      rw [List.length_append] at hnext
      split at hnext
      case isFalse hlong =>
          -- the first has room, the two together have not
          rw [if_neg (by omega)]
          exact hnext
      case isTrue hshort' =>
          obtain ⟨content', hholds', heq⟩ := hnext
          rw [if_pos (by omega)]
          refine ⟨content', ?_, ?_⟩
          · rw [← List.append_assoc]
            exact hholds'
          · rw [heq, withContent_withContent]

/-- The record behind a text that was put there. -/
theorem Appends.eq_some {r' : StreamLogData}
    (h : Appends r t u k (some r')) :
    r' = r.withContent r'.content k ∧ r'.content.Holds (t ++ u) := by
  unfold Appends at h
  split at h
  · obtain ⟨content, hholds, heq⟩ := h
    cases heq
    exact ⟨rfl, hholds⟩
  · cases h

/-- A piece of an enabled record, of a text shorter than `INT_MAX`. -/
theorem appends_writeFormatted {format : List UInt8} {args : List Arg}
    (h : r.content.Holds t) (hen : r.isEnabled l = true)
    (hprintf : printf format args = some u) (hu : u.length < intMax) :
    Appends r t u 0 (r.writeFormatted l format args) := by
  have hpiece := h.writeFormatted hprintf hu
  unfold Appends StreamLogData.writeFormatted
  rw [if_pos hen]
  split at hpiece
  case isFalse hlong =>
      rw [if_neg hlong, hpiece]
      rfl
  case isTrue hshort =>
      obtain ⟨b, rest, hb, hholds, _⟩ := hpiece
      rw [if_pos hshort]
      refine ⟨b, hholds, ?_⟩
      rw [hb, Option.map_some]
      simp only [StreamLogData.withContent, Int.add_zero]

/-- A value puts its text behind the line. -/
theorem appends_write {c : WriteCall} (h : r.content.Holds t)
    (hen : r.isEnabled l = true) (hc : c.bytes.length ≤ intMax)
    (htext : (c.text r.data.hexEnabled).length < intMax)
    (hvalue : ∀ enabled, c ≠ .setHexEnabled enabled) :
    Appends r t (c.text r.data.hexEnabled) 0 (r.write l c) := by
  obtain ⟨format, args, hwrite, hprintf, _⟩ := prints r l hvalue
  rw [hwrite]
  exact appends_writeFormatted h hen (hprintf (whole_of_short hc)) htext

/-- A piece of `INT_MAX` bytes overflows. -/
theorem writeFormatted_long {format : List UInt8} {args : List Arg}
    (hen : r.isEnabled l = true) (hprintf : printf format args = some u)
    (hu : u.length = intMax) : r.writeFormatted l format args = none := by
  have hsnprintf : Printf.snprintf format args = some (.printed u) := by
    rw [Printf.snprintf, hprintf, Option.map_some,
      if_pos (Nat.le_of_eq hu)]
  rw [StreamLogData.writeFormatted, if_pos hen, ByteArray.writeFormatted,
    hsnprintf, Option.bind_some,
    ByteArray.appendOutcome_long _ (Nat.le_of_eq hu.symm)]
  rfl

/-- A colour is a string that takes no room, if colours are supported: it is
put like any other text, and its length is added to the count. -/
theorem appends_writeColor {color : List UInt8} (h : r.content.Holds t)
    (hen : r.isEnabled l = true) (hzero : 0 ∉ color)
    (hcolor : color.length < intMax) :
    Appends r t (colored r.context color) (colored r.context color).length
      (r.writeColor l color) := by
  unfold StreamLogData.writeColor colored
  split
  case isFalse hoff => exact Appends.skip h
  case isTrue hon =>
      -- an escape has no NUL, so `%s` prints all of it
      have htext : (WriteCall.string color).text r.data.hexEnabled = color :=
        Printf.takeWhile_eq_self hzero
      have hwrite := appends_write (c := .string color) h hen
        (Nat.le_of_lt hcolor) (by rwa [htext]) (fun _ hne => by cases hne)
      rw [htext] at hwrite
      unfold Appends at hwrite ⊢
      split at hwrite
      case isFalse hlong =>
          rw [if_neg hlong, hwrite]
          rfl
      case isTrue hshort =>
          obtain ⟨content, hholds, heq⟩ := hwrite
          rw [if_pos hshort]
          refine ⟨content, hholds, ?_⟩
          rw [heq, Option.map_some]
          simp only [StreamLogData.withContent, Int.add_zero]

end Pieces

-- ======================================================= prefix and suffix

/-- The colours of the severities and the one behind them. -/
theorem headerColor_plain (severity : LogLevel) :
    0 ∉ StreamLogData.headerColor severity
      ∧ (StreamLogData.headerColor severity).length < intMax := by
  cases severity <;>
    simp [StreamLogData.headerColor, StreamLogData.ansiColorOff, ascii,
      intMax]

theorem resetColor_plain :
    0 ∉ StreamLogData.ansiColorOff ++ StreamLogData.ansiResetBright
      ∧ (StreamLogData.ansiColorOff
          ++ StreamLogData.ansiResetBright).length < intMax := by
  simp [StreamLogData.ansiColorOff, StreamLogData.ansiResetBright, ascii,
    intMax]

section Suffix

variable {r : StreamLogData} {l : Levels} {env : Environment}
  {t p s : List UInt8}

theorem appends_writeHeaderColor (h : r.content.Holds t)
    (hen : r.isEnabled l = true) :
    Appends r t (headerText r.context r.data.level)
      (headerText r.context r.data.level).length (r.writeHeaderColor l) :=
  appends_writeColor h hen (headerColor_plain _).1 (headerColor_plain _).2

theorem appends_resetColor (h : r.content.Holds t)
    (hen : r.isEnabled l = true) :
    Appends r t (resetText r.context) (resetText r.context).length
      (r.resetColor l) :=
  appends_writeColor h hen resetColor_plain.1 resetColor_plain.2

/-- The prefix: its text, and on a console a colour in front of it and one
behind it. -/
theorem appends_writePrefix (h : r.content.Holds t)
    (hen : r.isEnabled l = true)
    (hpre : printf r.prefixFormat (r.prefixArgs env) = some p)
    (hp : p.length < intMax) :
    Appends r t (linePrefix r.context r.data.level p)
      (prefixInvisible r.context r.data.level) (r.writePrefix l env) := by
  unfold linePrefix prefixInvisible StreamLogData.writePrefix
  cases r.context.kind with
  | file => exact appends_writeFormatted h hen hpre hp
  | console =>
      -- colour, text, colour; the text in between takes room
      rw [← Int.zero_add ((resetText r.context).length : Int)]
      apply (appends_writeHeaderColor h hen).bind
      intro content hc
      apply (appends_writeFormatted (r := r.withContent content _) hc hen
        hpre hp).bind
      intro content' hc'
      exact appends_resetColor hc' hen

/-- Blanks are printed one by one. -/
theorem appends_writeBlanks (n : Nat) (h : r.content.Holds t)
    (hen : r.isEnabled l = true) :
    Appends r t (List.replicate n 32) 0
      (StreamLogData.writeBlanks l n r) := by
  induction n generalizing r t with
  | zero => exact Appends.skip h
  | succ n ih =>
      have hblank : printf (ascii [' ']) [] = some [32] :=
        Printf.printf_literal (by simp [ascii]) []
      show Appends r t ([32] ++ List.replicate n 32) (0 + 0) _
      apply Appends.bind
        (appends_writeFormatted h hen hblank (by simp [intMax]))
      intro content hc
      exact ih hc hen

theorem printf_lineFeed (args : List Arg) :
    printf (ascii ['\n']) args = some [10] :=
  Printf.printf_literal (by simp [ascii]) args

/-- What is put between the line and the suffix: blanks, with a line feed in
front of them if the suffix does not fit behind the line. -/
theorem appends_writePadding (suffixSize : Nat) (h : r.content.Holds t)
    (hen : r.isEnabled l = true) :
    Appends r t
      (padding env t.length suffixSize r.invisibleCharacterCount) 0
      (r.writePadding l env suffixSize) := by
  unfold padding StreamLogData.writePadding
  rw [h.size]
  simp only
  split
  · show Appends r t ([10] ++ List.replicate _ 32) (0 + 0) _
    apply Appends.bind
      (appends_writeFormatted h hen (printf_lineFeed []) (by simp [intMax]))
    intro content hc
    exact appends_writeBlanks _ hc hen
  · exact appends_writeBlanks _ h hen

/-- The array of the suffix has its text, and a NUL behind it, which is the
one that the last formatting has written and dropped again. -/
theorem getSuffix_spec (hsuffix : suffixText r env = some s)
    (hs : s.length < intMax) :
    ∃ array rest, r.getSuffix env = some array ∧ array.Holds s
      ∧ array.getData = s ++ 0 :: rest := by
  have hint : intMax = 2 ^ 31 - 1 := rfl
  have hmax : charVectorMaxSize = 2 ^ 63 - 1 := rfl
  obtain ⟨location, hlocation, hrest⟩ :=
    Option.bind_eq_some_iff.mp hsuffix
  unfold StreamLogData.getSuffix
  have hfirst : location.length < intMax →
      ∃ array rest,
        (ByteArray.fresh env.memory).writeFormatted r.suffixFormat
          r.suffixArgs = some array
        ∧ array.Holds location ∧ array.getData = location ++ 0 :: rest := by
    intro hlength
    have hpiece := (ByteArray.Holds.fresh env.memory).writeFormatted
      hlocation hlength
    rw [List.length_nil, if_pos (by omega)] at hpiece
    exact hpiece
  split at hrest
  · next hinfo =>
      obtain ⟨thread, hthread, heq⟩ := Option.map_eq_some_iff.mp hrest
      subst heq
      rw [List.length_append] at hs
      obtain ⟨array, rest, harray, hholds, _⟩ := hfirst (by omega)
      have hpiece := hholds.writeFormatted hthread (by omega)
      rw [if_pos (by omega)] at hpiece
      simpa only [harray, Option.bind_some, if_pos hinfo] using hpiece
  · next hinfo =>
      cases hrest
      obtain ⟨array, rest, harray, hspec⟩ := hfirst hs
      refine ⟨array, rest, ?_, hspec⟩
      rw [harray, Option.bind_some, if_neg hinfo]

/-- The array of the suffix with its line feed, and what `%s` makes of
it. -/
theorem suffixLine_spec (hsuffix : suffixText r env = some s)
    (hs : s.length < intMax) (hzero : 0 ∉ s) :
    ∃ array array', r.getSuffix env = some array
      ∧ array.writeFormatted (ascii ['\n']) [] = some array'
      ∧ array'.size = (s ++ [10]).length
      ∧ printf (ascii ['%', 's']) [.string array'.getData]
        = some (s ++ [10]) := by
  have hint : intMax = 2 ^ 31 - 1 := rfl
  have hmax : charVectorMaxSize = 2 ^ 63 - 1 := rfl
  obtain ⟨array, rest, harray, hholds, _⟩ := getSuffix_spec hsuffix hs
  have hpiece := hholds.writeFormatted (printf_lineFeed [])
    (by simp [intMax])
  rw [if_pos (by simp; omega)] at hpiece
  obtain ⟨array', rest', harray', hholds', hmemory⟩ := hpiece
  refine ⟨array, array', harray, harray', hholds'.size, ?_⟩
  show printf [37, 115] _ = _
  rw [hmemory, Printf.printf_string_append,
    Printf.takeWhile_eq_self (by simp [hzero])]

/-- The suffix of a `FileLogData` is its own format, so it has to be free
of conversions. -/
theorem appends_writeSuffix (h : r.content.Holds t)
    (hen : r.isEnabled l = true) (hsuffix : suffixText r env = some s)
    (hs : (suffixString r.context.kind s).length < intMax)
    (hzero : 0 ∉ s) (hpercent : r.context.kind = .file → 37 ∉ s) :
    ∃ k, Appends r t
      (lineSuffix r.context r.data.level env t.length
        r.invisibleCharacterCount s) k (r.writeSuffix l env) := by
  unfold lineSuffix StreamLogData.writeSuffix
  cases hkind : r.context.kind with
  | file =>
      rw [hkind] at hs
      obtain ⟨array, rest, harray, hholds, hmemory⟩ :=
        getSuffix_spec hsuffix hs
      refine ⟨0, ?_⟩
      -- the C string in the array is the suffix, and it is a format now
      simp only
      rw [harray, Option.bind_some, hmemory, Printf.cString_append,
        Printf.takeWhile_eq_self hzero, Option.bind_some]
      exact appends_writeFormatted h hen
        (Printf.printf_literal (hpercent hkind) []) hs
  | console =>
      have hline : (s ++ [10]).length < intMax := by
        rw [hkind] at hs
        exact hs
      have hlength : s.length + 1 = (s ++ [10]).length := by simp
      refine ⟨(headerText r.context r.data.level).length
        + (0 + (0 + ((resetText r.context).length : Int))), ?_⟩
      apply (appends_writeHeaderColor h hen).bind
      intro content hc
      -- the blanks are counted with the length of the suffix and its line
      -- feed
      obtain ⟨array, array', harray, harray', hsize, hstring⟩ :=
        suffixLine_spec (r := r.withContent content _) hsuffix (by omega)
          hzero
      rw [harray, Option.bind_some, harray', Option.bind_some, hsize,
        ← List.length_append]
      apply (appends_writePadding (r := r.withContent content _) _ hc
        hen).bind
      intro content' hc'
      apply (appends_writeFormatted
        (r := (r.withContent content _).withContent content' _) hc' hen
        hstring hline).bind
      intro content'' hc''
      exact appends_resetColor hc'' hen

theorem zero_notMem_padding (contentSize suffixSize : Nat)
    (invisible : Int) :
    0 ∉ padding env contentSize suffixSize invisible := by
  unfold padding
  simp only
  split
  · simp
  · simp

theorem zero_notMem_colored (context : StreamLogContext)
    {color : List UInt8} (h : 0 ∉ color) : 0 ∉ colored context color := by
  unfold colored
  split
  · exact h
  · exact List.not_mem_nil

theorem zero_notMem_linePrefix (context : StreamLogContext)
    (severity : LogLevel) (hp : 0 ∉ p) :
    0 ∉ linePrefix context severity p := by
  have hheader := zero_notMem_colored context (headerColor_plain severity).1
  have hreset := zero_notMem_colored context resetColor_plain.1
  unfold linePrefix
  cases context.kind with
  | file => exact hp
  | console => simp [headerText, resetText, hp, hheader, hreset]

theorem zero_notMem_lineSuffix (context : StreamLogContext)
    (severity : LogLevel) (size : Nat) (invisible : Int) (hs : 0 ∉ s) :
    0 ∉ lineSuffix context severity env size invisible s := by
  have hheader := zero_notMem_colored context (headerColor_plain severity).1
  have hreset := zero_notMem_colored context resetColor_plain.1
  unfold lineSuffix
  cases context.kind with
  | file => exact hs
  | console =>
      simp [headerText, resetText, hs, hheader, hreset, zero_notMem_padding]

/-- The C string that is handed to the context is all of the content: there
is no NUL in it but the one that the flush puts behind it. -/
theorem flushLog_eq (env : Environment) (h : r.content.Holds t)
    (hen : r.isEnabled l = true)
    (hsuffix : suffixText r env = some s)
    (hs : (suffixString r.context.kind s).length < intMax)
    (hzero : 0 ∉ s) (hpercent : r.context.kind = .file → 37 ∉ s)
    (ht : 0 ∉ t) {u : List UInt8}
    (hu : u = lineSuffix r.context r.data.level env t.length
      r.invisibleCharacterCount s) :
    if t.length + u.length < charVectorMaxSize then
      ∃ r', r.flushLog l env = some (r', some (t ++ u))
        ∧ r'.content.contents = t ++ u ++ [0]
    else r.flushLog l env = none := by
  -- so the C string ends where the content does
  have hzero' : 0 ∉ t ++ u := by
    rw [hu, List.mem_append, not_or]
    exact ⟨ht, zero_notMem_lineSuffix _ _ _ _ hzero⟩
  obtain ⟨k, hwrite⟩ := appends_writeSuffix h hen hsuffix hs hzero hpercent
  rw [← hu] at hwrite
  unfold Appends at hwrite
  unfold StreamLogData.flushLog
  rw [if_pos hen]
  split at hwrite
  case isFalse hlong =>
      rw [if_neg hlong, hwrite]
      rfl
  case isTrue hshort =>
      obtain ⟨content, hholds, heq⟩ := hwrite
      obtain ⟨b, c, rest, hb, hc, hcontents, hmemory⟩ := hholds.terminate
      rw [if_pos hshort, heq, Option.bind_some, content_withContent, hb,
        Option.bind_some, hc, Option.bind_some, hmemory,
        Printf.cString_append, Printf.takeWhile_eq_self hzero',
        Option.map_some]
      exact ⟨_, rfl, hcontents⟩

end Suffix

end Stream

end IviLogging
