/-
Colours take no room.

Colours are supported or not, as the width of the terminal says when the
context is constructed. What they change of a line should be the colours,
and nothing else: not what is printed, not where the suffix is put.

# The line

A record of a console is its line in any run: the prefix, what the levels
let through, and the suffix in its place (`wholeLine`), as long as each
piece can be printed and the vector holds the line (`lineOf_eq`). That goes
in both directions, so it also says when nothing is defined, and that is
the same with colours and without but for their 34 bytes in the vector.

# The two lines

In that line a colour stands where it was put, and the padding depends on
the characters that were not counted as colours only (`padding_congr`). So
the two lines are made of the same prefix, text and suffix with its padding,
with colours around the first and the last or not (`wholeLine_withColors`).
The prefix may be missing, if the record was not enabled in the beginning;
then its colours are missing too.

# The escapes

`Colored` says that the one text is the other with colours.
A reader who deletes the escape sequences from it gets the other back,
unless there are escapes in the values themselves (`Colored.deleteAnsi_eq`).
-/
import IviLogging.Stream.Proofs.Layout

namespace IviLogging.Stream

open Printf (printf cString intMax)

-- =================================================================== runs

/-- What a record prints that goes through some actions and is flushed in
the surroundings `env'`. -/
def StreamLogData.lineOf (r : StreamLogData) (l : Levels)
    (env env' : Environment) (as : List Action) :
    Option (Option (OutputFile × List UInt8)) :=
  (r.after l env as).bind fun u => u.record.output u.levels env'

/-- The text of the record in the end: with the suffix, if it is enabled
then. -/
def wholeLine (context : StreamLogContext) (severity : LogLevel)
    (hex : Bool) (l : Levels) (env' : Environment) (as : List Action)
    (p s : List UInt8) : List UInt8 :=
  let text := startText context severity l p
    ++ shown context.kind severity l hex as
  if (levelsAfter l as).isEnabled context.kind severity then
    text ++ lineSuffix context severity env' text.length
      (startInvisible context severity l) s
  else text

/-- Each piece of it is one that can be printed. -/
def LineShort (kind : Kind) (severity : LogLevel) (hex : Bool) (l : Levels)
    (as : List Action) (p s : List UInt8) : Prop :=
  ((l.isEnabled kind severity = true → p.length < intMax)
      ∧ ShownShort kind severity l hex as)
    ∧ ((levelsAfter l as).isEnabled kind severity = true →
      (s ++ [10]).length < intMax)

-- ============================================================= the colours

/-- A text without the sequences that begin with an escape and end with an
`m`; the switch says if one has begun. -/
def deleteAnsiFrom : Bool → List UInt8 → List UInt8
  | _, [] => []
  | false, c :: cs =>
      if c = 27 then deleteAnsiFrom true cs
      else c :: deleteAnsiFrom false cs
  | true, c :: cs => deleteAnsiFrom (c != 109) cs

/-- A text without such sequences. -/
def deleteAnsi (t : List UInt8) : List UInt8 := deleteAnsiFrom false t

/-- The context with or without colours. -/
def StreamLogContext.withColors (context : StreamLogContext)
    (enabled : Bool) : StreamLogContext :=
  { context with colorSupport := enabled }

/-- The bytes of all colours of a line. -/
def colorSize : Nat := 34

/-- The text `t'` is `t` with colours: around the prefix, if there is one,
and around the suffix with its padding. -/
def Colored (severity : LogLevel) (t' t : List UInt8) : Prop :=
  let header := StreamLogData.headerColor severity
  let reset := StreamLogData.ansiColorOff ++ StreamLogData.ansiResetBright
  ∃ p v q : List UInt8, t = p ++ v ++ q
    ∧ (t' = header ++ (p ++ reset) ++ v ++ (header ++ (q ++ reset))
      ∨ p = [] ∧ t' = v ++ (header ++ (q ++ reset)))

/-- The same is printed but for the colours, which can be told from a text
without escape characters. -/
def SameButColors (severity : LogLevel) :
    Option (OutputFile × List UInt8) → Option (OutputFile × List UInt8) →
      Prop
  | some (file', t'), some (file, t) =>
      file' = file ∧ Colored severity t' t
        ∧ (27 ∉ t → deleteAnsi t' = t)
  | none, none => True
  | _, _ => False

section Delete

/-- A text without an escape is left alone. -/
theorem deleteAnsi_append {t : List UInt8} (h : 27 ∉ t) (rest : List UInt8) :
    deleteAnsi (t ++ rest) = t ++ deleteAnsi rest := by
  unfold deleteAnsi
  induction t with
  | nil => rfl
  | cons c t ih =>
      rw [List.mem_cons, not_or] at h
      rw [List.cons_append, deleteAnsiFrom, if_neg fun heq => h.1 heq.symm,
        ih h.2]
      rfl

/-- A colour is deleted: an escape, and all up to an `m`. -/
theorem deleteAnsi_headerColor (severity : LogLevel) (rest : List UInt8) :
    deleteAnsi (StreamLogData.headerColor severity ++ rest)
      = deleteAnsi rest := by
  cases severity <;> rfl

/-- So are the two sequences that end it. -/
theorem deleteAnsi_resetColor (rest : List UInt8) :
    deleteAnsi (StreamLogData.ansiColorOff ++ StreamLogData.ansiResetBright
      ++ rest) = deleteAnsi rest := rfl

/-- Without its colours the text is the plain one. Its parts have no escape, so
the colours around them are all that is deleted. -/
theorem Colored.deleteAnsi_eq {severity : LogLevel} {t' t : List UInt8}
    (h : Colored severity t' t) (hescape : 27 ∉ t) : deleteAnsi t' = t := by
  obtain ⟨p, v, q, heq, hcolors⟩ := h
  subst heq
  simp only [List.mem_append, not_or] at hescape
  obtain ⟨⟨hp, hv⟩, hq⟩ := hescape
  have hsuffix : deleteAnsi (StreamLogData.headerColor severity
      ++ (q ++ (StreamLogData.ansiColorOff
        ++ StreamLogData.ansiResetBright))) = q := by
    rw [deleteAnsi_headerColor, deleteAnsi_append hq]
    exact List.append_nil q
  rcases hcolors with hcolors | hcolors
  · rw [hcolors, List.append_assoc, List.append_assoc,
      deleteAnsi_headerColor, List.append_assoc, deleteAnsi_append hp,
      deleteAnsi_resetColor, deleteAnsi_append hv, hsuffix,
      List.append_assoc]
  · obtain ⟨hempty, hcolors⟩ := hcolors
    rw [hcolors, deleteAnsi_append hv, hsuffix, hempty, List.nil_append]

end Delete

-- ================================================================= the line

section Line

variable {r : StreamLogData} {l : Levels} {env env' : Environment}
  {as : List Action} {t p s : List UInt8}

/-- The padding is that of the characters that take room. -/
theorem padding_congr (env : Environment) (suffixSize : Nat) {a b : Nat}
    {i j : Int} (h : (a : Int) - i = b - j) :
    padding env a suffixSize i = padding env b suffixSize j := by
  have harg : (a : Int) + suffixSize - i = b + suffixSize - j := by omega
  unfold padding StreamLogData.remainingWidth
  rw [harg]

/-- A suffix of `INT_MAX` bytes overflows. -/
theorem writeSuffix_long (hkind : r.context.kind = .console)
    (h : r.content.Holds t) (hen : r.isEnabled l = true)
    (hsuffix : suffixText r env = some s) (hzero : 0 ∉ s)
    (hs : (s ++ [10]).length = intMax) : r.writeSuffix l env = none := by
  rw [Option.eq_none_iff_forall_ne_some]
  intro r' hr'
  have hshort := writeSuffix_short hkind h hen hsuffix hzero
    (Nat.le_of_eq hs.symm) hr'
  omega

theorem zero_notMem_shown (kind : Kind) (severity : LogLevel) (l : Levels)
    (hex : Bool) (as : List Action) : 0 ∉ shown kind severity l hex as := by
  induction as generalizing l hex with
  | nil => exact List.not_mem_nil
  | cons a as ih =>
      rw [shown, List.mem_append, not_or]
      refine ⟨?_, ih _ _⟩
      unfold Action.shown
      split
      · exact a.zero_notMem_text hex
      · exact List.not_mem_nil

theorem zero_notMem_startText (context : StreamLogContext)
    (severity : LogLevel) (l : Levels) (hp : 0 ∉ p) :
    0 ∉ startText context severity l p := by
  unfold startText
  split
  · exact zero_notMem_linePrefix context severity hp
  · exact List.not_mem_nil

/-- An enabled record prints its content with the suffix, if the suffix can
be printed and the vector holds both. -/
theorem output_eq_some_iff (env : Environment)
    (hkind : r.context.kind = .console)
    (h : r.content.Holds t) (ht : 0 ∉ t) (hen : r.isEnabled l = true)
    (hsuffix : suffixText r env = some s)
    (hs : (s ++ [10]).length ≤ intMax) (hs0 : 0 ∉ s) {u : List UInt8}
    (hu : u = lineSuffix r.context r.data.level env t.length
      r.invisibleCharacterCount s) (o : Option (OutputFile × List UInt8)) :
    r.output l env = some o
      ↔ (s ++ [10]).length < intMax
        ∧ t.length + u.length < charVectorMaxSize
        ∧ o = (getFile env .console r.data.level).map (·, t ++ u) := by
  -- a suffix of `INT_MAX` bytes is the one that cannot be printed
  by_cases hshort : (s ++ [10]).length < intMax
  · have hstring : (suffixString r.context.kind s).length < intMax := by
      rw [hkind]
      exact hshort
    have hflush := flushLog_eq env h hen hsuffix hstring hs0 (fun hfile => by
      rw [hkind] at hfile
      cases hfile) ht hu
    split at hflush
    case isTrue hroom =>
        obtain ⟨r', hflush, _⟩ := hflush
        have hout : r.output l env
            = some ((getFile env .console r.data.level).map
              (·, t ++ u)) := by
          rw [StreamLogData.output, hflush, ← hkind]
          rfl
        rw [hout, Option.some.injEq]
        constructor
        · intro heq
          exact ⟨hshort, hroom, heq.symm⟩
        · intro hall
          exact hall.2.2.symm
    case isFalse hlong =>
        have hout : r.output l env = none := by
          rw [StreamLogData.output, hflush]
          rfl
        rw [hout]
        constructor
        · intro heq
          cases heq
        · intro hall
          exact absurd hall.2.1 hlong
  · have hlong := writeSuffix_long hkind h hen hsuffix hs0 (by omega)
    have hout : r.output l env = none := by
      rw [StreamLogData.output, StreamLogData.flushLog, if_pos hen, hlong]
      rfl
    rw [hout]
    constructor
    · intro heq
      cases heq
    · intro hall
      exact absurd hall.1 hshort

/-- The record prints its line exactly if each piece of it can be printed
and the vector holds the line. A record that is disabled in the end prints
nothing, but must have been written all the same. -/
theorem lineOf_eq (hkind : r.context.kind = .console)
    (h : r.content.Holds []) (hcount : r.invisibleCharacterCount = 0)
    (hstrings : ∀ c, .write c ∈ as → c.bytes.length ≤ intMax)
    (hpre : printf r.prefixFormat (r.prefixArgs env) = some p)
    (hp : p.length ≤ intMax) (hp0 : 0 ∉ p)
    (hsuffix : suffixText r env' = some s)
    (hs : (s ++ [10]).length ≤ intMax) (hs0 : 0 ∉ s) {line : List UInt8}
    (hline : line = wholeLine r.context r.data.level r.data.hexEnabled l env'
      as p s) (o : Option (OutputFile × List UInt8)) :
    r.lineOf l env env' as = some o
      ↔ LineShort r.context.kind r.data.level r.data.hexEnabled l as p s
        ∧ line.length < charVectorMaxSize
        ∧ o = if (levelsAfter l as).isEnabled r.context.kind r.data.level
          then (getFile env' .console r.data.level).map (·, line)
          else none := by
  have hputs := after_puts (l := l) h hstrings hpre hp
  have hzero : 0 ∉ startText r.context r.data.level l p
      ++ shown r.context.kind r.data.level l r.data.hexEnabled as := by
    rw [List.mem_append, not_or]
    exact ⟨zero_notMem_startText _ _ _ hp0, zero_notMem_shown _ _ _ _ _⟩
  unfold wholeLine at hline
  simp only at hline
  generalize startText r.context r.data.level l p
    ++ shown r.context.kind r.data.level l r.data.hexEnabled as = text
    at hputs hzero hline
  -- if the line has room, so had the text in front of the suffix
  have hle : text.length ≤ line.length := by
    rw [hline]
    split
    · rw [List.length_append]
      exact Nat.le_add_right _ _
    · exact Nat.le_refl _
  unfold StreamLogData.lineOf
  cases hafter : r.after l env as with
  | none =>
      constructor
      · intro heq
        cases heq
      · intro hall
        obtain ⟨hshort, hroom, _⟩ := hall
        obtain ⟨content, _, heq⟩ := hputs.fits hshort.1 (by
          rw [List.length_nil, Nat.zero_add]
          exact Nat.lt_of_le_of_lt hle hroom)
        rw [hafter] at heq
        cases heq
  | some u =>
      obtain ⟨hshort, hroom, content, hholds, hu⟩ := hputs.eq_some hafter
      rw [List.length_nil, Nat.zero_add] at hroom
      rw [Option.bind_some]
      by_cases hen : (levelsAfter l as).isEnabled r.context.kind
          r.data.level = true
      · rw [if_pos hen] at hline
        have hsum : line.length = text.length + (lineSuffix r.context
            r.data.level env' text.length
            (startInvisible r.context r.data.level l) s).length := by
          rw [hline, List.length_append]
        have hinvisible : u.record.invisibleCharacterCount
            = startInvisible r.context r.data.level l := by
          rw [hu]
          show r.invisibleCharacterCount + _ = _
          rw [hcount, Int.zero_add]
        have hout : u.record.context.kind = .console
            ∧ u.record.content.Holds text
            ∧ u.record.isEnabled u.levels = true
            ∧ suffixText u.record env' = some s := by
          rw [hu]
          exact ⟨hkind, hholds, hen, hsuffix⟩
        obtain ⟨hkind', hholds', hen', hsuffix'⟩ := hout
        have hiff := output_eq_some_iff env' hkind' hholds' hzero hen'
          hsuffix' hs hs0 rfl o
        have hcontext : u.record.context = r.context := by
          rw [hu]
          rfl
        have hlevel : u.record.data.level = r.data.level := by
          rw [hu]
          rfl
        rw [hinvisible, hcontext, hlevel, ← hsum, ← hline] at hiff
        rw [hiff, if_pos hen]
        constructor
        · intro hall
          exact ⟨⟨hshort, fun _ => hall.1⟩, hall.2⟩
        · intro hall
          exact ⟨hall.1.2 hen, hall.2⟩
      · rw [if_neg hen] at hline
        -- nothing is flushed, and that is defined
        have hdisabled : ¬ u.record.isEnabled u.levels = true := by
          rw [hu]
          exact hen
        have hout : u.record.output u.levels env' = some none := by
          rw [StreamLogData.output, StreamLogData.flushLog,
            if_neg hdisabled]
          rfl
        rw [hout, if_neg hen, Option.some.injEq, hline]
        constructor
        · intro heq
          exact ⟨⟨hshort, fun hen' => absurd hen' hen⟩, hroom, heq.symm⟩
        · intro hall
          exact hall.2.2.symm

end Line

-- ============================================================ the two runs

section Colors

variable {context : StreamLogContext}

theorem length_headerColor_le (severity : LogLevel) :
    (StreamLogData.headerColor severity).length ≤ 9 := by
  cases severity <;>
    simp [StreamLogData.headerColor, StreamLogData.ansiColorOff, ascii]

/-- The prefix with its colours and without, if there is one. -/
theorem startText_withColors (hkind : context.kind = .console)
    (severity : LogLevel) (l : Levels) (p : List UInt8) :
    (startText (context.withColors true) severity l p
        = if l.isEnabled context.kind severity then
            StreamLogData.headerColor severity
              ++ (p ++ (StreamLogData.ansiColorOff
                ++ StreamLogData.ansiResetBright))
          else [])
      ∧ startText (context.withColors false) severity l p
        = if l.isEnabled context.kind severity then p else [] := by
  have hon : linePrefix (context.withColors true) severity p
      = StreamLogData.headerColor severity
        ++ (p ++ (StreamLogData.ansiColorOff
          ++ StreamLogData.ansiResetBright)) := by
    rw [linePrefix, show (context.withColors true).kind = .console from hkind]
    rfl
  have hoff : linePrefix (context.withColors false) severity p = p := by
    rw [linePrefix, show (context.withColors false).kind = .console from
      hkind]
    exact List.append_nil p
  rw [startText, startText, hon, hoff]
  exact ⟨rfl, rfl⟩

/-- The suffix is the same between the colours, behind lines that take the
same room. -/
theorem lineSuffix_withColors (hkind : context.kind = .console)
    (severity : LogLevel) (env : Environment) (s : List UInt8)
    {size size' : Nat} {i i' : Int} (h : (size : Int) - i = size' - i') :
    ∃ q, lineSuffix (context.withColors true) severity env size i s
        = StreamLogData.headerColor severity
          ++ (q ++ (StreamLogData.ansiColorOff
            ++ StreamLogData.ansiResetBright))
      ∧ lineSuffix (context.withColors false) severity env size' i' s
        = q := by
  have hcount : ((size + (StreamLogData.headerColor severity).length : Nat)
        : Int) - (i + (StreamLogData.headerColor severity).length)
      = (size' + 0 : Nat) - (i' + (0 : Nat)) := by omega
  have hpadding := padding_congr env (s ++ [10]).length hcount
  refine ⟨padding env (size' + 0) (s ++ [10]).length (i' + (0 : Nat))
    ++ (s ++ [10]), ?_, ?_⟩
  · rw [lineSuffix, show (context.withColors true).kind = .console from
      hkind, ← hpadding]
    show _ ++ (_ ++ (s ++ [10] ++ _)) = _ ++ (_ ++ (s ++ [10]) ++ _)
    rw [List.append_assoc _ (s ++ [10])]
    rfl
  · rw [lineSuffix, show (context.withColors false).kind = .console from
      hkind]
    show [] ++ (_ ++ (s ++ [10] ++ [])) = _
    rw [List.append_nil, List.nil_append]
    rfl

/-- The whole line with colours and without. The colours are counted as taking
no room, so the padding is the same in both, and what differs are the
escapes in front of the prefix, behind it, and around the suffix. -/
theorem wholeLine_withColors (hkind : context.kind = .console)
    (severity : LogLevel) (hex : Bool) (l : Levels) (env : Environment)
    (as : List Action) (p s : List UInt8) {line line' : List UInt8}
    (hline' : line' = wholeLine (context.withColors true) severity hex l env
      as p s)
    (hline : line = wholeLine (context.withColors false) severity hex l env
      as p s) :
    ((levelsAfter l as).isEnabled context.kind severity = true →
        Colored severity line' line)
      ∧ line.length ≤ line'.length
      ∧ line'.length ≤ line.length + colorSize := by
  have hsize := length_headerColor_le severity
  have hreset : (StreamLogData.ansiColorOff
      ++ StreamLogData.ansiResetBright).length = 8 := rfl
  have hcolors : colorSize = 34 := rfl
  obtain ⟨hon, hoff⟩ := startText_withColors hkind severity l p
  have hroom := length_startText
    (show (context.withColors true).kind = .console from hkind) severity l p
  have hroom' := length_startText
    (show (context.withColors false).kind = .console from hkind) severity l p
  rw [show (context.withColors true).kind = context.kind from rfl] at hroom
  rw [show (context.withColors false).kind = context.kind from rfl]
    at hroom'
  -- without the colours the two lines are as long as each other so far
  have hsame : ∀ v : List UInt8,
      ((startText (context.withColors true) severity l p ++ v).length : Int)
          - startInvisible (context.withColors true) severity l
        = (startText (context.withColors false) severity l p ++ v).length
          - startInvisible (context.withColors false) severity l := by
    intro v
    rw [List.length_append, List.length_append]
    omega
  have hsuffix := lineSuffix_withColors hkind severity env s
    (hsame (shown context.kind severity l hex as))
  obtain ⟨q, hq', hq⟩ := hsuffix
  unfold wholeLine at hline hline'
  simp only at hline hline'
  rw [show (context.withColors true).kind = context.kind from rfl, hq', hon]
    at hline'
  rw [show (context.withColors false).kind = context.kind from rfl, hq,
    hoff] at hline
  generalize shown context.kind severity l hex as = v at hline hline'
  by_cases hen : (levelsAfter l as).isEnabled context.kind severity = true
  · rw [if_pos hen] at hline hline'
    -- with a prefix or without one
    by_cases hstart : l.isEnabled context.kind severity = true
    · rw [if_pos hstart] at hline hline'
      refine ⟨fun _ => ⟨p, v, q, hline, Or.inl hline'⟩, ?_⟩
      rw [hline, hline']
      simp only [List.length_append] at hreset ⊢
      omega
    · rw [if_neg hstart] at hline hline'
      refine ⟨fun _ => ⟨[], v, q, hline, Or.inr ⟨rfl, hline'⟩⟩, ?_⟩
      rw [hline, hline']
      simp only [List.length_append] at hreset ⊢
      omega
  · rw [if_neg hen] at hline hline'
    refine ⟨fun hen' => absurd hen' hen, ?_⟩
    rw [hline, hline']
    split
    · simp only [List.length_append] at hreset ⊢
      omega
    · exact ⟨Nat.le_refl _, Nat.le_add_right _ _⟩

end Colors

/-- A record of a console prints the same with colours and without, but for
the colours, in any run in which no piece is longer than `INT_MAX` bytes.
With colours it prints whatever it prints without them, unless the vector
is too full for the colours. -/
theorem colours_invisible {memory : StaticData} {context : StreamLogContext}
    {data : LogInfo} {prefixFormat suffixFormat p s : List UInt8} {l : Levels}
    {env env' : Environment} {as : List Action} :
    let r := fun colors : Bool => ((StreamLogData.fresh memory
      (context.withColors colors) data).setPrefixFormat
        prefixFormat).setSuffixFormat suffixFormat
    context.kind = .console → 0 ∉ prefixFormat → 0 ∉ suffixFormat →
    (∀ c, .write c ∈ as → c.bytes.length ≤ intMax) →
    printf prefixFormat ((r false).prefixArgs env) = some p →
    p.length ≤ intMax →
    suffixText (r false) env' = some s → (s ++ [10]).length ≤ intMax →
    (∀ o', (r true).lineOf l env env' as = some o' →
        ∃ o, (r false).lineOf l env env' as = some o
          ∧ SameButColors data.level o' o)
      ∧ ((wholeLine (context.withColors false) data.level data.hexEnabled l
            env' as p s).length + colorSize < charVectorMaxSize →
          ∀ o, (r false).lineOf l env env' as = some o →
            ∃ o', (r true).lineOf l env env' as = some o') := by
  intro r hkind hp0 hs0 hstrings hpre hp hsuffix hs
  have hzero := zero_notMem_suffixText hsuffix hs0
    zero_notMem_defaultThreadNameSuffix
  have hempty : (ByteArray.fresh memory).Holds [] :=
    ByteArray.Holds.fresh memory
  have hon := lineOf_eq (r := r true) (l := l) hkind hempty rfl hstrings hpre
    hp (Printf.zero_notMem_printf hp0 hpre) hsuffix hs hzero rfl
  have hoff := lineOf_eq (r := r false) (l := l) hkind hempty rfl hstrings
    hpre hp (Printf.zero_notMem_printf hp0 hpre) hsuffix hs hzero rfl
  obtain ⟨hcolored, hle, hmore⟩ := wholeLine_withColors (p := p) (s := s)
    hkind data.level data.hexEnabled l env' as rfl rfl
  constructor
  · intro o' ho'
    obtain ⟨hshort, hroom, heq⟩ := (hon o').mp ho'
    -- the plain line has the same pieces, and is shorter
    refine ⟨_, (hoff _).mpr ⟨hshort, Nat.lt_of_le_of_lt hle hroom, rfl⟩, ?_⟩
    rw [heq]
    show SameButColors data.level
      (if (levelsAfter l as).isEnabled context.kind data.level then _ else _)
      (if (levelsAfter l as).isEnabled context.kind data.level then _ else _)
    by_cases hen : (levelsAfter l as).isEnabled context.kind data.level = true
    · rw [if_pos hen, if_pos hen]
      have hall := hcolored hen
      exact ⟨rfl, hall, fun hescape => hall.deleteAnsi_eq hescape⟩
    · rw [if_neg hen, if_neg hen]
      exact True.intro
  · intro hroom o ho
    obtain ⟨hshort, _, _⟩ := (hoff o).mp ho
    exact ⟨_, (hon _).mpr ⟨hshort, Nat.lt_of_le_of_lt hmore hroom, rfl⟩⟩

-- ============================================================== a sample

/-- An error with two values on a console. -/
def errorRecord (colors : Bool) : StreamLogData :=
  .fresh ByteArray.sampleMemory
    ((sampleContextOf .console false).withColors colors)
    { sampleInfo with level := .error }

/-- Its prefix. -/
def errorPrefix : List UInt8 :=
  ascii ['0', '0', '0', '0', '1', '.', '0', '0', '2', ' ', '|', ' ', 'M',
    'A', 'I', 'N', ' ', '[', ' ', 'E', 'r', 'r', 'o', 'r', ' ', ']', ' ']

theorem colours_invisible_sample :
    (∀ o', (errorRecord true).lineOf sampleLevels sampleEnvironment
          sampleEnvironment sampleActions = some o' →
        ∃ o, (errorRecord false).lineOf sampleLevels sampleEnvironment
            sampleEnvironment sampleActions = some o
          ∧ SameButColors .error o' o)
      ∧ ((wholeLine ((sampleContextOf .console false).withColors false)
            .error false sampleLevels sampleEnvironment sampleActions
            errorPrefix sampleSuffix).length + colorSize
            < charVectorMaxSize →
          ∀ o, (errorRecord false).lineOf sampleLevels sampleEnvironment
            sampleEnvironment sampleActions = some o →
            ∃ o', (errorRecord true).lineOf sampleLevels sampleEnvironment
              sampleEnvironment sampleActions = some o') := by
  exact @colours_invisible ByteArray.sampleMemory
    (sampleContextOf .console false) { sampleInfo with level := .error }
    defaultPrefix defaultSuffix errorPrefix sampleSuffix sampleLevels
    sampleEnvironment sampleEnvironment sampleActions rfl (by decide)
    (by decide) (by simp [sampleActions, WriteCall.bytes, ascii, intMax])
    rfl (by decide) rfl (by decide)

end IviLogging.Stream
