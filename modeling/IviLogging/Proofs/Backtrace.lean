/-
Which lines of a stack trace are taken apart, and into what.

A line of `backtrace_symbols` has a module, and in parentheses a mangled
name and an offset. The source looks for the three characters between them
in one pass, writes a NUL over each, and prints the parts.

# The search

The search notes the last opening parenthesis and the last plus sign, and
stops at the first closing parenthesis that comes behind a plus sign.
`Read` says what it knows of the bytes it has read, and `Scanned` what it
knows in the end (`scanned_scan`), by induction over what is left of the
line.

# The parts

A line is parsed exactly if it is a module, a name and an offset in their
places (`Frame`), and then these are the parts (`parse_eq_some_iff`). In one
direction the marks split the line (`split_at_marks`); in the other, the
form of the line says where the search stops (`scan_of_frame`), as there is
only one first closing parenthesis behind a plus sign (`end_unique`). A plus
sign or a parenthesis in the path of the module does no harm, unless a
closing one is behind a plus sign.

The NULs are written into the line itself, so the parts are C strings in the
memory it was in (`parts_of_memory`); the line has no NUL of its own.

# The output

What is printed follows: the parts of a frame, with the name demangled if
it can be, and any other line as it is (`frameText_spec`).
-/
import IviLogging.Backtrace
import IviLogging.Lib.LastAt

namespace IviLogging.Backtrace

-- ================================================================ the search

/-- No closing parenthesis is behind a plus sign. -/
def NoEnd (l : List UInt8) : Prop :=
  ∀ front back, l = front ++ 43 :: back → 41 ∉ back

/-- Nothing has been read. -/
theorem noEnd_nil : NoEnd [] := by
  intro front back h
  simp at h

/-- One byte more, which is no closing parenthesis, or comes before any plus
sign. -/
theorem noEnd_concat {l : List UInt8} {c : UInt8} (h : NoEnd l)
    (hc : c = 41 → 43 ∉ l) : NoEnd (l ++ [c]) := by
  intro front back heq
  rcases List.eq_nil_or_concat back with rfl | ⟨back, d, rfl⟩
  · exact List.not_mem_nil
  · rw [List.concat_eq_append, ← List.cons_append,
      ← List.append_assoc] at heq
    obtain ⟨hl, hd⟩ := List.append_inj' heq rfl
    rw [List.concat_eq_append]
    intro hmem
    rcases List.mem_append.mp hmem with hold | hnew
    · exact h front back hl hold
    · rw [List.mem_singleton] at hnew
      refine hc ?_ (by rw [hl]; simp)
      rw [(List.cons.inj hd).1, hnew]

/-- What the search knows of the bytes it has read. -/
structure Read (l : List UInt8) (marks : Marks) : Prop where
  beginName : LastAt 40 l marks.beginName
  beginOffset : LastAt 43 l marks.beginOffset
  endOffset : marks.endOffset = none
  noEnd : NoEnd l

/-- What it knows in the end: it has read the whole line, or it has stopped
at a closing parenthesis behind a plus sign. -/
inductive Scanned (line : List UInt8) (marks : Marks) : Prop
  | whole : Read line marks → Scanned line marks
  | stopped {l rest : List UInt8} : line = l ++ 41 :: rest →
      Read l { marks with endOffset := none } → 43 ∈ l →
      marks.endOffset = some l.length → Scanned line marks

/-- The search has a mark exactly if there was a plus sign. -/
theorem isSome_iff_mem {l : List UInt8} {marks : Marks} (h : Read l marks) :
    marks.beginOffset.isSome = true ↔ 43 ∈ l := by
  have hplus := h.beginOffset
  cases hoffset : marks.beginOffset with
  | none =>
      rw [hoffset] at hplus
      have hnot : 43 ∉ l := hplus
      simpa using hnot
  | some i =>
      rw [hoffset] at hplus
      obtain ⟨front, back, rfl, -, -⟩ := hplus
      simp

/-- One byte more, at which the search does not stop. -/
theorem read_other {l : List UInt8} {marks : Marks} {c : UInt8}
    (h : Read l marks) (hname : c ≠ 40) (hplus : c ≠ 43)
    (hc : ¬ (c = 41 ∧ marks.beginOffset.isSome = true)) :
    Read (l ++ [c]) marks := by
  refine ⟨h.beginName.concat_of_ne hname, h.beginOffset.concat_of_ne hplus,
    h.endOffset, noEnd_concat h.noEnd ?_⟩
  intro hclosing hmem
  exact hc ⟨hclosing, (isSome_iff_mem h).mpr hmem⟩

/-- The search from where it is, over what is left of the line. By induction
on that: each byte that is no end is read, and moves a mark or none. -/
theorem scanned_scan {l : List UInt8} {marks : Marks} (rest : List UInt8)
    (h : Read l marks) : Scanned (l ++ rest) (scan marks l.length rest) := by
  induction rest generalizing l marks with
  | nil =>
      rw [List.append_nil]
      exact .whole h
  | cons c rest ih =>
      have hnext : ∀ {marks' : Marks}, Read (l ++ [c]) marks' →
          Scanned (l ++ c :: rest) (scan marks' (l.length + 1) rest) := by
        intro marks' hread
        have hscan := ih hread
        rwa [List.length_append, List.length_singleton, List.append_assoc,
          List.singleton_append] at hscan
      -- an opening parenthesis, a plus sign, the end, or any other byte
      unfold scan
      split
      case isTrue hname =>
          subst hname
          apply hnext
          exact ⟨LastAt.concat_self 40 l,
            h.beginOffset.concat_of_ne (by decide), h.endOffset,
            noEnd_concat h.noEnd fun h => absurd h (by decide)⟩
      case isFalse hname =>
          split
          case isTrue hplus =>
              subst hplus
              apply hnext
              exact ⟨h.beginName.concat_of_ne (by decide),
                LastAt.concat_self 43 l, h.endOffset,
                noEnd_concat h.noEnd fun h => absurd h (by decide)⟩
          case isFalse hplus =>
              split
              case isTrue hend =>
                  obtain ⟨rfl, hsome⟩ := hend
                  exact .stopped rfl
                    ⟨h.beginName, h.beginOffset, rfl, h.noEnd⟩
                    ((isSome_iff_mem h).mp hsome) rfl
              case isFalse hend =>
                  exact hnext (read_other h hname hplus hend)

/-- The search of a line. -/
theorem scanned (line : List UInt8) : Scanned line (scan {} 0 line) :=
  scanned_scan line
    ⟨LastAt.nil 40, LastAt.nil 43, rfl, noEnd_nil⟩

-- ================================================================= the parts

/-- A line is a module, a name in parentheses with an offset, and a rest. -/
structure Frame (line : List UInt8) (parts : Parts) : Prop where
  line_eq : ∃ rest, line = parts.module ++ 40 :: (parts.name
    ++ 43 :: (parts.offset ++ 41 :: rest))
  name : 40 ∉ parts.name
  offset : 40 ∉ parts.offset ∧ 43 ∉ parts.offset
  noEnd : NoEnd (parts.module ++ 40 :: (parts.name ++ 43 :: parts.offset))

/-- The memory of a line with a NUL at each mark. -/
theorem memory_eq (module name offset rest : List UInt8) :
    ((((module ++ 40 :: (name ++ 43 :: (offset ++ 41 :: rest))) ++ [0]).set
        module.length 0).set (module.length + 1 + name.length) 0).set
      (module.length + 1 + name.length + 1 + offset.length) 0
      = module ++ 0 :: (name ++ 0 :: (offset ++ 0 :: (rest ++ [0]))) := by
  -- a byte is overwritten, in whose place there was one
  have hset : ∀ (front back : List UInt8) (c : UInt8) (n : Nat),
      front.length = n →
      (front ++ c :: back).set n 0 = front ++ 0 :: back := by
    intro front back c n hn
    rw [List.set_append_right _ _ (Nat.le_of_eq hn), hn, Nat.sub_self]
    rfl
  have hfirst := hset module (name ++ 43 :: (offset ++ 41 :: (rest ++ [0])))
    40 module.length rfl
  have hsecond := hset (module ++ 0 :: name)
    (offset ++ 41 :: (rest ++ [0])) 43 (module.length + 1 + name.length)
    (by simp; omega)
  have hthird := hset (module ++ 0 :: (name ++ 0 :: offset)) (rest ++ [0])
    41 (module.length + 1 + name.length + 1 + offset.length)
    (by simp; omega)
  simp only [List.append_assoc, List.cons_append] at hfirst hsecond hthird ⊢
  rw [hfirst, hsecond, hthird]

/-- The C strings in it. -/
theorem parts_of_memory {module name offset : List UInt8}
    (rest : List UInt8) (hmodule : 0 ∉ module) (hname : 0 ∉ name)
    (hoffset : 0 ∉ offset) :
    let memory := module ++ 0 :: (name ++ 0 :: (offset ++ 0 :: rest))
    cText memory = module
      ∧ cText (memory.drop (module.length + 1)) = name
      ∧ cText (memory.drop (module.length + 1 + name.length + 1))
        = offset := by
  intro memory
  have hdrop : ∀ (front back : List UInt8) (c : UInt8) (n : Nat),
      front.length + 1 = n → (front ++ c :: back).drop n = back := by
    intro front back c n hn
    rw [← hn, List.drop_append]
    simp
  refine ⟨cText_append hmodule _, ?_, ?_⟩
  · rw [hdrop _ _ _ _ rfl]
    exact cText_append hname _
  · have hmemory : memory = (module ++ 0 :: name) ++ 0 :: (offset
        ++ 0 :: rest) := by
      show module ++ 0 :: (name ++ 0 :: _) = _
      rw [List.append_assoc, List.cons_append]
    rw [hmemory, hdrop _ _ _ _ (by simp; omega)]
    exact cText_append hoffset _

/-- A line with its last marks in place is taken apart there. -/
theorem parse_of_marks {line : NulFree} {module name offset rest : List UInt8}
    (hline : line.bytes = module ++ 40 :: (name ++ 43 :: (offset
      ++ 41 :: rest)))
    (hscan : scan {} 0 line.bytes = ⟨some module.length,
      some (module.length + 1 + name.length),
      some (module.length + 1 + name.length + 1 + offset.length)⟩) :
    parse line = some ⟨module, name, offset⟩ := by
  have hzero : 0 ∉ module ∧ 0 ∉ name ∧ 0 ∉ offset := by
    have hnul := line.nul
    rw [hline] at hnul
    simp only [List.mem_append, List.mem_cons, not_or] at hnul
    exact ⟨hnul.1, hnul.2.2.1, hnul.2.2.2.2.1⟩
  obtain ⟨hmodule, hname, hoffset⟩ := hzero
  have hparts := parts_of_memory (rest ++ [0]) hmodule hname hoffset
  unfold parse
  rw [hscan]
  simp only
  rw [if_pos (by omega), hline, memory_eq, hparts.1, hparts.2.1, hparts.2.2]

/-- The two marks split what is in front of the end. -/
theorem split_at_marks {l module back front offset : List UInt8}
    (hname : l = module ++ 40 :: back) (hplus : l = front ++ 43 :: offset)
    (hlt : module.length < front.length) :
    ∃ name, front = module ++ 40 :: name ∧ back = name ++ 43 :: offset := by
  rcases List.append_eq_append_iff.mp (hname.symm.trans hplus) with
    ⟨mid, hfront, hrest⟩ | ⟨mid, hmodule, -⟩
  · cases mid with
    | nil => simp [hfront] at hlt
    | cons c mid =>
        obtain ⟨rfl, hback⟩ := List.cons.inj hrest
        exact ⟨mid, hfront, hback⟩
  · simp [hmodule] at hlt

/-- There is one first closing parenthesis behind a plus sign. -/
theorem end_unique {l l' rest rest' : List UInt8} (h : NoEnd l)
    (h' : NoEnd l') (hplus : 43 ∈ l) (hplus' : 43 ∈ l')
    (heq : l ++ 41 :: rest = l' ++ 41 :: rest') : l = l' := by
  -- what is longer has the end of the other one in it
  have hlonger : ∀ {l mid : List UInt8}, 43 ∈ l → ¬ NoEnd (l ++ 41 :: mid) := by
    intro l mid hmem hno
    obtain ⟨front, back, rfl⟩ := List.append_of_mem hmem
    refine hno front (back ++ 41 :: mid) ?_ (by simp)
    rw [List.append_assoc, List.cons_append]
  rcases List.append_eq_append_iff.mp heq with
    ⟨mid, hl', hrest⟩ | ⟨mid, hl, hrest⟩
  · cases mid with
    | nil => rw [hl', List.append_nil]
    | cons c mid =>
        obtain ⟨rfl, -⟩ := List.cons.inj hrest
        rw [hl'] at h'
        exact absurd h' (hlonger hplus)
  · cases mid with
    | nil => rw [hl, List.append_nil]
    | cons c mid =>
        obtain ⟨rfl, -⟩ := List.cons.inj hrest
        rw [hl] at h
        exact absurd h (hlonger hplus')

/-- Where the search stops, in a line that has the form of a frame. There is
an end in the line, and it is the first one, so what was read is the frame
up to it; and a last place is one place. -/
theorem scan_of_frame {line : List UInt8} {parts : Parts}
    (h : Frame line parts) :
    scan {} 0 line = ⟨some parts.module.length,
      some (parts.module.length + 1 + parts.name.length),
      some (parts.module.length + 1 + parts.name.length + 1
        + parts.offset.length)⟩ := by
  obtain ⟨⟨rest, hline⟩, hname, ⟨hoffset, hplus⟩, hno⟩ := h
  obtain ⟨module, name, offset⟩ := parts
  simp only at hline hname hoffset hplus hno ⊢
  have hfront : line = (module ++ 40 :: (name ++ 43 :: offset))
      ++ 41 :: rest := by simp [hline]
  -- there is a closing parenthesis behind a plus sign, so the search has
  -- stopped
  cases scanned line with
  | whole hread =>
      refine absurd ?_ (hread.noEnd (module ++ 40 :: name)
        (offset ++ 41 :: rest) (by simp [hline]))
      simp
  | @stopped l rest' hline' hread hmem hend =>
      have hl : l = module ++ 40 :: (name ++ 43 :: offset) :=
        end_unique hread.noEnd hno hmem (by simp)
          (hline'.symm.trans hfront)
      have hbeginName : LastAt 40 l (some module.length) := by
        refine ⟨module, name ++ 43 :: offset, hl, rfl, ?_⟩
        simp [hname, hoffset]
      have hbeginOffset : LastAt 43 l
          (some (module.length + 1 + name.length)) := by
        refine ⟨module ++ 40 :: name, offset, by simp [hl], ?_, hplus⟩
        simp
        omega
      have hlength : l.length
          = module.length + 1 + name.length + 1 + offset.length := by
        simp [hl]
        omega
      have hmarkName := hread.beginName.unique hbeginName
      have hmarkOffset := hread.beginOffset.unique hbeginOffset
      rw [hlength] at hend
      simp only at hmarkName hmarkOffset
      rw [← hmarkName, ← hmarkOffset, ← hend]

/-- A line is parsed exactly if it has the form of a frame, into the parts
of it. -/
theorem parse_eq_some_iff (line : NulFree) (parts : Parts) :
    parse line = some parts ↔ Frame line.bytes parts := by
  constructor
  · intro h
    have hmarks : ∃ beginName beginOffset endOffset,
        scan {} 0 line.bytes
          = ⟨some beginName, some beginOffset, some endOffset⟩
        ∧ beginName < beginOffset := by
      unfold parse at h
      split at h
      case h_1 beginName beginOffset endOffset hmarks =>
          split at h
          · exact ⟨beginName, beginOffset, endOffset, hmarks, by assumption⟩
          · cases h
      case h_2 => cases h
    obtain ⟨beginName, beginOffset, endOffset, hmarks, hlt⟩ := hmarks
    have hscanned := scanned line.bytes
    rw [hmarks] at hscanned
    cases hscanned with
    | whole hread => cases hread.endOffset
    | @stopped l rest hline hread hplus hend =>
        -- the marks say what is behind them: no opening parenthesis, no plus
        -- sign
        obtain ⟨module, back, hl, rfl, hback⟩ := hread.beginName
        obtain ⟨front, offset, hl', rfl, hoffset⟩ := hread.beginOffset
        obtain ⟨name, rfl, rfl⟩ := split_at_marks hl hl' hlt
        simp only [List.mem_append, List.mem_cons, not_or] at hback
        have hframe : Frame line.bytes ⟨module, name, offset⟩ := by
          refine ⟨⟨rest, by simp [hline, hl]⟩, hback.1,
            ⟨hback.2.2, hoffset⟩, ?_⟩
          rw [← hl]
          exact hread.noEnd
        obtain ⟨rest', hline'⟩ := hframe.line_eq
        have hparse := parse_of_marks hline' (scan_of_frame hframe)
        rw [hparse] at h
        rw [← Option.some.inj h]
        exact hframe
  · intro h
    obtain ⟨rest, hline⟩ := h.line_eq
    exact parse_of_marks hline (scan_of_frame h)

example : parse ⟨ascii ['.', '/', 'm', '(', 'f', '+', '0', 'x', '1', ')', ' ',
      '[', '0', 'x', '2', ']'], by decide⟩
    = some ⟨ascii ['.', '/', 'm'], ascii ['f'], ascii ['0', 'x', '1']⟩ := rfl

-- ================================================================ the output

/-- A frame is printed as its module, its function, demangled if it can be,
and its offset; any other line is printed as it is. -/
theorem frameText_spec (demangle : List UInt8 → Option (List UInt8))
    (line : NulFree) :
    (∀ parts, Frame line.bytes parts →
        frameText demangle line = ascii [' ', ' '] ++ parts.module
          ++ ascii [' ', ':', ' ']
          ++ (demangle parts.name).getD (parts.name ++ ascii ['(', ')'])
          ++ ascii ['+'] ++ parts.offset ++ ascii ['\n'])
      ∧ ((∀ parts, ¬ Frame line.bytes parts) →
        frameText demangle line
          = ascii [' ', ' '] ++ line.bytes ++ ascii ['\n'])
      ∧ ∀ parts parts', Frame line.bytes parts → Frame line.bytes parts' →
        parts = parts' := by
  refine ⟨?_, ?_, ?_⟩
  · intro parts hframe
    rw [← parse_eq_some_iff] at hframe
    simp only [frameText, hframe]
    cases demangle parts.name <;> rfl
  · intro hnone
    have hparse : parse line = none := by
      rw [Option.eq_none_iff_forall_ne_some]
      intro parts heq
      exact hnone parts ((parse_eq_some_iff line parts).mp heq)
    simp only [frameText, hparse]
  · intro parts parts' hframe hframe'
    rw [← parse_eq_some_iff] at hframe hframe'
    exact Option.some.inj (hframe.symm.trans hframe')

end IviLogging.Backtrace
