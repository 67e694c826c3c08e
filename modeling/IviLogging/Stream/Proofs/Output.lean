/-
Lines of several threads.

`write` has a mutex, and a call holds it from the look at the file to the
flush. So although a line goes to its file character by character, and the
library hands on what it likes of it before the flush, the lines in a file
are whole, whoever printed them and however the threads took turns.

# The invariant

Between two calls each file holds the lines that were printed to it, one
behind the other, and nothing is left in a buffer (`Printed`). Inside of a
call one file has a part of one line more (`Begun`), and where the call is
says which part (`InWrite`). These are invariants of one operation in the
sense of the library: it is enough that a call takes the first to the
second, keeps that with each step, and ends in the first again
(`invariant_write`). The library gives them for every run of any number of
threads (`lines_whole`).

# The log file

`setFilePath` takes no mutex, so the file of the `FileLogContext`s may be
opened at any time, also while a thread is inside. It changes nothing that
the invariant looks at: a file that is not open has no line and nothing in
its buffer (`Recorded.closed`), and opening it once more does nothing.

Until it is opened the lines for it are dropped, and from then on none is.
The second half needs an invariant of its own, as it is about the part of
the history behind the opening (`Opened`, `invariant_opened`); it begins
with the state in which the file was opened (`holds_opening`). Which calls
are missing is then a matter of where the run is cut (`settled_run`): those
that were over by the opening, and no others. A call that had begun by
then, and even has the mutex, finds the file.

# The calls

That the lines in the files are exactly those that were handed to `write`,
in the order of each thread, is the library's second rule; together with
the above it is `lines_of_threads`.
-/
import IviLogging.Stream.Output

namespace IviLogging.Stream

open CriticalSection (Done Event Invariant Holds)

-- ==================================================================== files

section Files

variable (files : Files) (file : OutputFile) (c : UInt8) (handed : Nat)

/-- A character that is put is behind all there is of the file, whatever part of
it is handed on. -/
theorem put_self : (files.put file c handed).written file
      ++ (files.put file c handed).buffer file
    = files.written file ++ files.buffer file ++ [c] := by
  simp [Files.put, List.append_assoc]

/-- A flush hands on what is in the buffer. -/
theorem flush_self : (files.flush file).buffer file = []
    ∧ (files.flush file).written file
      = files.written file ++ files.buffer file := by
  simp [Files.flush]

variable {files file} {other : OutputFile}

/-- The other files do not see it. -/
theorem put_of_ne (h : other ≠ file) :
    (files.put file c handed).buffer other = files.buffer other
      ∧ (files.put file c handed).written other = files.written other := by
  simp [Files.put, h]

theorem flush_of_ne (h : other ≠ file) :
    (files.flush file).buffer other = files.buffer other
      ∧ (files.flush file).written other = files.written other := by
  simp [Files.flush, h]

end Files

-- ==================================================================== lines

section Lines

variable {θ : Type}

/-- The lines of a history that were printed to a file. -/
def linesOf (file : OutputFile)
    (history : List (Done θ Print (Option OutputFile))) : List UInt8 :=
  (history.filter fun done => done.result = some file).flatMap
    fun done => done.op.s

/-- One call more in the history: a line more in the file it was printed to. -/
theorem linesOf_append (file : OutputFile)
    (history : List (Done θ Print (Option OutputFile))) (t : θ) (c : Print)
    (result : Option OutputFile) :
    linesOf file (history ++ [⟨t, c, result⟩])
      = linesOf file history ++ if result = some file then c.s else [] := by
  unfold linesOf
  by_cases h : result = some file
  · simp [h]
  · simp [h]

/-- A call printed to the file of its kind, if there was one: errors on a
console go to `stderr`, and only the `FileLogContext`s can have none. -/
def Directed (done : Done θ Print (Option OutputFile)) : Prop :=
  match done.op.kind with
  | .console => done.result
      = some (if done.op.severity = .error then .stderr else .stdout)
  | .file => done.result = none ∨ done.result = some .logFile

-- ============================================================ the invariants

/-- What holds of a history at any time: as long as the file of the
`FileLogContext`s is not open, the lines for it are dropped. -/
structure Recorded (history : List (Done θ Print (Option OutputFile)))
    (logFile : Bool) : Prop where
  directed : ∀ done ∈ history, Directed done
  dropped : logFile = false →
    ∀ done ∈ history, done.op.kind = .file → done.result = none

/-- Each file holds its lines, and its buffer is empty. -/
structure Printed (history : List (Done θ Print (Option OutputFile)))
    (files : Files) : Prop where
  recorded : Recorded history files.logFile
  written : ∀ file, files.buffer file = []
    ∧ files.written file = linesOf file history

/-- One file holds a part of one line more, the one that `getFile` found for the
call. What has been printed of the line may be in the file or still in its
buffer; only the two together are known. -/
structure Begun (history : List (Done θ Print (Option OutputFile)))
    (c : Print) (file : OutputFile) (part : List UInt8) (files : Files) :
    Prop where
  recorded : Recorded history files.logFile
  target : files.getFile c.kind c.severity = some file
  others : ∀ other, other ≠ file → files.buffer other = []
    ∧ files.written other = linesOf other history
  this : files.written file ++ files.buffer file
    = linesOf file history ++ part

/-- The same by the place of the call: nothing is printed when it looks for its
file, the part that is not left to print inside of `fprintf`, and all of it
before the flush. -/
def InWrite (history : List (Done θ Print (Option OutputFile))) (c : Print)
    (place : Place) (files : Files) : Prop :=
  match place with
  | .getFile c' => c' = c ∧ Printed history files
  | .fprintf file rest =>
      ∃ part, c.s = part ++ rest ∧ Begun history c file part files
  | .fflush file => Begun history c file c.s files

variable {history : List (Done θ Print (Option OutputFile))}
  {files files' : Files} {c : Print} {file : OutputFile}
  {part : List UInt8} {logFile : Bool}

/-- What `getFile` finds is what the history should say. -/
theorem directed_getFile (t : θ) {result : Option OutputFile}
    (h : files.getFile c.kind c.severity = result) :
    Directed (⟨t, c, result⟩ : Done θ Print (Option OutputFile)) := by
  unfold Directed
  cases hkind : c.kind with
  | console =>
      rw [hkind, Files.getFile_console] at h
      exact h.symm
  | file =>
      rw [hkind, Files.getFile_file] at h
      split at h
      · exact Or.inr h.symm
      · exact Or.inl h.symm

/-- Only an open file is the target of a line for it. -/
theorem logFile_of_target
    (h : files.getFile c.kind c.severity = some .logFile) :
    files.logFile = true := by
  cases hkind : c.kind with
  | console =>
      rw [hkind, Files.getFile_console] at h
      split at h
      · cases h
      · cases h
  | file =>
      rw [hkind, Files.getFile_file] at h
      split at h
      · assumption
      · cases h

/-- A file that is not open has no line. -/
theorem Recorded.closed (h : Recorded history logFile)
    (hclosed : logFile = false) : linesOf .logFile history = [] := by
  -- no call was printed to it: those of a console have other files, and the
  -- others were dropped
  have hnone : (history.filter fun done => done.result = some .logFile)
      = [] := by
    rw [List.filter_eq_nil_iff]
    intro done hdone hresult
    have hlog : done.result = some .logFile := by simpa using hresult
    have hdirected := h.directed done hdone
    unfold Directed at hdirected
    split at hdirected
    case h_1 hkind =>
        -- a console prints to one of the other two
        rw [hlog] at hdirected
        split at hdirected
        · cases hdirected
        · cases hdirected
    case h_2 hkind =>
        rw [h.dropped hclosed done hdone hkind] at hlog
        cases hlog
  rw [linesOf, hnone]
  rfl

/-- One call more in the history. -/
theorem recorded_append (h : Recorded history files.logFile) (t : θ)
    {result : Option OutputFile}
    (hresult : files.getFile c.kind c.severity = result) :
    Recorded (history ++ [⟨t, c, result⟩]) files.logFile := by
  refine ⟨?_, ?_⟩
  · intro done hdone
    rcases List.mem_append.mp hdone with hold | hnew
    · exact h.directed done hold
    · rw [List.mem_singleton.mp hnew]
      exact directed_getFile t hresult
  · intro hclosed done hdone hkind
    rcases List.mem_append.mp hdone with hold | hnew
    · exact h.dropped hclosed done hold hkind
    · rw [List.mem_singleton.mp hnew] at hkind ⊢
      have hfile : c.kind = .file := hkind
      rw [hfile, Files.getFile_file, hclosed] at hresult
      exact hresult.symm

/-- Opening the file changes nothing but that it is open. `fopen` begins an
empty file, and as nothing was printed to it that is what it was. -/
theorem setFilePath_eq {opened : Bool}
    (h : files.setFilePath opened = some files')
    (hempty : files.logFile = false →
      files.buffer .logFile = [] ∧ files.written .logFile = []) :
    files' = { files with logFile := true } := by
  unfold Files.setFilePath at h
  split at h
  case isTrue hopen =>
      cases h
      rw [← hopen]
  case isFalse hclosed =>
      obtain ⟨hbuffer, hwritten⟩ := hempty (by simpa using hclosed)
      split at h
      · cases h
        rw [Function.update_eq_self_iff.mpr hbuffer.symm,
          Function.update_eq_self_iff.mpr hwritten.symm]
      · cases h

theorem recorded_opened (h : Recorded history logFile) :
    Recorded history true :=
  ⟨h.directed, fun hclosed => by cases hclosed⟩

/-- A call that has found its file has it still: only a call without one would
find another. -/
theorem target_opened (h : files.getFile c.kind c.severity = some file) :
    { files with logFile := true : Files }.getFile c.kind c.severity
      = some file := by
  cases hkind : c.kind with
  | console =>
      rw [hkind] at h
      exact h
  | file =>
      rw [hkind, Files.getFile_file] at h
      split at h
      · exact h
      · cases h

-- ================================================================= the calls

theorem begun_of_printed (h : Printed history files)
    (htarget : files.getFile c.kind c.severity = some file) :
    Begun history c file [] files := by
  refine ⟨h.recorded, htarget, fun other _ => h.written other, ?_⟩
  rw [(h.written file).1, (h.written file).2]

/-- One byte of the line more. -/
theorem begun_put (h : Begun history c file part files) (b : UInt8)
    (handed : Nat) :
    Begun history c file (part ++ [b]) (files.put file b handed) := by
  refine ⟨h.recorded, h.target, ?_, ?_⟩
  · intro other hne
    rw [(put_of_ne b handed hne).1, (put_of_ne b handed hne).2]
    exact h.others other hne
  · rw [put_self, h.this, List.append_assoc]

/-- A line that was flushed is a line more. -/
theorem printed_flush (h : Begun history c file c.s files) (t : θ) :
    Printed (history ++ [⟨t, c, some file⟩]) (files.flush file) := by
  refine ⟨recorded_append h.recorded t h.target, ?_⟩
  intro other
  rw [linesOf_append]
  -- the file of the line has it now, and the others are as they were
  by_cases heq : other = file
  · subst heq
    rw [if_pos rfl, ← h.this]
    exact flush_self files other
  · rw [if_neg fun hsome => heq (Option.some.inj hsome).symm,
      List.append_nil, (flush_of_ne heq).1, (flush_of_ne heq).2]
    exact h.others other heq

/-- A call takes the lines from one state between two calls to the next,
whatever of a line is handed on, and also if the file is opened
meanwhile. -/
theorem invariant_write :
    Invariant writeOperations (Printed (θ := θ)) InWrite where
  entry c h := ⟨rfl, h⟩
  move := by
    intro history c place files handed place' files' h hmove
    cases place with
    | getFile c' =>
        obtain ⟨rfl, hprinted⟩ := h
        simp only [writeOperations] at hmove
        split at hmove
        case h_1 file htarget =>
            cases hmove
            exact ⟨[], rfl, begun_of_printed hprinted htarget⟩
        case h_2 => cases hmove
    | fprintf file rest =>
        obtain ⟨part, hs, hbegun⟩ := h
        cases rest with
        | nil =>
            cases hmove
            rw [List.append_nil] at hs
            show Begun history c file c.s files
            rw [hs]
            exact hbegun
        | cons b rest =>
            cases hmove
            refine ⟨part ++ [b], ?_, begun_put hbegun b handed⟩
            rw [hs, List.append_assoc, List.singleton_append]
    | fflush file => cases hmove
  finish := by
    intro history c place files handed result files' t h hmove
    cases place with
    | getFile c' =>
        obtain ⟨rfl, hprinted⟩ := h
        simp only [writeOperations] at hmove
        split at hmove
        case h_1 => cases hmove
        -- no file: the call is over, and the history has it without one
        case h_2 hnone =>
            cases hmove
            refine ⟨recorded_append hprinted.recorded t hnone, ?_⟩
            intro file
            rw [linesOf_append, if_neg (by simp), List.append_nil]
            exact hprinted.written file
    | fprintf file rest => cases rest <;> cases hmove
    | fflush file =>
        cases hmove
        exact printed_flush h t
  outsideFree := by
    intro history files opened files' h hopen
    rw [setFilePath_eq hopen fun hclosed => ⟨(h.written .logFile).1, by
      rw [(h.written .logFile).2, h.recorded.closed hclosed]⟩]
    exact ⟨recorded_opened h.recorded, h.written⟩
  outsideInside := by
    intro history c place files opened files' h hopen
    -- a call has begun to print, but not to a file that is not open
    have hbegun : ∀ {file part}, Begun history c file part files →
        Begun history c file part files' := by
      intro file part hbegun
      rw [setFilePath_eq hopen fun hclosed => ?_]
      · exact ⟨recorded_opened hbegun.recorded,
          target_opened hbegun.target, hbegun.others, hbegun.this⟩
      · have hne : OutputFile.logFile ≠ file := by
          intro heq
          subst heq
          rw [logFile_of_target hbegun.target] at hclosed
          cases hclosed
        rw [(hbegun.others _ hne).1, (hbegun.others _ hne).2,
          hbegun.recorded.closed hclosed]
        exact ⟨rfl, rfl⟩
    cases place with
    | getFile c' =>
        obtain ⟨rfl, hprinted⟩ := h
        refine ⟨rfl, ?_⟩
        rw [setFilePath_eq hopen fun hclosed =>
          ⟨(hprinted.written .logFile).1, by
            rw [(hprinted.written .logFile).2,
              hprinted.recorded.closed hclosed]⟩]
        exact ⟨recorded_opened hprinted.recorded, hprinted.written⟩
    | fprintf file rest =>
        obtain ⟨part, hs, hprinting⟩ := h
        exact ⟨part, hs, hbegun hprinting⟩
    | fflush file => exact hbegun h

-- =============================================================== the opening

/-- No step of a call opens the file. -/
theorem logFile_move {place : Place} {handed : Nat}
    {next : Place ⊕ Option OutputFile}
    (h : writeOperations.move place files handed = some (next, files')) :
    files'.logFile = files.logFile := by
  cases place with
  | getFile c =>
      simp only [writeOperations] at h
      split at h
      · cases h
        rfl
      · cases h
        rfl
  | fprintf file rest =>
      cases rest with
      | nil =>
          cases h
          rfl
      | cons b rest =>
          cases h
          rfl
  | fflush file =>
      cases h
      rfl

/-- The result of a call is what `getFile` finds at its end, too. -/
theorem result_of_finish {place : Place} {handed : Nat}
    {result : Option OutputFile} (h : InWrite history c place files)
    (hmove : writeOperations.move place files handed
      = some (.inr result, files')) :
    files.getFile c.kind c.severity = result := by
  cases place with
  | getFile c' =>
      obtain ⟨rfl, -⟩ := h
      simp only [writeOperations] at hmove
      split at hmove
      case h_1 => cases hmove
      case h_2 hnone =>
          cases hmove
          exact hnone
  | fprintf file rest => cases rest <;> cases hmove
  | fflush file =>
      cases hmove
      exact h.target

/-- The file was opened behind the calls `earlier`, and every call for it that
is over since has had it. -/
structure Opened (earlier history : List (Done θ Print (Option OutputFile)))
    (files : Files) : Prop where
  isOpen : files.logFile = true
  later : ∃ later, history = earlier ++ later
    ∧ ∀ done ∈ later, done.op.kind = .file → done.result = some .logFile

variable {earlier : List (Done θ Print (Option OutputFile))}

theorem Opened.move (h : Opened earlier history files) {place : Place}
    {handed : Nat} {next : Place ⊕ Option OutputFile}
    (hmove : writeOperations.move place files handed = some (next, files')) :
    Opened earlier history files' :=
  ⟨(logFile_move hmove).trans h.isOpen, h.later⟩

/-- A call that is over while the file is open had it, if it was for it. -/
theorem Opened.append (h : Opened earlier history files) (t : θ)
    {result : Option OutputFile}
    (hresult : files.getFile c.kind c.severity = result) :
    Opened earlier (history ++ [⟨t, c, result⟩]) files := by
  obtain ⟨later, rfl, hlater⟩ := h.later
  refine ⟨h.isOpen, later ++ [⟨t, c, result⟩], List.append_assoc .., ?_⟩
  intro done hdone hkind
  rcases List.mem_append.mp hdone with hold | hnew
  · exact hlater done hold hkind
  · rw [List.mem_singleton.mp hnew] at hkind ⊢
    have hfile : c.kind = .file := hkind
    rw [hfile, Files.getFile_file, if_pos h.isOpen] at hresult
    exact hresult.symm

/-- An open file is not opened again. -/
theorem Opened.setFilePath (h : Opened earlier history files) {opened : Bool}
    (hopen : files.setFilePath opened = some files') : files' = files := by
  rw [Files.setFilePath, if_pos h.isOpen] at hopen
  exact (Option.some.inj hopen).symm

theorem invariant_opened : Invariant writeOperations
    (fun history files => Printed (θ := θ) history files
      ∧ Opened earlier history files)
    fun history c place files => InWrite history c place files
      ∧ Opened earlier history files where
  entry c h := ⟨invariant_write.entry c h.1, h.2⟩
  move h hmove := ⟨invariant_write.move h.1 hmove, h.2.move hmove⟩
  finish t h hmove :=
    ⟨invariant_write.finish t h.1 hmove,
      (h.2.append t (result_of_finish h.1 hmove)).move hmove⟩
  outsideFree h hopen := by
    rw [h.2.setFilePath hopen]
    exact h
  outsideInside h hopen := by
    rw [h.2.setFilePath hopen]
    exact h

end Lines

-- ================================================================== the runs

section Runs

variable {θ : Type} [DecidableEq θ] {s : Printing θ}
  {events : List (Event θ Print Nat Bool)}

/-- The threads at the beginning, with nothing printed. -/
def Printing.initial : Printing θ := CriticalSection.State.initial {}

theorem holds_run
    (hrun : Transition.run writeOperations.step Printing.initial events
      = some s) : Holds Printed InWrite s := by
  refine CriticalSection.run_invariant invariant_write ?_ hrun
  refine ⟨⟨?_, ?_⟩, fun file => ⟨rfl, rfl⟩⟩
  · intro done hdone
    cases hdone
  · intro _ done hdone
    cases hdone

/-- Whatever the threads do, each file has whole lines, and behind them at
most the beginning of one line, that of the thread that has the mutex; if
no thread has it, all lines have left their buffers. -/
theorem lines_whole
    (hrun : Transition.run writeOperations.step Printing.initial events
      = some s) :
    (∀ file, ∃ part, s.shared.written file ++ s.shared.buffer file
        = linesOf file s.history ++ part
      ∧ (part ≠ [] → ∃ t c place, s.holder = some t
        ∧ s.thread t = .inside c place ∧ part <+: c.s))
      ∧ (s.holder = none → ∀ file, s.shared.buffer file = []
        ∧ s.shared.written file = linesOf file s.history) := by
  have hholds := holds_run hrun
  have hlines : ∀ {files : Files} {file},
      files.buffer file = [] ∧ files.written file = linesOf file s.history →
      files.written file ++ files.buffer file
        = linesOf file s.history ++ [] := by
    intro files file hwritten
    rw [hwritten.1, hwritten.2]
  -- which file has a part of a line is a matter of where the thread with the
  -- mutex is
  refine ⟨?_, fun hnone => (hholds.free hnone).written⟩
  intro file
  cases hholder : s.holder with
  | none =>
      exact ⟨[], hlines ((hholds.free hholder).written file),
        fun hne => absurd rfl hne⟩
  | some t =>
      obtain ⟨c, place, hinside⟩ := (hholds.exclusive t).mp hholder
      have hwrite := hholds.inside t c place hinside
      -- the part that is printed of the line, in its own file
      have hbegun : ∀ {file' part}, part <+: c.s →
          Begun s.history c file' part s.shared →
          ∃ part, s.shared.written file ++ s.shared.buffer file
              = linesOf file s.history ++ part
            ∧ (part ≠ [] → ∃ t' c place, some t = some t'
              ∧ s.thread t' = .inside c place ∧ part <+: c.s) := by
        intro file' part hpart hbegun
        by_cases heq : file = file'
        · subst heq
          exact ⟨part, hbegun.this, fun _ => ⟨t, c, place, rfl, hinside,
            hpart⟩⟩
        · exact ⟨[], hlines (hbegun.others file heq),
            fun hne => absurd rfl hne⟩
      cases place with
      | getFile c' =>
          obtain ⟨-, hprinted⟩ := hwrite
          exact ⟨[], hlines (hprinted.written file),
            fun hne => absurd rfl hne⟩
      | fprintf file' rest =>
          obtain ⟨part, hs, hprinting⟩ := hwrite
          exact hbegun ⟨rest, hs.symm⟩ hprinting
      | fflush file' => exact hbegun (List.prefix_refl c.s) hwrite

/-- The events in front of the opening of the log file: that is the first
thing that happens outside of the calls, and what it does again later
changes nothing. -/
def beforeOpening (events : List (Event θ Print Nat Bool)) :
    List (Event θ Print Nat Bool) :=
  events.takeWhile fun event => !event.isOutside

/-- Which of the calls in an order are missing in the log file: those that
were over when it was opened were dropped, and all others had it. If it was
never opened, all of them were over. -/
def Settled (events : List (Event θ Print Nat Bool))
    (order : List (Done θ Print (Option OutputFile))) : Prop :=
  ∃ s : Printing θ, ∃ later,
    Transition.run writeOperations.step Printing.initial
        (beforeOpening events) = some s
      ∧ order = s.history ++ later
      ∧ (∀ done ∈ s.history, done.op.kind = .file → done.result = none)
      ∧ ∀ done ∈ later, done.op.kind = .file → done.result = some .logFile

omit [DecidableEq θ] in
theorem recorded_of_holds (h : Holds Printed InWrite s) :
    Recorded s.history s.shared.logFile := by
  cases hholder : s.holder with
  | none => exact (h.free hholder).recorded
  | some t =>
      obtain ⟨c, place, hinside⟩ := (h.exclusive t).mp hholder
      have hwrite := h.inside t c place hinside
      cases place with
      | getFile c' => exact hwrite.2.recorded
      | fprintf file rest =>
          obtain ⟨part, -, hbegun⟩ := hwrite
          exact hbegun.recorded
      | fflush file => exact hwrite.recorded

/-- Only what happens outside of the calls opens the file. -/
theorem logFile_step {s' : Printing θ} {event : Event θ Print Nat Bool}
    (hevent : event.isOutside = false)
    (hstep : writeOperations.step s event = some s') :
    s'.shared.logFile = s.shared.logFile := by
  cases CriticalSection.steps_of_step hstep with
  | call hidle => rfl
  | lock hwaiting hfree => rfl
  | move hinside hmove => exact logFile_move hmove
  | finish hinside hmove => exact logFile_move hmove
  | outside houtside => cases hevent

omit [DecidableEq θ] in
theorem not_isOutside_of_mem {event : Event θ Print Nat Bool}
    (h : event ∈ beforeOpening events) : event.isOutside = false := by
  simpa using List.mem_takeWhile_imp h

theorem logFile_beforeOpening
    (hrun : Transition.run writeOperations.step Printing.initial
      (beforeOpening events) = some s) : s.shared.logFile = false := by
  refine Transition.run_invariant_of_throughout
    (P := fun _ event => event.isOutside = false)
    (fun s : Printing θ => s.shared.logFile = false) ?_ rfl ?_ hrun
  · intro s event s' hclosed hevent hstep
    exact (logFile_step hevent hstep).trans hclosed
  · exact Transition.throughout_of_forall
      (fun event hevent _ => not_isOutside_of_mem hevent) _

/-- The opening, behind which the second invariant begins: no call was over
since, and the file is open. It was so before, or it is now; an opening that
fails does not come to its end. -/
theorem holds_opening (h : Holds Printed InWrite s) {opened : Bool}
    {s' : Printing θ}
    (hstep : writeOperations.step s (.outside opened) = some s') :
    Holds (fun history files => Printed history files
        ∧ Opened s.history history files)
      (fun history c place files => InWrite history c place files
        ∧ Opened s.history history files) s' := by
  have hholds := CriticalSection.holds_step invariant_write h hstep
  cases CriticalSection.steps_of_step hstep with
  -- before this event the file may have been open already; now it is
  | @outside _ files houtside =>
      have hopened : Opened s.history s.history files := by
        refine ⟨?_, [], (List.append_nil _).symm, ?_⟩
        · have hset : s.shared.setFilePath opened = some files := houtside
          unfold Files.setFilePath at hset
          split at hset
          case isTrue hopen =>
              cases hset
              exact hopen
          case isFalse =>
              split at hset
              · cases hset
                rfl
              · cases hset
        · intro done hdone
          cases hdone
      exact ⟨hholds.exclusive, fun hfree => ⟨hholds.free hfree, hopened⟩,
        fun t c place hinside =>
          ⟨hholds.inside t c place hinside, hopened⟩⟩

/-- The calls of a run, by the moment of the opening. In front of it the file
was closed, so that those which were over had none; behind it no call ends
without its file. A run without an opening has no second part. -/
theorem settled_run
    (hrun : Transition.run writeOperations.step Printing.initial events
      = some s) (hfree : s.holder = none) : Settled events s.history := by
  -- the run stops in front of the opening, if there is one
  have hsplit : events = beforeOpening events
      ++ events.dropWhile fun event => !event.isOutside :=
    (List.takeWhile_append_dropWhile ..).symm
  rw [hsplit] at hrun
  obtain ⟨s₁, hbefore, hrest⟩ := Transition.run_append.mp hrun
  have hclosed := logFile_beforeOpening hbefore
  have hdropped := (recorded_of_holds (holds_run hbefore)).dropped hclosed
  cases hafter : events.dropWhile fun event => !event.isOutside with
  | nil =>
      rw [hafter] at hrest
      obtain rfl : s₁ = s := Option.some.inj hrest
      refine ⟨s₁, [], hbefore, (List.append_nil _).symm, hdropped, ?_⟩
      intro done hdone
      cases hdone
  | cons event after =>
      rw [hafter] at hrest
      obtain ⟨s₂, hopening, hopened⟩ := Transition.run_cons.mp hrest
      have houtside : event.isOutside = true := by
        have hhead := List.head?_dropWhile_not
          (fun event : Event θ Print Nat Bool => !event.isOutside) events
        rw [hafter] at hhead
        simpa using hhead
      cases event with
      | outside opened =>
          -- from the opening on, the calls that are over are two parts
          have hholds := Transition.run_invariant _
            (fun _ _ _ h hstep =>
              CriticalSection.holds_step invariant_opened h hstep)
            (holds_opening (holds_run hbefore) hopening) hopened
          obtain ⟨later, hhistory, hlater⟩ := (hholds.free hfree).2.later
          exact ⟨s₁, later, hbefore, hhistory, hdropped, hlater⟩
      | _ => cases houtside

end Runs

-- ============================================================== a sample

/-- Two threads, of which the second one prints first, to another file; the
first one has printed half of its line. -/
def sampleEvents : List (Event Bool Print Nat Bool) :=
  [.call false ⟨.console, .info, ascii ['h', 'i']⟩,
    .call true ⟨.console, .error, ascii ['!']⟩, .lock true, .move true 0,
    .move true 1, .outside true, .move true 0, .move true 0, .lock false,
    .move false 0, .move false 0]

theorem lines_whole_sample :
    ∃ s : Printing Bool,
      Transition.run writeOperations.step Printing.initial sampleEvents
        = some s
      ∧ s.holder = some false
      ∧ ∃ part, s.shared.written .stdout ++ s.shared.buffer .stdout
          = linesOf .stdout s.history ++ part
        ∧ (part ≠ [] → ∃ t c place, s.holder = some t
          ∧ s.thread t = .inside c place ∧ part <+: c.s) := by
  have hex : ∃ s : Printing Bool,
      Transition.run writeOperations.step Printing.initial sampleEvents
        = some s ∧ s.holder = some false := ⟨_, rfl, rfl⟩
  obtain ⟨s, hrun, hholder⟩ := hex
  exact ⟨s, hrun, hholder, (lines_whole hrun).1 .stdout⟩

/-- A line for the log file that is over when it is opened, one that has the
mutex by then, and one on the console. -/
def sampleOpening : List (Event Bool Print Nat Bool) :=
  [.call false ⟨.file, .info, ascii ['a']⟩, .lock false, .move false 0,
    .call true ⟨.file, .info, ascii ['b']⟩,
    .call false ⟨.console, .error, ascii ['!']⟩, .lock true, .outside true,
    .move true 0, .move true 1, .move true 0, .move true 0, .lock false,
    .move false 0, .move false 0, .move false 0, .move false 0]

end IviLogging.Stream
