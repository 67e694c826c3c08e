/-
The printing of records by any number of threads
(`StreamLogContextAbstract::write`, `getFile`, `FileLogContext`).

`write` takes the one mutex of all stream contexts, and with it finds the
file, prints the string and flushes the file. The string goes into the
buffer of its file byte by byte, and a file may hand any part of its buffer
on at any time, which is the choice of a step here; `fflush` hands on all
of it.

# The file of the `FileLogContext`s

It is opened by `setFilePath`, which opens the first file only, and does not
come to its end if that fails. It takes no mutex: it may stand anywhere
between the steps of other threads, also while one of them prints. Its look
at the pointer, its `fopen` and its store of the pointer are one step here.
For a thread that prints this is no loss, as all it reads of an opening is
the pointer, which is there or not. But two threads that open a file at once
race on the pointer, and both may find none: such runs are not covered.

A write to a file that fails is not looked at.
-/
import IviLogging.Lib.CriticalSection
import IviLogging.Stream.StreamLogData

namespace IviLogging.Stream

/-- A call of `write`: the kind of the context, the severity of the
record, and the string. -/
structure Print where
  kind : Kind
  severity : LogLevel
  s : List UInt8

/-- The files: what is in the buffer of each and what it has handed on, and
if that of the `FileLogContext`s is open. -/
structure Files where
  buffer : OutputFile → List UInt8 := fun _ => []
  written : OutputFile → List UInt8 := fun _ => []
  logFile : Bool := false

namespace Files

/-- `getFile`. -/
def getFile (files : Files) : Kind → LogLevel → Option OutputFile
  | .console, severity =>
      some (if severity = .error then .stderr else .stdout)
  | .file, _ => if files.logFile then some .logFile else none

@[simp] theorem getFile_console (files : Files) (severity : LogLevel) :
    files.getFile .console severity
      = some (if severity = .error then .stderr else .stdout) := rfl

@[simp] theorem getFile_file (files : Files) (severity : LogLevel) :
    files.getFile .file severity
      = if files.logFile then some .logFile else none := rfl

/-- It is the `getFile` of a record. -/
theorem getFile_eq (files : Files) (env : Environment)
    (h : env.file = files.logFile) (kind : Kind) (severity : LogLevel) :
    files.getFile kind severity = Stream.getFile env kind severity := by
  cases kind with
  | console => rfl
  | file => rw [getFile, Stream.getFile, h]

/-- A byte is put into a buffer, and the file hands some bytes on. -/
def put (files : Files) (file : OutputFile) (c : UInt8) (handed : Nat) :
    Files :=
  let buffer := files.buffer file ++ [c]
  { files with
    buffer := Function.update files.buffer file (buffer.drop handed)
    written := Function.update files.written file
      (files.written file ++ buffer.take handed) }

/-- `fflush`. -/
def flush (files : Files) (file : OutputFile) : Files :=
  { files with
    buffer := Function.update files.buffer file []
    written := Function.update files.written file
      (files.written file ++ files.buffer file) }

/-- `setFilePath`, and `openFile`; the file that is opened is emptied. -/
def setFilePath (files : Files) (opened : Bool) : Option Files :=
  if files.logFile then some files
  else if opened then
    some {
      buffer := Function.update files.buffer .logFile []
      written := Function.update files.written .logFile []
      logFile := true }
  else none

end Files

/-- Where in `write` a thread is: in front of `getFile`, in `fprintf` with
what is left of the string, or in front of `fflush`. -/
inductive Place
  | getFile (c : Print)
  | fprintf (file : OutputFile) (rest : List UInt8)
  | fflush (file : OutputFile)

/-- `write`, under the mutex; its result is the file that was printed to.
The one thing done outside of it is `setFilePath`, by one thread at a
time. -/
def writeOperations : CriticalSection.Operations Files Print Place Nat
    (Option OutputFile) Bool where
  entry := .getFile
  move place files handed :=
    match place with
    | .getFile c =>
        match files.getFile c.kind c.severity with
        | some file => some (.inl (.fprintf file c.s), files)
        | none => some (.inr none, files)
    | .fprintf file (c :: rest) =>
        some (.inl (.fprintf file rest), files.put file c handed)
    | .fprintf file [] => some (.inl (.fflush file), files)
    | .fflush file => some (.inr (some file), files.flush file)
  outside opened files := files.setFilePath opened

/-- The threads, and what they print. -/
abbrev Printing (θ : Type) :=
  CriticalSection.State θ Files Print Place (Option OutputFile)

end IviLogging.Stream
