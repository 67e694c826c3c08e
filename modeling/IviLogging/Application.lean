/-
What an application gets that defines no id (`setDefaultAPPIDSIfNeeded`):
its PID as the id, and the name of its process as the description.

The id is put together in a buffer of five bytes, so four digits of the PID
are left of it. The name is the first argument of the process's command
line, or a text with the PID where that cannot be read.

The kernel's answers are part of the `Application`, and so is the memory
behind the two strings. A result is `none` where the language leaves open
what a format prints, which is never so (`getProcessName_eq_some`).
-/
import IviLogging.Common
import IviLogging.Lib.Buffer
import IviLogging.Lib.Printf

namespace IviLogging

/-- A process: its PID, whether a directory can be opened, what a file that
can be opened has in it, and the memory behind the strings of the
defaults. -/
structure Application where
  pid : Int32
  opendir : List UInt8 → Bool
  fopen : List UInt8 → Option (List UInt8)
  idBehind : Nat → UInt8
  descriptionBehind : Nat → UInt8

namespace Application

/-- `"/proc"`. -/
def procDirectory : List UInt8 := ascii ['/', 'p', 'r', 'o', 'c']

/-- `"/proc/%i/cmdline"`. -/
def cmdlineFormat : List UInt8 :=
  ascii ['/', 'p', 'r', 'o', 'c', '/'] ++ 37 :: 105
    :: ascii ['/', 'c', 'm', 'd', 'l', 'i', 'n', 'e']

/-- `"Unknown process with PID %i"`. -/
def unknownFormat : List UInt8 :=
  ascii ['U', 'n', 'k', 'n', 'o', 'w', 'n', ' ', 'p', 'r', 'o', 'c', 'e',
    's', 's', ' ', 'w', 'i', 't', 'h', ' ', 'P', 'I', 'D', ' '] ++ [37, 105]

/-- The `fread` into `processName` and the NUL over the last byte read. -/
def readProcessName (processName file : List UInt8) : List UInt8 :=
  let read := file.take (processName.length - 1)
  let processName := Buffer.write processName 0 read
  if 0 < read.length then Buffer.write processName (read.length - 1) [0]
  else processName

/-- `getProcessName`: the first argument of the command line, or a text
with the PID. -/
def getProcessName (p : Application) : Option (List UInt8) := do
  let processName : List UInt8 := List.replicate 1024 0
  let path ← Printf.snprintf cmdlineFormat [.word32 p.pid.toUInt32]
  let processName :=
    if p.opendir procDirectory then
      match p.fopen (cText (path.written 128)) with
      | some file => readProcessName processName file
      | none => processName
    else processName
  if (cText processName).length = 0 then do
    let unknown ← Printf.snprintf unknownFormat [.word32 p.pid.toUInt32]
    some (cText (unknown.written processName.length))
  else some (cText processName)

/-- `setDefaultAPPIDSIfNeeded`, from `s_pAppLogContext` to what it is
afterwards. The PID is printed in hexadecimal digits into five bytes. -/
def setDefaultAPPIDSIfNeeded (p : Application) :
    Option AppLogContext → Option AppLogContext
  | some app => some app
  | none => do
      let pidAsHex ← Printf.snprintf [37, 88] [.word32 p.pid.toUInt32]
      let processName ← p.getProcessName
      some
        { id := ⟨cText (pidAsHex.written 5), p.idBehind⟩
          description := ⟨cText processName, p.descriptionBehind⟩ }

-- ========================================================== the defaults

theorem getProcessName_eq_some (p : Application) :
    ∃ name, p.getProcessName = some name := by
  obtain ⟨path, hpath⟩ : ∃ o, Printf.snprintf cmdlineFormat
      [.word32 p.pid.toUInt32] = some o :=
    Printf.snprintf_integer_between (by simp [ascii]) (by simp [ascii])
      (by simp) _
  obtain ⟨unknown, hunknown⟩ : ∃ o, Printf.snprintf unknownFormat
      [.word32 p.pid.toUInt32] = some o :=
    Printf.snprintf_integer_between (by simp [ascii]) (by simp) (by simp) _
  unfold getProcessName
  rw [hpath, hunknown]
  simp only [Option.bind_eq_bind, Option.bind_some]
  exact ⟨_, (apply_ite some _ _ _).symm⟩

end Application

end IviLogging
