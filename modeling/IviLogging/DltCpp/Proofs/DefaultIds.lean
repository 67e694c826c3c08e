/-
The ids of applications that define none.

An application that defines no id gets one from its PID: `snprintf` writes
the PID in hexadecimal digits into an array of five characters, and the
result is used as it stands, whether it was cut or not.

# The id

The array has room for four characters and the NUL, so the id is the PID
in hexadecimal digits, of a PID with more than four its leading ones
(`defaultId_spec`). Two different PIDs have the same id exactly if both
have four digits or more and begin with the same four
(`take_numeral_pid_iff`): a number with fewer digits is its own id, and
numerals are different for different numbers.

# The fields

What the daemon sees of an id is the `apid` field in front of the
registration, four bytes copied from `c_str()`. Of an id of three
characters or more the field is a function of the id and nothing else. An
id that two PIDs share has four characters (`length_take_numeral_pid`), so
where the ids are the same, the fields are the same too; and ids that are
different are different in their first four characters, as they have no
more (`assignId_eq_iff`). So the same condition decides both
(`default_ids_differ_iff`).

# The registrations

`Registers` says which frame of a process is meant: the first of a
connection it opens. Every such process can come to send one
(`exists_registers`), so the statement about two of them is about
something.
-/
import IviLogging.DltCpp.Proofs.Fields
import IviLogging.Lib.Digits
import IviLogging.Application

namespace IviLogging.DltCpp

open Digits (SameLeading leading)
open Printf (numeral)

-- ======================================================= the processes

/-- A RegisterApp frame of a process that defines no id: the first frame of
a connection it opens. -/
def Registers (p : Application) (f : Frame) : Prop :=
  ∃ (env : Environment) (s : DaemonConnection) (connection : Connection),
    p.setDefaultAPPIDSIfNeeded none = some env.app
      ∧ env.pid = p.pid
      ∧ s.isDaemonConnected = false
      ∧ env.openFifo s.opens = true
      ∧ (s.initDaemonConnection env).connections = s.closed ++ [connection]
      ∧ connection.first = some f

/-- The PIDs have four hexadecimal digits, or more, and begin with the same
four. -/
def SameLeadingDigits (p p' : Application) : Prop :=
  SameLeading 16 4 p.pid.toUInt32.toNat p'.pid.toUInt32.toNat

section Ids

variable {p p' : Application}

/-- A registration carries one id, the field filled from the application's
id. -/
theorem registers_ids {f : Frame} (h : Registers p f) :
    ∃ app, p.setDefaultAPPIDSIfNeeded none = some app
      ∧ f.ids = [assignId app.id.cStr] := by
  obtain ⟨env, s, connection, happ, -, hdown, hopen, hall, hfirst⟩ := h
  obtain ⟨connection', hall', hfirst', -⟩ :=
    opened_initDaemonConnection env hdown hopen
  -- both come behind the connections that were closed before
  have hsame : connection = connection' := by
    have hlast := List.append_cancel_left (hall.symm.trans hall')
    exact List.head_eq_of_cons_eq hlast
  subst hsame
  rw [hfirst] at hfirst'
  refine ⟨env.app, happ, ?_⟩
  rw [Option.some.inj hfirst']
  rfl

/-- The id: the PID, cut behind four digits. `snprintf` never fails here, as
eight digits are the most a PID has. -/
theorem defaultId_spec (p : Application) :
    ∃ app, p.setDefaultAPPIDSIfNeeded none = some app
      ∧ app.id.chars = (numeral 16 1 p.pid.toUInt32.toNat).take 4 := by
  obtain ⟨name, hname⟩ := p.getProcessName_eq_some
  -- at most eight digits, far below what `snprintf` can return
  have hprinted : Printf.snprintf [37, 88] [.word32 p.pid.toUInt32]
      = some (.printed (numeral 16 1 p.pid.toUInt32.toNat)) := by
    have hlength := Printf.length_numeral_le 16 1 (by omega)
      (show p.pid.toUInt32.toNat < 16 ^ 8 from p.pid.toUInt32.toNat_lt)
      (by omega)
    have hmax : Printf.intMax = 2 ^ 31 - 1 := rfl
    rw [Printf.snprintf, Printf.printf_hexadecimal, Option.map_some,
      if_pos (by omega)]
  unfold Application.setDefaultAPPIDSIfNeeded
  rw [hprinted, hname]
  refine ⟨_, rfl, ?_⟩
  apply cText_append
  intro hzero
  exact Printf.zero_notMem_numeral 16 (by omega) (by omega) _ _
    (List.mem_of_mem_take hzero)

/-- The PID goes to `snprintf` as an unsigned number; no two become the same
that way. -/
theorem toNat_toUInt32_ne {pid pid' : Int32} (h : pid ≠ pid') :
    pid.toUInt32.toNat ≠ pid'.toUInt32.toNat := by
  intro heq
  apply h
  rw [← pid.toInt32_toUInt32, UInt32.toNat_inj.mp heq, Int32.toInt32_toUInt32]

/-- Different PIDs have the same id exactly if both have four digits and begin
with the same. -/
theorem take_numeral_pid_iff (hne : p.pid ≠ p'.pid) :
    (numeral 16 1 p.pid.toUInt32.toNat).take 4
        = (numeral 16 1 p'.pid.toUInt32.toNat).take 4
      ↔ SameLeadingDigits p p' := by
  -- a numeral cut behind four digits is the numeral of the leading digits,
  -- and so itself a number
  rw [Digits.take_numeral (by omega) (by omega),
    Digits.take_numeral (by omega) (by omega)]
  have hinj : ∀ m n, numeral 16 1 m = numeral 16 1 n ↔ m = n := by
    intro m n
    refine ⟨Digits.numeral_inj (by omega) (by omega), ?_⟩
    intro heq
    rw [heq]
  rw [hinj, Digits.leading_eq_iff (by omega) (by omega)]
  exact or_iff_right (toNat_toUInt32_ne hne)

/-- An id that two PIDs share takes four characters. Three would be enough
for its field to be a function of it. -/
theorem length_take_numeral_pid (h : SameLeadingDigits p p') :
    3 ≤ ((numeral 16 1 p.pid.toUInt32.toNat).take 4).length := by
  obtain ⟨d, hlow, hhigh, ⟨i, hi⟩, -⟩ := h
  have hdigits := (Nat.lt_digits_length_iff (by omega) d).mpr hlow
  rw [Digits.take_numeral (by omega) (by omega),
    Digits.leading_of_div (by omega) (by omega) hi hlow hhigh]
  simp only [numeral, List.length_append, List.length_map,
    List.length_reverse]
  omega

/-- The fields of two ids of at most four characters. From the fields to the
ids no assumption is needed; back, the field of a short id also shows the
memory behind it, so ids that are the same must be long enough. -/
theorem assignId_eq_iff {id id' : StdString} {t t' : List UInt8}
    (hid : id.chars = t.take 4) (hid' : id'.chars = t'.take 4)
    (hzero : 0 ∉ t) (hzero' : 0 ∉ t')
    (hlong : id.chars = id'.chars → 3 ≤ id.chars.length) :
    assignId id.cStr = assignId id'.cStr ↔ id.chars = id'.chars := by
  constructor
  · intro heq
    -- four characters are the whole id, so the cut takes nothing away
    have htake := take_eq_of_assignId_eq
      (fun hmem => hzero (List.mem_of_mem_take (hid ▸ hmem)))
      (fun hmem => hzero' (List.mem_of_mem_take (hid' ▸ hmem))) heq
    have hfour : dltIdSize = 4 := rfl
    rw [hid, hid', hfour, List.take_take, List.take_take] at htake
    rw [hid, hid']
    exact htake
  · intro heq
    -- long enough for the field to be the id and nothing behind it
    have hlen := hlong heq
    have hcopied := (idCopied_iff id).mpr hlen
    have hcopied' := (idCopied_iff id').mpr (heq ▸ hlen)
    apply DltId.eq_of_bytes_eq
    rw [hcopied.bytes, hcopied'.bytes, heq]

/-- The ids of two processes and their fields. -/
theorem defaultIds_eq_iff (hne : p.pid ≠ p'.pid) :
    ∃ app app', p.setDefaultAPPIDSIfNeeded none = some app
      ∧ p'.setDefaultAPPIDSIfNeeded none = some app'
      ∧ (app.id.chars = app'.id.chars ↔ SameLeadingDigits p p')
      ∧ (assignId app.id.cStr = assignId app'.id.cStr
        ↔ SameLeadingDigits p p') := by
  obtain ⟨app, happ, hid⟩ := defaultId_spec p
  obtain ⟨app', happ', hid'⟩ := defaultId_spec p'
  have hchars : app.id.chars = app'.id.chars ↔ SameLeadingDigits p p' := by
    rw [hid, hid']
    exact take_numeral_pid_iff hne
  have hzero := Printf.zero_notMem_numeral 16 (by omega) (by omega) 1
  have hfields := assignId_eq_iff hid hid' (hzero _) (hzero _) (by
    intro heq
    rw [hid]
    exact length_take_numeral_pid (hchars.mp heq))
  exact ⟨app, app', happ, happ', hchars, hfields.trans hchars⟩

/-- Every such process can come to register. -/
theorem exists_registers (p : Application) : ∃ f, Registers p f := by
  obtain ⟨app, happ, -⟩ := defaultId_spec p
  let env := { sampleEnvironment true with pid := p.pid, app := app }
  let s := @DaemonConnection.initial documentedConstants
    fun _ => sampleContext
  obtain ⟨connection, hall, hfirst, -⟩ :=
    opened_initDaemonConnection (s := s) env rfl rfl
  exact ⟨_, env, s, connection, happ, rfl, rfl, rfl, hall, hfirst⟩

/-- So the registrations of two processes have the same id exactly if the PIDs
begin with the same four digits. -/
theorem registers_ids_eq_iff (hne : p.pid ≠ p'.pid) {f f' : Frame}
    (hf : Registers p f) (hf' : Registers p' f') :
    f.ids = f'.ids ↔ SameLeadingDigits p p' := by
  obtain ⟨app, app', happ, happ', -, hfields⟩ := defaultIds_eq_iff hne
  obtain ⟨_, hsome, hids⟩ := registers_ids hf
  obtain ⟨_, hsome', hids'⟩ := registers_ids hf'
  cases happ.symm.trans hsome
  cases happ'.symm.trans hsome'
  rw [hids, hids', ← hfields]
  exact List.singleton_inj

end Ids

/-- The default ids of two processes, and the ids in front of their
registrations, are different exactly if their PIDs do not have four
leading digits in common. -/
theorem default_ids_differ_iff {p p' : Application} (hne : p.pid ≠ p'.pid) :
    ∃ app app', p.setDefaultAPPIDSIfNeeded none = some app
      ∧ p'.setDefaultAPPIDSIfNeeded none = some app'
      ∧ (app.id.chars ≠ app'.id.chars ↔ ¬ SameLeadingDigits p p')
      ∧ ∀ f f', Registers p f → Registers p' f' →
        (f.ids ≠ f'.ids ↔ ¬ SameLeadingDigits p p') := by
  obtain ⟨app, app', happ, happ', hchars, -⟩ := defaultIds_eq_iff hne
  refine ⟨app, app', happ, happ', not_congr hchars, ?_⟩
  intro f f' hf hf'
  exact not_congr (registers_ids_eq_iff hne hf hf')

-- ============================================================== a sample

/-- An application that sees no `/proc`. -/
def unnamed (pid : Int32) : Application where
  pid := pid
  opendir := fun _ => false
  fopen := fun _ => none
  idBehind := fun _ => 0
  descriptionBehind := fun _ => 0

theorem default_ids_differ_iff_sample :
    ∃ app app', (unnamed 4711).setDefaultAPPIDSIfNeeded none = some app
      ∧ (unnamed 4712).setDefaultAPPIDSIfNeeded none = some app'
      ∧ (app.id.chars ≠ app'.id.chars
        ↔ ¬ SameLeadingDigits (unnamed 4711) (unnamed 4712))
      ∧ ∀ f f', Registers (unnamed 4711) f →
        Registers (unnamed 4712) f' →
        (f.ids ≠ f'.ids
          ↔ ¬ SameLeadingDigits (unnamed 4711) (unnamed 4712)) :=
  default_ids_differ_iff (p := unnamed 4711) (by simp [unnamed])

/-- The PIDs 0x10000 and 0x10001 share the id `1000`. -/
theorem default_ids_collide :
    (unnamed 65536).pid ≠ (unnamed 65537).pid
      ∧ ∃ app app' f f',
        (unnamed 65536).setDefaultAPPIDSIfNeeded none = some app
          ∧ (unnamed 65537).setDefaultAPPIDSIfNeeded none = some app'
          ∧ app.id.chars = app'.id.chars
          ∧ Registers (unnamed 65536) f
          ∧ Registers (unnamed 65537) f'
          ∧ f.ids = f'.ids := by
  have hne : (unnamed 65536).pid ≠ (unnamed 65537).pid := by
    simp [unnamed]
  have hsame : SameLeadingDigits (unnamed 65536)
      (unnamed 65537) :=
    ⟨4096, by norm_num, by norm_num, ⟨1, rfl⟩, 1, rfl⟩
  obtain ⟨app, app', happ, happ', hchars, -⟩ := defaultIds_eq_iff hne
  obtain ⟨f, hf⟩ := exists_registers (unnamed 65536)
  obtain ⟨f', hf'⟩ := exists_registers (unnamed 65537)
  exact ⟨hne, app, app', f, f', happ, happ', hchars.mpr hsame, hf, hf',
    (registers_ids_eq_iff hne hf hf').mpr hsame⟩

end IviLogging.DltCpp
