/-
What the fields of a registration say.

# The description of the application

The RegisterApp frame is the first one on a connection, whatever becomes
of the writes behind it (`opened_initDaemonConnection`). Its description is
put together in a buffer of 1024 bytes, but its length is the one that
`snprintf` returns, which is that of the whole text. So the two agree
exactly if nothing had to be cut, the NUL of the buffer included
(`description_exact_iff`). A text of 1024 characters is the first that
fails: the last of them is not in the buffer, and the NUL is sent in its
place (`description_not_exact`).

# Ids

An id is copied into the four bytes of a field from the memory of a
string, whatever the string's length is. `IdCopied` asks for what a field
should have, the front of the id with zeros behind it, and for the copy to
stay in front of the end of the id's memory. Three characters and the NUL
are four bytes, and with fewer the copy takes what is behind the NUL
(`idCopied_iff`), so that the field hangs on memory that is not the id's
(`assignId_behind_iff`). Ids that begin differently have different fields
all the same: a NUL ends each of them (`take_eq_of_assignId_eq`). All of
it is put together, for the three places of a registration that have ids,
in `ids_copied_iff`.
-/
import IviLogging.DltCpp.Proofs.Framing
import IviLogging.DltCpp.Proofs.Registration

namespace IviLogging.DltCpp

-- ======================================================= the first frame

/-- The first frame of a connection that is written or fails. -/
def Connection.first (connection : Connection) : Option Frame :=
  (connection.written.map Sent.frame ++ connection.failed.toList).head?

/-- A connection was opened behind the ones that are closed, and its first
frame is `f`. A connection that is still open has a frame, so that a write
that fails later is not the first. -/
def Opened (closed : List Connection) (f : Frame) (s : DaemonConnection) :
    Prop :=
  ∃ connection, s.connections = closed ++ [connection]
    ∧ connection.first = some f
    ∧ (s.daemon = some connection → connection.written ≠ [])

section First

variable {closed : List Connection} {f : Frame} {s : DaemonConnection}

/-- A later write does not move the first frame: something was written or
tried on the connection before, and what comes is put behind it, also when
it fails. -/
theorem Opened.send (h : Opened closed f s) (env : Environment)
    (context : Option ContextId) (frame : Frame) :
    Opened closed f (s.send env context frame) := by
  obtain ⟨connection, hall, hfirst, hwritten⟩ := h
  have hopen : ∀ live, s.daemon = some live →
      s.closed = closed ∧ live = connection := by
    intro live hlive
    rw [DaemonConnection.connections, hlive] at hall
    have hlast := List.append_inj' hall rfl
    exact ⟨hlast.1, List.head_eq_of_cons_eq hlast.2⟩
  -- something was written, so what comes behind it is not the first
  have hbehind : connection.written ≠ [] → ∀ tail,
      (connection.written.map Sent.frame ++ tail).head? = some f := by
    intro hne tail
    unfold Connection.first at hfirst
    cases hlist : connection.written with
    | nil => exact absurd hlist hne
    | cons x xs =>
        rw [hlist] at hfirst
        exact hfirst
  rcases DaemonConnection.send_cases env context frame with
    ⟨-, h⟩ | ⟨live, count, hlive, -, h⟩ | ⟨live, hlive, -, h⟩
  · rw [h]
    exact ⟨connection, hall, hfirst, hwritten⟩
  · obtain ⟨hclosed, heq⟩ := hopen live hlive
    subst heq
    rw [h]
    refine ⟨_, by rw [DaemonConnection.connections, hclosed]; rfl, ?_, ?_⟩
    · unfold Connection.first
      rw [List.map_append, List.append_assoc]
      exact hbehind (hwritten hlive) _
    · intro _
      simp
  · obtain ⟨hclosed, heq⟩ := hopen live hlive
    subst heq
    rw [h]
    refine ⟨{ live with failed := some frame }, ?_,
      hbehind (hwritten hlive) _, ?_⟩
    · rw [DaemonConnection.connections, hclosed]
      exact List.append_nil _
    · intro hnone
      cases hnone

/-- Nor does the loop over the registry. -/
theorem Opened.foldl (h : Opened closed f s) (env : Environment)
    (cs : List ContextId) :
    Opened closed f
      (cs.foldl (DaemonConnection.sendContextRegistration env) s) := by
  induction cs generalizing s with
  | nil => exact h
  | cons c cs ih =>
      apply ih
      exact Opened.send (s := s.modify c _) h env _ _

/-- The connection that `initDaemonConnection` opens begins with the
application's registration. -/
theorem opened_initDaemonConnection (env : Environment)
    (hdown : s.isDaemonConnected = false)
    (hopen : env.openFifo s.opens = true) :
    Opened s.closed (registerAppFrame env.app env.pid (env.stack s.opens))
      (s.initDaemonConnection env) := by
  unfold DaemonConnection.initDaemonConnection
  rw [hdown, if_neg Bool.false_ne_true, if_pos hopen]
  apply Opened.foldl
  rcases DaemonConnection.send_cases
      (s := { s with opens := s.opens + 1, daemon := some {} }) env none
      (registerAppFrame env.app env.pid (env.stack s.opens)) with
    ⟨hnone, -⟩ | ⟨live, count, hlive, -, h⟩ | ⟨live, hlive, -, h⟩
  · cases hnone
  · cases hlive
    rw [h]
    refine ⟨_, rfl, rfl, ?_⟩
    intro _
    simp
  · cases hlive
    rw [h]
    refine ⟨_, List.append_nil _, rfl, ?_⟩
    intro hnone
    cases hnone

end First

-- ======================================================= the description

/-- The announced length is that of the bytes that follow, which are in
the buffer of 1024 bytes and from the front of the text. -/
structure DescriptionExact (text : List UInt8)
    (message : DltUserControlMsgRegisterApplication)
    (description : List UInt8) : Prop where
  length : message.descriptionLength.toNat = description.length
  inside : description.length ≤ 1024
  bytes : description <+: text

section Description

variable {app : AppLogContext} {pid : Int32} {stack : Nat → UInt8}

/-- A number is written without a NUL, -/
theorem zero_notMem_decimal (n : Int) : 0 ∉ decimal n := by
  intro hmem
  rcases List.mem_append.mp hmem with hsign | hdigits
  · split at hsign
    · simp at hsign
    · cases hsign
  · obtain ⟨c, hc, hzero⟩ := List.mem_map.mp hdigits
    have hdigit := Nat.isDigit_of_mem_toDigits (by omega) (by omega) hc
    have hbounds : 48 ≤ c.toNat ∧ c.toNat ≤ 57 := by
      simp only [Char.isDigit, Bool.and_eq_true, decide_eq_true_eq] at hdigit
      exact hdigit
    have hnat := congrArg UInt8.toNat hzero
    rw [UInt8.toNat_ofNat'] at hnat
    have hzero' : (0 : UInt8).toNat = 0 := rfl
    omega

/-- and so is the description that it is the end of. -/
theorem zero_notMem_descriptionText : 0 ∉ descriptionText app pid := by
  intro hmem
  rcases List.mem_append.mp hmem with hfront | hdecimal
  · rcases List.mem_append.mp hfront with htext | hbar
    · have hne := List.mem_takeWhile_imp htext
      simp at hne
    · simp [ascii] at hbar
  · exact zero_notMem_decimal _ hdecimal

/-- The description is the application's text, seven characters, and the
PID. -/
theorem length_descriptionText : (descriptionText app pid).length
    = (cText app.description.chars).length + 7
      + (decimal pid.toInt).length := by
  simp only [descriptionText, List.length_append]
  rfl

/-- The description of the frame, by its announced length. A text of 1024
bytes and more would have to have the buffer's NUL among its own bytes, and
one that is longer than an `int` is announced by a length that no buffer
has. -/
theorem descriptionExact_iff :
    (∃ userHeader message description,
      registerAppFrame app pid stack
          = .registerApp userHeader message description
        ∧ DescriptionExact (descriptionText app pid) message description)
      ↔ (descriptionText app pid).length < 1024 := by
  constructor
  · intro h
    obtain ⟨userHeader, message, description, hframe, hexact⟩ := h
    cases hframe
    have hinside := hexact.inside
    have hlength : ((List.range
        (descriptionLength (descriptionText app pid)).toNat).map
          (descriptionWithPID (descriptionText app pid) stack)).length
        = (descriptionLength (descriptionText app pid)).toNat := by
      rw [List.length_map, List.length_range]
    rw [hlength] at hinside
    by_contra hlong
    by_cases hshort : (descriptionText app pid).length < 2 ^ 31
    · have hlen := toNat_descriptionLength hshort
      -- the text ends with the buffer, whose last byte is the NUL
      have heq := hexact.bytes.eq_of_length (hlength.trans hlen)
      have hmem : (0 : UInt8) ∈ descriptionText app pid := by
        rw [← heq]
        refine List.mem_map.mpr ⟨1023, List.mem_range.mpr (by omega), ?_⟩
        have htake : ((descriptionText app pid).take 1023).length = 1023 := by
          rw [List.length_take]
          omega
        rw [descriptionWithPID, if_pos (by
          rw [List.length_append, htake, List.length_singleton]
          omega), List.getD_eq_getElem?_getD,
          List.getElem?_append_right (by omega), htake]
        rfl
      exact zero_notMem_descriptionText hmem
    · -- longer than an int: `snprintf` fails, and -1 is a length out of reach
      have hlen : (descriptionLength (descriptionText app pid)).toNat
          = 4294967295 := by
        unfold descriptionLength
        rw [if_neg hshort]
        rfl
      omega
  · intro hshort
    have hbytes : (List.range
        (descriptionLength (descriptionText app pid)).toNat).map
          (descriptionWithPID (descriptionText app pid) stack)
        = descriptionText app pid := by
      rw [toNat_descriptionLength (by omega)]
      exact map_descriptionWithPID hshort
    refine ⟨_, _, _, rfl, ?_, ?_, ?_⟩
    · rw [List.length_map, List.length_range]
    · rw [hbytes]
      omega
    · rw [hbytes]

end Description

/-- The description that a connection begins with is exact if and only if
the whole text has its place in the buffer. -/
theorem description_exact_iff (env : Environment) {s : DaemonConnection}
    (hdown : s.isDaemonConnected = false)
    (hopen : env.openFifo s.opens = true) :
    ∃ connection userHeader message description,
      (s.initDaemonConnection env).connections = s.closed ++ [connection]
        ∧ connection.first
          = some (.registerApp userHeader message description)
        ∧ (DescriptionExact (descriptionText env.app env.pid) message
            description
          ↔ (cText env.app.description.chars).length + 7
            + (decimal env.pid.toInt).length < 1024) := by
  obtain ⟨connection, hall, hfirst, -⟩ :=
    opened_initDaemonConnection env hdown hopen
  refine ⟨connection, _, _, _, hall, hfirst, ?_⟩
  rw [← length_descriptionText, ← descriptionExact_iff]
  constructor
  · intro hexact
    exact ⟨_, _, _, rfl, hexact⟩
  · intro h
    obtain ⟨userHeader, message, description, hframe, hexact⟩ := h
    cases hframe
    exact hexact

theorem description_exact_iff_sample :
    ∃ connection userHeader message description,
      ((@DaemonConnection.initial documentedConstants
          fun _ => sampleContext).initDaemonConnection
            (sampleEnvironment true)).connections = [] ++ [connection]
        ∧ connection.first
          = some (.registerApp userHeader message description)
        ∧ (DescriptionExact (descriptionText sampleApp 4711) message
            description
          ↔ (cText sampleApp.description.chars).length + 7
            + (decimal (4711 : Int32).toInt).length < 1024) :=
  description_exact_iff (sampleEnvironment true) rfl rfl

/-- An application whose description and PID take 1024 characters. -/
def longApp : AppLogContext where
  id := sampleApp.id
  description := ⟨List.replicate 1013 97, fun _ => 0⟩

/-- The NUL of the buffer is sent as the last character. -/
theorem description_not_exact :
    ∃ connection userHeader message description,
      ((@DaemonConnection.initial documentedConstants
          fun _ => sampleContext).initDaemonConnection
            { sampleEnvironment true with app := longApp }).connections
              = [connection]
        ∧ connection.first
          = some (.registerApp userHeader message description)
        ∧ ¬ DescriptionExact (descriptionText longApp 4711) message
          description := by
  obtain ⟨connection, hall, hfirst, -⟩ :=
    opened_initDaemonConnection
      (s := @DaemonConnection.initial documentedConstants
        fun _ => sampleContext)
      { sampleEnvironment true with app := longApp } rfl rfl
  refine ⟨connection, _, _, _, hall, hfirst, ?_⟩
  intro hexact
  have hshort := descriptionExact_iff.mp ⟨_, _, _, rfl, hexact⟩
  have htext : cText longApp.description.chars
      = List.replicate 1013 97 := by
    show List.takeWhile _ (List.replicate 1013 97) = _
    rw [List.takeWhile_replicate, if_pos (by decide)]
  have hpid : (decimal (4711 : Int32).toInt).length = 4 := by decide
  rw [length_descriptionText, htext, List.length_replicate, hpid] at hshort
  omega

-- ================================================================== ids

/-- The bytes that `assign_id` reads, by their distance from the id. -/
def assignIdReads : List Nat := List.range dltIdSize

/-- `assign_id` reads four bytes, whatever they are. -/
theorem bytes_assignId (src : Nat → UInt8) :
    (assignId src).bytes = assignIdReads.map src := rfl

/-- The field is the front of the id with zeros behind it, and nothing
behind the id's NUL was read for it. -/
structure IdCopied (id : StdString) (field : DltId) : Prop where
  bytes : field.bytes
    = (id.chars ++ List.replicate dltIdSize 0).take dltIdSize
  reads : ∀ i ∈ assignIdReads, i ≤ id.chars.length

/-- The id fields of a frame. -/
def Frame.ids : Frame → List DltId
  | .registerApp _ message _ => [message.apid]
  | .registerContext _ message _ => [message.apid, message.ctid]
  | .sendLog _ _ _ extendedheader _ =>
      [extendedheader.apid, extendedheader.ctid]

/-- The ids are copied wherever a registration of `c` puts them: into the
frame of the application, the frame of the context, and the header that
the context keeps for its messages. -/
structure IdsCopied (env : Environment) (s : DaemonConnection)
    (c : ContextId) : Prop where
  app : ∀ stack, List.Forall₂ IdCopied [env.app.id]
    (registerAppFrame env.app env.pid stack).ids
  context : List.Forall₂ IdCopied [env.app.id, (s.object c).parent.id]
    (registerContextFrame env.app env.pid (s.object c)).ids
  header : List.Forall₂ IdCopied [env.app.id, (s.object c).parent.id]
    [((s.sendContextRegistration env c).object c).extendedHeader.apid,
      ((s.sendContextRegistration env c).object c).extendedHeader.ctid]

section Ids

/-- Three characters and the NUL fill the field. -/
theorem idCopied_iff (id : StdString) :
    IdCopied id (assignId id.cStr) ↔ 3 ≤ id.chars.length := by
  constructor
  · intro h
    exact h.reads 3 (by simp [assignIdReads, dltIdSize])
  · intro hlen
    refine ⟨?_, ?_⟩
    · rw [bytes_assignId]
      obtain ⟨chars, behind⟩ := id
      rcases chars with _ | ⟨c0, _ | ⟨c1, _ | ⟨c2, _ | ⟨c3, rest⟩⟩⟩⟩
      · simp at hlen
      · simp at hlen
      · simp at hlen
      · rfl
      · rfl
    · intro i hi
      have hlt : i < 4 := List.mem_range.mp hi
      omega

/-- A field is its four bytes. -/
theorem DltId.eq_of_bytes_eq {x y : DltId} (h : x.bytes = y.bytes) :
    x = y := by
  cases x
  cases y
  simpa [DltId.bytes] using h

/-- What is behind an id is not copied exactly if the id is not short. -/
theorem assignId_behind_iff (chars : List UInt8) :
    (∀ behind behind', assignId (StdString.mk chars behind).cStr
        = assignId (StdString.mk chars behind').cStr)
      ↔ 3 ≤ chars.length := by
  constructor
  · intro h
    by_contra hshort
    have hlast : ∀ behind, (StdString.mk chars behind).cStr 3
        = behind (3 - chars.length - 1) := by
      intro behind
      show (if 3 < chars.length then _ else if 3 = chars.length then _
        else _) = _
      rw [if_neg (by omega), if_neg (by omega)]
    -- the last byte is from behind the NUL: two memories tell two fields
    have hsame := congrArg DltId.b3 (h (fun _ => 0) fun _ => 1)
    have hzero : (0 : UInt8) = 1 :=
      (hlast fun _ => 0).symm.trans (hsame.trans (hlast fun _ => 1))
    revert hzero
    decide
  · intro hlen behind behind'
    have hleft := ((idCopied_iff ⟨chars, behind⟩).mpr hlen).bytes
    have hright := ((idCopied_iff ⟨chars, behind'⟩).mpr hlen).bytes
    exact DltId.eq_of_bytes_eq (hleft.trans hright.symm)

/-- Two ids with the same bytes in front of a NUL end together. -/
theorem length_le_of_cStr_eq (id : StdString) {id' : StdString}
    (hzero : 0 ∉ id'.chars) {n : Nat}
    (hsame : ∀ i, i < n → id.cStr i = id'.cStr i)
    (hshort : id.chars.length < n) :
    id'.chars.length ≤ id.chars.length := by
  by_contra hlonger
  have hlt : id.chars.length < id'.chars.length := by omega
  have heq := hsame _ hshort
  have hleft : id.cStr id.chars.length = 0 := by
    rw [StdString.cStr, if_neg (Nat.lt_irrefl _), if_pos rfl]
  have hright : id'.cStr id.chars.length = id'.chars[id.chars.length] := by
    rw [StdString.cStr, if_pos hlt, List.getD_eq_getElem?_getD,
      List.getElem?_eq_getElem hlt]
    rfl
  apply hzero
  rw [← hleft, heq, hright]
  exact List.getElem_mem hlt

/-- Ids without a NUL that have the same fields begin alike. Where one of
them is short its NUL is among the four bytes, and so the other one ends at
the same place. -/
theorem take_eq_of_assignId_eq {id id' : StdString} (hzero : 0 ∉ id.chars)
    (hzero' : 0 ∉ id'.chars) (h : assignId id.cStr = assignId id'.cStr) :
    id.chars.take dltIdSize = id'.chars.take dltIdSize := by
  have hsame : ∀ i, i < 4 → id.cStr i = id'.cStr i := by
    intro i hi
    have hbytes := congrArg DltId.bytes h
    rw [bytes_assignId, bytes_assignId] at hbytes
    exact List.map_inj_left.mp hbytes i (List.mem_range.mpr hi)
  have hfour : dltIdSize = 4 := rfl
  have hchar : ∀ (x : StdString) (i : Nat) (hi : i < x.chars.length),
      x.cStr i = x.chars[i] := by
    intro x i hi
    rw [StdString.cStr, if_pos hi, List.getD_eq_getElem?_getD,
      List.getElem?_eq_getElem hi]
    rfl
  -- a short id has its NUL among the bytes, so the other one ends there
  have hlen : min 4 id.chars.length = min 4 id'.chars.length := by
    by_cases hleft : id.chars.length < 4
    · have hle := length_le_of_cStr_eq id hzero' hsame hleft
      have hge := length_le_of_cStr_eq id' hzero
        (fun i hi => (hsame i hi).symm) (by omega)
      omega
    · by_cases hright : id'.chars.length < 4
      · have hle := length_le_of_cStr_eq id' hzero
          (fun i hi => (hsame i hi).symm) hright
        omega
      · omega
  apply List.ext_getElem
  · rw [List.length_take, List.length_take, hfour, hlen]
  · intro i hi hi'
    rw [List.length_take, hfour] at hi hi'
    rw [List.getElem_take, List.getElem_take, ← hchar id i (by omega),
      ← hchar id' i (by omega)]
    exact hsame i (by omega)

/-- The fields of a registration are the ids, and what is behind the ids
does not matter for them, exactly if the ids have three characters or
more. Ids that begin differently have different fields in any case. -/
theorem ids_copied_iff (env : Environment) (s : DaemonConnection)
    (c : ContextId) :
    (IdsCopied env s c ↔ 3 ≤ env.app.id.chars.length
        ∧ 3 ≤ (s.object c).parent.id.chars.length)
      ∧ (∀ chars, (∀ behind behind',
          assignId (StdString.mk chars behind).cStr
            = assignId (StdString.mk chars behind').cStr)
        ↔ 3 ≤ chars.length)
      ∧ ∀ id id' : StdString, 0 ∉ id.chars → 0 ∉ id'.chars →
        id.chars.take dltIdSize ≠ id'.chars.take dltIdSize →
        assignId id.cStr ≠ assignId id'.cStr := by
  have happ := idCopied_iff env.app.id
  have hcontext := idCopied_iff (s.object c).parent.id
  have hheader : ((s.sendContextRegistration env c).object c)
      = DaemonConnection.assignIds env (s.object c) := by
    rw [DaemonConnection.sendContextRegistration,
      DaemonConnection.object_send, DaemonConnection.object_modify_self]
  refine ⟨⟨?_, ?_⟩, assignId_behind_iff, ?_⟩
  · intro h
    rcases h.context with _ | ⟨hleft, hrest⟩
    rcases hrest with _ | ⟨hright, -⟩
    exact ⟨happ.mp hleft, hcontext.mp hright⟩
  · intro h
    obtain ⟨hleft, hright⟩ := h
    have hboth : List.Forall₂ IdCopied
        [env.app.id, (s.object c).parent.id]
        [assignId env.app.id.cStr, assignId (s.object c).parent.id.cStr] :=
      .cons (happ.mpr hleft) (.cons (hcontext.mpr hright) .nil)
    refine ⟨fun _ => .cons (happ.mpr hleft) .nil, hboth, ?_⟩
    rw [hheader]
    exact hboth
  · intro id id' hzero hzero' hne heq
    exact hne (take_eq_of_assignId_eq hzero hzero' heq)

end Ids

/-- The context `CC` of the example, with other memory behind it. -/
def shortContext : LogContextCommon where
  id := ⟨ascii ['C', 'C'], fun _ => 88⟩
  description := sampleContext.description

/-- Its field has a fourth byte from behind the id. -/
theorem short_id_overread :
    ¬ IdsCopied (sampleEnvironment true)
        (@DaemonConnection.initial documentedConstants
          fun _ => shortContext) 0
      ∧ (registerContextFrame sampleApp 4711
          (@DltCppContext.fresh documentedConstants shortContext)).ids
        = [⟨68, 69, 77, 79⟩, ⟨67, 67, 0, 88⟩] := by
  refine ⟨?_, rfl⟩
  intro h
  rcases h.context with _ | ⟨-, hrest⟩
  rcases hrest with _ | ⟨hshort, -⟩
  have hlen := (idCopied_iff shortContext.id).mp hshort
  revert hlen
  decide

end IviLogging.DltCpp
