/-
A statement on the two backends for the DLT.

One hands its values to the DLT library, the other encodes the message
itself. Both are meant to say the same to the daemon.

# What can be compared

A write of the library is handed a value and its type, which is what an
argument of a message is (`UserLogWrite.argument`). What the library makes
of it is its own affair, so it is the calls that are compared, on an entry
with both backends (`LogEntry`).

# The values

Each overload hands over what it writes in a message of DltCpp
(`LogData.write_overload`). A string view goes through a buffer of 65536
bytes; where the message of DltCpp is open, no string comes near that. So
the library is handed all values (`LogEntry.dlt_putAll`), and the message,
while it is open, has those that are no empty strings.

# The trailer

The trailers differ as well: in the type that the line has, and in the
width of the thread's number, of which the library gets eight bits
(`LogData.arguments_writeTrailer`, `writtenValues_trailerCalls`). One
definition has both, by what these two are written as (`trailerArguments`).

The two together are `dlt_backends_agree`.
-/
import IviLogging.Dlt.Context
import IviLogging.Proofs.DefaultEntry
import Mathlib.Algebra.Order.BigOperators.Group.List

namespace IviLogging.Dlt

open DltCpp (Arg Message Represents DltUser DltConstants maxMessageSize
  writtenValues)

-- ============================================================= the arguments

/-- The value that a write of this backend hands to the library, with its
type, as an argument of a message of DltCpp would hold it. What the library
makes of it is not modelled; the coding of a string is left out. -/
def UserLogWrite.argument : UserLogWrite → Arg
  | .bool v => .ofNat .bool v.toNat
  | .string v => .strg v
  | .utf8String v => .strg v
  | .float32 bits => .ofNat .floa32 bits.toNat
  | .float64 bits => .ofNat .floa64 bits.toNat
  | .int8 v => .ofNat (.sint .bit8) v.toUInt8.toNat
  | .int16 v => .ofNat (.sint .bit16) v.toUInt16.toNat
  | .int32 v => .ofNat (.sint .bit32) v.toUInt32.toNat
  | .int64 v => .ofNat (.sint .bit64) v.toUInt64.toNat
  | .uint8 v => .ofNat (.uint .bit8 false) v.toNat
  | .uint16 v => .ofNat (.uint .bit16 false) v.toNat
  | .uint32 v => .ofNat (.uint .bit32 false) v.toNat
  | .uint64 v => .ofNat (.uint .bit64 false) v.toNat
  | .uint8Formatted v => .ofNat (.uint .bit8 true) v.toNat
  | .uint16Formatted v => .ofNat (.uint .bit16 true) v.toNat
  | .uint32Formatted v => .ofNat (.uint .bit32 true) v.toNat
  | .uint64Formatted v => .ofNat (.uint .bit64 true) v.toNat

/-- The arguments of a record. -/
def LogData.arguments (d : LogData) : List Arg :=
  d.written.map UserLogWrite.argument

/-- The arguments of a trailer, by what the line and the thread's number are
written as. -/
def trailerArguments (base : LogContextBase) (thread : ThreadInformation)
    (data : LogInfo) (line number : Arg) : List Arg :=
  (if base.enableSourceCodeLocationInfo then
      [.strg DltCpp.LogData.locationSeparator, .strg (cText data.getFileName)]
        ++ (if data.lineNumber ≠ -1 then [line] else [])
        ++ (data.prettyFunction.map fun f => Arg.strg (cText f)).toList
    else [])
    ++ (if base.enableThreadInfo then
      [.strg (ascii ['T', 'h', 'r', 'e', 'a', 'd', 'I', 'D']), number,
        .strg (cText thread.name)]
    else [])

/-- The values of the items of a statement. -/
def statementValues (hex : Bool) (items : List Item) : List Arg :=
  writtenValues hex ((items.flatMap Item.ops).map Op.dltCppCall)

-- ================================================================ an entry

/-- An entry with both backends. -/
structure LogEntry where
  dlt : Option LogData
  dltCpp : DltCpp.LogData

namespace LogEntry

variable [DltConstants]

/-- `LogEntry::write`. -/
def write (e : LogEntry) (v : NativeValue) : LogEntry where
  dlt := e.dlt.bind fun d =>
    if d.enabled then d.write (overload v) else some d
  dltCpp := if e.dltCpp.enabled then e.dltCpp.call v.dltCppCall else e.dltCpp

/-- `LogInfo::setHexEnabled`. -/
def setHexEnabled (e : LogEntry) (enabled : Bool) : LogEntry where
  dlt := e.dlt.map fun d => d.setHexEnabled enabled
  dltCpp := e.dltCpp.setHexEnabled enabled

instance logType : LogType LogEntry Empty where
  write := write
  writeUnsupported _ v := nomatch v

instance hexSwitch : HexSwitch LogEntry where
  setHexEnabled := setHexEnabled

/-- The entry of a statement that both want. -/
def created (memory : Vector UInt8 maxMessageSize)
    (dltCppContext : DltCpp.ContextId) (messageCount : UInt8) (context : Nat)
    (dltLogLevel : Int) (data : LogInfo) : LogEntry where
  dlt := some { context, data, dltLogLevel, enabled := true }
  dltCpp := .fresh memory dltCppContext data dltLogLevel true messageCount

end LogEntry

-- =============================================================== the library

namespace LogData

@[simp] theorem arguments_put (d : LogData) (w : UserLogWrite) :
    (d.put w).arguments = d.arguments ++ [w.argument] := by
  simp [arguments, put]

/-- A string view that fits into the buffer is written as it is. -/
theorem formatted_view {v : List UInt8} (hnul : 0 ∉ v)
    (hlength : v.length < 65536) :
    DltContexts.formatted 65536 (ascii ['%', '.', '*', 's'])
      [.word32 (UInt32.ofNat v.length), .string v] = some v := by
  have hmax : v.length ≤ Printf.intMax := by
    unfold Printf.intMax
    omega
  have hview : Printf.printf (ascii ['%', '.', '*', 's'])
      [.word32 (UInt32.ofNat v.length), .string v] = some v := by
    show Printf.printf [37, 46, 42, 115] _ = _
    rw [Printf.printf_view hmax, Printf.takeWhile_eq_self hnul]
  unfold DltContexts.formatted Printf.snprintf
  rw [hview, Option.map_some, if_pos hmax, Option.bind_some]
  show some (cText (v.take 65535 ++ [0])) = some v
  rw [List.take_of_length_le (by omega), cText_append hnul]

/-- A value is the argument that it is in a message of DltCpp, under the same
switch for hexadecimal digits. -/
theorem write_overload {d : LogData} (henabled : d.enabled = true)
    {v : NativeValue} (hshort : v.bytes.length < 65536) :
    ∃ w, d.write (overload v) = some (d.put w)
      ∧ v.dltCppCall.arg d.data.hexEnabled = some w.argument := by
  cases v with
  | cString s => exact ⟨_, rfl, rfl⟩
  | string s =>
      refine ⟨_, rfl, ?_⟩
      show some (Arg.strg s.bytes) = some (.strg (cText s.bytes))
      rw [cText, Printf.takeWhile_eq_self s.nul]
  | stringView s =>
      refine ⟨.utf8String s.bytes, ?_, rfl⟩
      show d.writeFormatted _ _ = _
      rw [writeFormatted, if_pos henabled, formatted_view s.nul hshort]
      rfl
  | unsignedChar v | unsignedShort v | unsignedInt v | unsignedLong v =>
      refine ⟨_, rfl, ?_⟩
      unfold isHexEnabled
      cases d.data.hexEnabled <;> rfl
  | _ => exact ⟨_, rfl, rfl⟩

/-- The trailer, as arguments: the library has an unsigned line, and eight bits
of the thread's number. -/
theorem arguments_writeTrailer (d : LogData) (base : LogContextBase)
    (thread : ThreadInformation) :
    (d.writeTrailer base thread).arguments
      = d.arguments ++ trailerArguments base thread d.data
          (.ofNat (.uint .bit32 false) d.data.lineNumber.toUInt32.toNat)
          (.ofNat (.uint .bit8 false) thread.id.toUInt32.toUInt8.toNat) := by
  -- the part of the thread, behind whatever was written
  have hlocation : ∀ e : LogData,
      (if base.enableThreadInfo then
          ((e.put (.string
            (ascii ['T', 'h', 'r', 'e', 'a', 'd', 'I', 'D']))).put
              (.uint8 thread.id.toUInt32.toUInt8)).put
                (.string (cText thread.name))
        else e).arguments
        = e.arguments ++ (if base.enableThreadInfo then
            [.strg (ascii ['T', 'h', 'r', 'e', 'a', 'd', 'I', 'D']),
              .ofNat (.uint .bit8 false) thread.id.toUInt32.toUInt8.toNat,
              .strg (cText thread.name)]
          else []) := by
    intro e
    split
    · simp [UserLogWrite.argument]
    · simp
  unfold writeTrailer trailerArguments
  dsimp only
  rw [hlocation, ← List.append_assoc]
  congr 1
  by_cases hloc : base.enableSourceCodeLocationInfo = true
  · rw [if_pos hloc, if_pos hloc]
    by_cases hline : d.data.lineNumber = -1
    · cases hf : d.data.prettyFunction <;>
        simp [hline, hf, put, arguments, UserLogWrite.argument]
    · cases hf : d.data.prettyFunction <;>
        simp [hline, hf, put, arguments, UserLogWrite.argument]
  · simp [hloc]

end LogData

-- =============================================================== the message

/-- The values of some calls, and of some more under the switch as it is
then. -/
theorem writtenValues_append (hex : Bool) (cs cs' : List DltCpp.WriteCall) :
    writtenValues hex (cs ++ cs')
      = writtenValues hex cs
        ++ writtenValues (cs.foldl (fun h c => c.hexAfter h) hex) cs' := by
  induction cs generalizing hex with
  | nil => rfl
  | cons c cs ih =>
      rw [List.cons_append, writtenValues, writtenValues, ih,
        List.append_assoc]
      rfl

/-- The trailer of DltCpp, as arguments: both numbers are those of an `int`.
The hex switch does not matter for them, since only the unsigned overloads
look at it. -/
theorem writtenValues_trailerCalls (hex : Bool) (base : LogContextBase)
    (thread : ThreadInformation) (data : LogInfo) :
    writtenValues hex (DltCpp.LogData.trailerCalls base thread data)
      = trailerArguments base thread data
          (.ofNat (.sint .bit32) data.lineNumber.toUInt32.toNat)
          (.ofNat (.sint .bit32) thread.id.toUInt32.toNat) := by
  have hseparator : cText DltCpp.LogData.locationSeparator
      = DltCpp.LogData.locationSeparator := by
    decide
  have hthread : cText (ascii ['T', 'h', 'r', 'e', 'a', 'd', 'I', 'D'])
      = ascii ['T', 'h', 'r', 'e', 'a', 'd', 'I', 'D'] := by
    decide
  have hnumber : ∀ h, writtenValues h (if base.enableThreadInfo then
      [.cString (ascii ['T', 'h', 'r', 'e', 'a', 'd', 'I', 'D']),
        .int32 thread.id, .cString thread.name]
      else [])
      = if base.enableThreadInfo then
          [.strg (ascii ['T', 'h', 'r', 'e', 'a', 'd', 'I', 'D']),
            .ofNat (.sint .bit32) thread.id.toUInt32.toNat,
            .strg (cText thread.name)]
        else [] := by
    intro h
    split
    · simp [writtenValues, DltCpp.WriteCall.arg, hthread]
    · rfl
  unfold DltCpp.LogData.trailerCalls trailerArguments
  rw [writtenValues_append, hnumber]
  congr 1
  by_cases hloc : base.enableSourceCodeLocationInfo = true
  · by_cases hline : data.lineNumber = -1
    · cases hf : data.prettyFunction <;>
        simp [hloc, hline, writtenValues, DltCpp.WriteCall.arg, hseparator]
    · cases hf : data.prettyFunction <;>
        simp [hloc, hline, writtenValues, DltCpp.WriteCall.arg, hseparator]
  · simp [hloc, writtenValues]

-- ============================================================= the statement

/-- None of the calls of a statement and its trailer is a formatted text. -/
theorem formatted_notMem_statement (ops : List Op) (base : LogContextBase)
    (thread : ThreadInformation) (data : LogInfo)
    (text : DltCpp.FormattedText) :
    .formatted text ∉ ops.map Op.dltCppCall
      ++ DltCpp.LogData.trailerCalls base thread data := by
  intro hmem
  rcases List.mem_append.mp hmem with hmem | hmem
  · exact formatted_notMem_ops ops text hmem
  · have hfunction : DltCpp.WriteCall.formatted text
        ∉ (data.prettyFunction.map DltCpp.WriteCall.cString).toList := by
      cases data.prettyFunction <;> simp
    unfold DltCpp.LogData.trailerCalls at hmem
    rcases List.mem_append.mp hmem with hmem | hmem
    · rw [List.mem_ite_nil_right] at hmem
      rcases List.mem_append.mp hmem.2 with hmem | hmem
      · split at hmem <;> simp at hmem
      · exact hfunction hmem
    · split at hmem <;> simp at hmem

/-- A string that is written is one of the values. -/
theorem strg_mem_writtenValues {hex : Bool} {ops : List Op} {v : NativeValue}
    (hmem : .write v ∈ ops) (hbytes : v.bytes ≠ []) :
    .strg v.bytes ∈ writtenValues hex (ops.map Op.dltCppCall) := by
  induction ops generalizing hex with
  | nil => cases hmem
  | cons op ops ih =>
      rw [List.map_cons, writtenValues]
      rcases List.mem_cons.mp hmem with rfl | hrest
      · refine List.mem_append_left _ ?_
        cases v with
        | cString s =>
            show _ ∈ [Arg.strg (cText s.bytes)]
            rw [cText, Printf.takeWhile_eq_self s.nul]
            exact List.mem_singleton.mpr rfl
        | stringView s => exact List.mem_singleton.mpr rfl
        | string s => exact List.mem_singleton.mpr rfl
        | _ => exact absurd rfl hbytes
      · exact List.mem_append_right _ (ih hrest)

/-- Among arguments that have their room in a message, strings are short. -/
theorem length_lt_of_mem {args : List Arg} {v : List UInt8}
    (hmem : .strg v ∈ args) (hsize : (args.map Arg.size).sum ≤ maxMessageSize) :
    v.length < 65536 := by
  have hmax : maxMessageSize = 16384 := rfl
  have hle : (Arg.strg v).size ≤ (args.map Arg.size).sum :=
    List.single_le_sum (fun _ _ => Nat.zero_le _) _ (List.mem_map_of_mem hmem)
  simp only [Arg.size] at hle
  omega

section Statement

variable [DltConstants]

/-- Operations whose strings are short hand their values to the library. The
record keeps its data, the switch apart. -/
theorem LogEntry.dlt_putAll {e : LogEntry} {d : LogData} (he : e.dlt = some d)
    (henabled : d.enabled = true) {ops : List Op}
    (hshort : ∀ v, .write v ∈ ops → v.bytes.length < 65536) :
    ∃ d', (ops.foldl Op.put e).dlt = some d'
      ∧ d'.arguments = d.arguments
        ++ writtenValues d.data.hexEnabled (ops.map Op.dltCppCall)
      ∧ ∃ hex, d'.data = { d.data with hexEnabled := hex } := by
  induction ops generalizing e d with
  | nil => exact ⟨d, he, (List.append_nil _).symm, d.data.hexEnabled, rfl⟩
  | cons op ops ih =>
      have hrest : ∀ v, Op.write v ∈ ops → v.bytes.length < 65536 :=
        fun v hmem => hshort v (List.mem_cons_of_mem _ hmem)
      cases op with
      | setHexEnabled enabled =>
          have hset : (Op.put e (.setHexEnabled enabled)).dlt
              = some (d.setHexEnabled enabled) := by
            show e.dlt.map _ = _
            rw [he]
            rfl
          exact ih hset henabled hrest
      | write v =>
          obtain ⟨w, hwrite, harg⟩ :=
            LogData.write_overload henabled (hshort v List.mem_cons_self)
          have hput : (Op.put e (.write v)).dlt = some (d.put w) := by
            show e.dlt.bind _ = _
            rw [he, Option.bind_some, if_pos henabled, hwrite]
          obtain ⟨d', hd', hargs, hdata⟩ := ih hput henabled hrest
          refine ⟨d', hd', ?_, hdata⟩
          have hhex : v.dltCppCall.hexAfter d.data.hexEnabled
              = d.data.hexEnabled := by
            cases v <;> rfl
          rw [hargs, LogData.arguments_put, List.map_cons, writtenValues,
            Op.dltCppCall, harg, hhex, List.append_assoc]
          rfl

/-- They are the calls of an open message, as on any entry. -/
theorem LogEntry.dltCpp_putAll {e : LogEntry}
    (henabled : e.dltCpp.enabled = true) (ops : List Op) :
    (ops.foldl Op.put e).dltCpp
      = e.dltCpp.calls (ops.map Op.dltCppCall) := by
  refine message_putAll LogEntry.dltCpp ?_ henabled ops
  intro e op hen
  cases op with
  | setHexEnabled enabled => rfl
  | write v => exact if_pos hen

end Statement

/-- The message of a statement with its trailer, as its reader sees it. -/
theorem LogEntry.represents_statement [DltUser]
    (memory : Vector UInt8 maxMessageSize)
    (dltCppContext : DltCpp.ContextId) (messageCount : UInt8) (context : Nat)
    (dltLogLevel : Int) (data : LogInfo) (base : LogContextBase)
    (thread : ThreadInformation) (items : List Item) :
    Represents ((Item.insertAll (LogEntry.created memory dltCppContext
        messageCount context dltLogLevel data) items).dltCpp.writeTrailer base
          thread)
      (Message.calls {} data.hexEnabled
        ((items.flatMap Item.ops).map Op.dltCppCall
          ++ DltCpp.LogData.trailerCalls base thread data)) := by
  rw [insertAll_eq, LogEntry.dltCpp_putAll rfl,
    DltCpp.LogData.writeTrailer_calls]
  exact (DltCpp.represents_fresh memory dltCppContext data dltLogLevel true
    messageCount).calls _

/-- The entry of the fixed inputs, behind a map and a number. -/
def sampleEntry : LogEntry :=
  @Item.insertAll _ (@LogEntry.logType DltCpp.documentedConstants)
    LogEntry.hexSwitch
    (.created (Vector.replicate maxMessageSize 255) 0 0 0 4 sampleInfo)
    sampleItems

end IviLogging.Dlt
