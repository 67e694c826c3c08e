/-
A statement on both backends.

A statement is a list of items: values, of whatever structure, and the two
manipulators that switch hexadecimal digits on and off. The entry of a
`DefaultLogContext` has a record of the console and a message of DltCpp.

# The operations

The items of a statement are operations on the log, one after the other
(`insertAll_eq`): each value writes its tokens, and the manipulators move
the switch. The entry takes each of them to both backends: the record of
the console runs through the actions (`console_putAll`), the message of
DltCpp through the calls (`dltCpp_putAll`, which follows from what is so of
any entry with such a message, `message_putAll`). So the line has the texts
of the items and the message their arguments, both under one switch.

# The sizes

That the strings are short enough for the console follows from the message:
what is in it takes its room there, and it is not full (`sizes_of_ops`). The
prefix is the default one, which can always be printed. So nothing is left
to assume but that both backends want the statement and that the message
stays open (`statement_on_both`).
-/
import IviLogging.Proofs.Values
import IviLogging.Stream.Proofs.Prefix

namespace IviLogging

open DltCpp (Message Represents DltUser DltConstants maxMessageSize)
open Printf (intMax printf)

-- =============================================================== operations

section Operations

variable {L : Type} [LogType L Empty] [HexSwitch L]

/-- The log behind an operation. -/
def Op.put (log : L) : Op → L
  | write v => LogType.write log v
  | setHexEnabled enabled => HexSwitch.setHexEnabled log enabled

/-- An item does its operations: a value writes its tokens, and a manipulator
moves the switch. -/
theorem insert_item_eq (log : L) (item : Item) :
    item.insert log = item.ops.foldl Op.put log := by
  cases item with
  | value v =>
      show v.insert log = (v.writes.map Op.write).foldl Op.put log
      rw [Value.insert_eq, Value.writes, List.map_map, List.foldl_map]
      unfold Value.putAll
      congr 1
      funext log t
      cases t with
      | write v => rfl
      | unsupported v => exact nomatch v
  | _ => rfl

/-- The items of a statement are its operations. -/
theorem insertAll_eq (log : L) (items : List Item) :
    Item.insertAll log items = (items.flatMap Item.ops).foldl Op.put log := by
  unfold Item.insertAll
  rw [List.foldl_flatMap]
  congr 1
  funext log item
  exact insert_item_eq log item

/-- A message that an entry hands every operation runs through the calls,
whatever other backends the entry has. -/
theorem message_putAll [DltConstants] (message : L → DltCpp.LogData)
    (hput : ∀ (e : L) (op : Op), (message e).enabled = true →
      message (Op.put e op) = (message e).call op.dltCppCall)
    {e : L} (henabled : (message e).enabled = true) (ops : List Op) :
    message (ops.foldl Op.put e)
      = (message e).calls (ops.map Op.dltCppCall) := by
  induction ops generalizing e with
  | nil => rfl
  | cons op ops ih =>
      have hcall := hput e op henabled
      -- a call leaves a message enabled, so the next one is handed on too
      have hkept : (message (Op.put e op)).enabled = true := by
        rw [hcall]
        exact (DltCpp.LogData.calls_keep _ [op.dltCppCall]).2.2.1.trans
          henabled
      rw [List.foldl_cons, ih hkept, hcall]
      rfl

end Operations

namespace DefaultLogEntry

variable [DltConstants]

/-- The record runs through the actions. -/
theorem console_putAll (e : DefaultLogEntry) (ops : List Op) :
    (ops.foldl Op.put e).console = e.console.bind fun s =>
      Transition.run Stream.step s (ops.map Op.streamAction) := by
  induction ops generalizing e with
  | nil =>
      cases hconsole : e.console with
      | none => simp [hconsole]
      | some s => simp [hconsole]
  | cons op ops ih =>
      -- one operation is one action of the record
      have hstep : (Op.put e op).console = e.console.bind fun s =>
          Stream.step s op.streamAction := by
        cases op with
        | write v => rfl
        | setHexEnabled enabled => rfl
      rw [List.foldl_cons, ih, hstep, Option.bind_assoc]
      rfl

/-- An enabled message runs through the calls: each operation is handed to it,
and looks if it is enabled. -/
theorem dltCpp_putAll {e : DefaultLogEntry}
    (henabled : e.dltCpp.data.enabled = true) (ops : List Op) :
    (ops.foldl Op.put e).dltCpp.data
      = e.dltCpp.data.calls (ops.map Op.dltCppCall) := by
  refine message_putAll (fun e : DefaultLogEntry => e.dltCpp.data) ?_
    henabled ops
  intro e op hen
  cases op with
  | setHexEnabled enabled => rfl
  | write v => cases v <;> exact congrArg DltCpp.Entry.data (if_pos hen)

end DefaultLogEntry

-- ================================================================ the texts

/-- The texts of some operations are those of their actions. -/
theorem texts_streamAction (hex : Bool) (ops : List Op) :
    Stream.texts hex (ops.map Op.streamAction) = Op.texts hex ops := by
  induction ops generalizing hex with
  | nil => rfl
  | cons op ops ih =>
      rw [List.map_cons, Stream.texts, ih, Op.texts]
      cases op with
      | setHexEnabled enabled => rfl
      | write v => cases v <;> rfl

/-- The operations leave the levels alone. -/
theorem staysEnabled_streamAction {kind : Stream.Kind} {severity : LogLevel}
    {l : Stream.Levels} (h : l.isEnabled kind severity = true)
    (ops : List Op) :
    Stream.StaysEnabled kind severity l (ops.map Op.streamAction) := by
  induction ops with
  | nil => exact h
  | cons op ops ih =>
      cases op with
      | write v => exact ⟨h, ih⟩
      | setHexEnabled enabled => exact ⟨h, ih⟩

-- ================================================================ the sizes

/-- The strings of an operation have their room in a message. -/
theorem length_bytes_le_op (hex : Bool) (op : Op) (c : Stream.WriteCall)
    (hc : op.streamAction = .write c) :
    c.bytes.length ≤ ((op.arguments hex).map DltCpp.Arg.size).sum := by
  cases op with
  | setHexEnabled enabled =>
      cases hc
      exact Nat.zero_le _
  | write v =>
      cases hc
      have hsizes : ((Op.write v).arguments hex).map DltCpp.Arg.size
          = v.arguments.map DltCpp.Arg.size := by
        cases v <;> rfl
      rw [bytes_streamCall, hsizes]
      exact length_bytes_le v

/-- A text is not long beside what the operation takes in a message, in
hexadecimal digits or not. -/
theorem length_text_le_op (hex : Bool) {op : Op}
    (hshort : ∀ c, op.streamAction = .write c → c.bytes.length < intMax) :
    (op.text hex).length
      ≤ 2 ^ 31 * ((op.arguments hex).map DltCpp.Arg.size).sum := by
  have hint : intMax = 2 ^ 31 - 1 := rfl
  cases op with
  | setHexEnabled enabled => exact Nat.zero_le _
  | write v =>
      have hbytes := hshort _ rfl
      cases harguments : (Op.write v).arguments hex with
      | cons a as =>
          have hpos := a.size_pos
          have hlt := Stream.length_text_lt hex hbytes
          rw [List.map_cons, List.sum_cons]
          show (v.streamCall.text hex).length ≤ _
          omega
      | nil =>
          -- only a string leaves no argument, and its text is its own
          have hvalue : v.arguments = []
              ∧ v.streamCall.text hex = v.streamCall.text false := by
            cases v with
            | cString s => exact ⟨harguments, rfl⟩
            | stringView s => exact ⟨harguments, rfl⟩
            | string s => exact ⟨harguments, rfl⟩
            | _ => cases harguments
          rw [bytes_streamCall] at hbytes
          have hle := length_text_le hbytes
          rw [hvalue.1] at hle
          show (v.streamCall.text hex).length ≤ _
          rw [hvalue.2]
          exact hle

/-- The strings and the texts of some operations, beside the size of their
message. -/
theorem sizes_of_ops (hex : Bool) (ops : List Op)
    (hsize : ((Op.argumentsOf hex ops).map DltCpp.Arg.size).sum < intMax) :
    (∀ c, .write c ∈ ops.map Op.streamAction → c.bytes.length < intMax)
      ∧ (Op.texts hex ops).length
        ≤ 2 ^ 31 * ((Op.argumentsOf hex ops).map DltCpp.Arg.size).sum := by
  induction ops generalizing hex with
  | nil => exact ⟨fun c hc => absurd hc List.not_mem_nil, Nat.zero_le _⟩
  | cons op ops ih =>
      rw [Op.argumentsOf, List.map_append, List.sum_append] at hsize
      obtain ⟨hstrings, htexts⟩ := ih (op.hexAfter hex) (by omega)
      have hshort : ∀ c, op.streamAction = .write c →
          c.bytes.length < intMax := by
        intro c hc
        have hle := length_bytes_le_op hex op c hc
        omega
      constructor
      · intro c hc
        rcases List.mem_cons.mp hc with heq | hmem
        · exact hshort c heq.symm
        · exact hstrings c hmem
      · have htext := length_text_le_op hex hshort
        rw [Op.texts, Op.argumentsOf, List.length_append, List.map_append,
          List.sum_append]
        omega

-- ============================================================ the statement

/-- The texts of the items of a statement. -/
def Item.texts (hex : Bool) (items : List Item) : List UInt8 :=
  Op.texts hex (items.flatMap Item.ops)

/-- The arguments of the items of a statement. -/
def Item.arguments (hex : Bool) (items : List Item) : List DltCpp.Arg :=
  Op.argumentsOf hex (items.flatMap Item.ops)

/-- The entry of a statement that both backends want, behind its
construction. -/
def DefaultLogEntry.created (dltMemory : Vector UInt8 maxMessageSize)
    (dltContext : DltCpp.ContextId) (dltLogLevel : Int)
    (messageCount : UInt8) (statement : Nat) (memory : StaticData)
    (context : Stream.StreamLogContext) (data : LogInfo) (l : Stream.Levels)
    (env : Stream.Environment) : DefaultLogEntry where
  dltCpp := ⟨statement, .fresh dltMemory dltContext data dltLogLevel true
    messageCount⟩
  console := ((Stream.StreamLogData.fresh memory context data).init l
    env).map fun r => ⟨l, r⟩

/-- While its message is open, a statement has the texts of its items on
the console and their arguments in the message: both backends say the same,
in the same order, whatever containers the values came in. -/
theorem statement_on_both [DltUser]
    (dltMemory : Vector UInt8 maxMessageSize) (dltContext : DltCpp.ContextId)
    (dltLogLevel : Int) (messageCount : UInt8) (statement : Nat)
    (memory : StaticData) (context : Stream.StreamLogContext)
    (data : LogInfo) (l : Stream.Levels) (env : Stream.Environment)
    (items : List Item) :
    let r := Stream.StreamLogData.fresh memory context data
    let e := Item.insertAll (DefaultLogEntry.created dltMemory dltContext
      dltLogLevel messageCount statement memory context data l env) items
    l.isEnabled context.kind data.level = true →
    e.dltCpp.data.isFull = false →
    DltCpp.decodePayload e.dltCpp.data.payload
        = some (Item.arguments data.hexEnabled items)
      ∧ ∃ u p, e.console = some u
        ∧ printf r.prefixFormat (r.prefixArgs env) = some p
        ∧ u.record.content.contents
          = Stream.linePrefix context data.level p
            ++ Item.texts data.hexEnabled items := by
  intro r e hen hopen
  obtain ⟨p, hpre, hp⟩ := Stream.exists_defaultPrefix (r := r) env rfl
  have he : e = (items.flatMap Item.ops).foldl Op.put
      (DefaultLogEntry.created dltMemory dltContext dltLogLevel messageCount
        statement memory context data l env) := insertAll_eq _ items
  rw [he] at hopen ⊢
  rw [DefaultLogEntry.dltCpp_putAll rfl] at hopen ⊢
  -- the message: it decodes to the arguments, and these are short
  have hrep := represents_ops (DltCpp.represents_fresh ..) hopen
  refine ⟨hrep.decodePayload, ?_⟩
  have hsize : ((Item.arguments data.hexEnabled items).map
      DltCpp.Arg.size).sum ≤ maxMessageSize := hrep.size_le
  have hmax : maxMessageSize = 16384 := rfl
  have hint : intMax = 2 ^ 31 - 1 := rfl
  have hvector : charVectorMaxSize = 2 ^ 63 - 1 := rfl
  obtain ⟨hstrings, htexts⟩ := sizes_of_ops data.hexEnabled
    (items.flatMap Item.ops) (Nat.lt_of_le_of_lt hsize (by omega))
  have hprefix := length_linePrefix_lt context data.level hp
  -- the line: the sizes of the texts are bounded by those of the arguments
  have hafter := Stream.after_eq (r := r) (ByteArray.Holds.fresh memory)
    (staysEnabled_streamAction hen (items.flatMap Item.ops)) hstrings hpre hp
    rfl
  rw [texts_streamAction, if_pos (by
    rw [List.length_append]
    show _ + (Op.texts data.hexEnabled (items.flatMap Item.ops)).length < _
    unfold Item.arguments at hsize
    have hcontext : (Stream.linePrefix r.context r.data.level p).length
        = (Stream.linePrefix context data.level p).length := rfl
    omega)] at hafter
  obtain ⟨content, hex, hholds, heq⟩ := hafter
  have hrun : (Option.map (fun r => (⟨l, r⟩ : Stream.State))
      (r.init l env)).bind (fun s => Transition.run Stream.step s
        ((items.flatMap Item.ops).map Op.streamAction)) = _ :=
    Option.bind_map.trans heq
  rw [DefaultLogEntry.console_putAll]
  exact ⟨_, p, hrun, hpre, hholds.contents⟩

-- ============================================================== a sample

/-- A map and a number in hexadecimal digits. -/
def sampleItems : List Item :=
  [.value (.map [(.native (.int 1), .optional none)]), .hex,
    .value (.native (.unsignedInt 255))]

/-- The entry of the fixed inputs, behind them. -/
def sampleEntry : DefaultLogEntry :=
  @Item.insertAll _ (@DefaultLogEntry.logType DltCpp.documentedConstants)
    (@DefaultLogEntry.hexSwitch DltCpp.documentedConstants)
    (.created (Vector.replicate maxMessageSize 255) 0 4 0 0
      ByteArray.sampleMemory (Stream.sampleContextOf .console false)
      sampleInfo Stream.sampleLevels Stream.sampleEnvironment) sampleItems

theorem sampleEntry_open : sampleEntry.dltCpp.data.isFull = false := by
  have hrep := @DltCpp.represents_fresh DltCpp.documentedDltUser
    (Vector.replicate maxMessageSize 255) 0 sampleInfo 4 true 0
  have hcalls := @Represents.calls DltCpp.documentedDltUser _ _ hrep
    ((sampleItems.flatMap Item.ops).map Op.dltCppCall)
  have hdata := @DefaultLogEntry.dltCpp_putAll DltCpp.documentedConstants
    (.created (Vector.replicate maxMessageSize 255) 0 4 0 0
      ByteArray.sampleMemory (Stream.sampleContextOf .console false)
      sampleInfo Stream.sampleLevels Stream.sampleEnvironment) rfl
    (sampleItems.flatMap Item.ops)
  rw [sampleEntry, @insertAll_eq, hdata]
  exact (@Represents.isFull DltCpp.documentedDltUser _ _ hcalls).trans rfl

theorem statement_on_both_sample :
    @DltCpp.decodePayload DltCpp.documentedDltUser
        sampleEntry.dltCpp.data.payload
        = some (Item.arguments false sampleItems)
      ∧ ∃ u, sampleEntry.console = some u ∧ u.record.content.contents
        = Stream.samplePrefix ++ ascii [' ', '[', ' ', '{', ' ', '1', '=',
          '{', '}', ' ', '}', ' ', ']', ' ', 'F', 'F'] := by
  obtain ⟨hdecode, u, p, hu, hp, hcontents⟩ :=
    @statement_on_both DltCpp.documentedDltUser
      (Vector.replicate maxMessageSize 255) 0 4 0 0 ByteArray.sampleMemory
      (Stream.sampleContextOf .console false) sampleInfo Stream.sampleLevels
      Stream.sampleEnvironment sampleItems rfl sampleEntry_open
  obtain rfl : Stream.samplePrefix = p := Option.some.inj hp
  exact ⟨hdecode, u, hu, hcontents⟩

end IviLogging
