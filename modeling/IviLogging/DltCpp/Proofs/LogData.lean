/-
The message buffer refines the abstract message.

# The two messages

On the side of the code a message is an array of 16384 bytes that holds
what it may at the start, a size, an 8-bit counter and a flag, and a call
is a handful of copies behind each other, one of which may be patched
later. On the other side it is a list of arguments and whether it is full
(`Message`), and a call puts one more, cuts one, or does nothing.
`Represents d m` ties the two: the first `contentSize` bytes are the
encoding of the arguments, the flag and the counter follow, and a message
that is not full has left the marker its place (`bound`). That place is
what makes the marker always possible, and it is the reason why no
difference of sizes in the code underflows (`getAvailableSpace_of_le`).

Every call preserves it (`Represents.call`), so any sequence of calls does
(`Represents.calls`), those of the destructor among them
(`writeTrailer_eq_calls`). The payload of any message then decodes to the
arguments of the abstract one (`Represents.decodePayload`), and what can be
said of payloads is said of arguments from there on.

# Inside a call

Between the copies of one call no argument is complete. `Holds` is the
half of the relation that speaks of bytes only, and follows the copies one
by one; at the end they are one argument more (`Represents.add`), or the
marker (`Represents.truncate`). A format string that fails is the one case
that ends with bytes that are no argument (`holds_writeFormatted_none`).

# What no write touches

The first part is the frame of all of this: the members of a message that
belong to its statement stay as they are, the hex switch aside, which is
set by one call and read by the others (`statement_call`).
-/
import IviLogging.DltCpp.Verbose

namespace IviLogging.DltCpp

open DltConstants
open LittleEndian (encode ofUInt16 ofUInt32)

-- ================================================== what no write touches

section Statement

/-- The part of a message that belongs to its statement. -/
def LogData.statement (d : LogData) :
    ContextId × LogInfo × Int × Bool × UInt8 :=
  (d.context, d.data, d.dltLogLevel, d.enabled, d.messageCount)

namespace LogData

@[simp] theorem statement_writeBuffer (d : LogData) (v : List UInt8) :
    (d.writeBuffer v).statement = d.statement := by
  unfold writeBuffer
  split <;> rfl

@[simp] theorem statement_writeType (d : LogData) (type : UInt32) :
    (d.writeType type).statement = d.statement :=
  statement_writeBuffer d _

variable [DltConstants]

@[simp] theorem statement_addMessageTooLargeIndication (d : LogData) :
    d.addMessageTooLargeIndication.statement = d.statement := by
  unfold addMessageTooLargeIndication
  split <;> rfl

@[simp] theorem statement_checkOverflow (d : LogData) (n : Nat) :
    (d.checkOverflow n).1.statement = d.statement := by
  unfold checkOverflow
  dsimp only
  split
  · exact statement_addMessageTooLargeIndication d
  · rfl

theorem statement_writeWithTypeInfo (d : LogData) (type : UInt32)
    (value : List UInt8) :
    (d.writeWithTypeInfo type value).statement = d.statement := by
  unfold writeWithTypeInfo
  dsimp only
  split
  · rw [statement_writeBuffer, statement_writeType, statement_checkOverflow]
  · exact statement_checkOverflow d _

theorem statement_writeString (d : LogData) (v : List UInt8) :
    (d.writeString v).statement = d.statement := by
  unfold writeString
  dsimp only
  split
  all_goals
    split
    all_goals simp only [statement_addMessageTooLargeIndication,
      statement_writeBuffer, statement_writeType]

theorem statement_writeFormatted (d : LogData)
    (text : Option FormattedText) :
    (d.writeFormatted text).statement = d.statement := by
  have hformat : ∀ (content : List UInt8) (n : Nat),
      ({ (d.writeType (dltTypeInfoStrg ||| dltScodUtf8)).reserve with
          content := content, contentSize := n } : LogData).statement
        = d.statement := fun _ _ => statement_writeType d _
  unfold writeFormatted
  dsimp only
  by_cases hspace : 0 < d.getAvailableSpace
      (sizeofDltStringLengthType + sizeofDltTypeInfo + 1)
  · simp only [hspace, if_true]
    split
    · rw [statement_addMessageTooLargeIndication]
      exact hformat _ _
    · exact hformat _ _
  · simp only [hspace, if_false, if_true]
    exact statement_addMessageTooLargeIndication d

/-- A call moves nothing of the statement but its hex switch. -/
theorem statement_call (d : LogData) (c : WriteCall) :
    (d.call c).statement
      = ({ d with data := { d.data with
          hexEnabled := c.hexAfter d.data.hexEnabled } } :
        LogData).statement := by
  cases c with
  | bool v => exact statement_writeWithTypeInfo d _ _
  | float bits => exact statement_writeWithTypeInfo d _ _
  | double bits => exact statement_writeWithTypeInfo d _ _
  | uint64 v => exact statement_writeWithTypeInfo d _ _
  | int64 v => exact statement_writeWithTypeInfo d _ _
  | uint32 v => exact statement_writeWithTypeInfo d _ _
  | int32 v => exact statement_writeWithTypeInfo d _ _
  | uint16 v => exact statement_writeWithTypeInfo d _ _
  | int16 v => exact statement_writeWithTypeInfo d _ _
  | uint8 v => exact statement_writeWithTypeInfo d _ _
  | int8 v => exact statement_writeWithTypeInfo d _ _
  | string v => exact statement_writeString d v
  | cString v => exact statement_writeString d _
  | formatted text => exact statement_writeFormatted d _
  | setHexEnabled enabled => rfl

/-- The hex switch behind a call. -/
theorem hexEnabled_call (d : LogData) (c : WriteCall) :
    (d.call c).data.hexEnabled = c.hexAfter d.data.hexEnabled := by
  have h := congrArg (fun s => s.2.1.hexEnabled) (statement_call d c)
  exact h

/-- What a sequence of calls keeps of the statement: everything but the
hex switch. -/
theorem calls_keep (d : LogData) (cs : List WriteCall) :
    (d.calls cs).context = d.context
      ∧ (d.calls cs).dltLogLevel = d.dltLogLevel
      ∧ (d.calls cs).enabled = d.enabled
      ∧ (d.calls cs).messageCount = d.messageCount := by
  induction cs generalizing d with
  | nil => exact ⟨rfl, rfl, rfl, rfl⟩
  | cons c cs ih =>
      have hstep := statement_call d c
      simp only [statement, Prod.mk.injEq] at hstep
      obtain ⟨hcontext, -, hlevel, henabled, hcount⟩ := hstep
      obtain ⟨h1, h2, h3, h4⟩ := ih (d.call c)
      exact ⟨h1.trans hcontext, h2.trans hlevel, h3.trans henabled,
        h4.trans hcount⟩

/-- Calls move nothing of the statement's description but its hex
switch. -/
theorem data_calls (d : LogData) (cs : List WriteCall) :
    (d.calls cs).data
      = { d.data with hexEnabled := (d.calls cs).data.hexEnabled } := by
  induction cs generalizing d with
  | nil => rfl
  | cons c cs ih =>
      have hstep := congrArg (fun s => s.2.1) (statement_call d c)
      have hdata : (d.call c).data
          = { d.data with hexEnabled := c.hexAfter d.data.hexEnabled } := hstep
      have hrest := ih (d.call c)
      rw [hdata] at hrest
      exact hrest

theorem calls_append (d : LogData) (cs cs' : List WriteCall) :
    d.calls (cs ++ cs') = (d.calls cs).calls cs' :=
  List.foldl_append

/-- The calls `~DltCppLogData` makes for a statement. -/
def trailerCalls (base : LogContextBase) (thread : ThreadInformation)
    (data : LogInfo) : List WriteCall :=
  (if base.enableSourceCodeLocationInfo then
      [.cString locationSeparator, .cString data.getFileName]
        ++ (if data.lineNumber ≠ -1 then [.int32 data.lineNumber] else [])
        ++ (data.prettyFunction.map WriteCall.cString).toList
    else [])
    ++ (if base.enableThreadInfo then
      [.cString (ascii ['T', 'h', 'r', 'e', 'a', 'd', 'I', 'D']),
        .int32 thread.id, .cString thread.name]
    else [])

/-- A string leaves the description of the statement as it is. -/
theorem data_writeCString (d : LogData) (v : List UInt8) :
    (d.writeCString v).data = d.data :=
  congrArg (fun s => s.2.1) (statement_writeString d (cText v))

/-- So does a number. -/
theorem data_writeInt32 (d : LogData) (v : Int32) :
    (d.writeInt32 v).data = d.data :=
  congrArg (fun s => s.2.1) (statement_writeWithTypeInfo d _ _)

/-- The destructor's writes are calls like any other. What they write is
taken from the description of the statement, which no call in front of them
changes. -/
theorem writeTrailer_eq_calls (d : LogData) (base : LogContextBase)
    (thread : ThreadInformation) :
    d.writeTrailer base thread = d.calls (trailerCalls base thread d.data) := by
  have hthread : ∀ e : LogData,
      (if base.enableThreadInfo then
          ((e.writeCString
            (ascii ['T', 'h', 'r', 'e', 'a', 'd', 'I', 'D'])).writeInt32
              thread.id).writeCString thread.name
        else e)
        = e.calls (if base.enableThreadInfo then
            [.cString (ascii ['T', 'h', 'r', 'e', 'a', 'd', 'I', 'D']),
              .int32 thread.id, .cString thread.name]
          else []) := by
    intro e
    split <;> rfl
  unfold writeTrailer trailerCalls
  dsimp only
  rw [hthread]
  unfold calls
  rw [List.foldl_append]
  congr 1
  by_cases hloc : base.enableSourceCodeLocationInfo = true
  · simp only [hloc, if_true, List.foldl_append, List.foldl_cons,
      List.foldl_nil, call, data_writeCString]
    by_cases hline : d.data.lineNumber = -1
    · cases hf : d.data.prettyFunction <;>
        simp [hline, hf, data_writeCString, call]
    · cases hf : d.data.prettyFunction <;>
        simp [hline, hf, data_writeCString, data_writeInt32, call]
  · simp only [hloc, if_false, Bool.false_eq_true]
    rfl

/-- The destructor's writes follow those of the statement. -/
theorem writeTrailer_calls (d : LogData) (cs : List WriteCall)
    (base : LogContextBase) (thread : ThreadInformation) :
    (d.calls cs).writeTrailer base thread
      = d.calls (cs ++ trailerCalls base thread d.data) := by
  have hsame : trailerCalls base thread (d.calls cs).data
      = trailerCalls base thread d.data := by
    rw [data_calls]
    rfl
  rw [writeTrailer_eq_calls, hsame, calls_append]

end LogData

end Statement

-- ======================================================== bytes in place

/-- The array holds `bytes` as its payload. What is behind them in the
array is left open: it is what the memory held, or was written and given
up. -/
structure LogData.Holds (d : LogData) (bytes : List UInt8) : Prop where
  length : d.content.length = maxMessageSize
  size : d.contentSize = bytes.length
  fits : bytes.length ≤ maxMessageSize
  filled : d.content.take bytes.length = bytes

namespace LogData.Holds

variable {d : LogData} {bytes : List UInt8}

/-- A copy at the end of the payload extends it. -/
theorem append (h : d.Holds bytes) {v : List UInt8}
    (hv : bytes.length + v.length ≤ maxMessageSize) {d' : LogData}
    (hcontent : d'.content = Buffer.write d.content d.contentSize v)
    (hsize : d'.contentSize = d.contentSize + v.length) :
    d'.Holds (bytes ++ v) := by
  have hbound : bytes.length + v.length ≤ d.content.length := by
    rw [h.length]
    exact hv
  refine ⟨?_, ?_, ?_, ?_⟩
  · rw [hcontent, h.size, Buffer.length_write hbound, h.length]
  · rw [hsize, h.size, List.length_append]
  · rw [List.length_append]
    exact hv
  · rw [hcontent, h.size, List.length_append,
      Buffer.take_write (by omega), h.filled]

/-- A copy that the flag does not stop. -/
theorem writeBuffer (h : d.Holds bytes) (hfull : d.isFull = false)
    {v : List UInt8} (hv : bytes.length + v.length ≤ maxMessageSize) :
    (d.writeBuffer v).Holds (bytes ++ v) := by
  refine h.append hv ?_ ?_
  · simp [LogData.writeBuffer, hfull]
  · simp [LogData.writeBuffer, hfull]

/-- The counters are no part of what the array holds. -/
theorem of_content (h : d.Holds bytes) {d' : LogData}
    (hcontent : d'.content = d.content)
    (hsize : d'.contentSize = d.contentSize) : d'.Holds bytes := by
  refine ⟨?_, ?_, h.fits, ?_⟩
  · rw [hcontent, h.length]
  · rw [hsize, h.size]
  · rw [hcontent, h.filled]

end LogData.Holds

section Fields

namespace LogData

@[simp] theorem isFull_writeBuffer (d : LogData) (v : List UInt8) :
    (d.writeBuffer v).isFull = d.isFull := by
  unfold writeBuffer
  split <;> rfl

@[simp] theorem argsCount_writeBuffer (d : LogData) (v : List UInt8) :
    (d.writeBuffer v).argsCount = d.argsCount := by
  unfold writeBuffer
  split <;> rfl

@[simp] theorem isFull_writeType (d : LogData) (type : UInt32) :
    (d.writeType type).isFull = d.isFull :=
  isFull_writeBuffer d _

/-- The size grows by what is copied. -/
theorem contentSize_writeBuffer {d : LogData} (h : d.isFull = false)
    (v : List UInt8) :
    (d.writeBuffer v).contentSize = d.contentSize + v.length := by
  simp [writeBuffer, h]

/-- The space the code computes for a message with room for the marker is
the space there is: no difference in it underflows. -/
theorem getAvailableSpace_of_le {d : LogData} (hfull : d.isFull = false)
    (hle : d.contentSize ≤ maxContentSize) (n : Nat) :
    d.getAvailableSpace n = maxContentSize - (d.contentSize + n) := by
  have hmax : maxContentSize = 16366 := rfl
  unfold getAvailableSpace
  rw [hfull, sizeTSub_of_le hle (by omega)]
  by_cases hn : n ≤ maxContentSize - d.contentSize
  · rw [sizeTSub_of_le hn (by omega)]
    simp only [hn, decide_true, Bool.not_false, Bool.and_true, if_true]
    omega
  · simp only [hn, decide_false, Bool.and_false, Bool.false_eq_true,
      if_false]
    omega

@[simp] theorem argsCount_writeType (d : LogData) (type : UInt32) :
    (d.writeType type).argsCount = d.argsCount + 1 := by
  unfold writeType
  dsimp only
  rw [argsCount_writeBuffer]

theorem Holds.writeType {d : LogData} {bytes : List UInt8}
    (h : d.Holds bytes) (hfull : d.isFull = false) (type : UInt32)
    (hv : bytes.length + 4 ≤ maxMessageSize) :
    (d.writeType type).Holds (bytes ++ ofUInt32 type) := by
  have hword : bytes.length + (ofUInt32 type).length ≤ maxMessageSize := by
    rw [LittleEndian.length_ofUInt32]
    exact hv
  exact (h.writeBuffer hfull hword).of_content rfl rfl

variable [DltConstants]

/-- A message that is full is closed already. -/
theorem addMessageTooLargeIndication_of_full {d : LogData}
    (h : d.isFull = true) : d.addMessageTooLargeIndication = d := by
  unfold addMessageTooLargeIndication
  rw [h]
  rfl

/-- The marker behind the payload. -/
theorem Holds.addMessageTooLargeIndication {d : LogData}
    {bytes : List UInt8} (h : d.Holds bytes) (hfull : d.isFull = false)
    (hv : bytes.length + 18 ≤ maxMessageSize) :
    d.addMessageTooLargeIndication.isFull = true
      ∧ d.addMessageTooLargeIndication.Holds
        (bytes ++ messageTooLargeData) := by
  refine ⟨?_, h.append (v := messageTooLargeData) hv ?_ ?_⟩
  · simp [LogData.addMessageTooLargeIndication, hfull]
  · simp [LogData.addMessageTooLargeIndication, hfull]
  · simp only [LogData.addMessageTooLargeIndication, hfull, Bool.not_false,
      if_true]
    rfl

end LogData

end Fields

-- ======================================================== the simulation

/-- A value counts up to the width of its type. -/
theorem encode_ofNat (t : ScalarType) (n : Nat) :
    encode t.bytes (BitVec.ofNat (8 * t.bytes) n).toNat
      = encode t.bytes n := by
  rw [BitVec.toNat_ofNat, Nat.pow_mul]
  exact LittleEndian.encode_mod _ _

section Simulation

variable [DltUser]

/-- The buffer `d` is the message `m`. The last member is what the code
relies on without saying it: as long as the message is open there is room
for the marker. -/
structure Represents (d : LogData) (m : Message) : Prop where
  holds : d.Holds (verboseFormat.writeAll m.args)
  isFull : d.isFull = m.full
  argsCount : d.argsCount = UInt8.ofNat m.args.length
  valid : ∀ a ∈ m.args, a.Valid
  bound : m.full = false → m.size ≤ maxContentSize

/-- A message takes the bytes of its payload. -/
theorem length_writeAll (m : Message) :
    (verboseFormat.writeAll m.args).length = m.size := by
  unfold Message.size
  rw [Format.writeAll, List.length_flatMap]
  congr 1
  exact List.map_congr_left fun a _ => a.length_write

namespace Represents

variable {d d' : LogData} {m : Message}

/-- The size that the message says is that of its encoding. -/
theorem contentSize (h : Represents d m) : d.contentSize = m.size := by
  rw [h.holds.size, length_writeAll]

/-- It is never more than the array has. -/
theorem size_le (h : Represents d m) : m.size ≤ maxMessageSize := by
  rw [← length_writeAll]
  exact h.holds.fits

/-- The space the code computes. -/
theorem getAvailableSpace (h : Represents d m) (n : Nat) :
    d.getAvailableSpace n
      = if m.full then 0 else maxContentSize - (m.size + n) := by
  cases hfull : m.full with
  | true =>
      unfold LogData.getAvailableSpace
      rw [h.isFull, hfull]
      rfl
  | false =>
      -- the bound keeps both differences of the code from underflowing
      have hle := h.bound hfull
      rw [← h.contentSize] at hle ⊢
      exact LogData.getAvailableSpace_of_le (h.isFull.trans hfull) hle n

/-- The space that a string is given, with its NUL. -/
theorem stringSpace (h : Represents d m) :
    d.getAvailableSpace (sizeofDltStringLengthType + sizeofDltTypeInfo + 1)
      = if m.full then 0 else m.room :=
  h.getAvailableSpace _

/-- The same for an open message. -/
theorem stringSpace_of_open (h : Represents d m) (hfull : m.full = false) :
    d.getAvailableSpace (sizeofDltStringLengthType + sizeofDltTypeInfo + 1)
      = m.room := by
  rw [h.stringSpace, hfull]
  rfl

/-- Complete argument bytes behind the payload are one more argument. -/
theorem add (h : Represents d m) {a : Arg} (ha : a.Valid)
    (hroom : m.size + a.size ≤ maxContentSize)
    (hholds : d'.Holds (verboseFormat.writeAll m.args ++ a.write))
    (hfull : d'.isFull = d.isFull)
    (hcount : d'.argsCount = d.argsCount + 1) :
    Represents d' (m.add a) := by
  refine ⟨?_, ?_, ?_, ?_, ?_⟩
  · rw [Message.add, Format.writeAll_append, Format.writeAll_cons,
      Format.writeAll_nil, List.append_nil]
    exact hholds
  · rw [hfull, h.isFull]
    rfl
  · rw [hcount, h.argsCount, Message.add, List.length_append,
      List.length_singleton]
    simp
  · intro b hb
    rcases List.mem_append.mp hb with hb | hb
    · exact h.valid b hb
    · rw [List.mem_singleton.mp hb]
      exact ha
  · intro _
    rw [Message.size_add]
    exact hroom

/-- The marker always has its place, and closes the message. -/
theorem truncate (h : Represents d m) (hfull : m.full = false) :
    Represents d.addMessageTooLargeIndication m.truncate := by
  have hd : d.isFull = false := by rw [h.isFull, hfull]
  have hb := h.bound hfull
  have hlen := length_writeAll m
  have hmax : maxContentSize = 16366 := rfl
  have hmsg : maxMessageSize = 16384 := rfl
  obtain ⟨hclosed, hholds⟩ :=
    h.holds.addMessageTooLargeIndication hd (by omega)
  refine ⟨?_, hclosed, ?_, ?_, ?_⟩
  · rw [Message.truncate, Format.writeAll_append, Format.writeAll_cons,
      Format.writeAll_nil, List.append_nil]
    exact hholds
  · simp [LogData.addMessageTooLargeIndication, hd, Message.truncate,
      h.argsCount]
  · intro b hb
    rcases List.mem_append.mp hb with hb | hb
    · exact h.valid b hb
    · rw [List.mem_singleton.mp hb]
      show messageTooLargeText.length + 1 < 2 ^ 16
      decide
  · intro hcon
    cases hcon

/-- The copies of a scalar that fits are one argument. -/
theorem writeScalarBytes (h : Represents d m) (hfull : m.full = false)
    (t : ScalarType) (n : Nat) (hs : m.size + (4 + t.bytes) ≤ maxContentSize) :
    Represents
      ((d.writeType (typeInfo (.scalar t))).writeBuffer (encode t.bytes n))
      (m.add (.ofNat t n)) := by
  have hd : d.isFull = false := by rw [h.isFull, hfull]
  have hmax : maxContentSize = 16366 := rfl
  have hmsg : maxMessageSize = 16384 := rfl
  have hlen := length_writeAll m
  have htype := h.holds.writeType hd (typeInfo (.scalar t)) (by omega)
  have hvalue := htype.writeBuffer (v := encode t.bytes n)
    (by rw [LogData.isFull_writeType, hd]) (by
      simp only [List.length_append, LittleEndian.length_ofUInt32,
        LittleEndian.length_encode]
      omega)
  refine h.add trivial ?_ ?_ ?_ ?_
  · show m.size + (sizeofDltTypeInfo + t.bytes) ≤ maxContentSize
    exact hs
  · rw [Arg.ofNat, Arg.write, encode_ofNat, ← List.append_assoc]
    exact hvalue
  · simp only [LogData.isFull_writeBuffer, LogData.isFull_writeType]
  · simp only [LogData.argsCount_writeBuffer, LogData.argsCount_writeType]

/-- Writing a scalar logs it, or closes the message if it would not leave a
byte to spare. -/
theorem writeScalar (h : Represents d m) (t : ScalarType) (n : Nat) :
    Represents
      (d.writeWithTypeInfo (typeInfo (.scalar t)) (encode t.bytes n))
      (m.putScalar t n) := by
  unfold LogData.writeWithTypeInfo LogData.checkOverflow Message.putScalar
  rw [LittleEndian.length_encode, h.getAvailableSpace]
  cases hfull : m.full with
  | true =>
      have hd : d.isFull = true := by rw [h.isFull, hfull]
      simp only [hd, Bool.not_true, Bool.false_and, Bool.false_eq_true,
        if_false, if_true]
      exact h
  | false =>
      have hd : d.isFull = false := by rw [h.isFull, hfull]
      have hfour : sizeofDltTypeInfo = 4 := rfl
      by_cases hroom :
          m.size + (t.bytes + sizeofDltTypeInfo) < maxContentSize
      · -- the value fits with a byte to spare
        have hne : (maxContentSize - (m.size + (t.bytes + sizeofDltTypeInfo))
            == 0) = false := by
          simp only [beq_eq_false_iff_ne, ne_eq]
          omega
        simp only [hd, hne, hroom, Bool.not_false, Bool.and_false,
          Bool.false_eq_true, if_false, if_true]
        exact h.writeScalarBytes hfull t n (by omega)
      · -- no room: the marker takes its place
        have hzero : maxContentSize
            - (m.size + (t.bytes + sizeofDltTypeInfo)) = 0 := by omega
        have hclosed : d.addMessageTooLargeIndication.isFull = true := by
          simp [LogData.addMessageTooLargeIndication, hd]
        simp only [hd, hzero, hroom, hclosed, beq_self_eq_true,
          Bool.not_false, Bool.and_self, Bool.not_true,
          Bool.false_eq_true, if_false, if_true]
        exact h.truncate hfull

/-- `writeScalar`, against what the call asks for. -/
theorem putNat (h : Represents d m) (t : ScalarType) (n : Nat) :
    Represents
      (d.writeWithTypeInfo (typeInfo (.scalar t)) (encode t.bytes n))
      (m.putScalar t (BitVec.ofNat (8 * t.bytes) n).toNat) := by
  rw [← encode_ofNat]
  exact h.writeScalar t _

/-- The copies of a nonempty string that fits are one string argument: four
bytes of type, two of length, the characters and the NUL. Each of the copies
finds the flag as it was and lies inside of the array. -/
theorem writeStringBytes (h : Represents d m) (hfull : m.full = false)
    {s : List UInt8} (hs : m.size + 7 + s.length ≤ maxContentSize) :
    Represents
      ((((d.writeType (dltTypeInfoStrg ||| dltScodUtf8)).writeBuffer
        (ofUInt16 (UInt16.ofNat s.length + 1))).writeBuffer
          s).writeBuffer [0])
      (m.add (.strg s)) := by
  have hd : d.isFull = false := by rw [h.isFull, hfull]
  have hmax : maxContentSize = 16366 := rfl
  have hmsg : maxMessageSize = 16384 := rfl
  have hlen := length_writeAll m
  have htype := h.holds.writeType hd (dltTypeInfoStrg ||| dltScodUtf8)
    (by omega)
  have hsize := htype.writeBuffer
    (v := ofUInt16 (UInt16.ofNat s.length + 1))
    (by rw [LogData.isFull_writeType, hd]) (by
      simp only [List.length_append, LittleEndian.length_ofUInt32,
        LittleEndian.length_ofUInt16]
      omega)
  have htext := hsize.writeBuffer (v := s)
    (by rw [LogData.isFull_writeBuffer, LogData.isFull_writeType, hd]) (by
      simp only [List.length_append, LittleEndian.length_ofUInt32,
        LittleEndian.length_ofUInt16]
      omega)
  have hnul := htext.writeBuffer (v := [0])
    (by rw [LogData.isFull_writeBuffer, LogData.isFull_writeBuffer,
      LogData.isFull_writeType, hd]) (by
      simp only [List.length_append, LittleEndian.length_ofUInt32,
        LittleEndian.length_ofUInt16, List.length_singleton]
      omega)
  refine h.add ?_ ?_ ?_ ?_ ?_
  · show s.length + 1 < 2 ^ 16
    omega
  · show m.size + (4 + 2 + s.length + 1) ≤ maxContentSize
    omega
  · have hword : UInt16.ofNat s.length + 1 = UInt16.ofNat (s.length + 1) := by
      simp
    rw [hword] at hnul
    simp only [List.append_assoc] at hnul
    simp only [Arg.write, typeInfo, List.append_assoc]
    rw [hword]
    exact hnul
  · simp only [LogData.isFull_writeBuffer, LogData.isFull_writeType]
  · simp only [LogData.argsCount_writeBuffer, LogData.argsCount_writeType]

/-- Writing a string logs it, or the front of it that fits and the marker.
An empty string leaves no trace. -/
theorem writeString (h : Represents d m) (s : List UInt8) :
    Represents (d.writeString s) (m.putString s) := by
  unfold LogData.writeString Message.putString
  rw [h.stringSpace]
  cases hfull : m.full with
  | true =>
      have hd : d.isFull = true := by rw [h.isFull, hfull]
      simp only [if_true, Nat.min_zero, Nat.lt_irrefl, if_false]
      rw [LogData.addMessageTooLargeIndication_of_full hd, ite_self]
      exact h
  | false =>
      have hmax : maxContentSize = 16366 := rfl
      have hb := h.bound hfull
      have hdef : m.room = maxContentSize - (m.size + 7) := rfl
      simp only [Bool.false_eq_true, if_false]
      -- all of the string, none of it for lack of room, or a part
      by_cases hall : s.length ≤ m.room
      · rw [Nat.min_eq_left hall, if_pos hall, if_neg (Nat.lt_irrefl _)]
        by_cases hs : s = []
        · subst hs
          rw [if_neg (by simp), if_pos rfl]
          exact h
        · have hpos : 0 < s.length := List.length_pos_iff.mpr hs
          rw [if_pos hpos, if_neg hs, List.take_length]
          exact h.writeStringBytes hfull (by omega)
      · have hlt : m.room < s.length := by omega
        rw [Nat.min_eq_right (by omega), if_neg hall, if_pos hlt]
        by_cases hroom : m.room = 0
        · rw [if_neg (by omega), if_pos hroom]
          exact h.truncate hfull
        · have htake : (s.take m.room).length = m.room := by
            rw [List.length_take, Nat.min_eq_left (by omega)]
          have hpart := h.writeStringBytes (s := s.take m.room) hfull
            (by omega)
          rw [htake] at hpart
          rw [if_pos (by omega), if_neg hroom]
          exact hpart.truncate hfull

/-- A formatted text stored behind its patched length is one string
argument. The code leaves two bytes free, lets `snprintf` store the text
behind them, and writes the length into the gap. -/
theorem writeFormattedBytes (h : Represents d m) (hfull : m.full = false)
    {s : List UInt8} (hs : m.size + 7 + s.length ≤ maxContentSize)
    (hd' : d' = { (d.writeType (dltTypeInfoStrg ||| dltScodUtf8)).reserve with
      content := Buffer.write
        (Buffer.write
          (d.writeType (dltTypeInfoStrg ||| dltScodUtf8)).reserve.content
          (d.writeType (dltTypeInfoStrg ||| dltScodUtf8)).reserve.contentSize
          (s ++ [0]))
        (d.writeType (dltTypeInfoStrg ||| dltScodUtf8)).contentSize
        (ofUInt16 (UInt16.ofNat (s.length + 1)))
      contentSize :=
        (d.writeType (dltTypeInfoStrg ||| dltScodUtf8)).reserve.contentSize
          + (s.length + 1) }) :
    Represents d' (m.add (.strg s)) := by
  have hd : d.isFull = false := by rw [h.isFull, hfull]
  have hmax : maxContentSize = 16366 := rfl
  have hmsg : maxMessageSize = 16384 := rfl
  have hlen := length_writeAll m
  have htype := h.holds.writeType hd (dltTypeInfoStrg ||| dltScodUtf8)
    (by omega)
  have hsize := htype.size
  rw [List.length_append, LittleEndian.length_ofUInt32] at hsize
  -- the length field and the text are one copy behind the type word
  have hpatch := Buffer.write_write (s ++ [0])
    (show (d.writeType (dltTypeInfoStrg ||| dltScodUtf8)).contentSize
        + (ofUInt16 (UInt16.ofNat (s.length + 1))).length
      ≤ (d.writeType (dltTypeInfoStrg ||| dltScodUtf8)).content.length by
      rw [htype.length, LittleEndian.length_ofUInt16]
      omega)
  rw [LittleEndian.length_ofUInt16] at hpatch
  refine h.add ?_ ?_ ?_ ?_ ?_
  · show s.length + 1 < 2 ^ 16
    omega
  · show m.size + (4 + 2 + s.length + 1) ≤ maxContentSize
    omega
  · simp only [Arg.write, typeInfo, List.append_assoc]
    rw [← List.append_assoc]
    refine htype.append ?_ ?_ ?_
    · simp only [List.length_append, LittleEndian.length_ofUInt32,
        LittleEndian.length_ofUInt16, List.length_singleton]
      omega
    · rw [hd']
      exact hpatch
    · rw [hd']
      simp only [LogData.reserve, List.length_append,
        LittleEndian.length_ofUInt16, List.length_singleton,
        sizeofDltStringLengthType]
      omega
  · rw [hd']
    simp only [LogData.reserve, LogData.isFull_writeType]
  · rw [hd']
    simp only [LogData.reserve, LogData.argsCount_writeType]

/-- Formatting a text logs it. The text is cut where it is as long as the
space, in which its NUL has to be too, but the marker comes only if it is
longer. -/
theorem writeFormatted (h : Represents d m) (text : FormattedText) :
    Represents (d.writeFormatted (some text)) (m.putFormatted text.chars) := by
  have htext := text.length_lt
  unfold LogData.writeFormatted Message.putFormatted
  rw [h.stringSpace]
  cases hfull : m.full with
  | true =>
      have hd : d.isFull = true := by rw [h.isFull, hfull]
      simp only [if_true, Nat.lt_irrefl, if_false]
      rw [LogData.addMessageTooLargeIndication_of_full hd]
      exact h
  | false =>
      have hmax : maxContentSize = 16366 := rfl
      have hb := h.bound hfull
      have hdef : m.room = maxContentSize - (m.size + 7) := rfl
      simp only [Bool.false_eq_true, if_false]
      by_cases hroom : m.room = 0
      · simp only [hroom, Nat.lt_irrefl, if_false, if_true]
        exact h.truncate hfull
      · have hpos : 0 < m.room := by omega
        have hstored : LogData.snprintfStored m.room (some text)
            = text.chars.take (m.room - 1) ++ [0] := if_neg hroom
        have htake : (text.chars.take (m.room - 1)).length + 1
            = min ((LogData.snprintfResult (some text) + 1) % 2 ^ 64)
                m.room := by
          show _ = min ((text.chars.length + 1) % 2 ^ 64) m.room
          rw [List.length_take, Nat.mod_eq_of_lt (by omega)]
          omega
        have hpart := h.writeFormattedBytes
          (s := text.chars.take (m.room - 1)) hfull (by omega) rfl
        rw [htake, ← hstored] at hpart
        simp only [hpos, hroom, if_true, if_false]
        by_cases hfits : text.chars.length ≤ m.room
        · have hover : decide
              (m.room < LogData.snprintfResult (some text)) = false :=
            decide_eq_false (Nat.not_lt.mpr hfits)
          rw [if_pos hfits, hover, if_neg Bool.false_ne_true]
          exact hpart
        · have hover : decide
              (m.room < LogData.snprintfResult (some text)) = true :=
            decide_eq_true (Nat.lt_of_not_le hfits)
          rw [if_neg hfits, hover, if_pos rfl]
          exact hpart.truncate hfull

/-- A text that `snprintf` fails on leaves an argument without a byte of
content, and the marker. -/
theorem holds_writeFormatted_none (h : Represents d m)
    (hfull : m.full = false) :
    (d.writeFormatted none).isFull = true
      ∧ (d.writeFormatted none).Holds (verboseFormat.writeAll m.args
        ++ ((if m.room = 0 then []
          else ofUInt32 (dltTypeInfoStrg ||| dltScodUtf8) ++ ofUInt16 0)
          ++ LogData.messageTooLargeData)) := by
  have hd : d.isFull = false := by rw [h.isFull, hfull]
  have hb := h.bound hfull
  have hlen := length_writeAll m
  have hdef : m.room = maxContentSize - (m.size + 7) := rfl
  have hmax : maxContentSize = 16366 := rfl
  have hmsg : maxMessageSize = 16384 := rfl
  unfold LogData.writeFormatted
  rw [h.stringSpace_of_open hfull]
  by_cases hroom : m.room = 0
  · simp only [hroom, Nat.lt_irrefl, if_false, if_true, List.nil_append]
    exact h.holds.addMessageTooLargeIndication hd (by omega)
  · have hpos : 0 < m.room := by omega
    have hresult : min ((LogData.snprintfResult none + 1) % 2 ^ 64) m.room
        = 0 := Nat.zero_min _
    have hover : decide (m.room < LogData.snprintfResult none) = true := by
      apply decide_eq_true
      show m.room < 2 ^ 64 - 1
      omega
    have htype := h.holds.writeType hd (dltTypeInfoStrg ||| dltScodUtf8)
      (by omega)
    have hlength : (verboseFormat.writeAll m.args
        ++ ofUInt32 (dltTypeInfoStrg ||| dltScodUtf8)
        ++ ofUInt16 0).length = m.size + 6 := by
      simp only [List.length_append, LittleEndian.length_ofUInt32,
        LittleEndian.length_ofUInt16, hlen]
    simp only [hpos, hroom, hover, hresult, if_true, if_false,
      LogData.snprintfStored]
    rw [← List.append_assoc, ← List.append_assoc]
    -- nothing was stored, so the length field alone follows the type word
    refine (htype.append ?_ ?_ rfl).addMessageTooLargeIndication ?_ ?_
    · rw [← List.length_append, hlength]
      omega
    · simp [LogData.reserve, Buffer.write]
    · exact (LogData.isFull_writeType d _).trans hd
    · omega

/-- Every call logs what it asks for. -/
theorem call (h : Represents d m) (c : WriteCall) :
    Represents (d.call c) (m.call d.data.hexEnabled c) := by
  cases c with
  | bool v => exact h.putNat .bool v.toNat
  | float bits => exact h.putNat .floa32 bits.toNat
  | double bits => exact h.putNat .floa64 bits.toNat
  | uint64 v => exact h.putNat (.uint .bit64 _) v.toNat
  | int64 v => exact h.putNat (.sint .bit64) v.toUInt64.toNat
  | uint32 v => exact h.putNat (.uint .bit32 _) v.toNat
  | int32 v => exact h.putNat (.sint .bit32) v.toUInt32.toNat
  | uint16 v => exact h.putNat (.uint .bit16 _) v.toNat
  | int16 v => exact h.putNat (.sint .bit16) v.toUInt16.toNat
  | uint8 v => exact h.putNat (.uint .bit8 _) v.toNat
  | int8 v => exact h.putNat (.sint .bit8) v.toUInt8.toNat
  | string v => exact h.writeString v
  | cString v => exact h.writeString (cText v)
  | formatted text => exact h.writeFormatted text
  | setHexEnabled enabled =>
      exact ⟨h.holds.of_content rfl rfl, h.isFull, h.argsCount, h.valid,
        h.bound⟩

/-- Every sequence of calls logs what it asks for, each call under the hex
switch that the ones in front of it left. -/
theorem calls (h : Represents d m) (cs : List WriteCall) :
    Represents (d.calls cs) (m.calls d.data.hexEnabled cs) := by
  induction cs generalizing d m with
  | nil => exact h
  | cons c cs ih =>
      have hstep := ih (h.call c)
      rw [LogData.hexEnabled_call] at hstep
      exact hstep

/-- The payload of a message decodes to its arguments. -/
theorem decodePayload (h : Represents d m) :
    decodePayload (d.content.take d.contentSize) = some m.args := by
  rw [h.holds.size, h.holds.filled]
  exact verboseFormat.readAll_writeAll h.valid

/-- The payload is all there: the array is as long as it has to be. -/
theorem length_payload (h : Represents d m) :
    (d.content.take d.contentSize).length = d.contentSize := by
  have hsize := h.size_le
  rw [← h.contentSize] at hsize
  rw [List.length_take, h.holds.length, Nat.min_eq_left hsize]

end Represents

/-- A fresh message is the empty one. -/
theorem represents_fresh (memory : Vector UInt8 maxMessageSize)
    (context : ContextId) (data : LogInfo) (dltLogLevel : Int)
    (enabled : Bool) (messageCount : UInt8) :
    Represents (LogData.fresh memory context data dltLogLevel enabled
      messageCount) {} := by
  refine ⟨⟨?_, rfl, Nat.zero_le _, rfl⟩, rfl, rfl, ?_, fun _ => ?_⟩
  · exact Vector.length_toList
  · intro a ha
    cases ha
  · exact Nat.zero_le _

end Simulation

end IviLogging.DltCpp
