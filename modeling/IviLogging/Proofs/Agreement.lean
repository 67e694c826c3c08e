/-
What the payload of DltCpp says of the console's text.

The same values go to both backends. On the console they are texts; in a
message they are arguments, typed and in binary. Does a reader of the
message know what the console shows?

# The arguments of a message

A message that is not full has an argument for every value, an empty string
aside. That is shown once for any calls (`args_calls_of_not_full`) and used
in the form of operations, which is what an entry gets, with the switch for
hexadecimal digits (`represents_ops`); values alone are a case of it
(`represents_dltCppMessage`). The payload decodes to the arguments, so
messages with one payload have the same (`arguments_of_payload`).

# The text of an argument

From the argument of a value the text on the console can be read (`shown`,
`text_eq_shown`), unless it is a boolean. There DltCpp has written the same
for a `bool` and for an address, as the pointer has no overload of its own
and is converted; on the console the two are `true` and `0x1000`. So each
boolean has a partner of the other type with the same call and another text
(`text_partner_ne`).

# The sizes

What is in a message takes its room there, so the strings of a message that
is not full are short, and the line they make on the console can be printed
(`line_fits`). No assumption on the values is needed for that.

So of some values the payload says all exactly if there is no boolean among
them (`payload_determines_iff`).
-/
import IviLogging.DltCpp.Proofs.Payload
import IviLogging.Stream.Proofs.Content
import IviLogging.Tokens

namespace IviLogging

open DltCpp (Message Represents DltUser maxMessageSize writtenValues)
open Printf (intMax printf signedDecimal fixed)

-- =============================================================== arguments

/-- The arguments that a value leaves in a message: an empty string leaves
none. -/
def NativeValue.arguments (x : NativeValue) : List DltCpp.Arg :=
  match x.dltCppCall.arg false with
  | some (.strg []) => []
  | some a => [a]
  | none => []

/-- What the console shows, by the argument. -/
def shown : DltCpp.Arg → List UInt8
  | .scalar (.sint _) bits => signedDecimal bits.toInt
  | .scalar (.uint _ _) bits => signedDecimal bits.toNat
  | .scalar .floa32 bits => fixed (.ofFloat (UInt32.ofNat bits.toNat))
  | .scalar .floa64 bits => fixed (.ofDouble (UInt64.ofNat bits.toNat))
  | .scalar .bool _ => []
  | .strg s => s

/-- A string, empty or not, is shown as it is. -/
theorem arguments_strg {x : NativeValue} {s : List UInt8}
    (h : x.dltCppCall.arg false = some (.strg s)) :
    x.arguments.flatMap shown = s := by
  unfold NativeValue.arguments
  rw [h]
  cases s with
  | nil => rfl
  | cons c s => simp [shown]

/-- A number leaves its argument. -/
theorem arguments_scalar {x : NativeValue} {t : DltCpp.ScalarType} {n : Nat}
    (h : x.dltCppCall.arg false = some (.ofNat t n)) :
    x.arguments = [.ofNat t n] := by
  unfold NativeValue.arguments
  rw [h]
  rfl

/-- The argument of a signed number shows it. -/
theorem signed_eq_shown {x : NativeValue} {w : DltCpp.Width}
    (b : BitVec (8 * (DltCpp.ScalarType.sint w).bytes))
    (harg : x.dltCppCall.arg false = some (.ofNat (.sint w) b.toNat))
    (htext : x.streamCall.text false = signedDecimal b.toInt) :
    x.streamCall.text false = x.arguments.flatMap shown := by
  rw [arguments_scalar harg, List.flatMap_singleton, htext, DltCpp.Arg.ofNat,
    BitVec.ofNat_toNat, BitVec.setWidth_eq]
  rfl

/-- So does that of an unsigned one. -/
theorem unsigned_eq_shown {x : NativeValue} {w : DltCpp.Width}
    (b : BitVec (8 * (DltCpp.ScalarType.uint w false).bytes))
    (harg : x.dltCppCall.arg false = some (.ofNat (.uint w false) b.toNat))
    (htext : x.streamCall.text false = signedDecimal b.toNat) :
    x.streamCall.text false = x.arguments.flatMap shown := by
  rw [arguments_scalar harg, List.flatMap_singleton, htext, DltCpp.Arg.ofNat,
    BitVec.ofNat_toNat, BitVec.setWidth_eq]
  rfl

/-- The text of a string is its argument. -/
theorem string_eq_shown {x : NativeValue} {v : NulFree}
    (harg : x.dltCppCall.arg false = some (.strg v.bytes))
    (htext : x.streamCall.text false = cText v.bytes) :
    x.streamCall.text false = x.arguments.flatMap shown := by
  rw [arguments_strg harg, htext]
  exact Printf.takeWhile_eq_self v.nul

/-- The text of a value that is no boolean can be read from its argument: the
width differs for the two character types, which each backend promotes on
its own, but the number does not. -/
theorem text_eq_shown {x : NativeValue} (hx : ¬ x.IsBool) :
    x.streamCall.text false = x.arguments.flatMap shown := by
  cases x with
  | bool v => exact absurd True.intro hx
  | pointer address => exact absurd True.intro hx
  -- a `char` is promoted to `int`, as DltCpp has no overload for it
  | char v =>
      apply signed_eq_shown (w := .bit32) v.toInt32.toBitVec rfl
      show signedDecimal v.toInt = signedDecimal v.toInt32.toInt
      rw [Int8.toInt_toInt32]
  -- and a `signed char` on the console
  | signedChar v =>
      apply signed_eq_shown (w := .bit8) v.toBitVec rfl
      show signedDecimal v.toInt32.toInt = signedDecimal v.toInt
      rw [Int8.toInt_toInt32]
  | short v => exact signed_eq_shown (w := .bit16) v.toBitVec rfl rfl
  | int v => exact signed_eq_shown (w := .bit32) v.toBitVec rfl rfl
  | long v => exact signed_eq_shown (w := .bit64) v.toBitVec rfl rfl
  | unsignedChar v => exact unsigned_eq_shown (w := .bit8) v.toBitVec rfl rfl
  | unsignedShort v =>
      exact unsigned_eq_shown (w := .bit16) v.toBitVec rfl rfl
  | unsignedInt v => exact unsigned_eq_shown (w := .bit32) v.toBitVec rfl rfl
  | unsignedLong v =>
      exact unsigned_eq_shown (w := .bit64) v.toBitVec rfl rfl
  | float bits =>
      rw [arguments_scalar rfl, List.flatMap_singleton]
      show fixed (.ofFloat bits) = fixed (.ofFloat (UInt32.ofNat
        (BitVec.ofNat 32 bits.toNat).toNat))
      rw [BitVec.toNat_ofNat, Nat.mod_eq_of_lt bits.toNat_lt,
        UInt32.ofNat_toNat]
  | double bits =>
      rw [arguments_scalar rfl, List.flatMap_singleton]
      show fixed (.ofDouble bits) = fixed (.ofDouble (UInt64.ofNat
        (BitVec.ofNat 64 bits.toNat).toNat))
      rw [BitVec.toNat_ofNat, Nat.mod_eq_of_lt bits.toNat_lt,
        UInt64.ofNat_toNat]
  | cString v =>
      refine string_eq_shown (v := v) ?_ rfl
      show some (DltCpp.Arg.strg (cText v.bytes)) = _
      rw [cText, Printf.takeWhile_eq_self v.nul]
  | stringView v => exact string_eq_shown (v := v) rfl rfl
  | string v => exact string_eq_shown (v := v) rfl rfl

-- ================================================================ messages

/-- A boolean is its own kind of argument. The address of an object leaves
one too, as it is converted, and no other value does. -/
theorem isBool_iff {x : NativeValue} :
    x.IsBool ↔ ∃ bits, DltCpp.Arg.scalar .bool bits ∈ x.arguments := by
  -- a string leaves itself, or nothing
  have hstrg : ∀ {s : List UInt8},
      x.dltCppCall.arg false = some (.strg s) →
      ∀ bits, DltCpp.Arg.scalar .bool bits ∉ x.arguments := by
    intro s hs bits hmem
    unfold NativeValue.arguments at hmem
    rw [hs] at hmem
    cases s with
    | nil => cases hmem
    | cons c s => simp at hmem
  constructor
  · intro hx
    cases x with
    | bool v => exact ⟨_, List.mem_cons_self ..⟩
    | pointer address => exact ⟨_, List.mem_cons_self ..⟩
    | _ => exact hx.elim
  · intro hmem
    obtain ⟨bits, hmem⟩ := hmem
    cases x with
    | bool v => exact True.intro
    | pointer address => exact True.intro
    | cString v => exact absurd hmem (hstrg rfl bits)
    | stringView v => exact absurd hmem (hstrg rfl bits)
    | string v => exact absurd hmem (hstrg rfl bits)
    | _ =>
        rw [arguments_scalar rfl] at hmem
        simp [DltCpp.Arg.ofNat] at hmem

/-- A value that leaves a message open is in it. -/
theorem put_of_not_full {m : Message} {a : DltCpp.Arg}
    (h : (m.put a).full = false) :
    m.full = false
      ∧ (m.put a).args = m.args ++ if a = .strg [] then [] else [a] := by
  -- a full message stays as it is
  cases hfull : m.full with
  | true =>
      have hput : m.put a = m := by
        cases a <;>
          simp [Message.put, Message.putScalar, Message.putString, hfull]
      rw [hput, hfull] at h
      cases h
  | false =>
      refine ⟨rfl, ?_⟩
      by_cases ha : a = .strg []
      · subst ha
        simp [Message.put, Message.putString, hfull]
      · have hlogged : DltCpp.Logged m.args m :=
          ⟨fun _ => rfl, fun hcon => by rw [hfull] at hcon; cases hcon⟩
        rw [if_neg ha]
        exact (hlogged.put ha).all h

/-- A call other than that of a formatted text puts what it asks for, -/
theorem call_eq_put {m : Message} {hex : Bool} {c : DltCpp.WriteCall}
    (hc : ∀ text, c ≠ .formatted text) {a : DltCpp.Arg}
    (h : c.arg hex = some a) : m.call hex c = m.put a := by
  cases c with
  | formatted text => exact absurd rfl (hc text)
  | setHexEnabled enabled => cases h
  | _ => exact congrArg m.put (Option.some.inj h)

/-- or nothing. -/
theorem call_eq_self {m : Message} {hex : Bool} {c : DltCpp.WriteCall}
    (hc : ∀ text, c ≠ .formatted text) (h : c.arg hex = none) :
    m.call hex c = m := by
  cases c with
  | formatted text => exact absurd rfl (hc text)
  | setHexEnabled enabled => rfl
  | _ => cases h

/-- Calls that leave a message open have put their values in, if they are no
empty strings. Formatted texts are another matter: they leave an argument
also if they are empty. -/
theorem args_calls_of_not_full {m : Message} {hex : Bool}
    {cs : List DltCpp.WriteCall} (hplain : ∀ text, .formatted text ∉ cs)
    (h : (m.calls hex cs).full = false) :
    m.full = false
      ∧ (m.calls hex cs).args
        = m.args ++ (writtenValues hex cs).filter (· ≠ .strg []) := by
  induction cs generalizing m hex with
  | nil => exact ⟨h, (List.append_nil _).symm⟩
  | cons c cs ih =>
      have hrest : ∀ text, DltCpp.WriteCall.formatted text ∉ cs :=
        fun text hmem => hplain text (List.mem_cons_of_mem _ hmem)
      obtain ⟨hstep, hargs⟩ := ih hrest h
      have hnotFormatted : ∀ text, c ≠ .formatted text := by
        rintro text rfl
        exact hplain text List.mem_cons_self
      show _ ∧ ((m.call hex c).calls (c.hexAfter hex) cs).args = _
      rw [hargs, writtenValues, List.filter_append, ← List.append_assoc]
      cases harg : c.arg hex with
      | none =>
          rw [call_eq_self hnotFormatted harg] at hstep ⊢
          exact ⟨hstep, by simp⟩
      | some a =>
          rw [call_eq_put hnotFormatted harg] at hstep ⊢
          obtain ⟨hopen, hput⟩ := put_of_not_full hstep
          refine ⟨hopen, ?_⟩
          rw [hput]
          by_cases ha : a = .strg []
          · simp [ha]
          · simp [ha]

/-- The calls of operations log no formatted text. -/
theorem formatted_notMem_ops (ops : List Op) (text : DltCpp.FormattedText) :
    .formatted text ∉ ops.map Op.dltCppCall := by
  intro hmem
  obtain ⟨op, -, hop⟩ := List.mem_map.mp hmem
  cases op with
  | setHexEnabled enabled => cases hop
  | write v => cases v <;> cases hop

/-- The arguments of an operation are what its call asks for, without an
empty string. -/
theorem arguments_op (hex : Bool) (op : Op) :
    op.arguments hex
      = (op.dltCppCall.arg hex).toList.filter (· ≠ .strg []) := by
  cases op with
  | setHexEnabled enabled => rfl
  | write v =>
      simp only [Op.arguments, Op.dltCppCall]
      cases v.dltCppCall.arg hex with
      | none => rfl
      | some a =>
          cases a with
          | scalar t bits => simp
          | strg s => cases s <;> simp

/-- So are the arguments of some operations, under the switch as they move
it. -/
theorem argumentsOf_eq (hex : Bool) (ops : List Op) :
    Op.argumentsOf hex ops
      = (writtenValues hex (ops.map Op.dltCppCall)).filter
          (· ≠ .strg []) := by
  induction ops generalizing hex with
  | nil => rfl
  | cons op ops ih =>
      have hhex : op.dltCppCall.hexAfter hex = op.hexAfter hex := by
        cases op with
        | setHexEnabled enabled => rfl
        | write v => cases v <;> rfl
      rw [Op.argumentsOf, List.map_cons, writtenValues, List.filter_append,
        hhex, ih, arguments_op]

/-- The arguments of operations that only write. -/
theorem argumentsOf_writes (hex : Bool) (xs : List NativeValue) :
    Op.argumentsOf hex (xs.map .write)
      = xs.flatMap fun x => (Op.write x).arguments hex := by
  induction xs with
  | nil => rfl
  | cons x xs ih =>
      rw [List.map_cons, Op.argumentsOf, List.flatMap_cons]
      exact congrArg _ ih

section Messages

variable [DltUser]

/-- The message behind some operations, as its reader sees it: their arguments,
and open. -/
theorem represents_ops {d : DltCpp.LogData} (hd : Represents d {})
    {ops : List Op}
    (hfull : (d.calls (ops.map Op.dltCppCall)).isFull = false) :
    Represents (d.calls (ops.map Op.dltCppCall))
      ⟨Op.argumentsOf d.data.hexEnabled ops, false⟩ := by
  have hrep := hd.calls (ops.map Op.dltCppCall)
  have hopen := hrep.isFull.symm.trans hfull
  obtain ⟨-, hargs⟩ := args_calls_of_not_full (formatted_notMem_ops ops) hopen
  rw [List.nil_append, ← argumentsOf_eq] at hargs
  have heq : ∀ m : Message, m.full = false → m = ⟨m.args, false⟩ := by
    intro m hm
    rw [← hm]
  rw [heq _ hopen, hargs] at hrep
  exact hrep

/-- The message behind some values. -/
theorem represents_dltCppMessage {d : DltCpp.LogData}
    (hd : Represents d {}) (hdecimal : d.data.hexEnabled = false)
    {xs : List NativeValue} (hfull : (dltCppMessage d xs).isFull = false) :
    Represents (dltCppMessage d xs)
      ⟨xs.flatMap NativeValue.arguments, false⟩ := by
  have hcalls : dltCppMessage d xs
      = d.calls ((xs.map Op.write).map Op.dltCppCall) := by
    rw [List.map_map]
    rfl
  rw [hcalls] at hfull ⊢
  have hrep := represents_ops hd hfull
  rw [hdecimal, argumentsOf_writes] at hrep
  exact hrep

/-- Two messages with one payload have the same arguments. -/
theorem arguments_of_payload {d d' : DltCpp.LogData} {m m' : Message}
    (h : Represents d m) (h' : Represents d' m')
    (hpayload : d.payload = d'.payload) : m.args = m'.args := by
  have hdecode := h.decodePayload
  unfold DltCpp.LogData.payload at hpayload
  rw [hpayload, h'.decodePayload] at hdecode
  exact (Option.some.inj hdecode).symm

end Messages

-- ================================================================== texts

/-- The texts of some values. -/
def valueTexts (xs : List NativeValue) : List UInt8 :=
  xs.flatMap fun x => x.streamCall.text false

/-- Without booleans the texts are shown by the arguments. -/
theorem valueTexts_eq_shown {xs : List NativeValue}
    (hxs : ∀ x ∈ xs, ¬ x.IsBool) :
    valueTexts xs = (xs.flatMap NativeValue.arguments).flatMap shown := by
  unfold valueTexts
  rw [List.flatMap_assoc]
  exact List.flatMap_congr fun x hx => text_eq_shown (hxs x hx)

/-- They are what a record gets that only values are written to. -/
theorem texts_writes (xs : List NativeValue) :
    Stream.texts false (xs.map fun x => .write x.streamCall)
      = valueTexts xs := by
  induction xs with
  | nil => rfl
  | cons x xs ih =>
      have hhex : (Stream.Action.write x.streamCall).hexEnabled false
          = false := by
        cases x <;> rfl
      rw [List.map_cons, Stream.texts, hhex, ih]
      rfl

/-- The bytes of a string are those of its call. -/
theorem bytes_streamCall (x : NativeValue) : x.streamCall.bytes = x.bytes := by
  cases x <;> rfl

/-- A string that is in a message has its room there. -/
theorem length_bytes_le (x : NativeValue) :
    x.bytes.length ≤ (x.arguments.map DltCpp.Arg.size).sum := by
  have hstring : ∀ {v : NulFree}, x.bytes = v.bytes →
      x.dltCppCall.arg false = some (.strg v.bytes) →
      x.bytes.length ≤ (x.arguments.map DltCpp.Arg.size).sum := by
    intro v hbytes harg
    unfold NativeValue.arguments
    rw [harg, hbytes]
    cases v.bytes with
    | nil => exact Nat.zero_le _
    | cons c s => simp [DltCpp.Arg.size]; omega
  cases x with
  | cString v =>
      apply hstring (v := v) rfl
      show some (DltCpp.Arg.strg (cText v.bytes)) = _
      rw [cText, Printf.takeWhile_eq_self v.nul]
  | stringView v => exact hstring (v := v) rfl rfl
  | string v => exact hstring (v := v) rfl rfl
  | _ => exact Nat.zero_le _

/-- A text is not long beside what the value takes in a message: the factor is
crude, as a byte is enough of an argument. -/
theorem length_text_le {x : NativeValue} (hx : x.bytes.length < intMax) :
    (x.streamCall.text false).length
      ≤ 2 ^ 31 * (x.arguments.map DltCpp.Arg.size).sum := by
  have hint : intMax = 2 ^ 31 - 1 := rfl
  cases harg : x.arguments with
  | nil =>
      have hbool : ¬ x.IsBool := by
        rw [isBool_iff, harg]
        intro hmem
        obtain ⟨_, hmem⟩ := hmem
        cases hmem
      rw [text_eq_shown hbool, harg]
      exact Nat.zero_le _
  | cons a as =>
      have hpos := a.size_pos
      have hlt := Stream.length_text_lt false (c := x.streamCall) (by
        rw [bytes_streamCall]
        exact hx)
      rw [List.map_cons, List.sum_cons]
      omega

/-- So it is for some values. -/
theorem length_valueTexts_le {xs : List NativeValue}
    (hxs : ∀ x ∈ xs, x.bytes.length < intMax) :
    (valueTexts xs).length
      ≤ 2 ^ 31 * ((xs.flatMap NativeValue.arguments).map
        DltCpp.Arg.size).sum := by
  induction xs with
  | nil => exact Nat.zero_le _
  | cons x xs ih =>
      have hhead := length_text_le (hxs x (List.mem_cons_self ..))
      have htail := ih fun y hy => hxs y (List.mem_cons_of_mem _ hy)
      have hsplit : valueTexts (x :: xs)
          = x.streamCall.text false ++ valueTexts xs := List.flatMap_cons
      rw [hsplit, List.length_append, List.flatMap_cons, List.map_append,
        List.sum_append]
      omega

/-- The strings of an open message fit it. -/
theorem length_bytes_le_of_mem {xs : List NativeValue} {x : NativeValue}
    (hx : x ∈ xs) :
    x.bytes.length
      ≤ ((xs.flatMap NativeValue.arguments).map DltCpp.Arg.size).sum := by
  induction xs with
  | nil => cases hx
  | cons y xs ih =>
      rw [List.flatMap_cons, List.map_append, List.sum_append]
      rcases List.mem_cons.mp hx with heq | hmem
      · subst heq
        have hle := length_bytes_le x
        omega
      · have hle := ih hmem
        omega

-- ================================================================= records

section Records

variable {r : Stream.StreamLogData} {l : Stream.Levels}
  {env : Stream.Environment} {xs : List NativeValue} {p : List UInt8}

/-- No value is the switch. -/
theorem streamCall_value (x : NativeValue) (enabled : Bool) :
    x.streamCall ≠ .setHexEnabled enabled := by
  cases x <;> exact fun h => by cases h

/-- A record that is not enabled stays as it is. -/
theorem streamContent_disabled (hdisabled : r.isEnabled l = false) :
    streamContent r l env xs = some r.content.contents := by
  have hoff : ¬ r.isEnabled l = true := by simp [hdisabled]
  -- no value is written
  have hrun : Transition.run Stream.step ⟨l, r⟩
      (xs.map fun x => .write x.streamCall) = some ⟨l, r⟩ := by
    induction xs with
    | nil => rfl
    | cons x xs ih =>
        have hstep : Stream.step ⟨l, r⟩ (.write x.streamCall)
            = some ⟨l, r⟩ := by
          rw [Stream.step_write _ (streamCall_value x), if_neg hoff]
        rw [List.map_cons, Transition.run, hstep, Option.bind_some]
        exact ih
  rw [streamContent, Stream.StreamLogData.after, Stream.StreamLogData.init,
    if_neg hoff, Option.bind_some, hrun]
  rfl

/-- Values leave the levels alone. -/
theorem staysEnabled_writes {kind : Stream.Kind} {severity : LogLevel}
    (h : l.isEnabled kind severity = true) (xs : List NativeValue) :
    Stream.StaysEnabled kind severity l
      (xs.map fun x => .write x.streamCall) := by
  induction xs with
  | nil => exact h
  | cons x xs ih => exact ⟨h, ih⟩

/-- An enabled one has the prefix and the texts, as far as the vector can
hold them: none of the values changes a level. -/
theorem streamContent_enabled (hempty : r.content.Holds [])
    (hen : r.isEnabled l = true) (hdecimal : r.data.hexEnabled = false)
    (hpre : printf r.prefixFormat (r.prefixArgs env) = some p)
    (hp : p.length < intMax) (hxs : ∀ x ∈ xs, x.bytes.length < intMax)
    {u : List UInt8}
    (hu : u = Stream.linePrefix r.context r.data.level p ++ valueTexts xs) :
    streamContent r l env xs
      = if u.length < charVectorMaxSize then some u else none := by
  have hstrings : ∀ c, Stream.Action.write c
        ∈ xs.map (fun x => Stream.Action.write x.streamCall) →
      c.bytes.length < intMax := by
    intro c hc
    obtain ⟨x, hx, heq⟩ := List.mem_map.mp hc
    cases heq
    rw [bytes_streamCall]
    exact hxs x hx
  have hafter := Stream.after_eq hempty (staysEnabled_writes hen xs) hstrings
    hpre hp (u := u) (by rw [hdecimal, texts_writes, hu])
  unfold streamContent
  split at hafter
  case isTrue hshort =>
      obtain ⟨content, hex, hholds, heq⟩ := hafter
      rw [if_pos hshort, heq]
      exact congrArg some hholds.contents
  case isFalse hlong =>
      rw [if_neg hlong, hafter]
      rfl

end Records

-- =========================================================== the agreement

/-- A prefix is not long beside its text: it has two colours at most. -/
theorem length_linePrefix_lt (context : Stream.StreamLogContext)
    (severity : LogLevel) {p : List UInt8} (hp : p.length < intMax) :
    (Stream.linePrefix context severity p).length < 3 * intMax := by
  have hcolored : ∀ color : List UInt8,
      (Stream.colored context color).length ≤ color.length := by
    intro color
    unfold Stream.colored
    split
    · exact Nat.le_refl _
    · exact Nat.zero_le _
  have hheader := hcolored (Stream.StreamLogData.headerColor severity)
  have hreset := hcolored
    (Stream.StreamLogData.ansiColorOff ++ Stream.StreamLogData.ansiResetBright)
  have hheader' := (Stream.headerColor_plain severity).2
  have hreset' := Stream.resetColor_plain.2
  unfold Stream.linePrefix
  cases context.kind with
  | file =>
      show p.length < 3 * intMax
      omega
  | console =>
      show (Stream.headerText context severity
        ++ (p ++ Stream.resetText context)).length < 3 * intMax
      rw [List.length_append, List.length_append]
      unfold Stream.headerText Stream.resetText
      omega

/-- A value of the other type that DltCpp takes for the same. -/
def NativeValue.partner : NativeValue → NativeValue
  | .bool v => .pointer (if v then 1 else 0)
  | .pointer address => .bool (decide (address ≠ 0))
  | x => x

theorem dltCppCall_partner (x : NativeValue) :
    x.partner.dltCppCall = x.dltCppCall := by
  cases x with
  | bool v =>
      cases v with
      | true => rfl
      | false => rfl
  | _ => rfl

/-- The console tells a `bool` and an address apart. -/
theorem text_partner_ne {x : NativeValue} (hx : x.IsBool) :
    x.partner.streamCall.text false ≠ x.streamCall.text false := by
  have hpointer : ∀ (address : UInt64) (v : Bool),
      (Stream.WriteCall.pointer address).text false
        ≠ (Stream.WriteCall.bool v).text false := by
    intro address v heq
    have hhead := congrArg List.head? heq
    cases v with
    | true => simp [Stream.WriteCall.text, Stream.pointerText, ascii] at hhead
    | false => simp [Stream.WriteCall.text, Stream.pointerText, ascii] at hhead
  cases x with
  | bool v => exact hpointer _ v
  | pointer address => exact fun heq => hpointer address _ heq.symm
  | _ => exact hx.elim

/-- With a partner in its place the message is the same, -/
theorem dltCppMessage_partner [DltCpp.DltConstants] (d : DltCpp.LogData)
    (front back : List NativeValue) (x : NativeValue) :
    dltCppMessage d (front ++ x.partner :: back)
      = dltCppMessage d (front ++ x :: back) := by
  unfold dltCppMessage
  simp only [List.map_append, List.map_cons, dltCppCall_partner]

/-- and the texts are not. -/
theorem valueTexts_partner_ne (front back : List NativeValue)
    {x : NativeValue} (hx : x.IsBool) :
    valueTexts (front ++ x.partner :: back)
      ≠ valueTexts (front ++ x :: back) := by
  intro heq
  simp only [valueTexts, List.flatMap_append, List.flatMap_cons] at heq
  exact text_partner_ne hx
    (List.append_cancel_right (List.append_cancel_left heq))

section Messages

variable [DltUser] {d : DltCpp.LogData} {xs ys : List NativeValue}

/-- The values of an open message are few, and none is long. -/
theorem short_of_open (hd : Represents d {})
    (hdecimal : d.data.hexEnabled = false)
    (hfull : (dltCppMessage d xs).isFull = false) :
    ((xs.flatMap NativeValue.arguments).map DltCpp.Arg.size).sum
        ≤ maxMessageSize
      ∧ ∀ x ∈ xs, x.bytes.length < intMax := by
  have hsize := (represents_dltCppMessage hd hdecimal hfull).size_le
  refine ⟨hsize, ?_⟩
  intro x hx
  have hle := length_bytes_le_of_mem hx
  have hmax : maxMessageSize = 16384 := rfl
  have hint : intMax = 2 ^ 31 - 1 := rfl
  unfold Message.size at hsize
  simp only at hsize
  omega

/-- The text of their line is not too long either. -/
theorem line_fits (hd : Represents d {})
    (hdecimal : d.data.hexEnabled = false)
    (hfull : (dltCppMessage d xs).isFull = false)
    (context : Stream.StreamLogContext) (severity : LogLevel)
    {p : List UInt8} (hp : p.length < intMax) :
    (Stream.linePrefix context severity p ++ valueTexts xs).length
      < charVectorMaxSize := by
  obtain ⟨hle, hshort⟩ := short_of_open hd hdecimal hfull
  have hlength := length_linePrefix_lt context severity hp
  have htexts := length_valueTexts_le hshort
  have hmax : charVectorMaxSize = 2 ^ 63 - 1 := rfl
  have hint : intMax = 2 ^ 31 - 1 := rfl
  have hsize : maxMessageSize = 16384 := rfl
  rw [List.length_append]
  omega

/-- Without booleans the payload has all of the texts. -/
theorem valueTexts_of_payload (hd : Represents d {})
    (hdecimal : d.data.hexEnabled = false)
    (hxs : (dltCppMessage d xs).isFull = false)
    (hys : (dltCppMessage d ys).isFull = false)
    (hpayload : (dltCppMessage d ys).payload = (dltCppMessage d xs).payload)
    (hnone : ∀ x ∈ xs, ¬ x.IsBool) : valueTexts ys = valueTexts xs := by
  have hargs : ys.flatMap NativeValue.arguments
      = xs.flatMap NativeValue.arguments :=
    arguments_of_payload (represents_dltCppMessage hd hdecimal hys)
      (represents_dltCppMessage hd hdecimal hxs) hpayload
  -- a boolean would be an argument of both messages
  have hnone' : ∀ y ∈ ys, ¬ y.IsBool := by
    intro y hy hbool
    obtain ⟨bits, hmem⟩ := isBool_iff.mp hbool
    have hmem' : DltCpp.Arg.scalar .bool bits
        ∈ ys.flatMap NativeValue.arguments :=
      List.mem_flatMap.mpr ⟨y, hy, hmem⟩
    rw [hargs] at hmem'
    obtain ⟨x, hx, hmem''⟩ := List.mem_flatMap.mp hmem'
    exact hnone x hx (isBool_iff.mpr ⟨bits, hmem''⟩)
  rw [valueTexts_eq_shown hnone, valueTexts_eq_shown hnone', hargs]

end Messages

/-- What the payload of DltCpp says of some values is all that the console
shows of them exactly if there is neither a `bool` nor the address of an
object among them, or the console shows nothing. The message is one that
the DLT wants: no other one is written to. -/
theorem payload_determines_iff [DltUser]
    (dltMemory : Vector UInt8 maxMessageSize) (dltContext : DltCpp.ContextId)
    (dltLogLevel : Int) (messageCount : UInt8)
    (memory : StaticData) (context : Stream.StreamLogContext)
    (data : LogInfo) (prefixFormat suffixFormat p : List UInt8)
    (l : Stream.Levels) (env : Stream.Environment) (xs : List NativeValue) :
    let d := DltCpp.LogData.fresh dltMemory dltContext data dltLogLevel
      true messageCount
    let r := ((Stream.StreamLogData.fresh memory context data).setPrefixFormat
      prefixFormat).setSuffixFormat suffixFormat
    data.hexEnabled = false →
    printf r.prefixFormat (r.prefixArgs env) = some p → p.length < intMax →
    (dltCppMessage d xs).isFull = false →
    ((∀ ys, (dltCppMessage d ys).isFull = false →
        (dltCppMessage d ys).payload = (dltCppMessage d xs).payload →
        streamContent r l env ys = streamContent r l env xs)
      ↔ l.isEnabled context.kind data.level = false
        ∨ ∀ x ∈ xs, ¬ x.IsBool) := by
  intro d r hdecimal hpre hp hxs
  have hd : Represents d {} := DltCpp.represents_fresh ..
  have hempty : r.content.Holds [] := ByteArray.Holds.fresh memory
  have hcontent : ∀ ys, r.isEnabled l = true →
      (dltCppMessage d ys).isFull = false →
      streamContent r l env ys
        = some (Stream.linePrefix context data.level p ++ valueTexts ys) := by
    intro ys hen hys
    rw [streamContent_enabled hempty hen hdecimal hpre hp
      (short_of_open hd hdecimal hys).2 rfl,
      if_pos (line_fits hd hdecimal hys r.context r.data.level hp)]
    rfl
  cases hen : r.isEnabled l with
  | false =>
      constructor
      · intro _
        exact Or.inl hen
      · intro _ ys _ _
        rw [streamContent_disabled hen, streamContent_disabled hen]
  | true =>
      constructor
      · intro hall
        refine Or.inr fun x hx hbool => ?_
        -- the partner of a boolean in its place: the same payload, another
        -- text
        obtain ⟨front, back, hsplit⟩ := List.append_of_mem hx
        subst hsplit
        have hmessage := dltCppMessage_partner d front back x
        have hys : (dltCppMessage d (front ++ x.partner :: back)).isFull
            = false := by
          rw [hmessage]
          exact hxs
        have hsame := hall _ hys (by rw [hmessage])
        rw [hcontent _ hen hys, hcontent _ hen hxs] at hsame
        exact valueTexts_partner_ne front back hbool
          (List.append_cancel_left (Option.some.inj hsame))
      · intro hcond ys hys hpayload
        rcases hcond with hdisabled | hnone
        · have hoff : r.isEnabled l = false := hdisabled
          rw [hen] at hoff
          cases hoff
        · rw [hcontent _ hen hys, hcontent _ hen hxs,
            valueTexts_of_payload hd hdecimal hxs hys hpayload hnone]

-- ============================================================== a sample

/-- The message of the fixed inputs. -/
def sampleMessage : DltCpp.LogData :=
  .fresh (Vector.replicate maxMessageSize 255) 0 sampleInfo 4 true 0

/-- The record of the fixed inputs. -/
def sampleConsoleRecord : Stream.StreamLogData :=
  .fresh ByteArray.sampleMemory (Stream.sampleContextOf .console false)
    sampleInfo

theorem sampleMessage_open (call : DltCpp.WriteCall)
    (hcall : (Message.calls {} false [call]).full = false) :
    (@DltCpp.LogData.calls DltCpp.documentedConstants sampleMessage
      [call]).isFull = false := by
  have hrep := @DltCpp.represents_fresh DltCpp.documentedDltUser
    (Vector.replicate maxMessageSize 255) 0 sampleInfo 4 true 0
  have hcalls := @Represents.calls DltCpp.documentedDltUser _ _ hrep [call]
  exact (@Represents.isFull DltCpp.documentedDltUser _ _ hcalls).trans hcall

/-- A `bool` and an address that DltCpp does not tell apart. -/
theorem address_taken_for_bool :
    let message := @dltCppMessage DltCpp.documentedConstants sampleMessage
    let content := streamContent sampleConsoleRecord Stream.sampleLevels
      Stream.sampleEnvironment
    (message [.bool true]).isFull = false
      ∧ (message [.pointer 4096]).isFull = false
      ∧ (message [.pointer 4096]).payload = (message [.bool true]).payload
      ∧ content [.bool true]
        = some (Stream.samplePrefix ++ ascii ['t', 'r', 'u', 'e'])
      ∧ content [.pointer 4096]
        = some (Stream.samplePrefix
          ++ ascii ['0', 'x', '1', '0', '0', '0']) := by
  refine ⟨sampleMessage_open (.bool true) rfl,
    sampleMessage_open (.bool true) rfl, rfl, ?_, ?_⟩
  · decide +kernel
  · decide +kernel

theorem payload_determines_iff_sample :
    (∀ ys,
        (@dltCppMessage DltCpp.documentedConstants sampleMessage ys).isFull
          = false →
        (@dltCppMessage DltCpp.documentedConstants sampleMessage ys).payload
          = (@dltCppMessage DltCpp.documentedConstants sampleMessage
            [.int 5]).payload →
        streamContent sampleConsoleRecord Stream.sampleLevels
            Stream.sampleEnvironment ys
          = streamContent sampleConsoleRecord Stream.sampleLevels
            Stream.sampleEnvironment [.int 5])
      ↔ Stream.sampleLevels.isEnabled .console .info = false
        ∨ ∀ x ∈ [NativeValue.int 5], ¬ x.IsBool :=
  @payload_determines_iff DltCpp.documentedDltUser
    (Vector.replicate maxMessageSize 255) 0 4 0 ByteArray.sampleMemory
    (Stream.sampleContextOf .console false) sampleInfo Stream.defaultPrefix
    Stream.defaultSuffix Stream.samplePrefix Stream.sampleLevels
    Stream.sampleEnvironment [.int 5] rfl rfl (by decide)
    (sampleMessage_open (.int32 5) rfl)

end IviLogging
