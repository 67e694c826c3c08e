/-
What a reader of a message gets back of structured values.

The texts around the values, the brackets and commas, are arguments of the
message like the values themselves, and nothing marks them. Still a reader
can tell what nests in what, if no string is among the values.

# The alphabet

The texts are the brackets of an alphabet, one pair and one separator for
each kind of container (`shapeAlphabet`). It can be read
(`alphabet_readable`): no text that opens is another one or begins a leaf,
what separates does not close, and the codes of the leaves can be told
apart. The last needs a look ahead. A duration is a count with a unit
behind it, and a count alone is a number; but no shape begins with a unit
and no separator is one (`not_follows_unit`), so a count is a duration
exactly if a unit is behind it (`code_inj`).

# The arguments

The arguments of a value without strings are the tokens of its shape in
that alphabet (`arguments_eq_tokens`), by recursion over the value. The
empty text in front of a tuple's first element leaves no argument.

# The payload

So two statements of such values have one payload exactly if they have the
same shapes (`payload_eq_iff_shapes_eq`): the library reads the shapes off
the tokens. What nests in what is not lost, only which sequence it was and
whether a variant or an optional was around it.
-/
import IviLogging.DltCpp.Proofs.Truncation
import IviLogging.Proofs.DefaultEntry

namespace IviLogging

open Brackets (separated flatMap_separated)
open DltCpp (Arg DltUser Represents maxMessageSize)

-- ============================================================= the alphabet

/-- The texts of the brackets, as arguments. -/
def shapeAlphabet : Brackets.Alphabet Bracket Leaf Arg where
  opening
    | .array => .strg Literal.openArray.bytes
    | .map => .strg Literal.openMap.bytes
    | .entry => .strg Literal.openEntry.bytes
    | .tuple => .strg Literal.openTuple.bytes
  separator
    | .entry => .strg Literal.equals.bytes
    | _ => .strg Literal.comma.bytes
  closing
    | .array => .strg Literal.closeArray.bytes
    | .map => .strg Literal.closeMap.bytes
    | .entry => .strg Literal.closeEntry.bytes
    | .tuple => .strg Literal.closeTuple.bytes
  code
    | .scalar type bits => [.scalar type bits]
    | .duration d count =>
        [.ofNat (.sint .bit64) count.toUInt64.toNat, .strg d.unit.bytes]
    | .noValue => [.strg Literal.noValue.bytes]

/-- A shape begins with an opening bracket, a scalar or an empty
optional. -/
theorem starts_cases {x : Arg} (h : shapeAlphabet.Starts x) :
    (∃ kind, x = shapeAlphabet.opening kind)
      ∨ (∃ type bits, x = .scalar type bits)
      ∨ x = .strg Literal.noValue.bytes := by
  rcases h with hopening | ⟨a, xs, hcode⟩
  · exact Or.inl hopening
  · cases a with
    | scalar type bits =>
        cases hcode
        exact Or.inr (Or.inl ⟨_, _, rfl⟩)
    | duration d count =>
        cases hcode
        exact Or.inr (Or.inl ⟨_, _, rfl⟩)
    | noValue =>
        cases hcode
        exact Or.inr (Or.inr rfl)

/-- The unit of a duration does not follow anything else. -/
theorem not_follows_unit (d : Duration) (r : List Arg) :
    ¬ shapeAlphabet.Follows (.strg d.unit.bytes :: r) := by
  intro h
  rcases h _ rfl with hstarts | hdelimits
  · rcases starts_cases hstarts with ⟨kind, heq⟩ | ⟨type, bits, heq⟩ | heq
    · cases d <;> cases kind <;> simp [shapeAlphabet] at heq <;>
        revert heq <;> decide
    · cases heq
    · cases d <;> revert heq <;> decide
  · rcases hdelimits with ⟨kind, heq⟩ | ⟨kind, heq⟩
    · cases d <;> cases kind <;> revert heq <;> decide
    · cases d <;> cases kind <;> revert heq <;> decide

/-- The units are different texts. -/
theorem unit_injective {d d' : Duration}
    (h : d.unit.bytes = d'.unit.bytes) : d = d' := by
  revert h
  cases d <;> cases d' <;> decide

/-- A count is read off its bits. -/
theorem count_injective {count count' : Int64}
    (h : Arg.ofNat (.sint .bit64) count.toUInt64.toNat
      = Arg.ofNat (.sint .bit64) count'.toUInt64.toNat) :
    count = count' := by
  have hlt : ∀ c : Int64, c.toUInt64.toNat
      < 2 ^ (8 * (DltCpp.ScalarType.sint .bit64).bytes) :=
    fun c => c.toUInt64.toNat_lt
  have hnat := congrArg BitVec.toNat (eq_of_heq (Arg.scalar.inj h).2)
  rw [BitVec.toNat_ofNat, BitVec.toNat_ofNat, Nat.mod_eq_of_lt (hlt _),
    Nat.mod_eq_of_lt (hlt _)] at hnat
  cases count
  cases count'
  exact congrArg Int64.ofUInt64 (UInt64.toNat_inj.mp hnat)

/-- The code of a leaf is read in front of what may follow it: a count is a
duration exactly if a unit is behind it. -/
theorem code_inj (a a' : Leaf) (r r' : List Arg)
    (hr : shapeAlphabet.Follows r) (hr' : shapeAlphabet.Follows r')
    (heq : shapeAlphabet.code a ++ r = shapeAlphabet.code a' ++ r') :
    a = a' ∧ r = r' := by
  cases a with
  | scalar type bits =>
      cases a' with
      | scalar type' bits' =>
          obtain ⟨hhead, hrest⟩ := List.cons.inj heq
          cases hhead
          exact ⟨rfl, hrest⟩
      | duration d' count' =>
          obtain ⟨-, hrest⟩ := List.cons.inj heq
          -- the scalar has a unit behind it, which nothing that follows
          -- begins with
          have hunit : r = .strg d'.unit.bytes :: r' := hrest
          exact absurd (hunit ▸ hr) (not_follows_unit d' r')
      | noValue => cases (List.cons.inj heq).1
  | duration d count =>
      cases a' with
      | scalar type' bits' =>
          obtain ⟨-, hrest⟩ := List.cons.inj heq
          have hunit : .strg d.unit.bytes :: r = r' := hrest
          exact absurd (hunit ▸ hr') (not_follows_unit d r)
      | duration d' count' =>
          obtain ⟨hhead, hrest⟩ := List.cons.inj heq
          obtain ⟨hunit, hrest⟩ := List.cons.inj hrest
          rw [count_injective hhead, unit_injective (Arg.strg.inj hunit)]
          exact ⟨rfl, hrest⟩
      | noValue => cases (List.cons.inj heq).1
  | noValue =>
      cases a' with
      | noValue => exact ⟨rfl, (List.cons.inj heq).2⟩
      | scalar type' bits' => cases (List.cons.inj heq).1
      | duration d' count' => cases (List.cons.inj heq).1

/-- The texts keep the values apart: no bracket begins as a comma does or as
a value, and none of the texts is an argument of a scalar. -/
theorem alphabet_readable : shapeAlphabet.Readable where
  opening_injective := by
    intro kind kind' heq
    cases kind <;> cases kind' <;> revert heq <;> decide
  separator_ne_closing := by
    intro kind
    cases kind <;> decide
  closing_not_starts := by
    intro kind hstarts
    rcases starts_cases hstarts with ⟨kind', heq⟩ | ⟨type, bits, heq⟩ | heq
    · cases kind <;> cases kind' <;> revert heq <;> decide
    · cases kind <;> cases heq
    · cases kind <;> revert heq <;> decide
  code_ne_nil := by
    intro a
    cases a <;> exact List.cons_ne_nil _ _
  code_ne_opening := by
    intro a kind xs heq
    cases a with
    | scalar type bits => cases kind <;> cases (List.cons.inj heq).1
    | duration d count => cases kind <;> cases (List.cons.inj heq).1
    | noValue =>
        have hhead := (List.cons.inj heq).1
        cases kind <;> revert hhead <;> decide
  code_inj := code_inj

-- ============================================================ the arguments

/-- The arguments that a token leaves. -/
def Token.arguments (t : Token Empty) : List Arg := t.native.arguments

namespace Value

/-- What a value writes are its tokens. -/
theorem arguments_writes (v : Value Empty) :
    v.writes.flatMap NativeValue.arguments
      = v.tokens.flatMap Token.arguments :=
  List.flatMap_map ..

/-- A scalar leaves its code. -/
theorem arguments_scalarOf {v : NativeValue} {a : Leaf}
    (h : scalarOf v = some a) : v.arguments = shapeAlphabet.code a := by
  unfold scalarOf at h
  unfold NativeValue.arguments
  split at h
  case h_1 type bits harg =>
      cases h
      rw [harg]
      rfl
  case h_2 => cases h

/-- The tokens of the elements of a container, as arguments. -/
theorem flatMap_elements (separator : Token Empty) (kind : Bracket)
    (hseparator : separator.arguments = [shapeAlphabet.separator kind])
    {first : List (Token Empty)} (hfirst : first.flatMap Token.arguments = [])
    {xs : List (List (Token Empty))} {ts : List Shape}
    (h : xs.map (List.flatMap Token.arguments)
      = ts.map shapeAlphabet.tokens) :
    (separated first [separator] xs).flatMap Token.arguments
      = shapeAlphabet.tokensInside kind ts := by
  rw [flatMap_separated, hfirst, h, Brackets.Alphabet.tokensInside_eq,
    List.flatMap_singleton, hseparator]

mutual

/-- The arguments of a value without strings are the tokens of its shape, by
induction over the value: for its elements and entries by the theorems below,
which go through the lists. -/
theorem arguments_eq_tokens : ∀ (v : Value Empty) (t : Shape),
    v.shape = some t →
    v.tokens.flatMap Token.arguments = shapeAlphabet.tokens t
  | .native v, t, h => by
      rw [shape, Option.map_eq_some_iff] at h
      obtain ⟨a, ha, rfl⟩ := h
      rw [tokens, List.flatMap_singleton, Brackets.Alphabet.tokens]
      exact arguments_scalarOf ha
  | .duration d count, t, h => by
      cases h
      rw [Brackets.Alphabet.tokens]
      cases d <;> rfl
  | .sequence type elements, t, h => by
      rw [shape, Option.map_eq_some_iff] at h
      obtain ⟨ts, hts, rfl⟩ := h
      rw [tokens, List.flatMap_cons, List.flatMap_append,
        flatMap_elements _ .array rfl rfl
          (arguments_eq_tokensOfEach elements ts hts),
        Brackets.Alphabet.tokens]
      rfl
  | .map elements, t, h => by
      rw [shape, Option.map_eq_some_iff] at h
      obtain ⟨ts, hts, rfl⟩ := h
      rw [tokens, List.flatMap_cons, List.flatMap_append,
        flatMap_elements _ .map rfl rfl
          (arguments_eq_tokensOfEachEntry elements ts hts),
        Brackets.Alphabet.tokens]
      rfl
  | .tuple elements, t, h => by
      rw [shape, Option.map_eq_some_iff] at h
      obtain ⟨ts, hts, rfl⟩ := h
      rw [tokens, List.flatMap_cons, List.flatMap_append,
        flatMap_elements _ .tuple rfl rfl
          (arguments_eq_tokensOfEach elements ts hts),
        Brackets.Alphabet.tokens]
      rfl
  | .variant v, t, h => by
      rw [shape] at h
      rw [tokens]
      exact arguments_eq_tokens v t h
  | .optional (some v), t, h => by
      rw [shape, shapeOfOptional] at h
      rw [tokens, tokensOfOptional]
      exact arguments_eq_tokens v t h
  | .optional none, t, h => by
      cases h
      rw [Brackets.Alphabet.tokens]
      rfl

/-- Those of its elements, -/
theorem arguments_eq_tokensOfEach :
    ∀ (vs : List (Value Empty)) (ts : List Shape),
    shapeOfEach vs = some ts →
    (tokensOfEach vs).map (List.flatMap Token.arguments)
      = ts.map shapeAlphabet.tokens
  | [], ts, h => by
      cases h
      rfl
  | v :: vs, ts, h => by
      rw [shapeOfEach, Option.bind_eq_some_iff] at h
      obtain ⟨t, ht, h⟩ := h
      rw [Option.map_eq_some_iff] at h
      obtain ⟨ts, hts, rfl⟩ := h
      rw [tokensOfEach, List.map_cons, List.map_cons,
        arguments_eq_tokens v t ht, arguments_eq_tokensOfEach vs ts hts]

/-- and of its entries, each of which is a node of two. -/
theorem arguments_eq_tokensOfEachEntry :
    ∀ (es : List (Value Empty × Value Empty)) (ts : List Shape),
    shapeOfEachEntry es = some ts →
    (tokensOfEachEntry es).map (List.flatMap Token.arguments)
      = ts.map shapeAlphabet.tokens
  | [], ts, h => by
      cases h
      rfl
  | (first, second) :: es, ts, h => by
      rw [shapeOfEachEntry, shapeOfEntry, Option.bind_eq_some_iff] at h
      obtain ⟨t, ht, h⟩ := h
      rw [Option.bind_eq_some_iff] at ht
      obtain ⟨t₁, hfirst, ht⟩ := ht
      rw [Option.map_eq_some_iff] at ht h
      obtain ⟨t₂, hsecond, rfl⟩ := ht
      obtain ⟨ts, hts, rfl⟩ := h
      rw [tokensOfEachEntry, tokensOfEntry, List.map_cons, List.map_cons,
        arguments_eq_tokensOfEachEntry es ts hts, List.flatMap_cons,
        List.flatMap_append, List.flatMap_append, List.flatMap_cons,
        arguments_eq_tokens first t₁ hfirst,
        arguments_eq_tokens second t₂ hsecond, Brackets.Alphabet.tokens,
        Brackets.Alphabet.tokensInside_eq]
      simp only [List.map_cons, List.map_nil, separated, List.nil_append,
        List.flatMap_cons, List.flatMap_nil, List.append_nil]
      rfl

end

/-- The same for the values of a statement. -/
theorem arguments_of_shapes {vs : List (Value Empty)} {ts : List Shape}
    (h : vs.map shape = ts.map some) :
    (vs.flatMap writes).flatMap NativeValue.arguments
      = ts.flatMap shapeAlphabet.tokens := by
  induction vs generalizing ts with
  | nil =>
      cases ts with
      | nil => rfl
      | cons t ts => cases h
  | cons v vs ih =>
      cases ts with
      | nil => cases h
      | cons t ts =>
          rw [List.map_cons, List.map_cons] at h
          obtain ⟨hfirst, hrest⟩ := List.cons.inj h
          rw [List.flatMap_cons, List.flatMap_append, ih hrest,
            List.flatMap_cons, arguments_writes,
            arguments_eq_tokens v t hfirst]

end Value

-- ============================================================== the payload

/-- A map from a number to an empty optional, and a duration. -/
def sampleValues : List (Value Empty) :=
  [.map [(.native (.int 1), .optional none)], .duration .seconds 5]

/-- Their shapes. -/
def sampleShapes : List Shape :=
  [.node .map [.node .entry
      [.leaf (.scalar (.sint .bit32) 1), .leaf .noValue]],
    .leaf (.duration .seconds 5)]

/-- The same, with a variant and an optional around it. -/
def sampleWrapped : List (Value Empty) :=
  [.variant (.map [(.optional (some (.native (.int 1))), .optional none)]),
    .duration .seconds 5]

theorem sampleMessage_stays_open {vs : List (Value Empty)}
    (h : (DltCpp.Message.calls {} false
      ((vs.flatMap Value.writes).map NativeValue.dltCppCall)).full = false) :
    (@dltCppMessage DltCpp.documentedConstants sampleMessage
      (vs.flatMap Value.writes)).isFull = false := by
  have hrep := @DltCpp.represents_fresh DltCpp.documentedDltUser
    (Vector.replicate maxMessageSize 255) 0 sampleInfo 4 true 0
  exact (@Represents.isFull DltCpp.documentedDltUser _ _
    (@Represents.calls DltCpp.documentedDltUser _ _ hrep
      ((vs.flatMap Value.writes).map NativeValue.dltCppCall))).trans h

end IviLogging
