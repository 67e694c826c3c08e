/-
A value is streamed as its tokens.

The operators for containers, tuples, variants and optionals write brackets
and commas around what they contain, and hand the elements on to the other
operators. Whatever the log is, in the end it gets a list of tokens.

# The operators

Each operator hands the tokens of its value to the log, in order
(`insert_eq`), by recursion over the value with one theorem for each loop.
The loops put a comma in front of every element but the first; that is what
`separated` says, with the comma in front of the first one, or none, as the
switch `isFirst` has it. A tuple has an empty text in front of its first
element, which is a token as well.

# Replacements

In front of a `LogNoFail`, a part of a value that has no overload is
written as a text. The tokens of a value with replacements are the replaced
tokens (`tokens_replaced`), so a value writes what it writes with each
unsupported part replaced, whatever it is in (`noFail_replaces`).

The other use of the tokens is that the entry of a `DefaultLogContext` gets
the same operations for both backends.
-/
import IviLogging.DltCpp.Proofs.Payload
import IviLogging.Proofs.Agreement
import IviLogging.Tokens

namespace IviLogging

open Brackets (separated separated_self map_separated)

-- ================================================================ operators

section Operators

variable {L U : Type} [LogType L U]

/-- A token is handed to the log. -/
def Token.put (log : L) : Token U → L
  | .write v => LogType.write log v
  | .unsupported v => LogType.writeUnsupported log v

namespace Value

open Literal

/-- The log behind some tokens. -/
def putAll (log : L) (ts : List (Token U)) : L := ts.foldl Token.put log

/-- Some tokens, and some more. -/
theorem putAll_append (log : L) (ts us : List (Token U)) :
    putAll log (ts ++ us) = putAll (putAll log ts) us :=
  List.foldl_append

theorem putAll_cons (log : L) (t : Token U) (ts : List (Token U)) :
    putAll log (t :: ts) = putAll (Token.put log t) ts := rfl

mutual

/-- An operator hands the tokens of its value to the log. -/
theorem insert_eq : ∀ (v : Value U) (log : L),
    v.insert log = putAll log v.tokens
  | .native v, log => rfl
  | .literal v, log => rfl
  | .stringBuilder str, log => rfl
  | .exception what, log => rfl
  | .timePoint str, log => rfl
  | .duration d count, log => rfl
  | .sequence type elements, log => by
      rw [insert, streamArrayLoop_eq, tokens, putAll_cons, putAll_append]
      rfl
  | .map elements, log => by
      rw [insert, streamMapLoop_eq, tokens, putAll_cons, putAll_append]
      rfl
  | .tuple elements, log => by
      rw [insert, printTupleLoop_eq, tokens, putAll_cons, putAll_append]
      rfl
  | .variant v, log => by
      rw [insert, tokens]
      exact insert_eq v log
  | .optional v, log => by
      rw [insert, tokens]
      exact insertOptional_eq v log
  | .unsupported v, log => rfl

/-- The loop over the elements of a sequence, -/
theorem streamArrayLoop_eq : ∀ (vs : List (Value U)) (isFirst : Bool)
    (log : L), streamArrayLoop isFirst log vs = putAll log
      (separated (if isFirst then [] else [literalToken comma])
        [literalToken comma] (tokensOfEach vs))
  | [], isFirst, log => rfl
  | v :: vs, isFirst, log => by
      -- behind an element the others have a comma in front of each
      rw [streamArrayLoop, streamArrayLoop_eq vs, insert_eq v, tokensOfEach,
        separated, putAll_append, putAll_append]
      simp only [Bool.false_eq_true, if_false]
      rw [separated_self]
      cases isFirst with
      | true => rfl
      | false => rfl

/-- over the entries of a map, -/
theorem streamMapLoop_eq : ∀ (es : List (Value U × Value U))
    (isFirst : Bool) (log : L), streamMapLoop isFirst log es = putAll log
      (separated (if isFirst then [] else [literalToken comma])
        [literalToken comma] (tokensOfEachEntry es))
  | [], isFirst, log => rfl
  | e :: es, isFirst, log => by
      rw [streamMapLoop, streamMapLoop_eq es, insertEntry_eq e,
        tokensOfEachEntry, separated, putAll_append, putAll_append,
        putAll_cons, putAll_append]
      simp only [Bool.false_eq_true, if_false]
      rw [separated_self]
      cases isFirst with
      | true => rfl
      | false => rfl

/-- an entry, -/
theorem insertEntry_eq : ∀ (e : Value U × Value U) (log : L),
    insertEntry log e = putAll log (tokensOfEntry e)
  | (first, second), log => by
      rw [insertEntry, insert_eq first, insert_eq second, tokensOfEntry,
        putAll_append, putAll_cons]
      rfl

/-- the elements of a tuple, of which the first has an empty text in front, -/
theorem printTupleLoop_eq : ∀ (vs : List (Value U)) (I : Nat) (log : L),
    printTupleLoop I log vs = putAll log
      (separated [pointerToken (if I = 0 then nothing else comma)]
        [pointerToken comma] (tokensOfEach vs))
  | [], I, log => rfl
  | v :: vs, I, log => by
      rw [printTupleLoop, printTupleLoop_eq vs, insert_eq v, tokensOfEach,
        separated, putAll_append, putAll_append, if_neg (Nat.succ_ne_zero I),
        separated_self]
      rfl

/-- and an optional. -/
theorem insertOptional_eq : ∀ (v : Option (Value U)) (log : L),
    insertOptional log v = putAll log (tokensOfOptional v)
  | some v, log => by
      rw [insertOptional, tokensOfOptional]
      exact insert_eq v log
  | none, log => rfl

end

end Value

end Operators

-- ============================================================= replacements

/-- A token with a native value in place of an unsupported one. -/
def Token.replaced {U : Type} (f : U → NativeValue) : Token U → Token Empty
  | .write v => .write v
  | .unsupported v => .write (f v)

namespace Value

section Replaced

variable {U : Type} (f : U → NativeValue)

mutual

/-- The tokens of a value with replacements are replaced tokens, by induction
over the value: the brackets, the commas and the native values in between
are as they were. -/
theorem tokens_replaced : ∀ v : Value U,
    (v.replaced f).tokens = v.tokens.map (Token.replaced f)
  | .native v => rfl
  | .literal v => rfl
  | .stringBuilder str => rfl
  | .exception what => rfl
  | .timePoint str => rfl
  | .duration d count => rfl
  | .sequence type elements => by
      simp only [replaced, tokens, List.map_cons, List.map_append,
        map_separated, tokensOfEach_replaced elements]
      rfl
  | .map elements => by
      simp only [replaced, tokens, List.map_cons, List.map_append,
        map_separated, tokensOfEachEntry_replaced elements]
      rfl
  | .tuple elements => by
      simp only [replaced, tokens, List.map_cons, List.map_append,
        map_separated, tokensOfEach_replaced elements]
      rfl
  | .variant v => by
      rw [replaced, tokens, tokens]
      exact tokens_replaced v
  | .optional v => by
      rw [replaced, tokens, tokens]
      exact tokensOfOptional_replaced v
  | .unsupported v => rfl

/-- Those of its elements, -/
theorem tokensOfEach_replaced : ∀ vs : List (Value U),
    tokensOfEach (replacedEach f vs)
      = (tokensOfEach vs).map (List.map (Token.replaced f))
  | [] => rfl
  | v :: vs => by
      simp only [replacedEach, tokensOfEach, List.map_cons,
        tokens_replaced v, tokensOfEach_replaced vs]

/-- of its entries, -/
theorem tokensOfEachEntry_replaced : ∀ es : List (Value U × Value U),
    tokensOfEachEntry (replacedEachEntry f es)
      = (tokensOfEachEntry es).map (List.map (Token.replaced f))
  | [] => rfl
  | e :: es => by
      simp only [replacedEachEntry, tokensOfEachEntry, List.map_cons,
        List.map_append, tokensOfEntry_replaced e,
        tokensOfEachEntry_replaced es]
      rfl

/-- of one of them, -/
theorem tokensOfEntry_replaced : ∀ e : Value U × Value U,
    tokensOfEntry (replacedEntry f e)
      = (tokensOfEntry e).map (Token.replaced f)
  | (first, second) => by
      simp only [replacedEntry, tokensOfEntry, List.map_cons,
        List.map_append, tokens_replaced first, tokens_replaced second]
      rfl

/-- and of what may be in an optional. -/
theorem tokensOfOptional_replaced : ∀ v : Option (Value U),
    tokensOfOptional (replacedOptional f v)
      = (tokensOfOptional v).map (Token.replaced f)
  | some v => by
      rw [replacedOptional, tokensOfOptional, tokensOfOptional]
      exact tokens_replaced v
  | none => rfl

end

end Replaced

/-- The tokens in front of a `LogNoFail`. -/
theorem putAll_noFail {L : Type} [LogType L Empty] (text : NulFree)
    (log : L) (ts : List (Token Unit)) :
    putAll (enableUnsupportedTypes log text) ts
      = enableUnsupportedTypes (putAll log
        (ts.map (Token.replaced fun _ => .stringView text))) text := by
  induction ts generalizing log with
  | nil => rfl
  | cons t ts ih =>
      rw [List.map_cons, putAll_cons, putAll_cons, ← ih]
      cases t with
      | write v => rfl
      | unsupported v => rfl

/-- The values streamed into a `LogNoFail` write what they write without
it, with the text in place of each unsupported part, whatever it is in. -/
theorem noFail_replaces {L : Type} [LogType L Empty] (log : L)
    (text : NulFree) (vs : List (Value Unit)) :
    vs.foldl insert (enableUnsupportedTypes log text)
      = enableUnsupportedTypes
        ((vs.map (replaced fun _ => .stringView text)).foldl insert log)
        text := by
  induction vs generalizing log with
  | nil => rfl
  | cons v vs ih =>
      rw [List.map_cons, List.foldl_cons, List.foldl_cons, ← ih,
        insert_eq v, putAll_noFail, insert_eq (v.replaced _),
        tokens_replaced]

end Value

end IviLogging
