/-
What a value is streamed as, on paper.

# Tokens

A value is a row of tokens: the native values in it and the texts around
them (`tokens`). A container is its elements with commas between them
(`separated`), in its brackets; an optional or a variant is what it holds.
There is no first element here to be told from the others by a flag.

# What comes of them

From the tokens come the text of a value on the console (`text`), its
arguments in a message (`arguments`), and its shape (`tree`), which is all
that a reader of the message can hope to get back: which native values
there were is only known by the type words of DLT, and two containers with
the same brackets are the same to it.
-/
import IviLogging.DltCpp.Verbose
import IviLogging.Lib.Brackets
import IviLogging.Value
import IviLogging.Stream.Line

namespace IviLogging

open Brackets (separated)

-- ================================================================== tokens

/-- What an operator hands to the log. -/
inductive Token (U : Type)
  | write (v : NativeValue)
  | unsupported (v : U)

namespace Value

open Literal

variable {U : Type}

/-- A string literal. -/
def literalToken (s : NulFree) : Token U := .write (.stringView s)

/-- A pointer to a string literal. -/
def pointerToken (s : NulFree) : Token U := .write (.cString s)

mutual

/-- The tokens of a value. -/
def tokens : Value U → List (Token U)
  | .native v => [.write v]
  | .literal v => [literalToken v]
  | .stringBuilder str => [.write (.string str)]
  | .exception what => [.write (.cString what)]
  | .timePoint str => [.write (.string str)]
  | .duration d count => [.write (.long count), literalToken d.unit]
  | .sequence _ elements =>
      literalToken openArray
        :: (separated [] [literalToken comma] (tokensOfEach elements)
          ++ [literalToken closeArray])
  | .map elements =>
      literalToken openMap
        :: (separated [] [literalToken comma] (tokensOfEachEntry elements)
          ++ [literalToken closeMap])
  | .tuple elements =>
      literalToken openTuple
        :: (separated [pointerToken nothing] [pointerToken comma]
            (tokensOfEach elements)
          ++ [literalToken closeTuple])
  | .variant v => tokens v
  | .optional v => tokensOfOptional v
  | .unsupported v => [.unsupported v]

/-- The tokens of some values, each by itself. -/
def tokensOfEach : List (Value U) → List (List (Token U))
  | [] => []
  | v :: vs => tokens v :: tokensOfEach vs

/-- The tokens of the elements of a map, each by itself. -/
def tokensOfEachEntry : List (Value U × Value U) → List (List (Token U))
  | [] => []
  | e :: es =>
      (literalToken openEntry :: (tokensOfEntry e ++ [literalToken closeEntry]))
        :: tokensOfEachEntry es

/-- A key and its value. -/
def tokensOfEntry : Value U × Value U → List (Token U)
  | (first, second) => tokens first ++ literalToken equals :: tokens second

/-- What an optional holds, or that it is empty. -/
def tokensOfOptional : Option (Value U) → List (Token U)
  | some v => tokens v
  | none => [literalToken noValue]

end

end Value

-- ============================================================= replacements

namespace Value

variable {U : Type} (f : U → NativeValue)

mutual

/-- A value with a native one in place of each unsupported part. -/
def replaced : Value U → Value Empty
  | .native v => .native v
  | .literal v => .literal v
  | .stringBuilder str => .stringBuilder str
  | .exception what => .exception what
  | .timePoint str => .timePoint str
  | .duration d count => .duration d count
  | .sequence type elements => .sequence type (replacedEach elements)
  | .map elements => .map (replacedEachEntry elements)
  | .tuple elements => .tuple (replacedEach elements)
  | .variant v => .variant (replaced v)
  | .optional v => .optional (replacedOptional v)
  | .unsupported v => .native (f v)

/-- The same for some values. -/
def replacedEach : List (Value U) → List (Value Empty)
  | [] => []
  | v :: vs => replaced v :: replacedEach vs

/-- The same for the elements of a map. -/
def replacedEachEntry :
    List (Value U × Value U) → List (Value Empty × Value Empty)
  | [] => []
  | e :: es => replacedEntry e :: replacedEachEntry es

/-- The same for a key and its value. -/
def replacedEntry : Value U × Value U → Value Empty × Value Empty
  | (first, second) => (replaced first, replaced second)

/-- The same for what an optional holds. -/
def replacedOptional : Option (Value U) → Option (Value Empty)
  | some v => some (replaced v)
  | none => none

end

end Value

-- ================================================================== writes

/-- A token of a value without unsupported types. -/
def Token.native : Token Empty → NativeValue
  | .write v => v

/-- The native values that an entry is handed. -/
def Value.writes (v : Value Empty) : List NativeValue :=
  v.tokens.map Token.native

/-- What an item asks of the entry. -/
inductive Op
  | write (v : NativeValue)
  | setHexEnabled (enabled : Bool)

/-- The operations of an item. -/
def Item.ops : Item → List Op
  | value v => v.writes.map .write
  | endl => [.write (.stringView Literal.newline)]
  | hex => [.setHexEnabled true]
  | dec => [.setHexEnabled false]
  | ends => []
  | flush => []

namespace Op

/-- The action on a record of the stream backends. -/
def streamAction : Op → Stream.Action
  | write v => .write v.streamCall
  | setHexEnabled enabled => .write (.setHexEnabled enabled)

/-- The call of a message of DltCpp. -/
def dltCppCall : Op → DltCpp.WriteCall
  | write v => v.dltCppCall
  | setHexEnabled enabled => .setHexEnabled enabled

/-- The hex switch behind an operation. -/
def hexAfter (hex : Bool) : Op → Bool
  | write _ => hex
  | setHexEnabled enabled => enabled

/-- The text of an operation on the console. -/
def text (hex : Bool) : Op → List UInt8
  | write v => v.streamCall.text hex
  | setHexEnabled _ => []

/-- The arguments of an operation in a message: an empty string leaves
none. -/
def arguments (hex : Bool) : Op → List DltCpp.Arg
  | write v =>
      match v.dltCppCall.arg hex with
      | some (.strg []) => []
      | some a => [a]
      | none => []
  | setHexEnabled _ => []

/-- The texts of some operations. -/
def texts : Bool → List Op → List UInt8
  | _, [] => []
  | hex, op :: ops => op.text hex ++ texts (op.hexAfter hex) ops

/-- The arguments of some operations. -/
def argumentsOf : Bool → List Op → List DltCpp.Arg
  | _, [] => []
  | hex, op :: ops => op.arguments hex ++ argumentsOf (op.hexAfter hex) ops

end Op

-- =================================================================== shapes

/-- The nodes of a shape. -/
inductive Bracket
  | array | map | entry | tuple
  deriving DecidableEq

/-- The leaves of a shape: what is written of a native value, a duration,
and an optional that is empty. -/
inductive Leaf
  | scalar (type : DltCpp.ScalarType) (bits : BitVec (8 * type.bytes))
  | duration (d : Duration) (count : Int64)
  | noValue

/-- The shape of a value: which container of its kind it is, and if it came
in a variant or an optional, leaves no trace. -/
abbrev Shape := Brackets.Tree Bracket Leaf

namespace Value

/-- A native value that is no string leaves its scalar. -/
def scalarOf (v : NativeValue) : Option Leaf :=
  match v.dltCppCall.arg false with
  | some (.scalar type bits) => some (.scalar type bits)
  | _ => none

mutual

/-- The shape of a value; `none` if there is a string in it, which may be
taken for anything. -/
def shape : Value Empty → Option Shape
  | .native v => (scalarOf v).map .leaf
  | .duration d count => some (.leaf (.duration d count))
  | .sequence _ elements => (shapeOfEach elements).map (.node .array)
  | .map elements => (shapeOfEachEntry elements).map (.node .map)
  | .tuple elements => (shapeOfEach elements).map (.node .tuple)
  | .variant v => shape v
  | .optional v => shapeOfOptional v
  | _ => none

/-- The shapes of some values. -/
def shapeOfEach : List (Value Empty) → Option (List Shape)
  | [] => some []
  | v :: vs => (shape v).bind fun t => (shapeOfEach vs).map (t :: ·)

/-- The shapes of the elements of a map. -/
def shapeOfEachEntry :
    List (Value Empty × Value Empty) → Option (List Shape)
  | [] => some []
  | e :: es => (shapeOfEntry e).bind fun t =>
      (shapeOfEachEntry es).map (t :: ·)

/-- The shape of a key and its value. -/
def shapeOfEntry : Value Empty × Value Empty → Option Shape
  | (first, second) => (shape first).bind fun t =>
      (shape second).map fun u => .node .entry [t, u]

/-- The shape of what an optional holds. -/
def shapeOfOptional : Option (Value Empty) → Option Shape
  | some v => shape v
  | none => some (.leaf .noValue)

end

end Value

end IviLogging
