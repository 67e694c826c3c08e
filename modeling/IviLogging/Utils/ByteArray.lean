/-
The byte array of the stream backends (`ByteArray`).

# The two buffers

It has a static buffer of 512 bytes with a length of its own, and from the
first size that does not fit a vector on the heap, for good; the length
field is then set to -1. What is behind the size is memory all the same: a
shrink only moves a length, and a C function that is handed `getData()`
reads on to the next NUL. So a vector has its elements and the bytes known
to be behind them (`CharVector.spare`); a static buffer starts with any
bytes.

# Programs

An operation that does not come to its end, because an assertion fails,
the vector would get longer than `max_size()` or a copy would leave the
memory, is `none`. A program (`Op`) has any number of arrays, makes new
ones as copies and assigns one to another.
-/
import IviLogging.Lib.Buffer
import Mathlib.Algebra.Ring.Nat

namespace IviLogging

-- ============================================================= the parts

/-- `sizeof(m_staticData)`. -/
def staticSize : Nat := 512

/-- `std::array<char, 512>`. -/
structure StaticData where
  bytes : List UInt8
  length_eq : bytes.length = staticSize

/-- The buffer after a copy into it. -/
def StaticData.write (d : StaticData) (off : Nat) (src : List UInt8)
    (h : off + src.length ≤ staticSize) : StaticData where
  bytes := Buffer.write d.bytes off src
  length_eq := by
    rw [Buffer.length_write (by rw [d.length_eq]; exact h), d.length_eq]

/-- `std::vector<char>`: the elements, and what is known of the memory
behind them. -/
structure CharVector where
  elements : List UInt8 := []
  spare : List UInt8 := []

/-- `max_size()` of a vector of bytes. -/
def charVectorMaxSize : Nat := 2 ^ 63 - 1

/-- `resize` of a vector: a shrink leaves the bytes where they are, and new
elements are zero. -/
def CharVector.resize (v : CharVector) (n : Nat) : CharVector :=
  if n ≤ v.elements.length then
    ⟨v.elements.take n, v.elements.drop n ++ v.spare⟩
  else
    ⟨v.elements ++ List.replicate (n - v.elements.length) 0,
      v.spare.drop (n - v.elements.length)⟩

-- ========================================================== the byte array

/-- `ByteArray`. -/
structure ByteArray where
  dynamicData : Option CharVector
  staticData : StaticData
  length : Nat

namespace ByteArray

/-- `ByteArray()`, over whatever the memory held. -/
def fresh (memory : StaticData) : ByteArray := ⟨none, memory, 0⟩

/-- `usesStaticBuffer`. -/
def usesStaticBuffer (a : ByteArray) : Bool := a.dynamicData.isNone

/-- `size`. -/
def size (a : ByteArray) : Nat :=
  match a.dynamicData with
  | none => a.length
  | some v => v.elements.length

/-- `capacity`. -/
def capacity (a : ByteArray) : Nat :=
  match a.dynamicData with
  | none => staticSize
  | some v => v.elements.length

/-- The memory at `getData()`. -/
def getData (a : ByteArray) : List UInt8 :=
  match a.dynamicData with
  | none => a.staticData.bytes
  | some v => v.elements ++ v.spare

/-- The bytes of the array. -/
def contents (a : ByteArray) : List UInt8 := a.getData.take a.size

/-- `resize`. -/
def resize (a : ByteArray) (n : Nat) : Option ByteArray :=
  match a.dynamicData with
  | some v =>
      if n ≤ charVectorMaxSize then
        some { a with dynamicData := some (v.resize n) }
      else none
  | none =>
      if n ≤ staticSize then some { a with length := n }
      else if n ≤ charVectorMaxSize then
        let v := ({} : CharVector).resize n
        some { a with
          dynamicData := some { v with
            elements := Buffer.write v.elements 0
              (a.staticData.bytes.take a.length) }
          length := 2 ^ 64 - 1 }
      else none

/-- A copy of some bytes to `getData() + off`. -/
def store (a : ByteArray) (off : Nat) (src : List UInt8) : Option ByteArray :=
  match a.dynamicData with
  | some v =>
      if off + src.length ≤ v.elements.length then
        some { a with
          dynamicData := some { v with
            elements := Buffer.write v.elements off src } }
      else none
  | none =>
      if h : off + src.length ≤ staticSize then
        some { a with staticData := a.staticData.write off src h }
      else none

/-- `append`, of a buffer or of a byte. -/
def append (a : ByteArray) (src : List UInt8) : Option ByteArray :=
  (a.resize ((a.size + src.length) % 2 ^ 64)).bind fun b =>
    b.store a.size src

/-- `ByteArray(ByteArray const&)`, over whatever the memory held. -/
def copyConstruct (memory : StaticData) (b : ByteArray) : Option ByteArray :=
  (fresh memory).append b.contents

/-- `operator=`, from another array. -/
def assign (a right : ByteArray) : Option ByteArray :=
  (a.resize right.size).bind fun a => a.store 0 right.contents

/-- `writeAt`. -/
def writeAt (a : ByteArray) (position : Nat) (src : List UInt8) :
    Option ByteArray :=
  if (position + src.length) % 2 ^ 64 ≤ a.length then a.store position src
  else none

/-- `a[index] = v`. -/
def setAt (a : ByteArray) (index : Nat) (v : UInt8) : Option ByteArray :=
  if index < a.length then a.store index [v] else none

-- =============================================================== programs

/-- An operation on the arrays of a program, by their number. -/
inductive Op
  | construct (memory : StaticData)
  | copyConstruct (memory : StaticData) (j : Nat)
  | assign (i j : Nat)
  | resize (i n : Nat)
  | append (i : Nat) (src : List UInt8)
  | appendByte (i : Nat) (v : UInt8)
  | writeAt (i position : Nat) (src : List UInt8)
  | setAt (i index : Nat) (v : UInt8)

/-- An operation on one of some objects. -/
def updateAt {σ : Type*} (xs : List σ) (i : Nat) (f : σ → Option σ) :
    Option (List σ) :=
  xs[i]?.bind fun x => (f x).map fun x' => xs.set i x'

/-- The arrays after an operation. An array is not assigned to itself: its
own bytes would be the source of the copy. -/
def step (arrays : List ByteArray) : Op → Option (List ByteArray)
  | .construct memory => some (arrays ++ [fresh memory])
  | .copyConstruct memory j =>
      arrays[j]?.bind fun b => (copyConstruct memory b).map fun a =>
        arrays ++ [a]
  | .assign i j =>
      if i = j then none
      else arrays[j]?.bind fun b => updateAt arrays i fun a => a.assign b
  | .resize i n => updateAt arrays i fun a => a.resize n
  | .append i src => updateAt arrays i fun a => a.append src
  | .appendByte i v => updateAt arrays i fun a => a.append [v]
  | .writeAt i position src => updateAt arrays i fun a => a.writeAt position src
  | .setAt i index v => updateAt arrays i fun a => a.setAt index v

end ByteArray

end IviLogging
