/-
Fixed-width numbers as byte lists, least significant byte first.

# Numbers

`encode n v` keeps the low `n` bytes of `v`; `decode` reads any byte
list back as a number. The two are inverse up to the width
(`decode_encode`, `encode_decode`), and reversing a byte list swaps the
byte order of the number it spells, which is what `swap` names.

# Words

The typed words at the bottom are the widths a packed C structure is
made of: each is written at its own size and read back unchanged.
-/
import Mathlib.Algebra.Ring.Nat

namespace LittleEndian

-- ===================================================== numbers as bytes

/-- The low `n` bytes of `v`, least significant first. -/
def encode : Nat → Nat → List UInt8
  | 0, _ => []
  | n + 1, v => UInt8.ofNat v :: encode n (v / 256)

/-- The number a byte list spells, least significant byte first. -/
def decode : List UInt8 → Nat
  | [] => 0
  | b :: bs => b.toNat + 256 * decode bs

@[simp] theorem length_encode (n v : Nat) : (encode n v).length = n := by
  induction n generalizing v with
  | zero => rfl
  | succ n ih => simp [encode, ih]

/-- Reading back what was written keeps the value modulo its width. -/
theorem decode_encode (n v : Nat) : decode (encode n v) = v % 256 ^ n := by
  induction n generalizing v with
  | zero => simp [encode, decode, Nat.mod_one]
  | succ n ih =>
      have hb : (UInt8.ofNat v).toNat = v % 256 := by simp
      rw [encode, decode, ih, hb, Nat.pow_succ', Nat.mod_mul]

/-- A value that fits its width survives the round trip. -/
theorem decode_encode_of_lt {n v : Nat} (h : v < 256 ^ n) :
    decode (encode n v) = v := by
  rw [decode_encode, Nat.mod_eq_of_lt h]

/-- A list of `n` bytes spells a number below `256 ^ n`. -/
theorem decode_lt (bs : List UInt8) : decode bs < 256 ^ bs.length := by
  induction bs with
  | nil => simp [decode]
  | cons b bs ih =>
      have hb : b.toNat < 256 := b.toNat_lt
      rw [decode, List.length_cons, Nat.pow_succ']
      omega

/-- Every byte list is the encoding of the number it spells. -/
theorem encode_decode (bs : List UInt8) :
    encode bs.length (decode bs) = bs := by
  induction bs with
  | nil => rfl
  | cons b bs ih =>
      have hb : b.toNat < 256 := b.toNat_lt
      have hhead : UInt8.ofNat (b.toNat + 256 * decode bs) = b := by
        rw [← UInt8.toNat_inj, UInt8.toNat_ofNat']
        omega
      have htail : (b.toNat + 256 * decode bs) / 256 = decode bs := by
        omega
      rw [List.length_cons, decode, encode, hhead, htail, ih]

/-- Only the low bytes are written. -/
theorem encode_mod (n v : Nat) : encode n (v % 256 ^ n) = encode n v := by
  -- the bytes that were written are those of the number they spell
  have h := encode_decode (encode n v)
  rwa [length_encode, decode_encode] at h

-- ========================================================== byte order

/-- The number whose `n` bytes are those of `v` in the other order. -/
def swap (n v : Nat) : Nat := decode (encode n v).reverse

/-- The bytes of the swapped number are the bytes in the other order. -/
theorem encode_swap (n v : Nat) :
    encode n (swap n v) = (encode n v).reverse := by
  have h := encode_decode (encode n v).reverse
  rwa [List.length_reverse, length_encode] at h

/-- A swapped number has the same width. -/
theorem swap_lt (n v : Nat) : swap n v < 256 ^ n := by
  have h := decode_lt (encode n v).reverse
  rwa [List.length_reverse, length_encode] at h

/-- Swapping twice gives the value back. -/
theorem swap_swap {n v : Nat} (h : v < 256 ^ n) : swap n (swap n v) = v := by
  rw [swap, encode_swap, List.reverse_reverse, decode_encode_of_lt h]

-- ========================================================= typed words

/-- A 16-bit word in memory. -/
def ofUInt16 (v : UInt16) : List UInt8 := encode 2 v.toNat

/-- A 32-bit word in memory. -/
def ofUInt32 (v : UInt32) : List UInt8 := encode 4 v.toNat

/-- A signed 32-bit word in memory. -/
def ofInt32 (v : Int32) : List UInt8 := ofUInt32 v.toUInt32

/-- The 16-bit word that two bytes of memory hold. -/
def toUInt16 (bs : List UInt8) : UInt16 := UInt16.ofNat (decode bs)

/-- The 32-bit word that four bytes of memory hold. -/
def toUInt32 (bs : List UInt8) : UInt32 := UInt32.ofNat (decode bs)

/-- The signed 32-bit word that four bytes of memory hold. -/
def toInt32 (bs : List UInt8) : Int32 := (toUInt32 bs).toInt32

@[simp] theorem length_ofUInt16 (v : UInt16) : (ofUInt16 v).length = 2 :=
  length_encode 2 _

@[simp] theorem length_ofUInt32 (v : UInt32) : (ofUInt32 v).length = 4 :=
  length_encode 4 _

@[simp] theorem length_ofInt32 (v : Int32) : (ofInt32 v).length = 4 :=
  length_ofUInt32 _

@[simp] theorem toUInt16_ofUInt16 (v : UInt16) :
    toUInt16 (ofUInt16 v) = v := by
  unfold toUInt16 ofUInt16
  rw [decode_encode_of_lt (by have := v.toNat_lt; omega)]
  simp

@[simp] theorem toUInt32_ofUInt32 (v : UInt32) :
    toUInt32 (ofUInt32 v) = v := by
  unfold toUInt32 ofUInt32
  rw [decode_encode_of_lt (by have := v.toNat_lt; omega)]
  simp

@[simp] theorem toInt32_ofInt32 (v : Int32) : toInt32 (ofInt32 v) = v := by
  unfold toInt32 ofInt32
  rw [toUInt32_ofUInt32]
  simp

end LittleEndian
