/-
Cuts of a UTF-8 text.

A list of bytes is valid if it encodes some characters, in the sense of
the library's own strings. A cut of a valid text is valid exactly if it is
at a boundary: at the end, or in front of the first byte of a character
(`valid_take_iff`), which is the library's own account of the positions in
a string, said of the bytes. A character of seven bits is a byte of its own,
so a cut in front of one always is: the front of a text up to its first NUL
is a text (`valid_takeWhile`).
-/
import Mathlib.Data.List.TakeWhile

namespace Utf8

/-- The bytes encode some characters. -/
def Valid (bytes : List UInt8) : Prop := bytes.toByteArray.IsValidUTF8

/-- A cut behind `n` bytes goes through no character. -/
def Boundary (bytes : List UInt8) (n : Nat) : Prop :=
  bytes.length ≤ n ∨ ∃ h : n < bytes.length, bytes[n].IsUTF8FirstByte

instance (bytes : List UInt8) : Decidable (Valid bytes) :=
  inferInstanceAs (Decidable bytes.toByteArray.IsValidUTF8)

instance (bytes : List UInt8) (n : Nat) : Decidable (Boundary bytes n) :=
  inferInstanceAs (Decidable (_ ∨ _))

/-- A cut of the array is one of the list. -/
theorem extract_toByteArray (bytes : List UInt8) (n : Nat) :
    bytes.toByteArray.extract 0 n = (bytes.take n).toByteArray := by
  ext1
  simp

/-- A cut is valid at the boundaries of characters. Behind the end nothing is
cut; in front of it the bytes that are left are valid exactly at a position
of the string, and a position is where a first byte stands. -/
theorem valid_take_iff {bytes : List UInt8} (h : Valid bytes) (n : Nat) :
    Valid (bytes.take n) ↔ Boundary bytes n := by
  by_cases hn : bytes.length ≤ n
  · rw [List.take_of_length_le hn]
    exact iff_of_true h (Or.inl hn)
  · have hlt : n < bytes.length := Nat.lt_of_not_le hn
    have hend : (String.fromUTF8 _ h).rawEndPos = ⟨bytes.length⟩ := by
      simp [String.rawEndPos, String.utf8ByteSize, String.fromUTF8]
    -- a cut is valid where the string has a position, and a position that is
    -- not the end is where a first byte is
    have hcut : Valid (bytes.take n) ↔ String.Pos.Raw.IsValid
        (String.fromUTF8 _ h) ⟨n⟩ := by
      rw [String.Pos.Raw.isValid_iff_isValidUTF8_extract_zero, hend]
      show _ ↔ _ ∧ (bytes.toByteArray.extract 0 n).IsValidUTF8
      rw [extract_toByteArray]
      exact ⟨fun hvalid => ⟨Nat.le_of_lt hlt, hvalid⟩, And.right⟩
    rw [hcut, String.Pos.Raw.isValid_iff_isUTF8FirstByte]
    constructor
    · intro hpos
      rcases hpos with heq | hfirst
      · have hsame := congrArg String.Pos.Raw.byteIdx (heq.trans hend)
        exact absurd (Nat.le_of_eq hsame.symm) hn
      · obtain ⟨_, hfirst⟩ := hfirst
        refine Or.inr ⟨hlt, ?_⟩
        simpa [String.getUTF8Byte, String.fromUTF8] using hfirst
    · intro hboundary
      rcases hboundary with hle | hfirst
      · exact absurd hle hn
      · obtain ⟨_, hfirst⟩ := hfirst
        have hbelow : (⟨n⟩ : String.Pos.Raw)
            < (String.fromUTF8 _ h).rawEndPos := by
          rw [hend]
          exact hlt
        refine Or.inr ⟨hbelow, ?_⟩
        simpa [String.getUTF8Byte, String.fromUTF8] using hfirst

/-- The bytes of some characters are valid. -/
theorem valid_encode (characters : List Char) :
    Valid (characters.flatMap String.utf8EncodeChar) :=
  ⟨characters, rfl⟩

/-- No bytes are valid. -/
theorem valid_nil : Valid [] := ByteArray.isValidUTF8_empty

/-- The front of a text is a boundary. -/
theorem boundary_zero {bytes : List UInt8} (h : Valid bytes) :
    Boundary bytes 0 := by
  rw [← valid_take_iff h, List.take_zero]
  exact valid_nil

/-- A further byte in front moves a boundary by one. -/
theorem Boundary.cons {bytes : List UInt8} {n : Nat} (b : UInt8)
    (h : Boundary bytes n) : Boundary (b :: bytes) (n + 1) := by
  rcases h with hle | hfirst
  · exact Or.inl (Nat.succ_le_succ hle)
  · obtain ⟨hlt, hfirst⟩ := hfirst
    exact Or.inr ⟨Nat.succ_lt_succ hlt, hfirst⟩

/-- So is the front of the first NUL. -/
theorem boundary_takeWhile (bytes : List UInt8) :
    Boundary bytes (bytes.takeWhile (· ≠ 0)).length := by
  induction bytes with
  | nil => exact Or.inl (Nat.le_refl _)
  | cons b bytes ih =>
      by_cases hb : b = 0
      · subst hb
        refine Or.inr ⟨by simp, ?_⟩
        show (0 : UInt8).IsUTF8FirstByte
        decide
      · rw [List.takeWhile_cons_of_pos (by simpa using hb)]
        exact ih.cons b

/-- What is in front of the first NUL is valid. -/
theorem valid_takeWhile {bytes : List UInt8} (h : Valid bytes) :
    Valid (bytes.takeWhile (· ≠ 0)) := by
  have htake : bytes.takeWhile (· ≠ 0)
      = bytes.take (bytes.takeWhile (· ≠ 0)).length :=
    List.prefix_iff_eq_take.mp (List.takeWhile_prefix _)
  rw [htake, valid_take_iff h]
  exact boundary_takeWhile bytes

end Utf8
