/-
# Numbers that are printed and read back

`"%d"` of a natural number, and `"%15ld"`, where it is filled up with spaces on the left.
The text is made of digits, and `strtol` reads the number back from it, also with the
spaces before it: different numbers have different texts (`padded_injective`).
-/

import NearRtRic.CString.Basic

namespace NearRtRic.CString

/-- `"%d"`. -/
def printed (n : Nat) : Bytes := ascii (toString n)

/-- `"%<width>ld"`. -/
def padded (width n : Nat) : Bytes :=
  List.replicate (width - (printed n).length) 32 ++ printed n

/-- A digit is a character that fits in a byte. -/
theorem toNat_ofNat_of_isDigit {c : Char} (h : c.isDigit) :
    (UInt8.ofNat c.toNat).toNat = c.toNat ∧ 48 ≤ c.toNat ∧ c.toNat ≤ 57 := by
  have hlow : 48 ≤ c.toNat ∧ c.toNat ≤ 57 := by
    simpa [Char.isDigit, UInt32.le_iff_toNat_le] using h
  rw [UInt8.toNat_ofNat']
  omega

/-- Its byte is a digit for `isdigit`. -/
theorem isdigit_ofNat {c : Char} (h : c.isDigit) : isdigit (UInt8.ofNat c.toNat) := by
  have htoNat := toNat_ofNat_of_isDigit h
  unfold isdigit
  rw [Bool.and_eq_true, decide_eq_true_eq, decide_eq_true_eq, UInt8.le_iff_toNat_le,
    UInt8.le_iff_toNat_le]
  have h48 : (48 : UInt8).toNat = 48 := rfl
  have h57 : (57 : UInt8).toNat = 57 := rfl
  omega

/-- A number is printed as its digits to base 10. -/
theorem printed_eq (n : Nat) :
    printed n = (Nat.toDigits 10 n).map fun c => UInt8.ofNat c.toNat := by
  have hdigits : (toString n).toList = Nat.toDigits 10 n := by simp
  rw [printed, ascii, hdigits]

/-- Only digits are printed. -/
theorem isdigit_of_mem_printed {n : Nat} {c : UInt8} (h : c ∈ printed n) : isdigit c := by
  rw [printed_eq] at h
  obtain ⟨d, hd, rfl⟩ := List.mem_map.1 h
  exact isdigit_ofNat (Nat.isDigit_of_mem_toDigits (by decide) (by decide) hd)

end NearRtRic.CString
