import Mathlib
import Spreadsheet.Number

/-!
# Floats and their magnitudes

A float is determined by its sign and its magnitude (`toFloat_ofFloat`). It is finite exactly if its magnitude is
below that of infinity, and equals zero exactly if the magnitude is zero.
-/

namespace Spreadsheet
open Float.Model Float.Model.UnpackedFloat

namespace Magnitude
variable {x : Float}

theorem signBit_eq : signBit = 2 ^ 63 := rfl

theorem infinity_eq : infinity = 2047 * 2 ^ 52 := rfl

theorem toFloat_ofFloat (x : Float) : toFloat (isNegative x) (ofFloat x) = x := by
  have hlt : x.toBits.toNat < 2 ^ 64 := x.toBits.toNat_lt
  have hbits : (if isNegative x then signBit + ofFloat x else ofFloat x) = x.toBits.toNat := by
    have hsign : isNegative x = true ↔ signBit ≤ x.toBits.toNat := decide_eq_true_iff
    simp only [hsign, ofFloat, signBit_eq]
    split <;> omega
  rw [toFloat, hbits, UInt64.ofNat_toNat, Float.ofBits_toBits]

theorem ofFloat_eq_zero_iff : ofFloat x = 0 ↔ x = 0 ∨ x = -0 := by
  constructor
  · intro h
    have hx := toFloat_ofFloat x
    rw [h] at hx
    cases hsign : isNegative x with
    | true => exact .inr (by rw [← hx, hsign]; rfl)
    | false => exact .inl (by rw [← hx, hsign]; rfl)
  · rintro (rfl | rfl) <;> rfl

theorem beq_zero_iff : x == 0 ↔ ofFloat x = 0 := by
  rw [Float.beq_iff_ne_nan_and_eq, ofFloat_eq_zero_iff]
  constructor
  · rintro ⟨-, -, h | ⟨h, -⟩ | ⟨h, -⟩⟩
    · exact .inl h
    · exact .inl h
    · exact .inr h
  · rintro (rfl | rfl)
    · exact ⟨by decide +kernel, by decide +kernel, .inl rfl⟩
    · exact ⟨by decide +kernel, by decide +kernel, .inr (.inr ⟨rfl, rfl⟩)⟩

/-! ### Finite floats -/

def bitsOf (x : Float) : BitVec Format.binary64.numBits := x.toBits.toBitVec

theorem toNat_unpackExponent (x : Float) : (unpackExponent (bitsOf x)).toNat = ofFloat x / 2 ^ 52 := by
  have hfield : (unpackExponent (bitsOf x)).toNat = x.toBits.toNat / 2 ^ 52 % 2 ^ 11 := by
    simp [unpackExponent, bitsOf, Nat.shiftRight_eq_div_pow]
  rw [hfield, ofFloat, signBit_eq]
  omega

theorem isFinite_iff : x.isFinite ↔ ofFloat x < infinity := by
  have hexponent := toNat_unpackExponent x
  have hlt : ofFloat x < 2 ^ 63 := Nat.mod_lt _ (by decide)
  rw [infinity_eq]
  show (UnpackedFloat.unpack Format.binary64 (bitsOf x)).isFinite ↔ _
  fun_cases UnpackedFloat.unpack Format.binary64 (bitsOf x) with
  | case1 _ _ _ _ hones | case2 _ _ hones =>
    have hfield : (unpackExponent (bitsOf x)).toNat = 2047 := congrArg BitVec.toNat hones
    exact iff_of_false nofun (by omega)
  | case3 _ _ _ _ hones | case4 _ _ _ _ _ hones | case5 _ _ _ _ _ hones =>
    have hfield : (unpackExponent (bitsOf x)).toNat ≠ 2047 := fun h => hones (BitVec.eq_of_toNat_eq h)
    exact iff_of_true rfl (by omega)

end Magnitude

end Spreadsheet
