/-!
# Binary floating-point magnitudes

The magnitude of a float is its 64-bit pattern without the sign. Magnitudes are ordered like the
numbers they stand for: zero is `0`, the finite ones are multiples of `2 ^ -1074` below `infinity`, and
what lies above `infinity` is not a number.

`nearest` rounds a quotient to the nearest magnitude, a tie to the even one. The exponent of the
quotient picks a step `2 ^ shift` that leaves 53 significant bits, and `shift * 2 ^ 52` plus the rounded
mantissa is then the bit pattern itself: a mantissa that rounds up to `2 ^ 53` carries into the exponent,
and what reaches the pattern of infinity is infinite.
-/

namespace Spreadsheet

namespace Magnitude

/-- `2 ^ 52`, the leading bit of a mantissa of full length. The pattern leaves it out. -/
def leadingBit : Nat := 0x10000000000000

/-- The pattern of infinity. -/
def infinity : Nat := 0x7FF0000000000000

/-- `2 ^ 63`, the bit of the sign in the pattern of a float. -/
def signBit : Nat := 0x8000000000000000

/-- The significant bits of a finite magnitude. -/
def mantissa (bits : Nat) : Nat := if bits < leadingBit then bits else leadingBit + bits % leadingBit

/-- The exponent of a finite magnitude, which is `mantissa * 2 ^ shift` times `2 ^ -1074`. -/
def shift (bits : Nat) : Nat := bits / leadingBit - 1

/-- The quotient as a natural number, a half rounded to the even neighbour. -/
def roundDiv (num den : Nat) : Nat :=
  let floor := num / den
  let rest := 2 * (num % den)
  if rest < den ∨ rest = den ∧ floor % 2 = 0 then floor else floor + 1

/-- The magnitude nearest to `num / den`. -/
def nearest (num den : Nat) : Nat :=
  let num := num <<< 1074
  let shift := (num / den).log2 - 52
  min infinity (shift * leadingBit + roundDiv num (den <<< shift))

/-- The float of a sign and a magnitude. -/
def toFloat (negative : Bool) (bits : Nat) : Float :=
  Float.ofBits (UInt64.ofNat (if negative then signBit + bits else bits))

/-- The magnitude of a float. -/
def ofFloat (x : Float) : Nat := x.toBits.toNat % signBit

/-- Whether the sign bit of a float is set. -/
def isNegative (x : Float) : Bool := signBit ≤ x.toBits.toNat

end Magnitude

end Spreadsheet
