/-!
# Decimal numerals

A numeral is a run of digits, optionally followed by a point and another run of digits: `12`, `0.5`,
`007.10`. It denotes a decimal number exactly. In the other direction a decimal number is written
positionally: no exponent, no needless zero at either end, at least one digit before the point.
-/

namespace Spreadsheet

/-- The number `units / 10 ^ places`. -/
structure Decimal where
  units : Nat
  places : Nat
deriving DecidableEq, Repr

namespace Decimal

/-- The units that make one, when numbers have some decimal places. -/
def scale (places : Nat) : Nat := Nat.pow 10 places

/-- Reads a numeral. -/
def ofChars? (cs : List Char) : Option Decimal :=
  let whole := cs.takeWhile Char.isDigit
  match cs.dropWhile Char.isDigit with
  | [] => if whole = [] then none else some ⟨Nat.ofDigitChars 10 whole 0, 0⟩
  | '.' :: fraction =>
    if whole = [] ∨ fraction = [] ∨ fraction.all Char.isDigit = false then none
    else some ⟨Nat.ofDigitChars 10 (whole ++ fraction) 0, fraction.length⟩
  | _ => none

/-- The digits of `n`, with zeros in front to make up `width`. -/
def paddedDigits (width n : Nat) : List Char :=
  List.replicate (width - (Nat.toDigits 10 n).length) '0' ++ Nat.toDigits 10 n

def dropTrailingZeros (cs : List Char) : List Char := (cs.reverse.dropWhile (· = '0')).reverse

/-- The numeral of a number. -/
def chars (d : Decimal) : List Char :=
  let whole := Nat.toDigits 10 (d.units / scale d.places)
  let rest := d.units % scale d.places
  if rest = 0 then whole else whole ++ '.' :: dropTrailingZeros (paddedDigits d.places rest)

end Decimal

end Spreadsheet
