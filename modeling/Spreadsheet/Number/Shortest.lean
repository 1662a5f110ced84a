import Spreadsheet.Number.Binary
import Spreadsheet.Number.Decimal

/-!
# Shortest decimals

Every finite magnitude is a decimal number, with as many places as its exponent needs. Its shortest
decimal is looked for on coarser and finer grids: on the grid of step `10 ^ k` the two neighbours of the
number are tried, and the first grid that has a neighbour which reads back as the same magnitude wins. Of
two such neighbours the nearer is taken, and the upper one if they are equally near. The search starts
where one digit is left and ends at the number itself, which reads back by being exact.
-/

namespace Spreadsheet

namespace Magnitude

/-- The number that a finite magnitude stands for. -/
def exact (bits : Nat) : Decimal :=
  ⟨(mantissa bits <<< (shift bits - 1074)) * Nat.pow 5 (1074 - shift bits), 1074 - shift bits⟩

/-- The magnitude that a decimal reads as. -/
def ofDecimal (d : Decimal) : Nat := nearest d.units (Decimal.scale d.places)

/-- The neighbour of a number, on the grid of step `10 ^ k` in its last place, that reads as the
magnitude, if there is one. -/
def onGrid? (bits : Nat) (d : Decimal) (k : Nat) : Option Decimal :=
  let step := Decimal.scale k
  let lower : Decimal := ⟨d.units / step * step, d.places⟩
  let upper : Decimal := ⟨lower.units + step, d.places⟩
  match ofDecimal lower == bits, ofDecimal upper == bits with
  | true, true => some (if d.units - lower.units < upper.units - d.units then lower else upper)
  | true, false => some lower
  | false, true => some upper
  | false, false => none

/-- The first hit on the grids of step `10 ^ k` and finer. -/
def firstOnGrid (bits : Nat) (d : Decimal) : Nat → Decimal
  | 0 => d
  | k + 1 => (onGrid? bits d (k + 1)).getD (firstOnGrid bits d k)

/-- The decimal of the fewest digits that reads as the magnitude. -/
def shortest (bits : Nat) : Decimal :=
  let d := exact bits
  firstOnGrid bits d ((Nat.toDigits 10 d.units).length - 1)

end Magnitude

end Spreadsheet
