import Spreadsheet.Number.Shortest

/-!
# Numbers and their text

A number is a 64-bit float. Its text is the shortest numeral that reads back as it, written without an
exponent, so the text of a finite number is itself a numeric literal; zero of either sign is `0`.

A numeric literal is a numeral with at most one minus sign in front of it.
-/

namespace Spreadsheet

namespace Number

/-- The text of a finite magnitude or an infinite one. -/
def magnitudeChars (bits : Nat) : List Char :=
  if bits < Magnitude.infinity then (Magnitude.shortest bits).chars else "inf".toList

/-- The text of a number. -/
def chars (x : Float) : List Char :=
  let bits := Magnitude.ofFloat x
  if bits = 0 then ['0']
  else if Magnitude.infinity < bits then "NaN".toList
  else if Magnitude.isNegative x then '-' :: magnitudeChars bits
  else magnitudeChars bits

def text (x : Float) : String := String.ofList (chars x)

/-- Reads a numeral, without a sign. -/
def ofNumeral? (cs : List Char) : Option Float :=
  (Decimal.ofChars? cs).map fun d => Magnitude.toFloat false (Magnitude.ofDecimal d)

/-- Reads a numeric literal. -/
def ofLiteralChars? : List Char → Option Float
  | '-' :: cs => (Decimal.ofChars? cs).map fun d => Magnitude.toFloat true (Magnitude.ofDecimal d)
  | cs => ofNumeral? cs

def ofLiteral? (text : String) : Option Float := ofLiteralChars? text.toList

end Number

end Spreadsheet
