import Spreadsheet.Cell
import Spreadsheet.Proofs.Number.Bits
import Spreadsheet.Proofs.Number.Numeral
import Spreadsheet.Proofs.Number.Rounding

/-!
# The text of a number is its literal

The text of a finite number is a numeric literal and reads as that number, a zero of either sign as zero
(`ofLiteral?_text`). So it is also the text that the literal keeps, and a cell takes it as a number. Infinities
and what is not a number are written as words, which no literal is; hence no literal becomes one of them.
-/

namespace Spreadsheet
open Magnitude (ofFloat isNegative infinity ofDecimal shortest)

namespace Number
variable {x : Float} {bits : Nat}

/-- The number, zero without its sign. -/
def unsigned (x : Float) : Float := if x == 0 then 0 else x

theorem unsigned_of_ofFloat_eq_zero (h : ofFloat x = 0) : unsigned x = 0 := if_pos (Magnitude.beq_zero_iff.2 h)

theorem unsigned_of_ofFloat_ne_zero (h : ofFloat x ≠ 0) : unsigned x = x :=
  if_neg (mt Magnitude.beq_zero_iff.1 h)

/-! ### What is written -/

theorem chars_of_zero (h : ofFloat x = 0) : chars x = ['0'] := if_pos h

theorem chars_of_finite (hpos : ofFloat x ≠ 0) (h : ofFloat x < infinity) :
    chars x = if isNegative x then '-' :: (shortest (ofFloat x)).chars else (shortest (ofFloat x)).chars := by
  have hmagnitude : magnitudeChars (ofFloat x) = (shortest (ofFloat x)).chars := if_pos h
  simp only [chars, hpos, Nat.not_lt_of_lt h, hmagnitude, if_false]

theorem chars_of_not_finite (h : infinity ≤ ofFloat x) :
    chars x = "NaN".toList ∨ chars x = "inf".toList ∨ chars x = '-' :: "inf".toList := by
  have hpos : ofFloat x ≠ 0 := Nat.ne_of_gt (Nat.lt_of_lt_of_le (by decide) h)
  have hmagnitude : magnitudeChars (ofFloat x) = "inf".toList := if_neg (Nat.not_lt_of_le h)
  simp only [chars, hpos, hmagnitude, if_false]
  split
  · exact .inl rfl
  · split
    · exact .inr (.inr rfl)
    · exact .inr (.inl rfl)

theorem text_unsigned (x : Float) : text (unsigned x) = text x := by
  by_cases h : ofFloat x = 0
  · rw [unsigned_of_ofFloat_eq_zero h, text, text, chars_of_zero h, chars_of_zero rfl]
  · rw [unsigned_of_ofFloat_ne_zero h]

/-! ### What is read -/

theorem exists_ofChars?_shortest (h : bits < infinity) :
    ∃ d, Decimal.ofChars? (shortest bits).chars = some d ∧ ofDecimal d = bits := by
  obtain ⟨d, hd, hvalue⟩ := Decimal.exists_ofChars?_chars (shortest bits)
  exact ⟨d, hd, (Magnitude.ofDecimal_congr hvalue).symm.trans (Magnitude.ofDecimal_shortest h)⟩

theorem ofLiteralChars?_of_isDigit {c : Char} {cs : List Char} (hc : c.isDigit) :
    ofLiteralChars? (c :: cs) = ofNumeral? (c :: cs) := by
  unfold ofLiteralChars?
  split
  · rename_i heq
    obtain ⟨rfl, -⟩ := List.cons.inj heq
    cases hc
  · rfl

theorem ofLiteralChars?_chars (h : x.isFinite) : ofLiteralChars? (chars x) = some (unsigned x) := by
  by_cases hzero : ofFloat x = 0
  · rw [chars_of_zero hzero, unsigned_of_ofFloat_eq_zero hzero]
    decide +kernel
  have hlt := Magnitude.isFinite_iff.1 h
  have hfloat := Magnitude.toFloat_ofFloat x
  obtain ⟨d, hd, hread⟩ := exists_ofChars?_shortest hlt
  rw [chars_of_finite hzero hlt, unsigned_of_ofFloat_ne_zero hzero]
  cases hsign : isNegative x with
  | true =>
    rw [hsign] at hfloat
    simp only [if_true, ofLiteralChars?, hd, Option.map_some, hread, hfloat]
  | false =>
    obtain ⟨c, cs, hcs, hc⟩ := Decimal.exists_chars_eq_cons (shortest (ofFloat x))
    rw [hsign] at hfloat
    simp only [Bool.false_eq_true, if_false, hcs, ofLiteralChars?_of_isDigit hc]
    simp only [← hcs, ofNumeral?, hd, Option.map_some, hread, hfloat]

theorem ofLiteral?_text (h : x.isFinite) : ofLiteral? (text x) = some (unsigned x) := by
  rw [ofLiteral?, text, String.toList_ofList, ofLiteralChars?_chars h]

/-- A number of that many digits is infinite. -/
theorem ofLiteral?_of_many_digits {c : Char} {cs : List Char} (hdigits : ∀ d ∈ c :: cs, d.isDigit) (hc : c ≠ '0')
    (hlength : 309 ≤ cs.length) : ofLiteral? (String.ofList (c :: cs)) = some (Magnitude.toFloat false infinity) := by
  have hfirst : c.isDigit := hdigits c List.mem_cons_self
  have hread : ofDecimal ⟨Nat.ofDigitChars 10 (c :: cs) 0, 0⟩ = infinity :=
    Magnitude.ofDecimal_of_pow_le hlength (Decimal.pow_le_ofDigitChars hfirst hc)
  rw [ofLiteral?, String.toList_ofList, ofLiteralChars?_of_isDigit hfirst, ofNumeral?,
    Decimal.ofChars?_of_digits (List.cons_ne_nil c cs) hdigits, Option.map_some, hread]

theorem ofLiteral?_text_of_not_finite (h : ¬ x.isFinite) : ofLiteral? (text x) = none := by
  rw [ofLiteral?, text, String.toList_ofList]
  rcases chars_of_not_finite (Nat.le_of_not_lt (mt Magnitude.isFinite_iff.2 h)) with h | h | h <;> rw [h] <;> rfl

end Number

namespace Value
variable {x : Float} {input : String}

theorem ofLiteral_text (h : x.isFinite) : ofLiteral (Number.text x) = .number (Number.unsigned x) := by
  simp only [ofLiteral, Number.ofLiteral?_text h, Number.text_unsigned, if_true]

theorem isFinite_of_ofLiteral (h : ofLiteral input = .number x) : x.isFinite := by
  by_contra hx
  unfold ofLiteral at h
  split at h
  · rename_i y hy
    split at h
    · rename_i htext
      obtain rfl := Value.number.inj h
      rw [← htext, Number.ofLiteral?_text_of_not_finite hx] at hy
      cases hy
    · cases h
  · cases h

end Value

end Spreadsheet
