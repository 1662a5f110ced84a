import Mathlib.Data.List.TakeWhile
import Mathlib.Tactic.Ring
import Spreadsheet.Number.Decimal

/-!
# Numerals read back

The numeral of a decimal reads as the number that it was written for (`exists_ofChars?_chars`). It has the digits
of the whole part and those of the rest, the latter with zeros in front to fill the places and without the zeros
at the end. The places need not be the same when it is read, since those zeros are gone.
-/

namespace Spreadsheet

namespace Decimal
variable {d : Decimal} {cs whole fraction : List Char} {width n : Nat}

/-! ### Reading -/

theorem ofChars?_of_digits (hne : cs ≠ []) (h : ∀ c ∈ cs, c.isDigit) :
    ofChars? cs = some ⟨Nat.ofDigitChars 10 cs 0, 0⟩ := by
  have htake : cs.takeWhile Char.isDigit = cs := List.takeWhile_eq_self_iff.2 h
  have hdrop : cs.dropWhile Char.isDigit = [] := List.dropWhile_eq_nil_iff.2 h
  simp only [ofChars?, htake, hdrop, hne, if_false]

theorem mul_pow_le_ofDigitChars : n * 10 ^ cs.length ≤ Nat.ofDigitChars 10 cs n := by
  induction cs generalizing n with
  | nil => exact Nat.le_of_eq (Nat.mul_one n)
  | cons c cs ih =>
    rw [Nat.ofDigitChars_cons, List.length_cons, Nat.pow_succ']
    refine Nat.le_trans ?_ ih
    rw [← Nat.mul_assoc, Nat.mul_comm n]
    exact Nat.mul_le_mul_right _ (Nat.le_add_right _ _)

theorem pow_le_ofDigitChars {c : Char} (hc : c.isDigit) (h : c ≠ '0') :
    10 ^ cs.length ≤ Nat.ofDigitChars 10 (c :: cs) 0 := by
  have hlt : '0'.toNat < c.toNat := by
    have hne : c.toNat ≠ '0'.toNat := fun heq => h (Char.toNat_inj.1 heq)
    have hlow := (Char.isDigit_iff_toNat.1 hc).1
    omega
  rw [Nat.ofDigitChars_cons]
  refine Nat.le_trans ?_ mul_pow_le_ofDigitChars
  exact Nat.le_mul_of_pos_left _ (by omega)

theorem ofChars?_of_point (hwhole : ∀ c ∈ whole, c.isDigit) (hfraction : ∀ c ∈ fraction, c.isDigit)
    (hne : whole ≠ []) (hne' : fraction ≠ []) :
    ofChars? (whole ++ '.' :: fraction) =
      some ⟨Nat.ofDigitChars 10 (whole ++ fraction) 0, fraction.length⟩ := by
  have htake : (whole ++ '.' :: fraction).takeWhile Char.isDigit = whole := by
    rw [List.takeWhile_append_of_pos hwhole, List.takeWhile_cons_of_neg (by decide), List.append_nil]
  have hdrop : (whole ++ '.' :: fraction).dropWhile Char.isDigit = '.' :: fraction := by
    rw [List.dropWhile_append_of_pos hwhole, List.dropWhile_cons_of_neg (by decide)]
  have hall : fraction.all Char.isDigit = true := List.all_eq_true.2 hfraction
  simp [ofChars?, htake, hdrop, hall, hne, hne']

/-! ### Writing -/

theorem isDigit_toDigits : ∀ c ∈ Nat.toDigits 10 n, c.isDigit :=
  fun _ => Nat.isDigit_of_mem_toDigits (by decide) (by decide)

theorem isDigit_paddedDigits : ∀ c ∈ paddedDigits width n, c.isDigit := by
  intro c hc
  rcases List.mem_append.1 hc with hc | hc
  · rw [List.eq_of_mem_replicate hc]
    rfl
  · exact isDigit_toDigits c hc

theorem ofDigitChars_paddedDigits : Nat.ofDigitChars 10 (paddedDigits width n) 0 = n := by
  rw [paddedDigits, Nat.ofDigitChars_append, Nat.ofDigitChars_replicate_zero, Nat.mul_zero,
    Nat.ofDigitChars_ten_toDigits]

theorem length_paddedDigits (hpos : 0 < width) (h : n < 10 ^ width) : (paddedDigits width n).length = width := by
  have hle : (Nat.toDigits 10 n).length ≤ width := (Nat.length_toDigits_le_iff (by decide) hpos).2 h
  rw [paddedDigits, List.length_append, List.length_replicate]
  omega

theorem exists_dropTrailingZeros (cs : List Char) : ∃ k, cs = dropTrailingZeros cs ++ List.replicate k '0' := by
  have hzeros : cs.reverse.takeWhile (· = '0') =
      List.replicate (cs.reverse.takeWhile (· = '0')).length '0' := by
    refine List.eq_replicate_of_mem fun c hc => ?_
    simpa using List.mem_takeWhile_imp hc
  refine ⟨(cs.reverse.takeWhile (· = '0')).length, ?_⟩
  rw [← List.reverse_inj, List.reverse_append, List.reverse_replicate, ← hzeros, dropTrailingZeros,
    List.reverse_reverse, List.takeWhile_append_dropWhile]

/-- The digits of what is left of one hold its value once the zeros at their end are counted. -/
theorem exists_fraction (hpos : 0 < n) (h : n < scale width) :
    ∃ fraction k, fraction = dropTrailingZeros (paddedDigits width n) ∧ fraction ≠ [] ∧
      (∀ c ∈ fraction, c.isDigit) ∧ fraction.length + k = width ∧ 10 ^ k * Nat.ofDigitChars 10 fraction 0 = n := by
  have hwidth : 0 < width := by
    refine Nat.pos_of_ne_zero fun hzero => ?_
    subst hzero
    exact absurd h (Nat.not_lt_of_le hpos)
  obtain ⟨k, hk⟩ := exists_dropTrailingZeros (paddedDigits width n)
  have hvalue : 10 ^ k * Nat.ofDigitChars 10 (dropTrailingZeros (paddedDigits width n)) 0 = n := by
    have hread : Nat.ofDigitChars 10 (paddedDigits width n) 0 = n := ofDigitChars_paddedDigits
    rwa [hk, Nat.ofDigitChars_append, Nat.ofDigitChars_replicate_zero] at hread
  refine ⟨_, k, rfl, fun hnil => ?_, fun c hc => ?_, ?_, hvalue⟩
  · rw [hnil, Nat.ofDigitChars_nil] at hvalue
    omega
  · have hmem : c ∈ paddedDigits width n := by
      rw [hk]
      exact List.mem_append_left _ hc
    exact isDigit_paddedDigits c hmem
  · have hlength := congrArg List.length hk
    rwa [length_paddedDigits hwidth h, List.length_append, List.length_replicate, eq_comm] at hlength

theorem chars_of_rest_eq_zero (h : d.units % scale d.places = 0) :
    d.chars = Nat.toDigits 10 (d.units / scale d.places) := if_pos h

theorem chars_of_rest_ne_zero (h : d.units % scale d.places ≠ 0) :
    d.chars = Nat.toDigits 10 (d.units / scale d.places) ++
      '.' :: dropTrailingZeros (paddedDigits d.places (d.units % scale d.places)) := if_neg h

theorem exists_chars_eq_cons (d : Decimal) : ∃ c cs, d.chars = c :: cs ∧ c.isDigit := by
  obtain ⟨c, cs, hcs⟩ := List.exists_cons_of_ne_nil (Nat.toDigits_ne_nil (b := 10) (n := d.units / scale d.places))
  have hc : c.isDigit := isDigit_toDigits c (hcs ▸ List.mem_cons_self)
  by_cases hrest : d.units % scale d.places = 0
  · exact ⟨c, cs, by rw [chars_of_rest_eq_zero hrest, hcs], hc⟩
  · exact ⟨c, _, by rw [chars_of_rest_ne_zero hrest, hcs, List.cons_append], hc⟩

/-! ### Reading what was written -/

theorem exists_ofChars?_chars (d : Decimal) :
    ∃ e, ofChars? d.chars = some e ∧ d.units * scale e.places = e.units * scale d.places := by
  have hsplit := Nat.div_add_mod d.units (scale d.places)
  by_cases hrest : d.units % scale d.places = 0
  · rw [chars_of_rest_eq_zero hrest]
    refine ⟨_, ofChars?_of_digits Nat.toDigits_ne_nil isDigit_toDigits, ?_⟩
    rw [Nat.ofDigitChars_ten_toDigits]
    show d.units * 1 = d.units / scale d.places * scale d.places
    rw [Nat.mul_comm (d.units / scale d.places)]
    omega
  · rw [chars_of_rest_ne_zero hrest]
    have hlt : d.units % scale d.places < scale d.places := Nat.mod_lt _ (Nat.pow_pos (by decide))
    obtain ⟨fraction, k, hfraction, hne, hdigits, hlength, hvalue⟩ := exists_fraction (Nat.pos_of_ne_zero hrest) hlt
    rw [← hfraction]
    refine ⟨_, ofChars?_of_point isDigit_toDigits hdigits Nat.toDigits_ne_nil hne, ?_⟩
    have hplaces : scale d.places = 10 ^ fraction.length * 10 ^ k := by rw [← Nat.pow_add, hlength]; rfl
    rw [Nat.ofDigitChars_append, Nat.ofDigitChars_ten_toDigits, Nat.ofDigitChars_eq_ofDigitChars_zero]
    calc d.units * scale fraction.length
      _ = (scale d.places * (d.units / scale d.places) + 10 ^ k * Nat.ofDigitChars 10 fraction 0) *
          10 ^ fraction.length := by rw [hvalue, hsplit]; rfl
      _ = (10 ^ fraction.length * (d.units / scale d.places) + Nat.ofDigitChars 10 fraction 0) *
          scale d.places := by
        generalize d.units / scale d.places = q
        rw [hplaces]
        ring

end Decimal

end Spreadsheet
