import Mathlib.Tactic.Ring
import Spreadsheet.Number.Shortest

/-!
# Decimals read back

What a decimal reads as depends on the number that it denotes and not on its places (`ofDecimal_congr`). The
decimal that a finite magnitude stands for reads as that magnitude, since a mantissa of full length is not
rounded (`ofDecimal_exact`). The search for a shorter one keeps only what reads back, so the shortest decimal
does as well (`ofDecimal_shortest`). A decimal of 310 or more digits before its point is infinite
(`ofDecimal_of_pow_le`).
-/

namespace Spreadsheet

namespace Magnitude
variable {num den num' den' c n bits k : Nat} {d e : Decimal}

/-- One, counted in units of the least magnitude. -/
def unitsInOne : Nat := 1 <<< 1074

theorem unitsInOne_pos : 0 < unitsInOne := by decide

-- with `2 ^ 1074` in place of the shift the power would be computed over and over again
theorem shiftLeft_eq_mul (n k : Nat) : n <<< k = n * 1 <<< k := by rw [Nat.shiftLeft_eq, Nat.one_shiftLeft]

theorem shiftLeft_eq_mul_unitsInOne (n : Nat) : n <<< 1074 = n * unitsInOne := shiftLeft_eq_mul n 1074

/-! ### Rounding a quotient -/

theorem roundDiv_mul_right (hc : 0 < c) : roundDiv (num * c) (den * c) = roundDiv num den := by
  have hlt : 2 * (num % den * c) < den * c ↔ 2 * (num % den) < den := by
    rw [← Nat.mul_assoc]
    exact Nat.mul_lt_mul_right hc
  have heq : 2 * (num % den * c) = den * c ↔ 2 * (num % den) = den := by
    rw [← Nat.mul_assoc]
    exact Nat.mul_left_inj hc.ne'
  simp only [roundDiv, Nat.mul_div_mul_right _ _ hc, Nat.mul_mod_mul_right, hlt, heq]

theorem roundDiv_mul_self (hden : 0 < den) : roundDiv (n * den) den = n := by
  simp [roundDiv, Nat.mul_div_cancel _ hden, hden]

theorem nearest_mul_right (hc : 0 < c) : nearest (num * c) (den * c) = nearest num den := by
  have hnum : (num * c) <<< 1074 = num <<< 1074 * c := by
    rw [shiftLeft_eq_mul_unitsInOne, shiftLeft_eq_mul_unitsInOne, Nat.mul_right_comm]
  have hden : ∀ shift, (den * c) <<< shift = den <<< shift * c := fun shift => by
    rw [Nat.shiftLeft_eq, Nat.shiftLeft_eq, Nat.mul_right_comm]
  simp only [nearest, hnum, hden, Nat.mul_div_mul_right _ _ hc, roundDiv_mul_right hc]

/-- Equal quotients have the same nearest magnitude. -/
theorem nearest_congr (hden : 0 < den) (hden' : 0 < den') (h : num * den' = num' * den) :
    nearest num den = nearest num' den' := by
  rw [← nearest_mul_right hden', h, Nat.mul_comm den den', nearest_mul_right hden]

theorem scale_pos : 0 < Decimal.scale k := Nat.pow_pos (by decide)

theorem scale_le_scale (h : k ≤ n) : Decimal.scale k ≤ Decimal.scale n := Nat.pow_le_pow_right (by decide) h

theorem ofDecimal_congr (h : d.units * Decimal.scale e.places = e.units * Decimal.scale d.places) :
    ofDecimal d = ofDecimal e :=
  nearest_congr scale_pos scale_pos h

/-! ### Magnitudes -/

theorem log2_mantissa_shift (h : leadingBit ≤ bits) : (mantissa bits <<< shift bits).log2 = 52 + shift bits := by
  have hmod : bits % leadingBit < leadingBit := Nat.mod_lt _ (by decide)
  have hmantissa : mantissa bits = leadingBit + bits % leadingBit := if_neg (by omega)
  have hleading : leadingBit = 2 ^ 52 := rfl
  have hne : (leadingBit + bits % leadingBit) * 2 ^ shift bits ≠ 0 :=
    (Nat.mul_pos (by omega) (Nat.two_pow_pos _)).ne'
  rw [hmantissa, Nat.shiftLeft_eq, Nat.log2_eq_iff hne, Nat.pow_succ, Nat.pow_add, ← hleading]
  constructor
  · exact Nat.mul_le_mul_right _ (by omega)
  · rw [Nat.mul_right_comm]
    exact Nat.mul_lt_mul_of_pos_right (by omega) (Nat.two_pow_pos _)

/-- A magnitude is its mantissa with the exponent above it. -/
theorem shift_mul_add_mantissa (bits : Nat) : shift bits * leadingBit + mantissa bits = bits := by
  unfold shift mantissa
  split
  · rename_i h
    rw [Nat.div_eq_of_lt h]
    omega
  · rename_i h
    have hpos : 0 < bits / leadingBit := Nat.div_pos (by omega) (by decide)
    have hsplit := Nat.div_add_mod bits leadingBit
    obtain ⟨q, hq⟩ : ∃ q, bits / leadingBit = q + 1 := ⟨bits / leadingBit - 1, by omega⟩
    rw [hq, Nat.mul_succ, Nat.mul_comm] at hsplit
    rw [hq, Nat.add_sub_cancel]
    omega

theorem log2_le_of_lt (h : bits < leadingBit) : bits.log2 ≤ 52 := by
  rcases Nat.eq_zero_or_pos bits with rfl | hpos
  · decide
  · have hlog : bits.log2 < 52 := (Nat.log2_lt hpos.ne').2 h
    omega

/-- A magnitude is the nearest one to the number that it stands for. -/
theorem nearest_mantissa_shift (h : bits < infinity) : nearest (mantissa bits <<< shift bits) unitsInOne = bits := by
  have hquotient : mantissa bits <<< shift bits * unitsInOne / unitsInOne = mantissa bits <<< shift bits :=
    Nat.mul_div_cancel _ unitsInOne_pos
  have hshift : (mantissa bits <<< shift bits).log2 - 52 = shift bits := by
    by_cases hsmall : bits < leadingBit
    · have hmantissa : mantissa bits = bits := if_pos hsmall
      have hzero : shift bits = 0 := by rw [shift, Nat.div_eq_of_lt hsmall]
      have hlog := log2_le_of_lt hsmall
      rw [hmantissa, hzero, Nat.shiftLeft_zero]
      omega
    · rw [log2_mantissa_shift (Nat.le_of_not_lt hsmall)]
      omega
  have hround :
      roundDiv (mantissa bits <<< shift bits * unitsInOne) (unitsInOne <<< shift bits) = mantissa bits := by
    rw [Nat.shiftLeft_eq, Nat.shiftLeft_eq, Nat.mul_assoc, Nat.mul_comm (2 ^ shift bits)]
    exact roundDiv_mul_self (Nat.mul_pos unitsInOne_pos (Nat.two_pow_pos _))
  simp only [nearest, shiftLeft_eq_mul_unitsInOne, hquotient, hshift, hround, shift_mul_add_mantissa]
  exact Nat.min_eq_right h.le

/-! ### Decimals of a magnitude -/

theorem ofDecimal_exact (h : bits < infinity) : ofDecimal (exact bits) = bits := by
  refine Eq.trans (nearest_congr scale_pos unitsInOne_pos ?_) (nearest_mantissa_shift h)
  simp only [exact, Decimal.scale, Nat.shiftLeft_eq, Nat.pow_eq]
  rcases Nat.le_total (shift bits) 1074 with hle | hle
  · obtain ⟨places, hplaces⟩ := Nat.exists_eq_add_of_le hle
    have hunits : unitsInOne = 2 ^ shift bits * 2 ^ places := by
      rw [← Nat.pow_add, ← Nat.one_shiftLeft, ← hplaces, unitsInOne]
    have htens : 10 ^ places = 2 ^ places * 5 ^ places := (Nat.mul_pow 2 5 places)
    rw [Nat.sub_eq_zero_of_le hle, Nat.sub_eq_of_eq_add' hplaces, hunits, htens]
    ring
  · obtain ⟨more, hmore⟩ := Nat.exists_eq_add_of_le hle
    have hpow : 2 ^ shift bits = unitsInOne * 2 ^ more := by
      calc 2 ^ shift bits
        _ = 1 <<< (1074 + more) := by rw [← hmore, Nat.one_shiftLeft]
        _ = unitsInOne <<< more := Nat.shiftLeft_add 1 1074 more
        _ = unitsInOne * 2 ^ more := Nat.shiftLeft_eq unitsInOne more
    rw [Nat.sub_eq_zero_of_le hle, Nat.sub_eq_of_eq_add' hmore, hpow]
    ring

-- an equation between functions, since to compare the two sides at an argument would be to compute there
theorem onGrid?_eq : onGrid? = fun bits d k =>
    let step := Decimal.scale k
    let lower : Decimal := ⟨d.units / step * step, d.places⟩
    let upper : Decimal := ⟨lower.units + step, d.places⟩
    match ofDecimal lower == bits, ofDecimal upper == bits with
    | true, true => some (if d.units - lower.units < upper.units - d.units then lower else upper)
    | true, false => some lower
    | false, true => some upper
    | false, false => none := by
  delta onGrid?
  rfl

/-- One of two neighbours is taken only if it passes its test. -/
theorem of_neighbour {P : Decimal → Prop} {lower upper : Decimal} {b c : Bool} {p : Prop} [Decidable p]
    (h : (match b, c with
      | true, true => some (if p then lower else upper)
      | true, false => some lower
      | false, true => some upper
      | false, false => none) = some e)
    (hlower : b = true → P lower) (hupper : c = true → P upper) : P e := by
  cases b <;> cases c
  · cases h
  · exact Option.some.inj h ▸ hupper rfl
  · exact Option.some.inj h ▸ hlower rfl
  · rw [← Option.some.inj h]
    split
    · exact hlower rfl
    · exact hupper rfl

theorem ofDecimal_of_onGrid? (h : onGrid? bits d k = some e) : ofDecimal e = bits := by
  rw [onGrid?_eq] at h
  exact of_neighbour (P := fun e => ofDecimal e = bits) h beq_iff_eq.1 beq_iff_eq.1

theorem ofDecimal_firstOnGrid (hd : ofDecimal d = bits) : ofDecimal (firstOnGrid bits d k) = bits := by
  induction k with
  | zero => exact hd
  | succ k ih =>
    rw [firstOnGrid]
    cases hgrid : onGrid? bits d (k + 1) with
    | some e => exact ofDecimal_of_onGrid? hgrid
    | none => exact ih

theorem ofDecimal_shortest (h : bits < infinity) : ofDecimal (shortest bits) = bits :=
  ofDecimal_firstOnGrid (ofDecimal_exact h)

/-! ### Overflow -/

theorem div_le_roundDiv (num den : Nat) : num / den ≤ roundDiv num den := by
  unfold roundDiv
  simp only
  split
  · exact Nat.le_refl _
  · exact Nat.le_succ _

/-- What has no fewer bits than the least number beyond the finite ones is infinite. -/
theorem nearest_of_le_log2 (h : 2098 ≤ (num <<< 1074 / den).log2) : nearest num den = infinity := by
  have hne : num <<< 1074 / den ≠ 0 := fun h0 => by simp [h0] at h
  obtain ⟨shift, hshift⟩ := Nat.exists_eq_add_of_le (Nat.le_trans (by decide : 52 ≤ 2098) h)
  have hround : leadingBit ≤ roundDiv (num <<< 1074) (den <<< shift) := by
    refine Nat.le_trans ?_ (div_le_roundDiv _ _)
    rw [Nat.shiftLeft_eq den, ← Nat.div_div_eq_div_mul, Nat.le_div_iff_mul_le (Nat.two_pow_pos shift)]
    calc leadingBit * 2 ^ shift
      _ = 2 ^ (num <<< 1074 / den).log2 := by rw [hshift, Nat.pow_add]; rfl
      _ ≤ num <<< 1074 / den := Nat.log2_self_le hne
  have hinfinity : infinity = 2047 * leadingBit := rfl
  have hsub : (num <<< 1074 / den).log2 - 52 = shift := by omega
  simp only [nearest, hsub]
  refine Nat.min_eq_left ?_
  have hle : 2046 * leadingBit ≤ shift * leadingBit := Nat.mul_le_mul_right _ (by omega)
  omega

theorem le_log2_shiftLeft_div (hden : 0 < den) (h : 2 ^ n * den ≤ num) : n + k ≤ (num <<< k / den).log2 := by
  have hle : 2 ^ (n + k) ≤ num <<< k / den := by
    rw [Nat.le_div_iff_mul_le hden, Nat.pow_add, Nat.mul_right_comm, Nat.shiftLeft_eq]
    exact Nat.mul_le_mul_right _ h
  have hpos : 0 < num <<< k / den := Nat.lt_of_lt_of_le (Nat.two_pow_pos _) hle
  exact (Nat.le_log2 hpos.ne').2 hle

theorem nearest_of_le (hden : 0 < den) (h : 2 ^ 1024 * den ≤ num) : nearest num den = infinity :=
  nearest_of_le_log2 (le_log2_shiftLeft_div (k := 1074) hden h)

theorem ofDecimal_of_pow_le (hk : 309 ≤ k) (h : 10 ^ k ≤ n) : ofDecimal ⟨n, 0⟩ = infinity := by
  have hbound : 2 ^ 1024 * Decimal.scale 0 ≤ Decimal.scale 309 := by decide +kernel
  exact nearest_of_le scale_pos (Nat.le_trans hbound (Nat.le_trans (scale_le_scale hk) h))

end Magnitude

end Spreadsheet
