import Mathlib.Data.List.Induction
import Spreadsheet.Column

/-!
# Columns and their letters

In a number without a zero digit the last digit may be 26, so `letters` takes one off before it divides, and
`count` adds one to each digit. They are inverse for every length (`count_letters`, `letters_count`), and
reading accepts the letters of the columns whose count fits a word (`ofLetters?_eq_some_iff`).
-/

namespace Spreadsheet

namespace Column
variable {digit col : Nat} {c : Char} {cs : List Char}

/-! ### One letter -/

theorem isUpper_letter (h : digit < 26) : (letter digit).isUpper := by
  revert digit
  decide

theorem toNat_letter (h : digit < 26) : (letter digit).toNat = 'A'.toNat + digit := by
  revert digit
  decide

theorem toNat_of_isUpper (h : c.isUpper) : 'A'.toNat ≤ c.toNat ∧ c.toNat < 'A'.toNat + 26 := by
  have hrange : 'A'.val ≤ c.val ∧ c.val ≤ 'Z'.val := of_decide_eq_true h
  exact ⟨hrange.1, Nat.lt_succ_of_le hrange.2⟩

theorem letter_toNat (h : c.isUpper) : letter (c.toNat - 'A'.toNat) = c := by
  rw [letter, Nat.add_sub_of_le (toNat_of_isUpper h).1, Char.ofNat_toNat]

/-! ### Strings of letters -/

theorem count_append_singleton (cs : List Char) (c : Char) :
    count (cs ++ [c]) = 26 * count cs + (c.toNat - 'A'.toNat + 1) := by
  rw [count, List.foldl_append]
  rfl

theorem count_pos (h : cs ≠ []) : 0 < count cs := by
  induction cs using List.reverseRecOn with
  | nil => exact absurd rfl h
  | append_singleton cs c _ =>
    rw [count_append_singleton]
    omega

theorem letters_ne_nil (col : Nat) : letters col ≠ [] := by
  by_cases h : col < 26
  · simp [letters_of_lt h]
  · simp [letters_of_le (Nat.le_of_not_lt h)]

theorem all_isUpper_letters (col : Nat) : ∀ c ∈ letters col, c.isUpper := by
  fun_induction letters col with
  | case1 col h => simpa using isUpper_letter h
  | case2 col h ih =>
    intro c hc
    rcases List.mem_append.1 hc with hc | hc
    · exact ih c hc
    · obtain rfl := List.mem_singleton.1 hc
      exact isUpper_letter (Nat.mod_lt col (by decide))

theorem count_letters (col : Nat) : count (letters col) = col + 1 := by
  fun_induction letters col with
  | case1 col h =>
    rw [← List.nil_append [letter col], count_append_singleton, toNat_letter h]
    simp [count]
  | case2 col h ih =>
    rw [count_append_singleton, ih, toNat_letter (Nat.mod_lt col (by decide))]
    omega

/-- Every string of letters is the one of its column. -/
theorem letters_count (hne : cs ≠ []) (h : ∀ c ∈ cs, c.isUpper) : letters (count cs - 1) = cs := by
  induction cs using List.reverseRecOn with
  | nil => exact absurd rfl hne
  | append_singleton cs c ih =>
    have hc : c.isUpper := h c (by simp)
    have hdigit := toNat_of_isUpper hc
    rw [count_append_singleton]
    by_cases hcs : cs = []
    · subst hcs
      have hlast : 26 * count [] + (c.toNat - 'A'.toNat + 1) - 1 = c.toNat - 'A'.toNat := by simp [count]
      rw [hlast, letters_of_lt (by omega), letter_toNat hc]
      rfl
    · have hpos := count_pos hcs
      have hle : 26 ≤ 26 * count cs + (c.toNat - 'A'.toNat + 1) - 1 := by omega
      have hdiv : (26 * count cs + (c.toNat - 'A'.toNat + 1) - 1) / 26 - 1 = count cs - 1 := by omega
      have hmod : (26 * count cs + (c.toNat - 'A'.toNat + 1) - 1) % 26 = c.toNat - 'A'.toNat := by omega
      rw [letters_of_le hle, hdiv, hmod, letter_toNat hc, ih hcs fun c hc => h c (by simp [hc])]

theorem ofLetters?_eq_some_iff : ofLetters? cs = some col ↔ col < wordLimit - 1 ∧ cs = letters col := by
  unfold ofLetters?
  constructor
  · intro h
    split at h
    · next hcs =>
      obtain ⟨hne, hall, hlt⟩ := hcs
      obtain rfl := Option.some.inj h
      have hpos := count_pos hne
      exact ⟨by omega, (letters_count hne (List.all_eq_true.1 hall)).symm⟩
    · cases h
  · rintro ⟨hcol, rfl⟩
    have hlt : count (letters col) < wordLimit := by rw [count_letters]; omega
    rw [if_pos ⟨letters_ne_nil col, List.all_eq_true.2 (all_isUpper_letters col), hlt⟩, count_letters]
    rfl

end Column

end Spreadsheet
