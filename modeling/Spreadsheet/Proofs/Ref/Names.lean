import Mathlib.Data.List.Basic
import Spreadsheet.Proofs.Column
import Spreadsheet.Ref.Parse

/-!
# Names of cells

A name is cut where its letters end, and each part has one spelling: the letters by `Column.letters_count`,
the row by `toDigits_ofDigitChars`, since its digits do not start with a zero. So reading accepts the names
that are written for places within a word, and nothing else (`ofChars?_eq_some_iff`). `Codec` is what this
says about a reader and a writer; coordinates and references are read and written in the same way
(`codec_decode`).
-/

namespace Spreadsheet

namespace A1
variable {col row n : Nat} {cs letters digits : List Char} {text : String}

/-! ### Rows -/

theorem toNat_of_isDigit {c : Char} (h : c.isDigit) : '0'.toNat ≤ c.toNat ∧ c.toNat < '0'.toNat + 10 := by
  obtain ⟨hlow, hhigh⟩ := Char.isDigit_iff_toNat.1 h
  exact ⟨hlow, Nat.lt_succ_of_le hhigh⟩

theorem digitChar_toNat {c : Char} (h : c.isDigit) : Nat.digitChar (c.toNat - '0'.toNat) = c := by
  obtain ⟨hlow, hhigh⟩ := toNat_of_isDigit h
  rw [← Char.toNat_inj, Nat.toNat_digitChar_of_lt_ten (by omega)]
  exact Nat.add_sub_of_le hlow

theorem ofDigitChars_append_singleton (cs : List Char) (c : Char) :
    Nat.ofDigitChars 10 (cs ++ [c]) 0 = 10 * Nat.ofDigitChars 10 cs 0 + (c.toNat - '0'.toNat) := by
  rw [Nat.ofDigitChars_append, Nat.ofDigitChars_cons, Nat.ofDigitChars_nil]

/-- Digits that do not start with a zero are those of their value, which is not zero. -/
theorem toDigits_ofDigitChars (hne : cs ≠ []) (h : ∀ c ∈ cs, c.isDigit) (hzero : cs.head? ≠ some '0') :
    Nat.toDigits 10 (Nat.ofDigitChars 10 cs 0) = cs ∧ 0 < Nat.ofDigitChars 10 cs 0 := by
  induction cs using List.reverseRecOn with
  | nil => exact absurd rfl hne
  | append_singleton cs c ih =>
    have hc : c.isDigit := h c (by simp)
    have hchar := digitChar_toNat hc
    have hdigit := toNat_of_isDigit hc
    rw [ofDigitChars_append_singleton]
    by_cases hcs : cs = []
    · subst hcs
      have hpos : 0 < c.toNat - '0'.toNat := by
        refine Nat.pos_of_ne_zero fun hnull => hzero ?_
        rw [List.nil_append, List.head?_cons, ← hchar, hnull]
        rfl
      rw [Nat.ofDigitChars_nil, Nat.mul_zero, Nat.zero_add, Nat.toDigits_of_lt_base (by omega), hchar]
      exact ⟨rfl, hpos⟩
    · have hhead : cs.head? ≠ some '0' := by rwa [List.head?_append_of_ne_nil _ hcs] at hzero
      obtain ⟨hdigits, hpos⟩ := ih hcs (fun c hc => h c (by simp [hc])) hhead
      have hdiv : (10 * Nat.ofDigitChars 10 cs 0 + (c.toNat - '0'.toNat)) / 10 = Nat.ofDigitChars 10 cs 0 := by
        omega
      have hmod : (10 * Nat.ofDigitChars 10 cs 0 + (c.toNat - '0'.toNat)) % 10 = c.toNat - '0'.toNat := by
        omega
      rw [Nat.toDigits_of_base_le (by decide) (by omega), hdiv, hmod, hdigits, hchar]
      exact ⟨rfl, by omega⟩

theorem isDigit_toDigits (n : Nat) : ∀ c ∈ Nat.toDigits 10 n, c.isDigit :=
  fun _ => Nat.isDigit_of_mem_toDigits (by decide) (by decide)

theorem head?_toDigits_ne_zero (hn : 0 < n) : (Nat.toDigits 10 n).head? ≠ some '0' := by
  induction n using Nat.strongRecOn with
  | ind n ih =>
    by_cases h : n < 10
    · rw [Nat.toDigits_of_lt_base h, List.head?_cons, ne_eq, Option.some.injEq, Nat.digitChar_eq_zero]
      omega
    · rw [Nat.toDigits_of_base_le (by decide) (by omega), List.head?_append_of_ne_nil _ Nat.toDigits_ne_nil]
      exact ih (n / 10) (by omega) (by omega)

theorem rowOfDigits?_eq_some_iff :
    rowOfDigits? cs = some row ↔ 1 ≤ row ∧ row < wordLimit ∧ cs = Nat.toDigits 10 row := by
  unfold rowOfDigits?
  constructor
  · intro h
    split at h
    · next hcs =>
      obtain ⟨hne, hall, hzero, hlt⟩ := hcs
      obtain rfl := Option.some.inj h
      obtain ⟨hdigits, hpos⟩ := toDigits_ofDigitChars hne (List.all_eq_true.1 hall) hzero
      exact ⟨hpos, hlt, hdigits.symm⟩
    · cases h
  · rintro ⟨hpos, hlt, rfl⟩
    have hall := List.all_eq_true.2 (isDigit_toDigits row)
    have hvalue := Nat.ofDigitChars_ten_toDigits (n := row)
    rw [if_pos ⟨Nat.toDigits_ne_nil, hall, head?_toDigits_ne_zero hpos, by rwa [hvalue]⟩, hvalue]

/-! ### Whole names -/

/-- The places that have a name: a column, counted from zero, and a row, counted from one. -/
def Named (place : Nat × Nat) : Prop := 1 ≤ place.2 ∧ place.2 < wordLimit ∧ place.1 < wordLimit - 1

theorem not_isUpper_of_isDigit {c : Char} (h : c.isDigit) : ¬ c.isUpper := by
  intro hupper
  have hletter := (Column.toNat_of_isUpper hupper).1
  have hdigit := (toNat_of_isDigit h).2
  exact absurd (Nat.lt_of_le_of_lt hletter hdigit) (by decide)

/-- The letters of a name are those in front of the first digit. -/
theorem cut_letters (hletters : ∀ c ∈ letters, c.isUpper) (hdigits : ∀ c ∈ digits, c.isDigit) :
    (letters ++ digits).takeWhile Char.isUpper = letters ∧
      (letters ++ digits).dropWhile Char.isUpper = digits := by
  rw [List.takeWhile_append_of_pos hletters, List.dropWhile_append_of_pos hletters]
  cases digits with
  | nil => simp
  | cons c digits => simp [not_isUpper_of_isDigit (hdigits c List.mem_cons_self)]

theorem cut_chars (col row : Nat) :
    (chars col row).takeWhile Char.isUpper = Column.letters col ∧
      (chars col row).dropWhile Char.isUpper = Nat.toDigits 10 row :=
  cut_letters (Column.all_isUpper_letters col) (isDigit_toDigits row)

theorem ofChars?_eq_some_iff : ofChars? cs = some (col, row) ↔ Named (col, row) ∧ cs = chars col row := by
  have hparts : ofChars? cs = some (col, row) ↔
      Column.ofLetters? (cs.takeWhile Char.isUpper) = some col ∧
        rowOfDigits? (cs.dropWhile Char.isUpper) = some row := by
    simp only [ofChars?, Option.bind_eq_bind, Option.bind_eq_some_iff, Option.pure_def, Option.some.injEq,
      Prod.mk.injEq]
    constructor
    · rintro ⟨_, hcol, _, hrow, rfl, rfl⟩
      exact ⟨hcol, hrow⟩
    · rintro ⟨hcol, hrow⟩
      exact ⟨col, hcol, row, hrow, rfl, rfl⟩
  rw [hparts, Column.ofLetters?_eq_some_iff, rowOfDigits?_eq_some_iff]
  constructor
  · rintro ⟨⟨hcol, hletters⟩, hpos, hrow, hdigits⟩
    refine ⟨⟨hpos, hrow, hcol⟩, ?_⟩
    rw [chars, ← hletters, ← hdigits, List.takeWhile_append_dropWhile]
  · rintro ⟨⟨hpos, hrow, hcol⟩, rfl⟩
    obtain ⟨hletters, hdigits⟩ := cut_chars col row
    exact ⟨⟨hcol, hletters⟩, hpos, hrow, hdigits⟩

theorem chars_inj {col' row' : Nat} (h : chars col row = chars col' row') : col = col' ∧ row = row' := by
  obtain ⟨hletters, hdigits⟩ := cut_chars col row
  rw [h] at hletters hdigits
  have hcol : Column.letters col' = Column.letters col := (cut_chars col' row').1.symm.trans hletters
  have hrow : Nat.toDigits 10 row' = Nat.toDigits 10 row := (cut_chars col' row').2.symm.trans hdigits
  have hcount : col + 1 = col' + 1 := by rw [← Column.count_letters, ← hcol, Column.count_letters]
  refine ⟨Nat.add_right_cancel hcount, ?_⟩
  rw [← Nat.ofDigitChars_ten_toDigits (n := row), ← hrow, Nat.ofDigitChars_ten_toDigits]

/-! ### Reading and writing -/

theorem decode_eq_ok_iff {place : Nat × Nat} :
    decode text = .ok place ↔ Named place ∧ text = encode place.1 place.2 := by
  have hchars : decode text = .ok place ↔ ofChars? text.toList = some place := by
    unfold decode
    cases ofChars? text.toList <;> simp
  rw [hchars, ofChars?_eq_some_iff, encode, ← String.toList_inj, String.toList_ofList]

theorem decode_eq_error (h : ∀ place, decode text ≠ .ok place) :
    decode text = .error (.invalidReference text) := by
  unfold decode at h ⊢
  cases hplace : ofChars? text.toList with
  | none => rfl
  | some place => exact absurd (by rw [hplace]) (h place)

/-- Letters and digits that make up a name: the digits do not start with a zero, and the count of the
letters and the value of the digits fit a word. -/
structure Spelled (letters digits : List Char) : Prop where
  letters_ne_nil : letters ≠ []
  isUpper : ∀ c ∈ letters, c.isUpper
  digits_ne_nil : digits ≠ []
  isDigit : ∀ c ∈ digits, c.isDigit
  head : digits.head? ≠ some '0'
  count_lt : Column.count letters < wordLimit
  value_lt : Nat.ofDigitChars 10 digits 0 < wordLimit

theorem Spelled.named (h : Spelled letters digits) :
    Named (Column.count letters - 1, Nat.ofDigitChars 10 digits 0) ∧
      letters ++ digits = chars (Column.count letters - 1) (Nat.ofDigitChars 10 digits 0) := by
  obtain ⟨hdigits, hpos⟩ := toDigits_ofDigitChars h.digits_ne_nil h.isDigit h.head
  have hcount := h.count_lt
  have hletter := Column.count_pos h.letters_ne_nil
  refine ⟨⟨hpos, h.value_lt, Nat.sub_lt_sub_right hletter hcount⟩, ?_⟩
  rw [chars, Column.letters_count h.letters_ne_nil h.isUpper, hdigits]

theorem Named.spelled (h : Named (col, row)) : Spelled (Column.letters col) (Nat.toDigits 10 row) where
  letters_ne_nil := Column.letters_ne_nil col
  isUpper := Column.all_isUpper_letters col
  digits_ne_nil := Nat.toDigits_ne_nil
  isDigit := isDigit_toDigits row
  head := head?_toDigits_ne_zero h.1
  count_lt := by
    rw [Column.count_letters]
    exact Nat.add_lt_of_lt_sub h.2.2
  value_lt := by
    rw [Nat.ofDigitChars_ten_toDigits]
    exact h.2.1

theorem decode_eq_ok_iff_spelled {place : Nat × Nat} :
    decode text = .ok place ↔ ∃ letters digits, Spelled letters digits ∧
      text = String.ofList (letters ++ digits) ∧
      place = (Column.count letters - 1, Nat.ofDigitChars 10 digits 0) := by
  rw [decode_eq_ok_iff]
  constructor
  · rintro ⟨hplace, rfl⟩
    refine ⟨_, _, hplace.spelled, rfl, ?_⟩
    rw [Column.count_letters, Nat.ofDigitChars_ten_toDigits]
    rfl
  · rintro ⟨letters, digits, h, rfl, rfl⟩
    obtain ⟨hplace, hchars⟩ := h.named
    exact ⟨hplace, congrArg String.ofList hchars⟩

end A1

/-- A reader of names and a writer that are inverse to each other, where what is valid can be written. Each
valid thing has one spelling, and a text that is no spelling is refused with itself as the cause. -/
structure Codec {α : Type} (Valid : α → Prop) (write : α → String)
    (read : String → Except Formula.Error α) : Prop where
  ok_iff : ∀ text a, read text = .ok a ↔ Valid a ∧ text = write a
  error : ∀ text, (∀ a, Valid a → text ≠ write a) → read text = .error (.invalidReference text)
  unique : ∀ text text' a, read text = .ok a → read text' = .ok a → text = text'
  injective : ∀ a b, Valid a → Valid b → write a = write b → a = b

theorem Codec.of_ok_iff {α : Type} {Valid : α → Prop} {write : α → String}
    {read : String → Except Formula.Error α} (hok : ∀ text a, read text = .ok a ↔ Valid a ∧ text = write a)
    (herror : ∀ text, (∀ a, read text ≠ .ok a) → read text = .error (.invalidReference text)) :
    Codec Valid write read where
  ok_iff := hok
  error text h := herror text fun a ha => h a ((hok text a).1 ha).1 ((hok text a).1 ha).2
  unique text text' a h h' := ((hok text a).1 h).2.trans ((hok text' a).1 h').2.symm
  injective a b ha hb heq := by
    have hread := (hok (write a) a).2 ⟨ha, rfl⟩
    exact Except.ok.inj (hread.symm.trans ((hok (write a) b).2 ⟨hb, heq⟩))

namespace Ref
variable {r : Ref} {text : String}

/-- The cells that have a name: row and column, counted from one, fit a word. -/
def Named (r : Ref) : Prop := r.row < wordLimit - 1 ∧ r.col < wordLimit - 1

theorem name_injective : Function.Injective name := by
  intro r r' h
  have hchars : A1.chars r.col (r.row + 1) = A1.chars r'.col (r'.row + 1) := String.ofList_injective h
  obtain ⟨hcol, hrow⟩ := A1.chars_inj hchars
  cases r; cases r'
  simp_all

theorem ofName?_eq_some_iff : ofName? text = some r ↔ r.Named ∧ text = r.name := by
  have hplace : ofName? text = some r ↔ A1.ofChars? text.toList = some (r.col, r.row + 1) := by
    simp only [ofName?, ofChars?, Option.map_eq_some_iff, Prod.exists]
    constructor
    · rintro ⟨col, row, hplace, rfl⟩
      have hpos : 1 ≤ row := (A1.ofChars?_eq_some_iff.1 hplace).1.1
      rw [hplace, Nat.sub_add_cancel hpos]
    · exact fun hplace => ⟨r.col, r.row + 1, hplace, rfl⟩
  have hnamed : A1.Named (r.col, r.row + 1) ↔ r.Named := by
    unfold A1.Named Named
    omega
  rw [hplace, A1.ofChars?_eq_some_iff, hnamed, name, A1.encode, ← String.toList_inj, String.toList_ofList]

theorem parse_eq_ok_iff : parse text = .ok r ↔ r.Named ∧ text = r.name := by
  rw [← ofName?_eq_some_iff]
  unfold parse
  cases ofName? text <;> simp

theorem parse_eq_error (h : ∀ r, parse text ≠ .ok r) : parse text = .error (.invalidReference text) := by
  unfold parse at h ⊢
  cases hr : ofName? text with
  | none => rfl
  | some r => exact absurd (by rw [hr]) (h r)

end Ref

/-- The names that are read are those that are written for places within a word: upper-case letters and a
row without a leading zero. References are read and written like their coordinates. -/
theorem codec_decode :
    Codec A1.Named (fun place => A1.encode place.1 place.2) A1.decode ∧
      (∀ text place, A1.decode text = .ok place ↔ ∃ letters digits, A1.Spelled letters digits ∧
        text = String.ofList (letters ++ digits) ∧
        place = (Column.count letters - 1, Nat.ofDigitChars 10 digits 0)) ∧
      Codec Ref.Named Ref.name Ref.parse := by
  refine ⟨.of_ok_iff (fun _ _ => A1.decode_eq_ok_iff) fun _ => A1.decode_eq_error,
    fun _ _ => A1.decode_eq_ok_iff_spelled, .of_ok_iff (fun _ _ => Ref.parse_eq_ok_iff) fun _ =>
      Ref.parse_eq_error⟩

end Spreadsheet
