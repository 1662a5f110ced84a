import Mathlib.Computability.Language
import Spreadsheet.Proofs.Number.Literal

/-!
# The language of numeric literals

Reading accepts exactly the texts of the rule: digits, which a point and digits may follow, and in a literal one
minus sign in front of them (`isSome_ofNumeral?_iff`, `isSome_ofLiteralChars?_iff`). One pass over the bytes of a
text accepts the same numerals (`passes_iff`). It knows the place of a byte and whether a point was seen, and
refuses a point that is not the first or stands at either end. The bytes of a character beyond ASCII are neither
digits nor points, so the pass never goes on inside a character.
-/

namespace Spreadsheet

namespace Number

/-- One or more digits. -/
def digits : Language Char := {cs | cs ≠ [] ∧ ∀ c ∈ cs, c.isDigit}

/-- Digits, which a point and digits may follow. -/
def numerals : Language Char := digits * (1 + {['.']} * digits)

/-- Numerals with at most one minus sign in front. -/
def literals : Language Char := (1 + {['-']}) * numerals

variable {c : Char} {cs : List Char} {i last : Nat} {seen : Bool}

/-! ### Members -/

theorem mem_digits : cs ∈ digits ↔ cs ≠ [] ∧ ∀ c ∈ cs, c.isDigit := Iff.rfl

theorem mem_numerals :
    cs ∈ numerals ↔ cs ∈ digits ∨ ∃ whole ∈ digits, ∃ fraction ∈ digits, cs = whole ++ '.' :: fraction := by
  simp only [numerals, Language.mem_mul, Language.mem_add, Language.mem_one]
  constructor
  · rintro ⟨whole, hwhole, rest, rfl | ⟨point, rfl, fraction, hfraction, rfl⟩, rfl⟩
    · exact .inl (by rwa [List.append_nil])
    · exact .inr ⟨whole, hwhole, fraction, hfraction, rfl⟩
  · rintro (hcs | ⟨whole, hwhole, fraction, hfraction, rfl⟩)
    · exact ⟨cs, hcs, [], .inl rfl, List.append_nil cs⟩
    · exact ⟨whole, hwhole, '.' :: fraction, .inr ⟨['.'], rfl, fraction, hfraction, rfl⟩, rfl⟩

theorem mem_literals : cs ∈ literals ↔ cs ∈ numerals ∨ ∃ numeral ∈ numerals, cs = '-' :: numeral := by
  simp only [literals, Language.mem_mul, Language.mem_add, Language.mem_one]
  constructor
  · rintro ⟨sign, rfl | rfl, numeral, hnumeral, rfl⟩
    · exact .inl hnumeral
    · exact .inr ⟨numeral, hnumeral, rfl⟩
  · rintro (hcs | ⟨numeral, hnumeral, rfl⟩)
    · exact ⟨[], .inl rfl, cs, hcs, rfl⟩
    · exact ⟨['-'], .inr rfl, numeral, hnumeral, rfl⟩

theorem exists_cons_of_mem_digits (h : cs ∈ digits) : ∃ c rest, cs = c :: rest ∧ c.isDigit := by
  obtain ⟨c, rest, rfl⟩ := List.exists_cons_of_ne_nil h.1
  exact ⟨c, rest, rfl, h.2 c List.mem_cons_self⟩

theorem exists_cons_of_mem_numerals (h : cs ∈ numerals) : ∃ c rest, cs = c :: rest ∧ c.isDigit := by
  rcases mem_numerals.1 h with h | ⟨whole, hwhole, fraction, -, rfl⟩
  · exact exists_cons_of_mem_digits h
  · obtain ⟨c, rest, rfl, hc⟩ := exists_cons_of_mem_digits hwhole
    exact ⟨c, rest ++ '.' :: fraction, rfl, hc⟩

theorem minus_cons_notMem_numerals (cs : List Char) : '-' :: cs ∉ numerals := by
  intro h
  obtain ⟨c, rest, heq, hc⟩ := exists_cons_of_mem_numerals h
  obtain ⟨rfl, -⟩ := List.cons.inj heq
  exact absurd hc (by decide)

/-! ### Reading -/

theorem mem_numerals_of_isSome (h : (Decimal.ofChars? cs).isSome) : cs ∈ numerals := by
  have hdigits : ∀ c ∈ cs.takeWhile Char.isDigit, c.isDigit := fun c hc => List.mem_takeWhile_imp hc
  have hcs : cs.takeWhile Char.isDigit ++ cs.dropWhile Char.isDigit = cs := List.takeWhile_append_dropWhile
  revert h
  fun_cases Decimal.ofChars? cs with
  | case2 whole hrest hne =>
    intro _
    rw [hrest, List.append_nil] at hcs
    rw [← hcs]
    exact mem_numerals.2 (.inl ⟨hne, hdigits⟩)
  | case4 whole fraction hrest h =>
    intro _
    obtain ⟨hne, hne', hfraction⟩ : whole ≠ [] ∧ fraction ≠ [] ∧ ∀ c ∈ fraction, c.isDigit := by
      simpa only [not_or, Bool.not_eq_false, List.all_eq_true] using h
    rw [hrest] at hcs
    rw [← hcs]
    exact mem_numerals.2 (.inr ⟨whole, ⟨hne, hdigits⟩, fraction, ⟨hne', hfraction⟩, rfl⟩)
  | case1 | case3 | case5 => exact nofun

theorem isSome_ofChars?_iff : (Decimal.ofChars? cs).isSome ↔ cs ∈ numerals := by
  refine ⟨mem_numerals_of_isSome, fun h => ?_⟩
  rcases mem_numerals.1 h with ⟨hne, hcs⟩ | ⟨whole, ⟨hne, hwhole⟩, fraction, ⟨hne', hfraction⟩, rfl⟩
  · rw [Decimal.ofChars?_of_digits hne hcs, Option.isSome_some]
  · rw [Decimal.ofChars?_of_point hwhole hfraction hne hne', Option.isSome_some]

theorem isSome_ofNumeral?_iff : (ofNumeral? cs).isSome ↔ cs ∈ numerals := by
  rw [ofNumeral?, Option.isSome_map, isSome_ofChars?_iff]

theorem isSome_ofLiteralChars?_iff : (ofLiteralChars? cs).isSome ↔ cs ∈ literals := by
  rw [mem_literals]
  unfold ofLiteralChars?
  split
  · next numeral =>
    rw [Option.isSome_map, isSome_ofChars?_iff]
    simp [minus_cons_notMem_numerals]
  · next hminus =>
    have hsign : ¬ ∃ numeral ∈ numerals, cs = '-' :: numeral := by
      rintro ⟨numeral, -, rfl⟩
      exact hminus numeral rfl
    rw [isSome_ofNumeral?_iff, or_iff_left hsign]

theorem ofLiteralChars?_of_mem_numerals (h : cs ∈ numerals) : ofLiteralChars? cs = ofNumeral? cs := by
  obtain ⟨c, rest, rfl, hc⟩ := exists_cons_of_mem_numerals h
  exact ofLiteralChars?_of_isDigit hc

/-! ### One pass over the bytes -/

/-- The bytes of the digits. -/
def isDigitByte (b : UInt8) : Bool := '0'.toUInt8 ≤ b && b ≤ '9'.toUInt8

/-- The pass from place `i` on, over a text that ends at place `last`; `seen` tells whether a point came before. -/
def passesFrom (last : Nat) : Nat → Bool → List UInt8 → Bool
  | _, _, [] => true
  | i, seen, b :: bs =>
    if isDigitByte b then passesFrom last (i + 1) seen bs
    else b == '.'.toUInt8 && !seen && i != 0 && i != last && passesFrom last (i + 1) true bs

/-- Whether each byte is a digit, or a point that is the first one and stands at neither end. -/
def passes (bs : List UInt8) : Bool := bs != [] && passesFrom (bs.length - 1) 0 false bs

/-- The bytes of some characters in UTF-8. -/
def utf8 (cs : List Char) : List UInt8 := cs.flatMap String.utf8EncodeChar

theorem utf8_toList (s : String) : utf8 s.toList = s.toUTF8.data.toList := by
  rw [String.toUTF8_eq_toByteArray, ← String.utf8Encode_toList, List.utf8Encode, List.toList_data_toByteArray]
  rfl

theorem utf8_eq_nil_iff : utf8 cs = [] ↔ cs = [] := by
  cases cs <;> simp [utf8]

theorem utf8_cons_of_ascii (h : c.toNat < 128) : utf8 (c :: cs) = c.toUInt8 :: utf8 cs := by
  have hc : c.val.toNat ≤ 127 := Nat.le_of_lt_succ h
  rw [utf8, List.flatMap_cons, String.utf8EncodeChar, if_pos hc]
  rfl

theorem exists_utf8_cons (h : 128 ≤ c.toNat) : ∃ b bs, utf8 (c :: cs) = b :: bs ∧ 128 ≤ b.toNat := by
  have hc : ¬ c.val.toNat ≤ 127 := Nat.not_le_of_lt h
  have hhead : ∃ b bs, String.utf8EncodeChar c = b :: bs ∧ 128 ≤ b.toNat := by
    simp only [String.utf8EncodeChar, if_neg hc]
    split_ifs <;> refine ⟨_, _, rfl, ?_⟩ <;> rw [UInt8.toNat_ofNat'] <;> omega
  obtain ⟨b, bs, hbs, hb⟩ := hhead
  exact ⟨b, bs ++ utf8 cs, by rw [utf8, List.flatMap_cons, hbs, List.cons_append]; rfl, hb⟩

theorem ascii_of_isDigit (h : c.isDigit) : c.toNat < 128 :=
  Nat.lt_of_le_of_lt (Char.isDigit_iff_toNat.1 h).2 (by decide)

theorem toNat_toUInt8 (h : c.toNat < 128) : c.toUInt8.toNat = c.toNat :=
  UInt32.toNat_toUInt8 c.val |>.trans (Nat.mod_eq_of_lt (Nat.lt_trans h (by decide)))

theorem isDigitByte_iff {b : UInt8} : isDigitByte b ↔ '0'.toNat ≤ b.toNat ∧ b.toNat ≤ '9'.toNat := by
  rw [isDigitByte, Bool.and_eq_true, decide_eq_true_eq, decide_eq_true_eq, UInt8.le_iff_toNat_le,
    UInt8.le_iff_toNat_le]
  rfl

/-- The first byte of a character tells that it is neither a digit nor a point. -/
theorem exists_utf8_cons_of_other (cs : List Char) (hdigit : ¬ c.isDigit) (hpoint : c ≠ '.') :
    ∃ b bs, utf8 (c :: cs) = b :: bs ∧ ¬ isDigitByte b ∧ b ≠ '.'.toUInt8 := by
  by_cases hascii : c.toNat < 128
  · refine ⟨_, _, utf8_cons_of_ascii hascii, ?_, fun heq => hpoint ?_⟩
    · rwa [isDigitByte_iff, toNat_toUInt8 hascii, ← Char.isDigit_iff_toNat]
    · rw [← Char.toNat_inj, ← toNat_toUInt8 hascii, heq]
      rfl
  · obtain ⟨b, bs, hutf8, hb⟩ := exists_utf8_cons (Nat.le_of_not_lt hascii)
    refine ⟨b, bs, hutf8, fun hdigit => ?_, ?_⟩
    · exact absurd (Nat.le_trans hb (isDigitByte_iff.1 hdigit).2) (by decide)
    · rintro rfl
      exact absurd hb (by decide)

/-! #### Steps -/

theorem passesFrom_digit (hc : c.isDigit) :
    passesFrom last i seen (utf8 (c :: cs)) = passesFrom last (i + 1) seen (utf8 cs) := by
  have hascii := ascii_of_isDigit hc
  have hbyte : isDigitByte c.toUInt8 := by rwa [isDigitByte_iff, toNat_toUInt8 hascii, ← Char.isDigit_iff_toNat]
  rw [utf8_cons_of_ascii hascii, passesFrom, if_pos hbyte]

theorem passesFrom_point : passesFrom last i seen (utf8 ('.' :: cs)) =
    (!seen && i != 0 && i != last && passesFrom last (i + 1) true (utf8 cs)) := by
  rw [utf8_cons_of_ascii (by decide), passesFrom, if_neg (by decide), beq_self_eq_true, Bool.true_and]

theorem passesFrom_other (hdigit : ¬ c.isDigit) (hpoint : c ≠ '.') :
    passesFrom last i seen (utf8 (c :: cs)) = false := by
  obtain ⟨b, bs, hutf8, hdigit, hpoint⟩ := exists_utf8_cons_of_other cs hdigit hpoint
  rw [hutf8, passesFrom, if_neg hdigit, beq_eq_false_iff_ne.2 hpoint]
  simp only [Bool.false_and]

/-! #### Runs -/

/-- Behind a point there are only digits. -/
theorem passesFrom_seen_iff : passesFrom last i true (utf8 cs) ↔ ∀ c ∈ cs, c.isDigit := by
  induction cs generalizing i with
  | nil => simp [utf8, passesFrom]
  | cons c cs ih =>
    by_cases hdigit : c.isDigit
    · rw [passesFrom_digit hdigit, ih, List.forall_mem_cons, and_iff_right hdigit]
    · have hfalse : passesFrom last i true (utf8 (c :: cs)) = false := by
        by_cases hpoint : c = '.'
        · rw [hpoint, passesFrom_point, Bool.not_true]
          simp only [Bool.false_and]
        · exact passesFrom_other hdigit hpoint
      simp [hfalse, hdigit]

/-- Digits with one point between them. Those in front may be missing if the text does not start at place zero. -/
def Pointed (i : Nat) (cs : List Char) : Prop :=
  ∃ whole fraction, (∀ c ∈ whole, c.isDigit) ∧ 0 < i + whole.length ∧ fraction ∈ digits ∧
    cs = whole ++ '.' :: fraction

theorem pointed_cons_iff :
    Pointed i (c :: cs) ↔ c = '.' ∧ 0 < i ∧ cs ∈ digits ∨ c.isDigit ∧ Pointed (i + 1) cs := by
  constructor
  · rintro ⟨whole, fraction, hwhole, hpos, hfraction, heq⟩
    rcases List.cons_eq_append_iff.1 heq with ⟨rfl, hcons⟩ | ⟨whole, rfl, rfl⟩
    · obtain ⟨rfl, rfl⟩ := List.cons.inj hcons
      exact .inl ⟨rfl, hpos, hfraction⟩
    · obtain ⟨hc, hwhole⟩ := List.forall_mem_cons.1 hwhole
      exact .inr ⟨hc, whole, fraction, hwhole, by omega, hfraction, rfl⟩
  · rintro (⟨rfl, hpos, hcs⟩ | ⟨hc, whole, fraction, hwhole, -, hfraction, rfl⟩)
    · exact ⟨[], cs, nofun, hpos, hcs, rfl⟩
    · exact ⟨c :: whole, fraction, List.forall_mem_cons.2 ⟨hc, hwhole⟩, Nat.succ_pos _, hfraction, rfl⟩

/-- Before a point, the places tell whether one may stand there. -/
theorem passesFrom_unseen_iff (hlast : i + (utf8 cs).length = last + 1) :
    passesFrom last i false (utf8 cs) ↔ (∀ c ∈ cs, c.isDigit) ∨ Pointed i cs := by
  induction cs generalizing i with
  | nil => simp [utf8, passesFrom]
  | cons c cs ih =>
    rw [pointed_cons_iff, List.forall_mem_cons]
    by_cases hdigit : c.isDigit
    · have hpoint : c ≠ '.' := by
        rintro rfl
        exact absurd hdigit (by decide)
      have hrest : i + 1 + (utf8 cs).length = last + 1 := by
        rw [utf8_cons_of_ascii (ascii_of_isDigit hdigit), List.length_cons] at hlast
        omega
      rw [passesFrom_digit hdigit, ih hrest]
      simp [hdigit, hpoint]
    by_cases hpoint : c = '.'
    · subst hpoint
      -- a point at the last place has nothing behind it
      have hend : i ≠ last ↔ cs ≠ [] := by
        rw [utf8_cons_of_ascii (by decide), List.length_cons] at hlast
        rw [not_iff_not, ← utf8_eq_nil_iff, ← List.length_eq_zero_iff]
        omega
      simp [passesFrom_point, passesFrom_seen_iff, mem_digits, hend, hdigit, Nat.pos_iff_ne_zero, and_assoc]
    · simp [passesFrom_other hdigit hpoint, hdigit, hpoint]

theorem pointed_zero_iff :
    Pointed 0 cs ↔ ∃ whole ∈ digits, ∃ fraction ∈ digits, cs = whole ++ '.' :: fraction := by
  constructor
  · rintro ⟨whole, fraction, hwhole, hpos, hfraction, rfl⟩
    rw [Nat.zero_add, List.length_pos_iff] at hpos
    exact ⟨whole, ⟨hpos, hwhole⟩, fraction, hfraction, rfl⟩
  · rintro ⟨whole, ⟨hne, hwhole⟩, fraction, hfraction, rfl⟩
    rw [← List.length_pos_iff, ← Nat.zero_add whole.length] at hne
    exact ⟨whole, fraction, hwhole, hne, hfraction, rfl⟩

theorem passes_iff : passes (utf8 cs) ↔ cs ∈ numerals := by
  rw [passes, Bool.and_eq_true, bne_iff_ne, Ne, utf8_eq_nil_iff, mem_numerals, ← pointed_zero_iff, mem_digits]
  by_cases hne : cs = []
  · simp [hne, Pointed]
  · have hlength : 0 < (utf8 cs).length := List.length_pos_iff.2 (mt utf8_eq_nil_iff.1 hne)
    rw [passesFrom_unseen_iff (by omega), and_iff_right hne, and_iff_right hne]

example : ["007.10", ".", ".5", "5.", "1.2.3", "1,5"].map (fun s => passes (utf8 s.toList)) =
    [true, false, false, false, false, false] := by decide

end Number

end Spreadsheet
