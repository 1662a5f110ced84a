import Spreadsheet.Proofs.Formula.Pieces
import Spreadsheet.Proofs.Number.Language

/-!
# Numerals and names

A word is tried as a numeral before it is tried as the name of a cell. The order does not matter: a numeral starts
with a digit and a name with a letter, so no numeral is a name (`Ref.parse_of_mem_numerals`). Hence a word is a
number exactly if it is in the language of numerals, a cell exactly if it is the name of one, and unknown as a
whole if it is neither (`OfWord.standsFor`).
-/

namespace Spreadsheet
open Number (numerals literals)

namespace Ref
variable {cs : List Char} {text : String} {r : Ref}

theorem parse_eq_ok_iff_ofChars? : parse text = .ok r ↔ ofChars? text.toList = some r := by
  unfold parse ofName?
  cases ofChars? text.toList <;> simp

theorem ofChars?_of_mem_numerals (h : cs ∈ numerals) : ofChars? cs = none := by
  obtain ⟨c, rest, rfl, hc⟩ := Number.exists_cons_of_mem_numerals h
  have hletters : (c :: rest).takeWhile Char.isUpper = [] :=
    List.takeWhile_cons_of_neg (A1.not_isUpper_of_isDigit hc)
  rw [ofChars?, A1.ofChars?, hletters]
  rfl

theorem parse_of_mem_numerals (h : text.toList ∈ numerals) : parse text = .error (.invalidReference text) := by
  refine parse_eq_error fun r hr => ?_
  rw [parse_eq_ok_iff_ofChars?, ofChars?_of_mem_numerals h] at hr
  cases hr

end Ref

namespace Token
variable {s : String} {token : Token}

/-- The token is what the text stands for as a word: a number, read as the literal is, or a cell, or unknown. -/
structure StandsFor (s : String) (token : Token) : Prop where
  number_iff : (∃ x, token = .number x) ↔ s.toList ∈ numerals
  value : ∀ x, token = .number x → Number.ofLiteral? s = some x
  ref_iff : ∀ r, token = .ref r ↔ Ref.parse s = .ok r
  unknown_iff : ∀ text, token = .unknown text ↔ text = s ∧ s.toList ∉ numerals ∧ ∀ r, Ref.parse s ≠ .ok r

theorem OfWord.standsFor (h : OfWord s.toList token) : StandsFor s token := by
  cases h with
  | @number x hx =>
    have hmem : s.toList ∈ numerals := Number.isSome_ofNumeral?_iff.1 (Option.isSome_of_eq_some hx)
    have hparse := Ref.parse_of_mem_numerals hmem
    refine ⟨iff_of_true ⟨x, rfl⟩ hmem, ?_, by simp [hparse], by simp [hmem]⟩
    rintro _ ⟨⟩
    rw [Number.ofLiteral?, Number.ofLiteralChars?_of_mem_numerals hmem, hx]
  | ref hr =>
    have hmem : s.toList ∉ numerals := by
      intro hmem
      rw [Ref.ofChars?_of_mem_numerals hmem] at hr
      cases hr
    have hparse := Ref.parse_eq_ok_iff_ofChars?.2 hr
    exact ⟨by simp [hmem], by simp, by simp [hparse], by simp [hparse]⟩
  | unknown hnumeral hr =>
    have hmem : s.toList ∉ numerals := by
      rw [← Number.isSome_ofNumeral?_iff, hnumeral]
      exact Bool.false_ne_true
    have hparse : ∀ r, Ref.parse s ≠ .ok r := by
      intro r hparse
      rw [Ref.parse_eq_ok_iff_ofChars?, hr] at hparse
      cases hparse
    rw [String.ofList_toList]
    exact ⟨by simp [hmem], by simp, by simp [hparse], by simp [hmem, hparse, eq_comm]⟩

/-- What the rule of numeric literals accepts, and what it leaves to the names of cells. The characters of words
are the ASCII letters, the digits and the point (`isWord_iff`). -/
structure LiteralRule (s : String) : Prop where
  /-- A literal is a numeral with at most one minus sign in front. -/
  literal : (Number.ofLiteral? s).isSome ↔ s.toList ∈ literals
  numeral : (Number.ofNumeral? s.toList).isSome ↔ s.toList ∈ numerals
  /-- The bytes tell in one pass whether a text is a numeral. -/
  onePass : Number.passes s.toUTF8.data.toList ↔ s.toList ∈ numerals
  /-- No numeral is the name of a cell. -/
  disjoint : s.toList ∈ numerals → Ref.parse s = .error (.invalidReference s)
  /-- A word is one token, wherever it stands in a text. -/
  word : s ≠ "" → (∀ c ∈ s.toList, isWord c) → ∀ before behind : String,
    (∀ a ∈ before.toList.getLast?, ¬ isWord a) → (∀ b ∈ behind.toList.head?, ¬ isWord b) →
      ∃ token, StandsFor s token ∧ ofText (before ++ s ++ behind) = ofText before ++ token :: ofText behind

theorem literalRule (s : String) : LiteralRule s where
  literal := Number.isSome_ofLiteralChars?_iff
  numeral := Number.isSome_ofNumeral?_iff
  onePass := by rw [← Number.utf8_toList, Number.passes_iff]
  disjoint := Ref.parse_of_mem_numerals
  word hne hs before behind hbefore hbehind := by
    refine ⟨_, (ofWord_ofWord s.toList).standsFor, ?_⟩
    rw [ofText, String.toList_append, String.toList_append]
    exact scan_between (by simpa using hne) hs hbefore hbehind

end Token

end Spreadsheet
