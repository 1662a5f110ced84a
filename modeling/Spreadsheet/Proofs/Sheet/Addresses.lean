import Spreadsheet.Proofs.Formula.Expr
import Spreadsheet.Proofs.Formula.Lexing
import Spreadsheet.Proofs.Ref.Names
import Spreadsheet.Proofs.Sheet.Run

/-!
# Cells by their names

A name is a word, and as it starts with a letter it is no numeral, so its token is the cell that it names
(`Ref.ofWord_name`) wherever it stands in a formula. The last column of the sheet is the exception: its
letters are written, but they count columns from one, and their count does not fit a word.
-/

namespace Spreadsheet

namespace Ref
variable {r : Ref}

theorem toList_name : r.name.toList = A1.chars r.col (r.row + 1) := String.toList_ofList

theorem name_ne_nil : r.name.toList ≠ [] := by
  rw [toList_name, A1.chars]
  exact List.append_ne_nil_of_left_ne_nil (Column.letters_ne_nil r.col) _

theorem isWord_name : ∀ c ∈ r.name.toList, Token.isWord c := by
  intro c hc
  rw [toList_name, A1.chars] at hc
  show (c.isUpper || c.isLower || c.isDigit || c == '.') = true
  rcases List.mem_append.1 hc with hc | hc
  · simp [Column.all_isUpper_letters r.col c hc]
  · simp [A1.isDigit_toDigits _ c hc]

theorem ofNumeral?_name : Number.ofNumeral? r.name.toList = none := by
  obtain ⟨c, cs, hletters⟩ := List.exists_cons_of_ne_nil (Column.letters_ne_nil r.col)
  have hc : c.isUpper := Column.all_isUpper_letters r.col c (by simp [hletters])
  have hdigit : ¬ c.isDigit := fun hdigit => A1.not_isUpper_of_isDigit hdigit hc
  have hpoint : c ≠ '.' := by
    rintro rfl
    exact absurd hc (by decide)
  rw [toList_name, A1.chars, hletters, List.cons_append, Number.ofNumeral?, Option.map_eq_none_iff]
  simp only [Decimal.ofChars?, List.takeWhile_cons_of_neg hdigit, List.dropWhile_cons_of_neg hdigit]
  split
  · rfl
  · next heq => exact absurd (List.cons.inj heq).1 hpoint
  · rfl

theorem ofWord_name (h : r.Named) : Token.ofWord r.name.toList = .ref r := by
  have hr : ofChars? r.name.toList = some r := ofName?_eq_some_iff.2 ⟨h, rfl⟩
  simp [Token.ofWord, ofNumeral?_name, hr]

theorem ofName?_name_of_not_named (h : ¬ r.Named) : ofName? r.name = none := by
  refine Option.eq_none_iff_forall_ne_some.2 fun x hx => ?_
  obtain ⟨hx, hname⟩ := ofName?_eq_some_iff.1 hx
  exact h (name_injective hname ▸ hx)

theorem ofWord_name_of_not_named (h : ¬ r.Named) : Token.ofWord r.name.toList = .unknown r.name := by
  have hr : ofChars? r.name.toList = none := ofName?_name_of_not_named h
  simp [Token.ofWord, ofNumeral?_name, hr]

theorem scan_name : Token.ofText r.name = [Token.ofWord r.name.toList] :=
  Token.scan_word name_ne_nil isWord_name

end Ref

namespace Formula
variable {r : Ref} {values : Lookup}

theorem expression?_eq (cs : List Char) : expression? (String.ofList ('=' :: cs)) = some cs := by
  simp [expression?]

/-- A formula that is nothing but a name reads the cell of the name. -/
theorem evaluate_name (h : r.Named) :
    evaluate values (String.ofList ('=' :: r.name.toList)) = (Expr.ref r).evaluate values := by
  have hscan : Token.scan r.name.toList = [.ref r] := Ref.scan_name.trans (by rw [Ref.ofWord_name h])
  have hprog : Postfix.ofTokens [.ref r] = .ok (Expr.ref r).postorder := by
    simp [Postfix.ofTokens, Postfix.arrange, Expr.postorder]
  simp only [evaluate, expression?_eq, hscan, hprog, Postfix.eval_postorder, List.findSome?_cons,
    List.findSome?_nil]
  cases hvalue : values r with
  | none => simp [Token.invalid?, hvalue, Expr.evaluate, Expr.compute, bind, Except.bind]
  | some v => simp [Token.invalid?, hvalue]

end Formula

namespace Sheet
variable {r : Ref}

/-- The cell can be addressed by its name. -/
structure Addressed (s : Sheet) (r : Ref) : Prop where
  parse : Ref.parse r.name = .ok r
  cell : s.cellNamed? r.name = s.cell? r
  tokens : Token.ofText r.name = [.ref r]
  /-- A formula depends on the cell wherever the name stands as a word. -/
  references : ∀ before after : List Char, (∀ c ∈ before.getLast?, ¬ Token.isWord c) →
    (∀ c ∈ after.head?, ¬ Token.isWord c) →
    Formula.references (String.ofList ('=' :: (before ++ r.name.toList ++ after))) =
      (Token.scan before).filterMap Token.ref? ++ r :: (Token.scan after).filterMap Token.ref?
  reads : ∀ values, Formula.evaluate values (String.ofList ('=' :: r.name.toList)) =
    (Expr.ref r).evaluate values

theorem addressed_of_named (s : Sheet) (h : r.Named) : s.Addressed r where
  parse := Ref.parse_eq_ok_iff.2 ⟨h, rfl⟩
  cell := by
    rw [cellNamed?, Ref.ofName?_eq_some_iff.2 ⟨h, rfl⟩]
    rfl
  tokens := by rw [Ref.scan_name, Ref.ofWord_name h]
  references before after hbefore hafter := by
    have hscan := Token.scan_between (Ref.name_ne_nil (r := r)) Ref.isWord_name hbefore hafter
    rw [Formula.references, Formula.expression?_eq, Option.getD_some, hscan, Ref.ofWord_name h,
      List.filterMap_append]
    rfl
  reads _ := Formula.evaluate_name h

/-- The name of the cell is the name of no cell. -/
structure Unaddressed (s : Sheet) (r : Ref) : Prop where
  parse : Ref.parse r.name = .error (.invalidReference r.name)
  cell : s.cellNamed? r.name = none
  tokens : Token.ofText r.name = [.unknown r.name]

theorem unaddressed_of_not_named (s : Sheet) (h : ¬ r.Named) : s.Unaddressed r where
  parse := by rw [Ref.parse, Ref.ofName?_name_of_not_named h]
  cell := by
    rw [cellNamed?, Ref.ofName?_name_of_not_named h]
    rfl
  tokens := by rw [Ref.scan_name, Ref.ofWord_name_of_not_named h]

/-- Each cell can be addressed by its name, except in the last column, where none can. -/
theorem addressed_or_last_column (s : Sheet) (hrow : r.row < wordLimit - 1) (hcol : r.col < wordLimit) :
    r.col < wordLimit - 1 ∧ s.Addressed r ∨ r.col = wordLimit - 1 ∧ s.Unaddressed r := by
  rcases Nat.lt_or_eq_of_le (Nat.le_sub_one_of_lt hcol) with hlt | hlast
  · exact .inl ⟨hlt, s.addressed_of_named ⟨hrow, hlt⟩⟩
  · exact .inr ⟨hlast, s.unaddressed_of_not_named fun hnamed => Nat.ne_of_lt hnamed.2 hlast⟩

/-- The last column but one, in a sheet with a cell there. -/
theorem addressed_or_last_column_before :
    let r : Ref := ⟨0, wordLimit - 2⟩
    let s := (Sheet.empty .topological).after [.set r "5"]
    r.row < wordLimit - 1 ∧ r.col < wordLimit ∧
      (r.col < wordLimit - 1 ∧ s.Addressed r ∨ r.col = wordLimit - 1 ∧ s.Unaddressed r) :=
  ⟨by decide, by decide, addressed_or_last_column _ (by decide) (by decide)⟩

/-- In the last column there can be a cell, and it cannot be addressed. -/
theorem not_addressed_last_column :
    let r : Ref := ⟨0, wordLimit - 1⟩
    let s := (Sheet.empty .topological).after [.set r "5"]
    s.cell? r = some (.ofLiteral "5") ∧ s.Unaddressed r ∧ ¬ s.Addressed r := by
  have hunaddressed (s : Sheet) : s.Unaddressed ⟨0, wordLimit - 1⟩ :=
    s.unaddressed_of_not_named fun h => absurd h.2 (Nat.lt_irrefl _)
  refine ⟨by decide +kernel, hunaddressed _, fun h => ?_⟩
  cases h.parse.symm.trans (hunaddressed (Sheet.empty .topological)).parse

end Sheet

end Spreadsheet
