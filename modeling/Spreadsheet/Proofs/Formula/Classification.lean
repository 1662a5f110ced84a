import Spreadsheet.Proofs.Formula.Balance
import Spreadsheet.Proofs.Formula.Lexing
import Spreadsheet.Proofs.Formula.Strict

/-!
# Which error comes first

Evaluation has three stages with errors of their own. All tokens are checked first, and the first unusable one
is the answer, whatever else is wrong (`allUsable_iff`). Then the parentheses are, before the value of any cell
matters. What is left is the run, and its errors come from the first item that fails on its own, in the order
of the program (`evaluate_eq_error_iff_failsAlone`). The later stages look for unusable tokens once more and find
none.
-/

namespace Spreadsheet

namespace Token

def AllUsable (values : Lookup) (ts : List Token) : Prop := ∀ t ∈ ts, ∀ text, ¬ Unusable values t text

variable {values values' : Lookup} {t : Token} {ts : List Token} {e : Formula.Error} {text : String}

theorem Unusable.text? (h : Unusable values t text) : t.text? = some text := by
  cases h <;> rfl

theorem invalid?_eq_none_iff : invalid? values t = none ↔ ∀ text, ¬ Unusable values t text := by
  rw [Option.eq_none_iff_forall_ne_some]
  simp only [ne_eq, invalid?_eq_some_iff]
  grind

/-- The first complaint is about the first token that is unusable. -/
theorem findSome?_invalid?_eq_some_iff : ts.findSome? (invalid? values) = some e ↔
    ∃ before t behind, ts = before ++ t :: behind ∧ AllUsable values before ∧
      ∃ text, Unusable values t text ∧ e = .invalidToken text := by
  rw [List.findSome?_eq_some_iff]
  simp only [invalid?_eq_some_iff, invalid?_eq_none_iff, AllUsable]
  grind

theorem findSome?_invalid?_eq_none_iff : ts.findSome? (invalid? values) = none ↔ AllUsable values ts := by
  simp only [List.findSome?_eq_none_iff, invalid?_eq_none_iff, AllUsable]

namespace AllUsable
variable {is : List Item}

theorem congr (h : AllUsable values ts) (hvalues : ∀ r, values' r = none ↔ values r = none) :
    AllUsable values' ts := by
  intro t ht text hunusable
  cases hunusable with
  | unknown => exact h _ ht text .unknown
  | absent hr => exact h _ ht _ (.absent ((hvalues _).1 hr))

/-- What is refused in usable tokens are the parentheses. -/
theorem fault_of_ofTokens (h : AllUsable values ts) (herror : Postfix.ofTokens ts = .error e) :
    ∃ fault, (fault = .unmatchedClosing ∨ fault = .unmatchedOpening) ∧ e = .invalidFormula fault := by
  rcases Postfix.ofTokens_eq_error_iff.1 herror with
    ⟨before, t, behind, rfl, -, ⟨text, rfl, -⟩ | ⟨-, -, rfl⟩⟩ | ⟨-, -, rfl⟩
  · exact absurd .unknown (h (.unknown text) (by simp) text)
  · exact ⟨_, .inl rfl, rfl⟩
  · exact ⟨_, .inr rfl, rfl⟩

/-- The program of usable tokens finds the cells of all its references. -/
theorem eval_ne_invalidToken (h : AllUsable values ts) (hprog : Postfix.ofTokens ts = .ok is) :
    Postfix.eval values is ≠ .error (.invalidToken text) := by
  intro herror
  obtain ⟨before, i, behind, rfl, stack, -, halone⟩ :=
    (Postfix.eval_eq_error_iff_failsAlone (by nofun)).1 herror
  cases halone with
  | @absent _ r hr =>
    have hmem : .ref r ∈ ts := (Postfix.ref_mem_of_arrange hprog).1 (by simp)
    exact h _ hmem _ (.absent hr)

end AllUsable

end Token

namespace Formula
variable {values : Lookup} {expr : String} {e : Error}

open Token (AllUsable Unusable)

theorem expression?_append (expr : String) : expression? ("=" ++ expr) = some expr.toList := by
  simp [expression?]

theorem mem_references_append {r : Ref} : r ∈ references ("=" ++ expr) ↔ .ref r ∈ Token.ofText expr := by
  rw [mem_references, expression?_append]
  rfl

theorem evaluate_of_allUsable (h : AllUsable values (Token.ofText expr)) :
    evaluate values ("=" ++ expr) = Postfix.ofTokens (Token.ofText expr) >>= Postfix.eval values := by
  have hcheck : (Token.scan expr.toList).findSome? (Token.invalid? values) = none :=
    Token.findSome?_invalid?_eq_none_iff.2 h
  rw [evaluate, expression?_append]
  simp only [hcheck, Token.ofText]
  cases Postfix.ofTokens (Token.scan expr.toList) <;> rfl

theorem evaluate_of_not_allUsable (h : ¬ AllUsable values (Token.ofText expr)) :
    ∃ before t behind text, Token.ofText expr = before ++ t :: behind ∧ AllUsable values before ∧
      Unusable values t text ∧ evaluate values ("=" ++ expr) = .error (.invalidToken text) := by
  cases hcheck : (Token.ofText expr).findSome? (Token.invalid? values) with
  | none => exact absurd (Token.findSome?_invalid?_eq_none_iff.1 hcheck) h
  | some e =>
    obtain ⟨before, t, behind, hsplit, hbefore, text, ht, rfl⟩ := Token.findSome?_invalid?_eq_some_iff.1 hcheck
    refine ⟨before, t, behind, text, hsplit, hbefore, ht, ?_⟩
    rw [Token.ofText] at hcheck
    rw [evaluate, expression?_append]
    simp only [hcheck]

theorem allUsable_iff : AllUsable values (Token.ofText expr) ↔
    ∀ text, evaluate values ("=" ++ expr) ≠ .error (.invalidToken text) := by
  constructor
  · intro h text herror
    rw [evaluate_of_allUsable h] at herror
    cases hprog : Postfix.ofTokens (Token.ofText expr) with
    | ok is => exact h.eval_ne_invalidToken hprog (by rwa [hprog] at herror)
    | error e =>
      obtain ⟨fault, -, rfl⟩ := h.fault_of_ofTokens hprog
      rw [hprog] at herror
      cases herror
  · intro h
    by_contra hnot
    obtain ⟨_, _, _, text, -, -, -, herror⟩ := evaluate_of_not_allUsable hnot
    exact h text herror

/-- Other errors than those of tokens and of the form come from the first item that fails on its own. -/
theorem evaluate_eq_error_iff_failsAlone (htoken : ∀ text, e ≠ .invalidToken text)
    (hfault : ∀ fault, e ≠ .invalidFormula fault) :
    evaluate values ("=" ++ expr) = .error e ↔ AllUsable values (Token.ofText expr) ∧
      ∃ before i behind stack, Postfix.ofTokens (Token.ofText expr) = .ok (before ++ i :: behind) ∧
        Postfix.exec values [] before = .ok stack ∧ Postfix.FailsAlone values stack i e := by
  constructor
  · intro h
    have husable : AllUsable values (Token.ofText expr) :=
      allUsable_iff.2 fun text htext => htoken text (Except.error.inj (h.symm.trans htext))
    refine ⟨husable, ?_⟩
    rw [evaluate_of_allUsable husable] at h
    cases hprog : Postfix.ofTokens (Token.ofText expr) with
    | ok is =>
      rw [hprog] at h
      obtain ⟨before, i, behind, rfl, stack, hbefore, halone⟩ := (Postfix.eval_eq_error_iff_failsAlone hfault).1 h
      exact ⟨before, i, behind, stack, rfl, hbefore, halone⟩
    | error e' =>
      obtain ⟨fault, -, rfl⟩ := husable.fault_of_ofTokens hprog
      rw [hprog] at h
      exact absurd (Except.error.inj h).symm (hfault fault)
  · rintro ⟨husable, before, i, behind, stack, hprog, hbefore, halone⟩
    rw [evaluate_of_allUsable husable, hprog]
    exact (Postfix.eval_eq_error_iff_failsAlone hfault).2 ⟨before, i, behind, rfl, stack, hbefore, halone⟩

/-- What the outcome of a formula says about it. -/
structure Classified (values : Lookup) (expr : String) : Prop where
  invalidToken_iff : (∃ x, evaluate values ("=" ++ expr) = .error (.invalidToken x)) ↔
    ∃ t ∈ Token.ofText expr, ∃ x, Unusable values t x
  /-- The text of the first unusable token, where it stands. -/
  leftmost : ∀ x, evaluate values ("=" ++ expr) = .error (.invalidToken x) → ∃ s t u, expr = s ++ x ++ u ∧
    Token.ofText expr = Token.ofText s ++ t :: Token.ofText u ∧ AllUsable values (Token.ofText s) ∧
      Unusable values t x
  /-- The answer is the same whatever the cells hold. -/
  unbalanced : AllUsable values (Token.ofText expr) → ¬ Token.Balanced (Token.ofText expr) →
    ∃ fault, (fault = .unmatchedClosing ∨ fault = .unmatchedOpening) ∧
      ∀ values', (∀ r, values' r = none ↔ values r = none) →
        evaluate values' ("=" ++ expr) = .error (.invalidFormula fault)
  invalidOperand_iff : ∀ r, evaluate values ("=" ++ expr) = .error (.invalidOperand r) ↔
    AllUsable values (Token.ofText expr) ∧ ∃ before behind stack v,
      Postfix.ofTokens (Token.ofText expr) = .ok (before ++ .ref r :: behind) ∧
        Postfix.exec values [] before = .ok stack ∧ values r = some v ∧ v.number? = none
  mentioned : ∀ r, evaluate values ("=" ++ expr) = .error (.invalidOperand r) → r ∈ references ("=" ++ expr)
  divisionByZero_iff : evaluate values ("=" ++ expr) = .error .divisionByZero ↔
    AllUsable values (Token.ofText expr) ∧ ∃ before behind y x stack,
      Postfix.ofTokens (Token.ofText expr) = .ok (before ++ .binary .div :: behind) ∧
        Postfix.exec values [] before = .ok (y :: x :: stack) ∧ y == 0
  ok : ∀ x, evaluate values ("=" ++ expr) = .ok x →
    x.isFinite ∧ ∀ r ∈ references ("=" ++ expr), ∃ y, values.number? r = some y
  ofEvaluation : ∀ e, evaluate values ("=" ++ expr) = .error e →
    (∀ text, e ≠ .invalidReference text) ∧ e ≠ .cyclicDependency
  /-- The stages after the check of the tokens do not complain about one. -/
  checked : AllUsable values (Token.ofText expr) →
    (∀ text, Postfix.ofTokens (Token.ofText expr) ≠ .error (.invalidToken text)) ∧
      ∀ is, Postfix.ofTokens (Token.ofText expr) = .ok is →
        ∀ text, Postfix.eval values is ≠ .error (.invalidToken text)

theorem evaluate_classified (values : Lookup) (expr : String) : Classified values expr where
  invalidToken_iff := by
    constructor
    · rintro ⟨x, hx⟩
      by_contra hnone
      exact allUsable_iff.1 (fun t ht text hunusable => hnone ⟨t, ht, text, hunusable⟩) x hx
    · rintro ⟨t, ht, x, hx⟩
      by_contra hnone
      exact allUsable_iff.2 (fun text h => hnone ⟨text, h⟩) t ht x hx
  leftmost x hx := by
    have hnot : ¬ AllUsable values (Token.ofText expr) := fun h => allUsable_iff.1 h x hx
    obtain ⟨before, t, behind, text, hsplit, hbefore, ht, herror⟩ := evaluate_of_not_allUsable hnot
    obtain rfl : text = x := by simpa [herror] using hx
    obtain ⟨s, u, hexpr, rfl, rfl⟩ := Token.exists_text_of_scan hsplit ht.text?
    refine ⟨String.ofList s, t, String.ofList u, ?_, ?_, ?_, ht⟩
    · rw [← String.toList_inj, hexpr]
      simp
    · simpa [Token.ofText] using hsplit
    · simpa [Token.ofText] using hbefore
  unbalanced husable hunbalanced := by
    cases hprog : Postfix.ofTokens (Token.ofText expr) with
    | ok is => exact absurd (Postfix.exists_ofTokens_eq_ok_iff.1 ⟨is, hprog⟩).2 hunbalanced
    | error e =>
      obtain ⟨fault, hfault, rfl⟩ := husable.fault_of_ofTokens hprog
      refine ⟨fault, hfault, fun values' hvalues => ?_⟩
      rw [evaluate_of_allUsable (husable.congr hvalues), hprog]
      rfl
  invalidOperand_iff r := by
    rw [evaluate_eq_error_iff_failsAlone (by nofun) (by nofun)]
    refine and_congr_right fun _ => ⟨?_, ?_⟩
    · rintro ⟨before, i, behind, stack, hprog, hbefore, halone⟩
      cases halone with
      | @notNumber _ _ v hr hv => exact ⟨before, behind, stack, v, hprog, hbefore, hr, hv⟩
    · rintro ⟨before, behind, stack, v, hprog, hbefore, hr, hv⟩
      exact ⟨before, .ref r, behind, stack, hprog, hbefore, .notNumber hr hv⟩
  mentioned r h := by
    obtain ⟨-, before, i, behind, stack, hprog, -, halone⟩ :=
      (evaluate_eq_error_iff_failsAlone (by nofun) (by nofun)).1 h
    cases halone with
    | notNumber => exact mem_references_append.2 ((Postfix.ref_mem_of_arrange hprog).1 (by simp))
  divisionByZero_iff := by
    rw [evaluate_eq_error_iff_failsAlone (by nofun) (by nofun)]
    refine and_congr_right fun _ => ⟨?_, ?_⟩
    · rintro ⟨before, i, behind, stack, hprog, hbefore, halone⟩
      cases halone with
      | @zeroDivisor y x stack hy => exact ⟨before, behind, y, x, stack, hprog, hbefore, hy⟩
    · rintro ⟨before, behind, y, x, stack, hprog, hbefore, hy⟩
      exact ⟨before, .binary .div, behind, y :: x :: stack, hprog, hbefore, .zeroDivisor hy⟩
  ok x h := by
    obtain ⟨_, e, -, -, he⟩ := exists_tree_of_evaluate h
    exact ⟨(Expr.evaluate_eq_ok_iff.1 he).2, fun r hr => number?_of_evaluate h hr⟩
  ofEvaluation e h := by
    have hof := ofEvaluation_of_evaluate h
    constructor
    · rintro text rfl
      exact hof
    · rintro rfl
      exact hof
  checked husable := by
    refine ⟨fun text herror => ?_, fun is hprog text => husable.eval_ne_invalidToken hprog⟩
    obtain ⟨fault, -, heq⟩ := husable.fault_of_ofTokens herror
    cases heq

example : evaluate (fun _ => none) "=1/0)+x+A1" = .error (.invalidToken "x") := by decide +kernel

end Formula

end Spreadsheet
