import Mathlib.Data.List.TakeWhile
import Spreadsheet.Proofs.Formula.Grammar
import Spreadsheet.Proofs.Formula.Program

/-!
# Operands where they are due

Rearranging looks at parentheses and running counts operands, but neither looks where an operand stands.
So what is evaluated is a tree, and yet its tokens may spell no tree: `1 2 +` evaluates like `1 + 2`.
`alternates` is what is left out: operands, signs and opening parentheses stand where an operand is due,
operators and closing parentheses where none is. With it the accepted formulas are those of the grammar.

`Read` is the invariant that turns a stack back into a derivation. What waits are the beginnings of
phrases that were read, each binding tighter than the one below; whatever lets some of them out completes
these phrases (`Waits.complete`).
-/

namespace Spreadsheet

namespace Token

/-- Whether operands stand where one is due and nowhere else. `due` says that one is due at the start. -/
def alternates : (due : Bool) → List Token → Bool
  | due, [] => !due
  | true, .number _ :: ts | true, .ref _ :: ts => alternates false ts
  | true, .operator .sub :: ts | true, .opening :: ts => alternates true ts
  | false, .operator _ :: ts => alternates true ts
  | false, .closing :: ts => alternates false ts
  | _, _ => false

end Token

namespace Derives
variable {p p' : Phrase} {ts : List Token} {e : Expr}

theorem loosen (h : Derives p ts e) (hp : p'.tightness ≤ p.tightness) : Derives p' ts e := by
  cases p <;> cases p' <;> simp only [Phrase.tightness] at hp
  · exact h
  · omega
  · omega
  · exact .ofProduct h
  · exact h
  · omega
  · exact .ofProduct (.ofFactor h)
  · exact .ofFactor h
  · exact h

theorem alternates_append (h : Derives p ts e) (rest : List Token) :
    Token.alternates true (ts ++ rest) = Token.alternates false rest := by
  induction h generalizing rest with
  | ofProduct _ ih | ofFactor _ ih => exact ih rest
  | sum op _ _ _ ihl ihr | product op _ _ _ ihl ihr =>
    rw [List.append_assoc, ihl, List.cons_append, Token.alternates, ihr]
  | number | ref => rfl
  | negate _ ih => exact ih rest
  | group _ ih =>
    rw [List.append_assoc, List.cons_append, Token.alternates, ih, List.singleton_append, Token.alternates]

theorem alternates (h : Derives p ts e) : Token.alternates true ts := by
  rw [← List.append_nil ts, h.alternates_append]
  rfl

end Derives

namespace Operator

/-- The class of the left operand, and of the phrase that the operator makes. -/
def phrase : Operator → Phrase
  | .add | .sub => .sum
  | .mul | .div => .product

theorem tightness_phrase (op : Operator) : op.phrase.tightness = op.precedence := by cases op <;> rfl

theorem precedence_le_three (op : Operator) : op.precedence ≤ 3 := by cases op <;> decide

end Operator

theorem Pending.precedence_le_three (q : Pending) : q.precedence ≤ 3 := by
  cases q with
  | binary op => exact op.precedence_le_three
  | negate | opening => decide

namespace Postfix

/-- What waits after some tokens, where an operand is due: the beginnings of phrases. -/
inductive Waits : List Pending → List Token → Prop
  | nil : Waits [] []
  | opening {waiting us} : Waits waiting us → Waits (.opening :: waiting) (us ++ [.opening])
  | negate {waiting us} : Waits waiting us → Waits (.negate :: waiting) (us ++ [.operator .sub])
  | binary {waiting us vs e} (op : Operator) : Waits waiting us → Derives op.phrase vs e →
      (∀ q ∈ waiting.head?, q.precedence < op.precedence) →
      Waits (.binary op :: waiting) (us ++ vs ++ [.operator op])

/-- What waits after some tokens: an operand is due, or the last tokens are a factor. -/
inductive Read : (due : Bool) → List Pending → List Token → Prop
  | due {waiting us} : Waits waiting us → Read true waiting us
  | operand {waiting us vs e} : Waits waiting us → Derives .factor vs e → Read false waiting (us ++ vs)

variable {p : Phrase} {t : Token} {ts us vs : List Token} {e : Expr} {waiting top below : List Pending}
variable {due : Bool} {is : List Item} {n : Nat} {q : Pending}

namespace Waits

/-- A phrase after the topmost beginning completes it to a phrase of its class. -/
theorem complete_head (h : Waits (q :: waiting) us) (hq : 0 < q.precedence) (hd : Derives p vs e)
    (hslack : q.precedence ≤ p.slack) :
    ∃ us' vs' p' e', us ++ vs = us' ++ vs' ∧ Waits waiting us' ∧ Derives p' vs' e' ∧
      p'.tightness = q.precedence ∧ ∀ q' ∈ waiting.head?, q'.precedence ≤ p'.slack := by
  cases h with
  | opening h => cases hq
  | negate h =>
    have hfactor : Derives .factor vs e := hd.loosen (by cases p <;> revert hslack <;> decide)
    exact ⟨_, _, .factor, _, List.append_assoc .., h, hfactor.negate, rfl, fun q' _ => q'.precedence_le_three⟩
  | @binary _ us ws left op h hl hbelow =>
    have hassoc : us ++ ws ++ [.operator op] ++ vs = us ++ (ws ++ .operator op :: vs) := by simp
    have hright : Derives (if op.phrase = .sum then .product else .factor) vs e :=
      hd.loosen (by cases op <;> cases p <;> revert hslack <;> decide)
    have hjoin : Derives op.phrase (ws ++ .operator op :: vs) (.binary op left e) := by
      cases op with
      | add => exact .sum .add (.inl rfl) hl hright
      | sub => exact .sum .sub (.inr rfl) hl hright
      | mul => exact .product .mul (.inl rfl) hl hright
      | div => exact .product .div (.inr rfl) hl hright
    have hslack' : op.precedence - 1 ≤ op.phrase.slack := by cases op <;> decide
    -- what waits below binds less tight than `op`, so the joined phrase may stand to its right
    refine ⟨us, _, op.phrase, _, hassoc, h, hjoin, op.tightness_phrase, fun q' hq' => ?_⟩
    exact Nat.le_trans (Nat.le_sub_one_of_lt (hbelow q' hq')) hslack'

/-- A phrase after some beginnings completes those on top that bind at least as tight as `n`. -/
theorem complete (h : Waits (top ++ below) us) (hd : Derives p vs e) (hn : 0 < n)
    (htop : ∀ q ∈ top, n ≤ q.precedence) (hp : n ≤ p.tightness)
    (hslack : ∀ q ∈ (top ++ below).head?, q.precedence ≤ p.slack) :
    ∃ us' vs' p' e', us ++ vs = us' ++ vs' ∧ Waits below us' ∧ Derives p' vs' e' ∧ n ≤ p'.tightness := by
  induction top generalizing us vs p e with
  | nil => exact ⟨us, vs, p, e, rfl, h, hd, hp⟩
  | cons q top ih =>
    have hq : n ≤ q.precedence := htop q List.mem_cons_self
    obtain ⟨us₁, vs₁, p₁, e₁, heq, h₁, hd₁, ht₁, hs₁⟩ :=
      h.complete_head (Nat.lt_of_lt_of_le hn hq) hd (hslack q rfl)
    obtain ⟨us₂, vs₂, p₂, e₂, heq₂, hrest⟩ :=
      ih h₁ hd₁ (fun q hq => htop q (List.mem_cons_of_mem _ hq)) (ht₁ ▸ hq) hs₁
    exact ⟨us₂, vs₂, p₂, e₂, heq.trans heq₂, hrest⟩

end Waits

namespace Read

theorem waits (h : Read true waiting us) : Waits waiting us := by
  cases h with
  | due hw => exact hw

/-- The tokens read are those before a phrase as tight as `n` and the phrase itself, once what waits on top
and binds as tight is complete. -/
theorem complete (h : Read false (top ++ below) us) (hn : 0 < n) (hn' : n ≤ 3)
    (htop : ∀ q ∈ top, n ≤ q.precedence) :
    ∃ us' vs' p e, us = us' ++ vs' ∧ Waits below us' ∧ Derives p vs' e ∧ n ≤ p.tightness := by
  cases h with
  | operand hw hd => exact hw.complete hd hn htop hn' fun q _ => q.precedence_le_three

theorem operator (h : Read false waiting us) (op : Operator) :
    Read true (.binary op :: waiting.dropWhile (op.precedence ≤ ·.precedence)) (us ++ [.operator op]) := by
  rw [← List.takeWhile_append_dropWhile (p := fun q => decide (op.precedence ≤ q.precedence))
    (l := waiting)] at h
  obtain ⟨us', vs', p, e, rfl, hw, hd, hp⟩ := h.complete op.precedence_pos op.precedence_le_three
    fun q hq => by simpa using List.mem_takeWhile_imp hq
  refine .due (.binary op hw (hd.loosen (op.tightness_phrase ▸ hp)) fun q hq => ?_)
  have hnot := List.head?_dropWhile_not (fun q : Pending => decide (op.precedence ≤ q.precedence)) waiting
  rw [Option.mem_def.1 hq] at hnot
  simpa using hnot

theorem closing (h : Read false waiting us) (hclose : waiting.dropWhile (· ≠ .opening) = q :: below) :
    Read false below (us ++ [.closing]) := by
  obtain rfl := opening_of_dropWhile hclose
  rw [← List.takeWhile_append_dropWhile (p := fun q => decide (q ≠ .opening)) (l := waiting), hclose] at h
  obtain ⟨us', vs', p, e, rfl, hw, hd, hp⟩ := h.complete Nat.one_pos (by decide) fun q hq =>
    Pending.precedence_pos (by simpa using List.mem_takeWhile_imp hq)
  cases hw with
  | @opening _ us hw =>
    have hgroup := Derives.group (hd.loosen hp)
    have hassoc : us ++ [.opening] ++ vs' ++ [.closing] = us ++ (.opening :: vs' ++ [.closing]) := by simp
    rw [hassoc]
    exact .operand hw hgroup

end Read

/-- The tokens still to come complete what was read to a sum. -/
theorem derives_of_arrange (hr : Read due waiting us) (halt : Token.alternates due ts)
    (h : arrange due waiting ts = .ok is) : ∃ e, Derives .sum (us ++ ts) e := by
  -- the cases are those of `arrange`; in each, `alternates` says whether an operand is due
  fun_induction arrange due waiting ts generalizing us is with
  | case1 | case8 | case10 => cases h
  | case2 due waiting hopen =>
    obtain rfl : due = false := by simpa [Token.alternates] using halt
    rw [← List.append_nil waiting] at hr
    obtain ⟨us', vs, p, e, rfl, hw, hd, hp⟩ := hr.complete Nat.one_pos (by decide) fun q hq =>
      Pending.precedence_pos fun heq => hopen (heq ▸ hq)
    cases hw
    have hsum : Derives .sum vs e := hd.loosen hp
    exact ⟨e, by simpa using hsum⟩
  | case3 due waiting x ts ih =>
    obtain rfl : due = true := by cases due <;> trivial
    obtain ⟨is, his, -⟩ := Except.map_eq_ok.1 h
    simpa using ih (.operand hr.waits (.number x)) halt his
  | case4 due waiting r ts ih =>
    obtain rfl : due = true := by cases due <;> trivial
    obtain ⟨is, his, -⟩ := Except.map_eq_ok.1 h
    simpa using ih (.operand hr.waits (.ref r)) halt his
  | case5 due waiting op ts hsign ih =>
    obtain ⟨rfl, rfl⟩ := hsign
    simpa using ih (.due hr.waits.negate) halt h
  | case6 due waiting op ts hsign =>
    rename_i ih
    -- where an operand is due, the only operator that alternates is a sign
    obtain rfl : due = false := by cases due <;> cases op <;> simp_all [Token.alternates]
    rw [Token.alternates] at halt
    obtain ⟨is, his, -⟩ := Except.map_eq_ok.1 h
    simpa using ih (hr.operator op) halt his
  | case7 due waiting ts ih =>
    obtain rfl : due = true := by cases due <;> trivial
    simpa using ih (.due hr.waits.opening) halt h
  | case9 due waiting ts _ below hclose ih =>
    obtain rfl : due = false := by cases due <;> trivial
    obtain ⟨is, his, -⟩ := Except.map_eq_ok.1 h
    simpa using ih (hr.closing hclose) halt his

/-- The tokens that spell a tree are those that alternate and are arranged as its postorder. -/
theorem derives_iff : Derives .sum ts e ↔ Token.alternates true ts ∧ ofTokens ts = .ok e.postorder := by
  constructor
  · exact fun h => ⟨h.alternates, ofTokens_of_derives h⟩
  · rintro ⟨halt, h⟩
    obtain ⟨e', hd⟩ := derives_of_arrange (.due .nil) halt h
    have hpost : e'.postorder = e.postorder := Except.ok.inj ((ofTokens_of_derives hd).symm.trans h)
    rwa [Expr.postorder_injective hpost] at hd

end Postfix

namespace Formula
variable {values : Lookup} {text : String} {x : Float}

/-- A formula that evaluates starts with its `=`, and what follows is arranged as the postorder of a tree
that has the number. In the grammar the tokens spell that tree if they alternate, and no tree if not. -/
theorem derives_iff_alternates_of_evaluate (h : evaluate values text = .ok x) :
    ∃ expr, ∃ e : Expr, expression? text = some expr ∧
      Postfix.ofTokens (Token.scan expr) = .ok e.postorder ∧ e.evaluate values = .ok x ∧
      ∀ e', Derives .sum (Token.scan expr) e' ↔ e' = e ∧ Token.alternates true (Token.scan expr) := by
  obtain ⟨expr, e, hexpr, hprog, he⟩ := exists_tree_of_evaluate h
  refine ⟨expr, e, hexpr, hprog, he, fun e' => ?_⟩
  have hsame : Postfix.ofTokens (Token.scan expr) = .ok e'.postorder ↔ e' = e := by
    rw [hprog, Except.ok.injEq, Expr.postorder_injective.eq_iff, eq_comm]
  rw [Postfix.derives_iff, hsame, and_comm]

/-- The formula `=-(2)*3`, whose tokens alternate. -/
theorem derives_iff_alternates_of_evaluate_sign :
    evaluate (fun _ => none) "=-(2)*3" = .ok (-6) ∧
      ∃ expr, ∃ e : Expr, expression? "=-(2)*3" = some expr ∧
        Postfix.ofTokens (Token.scan expr) = .ok e.postorder ∧ e.evaluate (fun _ => none) = .ok (-6) ∧
        ∀ e', Derives .sum (Token.scan expr) e' ↔ e' = e ∧ Token.alternates true (Token.scan expr) := by
  have h : evaluate (fun _ => none) "=-(2)*3" = .ok (-6) := by decide +kernel
  exact ⟨h, derives_iff_alternates_of_evaluate h⟩

/-- Operands side by side are accepted if an operator follows, although they spell no tree. -/
theorem evaluate_operands_side_by_side :
    evaluate (fun _ => none) "=1 2 +" = .ok 3 ∧
      ¬ ∃ expr, ∃ e : Expr, expression? "=1 2 +" = some expr ∧ Derives .sum (Token.scan expr) e := by
  refine ⟨by decide +kernel, ?_⟩
  rintro ⟨expr, e, hexpr, hd⟩
  obtain rfl : "1 2 +".toList = expr := Option.some.inj hexpr
  exact absurd hd.alternates (by decide +kernel)

end Formula

end Spreadsheet
