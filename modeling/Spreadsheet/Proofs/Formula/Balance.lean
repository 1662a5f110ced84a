import Mathlib.Data.List.TakeWhile
import Spreadsheet.Proofs.Formula.Grammar
import Spreadsheet.Proofs.Formula.Reads

/-!
# Parentheses and what rearranging keeps

Rearranging looks at one token after the other. Unknown tokens apart, what it refuses depends on the parentheses
alone: `nest` counts those that are open, and the stack holds as many (`arrange_eq_error_iff`). What is not
refused loses no token. The items come out in another order, one for each token that is no parenthesis
(`perm_of_arrange`).
-/

namespace Spreadsheet

namespace Token
variable {n m : Nat} {t : Token} {ts : List Token} {e : Formula.Error}

/-- The number of open parentheses after a token, if `n` of them are open before it. -/
def nest (n : Nat) : Token → Except Formula.Error Nat
  | .unknown text => .error (.invalidToken text)
  | .opening => .ok (n + 1)
  | .closing =>
    match n with
    | 0 => .error (.invalidFormula .unmatchedClosing)
    | n + 1 => .ok n
  | _ => .ok n

/-- None of the tokens is unknown, and at no place more parentheses are closed than were opened, `n` of them
before the first token. -/
structure Proper (n : Nat) (ts : List Token) : Prop where
  known : ∀ text, .unknown text ∉ ts
  closed : ∀ us, us <+: ts → us.count .closing ≤ n + us.count .opening

/-- Each closing parenthesis has an opening one before it, and each opening one a closing one behind it. -/
structure Balanced (ts : List Token) : Prop where
  closed : ∀ us, us <+: ts → us.count .closing ≤ us.count .opening
  total : ts.count .opening = ts.count .closing

theorem nest_eq_error_iff : nest n t = .error e ↔
    (∃ text, t = .unknown text ∧ e = .invalidToken text) ∨
      t = .closing ∧ n = 0 ∧ e = .invalidFormula .unmatchedClosing := by
  cases t with
  | closing => cases n <;> simp [nest, @eq_comm _ e]
  | unknown text => simp [nest, @eq_comm _ e]
  | _ => simp [nest]

theorem nest_eq_ok_iff : nest n t = .ok m ↔
    (∀ text, t ≠ .unknown text) ∧ m + [t].count .closing = n + [t].count .opening := by
  cases t with
  | closing => cases n <;> simp [nest, eq_comm]
  | unknown text => simp [nest]
  | _ => simp [nest, eq_comm]

theorem count_cons_eq (c t : Token) (ts : List Token) : (t :: ts).count c = [t].count c + ts.count c := by
  rw [← List.count_append, List.singleton_append]

theorem proper_nil : Proper n [] where
  known text := List.not_mem_nil
  closed us hus := by simp [List.prefix_nil.1 hus]

theorem proper_cons : Proper n (t :: ts) ↔ ∃ m, nest n t = .ok m ∧ Proper m ts := by
  constructor
  · intro h
    have ht : ∀ text, t ≠ .unknown text := fun text heq => h.known text (heq ▸ List.mem_cons_self)
    have hfirst := h.closed [t] (List.prefix_append [t] ts)
    refine ⟨n + [t].count .opening - [t].count .closing, nest_eq_ok_iff.2 ⟨ht, by omega⟩,
      fun text htext => h.known text (List.mem_cons_of_mem t htext), fun us hus => ?_⟩
    have hclosed := h.closed (t :: us) (List.cons_prefix_cons.2 ⟨rfl, hus⟩)
    rw [count_cons_eq .closing t us, count_cons_eq .opening t us] at hclosed
    omega
  · rintro ⟨m, hnest, h⟩
    obtain ⟨ht, hm⟩ := nest_eq_ok_iff.1 hnest
    refine ⟨fun text htext => ?_, fun us hus => ?_⟩
    · rcases List.mem_cons.1 htext with heq | htext
      · exact ht text heq.symm
      · exact h.known text htext
    · rcases List.prefix_cons_iff.1 hus with rfl | ⟨vs, rfl, hvs⟩
      · exact Nat.zero_le _
      · have hclosed := h.closed vs hvs
        rw [count_cons_eq .closing t vs, count_cons_eq .opening t vs]
        omega

/-- Proper tokens leave open what they open and do not close. -/
theorem foldlM_nest_eq_ok_iff : ts.foldlM nest n = .ok m ↔
    Proper n ts ∧ m + ts.count .closing = n + ts.count .opening := by
  induction ts generalizing n with
  | nil => simp [proper_nil, pure, Except.pure, eq_comm]
  | cons t ts ih =>
    rw [List.foldlM_cons, proper_cons, count_cons_eq .closing t ts, count_cons_eq .opening t ts]
    cases hnest : nest n t with
    | error e => simp [bind, Except.bind]
    | ok k =>
      have hk := (nest_eq_ok_iff.1 hnest).2
      show ts.foldlM nest k = .ok m ↔ _
      rw [ih]
      constructor
      · rintro ⟨hproper, hm⟩
        exact ⟨⟨k, rfl, hproper⟩, by omega⟩
      · rintro ⟨⟨_, ⟨⟩, hproper⟩, hm⟩
        exact ⟨hproper, by omega⟩

/-! ### The items of tokens -/

def isParenthesis : Token → Bool
  | .opening | .closing => true
  | _ => false

/-- Whether an operand is due after a token, or at the start. -/
def dueAfter : (previous : Option Token) → Bool
  | none | some (.operator _) | some .opening => true
  | _ => false

/-- The item for a token, by the token before it. A minus sign where an operand is due negates. -/
def item? (previous : Option Token) : Token → Option Item
  | .number x => some (.number x)
  | .ref r => some (.ref r)
  | .operator op => some (if dueAfter previous ∧ op = .sub then .negate else .binary op)
  | .opening | .closing | .unknown _ => none

/-- The items for tokens, in the order of the tokens. -/
def items : (previous : Option Token) → List Token → List Item
  | _, [] => []
  | previous, t :: ts => (t.item? previous).toList ++ items (some t) ts

theorem length_items (previous : Option Token) (h : ∀ text, .unknown text ∉ ts) :
    (items previous ts).length = ts.countP (!·.isParenthesis) := by
  induction ts generalizing previous with
  | nil => rfl
  | cons t ts ih =>
    have hrest := ih (some t) fun text htext => h text (List.mem_cons_of_mem t htext)
    rw [items, List.length_append, hrest, List.countP_cons, Nat.add_comm]
    cases t with
    | unknown text => exact absurd List.mem_cons_self (h text)
    | _ => rfl

end Token

namespace Postfix
variable {due : Bool} {waiting below : List Pending} {ts : List Token} {e : Formula.Error}

theorem count_opening_dropWhile (op : Operator) (waiting : List Pending) :
    (waiting.dropWhile (op.precedence ≤ ·.precedence)).count .opening = waiting.count .opening := by
  induction waiting with
  | nil => rfl
  | cons p waiting ih =>
    rw [List.dropWhile_cons]
    split
    · next h =>
      have hp : p ≠ .opening := by
        rintro rfl
        exact absurd (of_decide_eq_true h) (Nat.not_le.2 op.precedence_pos)
      rw [ih, List.count_cons_of_ne hp]
    · rfl

theorem count_opening_of_closed {q : Pending} (h : waiting.dropWhile (· ≠ .opening) = q :: below) :
    waiting.count .opening = below.count .opening + 1 := by
  have habove : (waiting.takeWhile (· ≠ .opening)).count .opening = 0 :=
    List.count_eq_zero.2 fun hmem => by simpa using List.mem_takeWhile_imp hmem
  rw [← List.takeWhile_append_dropWhile (p := fun q => decide (q ≠ .opening)) (l := waiting),
    List.count_append, habove, h, opening_of_dropWhile h, List.count_cons_self, Nat.zero_add]

theorem count_opening_of_unclosed (h : waiting.dropWhile (· ≠ .opening) = []) : waiting.count .opening = 0 :=
  List.count_eq_zero.2 fun hmem => by simpa using List.dropWhile_eq_nil_iff.1 h _ hmem

/-- The stack holds the parentheses that are open, and they alone decide what is refused. -/
theorem arrange_eq_error_iff : arrange due waiting ts = .error e ↔
    ts.foldlM Token.nest (waiting.count .opening) = .error e ∨
      ∃ n, ts.foldlM Token.nest (waiting.count .opening) = .ok (n + 1) ∧
        e = .invalidFormula .unmatchedOpening := by
  fun_induction arrange due waiting ts with
  | case1 due waiting hopen =>
    obtain ⟨n, hn⟩ := Nat.exists_eq_succ_of_ne_zero (Nat.ne_of_gt (List.count_pos_iff.2 hopen))
    simp [pure, Except.pure, hn, @eq_comm _ e]
  | case2 due waiting hopen =>
    simp [pure, Except.pure, List.count_eq_zero.2 hopen]
  | case3 due waiting x ts ih => rw [Except.map_eq_error, ih]; rfl
  | case4 due waiting r ts ih => rw [Except.map_eq_error, ih]; rfl
  | case5 due waiting op ts hsign ih => rw [ih]; rfl
  | case6 due waiting op ts hsign tighter ih =>
    rw [Except.map_eq_error, ih, List.count_cons_of_ne (by simp), count_opening_dropWhile]
    rfl
  | case7 due waiting ts ih => rw [ih, List.count_cons_self]; rfl
  | case8 due waiting ts hclose =>
    rw [List.foldlM_cons, count_opening_of_unclosed hclose]
    simp [Token.nest, bind, Except.bind]
  | case9 due waiting ts _ below hclose ih =>
    rw [Except.map_eq_error, ih, count_opening_of_closed hclose]
    rfl
  | case10 due waiting text ts => simp [Token.nest, bind, Except.bind]

/-! ### What comes out -/

theorem filterMap_item?_cut (p : Pending → Bool) (waiting : List Pending) :
    waiting.filterMap Pending.item? =
      (waiting.takeWhile p).filterMap Pending.item? ++ (waiting.dropWhile p).filterMap Pending.item? := by
  rw [← List.filterMap_append, List.takeWhile_append_dropWhile]

theorem perm_of_arrange (previous : Option Token) {is : List Item}
    (h : arrange (Token.dueAfter previous) waiting ts = .ok is) :
    is.Perm (waiting.filterMap Pending.item? ++ Token.items previous ts) := by
  generalize hdue : Token.dueAfter previous = due at h
  fun_induction arrange due waiting ts generalizing previous is with
  | case1 | case8 | case10 => cases h
  | case2 due waiting =>
    obtain rfl := Except.ok.inj h
    rw [Token.items, List.append_nil]
  | case3 due waiting x ts ih =>
    obtain ⟨is, his, rfl⟩ := Except.map_eq_ok.1 h
    exact ((ih (some (.number x)) rfl his).cons _).trans List.perm_middle.symm
  | case4 due waiting r ts ih =>
    obtain ⟨is, his, rfl⟩ := Except.map_eq_ok.1 h
    exact ((ih (some (.ref r)) rfl his).cons _).trans List.perm_middle.symm
  | case5 due waiting op ts hsign ih =>
    obtain ⟨rfl, rfl⟩ := hsign
    have hitem : Token.item? previous (.operator .sub) = some .negate := by simp [Token.item?, hdue]
    rw [Token.items, hitem]
    exact (ih (some (.operator .sub)) rfl h).trans List.perm_middle.symm
  | case6 due waiting op ts hsign =>
    rename_i ih
    obtain ⟨is, his, rfl⟩ := Except.map_eq_ok.1 h
    have hitem : Token.item? previous (.operator op) = some (.binary op) := by simp [Token.item?, hdue, hsign]
    have hrest := ih (some (.operator op)) rfl his
    rw [Token.items, hitem, filterMap_item?_cut (fun q => op.precedence ≤ q.precedence) waiting,
      List.append_assoc]
    exact (hrest.trans List.perm_middle.symm).append_left _
  | case7 due waiting ts ih => exact ih (some .opening) rfl h
  | case9 due waiting ts _ below hclose ih =>
    obtain ⟨is, his, rfl⟩ := Except.map_eq_ok.1 h
    have hrest := ih (some .closing) rfl his
    rw [filterMap_item?_cut (· ≠ .opening) waiting, hclose, opening_of_dropWhile hclose, List.append_assoc]
    exact hrest.append_left _

theorem exists_ofTokens_eq_ok_iff :
    (∃ is, ofTokens ts = .ok is) ↔ (∀ text, .unknown text ∉ ts) ∧ Token.Balanced ts := by
  have hnest : (∃ is, ofTokens ts = .ok is) ↔ ts.foldlM Token.nest 0 = .ok 0 := by
    have herror (e : Formula.Error) : ofTokens ts = .error e ↔ _ := arrange_eq_error_iff
    rw [List.count_nil] at herror
    cases hts : ts.foldlM Token.nest 0 with
    | error e => simp [(herror e).2 (.inl hts)]
    | ok n =>
      cases n with
      | succ n => simp [(herror _).2 (.inr ⟨n, hts, rfl⟩)]
      | zero =>
        cases hprog : ofTokens ts with
        | ok is => simp
        | error e => simp [hts, hprog] at herror
  rw [hnest, Token.foldlM_nest_eq_ok_iff]
  constructor
  · rintro ⟨hproper, htotal⟩
    exact ⟨hproper.known, fun us hus => by simpa using hproper.closed us hus, by omega⟩
  · rintro ⟨hknown, hbalanced⟩
    exact ⟨⟨hknown, fun us hus => by simpa using hbalanced.closed us hus⟩, by rw [hbalanced.total]⟩

theorem ofTokens_eq_error_iff : ofTokens ts = .error e ↔
    (∃ before t behind, ts = before ++ t :: behind ∧ Token.Proper 0 before ∧
      ((∃ text, t = .unknown text ∧ e = .invalidToken text) ∨
        t = .closing ∧ before.count .closing = before.count .opening ∧ e = .invalidFormula .unmatchedClosing)) ∨
    Token.Proper 0 ts ∧ ts.count .closing < ts.count .opening ∧ e = .invalidFormula .unmatchedOpening := by
  rw [ofTokens, arrange_eq_error_iff, List.count_nil, foldlM_eq_error_iff]
  simp only [Token.foldlM_nest_eq_ok_iff, Token.nest_eq_error_iff, Nat.zero_add]
  refine or_congr ?_ ?_
  · refine exists_congr fun before => exists_congr fun t => exists_congr fun behind => and_congr_right fun _ => ?_
    constructor
    · rintro ⟨n, ⟨hproper, hn⟩, hunknown | ⟨rfl, rfl, rfl⟩⟩
      · exact ⟨hproper, .inl hunknown⟩
      · exact ⟨hproper, .inr ⟨rfl, by omega, rfl⟩⟩
    · rintro ⟨hproper, hcases⟩
      have hopen := hproper.closed before List.prefix_rfl
      refine ⟨before.count .opening - before.count .closing, ⟨hproper, by omega⟩, hcases.imp_right ?_⟩
      rintro ⟨rfl, heq, rfl⟩
      exact ⟨rfl, by omega, rfl⟩
  · constructor
    · rintro ⟨n, ⟨hproper, hn⟩, rfl⟩
      exact ⟨hproper, by omega, rfl⟩
    · rintro ⟨hproper, hlt, rfl⟩
      exact ⟨ts.count .opening - ts.count .closing - 1, ⟨hproper, by omega⟩, rfl⟩

/-- Tokens are refused for an unknown one or a closing parenthesis without an opening one, whichever comes first,
and else for an opening parenthesis that is not closed. The items that come out otherwise are those of the
tokens, and operands keep their order. -/
theorem ofTokens_outcomes (ts : List Token) :
    ((∃ is, ofTokens ts = .ok is) ↔ (∀ text, .unknown text ∉ ts) ∧ Token.Balanced ts) ∧
    (∀ e, ofTokens ts = .error e ↔
      (∃ before t behind, ts = before ++ t :: behind ∧ Token.Proper 0 before ∧
        ((∃ text, t = .unknown text ∧ e = .invalidToken text) ∨
          t = .closing ∧ before.count .closing = before.count .opening ∧ e = .invalidFormula .unmatchedClosing)) ∨
      Token.Proper 0 ts ∧ ts.count .closing < ts.count .opening ∧ e = .invalidFormula .unmatchedOpening) ∧
    ∀ is, ofTokens ts = .ok is →
      is.filter Item.isOperand = ts.filterMap Token.operand? ∧ is.Perm (Token.items none ts) ∧
        is.length = ts.countP (!·.isParenthesis) := by
  refine ⟨exists_ofTokens_eq_ok_iff, fun e => ofTokens_eq_error_iff, fun is h => ?_⟩
  have hperm : is.Perm (Token.items none ts) := perm_of_arrange none h
  obtain ⟨hknown, -⟩ := exists_ofTokens_eq_ok_iff.1 ⟨is, h⟩
  exact ⟨operands_of_arrange h, hperm, hperm.length_eq.trans (Token.length_items none hknown)⟩

end Postfix

end Spreadsheet
