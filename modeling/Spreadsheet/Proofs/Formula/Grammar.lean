import Spreadsheet.Proofs.Formula.Expr

/-!
# The grammar of expressions

`Derives` says which token sequences spell which trees:

    sum     ::= product | sum (+|-) product
    product ::= factor | product (*|/) factor
    factor  ::= number | reference | - factor | ( sum )

`Arranges` is the invariant of the operator stack, and `arranges_of_derives` says that each phrase has it.
After the tokens of a phrase some items of its tree are out and the others still wait, on top of what
waited before. Those that wait bind at least as tight as the phrase (`Phrase.tightness`), so the operator
that ends the phrase lets all of them out; what waited before binds looser than any operator of the phrase
(`Phrase.slack`), so no operator inside lets it out.
-/

namespace Spreadsheet

/-- The syntactic classes, the loosest first. -/
inductive Phrase where
  | sum
  | product
  | factor
deriving DecidableEq, Repr

/-- The tokens spell the tree, as a phrase of the class. -/
inductive Derives : Phrase → List Token → Expr → Prop
  | ofProduct {ts e} : Derives .product ts e → Derives .sum ts e
  | sum {ts us left right} (op : Operator) : op = .add ∨ op = .sub → Derives .sum ts left →
      Derives .product us right → Derives .sum (ts ++ .operator op :: us) (.binary op left right)
  | ofFactor {ts e} : Derives .factor ts e → Derives .product ts e
  | product {ts us left right} (op : Operator) : op = .mul ∨ op = .div → Derives .product ts left →
      Derives .factor us right → Derives .product (ts ++ .operator op :: us) (.binary op left right)
  | number (x : Float) : Derives .factor [.number x] (.number x)
  | ref (r : Ref) : Derives .factor [.ref r] (.ref r)
  | negate {ts e} : Derives .factor ts e → Derives .factor (.operator .sub :: ts) (.negate e)
  | group {ts e} : Derives .sum ts e → Derives .factor (.opening :: ts ++ [.closing]) e

namespace Phrase

/-- The least precedence of what waits at the end of a phrase. -/
def tightness : Phrase → Nat
  | .sum => 1
  | .product => 2
  | .factor => 3

/-- The greatest precedence of what may wait right below a phrase. -/
def slack : Phrase → Nat
  | .sum => 0
  | .product => 1
  | .factor => 3

end Phrase

theorem Operator.precedence_pos (op : Operator) : 0 < op.precedence := by cases op <;> decide

theorem Pending.precedence_pos {q : Pending} (h : q ≠ .opening) : 0 < q.precedence := by
  cases q with
  | binary op => exact op.precedence_pos
  | negate => decide
  | opening => exact absurd rfl h

namespace Postfix
variable {p : Phrase} {ts rest : List Token} {e : Expr} {waiting pending : List Pending}

/-- An operator lets out what binds at least as tight and stops at what binds looser. -/
theorem arrange_operator {op : Operator} (htop : ∀ q ∈ pending, op.precedence ≤ q.precedence)
    (hbelow : ∀ q ∈ waiting.head?, q.precedence < op.precedence) :
    arrange false (pending ++ waiting) (.operator op :: rest) =
      (pending.filterMap Pending.item? ++ ·) <$> arrange true (.binary op :: waiting) rest := by
  have htop' : ∀ q ∈ pending, decide (op.precedence ≤ q.precedence) = true := by simpa using htop
  have hnot : waiting.takeWhile (fun q => decide (op.precedence ≤ q.precedence)) = [] ∧
      waiting.dropWhile (fun q => decide (op.precedence ≤ q.precedence)) = waiting := by
    cases waiting with
    | nil => exact ⟨rfl, rfl⟩
    | cons q below =>
      have hq : ¬ op.precedence ≤ q.precedence := Nat.not_le.2 (hbelow q rfl)
      simp [hq]
  simp only [arrange, Bool.false_eq_true, false_and, ↓reduceIte]
  rw [List.takeWhile_append_of_pos htop', List.dropWhile_append_of_pos htop', hnot.1, hnot.2,
    List.append_nil]

theorem opening_of_dropWhile {q : Pending} {below : List Pending}
    (h : waiting.dropWhile (· ≠ .opening) = q :: below) : q = .opening := by
  have hnot := List.head?_dropWhile_not (fun q : Pending => decide (q ≠ .opening)) waiting
  rw [h] at hnot
  simpa using hnot

/-- A closing parenthesis lets out what waits above its opening one. -/
theorem arrange_closing (hp : ∀ q ∈ pending, q ≠ .opening) :
    arrange false (pending ++ .opening :: waiting) (.closing :: rest) =
      (pending.filterMap Pending.item? ++ ·) <$> arrange false waiting rest := by
  have hp' : ∀ q ∈ pending, decide (q ≠ .opening) = true := by simpa using hp
  rw [arrange, List.dropWhile_append_of_pos hp', List.takeWhile_append_of_pos hp']
  simp

/-- The invariant of the operator stack over the tokens of a phrase: what came out and what waits make up
the tree, and all that waits is tight enough for the phrase. -/
def Arranges (p : Phrase) (ts : List Token) (e : Expr) : Prop :=
  ∀ (waiting : List Pending) (rest : List Token), (∀ q ∈ waiting.head?, q.precedence ≤ p.slack) →
    ∃ out pending, out ++ pending.filterMap Pending.item? = e.postorder ∧
      (∀ q ∈ pending, p.tightness ≤ q.precedence) ∧
      arrange true waiting (ts ++ rest) = (out ++ ·) <$> arrange false (pending ++ waiting) rest

namespace Arranges

theorem operand {t : Token} {i : Item}
    (h : ∀ waiting rest, arrange true waiting (t :: rest) = (i :: ·) <$> arrange false waiting rest)
    (he : e.postorder = [i]) : Arranges p [t] e :=
  fun waiting rest _ => ⟨[i], [], he.symm, by simp, h waiting rest⟩

theorem loosen {p' : Phrase} (h : Arranges p ts e) (hs : p'.slack ≤ p.slack)
    (ht : p'.tightness ≤ p.tightness) : Arranges p' ts e := by
  intro waiting rest hw
  obtain ⟨out, pending, hout, hpend, harr⟩ := h waiting rest fun q hq => Nat.le_trans (hw q hq) hs
  exact ⟨out, pending, hout, fun q hq => Nat.le_trans ht (hpend q hq), harr⟩

/-- An operator between two phrases. All that the left one leaves waiting is let out by the operator,
which then waits below what the right one leaves. -/
theorem binary {p' : Phrase} {us : List Token} {left right : Expr} {op : Operator}
    (hl : Arranges p ts left) (hr : Arranges p' us right) (hop : op.precedence = p.tightness)
    (hs : p.slack < op.precedence) (hs' : op.precedence ≤ p'.slack) (ht : op.precedence ≤ p'.tightness) :
    Arranges p (ts ++ .operator op :: us) (.binary op left right) := by
  intro waiting rest hw
  obtain ⟨out₁, pend₁, hout₁, hpend₁, harr₁⟩ := hl waiting (.operator op :: (us ++ rest)) hw
  obtain ⟨out₂, pend₂, hout₂, hpend₂, harr₂⟩ := hr (.binary op :: waiting) rest fun q hq => by
    obtain rfl : q = .binary op := by simpa using hq.symm
    exact hs'
  have hstep : arrange false (pend₁ ++ waiting) (.operator op :: (us ++ rest)) = _ :=
    arrange_operator (fun q hq => hop ▸ hpend₁ q hq) fun q hq => Nat.lt_of_le_of_lt (hw q hq) hs
  refine ⟨out₁ ++ (pend₁.filterMap Pending.item? ++ out₂), pend₂ ++ [.binary op], ?_, ?_, ?_⟩
  · simp [Expr.postorder, ← hout₁, ← hout₂, Pending.item?]
  · intro q hq
    rcases List.mem_append.1 hq with hq | hq
    · exact Nat.le_trans (hop ▸ ht) (hpend₂ q hq)
    · obtain rfl := List.mem_singleton.1 hq
      exact Nat.le_of_eq hop.symm
  · rw [List.append_assoc, List.cons_append, harr₁, hstep, harr₂]
    simp [Functor.map_map, List.append_assoc]

theorem negate (h : Arranges .factor ts e) : Arranges .factor (.operator .sub :: ts) (.negate e) := by
  intro waiting rest _
  obtain ⟨out, pending, hout, hpend, harr⟩ := h (.negate :: waiting) rest fun q hq => by
    obtain rfl : q = .negate := by simpa using hq.symm
    exact Nat.le_refl 3
  refine ⟨out, pending ++ [.negate], ?_, ?_, ?_⟩
  · simp [Expr.postorder, ← hout, Pending.item?]
  · intro q hq
    rcases List.mem_append.1 hq with hq | hq
    · exact hpend q hq
    · obtain rfl := List.mem_singleton.1 hq
      exact Nat.le_refl 3
  · rw [List.append_assoc]
    exact harr

theorem group (h : Arranges .sum ts e) : Arranges .factor (.opening :: ts ++ [.closing]) e := by
  intro waiting rest _
  obtain ⟨out, pending, hout, hpend, harr⟩ := h (.opening :: waiting) (.closing :: rest) fun q hq => by
    obtain rfl : q = .opening := by simpa using hq.symm
    exact Nat.le_refl 0
  have hne : ∀ q ∈ pending, q ≠ .opening := by
    rintro q hq rfl
    exact absurd (hpend _ hq) (by decide)
  refine ⟨out ++ pending.filterMap Pending.item?, [], by simpa using hout, by simp, ?_⟩
  calc arrange true waiting (.opening :: ts ++ [.closing] ++ rest)
      = arrange true (.opening :: waiting) (ts ++ .closing :: rest) := by
        rw [List.append_assoc]; rfl
    _ = (out ++ ·) <$> (pending.filterMap Pending.item? ++ ·) <$> arrange false waiting rest := by
        rw [harr, arrange_closing hne]
    _ = _ := by simp [Functor.map_map]

end Arranges

theorem arranges_of_derives (h : Derives p ts e) : Arranges p ts e := by
  induction h with
  | ofProduct _ ih => exact ih.loosen (by decide) (by decide)
  | ofFactor _ ih => exact ih.loosen (by decide) (by decide)
  | sum op hop _ _ ihl ihr =>
    rcases hop with rfl | rfl <;> exact ihl.binary ihr rfl (by decide) (by decide) (by decide)
  | product op hop _ _ ihl ihr =>
    rcases hop with rfl | rfl <;> exact ihl.binary ihr rfl (by decide) (by decide) (by decide)
  | number x => exact .operand (fun _ _ => by rw [arrange]) rfl
  | ref r => exact .operand (fun _ _ => by rw [arrange]) rfl
  | negate _ ih => exact ih.negate
  | group _ ih => exact ih.group

theorem ofTokens_of_derives (h : Derives .sum ts e) : ofTokens ts = .ok e.postorder := by
  obtain ⟨out, pending, hout, hpend, harr⟩ := arranges_of_derives h [] [] (by simp)
  have hne : Pending.opening ∉ pending := fun hq => absurd (hpend _ hq) (by decide)
  rw [List.append_nil, List.append_nil] at harr
  rw [ofTokens, harr, arrange, if_neg hne, ← hout]
  rfl

/-- Every spelling of a tree is arranged as the postorder of the tree, and the program computes what the
tree stands for, over any cells. -/
theorem eval_of_derives (h : Derives .sum ts e) :
    ofTokens ts = .ok e.postorder ∧ ∀ values, eval values e.postorder = e.evaluate values :=
  ⟨ofTokens_of_derives h, fun _ => eval_postorder e⟩

/-- The formula `-(A1+2)*-3`. -/
theorem eval_of_derives_negated_group :
    let ts := [.operator .sub, .opening, .ref ⟨0, 0⟩, .operator .add, .number 2, .closing, .operator .mul,
      .operator .sub, .number 3]
    let e := Expr.binary .mul (.negate (.binary .add (.ref ⟨0, 0⟩) (.number 2))) (.negate (.number 3))
    ofTokens ts = .ok e.postorder ∧ ∀ values, eval values e.postorder = e.evaluate values := by
  have hgroup : Derives .sum [.ref ⟨0, 0⟩, .operator .add, .number 2]
      (.binary .add (.ref ⟨0, 0⟩) (.number 2)) :=
    .sum .add (.inl rfl) (.ofProduct (.ofFactor (.ref _))) (.ofFactor (.number _))
  have hleft := Derives.ofFactor (.negate (.group hgroup))
  exact eval_of_derives (.ofProduct (.product .mul (.inl rfl) hleft (.negate (.number 3))))

end Postfix

end Spreadsheet
