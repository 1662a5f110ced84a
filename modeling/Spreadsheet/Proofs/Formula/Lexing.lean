import Mathlib.Data.List.Basic
import Mathlib.Data.List.TakeWhile
import Spreadsheet.Formula.Token
import Spreadsheet.Proofs.Ref.Names

/-!
# Where a text is cut

Cutting is local (`scan_append`): a text is cut wherever the class of its characters changes, so the tokens of
two texts that meet at such a place are those of the one and then those of the other. The classes are ASCII
letters, digits and the point (`isWord_iff`), the space, the six symbols (`symbol?_eq_none_iff`), and all other
characters (`isOther_iff`). In particular a word in the middle of a formula is the same token as the word alone.
Conversely a token stands in its text between the texts of the other ones (`exists_text_of_scan`).
-/

namespace Spreadsheet

namespace Token
variable {c : Char} {cs s t u : List Char}

/-! ### The classes of characters -/

theorem isWord_iff : isWord c ↔ 'A' ≤ c ∧ c ≤ 'Z' ∨ 'a' ≤ c ∧ c ≤ 'z' ∨ '0' ≤ c ∧ c ≤ '9' ∨ c = '.' := by
  have hupper : c.isUpper = decide ('A' ≤ c ∧ c ≤ 'Z') := rfl
  have hlower : c.isLower = (decide ('a' ≤ c) && decide (c ≤ 'z')) := rfl
  have hdigit : c.isDigit = (decide ('0' ≤ c) && decide (c ≤ '9')) := rfl
  show (c.isUpper || c.isLower || c.isDigit || c == '.') = true ↔ _
  simp [hupper, hlower, hdigit, or_assoc]

theorem symbol?_eq_none_iff : symbol? c = none ↔ c ∉ ['+', '-', '*', '/', '(', ')'] := by
  unfold symbol?
  split <;> simp_all

theorem isOther_iff : isOther c ↔ c ≠ ' ' ∧ symbol? c = none ∧ ¬ isWord c := by simp [isOther, and_assoc]

theorem not_space_of_isWord (h : isWord c) : c ≠ ' ' := by
  rintro rfl
  exact absurd h (by decide)

theorem symbol?_of_isWord (h : isWord c) : symbol? c = none := by
  have hnot : ['+', '-', '*', '/', '(', ')'].all fun c => !isWord c := by decide
  exact symbol?_eq_none_iff.2 fun hc => by simpa [h] using List.all_eq_true.1 hnot c hc

theorem not_isOther_of_isWord (h : isWord c) : ¬ isOther c := fun hother => (isOther_iff.1 hother).2.2 h

/-! ### Texts that meet -/

/-- No run of characters goes on from the first text to the second. -/
def Apart (s t : List Char) : Prop :=
  ∀ a ∈ s.getLast?, ∀ b ∈ t.head?, ¬ (isWord a ∧ isWord b) ∧ ¬ (isOther a ∧ isOther b)

theorem Apart.of_suffix (h : Apart s t) (hsuffix : u <:+ s) : Apart u t := by
  obtain ⟨v, rfl⟩ := hsuffix
  intro a ha
  refine h a ?_
  rw [List.getLast?_append, Option.mem_def.1 ha]
  rfl

/-- A run that ends before the end of a text, or with it, is not made longer by what follows. -/
theorem run_append {p : Char → Bool} (h : ∀ a ∈ (c :: cs).getLast?, ∀ b ∈ t.head?, ¬ (p a ∧ p b))
    (hc : p c) :
    (cs ++ t).takeWhile p = cs.takeWhile p ∧ (cs ++ t).dropWhile p = cs.dropWhile p ++ t := by
  induction cs generalizing c with
  | nil =>
    cases t with
    | nil => simp
    | cons b t =>
      have hb : ¬ p b := fun hb => h c rfl b rfl ⟨hc, hb⟩
      simp [hb]
  | cons a cs ih =>
    by_cases ha : p a
    · obtain ⟨htake, hdrop⟩ := ih (c := a) (by simpa using h) ha
      simp [ha, htake, hdrop]
    · simp [ha]

theorem scan_append (h : Apart s t) : scan (s ++ t) = scan s ++ scan t := by
  fun_induction scan s with
  | case1 => rfl
  | case2 cs ih =>
    rw [List.cons_append, scan, if_pos rfl, ih (h.of_suffix (List.suffix_cons _ cs))]
  | case3 c cs hspace token hsymbol ih =>
    rw [List.cons_append, scan, if_neg hspace, hsymbol]
    exact congrArg (token :: ·) (ih (h.of_suffix (List.suffix_cons _ cs)))
  | case4 c cs hspace hsymbol hword ih =>
    obtain ⟨htake, hdrop⟩ := run_append (p := isWord) (fun a ha b hb => (h a ha b hb).1) hword
    have hrest : Apart (cs.dropWhile isWord) t :=
      h.of_suffix ((List.dropWhile_suffix _).trans (List.suffix_cons _ cs))
    rw [List.cons_append, scan, if_neg hspace, hsymbol]
    simp only [hword, ↓reduceIte]
    rw [htake, hdrop, ih hrest, List.cons_append]
  | case5 c cs hspace hsymbol hword ih =>
    have hother : isOther c := isOther_iff.2 ⟨hspace, hsymbol, hword⟩
    obtain ⟨htake, hdrop⟩ := run_append (p := isOther) (fun a ha b hb => (h a ha b hb).2) hother
    have hrest : Apart (cs.dropWhile isOther) t :=
      h.of_suffix ((List.dropWhile_suffix _).trans (List.suffix_cons _ cs))
    rw [List.cons_append, scan, if_neg hspace, hsymbol]
    simp only [hword, Bool.false_eq_true, ↓reduceIte]
    rw [htake, hdrop, ih hrest, List.cons_append]

/-! ### Words -/

theorem scan_word (hne : cs ≠ []) (h : ∀ c ∈ cs, isWord c) : scan cs = [ofWord cs] := by
  obtain ⟨c, cs, rfl⟩ := List.exists_cons_of_ne_nil hne
  have hc : isWord c := h c List.mem_cons_self
  have hcs : ∀ c ∈ cs, isWord c := fun c hc => h c (List.mem_cons_of_mem _ hc)
  rw [scan, if_neg (not_space_of_isWord hc), symbol?_of_isWord hc]
  simp only [hc, ↓reduceIte]
  rw [List.takeWhile_eq_self_iff.2 hcs, List.dropWhile_eq_nil_iff.2 hcs, scan]

/-- A word between two texts that do not go on with it. -/
theorem scan_between (hne : cs ≠ []) (h : ∀ c ∈ cs, isWord c) (hs : ∀ a ∈ s.getLast?, ¬ isWord a)
    (ht : ∀ b ∈ t.head?, ¬ isWord b) : scan (s ++ cs ++ t) = scan s ++ ofWord cs :: scan t := by
  have hleft : Apart s cs := by
    intro a ha b hb
    have hb : isWord b := h b (List.mem_of_head? hb)
    exact ⟨fun hab => hs a ha hab.1, fun hab => not_isOther_of_isWord hb hab.2⟩
  have hright : Apart (s ++ cs) t := by
    intro a ha b hb
    rw [List.getLast?_append_of_ne_nil _ hne] at ha
    have ha : isWord a := h a (List.mem_of_getLast? ha)
    exact ⟨fun hab => ht b hb hab.2, fun hab => not_isOther_of_isWord ha hab.1⟩
  rw [scan_append hright, scan_append hleft, scan_word hne h, List.append_assoc, List.singleton_append]

end Token

/-! ### Where a token stands -/

namespace Token
variable {t : Token} {ts before behind : List Token} {cs v : List Char} {text : String}

/-- The text of a token, if it is a name or unknown. -/
def text? : Token → Option String
  | .ref r => some r.name
  | .unknown text => some text
  | _ => none

theorem text?_of_symbol? {c : Char} (h : symbol? c = some t) : t.text? = none := by
  unfold symbol? at h
  split at h <;> cases h <;> rfl

theorem toList_of_text?_ofWord (h : (ofWord cs).text? = some text) : text.toList = cs := by
  unfold ofWord at h
  split at h
  · cases h
  · split at h
    · next r hr =>
      obtain rfl := Option.some.inj h
      have hread : Ref.ofName? (String.ofList cs) = some r := by rw [Ref.ofName?, String.toList_ofList, hr]
      rw [← (Ref.ofName?_eq_some_iff.1 hread).2, String.toList_ofList]
    · obtain rfl := Option.some.inj h
      exact String.toList_ofList

/-- What follows a run may be cut short and the run stays the same. -/
theorem run_append_of_prefix {p : Char → Bool} (hv : v <+: cs.dropWhile p) :
    (cs.takeWhile p ++ v).takeWhile p = cs.takeWhile p ∧ (cs.takeWhile p ++ v).dropWhile p = v := by
  have hrun : ∀ c ∈ cs.takeWhile p, p c := fun c hc => List.mem_takeWhile_imp hc
  rw [List.takeWhile_append_of_pos hrun, List.dropWhile_append_of_pos hrun]
  cases v with
  | nil => simp
  | cons b v =>
    obtain ⟨u, hu⟩ := hv
    have hb : p b = false := by
      have hnot := List.head?_dropWhile_not p cs
      rwa [← hu] at hnot
    simp [hb]

/-- A text with tokens starts with the text of the first, after some spaces. -/
theorem exists_first_of_scan (h : scan cs = t :: ts) :
    ∃ s w u, cs = s ++ w ++ u ∧ scan s = [] ∧ (∀ text, t.text? = some text → text.toList = w) ∧ scan u = ts ∧
      ∀ v, v <+: u → scan (s ++ w ++ v) = t :: scan v := by
  fun_induction scan cs with
  | case1 => cases h
  | case2 cs ih =>
    obtain ⟨s, w, u, rfl, hs, hw, hu, hcut⟩ := ih h
    refine ⟨' ' :: s, w, u, rfl, ?_, hw, hu, fun v hv => ?_⟩
    · rw [scan, if_pos rfl, hs]
    · rw [List.cons_append, List.cons_append, scan, if_pos rfl, hcut v hv]
  | case3 c cs hspace token hsymbol ih =>
    obtain ⟨rfl, rfl⟩ := List.cons.inj h
    refine ⟨[], [c], cs, rfl, by rw [scan], fun text htext => ?_, rfl, fun v hv => ?_⟩
    · rw [text?_of_symbol? hsymbol] at htext
      cases htext
    · rw [List.nil_append, List.singleton_append, scan, if_neg hspace, hsymbol]
  | case4 c cs hspace hsymbol hword ih =>
    obtain ⟨rfl, rfl⟩ := List.cons.inj h
    refine ⟨[], c :: cs.takeWhile isWord, cs.dropWhile isWord, ?_, by rw [scan],
      fun text => toList_of_text?_ofWord, rfl, fun v hv => ?_⟩
    · rw [List.nil_append, List.cons_append, List.takeWhile_append_dropWhile]
    · obtain ⟨htake, hdrop⟩ := run_append_of_prefix hv
      rw [List.nil_append, List.cons_append, scan, if_neg hspace, hsymbol]
      simp only [hword, ↓reduceIte, htake, hdrop]
  | case5 c cs hspace hsymbol hword ih =>
    obtain ⟨rfl, rfl⟩ := List.cons.inj h
    refine ⟨[], c :: cs.takeWhile isOther, cs.dropWhile isOther, ?_, by rw [scan], ?_, rfl, fun v hv => ?_⟩
    · rw [List.nil_append, List.cons_append, List.takeWhile_append_dropWhile]
    · rintro text ⟨⟩
      exact String.toList_ofList
    · obtain ⟨htake, hdrop⟩ := run_append_of_prefix hv
      rw [List.nil_append, List.cons_append, scan, if_neg hspace, hsymbol]
      simp only [hword, Bool.false_eq_true, ↓reduceIte, htake, hdrop]

/-- A token stands in the text, between those before it and those behind it. -/
theorem exists_text_of_scan (h : scan cs = before ++ t :: behind) (ht : t.text? = some text) :
    ∃ s u, cs = s ++ text.toList ++ u ∧ scan s = before ∧ scan u = behind := by
  induction before generalizing cs with
  | nil =>
    obtain ⟨s, w, u, rfl, hs, hw, hu, -⟩ := exists_first_of_scan h
    exact ⟨s, u, by rw [hw text ht], hs, hu⟩
  | cons b before ih =>
    obtain ⟨s, w, u, rfl, -, -, hu, hcut⟩ := exists_first_of_scan h
    obtain ⟨s', u', rfl, hs', hu'⟩ := ih hu
    have hprefix : s' <+: s' ++ text.toList ++ u' := ⟨text.toList ++ u', by rw [List.append_assoc]⟩
    refine ⟨s ++ w ++ s', u', by simp, ?_, hu'⟩
    rw [hcut s' hprefix, hs']

end Token

end Spreadsheet
