import Mathlib.Algebra.Ring.Parity
import Spreadsheet.Proofs.Csv.RoundTrip
import Spreadsheet.Sheet.Edit

/-!
# Quoted sections that are never closed

A quoted section ends at the first quote that is not written twice. So in a text either all sections are closed,
or the text ends in one that is not (`closed_or_unclosed`). Reading goes through closed sections and knows the
line behind them (`Closed.error_iff`), and fails in the other one with the line of the quote that opened it. A
section has an even number of quotes if it is closed and an odd number if it is not.
-/

namespace Spreadsheet

namespace Csv

/-- All quoted sections of the text are closed. -/
inductive Closed : List Char → Prop
  | nil : Closed []
  | plain {c : Char} {cs} : c ≠ '"' → Closed cs → Closed (c :: cs)
  /-- In a section a quote is written twice, so one that is no half of such a pair is its end. -/
  | quoted {cs : List Char} (body) : cs.head? ≠ some '"' → Closed cs → Closed ('"' :: escaped body ++ '"' :: cs)

/-- The text ends in a quoted section, which the quote right behind the characters `before` opens. If they ended in a
quote, the two would be such a pair. -/
def Unclosed (before cs : List Char) : Prop :=
  (∃ body, cs = before ++ '"' :: escaped body) ∧ Closed before ∧ before.getLast? ≠ some '"'

variable {c : Char} {cs before : List Char}

/-! ### How a text falls into sections -/

/-- What follows the quote that opens a section: either the section has an end, or the text is all in it. -/
theorem exists_escaped (cs : List Char) :
    (∃ body, cs = escaped body) ∨ ∃ body rest, cs = escaped body ++ '"' :: rest ∧ rest.head? ≠ some '"' := by
  match cs with
  | [] => exact .inl ⟨[], rfl⟩
  | c :: cs =>
    by_cases hc : c = '"'
    · subst hc
      by_cases hhead : cs.head? = some '"'
      · obtain ⟨cs, rfl⟩ := List.head?_eq_some_iff.1 hhead
        rcases exists_escaped cs with ⟨body, rfl⟩ | ⟨body, rest, rfl, hrest⟩
        · exact .inl ⟨'"' :: body, rfl⟩
        · exact .inr ⟨'"' :: body, rest, rfl, hrest⟩
      · exact .inr ⟨[], cs, rfl, hhead⟩
    · rcases exists_escaped cs with ⟨body, rfl⟩ | ⟨body, rest, rfl, hrest⟩
      · exact .inl ⟨c :: body, by simp [escaped, hc]⟩
      · exact .inr ⟨c :: body, rest, by simp [escaped, hc], hrest⟩
termination_by cs.length

theorem getLast?_cons_ne_quote (hc : c ≠ '"') (hlast : cs.getLast? ≠ some '"') : (c :: cs).getLast? ≠ some '"' := by
  rw [List.getLast?_cons]
  cases h : cs.getLast? with
  | none => simpa using hc
  | some b => simpa [h] using hlast

theorem closed_or_unclosed (cs : List Char) : Closed cs ∨ ∃ before, Unclosed before cs := by
  match cs with
  | [] => exact .inl .nil
  | c :: cs =>
    by_cases hc : c = '"'
    · subst hc
      rcases exists_escaped cs with ⟨body, rfl⟩ | ⟨body, rest, rfl, hrest⟩
      · exact .inr ⟨[], ⟨body, rfl⟩, .nil, by simp⟩
      rcases closed_or_unclosed rest with hclosed | ⟨before, ⟨body', rfl⟩, hclosed, hlast⟩
      · exact .inl (.quoted body hrest hclosed)
      -- another section follows, but not at once
      cases before with
      | nil => exact absurd rfl hrest
      | cons b before =>
        have hhead : (b :: before).head? ≠ some '"' := hrest
        refine .inr ⟨_, ⟨body', ?_⟩, .quoted body hhead hclosed, ?_⟩
        · simp
        · rw [List.getLast?_append, List.getLast?_cons_cons]
          simpa using hlast
    · rcases closed_or_unclosed cs with hclosed | ⟨before, ⟨body, rfl⟩, hclosed, hlast⟩
      · exact .inl (.plain hc hclosed)
      · exact .inr ⟨c :: before, ⟨body, rfl⟩, .plain hc hclosed, getLast?_cons_ne_quote hc hlast⟩
termination_by cs.length

theorem count_escaped (c : Char) (cs : List Char) :
    (escaped cs).count c = (if c = '"' then 2 else 1) * cs.count c := by
  induction cs with
  | nil => simp [escaped]
  | cons b cs ih =>
    rw [escaped] at ih
    rw [escaped, List.flatMap_cons, List.count_append, ih, List.count_cons]
    by_cases hb : b = '"' <;> by_cases hc : c = b <;> grind

theorem Closed.even_count (h : Closed cs) : Even (cs.count '"') := by
  induction h with
  | nil => simp
  | plain hc _ ih => rwa [List.count_cons_of_ne hc]
  | quoted body _ _ ih =>
    rw [List.count_append, List.count_cons_self, List.count_cons_self, count_escaped, if_pos rfl]
    grind

theorem Unclosed.odd_count (h : Unclosed before cs) : Odd (cs.count '"') := by
  obtain ⟨⟨body, rfl⟩, hclosed, -⟩ := h
  have heven := hclosed.even_count
  rw [List.count_append, List.count_cons_self, count_escaped, if_pos rfl]
  grind

theorem exists_unclosed_iff : (∃ before, Unclosed before cs) ↔ Odd (cs.count '"') := by
  constructor
  · rintro ⟨before, hunclosed⟩
    exact hunclosed.odd_count
  · intro hodd
    rcases closed_or_unclosed cs with hclosed | hunclosed
    · exact absurd hodd (Nat.not_odd_iff_even.2 hclosed.even_count)
    · exact hunclosed

/-! ### Reading -/

/-- Outside of quotes, a character that is no quote matters to a failure behind it by its line break at most. -/
theorem scan_char (hc : c ≠ '"') (line : Nat) (d : Draft) (cs : List Char) :
    ∃ d', ∀ n, scan line none d (c :: cs) = .error n ↔ scan (line + [c].count '\n') none d' cs = .error n := by
  by_cases hcomma : c = ','
  · subst hcomma
    exact ⟨d.next, fun n => by rw [scan]; rfl⟩
  by_cases hbreak : c = '\n'
  · subst hbreak
    refine ⟨.empty, fun n => ?_⟩
    rw [scan, List.count_singleton_self]
    cases scan (line + 1) none .empty cs <;> simp
  rw [List.count_singleton, if_neg (by simpa using hbreak), Nat.add_zero]
  by_cases hreturn : c = '\r' ∧ cs.head? = some '\n'
  · obtain ⟨rfl, hhead⟩ := hreturn
    obtain ⟨cs, rfl⟩ := List.head?_eq_some_iff.1 hhead
    exact ⟨d, fun n => by rw [scan, scan]⟩
  · exact ⟨d.push c, fun n => by rw [scan_push ⟨hcomma, hc, hbreak⟩ fun h hhead => hreturn ⟨h, hhead⟩]⟩

/-- Closed sections do not fail, and what follows them fails as it would on its own, on the line where they end. A
quote right behind them would not open a section but go on with the last one. -/
theorem Closed.error_iff (h : Closed cs) (rest : List Char)
    (hrest : cs.getLast? = some '"' → rest.head? ≠ some '"') (line : Nat) (d : Draft) :
    ∃ d', ∀ n, scan line none d (cs ++ rest) = .error n ↔ scan (line + cs.count '\n') none d' rest = .error n := by
  induction h generalizing line d with
  | nil => exact ⟨d, fun n => Iff.rfl⟩
  | @plain c cs hc hcs ih =>
    obtain ⟨d₁, h₁⟩ := scan_char hc line d (cs ++ rest)
    obtain ⟨d₂, h₂⟩ := ih (fun hlast => hrest (by rw [List.getLast?_cons, hlast]; rfl)) (line + [c].count '\n') d₁
    refine ⟨d₂, fun n => ?_⟩
    rw [List.cons_append, h₁, h₂, Nat.add_assoc, ← List.count_append, List.singleton_append]
  | @quoted cs body hhead hcs ih =>
    have hclose : (cs ++ rest).head? ≠ some '"' := by
      cases cs with
      | nil => exact hrest List.getLast?_concat
      | cons c cs => exact hhead
    have hlast : cs.getLast? = some '"' → rest.head? ≠ some '"' := fun hlast =>
      hrest (by rw [List.getLast?_append, List.getLast?_cons, hlast]; rfl)
    obtain ⟨d', h⟩ := ih hlast (line + body.count '\n') ⟨body.reverse ++ d.chars, true, d.fields⟩
    refine ⟨d', fun n => ?_⟩
    have hcount : ('"' :: escaped body ++ '"' :: cs).count '\n' = body.count '\n' + cs.count '\n' := by
      simp [count_escaped]
    rw [List.append_assoc, List.cons_append, List.cons_append, scan, scan_escaped _ _ _ _ hclose, hcount,
      ← Nat.add_assoc, ← h]
    rfl

theorem scan_unclosed (line l : Nat) (d : Draft) (cs : List Char) : scan line (some l) d (escaped cs) = .error l := by
  induction cs generalizing line d with
  | nil => rw [escaped, List.flatMap_nil, scan]
  | cons c cs ih =>
    rw [escaped] at ih
    rw [escaped, List.flatMap_cons]
    by_cases hc : c = '"'
    · subst hc
      exact ih line (d.push '"')
    · rw [if_neg hc, List.singleton_append, scan_quoted hc, ih]

theorem Closed.ne_error (h : Closed cs) (n : Nat) : scan 1 none .empty cs ≠ .error n := by
  obtain ⟨d, hd⟩ := h.error_iff [] (by simp) 1 .empty
  rw [List.append_nil] at hd
  rw [ne_eq, hd, scan]
  simp

theorem Unclosed.scan_eq (h : Unclosed before cs) : scan 1 none .empty cs = .error (1 + before.count '\n') := by
  obtain ⟨⟨body, rfl⟩, hclosed, hlast⟩ := h
  obtain ⟨d, hd⟩ := hclosed.error_iff ('"' :: escaped body) (fun h => absurd h hlast) 1 .empty
  rw [hd, scan, scan_unclosed]

theorem scan_eq_error_iff {line : Nat} :
    scan 1 none .empty cs = .error line ↔ ∃ before, Unclosed before cs ∧ line = 1 + before.count '\n' := by
  constructor
  · intro herror
    rcases closed_or_unclosed cs with hclosed | ⟨before, hunclosed⟩
    · exact absurd herror (hclosed.ne_error line)
    · exact ⟨before, hunclosed, Except.error.inj (herror.symm.trans hunclosed.scan_eq)⟩
  · rintro ⟨before, hunclosed, rfl⟩
    exact hunclosed.scan_eq

/-- A text is refused exactly if its number of quotes is odd, and then by the line of the quote that opens the section
which is never closed. -/
theorem records_eq_error_iff (text : String) :
    ((∃ line, records text = .error line) ↔ Odd (text.toList.count '"')) ∧
      (∀ line, records text = .error line ↔
        ∃ before, Unclosed before text.toList ∧ line = 1 + before.count '\n') ∧
      ∀ e, fields text = .error e ↔ ∃ line, records text = .error line ∧ e = .unclosedQuote line := by
  refine ⟨?_, fun line => scan_eq_error_iff, fun e => ?_⟩
  · rw [← exists_unclosed_iff]
    constructor
    · rintro ⟨line, herror⟩
      obtain ⟨before, hunclosed, -⟩ := scan_eq_error_iff.1 herror
      exact ⟨before, hunclosed⟩
    · rintro ⟨before, hunclosed⟩
      exact ⟨_, hunclosed.scan_eq⟩
  · unfold fields
    cases records text with
    | error line => simp [eq_comm (a := e)]
    | ok rows => simp

example : records "a\n\"b\"\"\nc\",\"" = .error 3 := by decide +kernel

end Csv

end Spreadsheet
