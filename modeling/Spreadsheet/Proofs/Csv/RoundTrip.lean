import Spreadsheet.Csv

/-!
# Rendered records read back

A field is quoted exactly if reading it bare would end it, open quotes in it or trim it, so both forms of a
field leave the same draft (`scan_fieldChars`): its characters are read, and taken as they are. A comma or
a line break then ends it. Fields and records are followed without the number of the line, since nothing fails.
-/

namespace Spreadsheet

namespace Csv
variable {line l : Nat} {d : Draft} {c : Char} {cs rest : List Char} {text : String}
variable {fields : List String} {rows : List (List String)}

/-! ### Sections -/

/-- Outside of quotes a character without a meaning of its own is read as it is. -/
theorem scan_push (hc : c ≠ ',' ∧ c ≠ '"' ∧ c ≠ '\n') (hreturn : c = '\r' → cs.head? ≠ some '\n') :
    scan line none d (c :: cs) = scan line none (d.push c) cs := by
  obtain ⟨hcomma, hquote, hbreak⟩ := hc
  have hnext : ∀ cs', c = '\r' → cs ≠ '\n' :: cs' := by
    rintro cs' hc rfl
    exact hreturn hc rfl
  rw [scan] <;> simp_all

theorem scan_plain (h : ∀ c ∈ cs, c ≠ ',' ∧ c ≠ '"' ∧ c ≠ '\n' ∧ c ≠ '\r') :
    scan line none d (cs ++ rest) = scan line none { d with chars := cs.reverse ++ d.chars } rest := by
  induction cs generalizing d with
  | nil => rfl
  | cons c cs ih =>
    obtain ⟨hcomma, hquote, hbreak, hreturn⟩ := h c List.mem_cons_self
    rw [List.cons_append, scan_push ⟨hcomma, hquote, hbreak⟩ fun hc => absurd hc hreturn,
      ih fun c hc => h c (List.mem_cons_of_mem _ hc)]
    simp [Draft.push]

/-- The characters of a quoted section. -/
def escaped (cs : List Char) : List Char := cs.flatMap fun c => if c = '"' then ['"', '"'] else [c]

/-- A quote that no other one follows closes the section. -/
theorem scan_close (hrest : rest.head? ≠ some '"') :
    scan line (some l) d ('"' :: rest) = scan line none d rest := by
  rw [scan]
  rintro cs rfl
  exact hrest rfl

theorem scan_quoted (hc : c ≠ '"') :
    scan line (some l) d (c :: cs) = scan (if c = '\n' then line + 1 else line) (some l) (d.push c) cs := by
  rw [scan] <;> simp_all

theorem scan_escaped (line l : Nat) (d : Draft) (cs : List Char) (hrest : rest.head? ≠ some '"') :
    scan line (some l) d (escaped cs ++ '"' :: rest) =
      scan (line + cs.count '\n') none { d with chars := cs.reverse ++ d.chars } rest := by
  induction cs generalizing line d with
  | nil => exact scan_close hrest
  | cons c cs ih =>
    -- a quote of the text is two characters to read
    by_cases hc : c = '"'
    · subst hc
      simpa [escaped, scan, Draft.push] using ih line (d.push '"')
    · have hline : (if c = '\n' then line + 1 else line) + cs.count '\n' = line + (c :: cs).count '\n' := by
        by_cases hbreak : c = '\n'
        · rw [if_pos hbreak, hbreak, List.count_cons_self]
          omega
        · rw [if_neg hbreak, List.count_cons_of_ne hbreak]
      have hstep := (scan_quoted hc).trans (ih (if c = '\n' then line + 1 else line) (d.push c))
      rw [hline] at hstep
      simpa [escaped, hc, Draft.push] using hstep

/-! ### Fields -/

/-- The draft of a field that was read as a whole. -/
def drafted (text : String) (done : List String) : Draft :=
  ⟨text.toList.reverse, needsQuotes text.toList, done⟩

theorem plain_of_needsQuotes (h : needsQuotes cs = false) :
    (∀ c ∈ cs, c ≠ ',' ∧ c ≠ '"' ∧ c ≠ '\n' ∧ c ≠ '\r') ∧ Text.trimChars cs = cs := by
  simpa [needsQuotes, and_assoc] using h

theorem field_drafted (done : List String) : (drafted text done).field = text := by
  unfold Draft.field drafted
  split
  · simp
  · next h => simp [(plain_of_needsQuotes (by simpa using h)).2]

theorem scan_fieldChars (line : Nat) (text : String) (done : List String) (hrest : rest.head? ≠ some '"') :
    ∃ line', scan line none ⟨[], false, done⟩ (fieldChars text ++ rest) =
      scan line' none (drafted text done) rest := by
  unfold fieldChars drafted
  cases hneeds : needsQuotes text.toList with
  | false =>
    have hplain := @scan_plain line ⟨[], false, done⟩ _ rest (plain_of_needsQuotes hneeds).1
    exact ⟨line, by simpa [hneeds] using hplain⟩
  | true =>
    have h := scan_escaped line line ⟨[], true, done⟩ text.toList hrest
    exact ⟨_, by simpa [hneeds, escaped, scan, Draft.openQuotes] using h⟩

/-! ### Records -/

theorem recordChars_singleton : recordChars [text] = fieldChars text ++ ['\n'] := by
  simp [recordChars, List.intercalate]

theorem recordChars_cons (hne : fields ≠ []) :
    recordChars (text :: fields) = fieldChars text ++ ',' :: recordChars fields := by
  obtain ⟨next, fields, rfl⟩ := List.exists_cons_of_ne_nil hne
  simp [recordChars, List.intercalate]

theorem scan_recordChars (line : Nat) (done : List String) (rest : List Char) (hne : fields ≠ []) :
    ∃ line', scan line none ⟨[], false, done⟩ (recordChars fields ++ rest) =
      ((done.reverse ++ fields) :: ·) <$> scan line' none .empty rest := by
  induction fields generalizing line done with
  | nil => exact absurd rfl hne
  | cons text fields ih =>
    -- the last field is ended by the line break, the others by a comma
    by_cases hlast : fields = []
    · subst hlast
      have hrest : ('\n' :: rest).head? ≠ some '"' := by simp
      obtain ⟨line', h⟩ := scan_fieldChars line text done hrest
      refine ⟨line' + 1, ?_⟩
      rw [recordChars_singleton, List.append_assoc, List.singleton_append, h, scan, Draft.record,
        field_drafted, drafted, List.reverse_cons]
    · have hrest : (',' :: (recordChars fields ++ rest)).head? ≠ some '"' := by simp
      obtain ⟨line₁, h₁⟩ := scan_fieldChars line text done hrest
      obtain ⟨line₂, h₂⟩ := ih line₁ (text :: done) hlast
      refine ⟨line₂, ?_⟩
      rw [recordChars_cons hlast, List.append_assoc, List.cons_append, h₁, scan, Draft.next, field_drafted,
        drafted, h₂, List.reverse_cons, List.append_assoc, List.singleton_append]

theorem scan_render (line : Nat) (hne : ∀ row ∈ rows, row ≠ []) :
    scan line none .empty (rows.flatMap recordChars) = .ok rows := by
  induction rows generalizing line with
  | nil => rfl
  | cons row rows ih =>
    obtain ⟨line', h⟩ := scan_recordChars line [] (rows.flatMap recordChars) (hne row List.mem_cons_self)
    rw [List.flatMap_cons, Draft.empty, h, ih line' fun row hrow => hne row (List.mem_cons_of_mem _ hrow)]
    rfl

/-- What is rendered reads back as it was. A record without fields would not, for an empty line is an empty
field. -/
theorem records_render (hne : ∀ row ∈ rows, row ≠ []) : records (render rows) = .ok rows := by
  rw [records, render, String.toList_ofList, scan_render 1 hne]

end Csv

end Spreadsheet
