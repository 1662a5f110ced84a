import Spreadsheet.Proofs.Csv.RoundTrip
import Spreadsheet.Sheet.Edit

/-!
# Line breaks of either kind

A file may break its lines by `\r\n` or by `\n`. The marks of a text (`marked`) tell where reading is in a quoted
section. There both forms of the text are the same, and elsewhere the `\r` of a break is dropped without a trace in
the field. So the two are read alike, character by character (`scan_flatMap_broken`).
-/

namespace Spreadsheet

namespace Csv

/-- The characters of a text, each with whether it is in a quoted section. A quote that is written twice leaves the
section and is back in it at once. -/
def marked : (quoted : Bool) → List Char → List (Char × Bool)
  | _, [] => []
  | quoted, c :: cs => (c, quoted) :: marked (if c = '"' then !quoted else quoted) cs

/-- What stands for a character once lines are broken by `\r\n`. -/
def broken : Char × Bool → List Char
  | ('\n', false) => ['\r', '\n']
  | (c, _) => [c]

/-- The text with a `\r` before each line break outside of quotes. -/
def withReturns (text : String) : String := String.ofList ((marked false text.toList).flatMap broken)

/-- There is no `\r` outside of quotes. -/
def ReturnsQuoted (text : String) : Prop := ∀ p ∈ marked false text.toList, p.1 = '\r' → p.2

instance (text : String) : Decidable (ReturnsQuoted text) := List.decidableBAll _ _

variable {c : Char} {cs : List Char} {quoted : Bool}

theorem flatMap_broken_cons (h : c = '\n' → quoted) :
    (marked quoted (c :: cs)).flatMap broken =
      c :: (marked (if c = '"' then !quoted else quoted) cs).flatMap broken := by
  have hbroken : broken (c, quoted) = [c] := by
    unfold broken
    split <;> simp_all
  rw [marked, List.flatMap_cons, hbroken, List.singleton_append]

theorem head?_flatMap_broken (h : cs.head? ≠ some '"') : ((marked quoted cs).flatMap broken).head? ≠ some '"' := by
  cases cs with
  | nil => simp [marked]
  | cons c cs =>
    by_cases hbreak : c = '\n' → quoted
    · rwa [flatMap_broken_cons hbreak]
    · obtain ⟨rfl, hquoted⟩ := Classical.not_imp.1 hbreak
      simp [marked, hquoted, broken]

theorem scan_flatMap_broken (line : Nat) (opened : Option Nat) (d : Draft) (cs : List Char)
    (h : ∀ p ∈ marked opened.isSome cs, p.1 = '\r' → p.2) :
    scan line opened d ((marked opened.isSome cs).flatMap broken) = scan line opened d cs := by
  fun_induction scan line opened d cs with
  | case1 | case2 => simp [marked, scan]
  | case3 line l d cs ih =>
    rw [flatMap_broken_cons (by simp), flatMap_broken_cons (by simp), scan]
    exact ih fun p hp => h p (List.mem_cons_of_mem _ (List.mem_cons_of_mem _ hp))
  | case4 line l d cs hnext ih =>
    -- what follows the section may start with a break now, but not with a quote
    have hhead : cs.head? ≠ some '"' := by
      intro hhead
      obtain ⟨cs', rfl⟩ := List.head?_eq_some_iff.1 hhead
      exact hnext _ rfl
    rw [flatMap_broken_cons (by simp), scan_close (head?_flatMap_broken hhead)]
    exact ih fun p hp => h p (List.mem_cons_of_mem _ hp)
  | case5 line l d c cs _ hquote ih =>
    rw [marked, if_neg hquote] at h
    rw [flatMap_broken_cons (by simp), if_neg hquote, scan_quoted hquote]
    exact ih fun p hp => h p (List.mem_cons_of_mem _ hp)
  | case6 line d cs ih | case7 line d cs ih =>
    rw [flatMap_broken_cons (by simp), scan]
    exact ih fun p hp => h p (List.mem_cons_of_mem _ hp)
  | case8 => cases h _ List.mem_cons_self rfl
  | case9 line d cs ih =>
    show scan line none d ('\r' :: '\n' :: (marked false cs).flatMap broken) = _
    rw [scan]
    exact congrArg _ (ih fun p hp => h p (List.mem_cons_of_mem _ hp))
  | case10 line d c cs hquote hcomma _ hbreak ih =>
    have hreturn : c ≠ '\r' := by
      rintro rfl
      cases h _ List.mem_cons_self rfl
    rw [marked, if_neg hquote] at h
    rw [flatMap_broken_cons (fun hc => absurd hc hbreak), if_neg hquote,
      scan_push ⟨hcomma, hquote, hbreak⟩ fun hc => absurd hc hreturn]
    exact ih fun p hp => h p (List.mem_cons_of_mem _ hp)

/-- A text without `\r` outside of quotes is read and imported the same with a `\r` before each line break outside of
quotes: the records, or the line of the error, and what becomes of a sheet. -/
theorem records_withReturns {text : String} (h : ReturnsQuoted text) :
    records (withReturns text) = records text ∧ fields (withReturns text) = fields text ∧
      ∀ s : Sheet, s.importText (withReturns text) = s.importText text := by
  have hrecords : records (withReturns text) = records text := by
    rw [records, records, withReturns, String.toList_ofList]
    exact scan_flatMap_broken 1 none .empty text.toList h
  have hfields : fields (withReturns text) = fields text := by rw [fields, fields, hrecords]
  exact ⟨hrecords, hfields, fun s => by rw [Sheet.importText, Sheet.importText, hfields]⟩

/-- Both kinds of breaks in quotes stay as they are. -/
theorem records_withReturns_quoted_breaks :
    let text := "a,\"b\r\n\"\"c\nd\"\n\ne\n"
    withReturns text = "a,\"b\r\n\"\"c\nd\"\r\n\r\ne\r\n" ∧
      records (withReturns text) = records text ∧ fields (withReturns text) = fields text ∧
        ∀ s : Sheet, s.importText (withReturns text) = s.importText text :=
  ⟨by decide, records_withReturns (by decide)⟩

end Csv

end Spreadsheet
