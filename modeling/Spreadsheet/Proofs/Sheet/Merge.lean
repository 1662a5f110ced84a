import Spreadsheet.Proofs.Sheet.Calls

/-!
# An import is a merge

An import creates a literal cell for each field that is not empty and has no cell yet, and writes nothing else
(`merged_initAll`). Afterwards all these fields have cells, so the same import again finds nothing to create
(`initAll_eq_self`).
-/

namespace Spreadsheet

namespace Csv
variable {rows : List (List String)}

theorem length_placed (rows : List (List String)) : (placed rows).length = rows.flatten.countP (· ≠ "") := by
  have hrecord : ∀ record : List String,
      (record.zipIdx.filter (·.1 ≠ "")).length = record.countP (· ≠ "") := by
    intro record
    have hcount := List.countP_map (p := (· ≠ "")) (f := Prod.fst) (l := record.zipIdx)
    rw [List.zipIdx_map_fst] at hcount
    rw [hcount, List.countP_eq_length_filter]
    rfl
  rw [placed, List.length_flatMap, List.countP_flatten]
  simp only [List.length_map, hrecord]
  conv_rhs => rw [← List.zipIdx_map_fst 0 rows, List.map_map]
  rfl

end Csv

namespace Sheet
variable {s t : Sheet} {r : Ref} {rows : List (List String)} {text : String} {n : Nat}

theorem init_eq_self {literal : String} (h : r ∈ s.cells) : s.init r literal = s := by
  rw [init, Store.init?, if_pos h]

theorem initAll_eq_self {literals : List (Ref × String)} (h : ∀ p ∈ literals, p.1 ∈ s.cells) :
    s.initAll literals = s := by
  induction literals with
  | nil => rfl
  | cons p literals ih =>
    obtain ⟨hp, hliterals⟩ := List.forall_mem_cons.1 h
    show (s.init p.1 p.2).initAll literals = s
    rw [init_eq_self hp, ih hliterals]

theorem importText_eq_ok : s.importText text = (.ok n, t) ↔
    ∃ rows, Csv.records text = .ok rows ∧ Csv.placed rows ≠ [] ∧ n = (Csv.placed rows).length ∧
      t = s.initAll (Csv.placed rows) := by
  cases hrecords : Csv.records text with
  | error line => simp [importText_of_unclosed hrecords]
  | ok rows =>
    by_cases hne : Csv.placed rows = []
    · simp [importText_of_empty hrecords hne, hne]
    · rw [importText_of_records hrecords hne]
      constructor
      · intro h
        obtain ⟨hn, rfl⟩ := Prod.mk.inj h
        exact ⟨rows, rfl, hne, (Except.ok.inj hn).symm, rfl⟩
      · rintro ⟨_, hrows, -, rfl, rfl⟩
        rw [Except.ok.inj hrows]

theorem mem_initAll_placed : r ∈ (s.initAll (Csv.placed rows)).cells ↔
    r ∈ s.cells ∨ ∃ field, (r, field) ∈ Csv.placed rows := by
  have hcell := s.cell?_initAll_placed rows r
  rw [cell?, cell?] at hcell
  simp only [Std.ExtTreeMap.mem_iff_isSome_getElem?, hcell, Csv.mem_placed, Option.isSome_or, Option.isSome_map,
    Bool.or_eq_true, Option.isSome_iff_exists]

theorem modified_initAll_placed : (s.initAll (Csv.placed rows)).modified = true ↔
    s.modified = true ∨ ∃ r, r ∉ s.cells ∧ r ∈ (s.initAll (Csv.placed rows)).cells := by
  constructor
  · intro hmod
    by_contra hnone
    rw [not_or] at hnone
    obtain ⟨hclean, hnone⟩ := hnone
    have hall : ∀ p ∈ Csv.placed rows, p.1 ∈ s.cells := by
      intro p hp
      by_contra hnot
      exact hnone ⟨p.1, hnot, mem_initAll_placed.2 (.inr ⟨p.2, hp⟩)⟩
    rw [initAll_eq_self hall] at hmod
    exact hclean hmod
  · intro h
    by_contra hclean
    have hsame := initAll_of_not_modified (Bool.eq_false_iff.2 hclean)
    rw [hsame] at h hclean
    rcases h with hmod | ⟨r, hr, hr'⟩
    · exact hclean hmod
    · exact hr hr'

/-- The fields of some records, merged into a sheet. -/
structure Merged (s t : Sheet) (rows : List (List String)) : Prop where
  kept : ∀ r c, s.cell? r = some c → t.cell? r = some c
  created : ∀ r, s.cell? r = none → t.cell? r = (Csv.fieldAt? rows r).map .ofLiteral
  shown : ∀ r c, s.cell? r = none → t.cell? r = some c → c.formula = none ∧ Csv.fieldAt? rows r = some c.display
  graph : t.graph = s.graph
  mode : t.mode = s.mode
  path : t.path = s.path
  /-- A created cell sets the mark of changes, and else it stays as it was. -/
  modified : t.modified = true ↔ s.modified = true ∨ ∃ r, r ∉ s.cells ∧ r ∈ t.cells

theorem merged_initAll (s : Sheet) (rows : List (List String)) : s.Merged (s.initAll (Csv.placed rows)) rows := by
  have hcell := s.cell?_initAll_placed rows
  obtain ⟨cells, modified, heq⟩ := initAll_eq (s := s) (Csv.placed rows)
  refine ⟨fun r c hc => ?_, fun r hr => ?_, fun r c hr hc => ?_, by rw [heq], by rw [heq], by rw [heq],
    modified_initAll_placed⟩
  · rw [hcell, hc, Option.some_or]
  · rw [hcell, hr, Option.none_or]
  · rw [hcell, hr, Option.none_or, Option.map_eq_some_iff] at hc
    obtain ⟨field, hfield, rfl⟩ := hc
    exact ⟨rfl, by rw [hfield, Cell.display, Cell.ofLiteral, Value.display_ofLiteral]⟩

/-- A text that is accepted is merged into the sheet, whatever the sheet. The answer counts the fields that are not
empty, also those that are not used, and the same import once more changes nothing. -/
theorem importText_merged (h : s.importText text = (.ok n, t)) :
    ∃ rows, Csv.records text = .ok rows ∧ n = rows.flatten.countP (· ≠ "") ∧ s.Merged t rows ∧
      t.importText text = (.ok n, t) := by
  obtain ⟨rows, hrecords, hne, rfl, rfl⟩ := importText_eq_ok.1 h
  refine ⟨rows, hrecords, Csv.length_placed rows, s.merged_initAll rows, ?_⟩
  refine importText_eq_ok.2 ⟨rows, hrecords, hne, rfl, (initAll_eq_self fun p hp => ?_).symm⟩
  exact mem_initAll_placed.2 (.inr ⟨p.2, hp⟩)

/-- A formula on a cell that is still missing is kept, and the missing cell becomes a literal. -/
theorem importText_merged_formula :
    let s := (Sheet.empty .topological).after [.set ⟨0, 0⟩ "=B1+1"]
    let text := "7,\"1,5\"\n,=A1\n"
    let t := (s.importText text).2
    s.importText text = (.ok 3, t) ∧ ∃ rows, Csv.records text = .ok rows ∧ 3 = rows.flatten.countP (· ≠ "") ∧
      s.Merged t rows ∧ t.importText text = (.ok 3, t) := by
  intro s text t
  have h : s.importText text = (.ok 3, t) := Prod.ext (by decide +kernel) rfl
  exact ⟨h, importText_merged h⟩

end Sheet

end Spreadsheet
