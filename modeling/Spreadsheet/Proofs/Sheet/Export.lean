import Mathlib.Order.Bounds.Basic
import Spreadsheet.Proofs.Csv.Placed
import Spreadsheet.Proofs.Csv.RoundTrip
import Spreadsheet.Proofs.Sheet.Session

/-!
# An exported sheet read back

The grid of a sheet reaches to its filled cells and no further (`Extent.extent?`), and the other cells are
empty texts in it. So the fields of the grid that are not empty are the texts of the filled cells
(`fieldAt?_grid`), and a sheet made of them has the same grid, whether the text is imported
(`importText_csvText`) or read from a file that is opened (`openFile_csvText`).
-/

namespace Spreadsheet

theorem isGreatest_foldl_max {xs : List Nat} (hne : xs ≠ []) : IsGreatest {x | x ∈ xs} (xs.foldl max 0) := by
  obtain ⟨x, xs, rfl⟩ := List.exists_cons_of_ne_nil hne
  have hmax : (x :: xs).max? = some ((x :: xs).foldl max 0) := by
    rw [List.max?_cons', List.foldl_cons, Nat.zero_max]
  exact List.max?_eq_some_iff.1 hmax

namespace Cell
variable {text : String}

theorem input_ofLiteral : (Cell.ofLiteral text).input = text := Value.display_ofLiteral text

theorem isFilled_ofLiteral : (Cell.ofLiteral text).isFilled ↔ text ≠ "" := by
  simp [isFilled, hasFormula, display, ofLiteral, Value.display_ofLiteral]

end Cell

namespace Sheet
variable {s t : Sheet} {r : Ref} {lastCol lastRow : Nat}

/-- There is a cell at the place that shows something or computes something. -/
def Filled (s : Sheet) (r : Ref) : Prop := ∃ c, s.cell? r = some c ∧ c.isFilled

/-- The furthest column and the furthest row of the filled cells. -/
structure Extent (s : Sheet) (lastCol lastRow : Nat) : Prop where
  col : IsGreatest (Ref.col '' {r | s.Filled r}) lastCol
  row : IsGreatest (Ref.row '' {r | s.Filled r}) lastRow

/-- The text to edit at a place that is filled. -/
def filledInput? (s : Sheet) (r : Ref) : Option String := ((s.cell? r).filter Cell.isFilled).map Cell.input

theorem filledInput?_eq_some {text : String} :
    s.filledInput? r = some text ↔ ∃ c, s.cell? r = some c ∧ c.isFilled ∧ c.input = text := by
  simp only [filledInput?, Option.map_eq_some_iff, Option.filter_eq_some_iff, and_assoc]

theorem filled_iff : s.Filled r ↔ ∃ text, s.filledInput? r = some text := by
  simp only [filledInput?_eq_some]
  constructor
  · rintro ⟨c, hc, hfilled⟩
    exact ⟨c.input, c, hc, hfilled, rfl⟩
  · rintro ⟨_, c, hc, hfilled, -⟩
    exact ⟨c, hc, hfilled⟩

/-! ### The grid -/

theorem mem_filledCells : r ∈ (s.cells.toList.filter (·.2.isFilled)).map Prod.fst ↔ s.Filled r :=
  Store.mem_map_filter

theorem isGreatest_filledCells {rs : List Ref} (hmem : ∀ r, r ∈ rs ↔ s.Filled r) (hne : rs ≠ [])
    (f : Ref → Nat) : IsGreatest (f '' {r | s.Filled r}) ((rs.map f).foldl max 0) := by
  have himage : f '' {r | s.Filled r} = {x | x ∈ rs.map f} := by
    ext x
    simp only [Set.mem_ofPred_eq, List.mem_map, Set.mem_image, hmem]
  rw [himage]
  exact isGreatest_foldl_max (by simpa using hne)

theorem exists_extent? (h : ∃ r, s.Filled r) :
    ∃ lastCol lastRow, s.extent? = some (lastCol, lastRow) ∧ s.Extent lastCol lastRow := by
  obtain ⟨r, hr⟩ := h
  have hne := List.ne_nil_of_mem (mem_filledCells.2 hr)
  unfold extent?
  split
  · next hnil => exact absurd hnil hne
  · exact ⟨_, _, rfl, isGreatest_filledCells (fun r => mem_filledCells) hne Ref.col,
      isGreatest_filledCells (fun r => mem_filledCells) hne Ref.row⟩

theorem Extent.extent? (h : s.Extent lastCol lastRow) : s.extent? = some (lastCol, lastRow) := by
  obtain ⟨r, hr, -⟩ := h.col.1
  obtain ⟨col, row, hsome, hextent⟩ := exists_extent? ⟨r, hr⟩
  rw [hsome, hextent.col.unique h.col, hextent.row.unique h.row]

theorem Extent.grid (h : s.Extent lastCol lastRow) :
    s.grid = (List.range (lastRow + 1)).map fun row =>
      (List.range (lastCol + 1)).map fun col => s.inputAt ⟨row, col⟩ := by
  rw [Sheet.grid, h.extent?]

theorem Extent.records_csvText (h : s.Extent lastCol lastRow) : Csv.records s.csvText = .ok s.grid := by
  refine Csv.records_render fun record hrecord => ?_
  rw [h.grid] at hrecord
  obtain ⟨row, -, rfl⟩ := List.mem_map.1 hrecord
  simp

theorem Extent.filledInput?_eq_none (h : s.Extent lastCol lastRow) (hr : lastRow < r.row ∨ lastCol < r.col) :
    s.filledInput? r = none := by
  refine Option.eq_none_iff_forall_ne_some.2 fun text htext => ?_
  have hfilled : s.Filled r := filled_iff.2 ⟨text, htext⟩
  have hcol : r.col ≤ lastCol := h.col.2 ⟨r, hfilled, rfl⟩
  have hrow : r.row ≤ lastRow := h.row.2 ⟨r, hfilled, rfl⟩
  omega

namespace Entered

theorem filter_inputAt (h : s.Entered) (r : Ref) :
    (some (s.inputAt r)).filter (· ≠ "") = s.filledInput? r := by
  unfold inputAt filledInput?
  cases hc : s.cell? r with
  | none => rfl
  | some c =>
    have hfilled := (h r c hc).isFilled_iff
    by_cases hinput : c.input = "" <;> simp [Option.filter, hfilled, hinput]

theorem inputAt_eq (h : s.Entered) (r : Ref) : s.inputAt r = (s.filledInput? r).getD "" := by
  rw [← h.filter_inputAt]
  by_cases hinput : s.inputAt r = "" <;> simp [Option.filter, hinput]

/-- Beyond the extent no cell is filled, and within it the fields are the texts of the cells. -/
theorem fieldAt?_grid (h : s.Entered) (hextent : s.Extent lastCol lastRow) (r : Ref) :
    Csv.fieldAt? s.grid r = s.filledInput? r := by
  rw [Csv.fieldAt?, hextent.grid, List.getElem?_map]
  by_cases hrow : r.row < lastRow + 1
  · rw [List.getElem?_range hrow, Option.map_some, Option.bind_some, List.getElem?_map]
    by_cases hcol : r.col < lastCol + 1
    · rw [List.getElem?_range hcol, Option.map_some, h.filter_inputAt]
    · rw [List.getElem?_eq_none (by simpa using hcol), hextent.filledInput?_eq_none (by omega)]
      rfl
  · rw [List.getElem?_eq_none (by simpa using hrow), hextent.filledInput?_eq_none (by omega)]
    rfl

theorem mem_placed_grid (h : s.Entered) (hextent : s.Extent lastCol lastRow) :
    r ∈ (Csv.placed s.grid).map Prod.fst ↔ s.Filled r := by
  simp only [List.mem_map, Prod.exists, Csv.mem_placed, h.fieldAt?_grid hextent, filled_iff]
  constructor
  · rintro ⟨_, text, htext, rfl⟩
    exact ⟨text, htext⟩
  · rintro ⟨text, htext⟩
    exact ⟨r, text, htext, rfl⟩

theorem length_placed_grid (h : s.Entered) (hextent : s.Extent lastCol lastRow) :
    (Csv.placed s.grid).length = s.cells.toList.countP (·.2.isFilled) := by
  rw [← List.length_map Prod.fst]
  exact Store.length_eq_countP Cell.isFilled Csv.nodup_placed fun r => h.mem_placed_grid hextent

/-- The text of a sheet depends on the filled cells alone. -/
theorem csvText_congr (h : s.Entered) (h' : t.Entered) (hextent : s.Extent lastCol lastRow)
    (hinput : ∀ r, t.filledInput? r = s.filledInput? r) : t.csvText = s.csvText := by
  have hfilled : t.Filled = s.Filled := by
    funext r
    rw [filled_iff, filled_iff, hinput]
  have hextent' : t.Extent lastCol lastRow := ⟨hfilled ▸ hextent.col, hfilled ▸ hextent.row⟩
  have hinputAt : t.inputAt = s.inputAt := by
    funext r
    rw [h.inputAt_eq, h'.inputAt_eq, hinput]
  rw [csvText, csvText, hextent.grid, hextent'.grid, hinputAt]

end Entered

/-! ### The sheet of the texts -/

/-- What is left of a sheet that is exported and imported into an empty one: the filled cells, each as the
text to edit. -/
structure ReadBack (s t : Sheet) : Prop where
  filled : ∀ r, (∃ c, t.cell? r = some c) ↔ s.Filled r
  shown : ∀ r c c', s.cell? r = some c → t.cell? r = some c' → c'.formula = none ∧ c'.display = c.input
  /-- Literals keep their values. -/
  value : ∀ r c c', s.cell? r = some c → t.cell? r = some c' → c.formula = none → c'.value = c.value
  csvText : t.csvText = s.csvText

/-- Cells that exist stay, and the fields make the others. -/
theorem cell?_initAll_placed (s : Sheet) (rows : List (List String)) (r : Ref) :
    (s.initAll (Csv.placed rows)).cell? r = (s.cell? r).or ((Csv.fieldAt? rows r).map .ofLiteral) := by
  rw [cell?, getElem?_initAll_eq, ← Csv.find?_placed, Option.map_map]
  rfl

theorem cell?_initAll_empty (mode : Sheet.Mode) (rows : List (List String)) (r : Ref) :
    ((Sheet.empty mode).initAll (Csv.placed rows)).cell? r = (Csv.fieldAt? rows r).map .ofLiteral := by
  rw [cell?_initAll_placed]
  simp [cell?, Sheet.empty]

theorem importText_of_records {rows : List (List String)} {text : String} (h : Csv.records text = .ok rows)
    (hne : Csv.placed rows ≠ []) :
    s.importText text = (.ok (Csv.placed rows).length, s.initAll (Csv.placed rows)) := by
  rw [importText, Csv.fields_of_records h]
  split
  · next h => cases h
  · next h => exact absurd (Except.ok.inj h) hne
  · next h =>
    rw [← Except.ok.inj h]
    rfl

namespace Entered

theorem filledInput?_ne_empty (h : s.Entered) : s.filledInput? r ≠ some "" := by
  rw [← h.filter_inputAt]
  simp [Option.filter_eq_some_iff]

theorem readBack (h : s.Entered) (hextent : s.Extent lastCol lastRow)
    (ht : ∀ r, t.cell? r = (s.filledInput? r).map .ofLiteral) : s.ReadBack t := by
  -- a cell of `t` is the literal of what was to be edited in `s`, and no text is lost on the way
  have hcell : ∀ r c c', s.cell? r = some c → t.cell? r = some c' → c' = .ofLiteral c.input := by
    intro r c c' hc hc'
    rw [ht, Option.map_eq_some_iff] at hc'
    obtain ⟨text, htext, rfl⟩ := hc'
    obtain ⟨d, hd, -, rfl⟩ := filledInput?_eq_some.1 htext
    rw [Option.some.inj (hc.symm.trans hd)]
  have hentered : t.Entered := by
    intro r c hc
    rw [ht, Option.map_eq_some_iff] at hc
    obtain ⟨text, -, rfl⟩ := hc
    exact .of_literal rfl
  have hinput : ∀ r, t.filledInput? r = s.filledInput? r := by
    intro r
    rw [filledInput?, ht]
    cases htext : s.filledInput? r with
    | none => rfl
    | some text =>
      have hne : text ≠ "" := fun htext' => h.filledInput?_ne_empty (htext' ▸ htext)
      simp [Option.filter, Cell.isFilled_ofLiteral.2 hne, Cell.input_ofLiteral]
  refine ⟨fun r => ?_, fun r c c' hc hc' => ?_, fun r c c' hc hc' hf => ?_, ?_⟩
  · simp only [ht, Option.map_eq_some_iff, filled_iff]
    constructor
    · rintro ⟨_, text, htext, -⟩
      exact ⟨text, htext⟩
    · rintro ⟨text, htext⟩
      exact ⟨_, text, htext, rfl⟩
  · rw [hcell r c c' hc hc']
    exact ⟨rfl, Cell.input_ofLiteral⟩
  · rw [hcell r c c' hc hc', (h r c hc).literal hf]
    rfl
  · exact h.csvText_congr hentered hextent hinput

theorem exists_importText (h : s.Entered) (hextent : s.Extent lastCol lastRow) (mode : Sheet.Mode) :
    ∃ back, (Sheet.empty mode).importText s.csvText = (.ok (s.cells.toList.countP (·.2.isFilled)), back) ∧
      s.ReadBack back := by
  have hne : Csv.placed s.grid ≠ [] := by
    obtain ⟨r, hr, -⟩ := hextent.col.1
    exact fun hnil => by simpa [hnil] using (h.mem_placed_grid hextent).2 hr
  refine ⟨(Sheet.empty mode).initAll (Csv.placed s.grid), ?_, h.readBack hextent fun r => ?_⟩
  · rw [importText_of_records hextent.records_csvText hne, h.length_placed_grid hextent]
  · rw [cell?_initAll_empty, h.fieldAt?_grid hextent]

end Entered

/-- At any moment of a session the text of a sheet is the grid of its texts to edit, up to the furthest filled
cells, and an empty sheet imports it as a sheet with the same text. -/
theorem importText_csvText (h : s.InSession) (hfilled : ∃ r, s.Filled r) :
    ∃ lastCol lastRow, s.Extent lastCol lastRow ∧
      Csv.records s.csvText = .ok ((List.range (lastRow + 1)).map fun row =>
        (List.range (lastCol + 1)).map fun col => s.inputAt ⟨row, col⟩) ∧
      ∀ mode, ∃ back,
        (Sheet.empty mode).importText s.csvText = (.ok (s.cells.toList.countP (·.2.isFilled)), back) ∧
        s.ReadBack back := by
  obtain ⟨lastCol, lastRow, -, hextent⟩ := exists_extent? hfilled
  exact ⟨lastCol, lastRow, hextent, hextent.grid ▸ hextent.records_csvText, h.entered.exists_importText hextent⟩

/-- A formula that mentions its own cell is computed depth first. Then the host assigns the other mode, and a
text with blanks, a comma, quotes and a line break is typed in, and a formula on it. -/
theorem importText_csvText_quoted :
    let t := (Sheet.empty .depthFirst).after [.set ⟨0, 0⟩ "=A1"]
    let s := { t with mode := .topological }.after [.set ⟨0, 1⟩ " a,\"b\"\r\n", .set ⟨1, 0⟩ "=A1+B1"]
    ∃ lastCol lastRow, s.Extent lastCol lastRow ∧
      Csv.records s.csvText = .ok ((List.range (lastRow + 1)).map fun row =>
        (List.range (lastCol + 1)).map fun col => s.inputAt ⟨row, col⟩) ∧
      ∀ mode, ∃ back,
        (Sheet.empty mode).importText s.csvText = (.ok (s.cells.toList.countP (·.2.isFilled)), back) ∧
        s.ReadBack back := by
  intro t s
  have ht : t.InSession := .after (.empty _) _
  have hs : s.InSession := .after (ht.assign .topological t.path t.modified) _
  refine importText_csvText hs ⟨⟨1, 0⟩, ?_⟩
  exact (Option.any_eq_true Cell.isFilled _).1 (by decide +kernel)

/-- A file with the text of a sheet is opened as a sheet with its texts, in the mode of the host and without a
mark of changes. -/
theorem openFile_csvText {F : Type} [Files (StateM F)] {files files' : F} {path : String} (h : s.InSession)
    (hfilled : ∃ r, s.Filled r) (hread : (Files.readText path : StateM F _).run files = (.ok s.csvText, files'))
    (mode : Sheet.Mode) :
    ∃ back, (openFile mode path : StateM F _).run files = (.ok back, files') ∧ s.ReadBack back ∧
      back.mode = mode ∧ back.path = some path ∧ back.modified = false := by
  obtain ⟨lastCol, lastRow, -, hextent⟩ := exists_extent? hfilled
  obtain ⟨back, himport, hback⟩ := h.entered.exists_importText hextent .topological
  refine ⟨{ back with mode, path := some path, modified := false }, ?_, ?_, rfl, rfl, rfl⟩
  · have hopened : ofContents path (.ok s.csvText) = .ok { back with path := some path, modified := false } := by
      rw [ofContents, importContents, himport]
      rfl
    rw [run_openFile, hread, hopened]
    rfl
  · exact ⟨hback.filled, hback.shown, hback.value, hback.csvText⟩

end Sheet

end Spreadsheet
