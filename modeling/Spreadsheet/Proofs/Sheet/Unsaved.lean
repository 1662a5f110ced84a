import Spreadsheet.Files.Disk
import Spreadsheet.Proofs.Sheet.Calls
import Spreadsheet.Proofs.Sheet.Footprint

/-!
# Changes that are not saved

The text of a sheet shows the contents of its cells only (`csvText_congr`), and these change by inputs and by
literal cells that are created, both of which leave the mark of changes behind. Recalculation writes values
without a mark, but no contents. So an operation that leaves the mark off has changed no contents
(`Mirrored.content?_of_not_modified`), and as long as the mark is off after the sheet was written to a file,
the file holds the text of the sheet (`World.csvText_of_not_modified`).
-/

namespace Spreadsheet

theorem Cell.isFilled_eq {c : Cell} : c.isFilled = (c.content.isLeft || Cell.inputOf c.content != "") := by
  rcases c with ⟨v, _ | f⟩ <;> rfl

theorem Disk.refusal?_eq_none {path : String} (hnul : '\x00' ∉ path.toList) (hne : path ≠ "")
    (hshort : path.utf8ByteSize ≤ pathLimit) : refusal? path = none := by
  rw [refusal?, String.contains_char_eq, if_neg (by simpa using hnul), if_neg hne, if_neg (Nat.not_lt.2 hshort)]

/-- A write that fails leaves the disk as it was. -/
theorem Disk.run_writeText (disk : Disk) (path text : String) :
    (Files.writeText path text : StateM Disk _).run disk =
      match disk.write path text.toUTF8 with
      | .ok disk => (.ok (), disk)
      | .error fault => (.error fault, disk) := by
  show StateT.run (match disk.write path text.toUTF8 with
    | .ok disk => do
      set disk
      return .ok ()
    | .error fault => return .error fault : StateM Disk (Except FileFault Unit)) disk = _
  cases disk.write path text.toUTF8 <;> rfl

namespace Sheet
variable {s t : Sheet} {op : Op} {r : Ref} {lastCol lastRow : Nat}

/-! ### What the text shows -/

theorem inputAt_eq : s.inputAt r = ((s.cells.content? r).map Cell.inputOf).getD "" := by
  unfold inputAt cell? Store.content?
  cases s.cells[r]? with
  | none => rfl
  | some c => exact Cell.input_eq

theorem filled_iff_content? :
    s.Filled r ↔ ∃ k, s.cells.content? r = some k ∧ (k.isLeft || Cell.inputOf k != "") := by
  unfold Filled cell? Store.content?
  simp only [Cell.isFilled_eq]
  cases s.cells[r]? <;> simp

theorem Extent.congr (h : s.Extent lastCol lastRow) (hfilled : ∀ r, s.Filled r ↔ t.Filled r) :
    t.Extent lastCol lastRow := by
  have hset : {r | s.Filled r} = {r | t.Filled r} := Set.ext hfilled
  exact ⟨hset ▸ h.col, hset ▸ h.row⟩

theorem extent?_eq_none (h : ¬ ∃ r, s.Filled r) : s.extent? = none := by
  have hnil : (s.cells.toList.filter (·.2.isFilled)).map Prod.fst = [] :=
    List.eq_nil_iff_forall_not_mem.2 fun r hr => h ⟨r, mem_filledCells.1 hr⟩
  rw [Sheet.extent?, hnil]

theorem extent?_congr (hfilled : ∀ r, s.Filled r ↔ t.Filled r) : s.extent? = t.extent? := by
  by_cases hsome : ∃ r, s.Filled r
  · obtain ⟨lastCol, lastRow, hextent?, hextent⟩ := exists_extent? hsome
    rw [hextent?, (hextent.congr hfilled).extent?]
  · rw [extent?_eq_none hsome, extent?_eq_none fun ⟨r, hr⟩ => hsome ⟨r, (hfilled r).2 hr⟩]

theorem csvText_congr (he : s.cells.content? = t.cells.content?) : s.csvText = t.csvText := by
  have hfilled : ∀ r, s.Filled r ↔ t.Filled r := fun r => by
    rw [filled_iff_content?, filled_iff_content?, he]
  have hinput : s.inputAt = t.inputAt := by
    funext r
    rw [inputAt_eq, inputAt_eq, he]
  rw [csvText, csvText, grid, grid, extent?_congr hfilled, hinput]

/-! ### Operations without a mark -/

theorem Mirrored.content?_of_not_modified (h : s.Mirrored) (hmod : (s.apply op).modified = false) :
    s.modified = false ∧ (s.apply op).cells.content? = s.cells.content? := by
  rcases s.apply_cases op with ⟨r, input, -, happly⟩ | ⟨-, happly⟩ | ⟨-, -, mode, happly⟩ <;>
    rw [happly] at hmod ⊢
  · cases (h.footprint_set r input).modified.symm.trans hmod
  · have hsame := initAll_of_not_modified hmod
    rw [hsame] at hmod ⊢
    exact ⟨hmod, rfl⟩
  · exact ⟨hmod, (h.assign mode s.path s.modified).content?_recalculate⟩

/-! ### Calls -/

/-- The call is one that writes the sheet to a file. -/
def Call.Writes : Call → Prop
  | .exportFile _ | .save => True
  | .op _ | .importFile _ => False

namespace World
variable {F : Type} [Files (StateM F)] {w : World F} {c : Call} {calls : List Call}

/-- The call writes the sheet to a file, and does not fail. -/
def Wrote (w : World F) (c : Call) : Prop := c.Writes ∧ (w.call c).1 = none

/-- What a run of calls leaves, whichever of them fail. -/
def after (w : World F) (calls : List Call) : World F := calls.foldl (fun w c => (w.call c).2) w

/-- No call of the run writes the sheet to a file: it is none that does, or it fails. -/
def NothingWritten (w : World F) : List Call → Prop
  | [] => True
  | c :: calls => ¬ w.Wrote c ∧ (w.call c).2.NothingWritten calls

theorem exists_path_of_exportFile {path : String} (h : (w.call (.exportFile path)).1 = none) :
    w.writes path w.sheet.csvText = .ok () ∧
      (w.call (.exportFile path)).2.sheet = { w.sheet with path := some path, modified := false } := by
  rw [call_exportFile_fst] at h
  rw [call_exportFile_sheet]
  cases hanswer : w.writes path w.sheet.csvText with
  | error fault =>
    rw [hanswer] at h
    cases h
  | ok => exact ⟨rfl, rfl⟩

/-- A file that is written takes the text of the sheet, and the sheet takes note of the file. -/
theorem exists_path_of_wrote (h : w.Wrote c) :
    ∃ path, w.writes path w.sheet.csvText = .ok () ∧
      (w.call c).2.sheet = { w.sheet with path := some path, modified := false } := by
  obtain ⟨hwrites, hok⟩ := h
  cases c with
  | op | importFile => cases hwrites
  | exportFile path => exact ⟨path, exists_path_of_exportFile hok⟩
  | save =>
    cases hpath : w.sheet.path with
    | none =>
      rw [call_save_of_none hpath] at hok
      cases hok
    | some path =>
      rw [call_save_of_some hpath] at hok ⊢
      exact ⟨path, exists_path_of_exportFile hok⟩

/-- Any other call fails or does what some operation does. -/
theorem sheet_call_of_not_wrote (h : ¬ w.Wrote c) :
    (w.call c).2.sheet = w.sheet ∨ ∃ op, (w.call c).2.sheet = w.sheet.apply op := by
  by_cases hok : (w.call c).1 = none
  · cases c with
    | exportFile | save => exact absurd ⟨trivial, hok⟩ h
    | op op => exact .inr ⟨op, rfl⟩
    | importFile path =>
      rw [call_importFile_sheet]
      cases w.reads path with
      | error => exact .inl rfl
      | ok text => exact .inr ⟨.importText text, rfl⟩
  · obtain ⟨e, he⟩ := Option.ne_none_iff_exists'.1 hok
    exact .inl (call_of_fails (fails_of_call he)).2

/-- Calls do not lead out of a session. -/
theorem inSession_call (h : w.sheet.InSession) (c : Call) : (w.call c).2.sheet.InSession := by
  by_cases hwrote : w.Wrote c
  · obtain ⟨path, -, hsheet⟩ := exists_path_of_wrote hwrote
    exact hsheet ▸ h.assign w.sheet.mode (some path) false
  · rcases sheet_call_of_not_wrote hwrote with hsame | ⟨op, happly⟩
    · exact hsame ▸ h
    · exact happly ▸ h.apply op

end World

/-- The invariant of a run since `s` was written to a file: contents change under the mark only. -/
structure Kept (s t : Sheet) : Prop where
  mirrored : t.Mirrored
  content? : t.modified = false → t.cells.content? = s.cells.content?

namespace Kept
variable {F : Type} [Files (StateM F)] {w : World F} {c : Call} {calls : List Call}

theorem apply (h : s.Kept t) (op : Op) : s.Kept (t.apply op) where
  mirrored := h.mirrored.apply op
  content? hmod := by
    obtain ⟨hmod', hcontent⟩ := h.mirrored.content?_of_not_modified hmod
    rw [hcontent, h.content? hmod']

theorem call (h : s.Kept w.sheet) (hc : ¬ w.Wrote c) : s.Kept (w.call c).2.sheet := by
  rcases World.sheet_call_of_not_wrote hc with hsame | ⟨op, happly⟩
  · exact hsame ▸ h
  · exact happly ▸ h.apply op

theorem after (h : s.Kept w.sheet) (hcalls : w.NothingWritten calls) : s.Kept (w.after calls).sheet := by
  induction calls generalizing w with
  | nil => exact h
  | cons c calls ih => exact ih (h.call hcalls.1) hcalls.2

end Kept

/-- Once a sheet is written to a file, the file holds the text of the sheet for as long as the mark of
changes is off, whatever calls follow that write no file. -/
theorem World.csvText_of_not_modified {F : Type} [Files (StateM F)] {w : World F} {c : Call}
    (h : w.sheet.InSession) (hwrote : w.Wrote c) :
    ∃ path, w.writes path w.sheet.csvText = .ok () ∧
      ∀ calls, (w.call c).2.NothingWritten calls → ((w.call c).2.after calls).sheet.modified = false →
        ((w.call c).2.after calls).sheet.csvText = w.sheet.csvText := by
  obtain ⟨path, hpath, hsheet⟩ := exists_path_of_wrote hwrote
  refine ⟨path, hpath, fun calls hcalls hmod => ?_⟩
  have hkept : w.sheet.Kept (w.call c).2.sheet := by
    rw [hsheet]
    exact ⟨⟨h.mirrored.wellFormed, h.mirrored.edge⟩, fun _ => rfl⟩
  exact csvText_congr ((hkept.after hcalls).content? hmod)

/-! ### On a disk -/

namespace World
variable {w : World Disk} {path : String} {disk : Disk} {fault : FileFault}

theorem call_exportFile_of_ok (h : w.files.write path w.sheet.csvText.toUTF8 = .ok disk) :
    w.call (.exportFile path) = (none, ⟨{ w.sheet with path := some path, modified := false }, disk⟩) := by
  rw [call_exportFile, Disk.run_writeText, h]
  rfl

theorem call_exportFile_of_error (h : w.files.write path w.sheet.csvText.toUTF8 = .error fault) :
    w.call (.exportFile path) = (some (.file fault), w) := by
  rw [call_exportFile, Disk.run_writeText, h]
  rfl

/-- A sheet with a cycle is exported. Then all formulas are computed anew in the other mode, a cell that
exists is not created again, and an export into a directory that is missing fails. -/
theorem csvText_of_not_modified_cycle :
    let s := (Sheet.empty .topological).after [.set ⟨0, 0⟩ "=B1", .set ⟨0, 1⟩ "=A1"]
    let w : World Disk := ⟨s, Disk.fresh⟩
    let written := (w.call (.exportFile "book.csv")).2
    let calls := [.op (.setMode .depthFirst), .op (.initNamed "A1" "7"), .exportFile "lost/book.csv"]
    (written.after calls).sheet.csvText = s.csvText := by
  intro s w written calls
  have hbook : Disk.refusal? "book.csv" = none := Disk.refusal?_eq_none (by decide) (by decide) (by decide)
  have hlost : Disk.refusal? "lost/book.csv" = none := Disk.refusal?_eq_none (by decide) (by decide) (by decide)
  have hexport : w.call (.exportFile "book.csv") = (none, ⟨{ s with path := some "book.csv", modified := false },
      Disk.fresh.put ["tmp", "work", "book.csv"] (.file s.csvText.toUTF8)⟩) := by
    refine call_exportFile_of_ok ?_
    rw [Disk.write, hbook]
    rfl
  have hwritten : written = _ := congrArg Prod.snd hexport
  have hfails : (written.after (calls.take 2)).call (.exportFile "lost/book.csv") =
      (some (.file .notFound), written.after (calls.take 2)) := by
    refine call_exportFile_of_error ?_
    rw [hwritten, Disk.write, hlost]
    rfl
  have hwrote : w.Wrote (.exportFile "book.csv") := ⟨trivial, congrArg Prod.fst hexport⟩
  obtain ⟨_, -, hkept⟩ := csvText_of_not_modified (InSession.after (.empty _) _) hwrote
  refine hkept calls ⟨And.left, And.left, fun h => ?_, trivial⟩ ?_
  · cases h.2.symm.trans (congrArg Prod.fst hfails)
  · have hsame : written.after calls = written.after (calls.take 2) := by
      show ((written.after (calls.take 2)).call _).2 = _
      rw [hfails]
    rw [hsame, hwritten]
    decide +kernel

end World

end Sheet

end Spreadsheet
