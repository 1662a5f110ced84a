import Spreadsheet.Proofs.Sheet.Export
import Spreadsheet.Sheet.File

/-!
# Calls of a host

A host works on a sheet beside a file system, of which nothing is known but that it answers. `World.Fails`
lists the causes for which a call can fail. Each of them makes the call fail and leave the sheet as it was
(`World.call_of_fails`), and there are no others (`World.fails_of_call`): a call comes down to one answer, of
the file system or of the operation, and the cause is read off it.
-/

namespace Spreadsheet

namespace Sheet

/-- What a host can ask for: an operation, or something that needs a file. -/
inductive Call where
  | op (op : Op)
  | importFile (path : String)
  | exportFile (path : String)
  | save

/-- The cause of a failure. -/
def failure? {α : Type} : Except Error α → Option Error
  | .error e => some e
  | .ok _ => none

theorem failure?_map {α β : Type} {f : α → β} (answer : Except Error α) :
    failure? (answer.map f) = failure? answer := by
  cases answer <;> rfl

/-- The cause for which an operation fails, if it does. -/
def opFailure? (s : Sheet) : Op → Option Error
  | .setNamed name input => failure? (s.setNamed name input).1
  | .initNamed name literal => failure? (s.initNamed name literal).1
  | .importText text => failure? (s.importText text).1
  | .set .. | .clear _ | .recalculate | .setMode _ => none

/-- The cause for which a call fails, if it does, and the sheet after the call. -/
def call {m : Type → Type} [Monad m] [Files m] (s : Sheet) : Call → m (Option Error × Sheet)
  | .op op => return (s.opFailure? op, s.apply op)
  | .importFile path => return (← s.importFile path).map failure? id
  | .exportFile path => return (← s.exportFile path).map failure? id
  | .save => return (← s.save).map failure? id

/-! ### Imports that fail -/

section
variable {s : Sheet} {text : String} {line : Nat} {rows : List (List String)}

theorem importText_of_unclosed (h : Csv.records text = .error line) :
    s.importText text = (.error (.unclosedQuote line), s) := by
  rw [importText, Csv.fields, h]

theorem importText_of_empty (h : Csv.records text = .ok rows) (hrows : Csv.placed rows = []) :
    s.importText text = (.error .emptyCsv, s) := by
  rw [importText, Csv.fields_of_records h, hrows]

end

/-- A sheet beside a file system. -/
structure World (F : Type) where
  sheet : Sheet
  files : F

namespace World
variable {F : Type} [Files (StateM F)]

/-- The cause for which a call fails, if it does, and what the call leaves. -/
def call (w : World F) (c : Call) : Option Error × World F :=
  let ((failure, sheet), files) := (w.sheet.call c : StateM F _).run w.files
  (failure, ⟨sheet, files⟩)

/-- What the file system answers if it is asked for the text of a file. -/
def reads (w : World F) (path : String) : Except FileFault String :=
  ((Files.readText path : StateM F _).run w.files).1

/-- What the file system answers if it is asked to write a text. -/
def writes (w : World F) (path text : String) : Except FileFault Unit :=
  ((Files.writeText path text : StateM F _).run w.files).1

/-- The causes for which a call fails. -/
inductive Fails (w : World F) : Call → Error → Prop
  | setNamed {name input} : Ref.ofName? name = none → w.Fails (.op (.setNamed name input)) (.invalidReference name)
  | initNamed {name literal} :
    Ref.ofName? name = none → w.Fails (.op (.initNamed name literal)) (.invalidReference name)
  /-- A quote is opened on the line and never closed. -/
  | unclosed {text line} : Csv.records text = .error line → w.Fails (.op (.importText text)) (.unclosedQuote line)
  /-- All fields of all records are empty. -/
  | empty {text rows} : Csv.records text = .ok rows → (∀ record ∈ rows, ∀ field ∈ record, field = "") →
    w.Fails (.op (.importText text)) .emptyCsv
  | unread {path fault} : w.reads path = .error fault → w.Fails (.importFile path) (.file fault)
  /-- The file is read and holds a text that cannot be imported. -/
  | contents {path text e} :
    w.reads path = .ok text → w.Fails (.op (.importText text)) e → w.Fails (.importFile path) e
  | unwritten {path fault} :
    w.writes path w.sheet.csvText = .error fault → w.Fails (.exportFile path) (.file fault)
  | noPath : w.sheet.path = none → w.Fails .save .noPath
  /-- The sheet has a file and cannot be exported to it. -/
  | unsaved {path e} : w.sheet.path = some path → w.Fails (.exportFile path) e → w.Fails .save e

/-! ### What each call answers -/

variable {w : World F} {c : Call} {op : Op} {path text : String} {e : Error}

theorem call_op : w.call (.op op) = (w.sheet.opFailure? op, ⟨w.sheet.apply op, w.files⟩) := rfl

theorem call_importFile_fst :
    (w.call (.importFile path)).1 = failure? (w.sheet.importContents (w.reads path)).1 := rfl

theorem call_importFile_sheet :
    (w.call (.importFile path)).2.sheet = (w.sheet.importContents (w.reads path)).2 := rfl

theorem call_exportFile (w : World F) (path : String) :
    w.call (.exportFile path) =
      let (answer, files) := (Files.writeText path w.sheet.csvText : StateM F _).run w.files
      (failure? (w.sheet.written path answer).1, ⟨(w.sheet.written path answer).2, files⟩) := rfl

theorem call_exportFile_fst :
    (w.call (.exportFile path)).1 = failure? (w.sheet.written path (w.writes path w.sheet.csvText)).1 := rfl

theorem call_exportFile_sheet :
    (w.call (.exportFile path)).2.sheet = (w.sheet.written path (w.writes path w.sheet.csvText)).2 := rfl

theorem call_save_of_none (h : w.sheet.path = none) : w.call .save = (some .noPath, w) := by
  unfold call Sheet.call save
  rw [h]
  rfl

/-- To save is to export to the file of the sheet. The answers differ in the path only. -/
theorem call_save_of_some (h : w.sheet.path = some path) : w.call .save = w.call (.exportFile path) := by
  have hanswer := failure?_map (f := fun _ => path) (w.sheet.written path (w.writes path w.sheet.csvText)).1
  unfold call Sheet.call save
  rw [h]
  exact congrArg (·, (w.call (.exportFile path)).2) hanswer

/-! ### Failures -/

theorem call_of_fails (h : w.Fails c e) : (w.call c).1 = some e ∧ (w.call c).2.sheet = w.sheet := by
  induction h with
  | setNamed h => simp [call_op, opFailure?, apply, setNamed_of_none h, failure?]
  | initNamed h => simp [call_op, opFailure?, apply, initNamed_of_none h, failure?]
  | unclosed h => simp [call_op, opFailure?, apply, importText_of_unclosed h, failure?]
  | empty h hrows =>
    simp [call_op, opFailure?, apply, importText_of_empty h (Csv.placed_eq_nil_iff.2 hrows), failure?]
  | unread h => rw [call_importFile_fst, call_importFile_sheet, h]; exact ⟨rfl, rfl⟩
  | contents h _ ih => rw [call_importFile_fst, call_importFile_sheet, h]; exact ih
  | unwritten h => rw [call_exportFile_fst, call_exportFile_sheet, h]; exact ⟨rfl, rfl⟩
  | noPath h => rw [call_save_of_none h]; exact ⟨rfl, rfl⟩
  | unsaved h _ ih => rw [call_save_of_some h]; exact ih

theorem fails_op (h : w.sheet.opFailure? op = some e) : w.Fails (.op op) e := by
  cases op with
  | set | clear | recalculate | setMode => cases h
  | setNamed name input =>
    cases hname : Ref.ofName? name with
    | none =>
      obtain rfl : .invalidReference name = e := by simpa [opFailure?, setNamed_of_none hname, failure?] using h
      exact .setNamed hname
    | some r => simp [opFailure?, setNamed_of_some hname, failure?] at h
  | initNamed name literal =>
    cases hname : Ref.ofName? name with
    | none =>
      obtain rfl : .invalidReference name = e := by simpa [opFailure?, initNamed_of_none hname, failure?] using h
      exact .initNamed hname
    | some r => simp [opFailure?, initNamed_of_some hname, failure?] at h
  | importText text =>
    cases hrecords : Csv.records text with
    | error line =>
      obtain rfl : .unclosedQuote line = e := by
        simpa [opFailure?, importText_of_unclosed hrecords, failure?] using h
      exact .unclosed hrecords
    | ok rows =>
      by_cases hrows : Csv.placed rows = []
      · obtain rfl : .emptyCsv = e := by simpa [opFailure?, importText_of_empty hrecords hrows, failure?] using h
        exact .empty hrecords (Csv.placed_eq_nil_iff.1 hrows)
      · simp [opFailure?, importText_of_records hrecords hrows, failure?] at h

theorem fails_exportFile (h : (w.call (.exportFile path)).1 = some e) : w.Fails (.exportFile path) e := by
  rw [call_exportFile_fst] at h
  cases hanswer : w.writes path w.sheet.csvText with
  | error fault =>
    rw [hanswer] at h
    cases h
    exact .unwritten hanswer
  | ok =>
    rw [hanswer] at h
    cases h

theorem fails_of_call (h : (w.call c).1 = some e) : w.Fails c e := by
  cases c with
  | op op => exact fails_op h
  | exportFile path => exact fails_exportFile h
  | importFile path =>
    rw [call_importFile_fst] at h
    cases hanswer : w.reads path with
    | error fault =>
      rw [hanswer] at h
      cases h
      exact .unread hanswer
    | ok text =>
      rw [hanswer] at h
      exact .contents hanswer (fails_op h)
  | save =>
    cases hpath : w.sheet.path with
    | none =>
      rw [call_save_of_none hpath] at h
      cases h
      exact .noPath hpath
    | some path =>
      rw [call_save_of_some hpath] at h
      exact .unsaved hpath (fails_exportFile h)

/-- Whatever a file system answers: a call fails for the causes listed and no others, and a call that fails
leaves the cells, the graph, the mode, the path and the mark of changes as they were. -/
theorem unchanged_of_failure (w : World F) (c : Call) :
    (∀ e, (w.call c).1 = some e ↔ w.Fails c e) ∧ ((w.call c).1 ≠ none → (w.call c).2.sheet = w.sheet) := by
  refine ⟨fun e => ⟨fails_of_call, fun h => (call_of_fails h).1⟩, fun hfailed => ?_⟩
  obtain ⟨e, he⟩ := Option.ne_none_iff_exists'.1 hfailed
  exact (call_of_fails (fails_of_call he)).2

end World

end Sheet

end Spreadsheet
