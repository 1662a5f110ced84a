import Spreadsheet.Proofs.Sheet.Origin
import Spreadsheet.Sheet.File

/-!
# Sessions

A run consists of operations alone. In a session the host may also assign the mode without a recalculation,
and saving or opening a file assigns the path and the mark of changes. Cells and graph know nothing of these,
so what they keep along runs holds throughout a session: the edges of the graph are what the formulas mention
(`InSession.mirrored`), and each cell was typed in or imported (`InSession.entered`). A sheet that is opened is
one of the session too (`inSession_openFile`).
-/

namespace Spreadsheet

namespace Sheet

/-- A sheet at some moment of a session. -/
inductive InSession : Sheet → Prop
  | empty (mode : Sheet.Mode) : InSession (Sheet.empty mode)
  | apply {s} (op : Op) : InSession s → InSession (s.apply op)
  | assign {s} (mode : Sheet.Mode) (path : Option String) (modified : Bool) :
      InSession s → InSession { s with mode, path, modified }

/-- Each cell was typed in or imported. -/
def Entered (s : Sheet) : Prop := ∀ r c, s.cell? r = some c → c.Entered

variable {s : Sheet}

theorem Entered.empty (mode : Sheet.Mode) : (Sheet.empty mode).Entered := by
  intro r c hc
  simp [cell?, Sheet.empty] at hc

/-- What an operation leaves in a cell is an input, or what was there before, or a literal. -/
theorem Entered.apply (h : s.Entered) (hs : s.Mirrored) (op : Op) : (s.apply op).Entered := by
  intro r c hc
  have hafter : (s.apply op).cells.content? r = some c.content := congrArg (Option.map Cell.content) hc
  rw [hs.content?_apply] at hafter
  cases hinput : op.inputTo? r with
  | some text =>
    rw [hinput] at hafter
    exact .of_contentOf (Option.some.inj hafter).symm
  | none =>
    rw [hinput, Option.map_none, Option.none_or, Option.or_eq_some_iff] at hafter
    rcases hafter with hbefore | ⟨-, hliteral⟩
    · obtain ⟨c', hc', hsame⟩ := Option.map_eq_some_iff.1 hbefore
      exact (h r c' hc').congr hsame.symm
    · obtain ⟨text, -, htext⟩ := Option.map_eq_some_iff.1 hliteral
      exact .of_literal htext.symm

namespace InSession

theorem after (h : s.InSession) (ops : List Op) : (s.after ops).InSession := by
  induction ops generalizing s with
  | nil => exact h
  | cons op ops ih => exact ih (h.apply op)

theorem mirrored (h : s.InSession) : s.Mirrored := by
  induction h with
  | empty mode => exact .empty mode
  | apply op _ ih => exact ih.apply op
  | assign mode path modified _ ih => exact ih.assign mode path modified

theorem entered (h : s.InSession) : s.Entered := by
  induction h with
  | empty mode => exact .empty mode
  | apply op hs ih => exact ih.apply hs.mirrored op
  | assign _ _ _ _ ih => exact ih

end InSession

/-! ### Opening a file -/

theorem inSession_ofContents {path : String} {contents : Except FileFault String}
    (h : ofContents path contents = .ok s) : s.InSession := by
  cases contents with
  | error fault => cases h
  | ok text =>
    have himport : ((Sheet.empty .topological).apply (.importText text)).InSession := .apply _ (.empty _)
    unfold ofContents importContents at h
    obtain ⟨-, -, rfl⟩ := Except.map_eq_ok.1 h
    exact himport.assign _ (some path) false

section
variable {F : Type} [Files (StateM F)] {files files' : F} {mode : Sheet.Mode} {path : String}

theorem run_openFile : (openFile mode path : StateM F _).run files =
    ((ofContents path ((Files.readText path : StateM F _).run files).1).map fun s => { s with mode },
      ((Files.readText path : StateM F _).run files).2) :=
  rfl

/-- A file that is opened goes on with the session, over any file system. -/
theorem inSession_openFile (h : (openFile mode path : StateM F _).run files = (.ok s, files')) : s.InSession := by
  rw [run_openFile] at h
  obtain ⟨t, ht, rfl⟩ := Except.map_eq_ok.1 (congrArg Prod.fst h)
  have hopened : t.InSession := inSession_ofContents ht
  exact hopened.assign mode t.path t.modified

end

end Sheet

end Spreadsheet
