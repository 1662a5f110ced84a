import Spreadsheet.Proofs.Formula.Strict
import Spreadsheet.Proofs.Sheet.Settling

/-!
# Errors along dependencies

In a settled store a formula cell that reads no number holds an error (`SettledAt.error_of_feeds`), and as an
error is no number, so does each formula cell behind it. A cell on a cycle holds an error to begin with.
-/

namespace Spreadsheet
open Relation

namespace Store
variable {s : Store} {R : Ref → Ref → Prop} {a d p : Ref} {f : String}

theorem number?_eq_none_of_error (h : ∃ e, s.values d = some (.error e)) : s.values.number? d = none := by
  obtain ⟨e, he⟩ := h
  rw [Lookup.number?, he]
  rfl

theorem SettledAt.error_of_cycle (h : s.SettledAt R d) (hf : s.formula? d = some f) (hcycle : TransGen R d d) :
    ∃ e, s.values d = some (.error e) :=
  ⟨_, (h.marked f hf).2 hcycle⟩

theorem SettledAt.error_of_feeds (h : s.SettledAt R d) (had : s.Feeds a d) (ha : s.values.number? a = none) :
    ∃ e, s.values d = some (.error e) := by
  obtain ⟨f, hf, hmentioned⟩ := had
  by_cases hcycle : TransGen R d d
  · exact h.error_of_cycle hf hcycle
  · obtain ⟨e, he⟩ := Formula.value_eq_error hmentioned ha
    exact ⟨e, by rw [h.computed f hf hcycle, he]⟩

/-- A cell without a number leaves none to the formula cells behind it. -/
theorem Settled.error_of_transGen (h : s.Settled R) (hpath : TransGen s.Feeds p d)
    (hp : s.values.number? p = none) : ∃ e, s.values d = some (.error e) := by
  induction hpath with
  | single hpd => exact (h _).error_of_feeds hpd hp
  | tail _ hab ih => exact (h _).error_of_feeds hab (number?_eq_none_of_error ih)

end Store

namespace Sheet
variable {ops : List Op} {p d : Ref}

/-- In topological mode, after a quiet run, a formula cell holds an error if a chain of mentions leads to it
from a cell that does not exist, holds no number or lies on a cycle. -/
theorem error_after_quietRun {mode : Sheet.Mode} (h : (Sheet.empty mode).QuietRun ops)
    (htop : ((Sheet.empty mode).after ops).mode = .topological)
    (hpath : TransGen ((Sheet.empty mode).after ops).cells.Feeds p d)
    (hp : ((Sheet.empty mode).after ops).cells.values.number? p = none ∨
      TransGen ((Sheet.empty mode).after ops).cells.Feeds p p) :
    ∃ e, ((Sheet.empty mode).after ops).cells.values d = some (.error e) := by
  have hup := (Upheld.empty mode).after h
  have hsettled := hup.settled htop
  refine hsettled.error_of_transGen hpath (hp.elim id fun hcycle => ?_)
  obtain ⟨f, hf⟩ := Store.exists_formula?_of_cycle hcycle
  rw [← hup.mirrored.edge_eq] at hcycle
  exact Store.number?_eq_none_of_error ((hsettled p).error_of_cycle hf hcycle)

/-- A multiplication by zero, and a sum with it, of a text. -/
theorem error_after_quietRun_times_zero :
    let ops := [.set ⟨0, 0⟩ "abc", .set ⟨0, 1⟩ "=A1*0", .set ⟨0, 2⟩ "=B1+1"]
    ∃ e, ((Sheet.empty .topological).after ops).cells.values ⟨0, 2⟩ = some (.error e) := by
  intro ops
  have hA : ((Sheet.empty .topological).after ops).cells.Feeds ⟨0, 0⟩ ⟨0, 1⟩ :=
    ⟨"=A1*0", by decide +kernel, by decide +kernel⟩
  have hB : ((Sheet.empty .topological).after ops).cells.Feeds ⟨0, 1⟩ ⟨0, 2⟩ :=
    ⟨"=B1+1", by decide +kernel, by decide +kernel⟩
  exact error_after_quietRun ⟨nofun, nofun, nofun, trivial⟩ (by decide +kernel) (.tail (.single hA) hB)
    (.inl (by decide +kernel))

end Sheet

end Spreadsheet
