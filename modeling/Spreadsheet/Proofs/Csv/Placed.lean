import Mathlib.Data.List.Sigma
import Spreadsheet.Sheet.Edit

/-!
# The fields of a text and their places

`Csv.fields` lists the fields that are not empty, each under its own place (`nodup_placed`). So to look up a
place in the list is to look into the records (`find?_placed`).
-/

namespace Spreadsheet

namespace Csv
variable {rows : List (List String)} {text field : String} {r : Ref}

/-- The fields of some records that are not empty, each with its place, record by record. -/
def placed (rows : List (List String)) : List (Ref × String) :=
  rows.zipIdx.flatMap fun (record, row) =>
    (record.zipIdx.filter (·.1 ≠ "")).map fun (field, col) => (⟨row, col⟩, field)

/-- The field at a place, unless it is empty. -/
def fieldAt? (rows : List (List String)) (r : Ref) : Option String :=
  (rows[r.row]?.bind (·[r.col]?)).filter (· ≠ "")

theorem fields_of_records (h : records text = .ok rows) : fields text = .ok (placed rows) := by
  rw [fields, h]
  rfl

theorem fieldAt?_eq_some :
    fieldAt? rows r = some field ↔
      ∃ record, rows[r.row]? = some record ∧ record[r.col]? = some field ∧ field ≠ "" := by
  simp only [fieldAt?, Option.filter_eq_some_iff, Option.bind_eq_some_iff, decide_eq_true_iff]
  tauto

theorem mem_placed : (r, field) ∈ placed rows ↔ fieldAt? rows r = some field := by
  rw [fieldAt?_eq_some]
  simp only [placed, List.mem_flatMap, List.mem_map, List.mem_filter, decide_eq_true_iff]
  constructor
  · rintro ⟨⟨record, row⟩, hrow, ⟨field, col⟩, ⟨hcol, hne⟩, hplace⟩
    cases hplace
    exact ⟨record, List.mem_zipIdx_iff_getElem?.1 hrow, List.mem_zipIdx_iff_getElem?.1 hcol, hne⟩
  · rintro ⟨record, hrow, hcol, hne⟩
    exact ⟨(record, r.row), List.mem_zipIdx_iff_getElem?.2 hrow, (field, r.col),
      ⟨List.mem_zipIdx_iff_getElem?.2 hcol, hne⟩, rfl⟩

theorem placed_eq_nil_iff : placed rows = [] ↔ ∀ record ∈ rows, ∀ field ∈ record, field = "" := by
  rw [List.eq_nil_iff_forall_not_mem]
  constructor
  · intro h record hrecord field hfield
    obtain ⟨row, hrow⟩ := List.getElem?_of_mem hrecord
    obtain ⟨col, hcol⟩ := List.getElem?_of_mem hfield
    by_contra hne
    exact h (⟨row, col⟩, field) (mem_placed.2 (fieldAt?_eq_some.2 ⟨record, hrow, hcol, hne⟩))
  · rintro h ⟨r, field⟩ hmem
    obtain ⟨record, hrow, hcol, hne⟩ := fieldAt?_eq_some.1 (mem_placed.1 hmem)
    exact hne (h record (List.mem_of_getElem? hrow) field (List.mem_of_getElem? hcol))

/-- The places in a record differ by their columns, and those of two records by their rows. -/
theorem nodup_placed : ((placed rows).map Prod.fst).Nodup := by
  rw [placed, List.map_flatMap]
  simp only [List.map_map]
  refine List.nodup_flatMap.2 ⟨?_, ?_⟩
  · rintro ⟨record, row⟩ -
    have hcols : ((record.zipIdx.filter (·.1 ≠ "")).map Prod.snd).Nodup :=
      (List.nodup_zipIdx_map_snd record).sublist (List.filter_sublist.map _)
    have hplace : Function.Injective (Ref.mk row) := fun _ _ h => congrArg Ref.col h
    have hplaces := hcols.map hplace
    rwa [List.map_map] at hplaces
  · refine (List.pairwise_map.1 (List.nodup_zipIdx_map_snd rows)).imp fun {a b} hne => ?_
    refine List.disjoint_left.2 fun r ha hb => ?_
    simp only [List.mem_map, Function.comp] at ha hb
    obtain ⟨_, -, rfl⟩ := ha
    obtain ⟨_, -, hr⟩ := hb
    exact hne (congrArg Ref.row hr).symm

theorem find?_placed (rows : List (List String)) (r : Ref) :
    ((placed rows).find? (·.1 = r)).map Prod.snd = fieldAt? rows r := by
  refine Option.ext fun field => ?_
  rw [← mem_placed, Option.map_eq_some_iff]
  constructor
  · rintro ⟨⟨x, field⟩, hfind, rfl⟩
    obtain rfl : x = r := by simpa using List.find?_some hfind
    exact List.mem_of_find?_eq_some hfind
  · intro hmem
    have hsome : ((placed rows).find? (·.1 = r)).isSome :=
      List.find?_isSome.2 ⟨(r, field), hmem, decide_eq_true rfl⟩
    obtain ⟨p, hfind⟩ := Option.isSome_iff_exists.1 hsome
    have hp : p.1 = r := by simpa using List.find?_some hfind
    have heq : p = (r, field) :=
      List.inj_on_of_nodup_map nodup_placed (List.mem_of_find?_eq_some hfind) hmem hp
    exact ⟨p, hfind, congrArg Prod.snd heq⟩

end Csv

end Spreadsheet
