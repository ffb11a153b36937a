import Bucketing.Proofs.Sorting
import Bucketing.Proofs.Value.Hash
import Mathlib.Data.List.Basic

/-! # Records in another physical order

Identifiers differ within a record, so that its cells have one order by identifier, whatever their
physical order. Names differ too, so that the value found by the name of a field is the one beside it.
The canonical text is therefore written from the cells alone.
-/
namespace Bucketing.Record

/-- Nothing stands in the place of a null. -/
def writtenCell (c : Field × Value) : List Char :=
  c.1.name.toList ++ separator :: (if c.2.isNull then [] else c.2.text) ++ [separator]

def cellsById (r : Record) : Record := Sorting.sort (fun c d => c.1.id < d.1.id) r

theorem map_fst_cellsById (r : Record) : (cellsById r).map Prod.fst = fieldsById r :=
  Sorting.map_sort Prod.fst (fun f g : Field => f.id < g.id) r

theorem cellsById_perm (r : Record) : (cellsById r).Perm r := Sorting.sort_perm _ r

theorem ofPairs_eq_ok_iff (cells r : Record) :
    ofPairs cells = .ok r ↔
      (fields cells).Pairwise (fun f g => f.id ≠ g.id ∧ f.name ≠ g.name) ∧
        (∀ c ∈ cells, checkCell c.1 c.2 = .ok ()) ∧ cells = r := by
  rw [ofPairs, Outcome.bind_unit_eq_ok_iff, Outcome.bind_unit_eq_ok_iff,
    ColumnType.checkFields_eq_ok_iff, checkCells_eq_ok_iff, ← Except.ok.injEq cells r]
  rfl

theorem ofPairs_perm {r s : Record} (hPerm : s.Perm r) (h : ofPairs r = .ok r) : ofPairs s = .ok s := by
  obtain ⟨hFields, hCells, -⟩ := (ofPairs_eq_ok_iff r r).mp h
  refine (ofPairs_eq_ok_iff s s).mpr ⟨?_, ?_, rfl⟩
  · apply ((hPerm.map Prod.fst).pairwise_iff _).mpr hFields
    rintro f g ⟨hId, hName⟩
    exact ⟨hId.symm, hName.symm⟩
  · intro c hc
    exact hCells c (hPerm.mem_iff.mp hc)

theorem pairwise_fields_iff (r : Record) :
    ((fields r).Pairwise fun f g => f.id ≠ g.id ∧ f.name ≠ g.name) ↔
      (r.map fun c => c.1.id).Nodup ∧ (r.map fun c => c.1.name).Nodup := by
  rw [fields, List.pairwise_map, List.pairwise_and_iff, List.Nodup, List.Nodup, List.pairwise_map,
    List.pairwise_map]

section

variable {r : Record} (h : (fields r).Pairwise fun f g => f.id ≠ g.id ∧ f.name ≠ g.name)

include h

theorem nodup_ids : (r.map fun c => c.1.id).Nodup := ((pairwise_fields_iff r).mp h).1

theorem pairwise_cellsById : (cellsById r).Pairwise fun c d => c.1.id < d.1.id :=
  Sorting.pairwise_lt_sort_key (nodup_ids h)

theorem cellsById_congr {s : Record} (hPerm : r.Perm s) : cellsById r = cellsById s :=
  Sorting.sort_key_congr (nodup_ids h) hPerm

theorem canonicalCell_of_mem {c : Field × Value} (hc : c ∈ r) : canonicalCell r c.1 = writtenCell c := by
  rw [canonicalCell, fieldText_of_find?_eq_some (find?_name_of_mem (h.imp And.right) hc), writtenCell]

theorem flatMap_canonicalCell :
    (fieldsById r).flatMap (canonicalCell r) = (cellsById r).flatMap writtenCell := by
  rw [← map_fst_cellsById, List.flatMap_map]
  apply List.flatMap_congr
  intro c hc
  exact canonicalCell_of_mem h ((cellsById_perm r).mem_iff.mp hc)

end

/-- Cells that make a record make one in every order. All of these records have one hash, that of
the cells written in the order of their identifiers, unless a field is nested: then none has. -/
theorem hash_perm {cells others r : Record} (hMake : ofPairs cells = .ok r)
    (hPerm : others.Perm cells) :
    ∃ s, ofPairs others = .ok s ∧
      ((∃ fault, hash r = .error fault) ↔ ∃ c ∈ cells, c.1.type.isNested = true) ∧
      ((∃ fault, hash s = .error fault) ↔ ∃ c ∈ cells, c.1.type.isNested = true) ∧
      ((∀ c ∈ cells, c.1.type.isNested = false) →
        ∃ sorted : Record, sorted.Perm cells ∧ sorted.Pairwise (fun c d => c.1.id < d.1.id) ∧
          canonicalText r = .ok (sorted.flatMap writtenCell) ∧
          canonicalText s = .ok (sorted.flatMap writtenCell) ∧
          hash r = .ok (hashText (sorted.flatMap writtenCell)) ∧
          hash s = .ok (hashText (sorted.flatMap writtenCell))) := by
  obtain ⟨hDiffer, -, rfl⟩ := (ofPairs_eq_ok_iff cells r).mp hMake
  have hOthers := ofPairs_perm hPerm hMake
  obtain ⟨hDifferOthers, -, -⟩ := (ofPairs_eq_ok_iff others others).mp hOthers
  refine ⟨others, hOthers, ?_, ?_, ?_⟩
  · exact exists_fault_of_hash_iff cells
  · rw [exists_fault_of_hash_iff]
    simp only [hPerm.mem_iff]
  · intro hNested
    have hFlat : Flat cells := List.forall_mem_map.mpr hNested
    have hFlatOthers : Flat others :=
      List.forall_mem_map.mpr fun c hc => hNested c (hPerm.mem_iff.mp hc)
    have hText := flatMap_canonicalCell hDiffer
    have hTextOthers := flatMap_canonicalCell hDifferOthers
    rw [← cellsById_congr hDiffer hPerm.symm] at hTextOthers
    refine ⟨cellsById cells, cellsById_perm cells, pairwise_cellsById hDiffer, ?_, ?_, ?_, ?_⟩
    · rw [canonicalText_eq_ok hFlat, hText]
    · rw [canonicalText_eq_ok hFlatOthers, hTextOthers]
    · rw [hash_eq_ok hFlat, hText]
    · rw [hash_eq_ok hFlatOthers, hTextOthers]

/-- The field that is first by its identifier is the last one. -/
def reading : Record :=
  [(⟨4, "unit", .utf8, true⟩, .null), (⟨1, "place", .utf8, false⟩, .utf8 "roof"),
    (⟨-2, "degrees", .int32, false⟩, .int32 (-7))]

theorem hash_perm_reading :
    ofPairs reading = .ok reading ∧ reading.reverse.Perm reading ∧
      ∃ s text, ofPairs reading.reverse = .ok s ∧ canonicalText reading = .ok text ∧
        canonicalText s = .ok text ∧ hash reading = .ok (hashText text) ∧ hash s = .ok (hashText text) := by
  have hMake : ofPairs reading = .ok reading := rfl
  have hPerm : reading.reverse.Perm reading := List.reverse_perm reading
  obtain ⟨s, hs, -, -, hFlat⟩ := hash_perm hMake hPerm
  obtain ⟨sorted, -, -, hText, hTextOther, hHash, hHashOther⟩ := hFlat (by decide)
  exact ⟨hMake, hPerm, s, _, hs, hText, hTextOther, hHash, hHashOther⟩

end Bucketing.Record
