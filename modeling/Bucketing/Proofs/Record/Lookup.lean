import Bucketing.Proofs.Record.PhysicalOrder

/-! # Records and what is found in them

Cells make a record exactly if no two of them share an identifier or a name, none that is required is
null and every value fits the type of its field. In such a record a name finds the one value that it
was paired with, and nothing for a null.
-/
namespace Bucketing.Record

theorem checkCell_eq_ok_iff_ne_null (f : Field) (v : Value) :
    checkCell f v = .ok () ↔ (f.nullable = false → v ≠ .null) ∧ v.fits f.type = true := by
  rw [checkCell_eq_ok_iff, ← Value.isNull_eq_false_iff]
  cases v.isNull <;> cases f.nullable <;> simp

theorem exists_ofPairs_iff (cells : Record) :
    (∃ r, ofPairs cells = .ok r) ↔
      (cells.map fun c => c.1.id).Nodup ∧ (cells.map fun c => c.1.name).Nodup ∧
        (∀ c ∈ cells, c.1.nullable = false → c.2 ≠ .null) ∧
        ∀ c ∈ cells, c.2.fits c.1.type = true := by
  simp only [ofPairs_eq_ok_iff, pairwise_fields_iff, checkCell_eq_ok_iff_ne_null]
  constructor
  · rintro ⟨r, ⟨hIds, hNames⟩, hCells, -⟩
    exact ⟨hIds, hNames, fun c hc => (hCells c hc).1, fun c hc => (hCells c hc).2⟩
  · rintro ⟨hIds, hNames, hRequired, hFits⟩
    exact ⟨cells, ⟨hIds, hNames⟩, fun c hc => ⟨hRequired c hc, hFits c hc⟩, rfl⟩

/-- Cells give as many values as fields, so that they may be taken apart first. -/
theorem make_fields_values (cells : Record) : make (fields cells) (values cells) = ofPairs cells := by
  have hLength : (fields cells).length = (values cells).length := by
    rw [fields, values, List.length_map, List.length_map]
  have hZip : (fields cells).zip (values cells) = cells := by
    rw [fields, values, List.zip_map', List.map_id']
  rw [make, if_pos hLength, hZip]
  rfl

/-! ## What a name finds -/

theorem get?_eq_filter (r : Record) (name : String) :
    get? r name = ((r.find? (·.1.name == name)).map Prod.snd).filter (!·.isNull) := by
  cases hFind : r.find? (·.1.name == name) with
  | none =>
    rw [get?_of_find?_eq_none hFind]
    rfl
  | some c =>
    rw [get?_of_find?_eq_some hFind, Option.map_some, Option.filter_some]
    cases c.2.isNull <;> rfl

theorem get?_eq_getElem? (r : Record) (name : String) :
    get? r name =
      (((fields r).findIdx? (·.name == name)).bind ((values r)[·]?)).filter (!·.isNull) := by
  have hPlace : (fields r).findIdx? (·.name == name) = r.findIdx? (·.1.name == name) :=
    List.findIdx?_map
  rw [get?_eq_filter, List.find?_eq_bind_findIdx?_getElem?, hPlace, Option.map_bind]
  simp only [values, List.getElem?_map, Function.comp_def]

section

variable {r : Record} (hNames : (fields r).Pairwise fun f g => f.name ≠ g.name) (name : String)

include hNames

theorem find?_name_eq_some_iff (c : Field × Value) :
    r.find? (·.1.name == name) = some c ↔ c ∈ r ∧ c.1.name = name := by
  constructor
  · intro hFind
    have hEq := List.find?_some hFind
    exact ⟨List.mem_of_find?_eq_some hFind, beq_iff_eq.mp hEq⟩
  · rintro ⟨hc, rfl⟩
    exact find?_name_of_mem hNames hc

theorem get?_eq_some_iff (v : Value) :
    get? r name = some v ↔ v ≠ .null ∧ ∃ c ∈ r, c.1.name = name ∧ c.2 = v := by
  rw [get?_eq_filter, Option.filter_eq_some_iff, Option.map_eq_some_iff, Bool.not_eq_true',
    Value.isNull_eq_false_iff, and_comm]
  simp only [find?_name_eq_some_iff hNames, and_assoc]

theorem get?_eq_none_iff :
    get? r name = none ↔
      (∀ c ∈ r, c.1.name ≠ name) ∨ ∃ c ∈ r, c.1.name = name ∧ c.2 = .null := by
  cases hFind : r.find? (·.1.name == name) with
  | none =>
    rw [get?_of_find?_eq_none hFind]
    refine iff_of_true rfl (.inl ?_)
    intro c hc hName
    exact absurd (beq_iff_eq.mpr hName) (List.find?_eq_none.mp hFind c hc)
  | some c =>
    obtain ⟨hc, hName⟩ := (find?_name_eq_some_iff hNames name c).mp hFind
    rw [get?_of_find?_eq_some hFind]
    cases hNull : c.2.isNull with
    | true => exact iff_of_true rfl (.inr ⟨c, hc, hName, Value.eq_null_of_isNull hNull⟩)
    | false =>
      refine iff_of_false nofun ?_
      rintro (hNone | ⟨d, hd, hOther, hOtherNull⟩)
      · exact hNone c hc hName
      · have hSame := (find?_name_eq_some_iff hNames name d).mpr ⟨hd, hOther⟩
        obtain rfl := Option.some.inj (hFind.symm.trans hSame)
        rw [hOtherNull] at hNull
        cases hNull

end

/-- A record is made exactly of cells with distinct identifiers and distinct names whose values are
theirs to hold, and taken apart they make the same one. It keeps the cells in their order. A name finds
its value there, and nothing exactly if no field has it or the value is null; the value is the one at the
place of the field. -/
theorem ofPairs_exact (cells : Record) :
    ((∃ r, ofPairs cells = .ok r) ↔
      (cells.map fun c => c.1.id).Nodup ∧ (cells.map fun c => c.1.name).Nodup ∧
        (∀ c ∈ cells, c.1.nullable = false → c.2 ≠ .null) ∧
        ∀ c ∈ cells, c.2.fits c.1.type = true) ∧
    make (fields cells) (values cells) = ofPairs cells ∧
    ∀ r, ofPairs cells = .ok r →
      fields r = cells.map Prod.fst ∧ values r = cells.map Prod.snd ∧
      ∀ name,
        (∀ v, get? r name = some v ↔ v ≠ .null ∧ ∃ c ∈ cells, c.1.name = name ∧ c.2 = v) ∧
        (get? r name = none ↔
          (∀ c ∈ cells, c.1.name ≠ name) ∨ ∃ c ∈ cells, c.1.name = name ∧ c.2 = .null) ∧
        get? r name =
          (((fields r).findIdx? (·.name == name)).bind ((values r)[·]?)).filter (!·.isNull) := by
  refine ⟨exists_ofPairs_iff cells, make_fields_values cells, ?_⟩
  intro r hMake
  obtain ⟨hDiffer, -, rfl⟩ := (ofPairs_eq_ok_iff cells r).mp hMake
  have hNames := hDiffer.imp And.right
  refine ⟨rfl, rfl, ?_⟩
  intro name
  exact ⟨get?_eq_some_iff hNames name, get?_eq_none_iff hNames name, get?_eq_getElem? cells name⟩

/-- A guest who has not said when to come. -/
def reservation : Record :=
  [(⟨3, "guest", .utf8, false⟩, .utf8 "Ada"), (⟨-1, "arrival", .int64, true⟩, .null),
    (⟨0, "rate", .decimal 9 2, true⟩, .decimal ⟨5, 2, ⟨12050⟩⟩)]

theorem ofPairs_exact_reservation :
    ofPairs reservation = .ok reservation ∧ get? reservation "guest" = some (.utf8 "Ada") ∧
      get? reservation "arrival" = none ∧ get? reservation "departure" = none := by
  have hMake : ofPairs reservation = .ok reservation := rfl
  obtain ⟨-, -, hFound⟩ := (ofPairs_exact reservation).2.2 reservation hMake
  refine ⟨hMake, ?_, ?_, ?_⟩
  · exact ((hFound "guest").1 _).mpr ⟨nofun, _, .head _, rfl, rfl⟩
  · exact (hFound "arrival").2.1.mpr (.inr ⟨_, .tail _ (.head _), rfl, rfl⟩)
  · exact (hFound "departure").2.1.mpr (.inl (by decide))

end Bucketing.Record
