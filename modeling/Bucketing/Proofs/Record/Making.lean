import Bucketing.Proofs.Outcome
import Bucketing.Making

/-! # Records made by checks

The checks let exactly those cells pass whose fields differ in identifier and name and whose values
belong to their fields. In such a record every field is found by its name.
-/
namespace Bucketing

namespace ColumnType

theorem checkFieldsAfter_eq_ok_iff (seen fields : List Field) :
    checkFieldsAfter seen fields = .ok () ↔
      (∀ f ∈ fields, ∀ g ∈ seen, g.id ≠ f.id ∧ g.name ≠ f.name) ∧
        fields.Pairwise (fun f g => f.id ≠ g.id ∧ f.name ≠ g.name) := by
  induction fields generalizing seen with
  | nil => simp [checkFieldsAfter]
  | cons f fields ih =>
    rw [checkFieldsAfter, List.pairwise_cons, List.forall_mem_cons]
    split
    · next hId =>
      obtain ⟨g, hg, hEq⟩ := List.any_eq_true.mp hId
      exact ⟨nofun, fun h => absurd (beq_iff_eq.mp hEq) (h.1.1 g hg).1⟩
    · next hId =>
      split
      · next hName =>
        obtain ⟨g, hg, hEq⟩ := List.any_eq_true.mp hName
        exact ⟨nofun, fun h => absurd (beq_iff_eq.mp hEq) (h.1.1 g hg).2⟩
      · next hName =>
        have hHead : ∀ g ∈ seen, g.id ≠ f.id ∧ g.name ≠ f.name := by
          intro g hg
          constructor
          · intro hEq
            exact hId (List.any_eq_true.mpr ⟨g, hg, beq_iff_eq.mpr hEq⟩)
          · intro hEq
            exact hName (List.any_eq_true.mpr ⟨g, hg, beq_iff_eq.mpr hEq⟩)
        rw [ih]
        constructor
        · rintro ⟨hSeen, hTail⟩
          refine ⟨⟨hHead, ?_⟩, ?_, hTail⟩
          · intro g hg k hk
            exact hSeen g hg k (List.mem_cons_of_mem _ hk)
          · intro g hg
            exact hSeen g hg f List.mem_cons_self
        · rintro ⟨⟨_, hSeen⟩, hFirst, hTail⟩
          refine ⟨?_, hTail⟩
          intro g hg k hk
          rcases List.mem_cons.mp hk with rfl | hk
          · exact hFirst g hg
          · exact hSeen g hg k hk

theorem checkFields_eq_ok_iff (fields : List Field) :
    checkFields fields = .ok () ↔
      fields.Pairwise (fun f g => f.id ≠ g.id ∧ f.name ≠ g.name) := by
  rw [checkFields, checkFieldsAfter_eq_ok_iff]
  simp

end ColumnType

namespace Record

theorem checkCell_eq_ok_iff (f : Field) (v : Value) :
    checkCell f v = .ok () ↔ (v.isNull = true → f.nullable = true) ∧ v.fits f.type = true := by
  rw [checkCell]
  cases v.isNull <;> cases f.nullable <;> cases v.fits f.type <;> simp

theorem checkCells_eq_ok_iff (r : Record) :
    checkCells r = .ok () ↔ ∀ c ∈ r, checkCell c.1 c.2 = .ok () := by
  induction r with
  | nil => simp [checkCells]
  | cons c r ih =>
    rw [checkCells, Outcome.bind_unit_eq_ok_iff, List.forall_mem_cons, ih]

theorem isOk_ofPairs_iff (r : Record) :
    (ofPairs r).isOk = true ↔
      (fields r).Pairwise (fun f g => f.id ≠ g.id ∧ f.name ≠ g.name) ∧
        ∀ c ∈ r, (c.2.isNull = true → c.1.nullable = true) ∧ c.2.fits c.1.type = true := by
  simp only [← checkCell_eq_ok_iff]
  rw [← checkCells_eq_ok_iff, ← ColumnType.checkFields_eq_ok_iff, ofPairs, fields]
  cases ColumnType.checkFields (r.map Prod.fst) with
  | error e => exact ⟨nofun, fun h => nomatch h.1⟩
  | ok =>
    cases checkCells r with
    | error e => exact ⟨nofun, fun h => nomatch h.2⟩
    | ok => exact ⟨fun _ => ⟨rfl, rfl⟩, fun _ => rfl⟩

theorem isOk_ofPairs_zip_of_make {fields : List Field} {values : List Value} {r : Record}
    (h : make fields values = .ok r) : r = fields.zip values ∧ (ofPairs r).isOk = true := by
  rw [make, Outcome.bind_eq_ok_iff] at h
  obtain ⟨⟨⟩, hFields, h⟩ := h
  split at h
  · next hLength =>
    obtain ⟨⟨⟩, hCells, h⟩ := Outcome.bind_eq_ok_iff.mp h
    cases h
    refine ⟨rfl, ?_⟩
    rw [ofPairs, List.map_fst_zip (Nat.le_of_eq hLength), hFields]
    change (checkCells (fields.zip values) >>= fun _ => pure (fields.zip values)).isOk = true
    rw [hCells]
    rfl
  · cases h

end Record

namespace Value

mutual
/-- Every record in the value, however deep it stands, has passed the checks. -/
def wellMade : Value → Bool
  | .record cells => (Record.ofPairs cells).isOk && wellMadeCells cells
  | _ => true

def wellMadeCells : Record → Bool
  | [] => true
  | (_, v) :: cells => v.wellMade && wellMadeCells cells
end

theorem wellMadeCells_iff (r : Record) : wellMadeCells r = true ↔ ∀ c ∈ r, c.2.wellMade = true := by
  induction r with
  | nil => simp [wellMadeCells]
  | cons c r ih => rw [wellMadeCells, Bool.and_eq_true, List.forall_mem_cons, ih]

theorem wellMade_record_iff (r : Record) :
    (Value.record r).wellMade = true ↔
      (Record.ofPairs r).isOk = true ∧ ∀ c ∈ r, c.2.wellMade = true := by
  rw [wellMade, Bool.and_eq_true, wellMadeCells_iff]

theorem wellMade_of_make {fields : List Field} {values : List Value} {r : Record}
    (h : Record.make fields values = .ok r) (hValues : ∀ v ∈ values, v.wellMade = true) :
    (Value.record r).wellMade = true := by
  obtain ⟨rfl, hOk⟩ := Record.isOk_ofPairs_zip_of_make h
  rw [wellMade_record_iff]
  refine ⟨hOk, ?_⟩
  intro c hc
  exact hValues c.2 (List.of_mem_zip hc).2

theorem wellMade_of_mem {r : Record} (h : (Value.record r).wellMade = true) {c : Field × Value}
    (hc : c ∈ r) : c.2.wellMade = true :=
  ((wellMade_record_iff r).mp h).2 c hc

theorem fits_of_mem {r : Record} (h : (Value.record r).wellMade = true) {c : Field × Value}
    (hc : c ∈ r) : c.2.fits c.1.type = true :=
  (((Record.isOk_ofPairs_iff r).mp ((wellMade_record_iff r).mp h).1).2 c hc).2

theorem pairwise_name_ne {r : Record} (h : (Value.record r).wellMade = true) :
    (Record.fields r).Pairwise (fun f g => f.name ≠ g.name) :=
  ((Record.isOk_ofPairs_iff r).mp ((wellMade_record_iff r).mp h).1).1.imp And.right

end Value

namespace Record

/-- Two records with one list of fields have their cells of a name at one place. -/
theorem find?_name_cases {a b : Record} (hFields : fields a = fields b) (name : String) :
    (a.find? (·.1.name == name) = none ∧ b.find? (·.1.name == name) = none) ∨
      ∃ c d, (c, d) ∈ a.zip b ∧ a.find? (·.1.name == name) = some c ∧
        b.find? (·.1.name == name) = some d := by
  induction a generalizing b with
  | nil =>
    cases b with
    | nil => exact .inl ⟨rfl, rfl⟩
    | cons d b => cases hFields
  | cons c a ih =>
    cases b with
    | nil => cases hFields
    | cons d b =>
      obtain ⟨hHead, hTail⟩ := List.cons.inj hFields
      rw [List.find?_cons, List.find?_cons, ← hHead]
      split
      · exact .inr ⟨c, d, List.mem_cons_self, rfl, rfl⟩
      · rcases ih hTail with hNone | ⟨c', d', hMem, hc, hd⟩
        · exact .inl hNone
        · exact .inr ⟨c', d', List.mem_cons_of_mem _ hMem, hc, hd⟩

theorem field_eq_of_mem_zip {a b : Record} (hFields : fields a = fields b) {c d : Field × Value}
    (h : (c, d) ∈ a.zip b) : c.1 = d.1 := by
  induction a generalizing b with
  | nil => cases h
  | cons c' a ih =>
    cases b with
    | nil => cases h
    | cons d' b =>
      obtain ⟨hHead, hTail⟩ := List.cons.inj hFields
      rcases List.mem_cons.mp h with hEq | h
      · cases hEq
        exact hHead
      · exact ih hTail h

/-- Where the names differ, a cell is the one found by its name. -/
theorem find?_name_of_mem {r : Record} (hNames : (fields r).Pairwise (fun f g => f.name ≠ g.name))
    {c : Field × Value} (hc : c ∈ r) : r.find? (·.1.name == c.1.name) = some c := by
  induction r with
  | nil => cases hc
  | cons d r ih =>
    obtain ⟨hHead, hTail⟩ := List.pairwise_cons.mp hNames
    rcases List.mem_cons.mp hc with rfl | hc
    · exact List.find?_cons_of_pos (beq_self_eq_true _)
    · rw [List.find?_cons]
      split
      · next hEq => exact absurd (beq_iff_eq.mp hEq) (hHead c.1 (List.mem_map_of_mem hc))
      · exact ih hTail hc

end Record

end Bucketing
