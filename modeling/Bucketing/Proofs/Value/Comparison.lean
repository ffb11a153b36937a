import Bucketing.Proofs.Floating.Equality
import Bucketing.Proofs.Record.Making
import Bucketing.Proofs.Decimal.Text
import Bucketing.Proofs.Floating.Reading
import Bucketing.Proofs.Uuid
import Bucketing.Value.Comparison

/-! # Comparable values

Values compare if they are of one kind, and values of one column type always do. Cells of a column
that is not nested are equal exactly when both or neither are null and their texts agree.
-/
namespace Bucketing

theorem Int128.compare_eq_eq_iff (m n : Int128) : compare m n = .eq ↔ m = n := by
  change compare m.toInt n.toInt = .eq ↔ m = n
  rw [Std.LawfulEqOrd.compare_eq_iff_eq]
  constructor
  · exact eq_of_toInt_eq
  · rintro rfl
    rfl

theorem Uuid.compare_eq_eq_iff (u v : Uuid) : compare u v = .eq ↔ u = v := by
  change compare u.bytes v.bytes = .eq ↔ u = v
  rw [Std.LawfulEqOrd.compare_eq_iff_eq]
  constructor
  · intro h
    obtain ⟨bytes, hLength⟩ := u
    obtain ⟨others, hLength'⟩ := v
    cases h
    rfl
  · rintro rfl
    rfl

namespace Value

/-- Neither value is null. -/
inductive SameKind : Value → Value → Prop where
  | boolean (a b : Bool) : SameKind (.boolean a) (.boolean b)
  | int32 (a b : Int32) : SameKind (.int32 a) (.int32 b)
  | int64 (a b : Int64) : SameKind (.int64 a) (.int64 b)
  | float32 (x y : Floating .single) : SameKind (.float32 x) (.float32 y)
  | float64 (x y : Floating .double) : SameKind (.float64 x) (.float64 y)
  | decimal (d e : Decimal) : SameKind (.decimal d) (.decimal e)
  | utf8 (s t : String) : SameKind (.utf8 s) (.utf8 t)
  | binary (a b : List UInt8) : SameKind (.binary a) (.binary b)
  | uuid (u v : Uuid) : SameKind (.uuid u) (.uuid v)
  | record (a b : Record) : SameKind (.record a) (.record b)

theorem sameKind_of_kind?_eq {v w : Value} (hNull : v.isNull = false) (h : v.kind? = w.kind?) :
    SameKind v w := by
  cases v with
  | null => cases hNull
  | _ => cases w <;> first | constructor | cases h

theorem kind?_of_fits {v : Value} {t : ColumnType} (hNull : v.isNull = false) (h : v.fits t = true) :
    v.kind? = some t.kind := by
  fun_cases fits v t
  · cases hNull
  · rfl
  · rfl
  · rw [fits] at h
    · exact beq_iff_eq.mp h
    all_goals assumption

theorem sameKind_of_fits {v w : Value} {t : ColumnType} (hv : v.fits t = true) (hw : w.fits t = true)
    (hvNull : v.isNull = false) (hwNull : w.isNull = false) : SameKind v w :=
  sameKind_of_kind?_eq hvNull ((kind?_of_fits hvNull hv).trans (kind?_of_fits hwNull hw).symm)

theorem sameKind_of_tryCompare {v w : Value} {o : Option Ordering} (h : v.tryCompare w = .ok o) :
    SameKind v w := by
  fun_cases tryCompare v w
  case case12 =>
    rw [tryCompare] at h
    · cases h
    all_goals assumption
  all_goals constructor

theorem eq_none_iff_of_tryCompare {v w : Value} {o : Option Ordering}
    (h : v.tryCompare w = .ok o) : o = none ↔ v.isNaN = true ∨ w.isNaN = true := by
  cases sameKind_of_tryCompare h with
  | float32 x y =>
    rw [tryCompare, Except.ok.injEq] at h
    rw [← h]
    exact x.compare?_eq_none_iff y
  | float64 x y =>
    rw [tryCompare, Except.ok.injEq] at h
    rw [← h]
    exact x.compare?_eq_none_iff y
  | decimal d e =>
    rw [tryCompare] at h
    obtain ⟨o, -, rfl⟩ := Outcome.map_eq_ok_iff.mp h
    simp [isNaN]
  | record a b =>
    rw [tryCompare] at h
    split at h
    · obtain ⟨o, -, rfl⟩ := Outcome.map_eq_ok_iff.mp h
      simp [isNaN]
    · cases h
  | _ =>
    rw [tryCompare, Except.ok.injEq] at h
    simp [← h, isNaN]

theorem eq_decimal_of_fits {d : Decimal} {t : ColumnType} (h : (Value.decimal d).fits t = true) :
    ∃ precision, t = .decimal precision d.scale := by
  cases t with
  | decimal precision scale =>
    rw [fits, Bool.and_eq_true, beq_iff_eq] at h
    exact ⟨precision, by rw [h.1]⟩
  | _ => cases h

theorem eq_record_of_fits {r : Record} {t : ColumnType} (h : (Value.record r).fits t = true) :
    t = Record.type r := by
  cases t with
  | record fields =>
    rw [fits, decide_eq_true_eq] at h
    rw [Record.type, h]
  | _ => cases h

theorem scale_eq_of_fits {d e : Decimal} {t : ColumnType} (hd : (Value.decimal d).fits t = true)
    (he : (Value.decimal e).fits t = true) : d.scale = e.scale := by
  obtain ⟨p, hp⟩ := eq_decimal_of_fits hd
  obtain ⟨q, hq⟩ := eq_decimal_of_fits he
  exact (ColumnType.decimal.inj (hp.symm.trans hq)).2

theorem fields_eq_of_fits {a b : Record} {t : ColumnType} (ha : (Value.record a).fits t = true)
    (hb : (Value.record b).fits t = true) : Record.fields a = Record.fields b :=
  ColumnType.record.inj ((eq_record_of_fits ha).symm.trans (eq_record_of_fits hb))

theorem tryCompare_decimal {d e : Decimal} (h : d.scale = e.scale) :
    (Value.decimal d).tryCompare (.decimal e) = .ok (some (compare d.unscaled e.unscaled)) := by
  rw [tryCompare, Decimal.tryCompare, if_pos h]
  rfl

theorem tryCompare_record {a b : Record} (h : Record.fields a = Record.fields b) :
    (Value.record a).tryCompare (.record b) = some <$> compareCells a b := by
  rw [tryCompare, if_pos h]

theorem fields_eq_of_tryCompare {a b : Record} {o : Option Ordering}
    (h : (Value.record a).tryCompare (.record b) = .ok o) : Record.fields a = Record.fields b := by
  by_contra hNe
  rw [tryCompare, if_neg hNe] at h
  cases h

/-- Cells past the end of the shorter record are not looked at. -/
theorem compareCells_eq_ok_eq_iff (a b : Record) :
    compareCells a b = .ok .eq ↔
      ∀ c d, (c, d) ∈ a.zip b → cellOrder c.2 d.2 (c.2.tryCompare d.2) = .ok .eq := by
  induction a generalizing b with
  | nil => simp [compareCells]
  | cons c a ih =>
    cases b with
    | nil => simp [compareCells]
    | cons d b =>
      have hZip : (∀ c' d', (c', d') ∈ (c :: a).zip (d :: b) →
          cellOrder c'.2 d'.2 (c'.2.tryCompare d'.2) = .ok .eq) ↔
          cellOrder c.2 d.2 (c.2.tryCompare d.2) = .ok .eq ∧ compareCells a b = .ok .eq := by
        rw [ih]
        constructor
        · intro h
          exact ⟨h c d List.mem_cons_self, fun c' d' hMem => h c' d' (List.mem_cons_of_mem _ hMem)⟩
        · rintro ⟨hHead, hTail⟩ c' d' hMem
          rcases List.mem_cons.mp hMem with hEq | hMem
          · cases hEq
            exact hHead
          · exact hTail c' d' hMem
      rw [hZip, compareCells]
      split
      · next hHead => simp [hHead]
      · next hHead =>
        exact ⟨fun h => absurd h hHead, fun h => absurd h.1 hHead⟩

theorem cellOrder_null_left {w : Value} (h : w.isNull = false) (byValue : Except Fault (Option Ordering)) :
    cellOrder .null w byValue = .ok .lt := by
  cases w <;> first | rfl | cases h

theorem cellOrder_null_right {v : Value} (h : v.isNull = false) (byValue : Except Fault (Option Ordering)) :
    cellOrder v .null byValue = .ok .gt := by
  cases v <;> first | rfl | cases h

theorem eq_null_of_isNull {v : Value} (h : v.isNull = true) : v = .null := by
  cases v <;> first | rfl | cases h

theorem isNull_eq_false_iff (v : Value) : v.isNull = false ↔ v ≠ .null := by
  cases v <;> simp [isNull]

theorem exists_cellOrder (v w : Value) {byValue : Except Fault (Option Ordering)}
    (h : v.isNull = false → w.isNull = false → ∃ o, byValue = .ok o) :
    ∃ o, cellOrder v w byValue = .ok o := by
  fun_cases cellOrder v w byValue
  case case6 hv hw _ _ _ =>
    obtain ⟨o, rfl⟩ := h ((isNull_eq_false_iff v).mpr hv) ((isNull_eq_false_iff w).mpr hw)
    exact ⟨_, rfl⟩
  all_goals exact ⟨_, rfl⟩

theorem exists_compareCells {a b : Record}
    (h : ∀ c d, (c, d) ∈ a.zip b → ∃ o, cellOrder c.2 d.2 (c.2.tryCompare d.2) = .ok o) :
    ∃ o, compareCells a b = .ok o := by
  induction a generalizing b with
  | nil => exact ⟨.eq, by simp [compareCells]⟩
  | cons c a ih =>
    cases b with
    | nil => exact ⟨.eq, by simp [compareCells]⟩
    | cons d b =>
      rw [compareCells]
      split
      · exact ih fun c' d' hMem => h c' d' (List.mem_cons_of_mem _ hMem)
      · exact h c d List.mem_cons_self

/-- Values that one column can hold are comparable, however deep their records are. -/
theorem exists_tryCompare {v w : Value} {t : ColumnType} (hvMade : v.wellMade = true)
    (hwMade : w.wellMade = true) (hv : v.fits t = true) (hw : w.fits t = true)
    (hvNull : v.isNull = false) (hwNull : w.isNull = false) : ∃ o, v.tryCompare w = .ok o := by
  match v, w, sameKind_of_fits hv hw hvNull hwNull with
  | _, _, .boolean _ _ | _, _, .int32 _ _ | _, _, .int64 _ _ | _, _, .float32 _ _
  | _, _, .float64 _ _ | _, _, .utf8 _ _ | _, _, .binary _ _ | _, _, .uuid _ _ =>
    rw [tryCompare]
    exact ⟨_, rfl⟩
  | _, _, .decimal d e => exact ⟨_, tryCompare_decimal (scale_eq_of_fits hv hw)⟩
  | _, _, .record a b =>
    have hFields := fields_eq_of_fits hv hw
    have hCells : ∃ o, compareCells a b = .ok o := by
      refine exists_compareCells fun c d hMem => exists_cellOrder _ _ fun hc hd => ?_
      have hMemA : c ∈ a := (List.of_mem_zip hMem).1
      have hMemB : d ∈ b := (List.of_mem_zip hMem).2
      have hSize : sizeOf c.2 < sizeOf (Value.record a) := by
        have hCell := List.sizeOf_lt_of_mem hMemA
        have hPair : sizeOf c = 1 + sizeOf c.1 + sizeOf c.2 := rfl
        rw [record.sizeOf_spec]
        omega
      have hField := Record.field_eq_of_mem_zip hFields hMem
      refine exists_tryCompare (t := c.1.type) (wellMade_of_mem hvMade hMemA)
        (wellMade_of_mem hwMade hMemB) (fits_of_mem hvMade hMemA) ?_ hc hd
      rw [hField]
      exact fits_of_mem hwMade hMemB
    obtain ⟨o, ho⟩ := hCells
    exact ⟨some o, by rw [tryCompare_record hFields, ho]; rfl⟩
termination_by sizeOf v
decreasing_by exact hSize

theorem cellOrder_self {v : Value} {byValue : Except Fault (Option Ordering)}
    (h : v.isNull = false → v.isNaN = false → byValue = .ok (some .eq)) :
    cellOrder v v byValue = .ok .eq := by
  cases v with
  | null => rfl
  | float32 x | float64 x =>
    rw [cellOrder, Except.ok.injEq]
    exact (Floating.compareTotal_eq_eq_iff _ _).mpr rfl
  | _ =>
    rw [h rfl rfl]
    rfl

mutual
/-- In a record even a NaN equals itself. -/
theorem tryCompare_self : (v : Value) → v.isNull = false → v.isNaN = false →
    v.tryCompare v = .ok (some .eq)
  | .null, hNull, _ => by cases hNull
  | .boolean _, _, _ | .int32 _, _, _ | .int64 _, _, _ | .utf8 _, _, _ | .binary _, _, _ => by
    rw [tryCompare, Std.ReflOrd.compare_self]
  | .float32 x, _, hNaN => by
    rw [tryCompare, (x.compare?_eq_some_eq_iff x).mpr ⟨hNaN, hNaN, rfl, .inl rfl⟩]
  | .float64 x, _, hNaN => by
    rw [tryCompare, (x.compare?_eq_some_eq_iff x).mpr ⟨hNaN, hNaN, rfl, .inl rfl⟩]
  | .decimal d, _, _ => by
    rw [tryCompare_decimal rfl, (Int128.compare_eq_eq_iff _ _).mpr rfl]
  | .uuid u, _, _ => by rw [tryCompare, (Uuid.compare_eq_eq_iff u u).mpr rfl]
  | .record r, _, _ => by
    rw [tryCompare_record rfl, compareCells_self r]
    rfl

theorem compareCells_self : (r : Record) → compareCells r r = .ok .eq
  | [] => by simp [compareCells]
  | (f, v) :: cells => by
    rw [compareCells, cellOrder_self (tryCompare_self v)]
    exact compareCells_self cells
end

/-- Values of a column that is not nested are ordered as equal, as cells are, exactly when they are
written alike. -/
theorem cellOrder_eq_ok_eq_iff_of_sameKind {v w : Value} {t : ColumnType} (hNested : t.isNested = false)
    (hv : v.fits t = true) (hw : w.fits t = true) (hSame : SameKind v w) :
    cellOrder v w (v.tryCompare w) = .ok .eq ↔ v.text = w.text := by
  cases hSame with
  | boolean a b => cases a <;> cases b <;> simp [tryCompare, cellOrder, text]
  | int32 a b => simp [tryCompare, cellOrder, text, Numeral.write_inj, Int32.toInt_inj]
  | int64 a b => simp [tryCompare, cellOrder, text, Numeral.write_inj, Int64.toInt_inj]
  | float32 x y =>
    rw [text, text, Floating.text_eq_iff Format.wide_single (by decide),
      ← Floating.compareTotal_eq_eq_iff]
    simp [cellOrder]
  | float64 x y =>
    rw [text, text, Floating.text_eq_iff Format.wide_double (by decide),
      ← Floating.compareTotal_eq_eq_iff]
    simp [cellOrder]
  | decimal d e =>
    rw [tryCompare_decimal (scale_eq_of_fits hv hw), text, text,
      Decimal.text_eq_iff, and_iff_left (scale_eq_of_fits hv hw), ← Int128.compare_eq_eq_iff]
    simp [cellOrder]
  | utf8 s t => simp [tryCompare, cellOrder, text, String.toList_inj]
  | binary a b =>
    rw [text, text, Hex.encode_inj]
    simp [tryCompare, cellOrder]
  | uuid u v =>
    rw [text, text, Uuid.text_eq_iff, ← Uuid.compare_eq_eq_iff]
    simp [tryCompare, cellOrder]
  | record a b =>
    rw [eq_record_of_fits hv] at hNested
    cases hNested

theorem cellOrder_eq_ok_eq_iff {v w : Value} {t : ColumnType} (hNested : t.isNested = false)
    (hv : v.fits t = true) (hw : w.fits t = true) :
    cellOrder v w (v.tryCompare w) = .ok .eq ↔ v.isNull = w.isNull ∧ v.text = w.text := by
  cases hvNull : v.isNull with
  | true =>
    obtain rfl := eq_null_of_isNull hvNull
    cases hwNull : w.isNull with
    | true =>
      obtain rfl := eq_null_of_isNull hwNull
      simp [cellOrder]
    | false => simp [cellOrder_null_left hwNull]
  | false =>
    cases hwNull : w.isNull with
    | true =>
      obtain rfl := eq_null_of_isNull hwNull
      simp [cellOrder_null_right hvNull]
    | false =>
      rw [cellOrder_eq_ok_eq_iff_of_sameKind hNested hv hw (sameKind_of_fits hv hw hvNull hwNull)]
      simp

end Value

end Bucketing
