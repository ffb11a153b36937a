import Bucketing.Proofs.Decimal.Order
import Bucketing.Proofs.Value.Comparison

/-! # Values in order

A comparison the other way round gives the reverse, whatever is compared. Along three values that
ascend, the first step that is strict decides how the outer two compare, and so the first cells
that differ decide between records. Records of one type are therefore in a total order, however deep
their fields are.
-/
namespace Bucketing

theorem compare_eq_then {α : Type} {cmp : α → α → Ordering} [Std.TransCmp cmp] {a b c : α}
    (hab : (cmp a b).isLE) (hbc : (cmp b c).isLE) : cmp a c = (cmp a b).then (cmp b c) := by
  cases h : cmp a b with
  | lt => exact Std.TransCmp.lt_of_lt_of_isLE h hbc
  | eq => exact Std.TransCmp.congr_left h
  | gt =>
    rw [h] at hab
    cases hab

instance : Std.TransOrd Uuid := inferInstanceAs (Std.TransCmp (compareOn Uuid.bytes))

instance : Std.TransOrd Int128 := inferInstanceAs (Std.TransCmp (compareOn Int128.toInt))

namespace Floating

variable {F : Format}

instance : Std.TransCmp (compareTotal (F := F)) :=
  inferInstanceAs (Std.TransCmp (compareOn totalRank))

theorem compare?_swap (x y : Floating F) : y.compare? x = (x.compare? y).map .swap := by
  rw [compare?, compare?, Bool.or_comm]
  split
  · rfl
  · rw [Option.map_some, Std.OrientedOrd.eq_swap]

theorem compare?_eq_then {x y z : Floating F} {o₁ o₂ o₃ : Ordering} (h₁ : x.compare? y = some o₁)
    (h₂ : y.compare? z = some o₂) (h₃ : x.compare? z = some o₃) (hLe₁ : o₁.isLE) (hLe₂ : o₂.isLE) :
    o₃ = o₁.then o₂ := by
  rw [compare?] at h₁ h₂ h₃
  split at h₁
  · cases h₁
  · split at h₂
    · cases h₂
    · split at h₃
      · cases h₃
      · cases h₁
        cases h₂
        cases h₃
        exact compare_eq_then hLe₁ hLe₂

end Floating

theorem Decimal.tryCompare_swap {d e : Decimal} {o : Ordering} (h : d.tryCompare e = .ok o) :
    e.tryCompare d = .ok o.swap := by
  rw [tryCompare] at h ⊢
  split at h
  · next hScale =>
    cases h
    rw [if_pos hScale.symm, Std.OrientedOrd.eq_swap]
  · next hScale =>
    rw [if_neg (Ne.symm hScale)]
    split at h
    · next hLt =>
      obtain ⟨n, hn, h⟩ := Outcome.bind_eq_ok_iff.mp h
      cases h
      rw [if_neg (Int8.lt_asymm hLt), hn]
      exact congrArg Except.ok Std.OrientedOrd.eq_swap
    · next hNotLt =>
      obtain ⟨n, hn, h⟩ := Outcome.bind_eq_ok_iff.mp h
      cases h
      have hLt := Std.lt_of_le_of_ne (Int8.not_lt.mp hNotLt) (Ne.symm hScale)
      rw [if_pos hLt, hn]
      exact congrArg Except.ok Std.OrientedOrd.eq_swap

theorem Decimal.tryCompare_eq_then {a b c : Decimal} {o₁ o₂ o₃ : Ordering} (h₁ : a.tryCompare b = .ok o₁)
    (h₂ : b.tryCompare c = .ok o₂) (h₃ : a.tryCompare c = .ok o₃) (hLe₁ : o₁.isLE) (hLe₂ : o₂.isLE) :
    o₃ = o₁.then o₂ := by
  obtain rfl := compare_number_of_tryCompare h₁
  obtain rfl := compare_number_of_tryCompare h₂
  obtain rfl := compare_number_of_tryCompare h₃
  exact compare_eq_then hLe₁ hLe₂

namespace Value

theorem SameKind.kind?_eq {v w : Value} (h : SameKind v w) : v.kind? = w.kind? := by
  cases h <;> rfl

theorem kind?_of_isNaN {v : Value} (h : v.isNaN = true) :
    v.kind? = some .float32 ∨ v.kind? = some .float64 := by
  cases v with
  | float32 x => exact .inl rfl
  | float64 x => exact .inr rfl
  | _ => cases h

theorem exists_eq_some_of_tryCompare {v w : Value} {o : Option Ordering} (h : v.tryCompare w = .ok o)
    (hv : v.isNaN = false) (hw : w.isNaN = false) : ∃ p, o = some p := by
  rw [← Option.ne_none_iff_exists', Ne, eq_none_iff_of_tryCompare h, hv, hw]
  simp

theorem exists_eq_some_of_kind {v w : Value} {o : Option Ordering} (h : v.tryCompare w = .ok o)
    (hSingle : v.kind? ≠ some .float32) (hDouble : v.kind? ≠ some .float64) : ∃ p, o = some p := by
  have hNumber {u : Value} (hKind : v.kind? = u.kind?) : u.isNaN = false := by
    rw [hKind] at hSingle hDouble
    rw [← Bool.not_eq_true]
    exact fun hNaN => (kind?_of_isNaN hNaN).elim hSingle hDouble
  exact exists_eq_some_of_tryCompare h (hNumber rfl) (hNumber (sameKind_of_tryCompare h).kind?_eq)

theorem cellOrder_of_kind {v w : Value} (hv : v.isNull = false) (hw : w.isNull = false)
    (hSingle : v.kind? ≠ some .float32) (hDouble : v.kind? ≠ some .float64)
    (byValue : Except Fault (Option Ordering)) :
    cellOrder v w byValue = (·.getD .eq) <$> byValue := by
  fun_cases cellOrder v w byValue
  · cases hv
  · cases hv
  · cases hw
  · exact absurd rfl hSingle
  · exact absurd rfl hDouble
  · rfl

/-- In a cell only floats are compared otherwise than by value. -/
theorem cellOrder_eq_ok_iff {v w : Value} {o : Ordering} (hv : v.isNull = false) (hw : w.isNull = false)
    (hSingle : v.kind? ≠ some .float32) (hDouble : v.kind? ≠ some .float64) :
    cellOrder v w (v.tryCompare w) = .ok o ↔ v.tryCompare w = .ok (some o) := by
  rw [cellOrder_of_kind hv hw hSingle hDouble, Outcome.map_eq_ok_iff]
  constructor
  · rintro ⟨p, hp, rfl⟩
    obtain ⟨o, rfl⟩ := exists_eq_some_of_kind hp hSingle hDouble
    exact hp
  · intro h
    exact ⟨some o, h, rfl⟩

theorem sameKind_of_cellOrder {v w : Value} {o : Ordering} (hv : v.isNull = false)
    (hw : w.isNull = false) (h : cellOrder v w (v.tryCompare w) = .ok o) : SameKind v w := by
  fun_cases cellOrder v w (v.tryCompare w)
  · cases hv
  · cases hv
  · cases hw
  · constructor
  · constructor
  · rw [cellOrder, Outcome.map_eq_ok_iff] at h
    · obtain ⟨p, hp, -⟩ := h
      exact sameKind_of_tryCompare hp
    all_goals assumption

theorem cellOrder_swap {v w : Value} {o : Ordering}
    (hValue : ∀ p, v.tryCompare w = .ok p → w.tryCompare v = .ok (p.map .swap))
    (h : cellOrder v w (v.tryCompare w) = .ok o) : cellOrder w v (w.tryCompare v) = .ok o.swap := by
  cases hv : v.isNull with
  | true =>
    obtain rfl := eq_null_of_isNull hv
    cases hw : w.isNull with
    | true =>
      obtain rfl := eq_null_of_isNull hw
      cases h
      rfl
    | false =>
      rw [cellOrder_null_left hw] at h
      cases h
      exact cellOrder_null_right hw _
  | false =>
    cases hw : w.isNull with
    | true =>
      obtain rfl := eq_null_of_isNull hw
      rw [cellOrder_null_right hv] at h
      cases h
      exact cellOrder_null_left hv _
    | false =>
      cases sameKind_of_cellOrder hv hw h with
      | float32 x y | float64 x y =>
        cases h
        exact congrArg Except.ok Std.OrientedCmp.eq_swap
      | _ =>
        rw [cellOrder_eq_ok_iff hv hw nofun nofun] at h
        rw [cellOrder_eq_ok_iff hw hv nofun nofun]
        exact hValue _ h

theorem cellOrder_eq_then {u v w : Value} {o₁ o₂ o₃ : Ordering}
    (hValue : ∀ {p₁ p₂ p₃}, u.tryCompare v = .ok (some p₁) → v.tryCompare w = .ok (some p₂) →
      u.tryCompare w = .ok (some p₃) → p₁.isLE → p₂.isLE → p₃ = p₁.then p₂)
    (h₁ : cellOrder u v (u.tryCompare v) = .ok o₁) (h₂ : cellOrder v w (v.tryCompare w) = .ok o₂)
    (h₃ : cellOrder u w (u.tryCompare w) = .ok o₃) (hLe₁ : o₁.isLE) (hLe₂ : o₂.isLE) :
    o₃ = o₁.then o₂ := by
  cases hv : v.isNull with
  | true =>
    obtain rfl := eq_null_of_isNull hv
    cases hu : u.isNull with
    | true =>
      obtain rfl := eq_null_of_isNull hu
      cases h₁
      exact Except.ok.inj (h₃.symm.trans h₂)
    | false =>
      rw [cellOrder_null_right hu] at h₁
      cases h₁
      cases hLe₁
  | false =>
    have hw : w.isNull = false := by
      rw [isNull_eq_false_iff]
      rintro rfl
      rw [cellOrder_null_right hv] at h₂
      cases h₂
      cases hLe₂
    cases hu : u.isNull with
    | true =>
      obtain rfl := eq_null_of_isNull hu
      rw [cellOrder_null_left hv] at h₁
      rw [cellOrder_null_left hw] at h₃
      cases h₁
      cases h₃
      rfl
    | false =>
      cases sameKind_of_cellOrder hu hv h₁ with
      | float32 x y | float64 x y =>
        cases sameKind_of_cellOrder hv hw h₂
        cases h₁
        cases h₂
        cases h₃
        exact compare_eq_then hLe₁ hLe₂
      | _ =>
        rw [cellOrder_eq_ok_iff hu hv nofun nofun] at h₁
        rw [cellOrder_eq_ok_iff hv hw nofun nofun] at h₂
        rw [cellOrder_eq_ok_iff hu hw nofun nofun] at h₃
        exact hValue h₁ h₂ h₃ hLe₁ hLe₂

theorem compareCells_cons_eq_ok_iff {c d : Field × Value} {a b : Record} {o : Ordering} :
    compareCells (c :: a) (d :: b) = .ok o ↔
      ∃ p, cellOrder c.2 d.2 (c.2.tryCompare d.2) = .ok p ∧
        (p = .eq ∧ compareCells a b = .ok o ∨ p ≠ .eq ∧ p = o) := by
  rw [compareCells]
  split
  · next hHead => simp [hHead]
  · next hHead =>
    constructor
    · intro h
      refine ⟨o, h, .inr ⟨?_, rfl⟩⟩
      rintro rfl
      exact hHead h
    · rintro ⟨p, hp, ⟨rfl, -⟩ | ⟨-, rfl⟩⟩
      · exact absurd hp hHead
      · exact hp

mutual
theorem tryCompare_swap : (v w : Value) → {o : Option Ordering} → v.tryCompare w = .ok o →
    w.tryCompare v = .ok (o.map .swap)
  | .record a, w, o, h => by
    cases sameKind_of_tryCompare h with
    | record _ b =>
      have hFields := fields_eq_of_tryCompare h
      rw [tryCompare_record hFields, Outcome.map_eq_ok_iff] at h
      obtain ⟨p, hp, rfl⟩ := h
      rw [tryCompare_record hFields.symm, compareCells_swap a b hp]
      rfl
  | .decimal d, w, o, h => by
    cases sameKind_of_tryCompare h with
    | decimal _ e =>
      rw [tryCompare, Outcome.map_eq_ok_iff] at h
      obtain ⟨p, hp, rfl⟩ := h
      rw [tryCompare, Decimal.tryCompare_swap hp]
      rfl
  | .float32 x, w, o, h => by
    cases sameKind_of_tryCompare h with
    | float32 _ y =>
      rw [tryCompare, Except.ok.injEq] at h
      rw [tryCompare, Floating.compare?_swap, h]
  | .float64 x, w, o, h => by
    cases sameKind_of_tryCompare h with
    | float64 _ y =>
      rw [tryCompare, Except.ok.injEq] at h
      rw [tryCompare, Floating.compare?_swap, h]
  | .boolean _, w, o, h | .int32 _, w, o, h | .int64 _, w, o, h | .utf8 _, w, o, h
  | .binary _, w, o, h | .uuid _, w, o, h => by
    cases sameKind_of_tryCompare h
    rw [tryCompare] at h
    cases h
    rw [tryCompare, Option.map_some, Std.OrientedOrd.eq_swap]
  | .null, w, o, h => by cases sameKind_of_tryCompare h

theorem compareCells_swap : (a b : Record) → {o : Ordering} → compareCells a b = .ok o →
    compareCells b a = .ok o.swap
  | [], b, o, h => by
    rw [compareCells] at h
    · cases h
      rw [compareCells]
      · rfl
      · nofun
    · nofun
  | (f, v) :: a, [], o, h => by
    rw [compareCells] at h
    · cases h
      rw [compareCells]
      · rfl
      · nofun
    · nofun
  | (f, v) :: a, (g, w) :: b, o, h => by
    rw [compareCells_cons_eq_ok_iff] at h ⊢
    obtain ⟨p, hHead, hRest⟩ := h
    refine ⟨p.swap, cellOrder_swap (fun _ => tryCompare_swap v w) hHead, ?_⟩
    rcases hRest with ⟨rfl, hTail⟩ | ⟨hNe, rfl⟩
    · exact .inl ⟨rfl, compareCells_swap a b hTail⟩
    · exact .inr ⟨by rwa [Ne, Ordering.swap_eq_eq], rfl⟩
end

mutual
/-- Along values that ascend, the first step that is strict decides. -/
theorem tryCompare_eq_then : (u v w : Value) → {o₁ o₂ o₃ : Ordering} →
    u.tryCompare v = .ok (some o₁) → v.tryCompare w = .ok (some o₂) → u.tryCompare w = .ok (some o₃) →
      o₁.isLE → o₂.isLE → o₃ = o₁.then o₂
  | .record a, v, w, o₁, o₂, o₃, h₁, h₂, h₃, hLe₁, hLe₂ => by
    cases sameKind_of_tryCompare h₁ with
    | record _ b =>
      cases sameKind_of_tryCompare h₂ with
      | record _ c =>
        have hab := fields_eq_of_tryCompare h₁
        have hbc := fields_eq_of_tryCompare h₂
        rw [tryCompare_record hab, Outcome.map_eq_ok_iff] at h₁
        rw [tryCompare_record hbc, Outcome.map_eq_ok_iff] at h₂
        rw [tryCompare_record (hab.trans hbc), Outcome.map_eq_ok_iff] at h₃
        obtain ⟨_, h₁, ⟨⟩⟩ := h₁
        obtain ⟨_, h₂, ⟨⟩⟩ := h₂
        obtain ⟨_, h₃, ⟨⟩⟩ := h₃
        exact compareCells_eq_then a b c hab hbc h₁ h₂ h₃ hLe₁ hLe₂
  | .decimal d, v, w, o₁, o₂, o₃, h₁, h₂, h₃, hLe₁, hLe₂ => by
    cases sameKind_of_tryCompare h₁
    cases sameKind_of_tryCompare h₂
    rw [tryCompare, Outcome.map_eq_ok_iff] at h₁ h₂ h₃
    obtain ⟨_, h₁, ⟨⟩⟩ := h₁
    obtain ⟨_, h₂, ⟨⟩⟩ := h₂
    obtain ⟨_, h₃, ⟨⟩⟩ := h₃
    exact Decimal.tryCompare_eq_then h₁ h₂ h₃ hLe₁ hLe₂
  | .float32 _, v, w, o₁, o₂, o₃, h₁, h₂, h₃, hLe₁, hLe₂
  | .float64 _, v, w, o₁, o₂, o₃, h₁, h₂, h₃, hLe₁, hLe₂ => by
    cases sameKind_of_tryCompare h₁
    cases sameKind_of_tryCompare h₂
    rw [tryCompare, Except.ok.injEq] at h₁ h₂ h₃
    exact Floating.compare?_eq_then h₁ h₂ h₃ hLe₁ hLe₂
  | .boolean _, v, w, o₁, o₂, o₃, h₁, h₂, h₃, hLe₁, hLe₂
  | .int32 _, v, w, o₁, o₂, o₃, h₁, h₂, h₃, hLe₁, hLe₂
  | .int64 _, v, w, o₁, o₂, o₃, h₁, h₂, h₃, hLe₁, hLe₂
  | .utf8 _, v, w, o₁, o₂, o₃, h₁, h₂, h₃, hLe₁, hLe₂
  | .binary _, v, w, o₁, o₂, o₃, h₁, h₂, h₃, hLe₁, hLe₂
  | .uuid _, v, w, o₁, o₂, o₃, h₁, h₂, h₃, hLe₁, hLe₂ => by
    cases sameKind_of_tryCompare h₁
    cases sameKind_of_tryCompare h₂
    rw [tryCompare] at h₁ h₂ h₃
    cases h₁
    cases h₂
    cases h₃
    exact compare_eq_then hLe₁ hLe₂
  | .null, v, w, o₁, o₂, o₃, h₁, h₂, h₃, hLe₁, hLe₂ => by cases sameKind_of_tryCompare h₁

theorem compareCells_eq_then : (a b c : Record) → Record.fields a = Record.fields b →
    Record.fields b = Record.fields c → {o₁ o₂ o₃ : Ordering} → compareCells a b = .ok o₁ →
      compareCells b c = .ok o₂ → compareCells a c = .ok o₃ → o₁.isLE → o₂.isLE → o₃ = o₁.then o₂
  | [], [], [], _, _, o₁, o₂, o₃, h₁, h₂, h₃, _, _ => by
    have hEmpty : compareCells [] [] = .ok .eq := compareCells_self []
    cases hEmpty.symm.trans h₁
    cases hEmpty.symm.trans h₂
    cases hEmpty.symm.trans h₃
    rfl
  | (f, u) :: a, (g, v) :: b, (k, w) :: c, hab, hbc, o₁, o₂, o₃, h₁, h₂, h₃, hLe₁, hLe₂ => by
    rw [compareCells_cons_eq_ok_iff] at h₁ h₂ h₃
    obtain ⟨p₁, hp₁, h₁⟩ := h₁
    obtain ⟨p₂, hp₂, h₂⟩ := h₂
    obtain ⟨p₃, hp₃, h₃⟩ := h₃
    have hHead := cellOrder_eq_then (tryCompare_eq_then u v w) hp₁ hp₂ hp₃
    obtain ⟨rfl, h₁⟩ | ⟨hNe₁, rfl⟩ := h₁
    · obtain ⟨rfl, h₂⟩ | ⟨hNe₂, rfl⟩ := h₂
      · obtain rfl := hHead rfl rfl
        obtain ⟨-, h₃⟩ | ⟨hNe, -⟩ := h₃
        · obtain ⟨-, hab⟩ := List.cons.inj hab
          obtain ⟨-, hbc⟩ := List.cons.inj hbc
          exact compareCells_eq_then a b c hab hbc h₁ h₂ h₃ hLe₁ hLe₂
        · exact absurd rfl hNe
      · -- the heads differ in the second step only, and whatever follows the first is not asked for
        obtain rfl := (Ordering.isLE_iff_eq_lt_or_eq_eq.mp hLe₂).resolve_right hNe₂
        obtain rfl := hHead rfl rfl
        obtain ⟨⟨⟩, -⟩ | ⟨-, rfl⟩ := h₃
        cases o₁ <;> first | rfl | cases hLe₁
    · obtain rfl := (Ordering.isLE_iff_eq_lt_or_eq_eq.mp hLe₁).resolve_right hNe₁
      have hLe : p₂.isLE := by
        obtain ⟨rfl, -⟩ | ⟨-, rfl⟩ := h₂
        · rfl
        · exact hLe₂
      obtain rfl := hHead rfl hLe
      obtain ⟨⟨⟩, -⟩ | ⟨-, rfl⟩ := h₃
      rfl
end

theorem tryCompare_swap_iff (v w : Value) (o : Option Ordering) :
    v.tryCompare w = .ok o ↔ w.tryCompare v = .ok (o.map .swap) := by
  constructor
  · exact tryCompare_swap v w
  · intro h
    have hBack := tryCompare_swap w v h
    cases o with
    | none => exact hBack
    | some o => rwa [Option.map_some, Option.map_some, Ordering.swap_swap] at hBack

theorem exists_fault_of_tryCompare_swap {v w : Value} (h : ∃ fault, v.tryCompare w = .error fault) :
    ∃ fault, w.tryCompare v = .error fault := by
  obtain ⟨fault, hFault⟩ := h
  cases hBack : w.tryCompare v with
  | error other => exact ⟨other, rfl⟩
  | ok o => cases hFault.symm.trans (tryCompare_swap w v hBack)

/-- A comparison the other way round gives the reverse order, and where it has none or is refused,
so is the other. Decimals of any scales are compared exactly, as the numbers that they stand for,
and refused where the one of the smaller scale or its factor leaves 128 bits. -/
theorem tryCompare_reverses :
    (∀ v w : Value,
        (∀ o, v.tryCompare w = .ok (some o) ↔ w.tryCompare v = .ok (some o.swap)) ∧
          (v.tryCompare w = .ok none ↔ w.tryCompare v = .ok none) ∧
          ((∃ fault, v.tryCompare w = .error fault) ↔ ∃ fault, w.tryCompare v = .error fault)) ∧
      ∀ d e : Decimal,
        (Value.decimal d).tryCompare (.decimal e) =
          if Decimal.Alignable d e then .ok (some (compare d.number e.number))
          else .error (.rescaleOverflow (Decimal.coarser d e) (Decimal.finer d e).scale) := by
  constructor
  · intro v w
    exact ⟨fun o => tryCompare_swap_iff v w (some o), tryCompare_swap_iff v w none,
      exists_fault_of_tryCompare_swap, exists_fault_of_tryCompare_swap⟩
  · intro d e
    rw [tryCompare, Decimal.tryCompare_eq, apply_ite (Functor.map some)]
    rfl

section Compared

variable {u v w : Value}

theorem exists_fits (v : Value) : ∃ t, v.fits t = true := by
  cases v with
  | null => exact ⟨.boolean, rfl⟩
  | boolean _ => exact ⟨.boolean, rfl⟩
  | int32 _ => exact ⟨.int32, rfl⟩
  | int64 _ => exact ⟨.int64, rfl⟩
  | float32 _ => exact ⟨.float32, rfl⟩
  | float64 _ => exact ⟨.float64, rfl⟩
  | decimal d => exact ⟨.decimal d.precision d.scale, by simp [fits]⟩
  | utf8 _ => exact ⟨.utf8, rfl⟩
  | binary _ => exact ⟨.binary, rfl⟩
  | uuid _ => exact ⟨.uuid, rfl⟩
  | record r => exact ⟨Record.type r, by simp [fits, Record.type]⟩

theorem isNull_of_tryCompare {o : Option Ordering} (h : v.tryCompare w = .ok o) :
    v.isNull = false ∧ w.isNull = false := by
  cases sameKind_of_tryCompare h <;> exact ⟨rfl, rfl⟩

theorem isNaN_of_tryCompare {o : Ordering} (h : v.tryCompare w = .ok (some o)) :
    v.isNaN = false ∧ w.isNaN = false := by
  have hNaN := (not_congr (eq_none_iff_of_tryCompare h)).mp nofun
  rwa [not_or, Bool.not_eq_true, Bool.not_eq_true] at hNaN

theorem tryCompare_eq_trans {t : ColumnType} (huMade : u.wellMade = true) (hwMade : w.wellMade = true)
    (hu : u.fits t = true) (hw : w.fits t = true) (h₁ : u.tryCompare v = .ok (some .eq))
    (h₂ : v.tryCompare w = .ok (some .eq)) : u.tryCompare w = .ok (some .eq) := by
  obtain ⟨o, h⟩ := exists_tryCompare huMade hwMade hu hw (isNull_of_tryCompare h₁).1
    (isNull_of_tryCompare h₂).2
  obtain ⟨p, rfl⟩ := exists_eq_some_of_tryCompare h (isNaN_of_tryCompare h₁).1 (isNaN_of_tryCompare h₂).2
  rw [h, tryCompare_eq_then _ _ _ h₁ h₂ h rfl rfl]
  rfl

end Compared

end Value

namespace Record

/-- The record comes before the other or is equal to it. -/
def AtMost (a b : Record) : Prop :=
  ∃ o : Ordering, (Value.record a).tryCompare (.record b) = .ok (some o) ∧ o.isLE

variable {a b c : Record}

theorem exists_tryCompare_of_fields_eq (ha : (Value.record a).wellMade = true)
    (hb : (Value.record b).wellMade = true) (h : fields a = fields b) :
    ∃ o, (Value.record a).tryCompare (.record b) = .ok (some o) := by
  have haFits : (Value.record a).fits (type b) = true := decide_eq_true h
  have hbFits : (Value.record b).fits (type b) = true := decide_eq_true rfl
  obtain ⟨o, ho⟩ := Value.exists_tryCompare ha hb haFits hbFits rfl rfl
  obtain ⟨p, rfl⟩ := Value.exists_eq_some_of_tryCompare ho rfl rfl
  exact ⟨p, ho⟩

/-- Records of one type are always ordered, each equals itself, and their order is the reverse the
other way round and passes from record to record. -/
theorem tryCompare_totalOrder (ha : (Value.record a).wellMade = true)
    (hb : (Value.record b).wellMade = true) (hc : (Value.record c).wellMade = true)
    (hab : fields a = fields b) (hbc : fields b = fields c) :
    (Value.record a).tryCompare (.record a) = .ok (some .eq) ∧
      (∃ o, (Value.record a).tryCompare (.record b) = .ok (some o) ∧
        (Value.record b).tryCompare (.record a) = .ok (some o.swap)) ∧
      (AtMost a b → AtMost b c → AtMost a c) := by
  refine ⟨Value.tryCompare_self _ rfl rfl, ?_, ?_⟩
  · obtain ⟨o, ho⟩ := exists_tryCompare_of_fields_eq ha hb hab
    exact ⟨o, ho, Value.tryCompare_swap _ _ ho⟩
  · rintro ⟨o₁, h₁, hLe₁⟩ ⟨o₂, h₂, hLe₂⟩
    obtain ⟨o₃, h₃⟩ := exists_tryCompare_of_fields_eq ha hc (hab.trans hbc)
    obtain rfl := Value.tryCompare_eq_then _ _ _ h₁ h₂ h₃ hLe₁ hLe₂
    exact ⟨_, h₃, Ordering.isLE_then_iff_and.mpr ⟨hLe₁, .inr hLe₂⟩⟩

/-- A price, tags that cannot be set, and a record in the record. -/
def offer (price : Decimal) (rating : Value) : Record :=
  [(⟨1, "price", .decimal 9 2, false⟩, .decimal price), (⟨2, "tags", .list .utf8, true⟩, .null),
    (⟨3, "review", .record [⟨4, "rating", .float32, true⟩], true⟩,
      .record [(⟨4, "rating", .float32, true⟩, rating)])]

/-- No rating comes before the least one, and a NaN behind all. -/
theorem tryCompare_totalOrder_offers :
    AtMost (offer ⟨5, 2, ⟨142⟩⟩ .null) (offer ⟨9, 2, ⟨142⟩⟩ (.float32 (.infinity .single true))) ∧
      AtMost (offer ⟨9, 2, ⟨142⟩⟩ (.float32 (.infinity .single true)))
        (offer ⟨3, 2, ⟨142⟩⟩ (.float32 (.nan .single true))) ∧
      AtMost (offer ⟨5, 2, ⟨142⟩⟩ .null) (offer ⟨3, 2, ⟨142⟩⟩ (.float32 (.nan .single true))) := by
  have hFirst : AtMost (offer ⟨5, 2, ⟨142⟩⟩ .null)
      (offer ⟨9, 2, ⟨142⟩⟩ (.float32 (.infinity .single true))) := ⟨.lt, rfl, rfl⟩
  have hSecond : AtMost (offer ⟨9, 2, ⟨142⟩⟩ (.float32 (.infinity .single true)))
      (offer ⟨3, 2, ⟨142⟩⟩ (.float32 (.nan .single true))) := ⟨.lt, rfl, rfl⟩
  have hUnrated : (Value.record (offer ⟨5, 2, ⟨142⟩⟩ .null)).wellMade = true := rfl
  have hLeast : (Value.record (offer ⟨9, 2, ⟨142⟩⟩ (.float32 (.infinity .single true)))).wellMade = true := rfl
  have hNaN : (Value.record (offer ⟨3, 2, ⟨142⟩⟩ (.float32 (.nan .single true)))).wellMade = true := rfl
  exact ⟨hFirst, hSecond, (tryCompare_totalOrder hUnrated hLeast hNaN rfl rfl).2.2 hFirst hSecond⟩

end Record

end Bucketing
