import Bucketing.Proofs.Predicate.NormalForm

/-! # Where the order of literals is a total order

The order of literals of one kind is reflexive and turns around with its arguments, but it counts
literals as equal that cannot be compared. So it passes from literal to literal exactly where such
literals stand alike to all others. Decimals whose scales are too far from each other and records of
different types are such literals, literals of one column never are.
-/
namespace Bucketing.Literals

/-- Literals of one kind that cannot be compared. -/
def apart : Value → Value → Bool
  | .decimal d, .decimal e => !decide (Decimal.Alignable d e)
  | .record a, .record b => !decide (Record.fields a = Record.fields b)
  | _, _ => false

/-- What a sort asks of the order of its elements. -/
def LawfulOn (vs : List Value) : Prop := Std.TransCmp fun v w : {v // v ∈ vs} => order v.1 w.1

section Order

variable {u v w : Value}

theorem exists_tryCompare_symm (h : ∃ o, v.tryCompare w = .ok o) : ∃ o, w.tryCompare v = .ok o := by
  obtain ⟨o, ho⟩ := h
  exact ⟨_, Value.tryCompare_swap v w ho⟩

theorem order_of_refused (h : ¬∃ o, v.tryCompare w = .ok o) : order v w = .eq := by
  fun_cases order v w
  · exact absurd ⟨_, by rw [Value.tryCompare]⟩ h
  · exact absurd ⟨_, by rw [Value.tryCompare]⟩ h
  · next hOk => exact absurd ⟨_, hOk⟩ h
  · rfl

theorem order_self (h : v.isNull = false) : order v v = .eq := by
  fun_cases order v v
  · exact (Floating.compareTotal_eq_eq_iff _ _).mpr rfl
  · exact (Floating.compareTotal_eq_eq_iff _ _).mpr rfl
  · next hOk =>
    rw [Value.tryCompare_self v h (Value.isNaN_of_tryCompare hOk).1] at hOk
    cases hOk
    rfl
  · rfl

theorem order_swap (v w : Value) : order w v = (order v w).swap := by
  by_cases h : ∃ o, w.tryCompare v = .ok o
  · obtain ⟨o, ho⟩ := h
    exact orderBy_swap ho
  · rw [order_of_refused h, order_of_refused (mt exists_tryCompare_symm h)]
    rfl

/-- Whether the outer two can be compared does not matter. -/
theorem isLE_order_trans (huv : ∃ o, u.tryCompare v = .ok o) (hvw : ∃ o, v.tryCompare w = .ok o)
    (hFirst : (order u v).isLE) (hSecond : (order v w).isLE) : (order u w).isLE := by
  by_cases huw : ∃ o, u.tryCompare w = .ok o
  · obtain ⟨_, huv⟩ := huv
    obtain ⟨_, hvw⟩ := hvw
    obtain ⟨_, huw⟩ := huw
    exact isLE_orderBy_trans huv hvw huw hFirst hSecond
  · rw [order_of_refused huw]
    rfl

theorem exists_tryCompare_iff (hv : v.wellMade = true) (hw : w.wellMade = true)
    (hNull : v.isNull = false) (hKind : v.kind? = w.kind?) :
    (∃ o, v.tryCompare w = .ok o) ↔ apart v w = false := by
  cases Value.sameKind_of_kind?_eq hNull hKind with
  | decimal d e =>
    rw [apart, Bool.not_eq_false', decide_eq_true_eq, ← Decimal.exists_tryCompare_iff, Value.tryCompare]
    simp [Outcome.map_eq_ok_iff]
  | record a b =>
    rw [apart, Bool.not_eq_false', decide_eq_true_eq]
    constructor
    · rintro ⟨o, h⟩
      exact Value.fields_eq_of_tryCompare h
    · intro h
      obtain ⟨o, ho⟩ := Record.exists_tryCompare_of_fields_eq hv hw h
      exact ⟨some o, ho⟩
  | _ => exact iff_of_true ⟨_, by rw [Value.tryCompare]⟩ rfl

end Order

theorem pairwise_isLE_normalize {vs : List Value} (hKind : ∀ v ∈ vs, ∀ w ∈ vs, v.kind? = w.kind?)
    (hLawful : LawfulOn vs) :
    (normalize vs).Pairwise fun v w => (order v w).isLE := by
  have hKept {v : Value} (hv : v ∈ Sorting.distinct same vs) : v ∈ vs :=
    Sorting.mem_of_mem_distinct same vs v hv
  have hOne : ofOneKind (Sorting.distinct same vs) = true := by
    rw [ofOneKind_eq_true_iff]
    exact fun v hv w hw => hKind v (hKept hv) w (hKept hw)
  rw [normalize, if_pos hOne]
  generalize Sorting.distinct same vs = kept at hKept
  lift kept to List {v // v ∈ vs} using fun v hv => hKept hv
  have : Std.TransCmp fun v w : {v // v ∈ vs} => order v.1 w.1 := hLawful
  rw [← Sorting.map_sort, List.pairwise_map]
  exact Sorting.pairwise_isLE_sort kept

section Lists

variable {vs : List Value} (hMade : ∀ v ∈ vs, v.wellMade = true) (hNull : ∀ v ∈ vs, v.isNull = false)
  (hKind : ∀ v ∈ vs, ∀ w ∈ vs, v.kind? = w.kind?)

include hMade hNull hKind

theorem exists_tryCompare_iff_of_mem {v w : Value} (hv : v ∈ vs) (hw : w ∈ vs) :
    (∃ o, v.tryCompare w = .ok o) ↔ apart v w = false :=
  exists_tryCompare_iff (hMade v hv) (hMade w hw) (hNull v hv) (hKind v hv w hw)

theorem order_of_apart {v w : Value} (hv : v ∈ vs) (hw : w ∈ vs) (h : apart v w = true) :
    order v w = .eq := by
  apply order_of_refused
  rw [exists_tryCompare_iff_of_mem hMade hNull hKind hv hw, h]
  nofun

theorem isLE_order_trans_of_mem {u v w : Value} (hu : u ∈ vs) (hv : v ∈ vs) (hw : w ∈ vs)
    (huv : apart u v = false) (hvw : apart v w = false) (hFirst : (order u v).isLE)
    (hSecond : (order v w).isLE) : (order u w).isLE :=
  isLE_order_trans ((exists_tryCompare_iff_of_mem hMade hNull hKind hu hv).mpr huv)
    ((exists_tryCompare_iff_of_mem hMade hNull hKind hv hw).mpr hvw) hFirst hSecond

theorem lawfulOn_iff :
    LawfulOn vs ↔ ∀ u ∈ vs, ∀ v ∈ vs, apart u v = true → ∀ w ∈ vs, order u w = order v w := by
  constructor
  · intro (hLawful : Std.TransCmp _) u hu v hv hApart w hw
    have hEq : order u v = .eq := order_of_apart hMade hNull hKind hu hv hApart
    exact hLawful.congr_left (a := ⟨u, hu⟩) (b := ⟨v, hv⟩) (c := ⟨w, hw⟩) hEq
  · intro hAlike
    refine { eq_swap := order_swap _ _, isLE_trans := ?_ }
    -- a step between two that are apart leads to one that stands alike, so it can be left out
    rintro ⟨u, hu⟩ ⟨v, hv⟩ ⟨w, hw⟩ hFirst hSecond
    cases huv : apart u v with
    | true =>
      change (order u w).isLE
      rw [hAlike u hu v hv huv w hw]
      exact hSecond
    | false =>
      cases hvw : apart v w with
      | true =>
        change (order u w).isLE
        rw [order_swap w u, ← hAlike v hv w hw hvw u hu, ← order_swap]
        exact hFirst
      | false => exact isLE_order_trans_of_mem hMade hNull hKind hu hv hw huv hvw hFirst hSecond

theorem lawfulOn_of_fits {t : ColumnType} (hType : ∀ v ∈ vs, v.fits t = true) : LawfulOn vs := by
  rw [lawfulOn_iff hMade hNull hKind]
  intro u hu v hv hApart
  have hCompare := Value.exists_tryCompare (hMade u hu) (hMade v hv) (hType u hu) (hType v hv)
    (hNull u hu) (hNull v hv)
  rw [exists_tryCompare_iff_of_mem hMade hNull hKind hu hv, hApart] at hCompare
  cases hCompare

/-- Every literal is in its own place, and the order turns around with its arguments. It passes from
literal to literal where neither step is between two that are apart, and on a list exactly if those
that are apart stand alike to all others. Then the normal form ascends. Literals of one column are
never apart. -/
theorem order_lawful_unless_apart :
    (∀ v ∈ vs, order v v = .eq) ∧
      (∀ v ∈ vs, ∀ w ∈ vs, order w v = (order v w).swap) ∧
      (∀ u ∈ vs, ∀ v ∈ vs, ∀ w ∈ vs, apart u v = false → apart v w = false →
        (order u v).isLE → (order v w).isLE → (order u w).isLE) ∧
      (LawfulOn vs ↔ ∀ u ∈ vs, ∀ v ∈ vs, apart u v = true → ∀ w ∈ vs, order u w = order v w) ∧
      (LawfulOn vs → (normalize vs).Pairwise fun v w => (order v w).isLE) ∧
      (∀ t : ColumnType, (∀ v ∈ vs, v.fits t = true) → LawfulOn vs) := by
  refine ⟨fun v hv => order_self (hNull v hv), fun v _ w _ => order_swap v w, ?_,
    lawfulOn_iff hMade hNull hKind, pairwise_isLE_normalize hKind, ?_⟩
  · intro u hu v hv w hw
    exact isLE_order_trans_of_mem hMade hNull hKind hu hv hw
  · intro t hType
    exact lawfulOn_of_fits hMade hNull hKind hType

end Lists

/-- Lengths of several scales, not in order. -/
def lengths : List Value := [.decimal ⟨1, 0, ⟨2⟩⟩, .decimal ⟨2, 1, ⟨15⟩⟩, .decimal ⟨9, 30, ⟨7⟩⟩]

theorem order_lawful_unless_apart_lengths :
    LawfulOn lengths ∧ (normalize lengths).Pairwise (fun v w => (order v w).isLE) ∧
      normalize lengths = lengths.reverse := by
  have hMade : ∀ v ∈ lengths, v.wellMade = true := by decide
  have hNull : ∀ v ∈ lengths, v.isNull = false := by decide
  have hKind : ∀ v ∈ lengths, ∀ w ∈ lengths, v.kind? = w.kind? := by decide
  have hApart : ∀ u ∈ lengths, ∀ v ∈ lengths, apart u v = true → ∀ w ∈ lengths, order u w = order v w := by
    decide
  obtain ⟨-, -, -, hLawful, hSorted, -⟩ := order_lawful_unless_apart hMade hNull hKind
  exact ⟨hLawful.mpr hApart, hSorted (hLawful.mpr hApart), rfl⟩

/-- Two stays before one, as neither can be brought to the scale of what is between them. -/
theorem order_not_passed_on :
    ∃ two tiny one : Decimal, Decimal.make 1 0 ⟨2⟩ = .ok two ∧ Decimal.make 1 127 ⟨5⟩ = .ok tiny ∧
      Decimal.make 1 0 ⟨1⟩ = .ok one ∧ order (.decimal two) (.decimal tiny) ≠ .gt ∧
        order (.decimal tiny) (.decimal one) ≠ .gt ∧ order (.decimal two) (.decimal one) = .gt ∧
        normalize [.decimal two, .decimal tiny, .decimal one] =
          [.decimal two, .decimal tiny, .decimal one] :=
  ⟨_, _, _, rfl, rfl, rfl, by decide, by decide, rfl, rfl⟩

end Bucketing.Literals
