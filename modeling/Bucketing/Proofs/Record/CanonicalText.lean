import Bucketing.Proofs.Value.Comparison
import Bucketing.Value.Hash

/-! # Equal records and their canonical texts

Records of one flat type are equal when every field is set in both or in neither and reads the same.
The canonical text shows how the fields read, as far as strings do not hold the separator. Only strings
can hold it, as only they and records have blanks in their text.
-/
namespace Bucketing

theorem Value.printable_text (v : Value) (hUtf8 : v.kind? ≠ some .utf8) (hRecord : v.kind? ≠ some .record) :
    Text.Printable v.text := by
  cases v with
  | null => rw [Value.text]; decide
  | boolean b => cases b <;> rw [Value.text] <;> decide
  | int32 n => rw [Value.text]; exact Text.printable_write _
  | int64 n => rw [Value.text]; exact Text.printable_write _
  | float32 x => rw [Value.text]; exact Floating.printable_text x
  | float64 x => rw [Value.text]; exact Floating.printable_text x
  | decimal d => rw [Value.text]; exact Decimal.printable_text d
  | utf8 s => exact absurd rfl hUtf8
  | binary bytes => rw [Value.text]; exact Hex.printable_encode bytes
  | uuid u => rw [Value.text]; exact Uuid.printable_text u
  | record cells => exact absurd rfl hRecord

namespace Record

/-- How often the separator stands in the string of a field. -/
def separators (r : Record) (name : String) : Nat :=
  match get? r name with
  | some (.utf8 s) => s.toList.count separator
  | _ => 0

def Flat (r : Record) : Prop := ∀ f ∈ fields r, f.type.isNested = false

instance (r : Record) : Decidable (Flat r) :=
  List.decidableBAll (fun f : Field => f.type.isNested = false) (fields r)

theorem get?_of_find?_eq_some {r : Record} {name : String} {c : Field × Value}
    (h : r.find? (·.1.name == name) = some c) :
    get? r name = if c.2.isNull then none else some c.2 := by
  obtain ⟨f, v⟩ := c
  rw [get?, h]
  cases v <;> rfl

theorem get?_of_find?_eq_none {r : Record} {name : String}
    (h : r.find? (·.1.name == name) = none) : get? r name = none := by
  rw [get?, h]

theorem fieldText_of_find?_eq_some {r : Record} {name : String} {c : Field × Value}
    (h : r.find? (·.1.name == name) = some c) :
    fieldText r name = if c.2.isNull then [] else c.2.text := by
  rw [fieldText, get?_of_find?_eq_some h]
  cases c.2.isNull <;> rfl

theorem exists_mem_of_get?_eq_some {r : Record} {name : String} {v : Value} (h : get? r name = some v) :
    ∃ c ∈ r, c.2 = v ∧ v.isNull = false := by
  cases hFind : r.find? (·.1.name == name) with
  | none =>
    rw [get?_of_find?_eq_none hFind] at h
    cases h
  | some c =>
    rw [get?_of_find?_eq_some hFind] at h
    split at h
    · cases h
    · next hNull =>
      cases h
      exact ⟨c, List.mem_of_find?_eq_some hFind, rfl, by simpa using hNull⟩

/-- Two cells of one field are equal exactly when the field is set in both or in neither and reads
the same. -/
theorem compareCells_eq_ok_eq_iff_fieldText {a b : Record} (ha : (Value.record a).wellMade = true)
    (hb : (Value.record b).wellMade = true) (hFields : fields a = fields b) (hFlat : Flat a) :
    Value.compareCells a b = .ok .eq ↔
      ∀ name, (get? a name).isSome = (get? b name).isSome ∧ fieldText a name = fieldText b name := by
  have hCell : ∀ c d, (c, d) ∈ a.zip b →
      (Value.cellOrder c.2 d.2 (c.2.tryCompare d.2) = .ok .eq ↔
        c.2.isNull = d.2.isNull ∧ c.2.text = d.2.text) := by
    intro c d hMem
    obtain ⟨hc, hd⟩ := List.of_mem_zip hMem
    have hdFits := Value.fits_of_mem hb hd
    rw [← field_eq_of_mem_zip hFields hMem] at hdFits
    exact Value.cellOrder_eq_ok_eq_iff (hFlat c.1 (List.mem_map_of_mem hc))
      (Value.fits_of_mem ha hc) hdFits
  rw [Value.compareCells_eq_ok_eq_iff]
  constructor
  · intro h name
    rcases find?_name_cases hFields name with ⟨hc, hd⟩ | ⟨c, d, hMem, hc, hd⟩
    · rw [fieldText, fieldText, get?_of_find?_eq_none hc, get?_of_find?_eq_none hd]
      exact ⟨rfl, rfl⟩
    · obtain ⟨hNull, hText⟩ := (hCell c d hMem).mp (h c d hMem)
      rw [fieldText_of_find?_eq_some hc, fieldText_of_find?_eq_some hd, get?_of_find?_eq_some hc,
        get?_of_find?_eq_some hd, ← hNull, ← hText]
      cases c.2.isNull <;> exact ⟨rfl, rfl⟩
  · intro h c d hMem
    obtain ⟨hc, hd⟩ := List.of_mem_zip hMem
    have hFindA := find?_name_of_mem (Value.pairwise_name_ne ha) hc
    have hFindB := find?_name_of_mem (Value.pairwise_name_ne hb) hd
    rw [← field_eq_of_mem_zip hFields hMem] at hFindB
    obtain ⟨hSet, hText⟩ := h c.1.name
    rw [fieldText_of_find?_eq_some hFindA, fieldText_of_find?_eq_some hFindB] at hText
    rw [get?_of_find?_eq_some hFindA, get?_of_find?_eq_some hFindB] at hSet
    rw [hCell c d hMem]
    cases hcNull : c.2.isNull with
    | true =>
      cases hdNull : d.2.isNull with
      | true => rw [Value.eq_null_of_isNull hcNull, Value.eq_null_of_isNull hdNull]; exact ⟨rfl, rfl⟩
      | false => simp [hcNull, hdNull] at hSet
    | false =>
      cases hdNull : d.2.isNull with
      | true => simp [hcNull, hdNull] at hSet
      | false =>
        rw [hcNull, hdNull] at hText
        exact ⟨rfl, hText⟩

theorem flat_iff (r : Record) : Flat r ↔ (fields r).find? (·.type.isNested) = none := by
  simp only [Flat, List.find?_eq_none, Bool.not_eq_true]

theorem canonicalText_eq_ok {r : Record} (hFlat : Flat r) :
    canonicalText r = .ok ((fieldsById r).flatMap (canonicalCell r)) := by
  rw [canonicalText, (flat_iff r).mp hFlat]

theorem canonicalCell_congr {a b : Record} {f : Field} (h : fieldText a f.name = fieldText b f.name) :
    canonicalCell a f = canonicalCell b f := by
  rw [canonicalCell, canonicalCell, h]

theorem canonicalText_congr {a b : Record} (hFields : fields a = fields b)
    (h : ∀ name, fieldText a name = fieldText b name) : canonicalText a = canonicalText b := by
  have hCell : canonicalCell a = canonicalCell b := funext fun f => canonicalCell_congr (h f.name)
  rw [canonicalText, canonicalText, fieldsById, fieldsById, hFields, hCell]

/-- Texts with equally many marks end before the same mark. -/
theorem append_mark_inj {mark : Char} {x y rest others : List Char} (hCount : x.count mark = y.count mark)
    (h : x ++ mark :: rest = y ++ mark :: others) : x = y ∧ rest = others := by
  induction x generalizing y with
  | nil =>
    cases y with
    | nil => exact ⟨rfl, (List.cons.inj h).2⟩
    | cons c y =>
      rw [(List.cons.inj h).1, List.count_nil, List.count_cons_self] at hCount
      cases hCount
  | cons c x ih =>
    cases y with
    | nil =>
      rw [(List.cons.inj h).1, List.count_nil, List.count_cons_self] at hCount
      cases hCount
    | cons d y =>
      obtain ⟨rfl, hTail⟩ := List.cons.inj h
      rw [List.count_cons, List.count_cons, Nat.add_right_cancel_iff] at hCount
      obtain ⟨rfl, hRest⟩ := ih hCount hTail
      exact ⟨rfl, hRest⟩

theorem fieldText_eq_of_flatMap_eq {a b : Record} {fs : List Field}
    (hCount : ∀ f ∈ fs, (fieldText a f.name).count separator = (fieldText b f.name).count separator)
    (h : fs.flatMap (canonicalCell a) = fs.flatMap (canonicalCell b)) :
    ∀ f ∈ fs, fieldText a f.name = fieldText b f.name := by
  induction fs with
  | nil => intro f hf; cases hf
  | cons f fs ih =>
    obtain ⟨hHead, hTail⟩ := List.forall_mem_cons.mp hCount
    simp only [List.flatMap_cons, canonicalCell, List.append_assoc, List.cons_append,
      List.nil_append, List.append_cancel_left_eq, List.cons.injEq, true_and] at h
    obtain ⟨hText, hRest⟩ := append_mark_inj hHead h
    rw [List.forall_mem_cons]
    exact ⟨hText, ih hTail hRest⟩

theorem separator_not_mem_text {v : Value} {t : ColumnType} (hFits : v.fits t = true)
    (hNested : t.isNested = false) (hUtf8 : v.kind? ≠ some .utf8) : separator ∉ v.text := by
  have hRecord : v.kind? ≠ some .record := by
    cases v with
    | record cells =>
      rw [Value.eq_record_of_fits hFits] at hNested
      cases hNested
    | _ => simp [Value.kind?]
  exact (v.printable_text hUtf8 hRecord).not_mem (by decide)

theorem count_fieldText {r : Record} (hMade : (Value.record r).wellMade = true) (hFlat : Flat r)
    (name : String) : (fieldText r name).count separator = separators r name := by
  cases hGet : get? r name with
  | none =>
    rw [fieldText, separators, hGet]
    rfl
  | some v =>
    rw [fieldText, separators, hGet]
    obtain ⟨c, hc, hValue, -⟩ := exists_mem_of_get?_eq_some hGet
    have hFits := Value.fits_of_mem hMade hc
    have hNested := hFlat c.1 (List.mem_map_of_mem hc)
    rw [hValue] at hFits
    cases v with
    | utf8 s => rfl
    | _ =>
      apply List.count_eq_zero_of_not_mem
      exact separator_not_mem_text hFits hNested (by simp [Value.kind?])

theorem fieldText_eq_iff {a b : Record} (ha : (Value.record a).wellMade = true)
    (hb : (Value.record b).wellMade = true) (hFields : fields a = fields b) (hFlat : Flat a) :
    (∀ name, fieldText a name = fieldText b name) ↔
      canonicalText a = canonicalText b ∧ ∀ name, separators a name = separators b name := by
  have hFlatB : Flat b := by
    rw [Flat, ← hFields]
    exact hFlat
  have hOrder : fieldsById b = fieldsById a := by rw [fieldsById, fieldsById, hFields]
  simp only [← count_fieldText ha hFlat, ← count_fieldText hb hFlatB]
  constructor
  · intro h
    exact ⟨canonicalText_congr hFields h, fun name => by rw [h name]⟩
  · rintro ⟨hText, hCount⟩ name
    rw [canonicalText_eq_ok hFlat, canonicalText_eq_ok hFlatB, hOrder] at hText
    have hAll := fieldText_eq_of_flatMap_eq (fun f _ => hCount f.name) (Except.ok.inj hText)
    rcases find?_name_cases hFields name with ⟨hc, hd⟩ | ⟨c, d, hMem, hc, hd⟩
    · rw [fieldText, fieldText, get?_of_find?_eq_none hc, get?_of_find?_eq_none hd]
    · have hName := List.find?_some hc
      rw [beq_iff_eq] at hName
      have hField : c.1 ∈ fieldsById a := by
        rw [fieldsById, Sorting.mem_sort_iff]
        exact List.mem_map_of_mem (List.of_mem_zip hMem).1
      rw [← hName]
      exact hAll c.1 hField

/-- Two records of one flat type compare equal exactly when they have the same canonical text, the
same fields set, and as many separators in the string of each field. -/
theorem tryCompare_eq_iff_canonicalText_eq {a b : Record} (ha : (Value.record a).wellMade = true)
    (hb : (Value.record b).wellMade = true) (hFields : fields a = fields b) (hFlat : Flat a) :
    (∃ s t, canonicalText a = .ok s ∧ canonicalText b = .ok t) ∧
      ((Value.record a).tryCompare (.record b) = .ok (some .eq) ↔
        canonicalText a = canonicalText b ∧
          ∀ name, (get? a name).isSome = (get? b name).isSome ∧
            separators a name = separators b name) := by
  have hFlatB : Flat b := by
    rw [Flat, ← hFields]
    exact hFlat
  refine ⟨⟨_, _, canonicalText_eq_ok hFlat, canonicalText_eq_ok hFlatB⟩, ?_⟩
  have hCompare : (Value.record a).tryCompare (.record b) = .ok (some .eq) ↔
      Value.compareCells a b = .ok .eq := by
    rw [Value.tryCompare_record hFields, Outcome.map_eq_ok_iff]
    simp
  rw [hCompare, compareCells_eq_ok_eq_iff_fieldText ha hb hFields hFlat, forall_and,
    fieldText_eq_iff ha hb hFields hFlat, forall_and]
  exact and_left_comm

/-- A key, a string that is not set, and a number given by its bits. -/
def measurement (bits : Nat) : Record :=
  [(⟨1, "id", .int64, false⟩, .int64 7), (⟨2, "unit", .utf8, true⟩, .null),
    (⟨3, "score", .float64, true⟩, .float64 (.ofBits .double bits))]

theorem canonicalText_eq_of_nan_payloads :
    (Value.record (measurement 0x7ff8000000000001)).tryCompare
        (.record (measurement 0xfff0000000000002)) = .ok (some .eq) ∧
      canonicalText (measurement 0x7ff8000000000001) =
        canonicalText (measurement 0xfff0000000000002) := by
  have hEqual : (Value.record (measurement 0x7ff8000000000001)).tryCompare
      (.record (measurement 0xfff0000000000002)) = .ok (some .eq) := rfl
  have hLaw := tryCompare_eq_iff_canonicalText_eq
    (show (Value.record (measurement 0x7ff8000000000001)).wellMade = true from rfl)
    (show (Value.record (measurement 0xfff0000000000002)).wellMade = true from rfl) rfl (by decide)
  exact ⟨hEqual, (hLaw.2.mp hEqual).1⟩

def fullName (given family : Value) : Record :=
  [(⟨1, "given", .utf8, true⟩, given), (⟨2, "family", .utf8, true⟩, family)]

/-- The canonical text does not tell an unset field from an empty string, nor a separator in a string
from one between two fields. -/
theorem canonicalText_eq_of_unequal :
    (Flat (fullName .null (.utf8 "Ng")) ∧
      (Value.record (fullName .null (.utf8 "Ng"))).wellMade = true ∧
      (Value.record (fullName (.utf8 "") (.utf8 "Ng"))).wellMade = true ∧
      canonicalText (fullName .null (.utf8 "Ng")) = canonicalText (fullName (.utf8 "") (.utf8 "Ng")) ∧
      (Value.record (fullName .null (.utf8 "Ng"))).tryCompare
        (.record (fullName (.utf8 "") (.utf8 "Ng"))) = .ok (some .lt)) ∧
    canonicalText (fullName (.utf8 "x") (.utf8 "y\x1ffamily\x1fz")) =
        canonicalText (fullName (.utf8 "x\x1ffamily\x1fy") (.utf8 "z")) ∧
      (Value.record (fullName (.utf8 "x") (.utf8 "y\x1ffamily\x1fz"))).tryCompare
        (.record (fullName (.utf8 "x\x1ffamily\x1fy") (.utf8 "z"))) = .ok (some .lt) := by
  refine ⟨⟨by decide, rfl, rfl, rfl, rfl⟩, rfl, rfl⟩

end Record

end Bucketing
