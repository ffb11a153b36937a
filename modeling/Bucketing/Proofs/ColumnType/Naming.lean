import Bucketing.Bucketer.Basic
import Bucketing.Making
import Bucketing.Proofs.Value.Reading
import Bucketing.Proofs.Text.Integer

/-! # Types that have a name

A text is read by its name, which is the text in lower case without the blanks around it. The name is one
of a list, or it gives the parameters of a decimal type between parentheses; no listed name has any. So
no nested type has a name, and of the types that have one only boolean cannot be bucketed.
-/
namespace Bucketing

namespace ColumnType

open Numeral ScientificNumeral Text

/-- Blanks may stand around the numerals of a decimal type. -/
inductive NamedBy : ColumnType → List Char → Prop where
  | listed {name : String} {t : ColumnType} (mem : (name, t) ∈ names) : NamedBy t name.toList
  | decimal {precision : UInt8} {scale : Int8} {lead : String} {left right : List Char}
      (isLead : lead ∈ ["decimal(", "decimal128("])
      (admitted : 1 ≤ precision.toNat ∧ precision.toNat ≤ Decimal.maxPrecision)
      (precision_spelled : SpellsInteger precision.toNat (trim left))
      (scale_spelled : SpellsInteger scale.toInt (trim right)) :
      NamedBy (.decimal precision scale) (lead.toList ++ left ++ ',' :: right ++ [')'])

theorem namedBy_decimal_iff {precision : UInt8} {scale : Int8} {name : List Char} :
    NamedBy (.decimal precision scale) name ↔
      (1 ≤ precision.toNat ∧ precision.toNat ≤ Decimal.maxPrecision) ∧
        ∃ lead ∈ ["decimal(", "decimal128("], ∃ left right,
          name = lead.toList ++ left ++ ',' :: right ++ [')'] ∧
            SpellsInteger precision.toNat (trim left) ∧ SpellsInteger scale.toInt (trim right) := by
  constructor
  · intro h
    cases h with
    | listed mem =>
      have hNames : ∀ named ∈ names, named.2.kind ≠ .decimal := by decide
      exact absurd rfl (hNames _ mem)
    | decimal isLead admitted precision_spelled scale_spelled =>
      exact ⟨admitted, _, isLead, _, _, rfl, precision_spelled, scale_spelled⟩
  · rintro ⟨admitted, lead, isLead, left, right, rfl, precision_spelled, scale_spelled⟩
    exact .decimal isLead admitted precision_spelled scale_spelled

theorem lookup_eq_some_iff {name : String} {t : ColumnType} :
    names.lookup name = some t ↔ (name, t) ∈ names := by
  have hNames : ∀ named ∈ names, names.lookup named.1 = some named.2 := by decide
  refine ⟨fun h => ?_, hNames (name, t)⟩
  obtain ⟨before, after, hAppend, -⟩ := List.lookup_eq_some_iff.mp h
  rw [hAppend]
  exact List.mem_append_right before List.mem_cons_self

theorem lookup_eq_none_of_parenthesis {name : List Char} (h : '(' ∈ name) :
    names.lookup (String.ofList name) = none := by
  have hNames : ∀ named ∈ names, '(' ∉ named.1.toList := by decide
  rw [List.lookup_eq_none_iff]
  intro named hMem
  rw [bne_iff_ne]
  intro hName
  apply hNames named hMem
  rwa [← hName, String.toList_ofList]

/-- The two ways to open the parameters exclude each other. -/
theorem opening_eq_some_iff {name inside : List Char} :
    (after? "decimal128(".toList name).or (after? "decimal(".toList name) = some inside ↔
      ∃ lead ∈ ["decimal(", "decimal128("], name = lead.toList ++ inside := by
  have hBoth : name = "decimal(".toList ++ inside → after? "decimal128(".toList name = none := by
    rintro rfl
    rfl
  simp only [Option.or_eq_some_iff, after?_eq_some_iff, and_iff_right_of_imp hBoth, List.mem_cons,
    List.not_mem_nil, or_false, exists_eq_or_imp, exists_eq_left]
  exact or_comm

theorem decimalParameters?_eq_some_iff {name left right : List Char} :
    decimalParameters? name = some (left, right) ↔ ',' ∉ left ∧
      ∃ lead ∈ ["decimal(", "decimal128("], name = lead.toList ++ left ++ ',' :: right ++ [')'] := by
  simp only [decimalParameters?, Option.bind_eq_bind, Option.bind_eq_some_iff, opening_eq_some_iff,
    before?_eq_some_iff, cut?_eq_some_iff]
  constructor
  · rintro ⟨_, ⟨lead, hLead, rfl⟩, _, rfl, rfl, hComma⟩
    exact ⟨hComma, lead, hLead, by simp only [List.append_assoc]⟩
  · rintro ⟨hComma, lead, hLead, rfl⟩
    refine ⟨left ++ ',' :: right ++ [')'], ⟨lead, hLead, ?_⟩, _, rfl, rfl, hComma⟩
    simp only [List.append_assoc]

theorem comma_not_mem_of_spellsInteger {n : Int} {text : List Char} (h : SpellsInteger n (trim text)) :
    ',' ∉ text := by
  intro hMem
  have hTrim : ',' ∈ trim text := mem_trim hMem (by decide)
  generalize trim text = numeral at h hTrim
  obtain ⟨hSign, hDigits, -⟩ := h
  have hComma := not_mem_of_isDigits hDigits (c := ',') rfl
  cases hSign with
  | minus | plus => exact hComma (List.mem_of_ne_of_mem (by decide) hTrim)
  | bare => exact hComma hTrim

theorem namedBy_of_ofText {text : String} {t : ColumnType} (h : ofText text = .ok t) :
    NamedBy t (lower (trim text.toList)) := by
  rw [ofText] at h
  dsimp only at h
  split at h
  · next type hLookup =>
    cases h
    have hListed := NamedBy.listed (lookup_eq_some_iff.mp hLookup)
    rwa [String.toList_ofList] at hListed
  · cases h
  · next left right hLookup hParameters =>
    obtain ⟨precision, hPrecision, h⟩ := Outcome.bind_eq_ok_iff.mp h
    obtain ⟨scale, hScale, h⟩ := Outcome.bind_eq_ok_iff.mp h
    split at h
    · cases h
    · obtain ⟨hCheck, h⟩ := Outcome.bind_unit_eq_ok_iff.mp h
      cases h
      have hAdmitted := (Decimal.checkPrecision_eq_ok_iff precision).mp hCheck
      obtain ⟨-, lead, hLead, hName⟩ := decimalParameters?_eq_some_iff.mp hParameters
      rw [hName]
      exact .decimal hLead hAdmitted
        ((readUInt8_eq_ok_iff hAdmitted.1).mp (Outcome.mapError_eq_ok_iff.mp hPrecision))
        (readInt8_eq_ok_iff.mp (Outcome.mapError_eq_ok_iff.mp hScale))

theorem ofText_of_namedBy {text : String} {t : ColumnType} (h : NamedBy t (lower (trim text.toList))) :
    ofText text = .ok t := by
  rw [ofText]
  dsimp only
  generalize lower (trim text.toList) = name at h
  cases h with
  | listed mem => rw [String.ofList_toList, lookup_eq_some_iff.mpr mem]
  | @decimal precision scale lead left right isLead admitted precision_spelled scale_spelled =>
    have hLeads : ∀ lead ∈ ["decimal(", "decimal128("], '(' ∈ lead.toList := by decide
    have hParenthesis : '(' ∈ lead.toList ++ left ++ ',' :: right ++ [')'] := by
      simp only [List.mem_append, hLeads lead isLead, true_or]
    have hComma := comma_not_mem_of_spellsInteger precision_spelled
    rw [lookup_eq_none_of_parenthesis hParenthesis,
      decimalParameters?_eq_some_iff.mpr ⟨hComma, lead, isLead, rfl⟩]
    dsimp only
    rw [(readUInt8_eq_ok_iff admitted.1).mpr precision_spelled, readInt8_eq_ok_iff.mpr scale_spelled]
    change (if _ then _ else _) = _
    rw [if_neg (Nat.not_lt.mpr admitted.2), makeDecimal, (Decimal.checkPrecision_eq_ok_iff precision).mpr admitted]
    rfl

theorem ofText_eq_ok_iff {text : String} {t : ColumnType} :
    ofText text = .ok t ↔ NamedBy t (lower (trim text.toList)) :=
  ⟨namedBy_of_ofText, ofText_of_namedBy⟩

theorem isNested_of_namedBy {t : ColumnType} {name : List Char} (h : NamedBy t name) : t.isNested = false := by
  cases h with
  | listed mem =>
    have hNames : ∀ named ∈ names, named.2.isNested = false := by decide
    exact hNames _ mem
  | decimal => rfl

theorem isNested_of_ofText {text : String} {t : ColumnType} (h : ofText text = .ok t) :
    t.isNested = false :=
  isNested_of_namedBy (namedBy_of_ofText h)

end ColumnType

theorem Bucketer.canBucket_iff_of_not_isNested {t : ColumnType} (h : t.isNested = false) :
    canBucket t = true ↔ t ≠ .boolean := by
  cases t with
  | boolean => exact ⟨nofun, fun hType => absurd rfl hType⟩
  | record fields | list item | map key value => cases h
  | _ => exact ⟨fun _ => nofun, fun _ => rfl⟩

end Bucketing
