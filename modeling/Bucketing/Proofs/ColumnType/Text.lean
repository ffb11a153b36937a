import Bucketing.Proofs.ColumnType.Naming

/-! # Types read back from their text

The text of a type that has a name is a name of this type once it is in lower case, and it has no blanks.
So it is read as the type whatever the case of its letters, and with blanks around it.
-/
namespace Bucketing.ColumnType

open Numeral ScientificNumeral Text

section Display

variable {t : ColumnType} {name : List Char}

theorem text_decimal (precision : UInt8) (scale : Int8) :
    (ColumnType.decimal precision scale).text =
      "Decimal128(".toList ++ write precision.toNat ++ ',' :: write scale.toInt ++ [')'] := by
  rw [write_natCast]
  rfl

theorem toList_toString (t : ColumnType) : (toString t).toList = t.text := String.toList_ofList

theorem namedBy_text (h : NamedBy t name) : NamedBy t (lower t.text) := by
  cases h with
  | listed mem =>
    have hNames : ∀ named ∈ names, (String.ofList (lower named.2.text), named.2) ∈ names := by decide
    have hListed := NamedBy.listed (hNames _ mem)
    rwa [String.toList_ofList] at hListed
  | @decimal precision scale lead left right isLead admitted precision_spelled scale_spelled =>
    have hText : lower (ColumnType.decimal precision scale).text =
        "decimal128(".toList ++ write precision.toNat ++ ',' :: write scale.toInt ++ [')'] := by
      rw [text_decimal, lower_append, lower_append, lower_append, lower_write, lower_cons, lower_write]
      rfl
    rw [hText]
    refine .decimal (by decide) admitted ?_ ?_
    · rw [trim_eq_self (any_isBlank_write precision.toNat)]
      exact spellsInteger_write precision.toNat
    · rw [trim_eq_self (any_isBlank_write scale.toInt)]
      exact spellsInteger_write scale.toInt

theorem any_isBlank_text (h : NamedBy t name) : t.text.any isBlank = false := by
  cases h with
  | listed mem =>
    have hNames : ∀ named ∈ names, named.2.text.any isBlank = false := by decide
    exact hNames _ mem
  | @decimal precision scale lead left right isLead admitted precision_spelled scale_spelled =>
    rw [text_decimal, List.any_append, List.any_append, List.any_append, List.any_cons, any_isBlank_write,
      any_isBlank_write]
    rfl

theorem ofText_recased (h : NamedBy t name) {before recased after : List Char}
    (hBefore : before.all isBlank = true) (hAfter : after.all isBlank = true)
    (hRecased : lower recased = lower t.text) :
    ofText (String.ofList (before ++ recased ++ after)) = .ok t := by
  have hBlank : recased.any isBlank = false := by
    rw [← any_isBlank_lower, hRecased, any_isBlank_lower, any_isBlank_text h]
  rw [ofText_eq_ok_iff, String.toList_ofList, trim_append hBefore hAfter, trim_eq_self hBlank, hRecased]
  exact namedBy_text h

end Display

/-- A text is never read as a nested type, nor as a decimal type whose precision no decimal has. It is
read as a decimal type exactly if its name opens the parameters in one of two ways and closes them behind
the numerals of the precision and the scale, with a comma between. And where it is read as some type, the
text written for this type is read as the type too, with any letters in upper or lower case and any blanks
around it. -/
theorem ofText_grammar (s : String) :
    (∀ t, ofText s = .ok t → t.isNested = false ∧
      ∀ precision scale, t = .decimal precision scale → 1 ≤ precision.toNat ∧ precision.toNat ≤ 38) ∧
      (∀ precision scale, ofText s = .ok (.decimal precision scale) ↔
        (1 ≤ precision.toNat ∧ precision.toNat ≤ 38) ∧ ∃ lead ∈ ["decimal(", "decimal128("], ∃ left right,
          lower (trim s.toList) = lead.toList ++ left ++ ',' :: right ++ [')'] ∧
            SpellsInteger precision.toNat (trim left) ∧ SpellsInteger scale.toInt (trim right)) ∧
      ∀ t, ofText s = .ok t → ∀ before recased after : List Char,
        before.all isBlank = true → after.all isBlank = true → lower recased = lower (toString t).toList →
          ofText (String.ofList (before ++ recased ++ after)) = .ok t := by
  refine ⟨fun t h => ⟨isNested_of_ofText h, ?_⟩, fun precision scale => ?_, ?_⟩
  · rintro precision scale rfl
    exact (namedBy_decimal_iff.mp (ofText_eq_ok_iff.mp h)).1
  · rw [ofText_eq_ok_iff, namedBy_decimal_iff]
    rfl
  · intro t h before recased after hBefore hAfter hRecased
    rw [toList_toString] at hRecased
    exact ofText_recased (ofText_eq_ok_iff.mp h) hBefore hAfter hRecased

/-- Blanks, a sign and a leading zero in a text, and the text of its type in other letters. -/
theorem ofText_grammar_padded :
    ofText " DECIMAL( +9 ,\t-02)\n" = .ok (.decimal 9 (-2)) ∧
      ofText "\n dEcImAl128(9,-2) " = .ok (.decimal 9 (-2)) := by
  have hText : ofText " DECIMAL( +9 ,\t-02)\n" = .ok (.decimal 9 (-2)) := by
    refine ((ofText_grammar _).2.1 9 (-2)).mpr ⟨by decide, "decimal(", by decide, " +9 ".toList,
      "\t-02".toList, by decide, ?_, ?_⟩
    · exact .intro (.plus "9".toList) (by decide) (by decide)
    · exact .intro (.minus "02".toList) (by decide) (by decide)
  exact ⟨hText, (ofText_grammar _).2.2 _ hText "\n ".toList "dEcImAl128(9,-2)".toList " ".toList (by decide)
    (by decide) (by decide)⟩

end Bucketing.ColumnType
