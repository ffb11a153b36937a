import Bucketing.Proofs.Record.PhysicalOrder

/-! # Canonical texts cut at their separators

In a canonical text a separator closes every name and every value. Where no name and no string holds
one, no other value does, and the text can be cut into names and values again, whatever the type of
the record.
-/
namespace Bucketing.Record

/-- The name of a field and how its value reads; a null does not read at all. -/
def shown (c : Field × Value) : String × List Char :=
  (c.1.name, if c.2.isNull then [] else c.2.text)

/-- Neither the name of the field nor a string in it holds the separator. -/
def Unmarked (c : Field × Value) : Prop :=
  separator ∉ c.1.name.toList ∧ ∀ s : String, c.2 = .utf8 s → separator ∉ s.toList

def closed (p : String × List Char) : List Char :=
  p.1.toList ++ separator :: p.2 ++ [separator]

theorem flatMap_writtenCell (r : Record) : r.flatMap writtenCell = (r.map shown).flatMap closed := by
  rw [List.flatMap_map]
  rfl

/-- Only the separators that close a pair stand in the text. -/
theorem flatMap_closed_inj {l m : List (String × List Char)}
    (hl : ∀ p ∈ l, separator ∉ p.1.toList ∧ separator ∉ p.2)
    (hm : ∀ p ∈ m, separator ∉ p.1.toList ∧ separator ∉ p.2) :
    l.flatMap closed = m.flatMap closed ↔ l = m := by
  constructor
  · intro h
    induction l generalizing m with
    | nil =>
      cases m with
      | nil => rfl
      | cons q m => simp [closed] at h
    | cons p l ih =>
      cases m with
      | nil => simp [closed] at h
      | cons q m =>
        obtain ⟨⟨hpName, hpText⟩, hl⟩ := List.forall_mem_cons.mp hl
        obtain ⟨⟨hqName, hqText⟩, hm⟩ := List.forall_mem_cons.mp hm
        simp only [List.flatMap_cons, closed, List.append_assoc, List.cons_append, List.nil_append] at h
        obtain ⟨hName, h⟩ := append_mark_inj
          (by rw [List.count_eq_zero_of_not_mem hpName, List.count_eq_zero_of_not_mem hqName]) h
        obtain ⟨hText, h⟩ := append_mark_inj
          (by rw [List.count_eq_zero_of_not_mem hpText, List.count_eq_zero_of_not_mem hqText]) h
        rw [ih hl hm h, Prod.ext (String.toList_inj.mp hName) hText]
  · rintro rfl
    rfl

theorem separator_not_mem_shown {c : Field × Value} (hFits : c.2.fits c.1.type = true)
    (hNested : c.1.type.isNested = false) (h : Unmarked c) :
    separator ∉ (shown c).1.toList ∧ separator ∉ (shown c).2 := by
  obtain ⟨f, v⟩ := c
  refine ⟨h.1, ?_⟩
  rw [shown]
  split
  · exact List.not_mem_nil
  · cases v with
    | utf8 s => exact h.2 s rfl
    | _ => exact separator_not_mem_text hFits hNested (by simp [Value.kind?])

theorem canonicalText_eq_ok_closed {r : Record} (hMake : ofPairs r = .ok r) (hFlat : Flat r) :
    canonicalText r = .ok (((cellsById r).map shown).flatMap closed) := by
  obtain ⟨hDiffer, -, -⟩ := (ofPairs_eq_ok_iff r r).mp hMake
  rw [canonicalText_eq_ok hFlat, flatMap_canonicalCell hDiffer, flatMap_writtenCell]

theorem separator_not_mem_of_mem_shown {r : Record} (hMake : ofPairs r = .ok r) (hFlat : Flat r)
    (h : ∀ c ∈ r, Unmarked c) :
    ∀ p ∈ (cellsById r).map shown, separator ∉ p.1.toList ∧ separator ∉ p.2 := by
  obtain ⟨-, hCells, -⟩ := (ofPairs_eq_ok_iff r r).mp hMake
  intro p hp
  obtain ⟨c, hc, rfl⟩ := List.mem_map.mp hp
  have hMem := (cellsById_perm r).mem_iff.mp hc
  exact separator_not_mem_shown ((checkCell_eq_ok_iff _ _).mp (hCells c hMem)).2
    (hFlat c.1 (List.mem_map_of_mem hMem)) (h c hMem)

/-- Flat records, of one type or of different types, whose names and strings are without the
separator have one canonical text exactly if their cells, in the order of the identifiers, show the
same names and the same texts. -/
theorem canonicalText_eq_iff_shown {a b : Record} (ha : ofPairs a = .ok a) (hb : ofPairs b = .ok b)
    (hFlatA : Flat a) (hFlatB : Flat b) (hUnmarkedA : ∀ c ∈ a, Unmarked c)
    (hUnmarkedB : ∀ c ∈ b, Unmarked c) :
    canonicalText a = canonicalText b ↔
      a.length = b.length ∧ (cellsById a).map shown = (cellsById b).map shown := by
  rw [canonicalText_eq_ok_closed ha hFlatA, canonicalText_eq_ok_closed hb hFlatB, Except.ok.injEq,
    flatMap_closed_inj (separator_not_mem_of_mem_shown ha hFlatA hUnmarkedA)
      (separator_not_mem_of_mem_shown hb hFlatB hUnmarkedB)]
  refine ⟨fun h => ⟨?_, h⟩, And.right⟩
  have hLength := congrArg List.length h
  rwa [List.length_map, List.length_map, (cellsById_perm a).length_eq, (cellsById_perm b).length_eq]
    at hLength

/-- The record `reading` under other identifiers and types, with an empty string for the null. -/
def relabelled : Record :=
  [(⟨9, "unit", .utf8, false⟩, .utf8 ""), (⟨0, "degrees", .int64, true⟩, .int64 (-7)),
    (⟨3, "place", .utf8, true⟩, .utf8 "roof")]

theorem shown_relabelled :
    fields reading ≠ fields relabelled ∧ canonicalText reading = canonicalText relabelled ∧
      (cellsById reading).map shown = (cellsById relabelled).map shown := by
  have hText : canonicalText reading = canonicalText relabelled := rfl
  have hReading : ∀ c ∈ reading, Unmarked c := by
    simp [reading, Unmarked, separator]
  have hRelabelled : ∀ c ∈ relabelled, Unmarked c := by
    simp [relabelled, Unmarked, separator]
  exact ⟨by decide, hText, ((canonicalText_eq_iff_shown (a := reading) (b := relabelled) rfl rfl
    (by decide) (by decide) hReading hRelabelled).mp hText).2⟩

end Bucketing.Record
