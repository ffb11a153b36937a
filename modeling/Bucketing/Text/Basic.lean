/-! # Texts

Blanks cut off both ends of a text, letter case, what a text starts or ends with, and text between
double quotes.
-/
namespace Bucketing.Text

/-- The characters with the Unicode property White_Space. -/
def isBlank (c : Char) : Bool :=
  let n := c.toNat
  (9 ≤ n && n ≤ 13) || n == 0x20 || n == 0x85 || n == 0xa0 || n == 0x1680 ||
    (0x2000 ≤ n && n ≤ 0x200a) || n == 0x2028 || n == 0x2029 || n == 0x202f || n == 0x205f ||
    n == 0x3000

def dropBlanksRight (text : List Char) : List Char := (text.reverse.dropWhile isBlank).reverse

def trim (text : List Char) : List Char := dropBlanksRight (text.dropWhile isBlank)

/-- Only the letters `A` to `Z` change. -/
def lower (text : List Char) : List Char := text.map Char.toLower

/-- What follows `lead` at the start of a text. -/
def after? : List Char → List Char → Option (List Char)
  | [], text => some text
  | c :: lead, d :: text => if c = d then after? lead text else none
  | _ :: _, [] => none

theorem after?_eq_some_iff (lead text rest : List Char) :
    after? lead text = some rest ↔ text = lead ++ rest := by
  induction lead generalizing text with
  | nil => simp [after?]
  | cons c lead ih =>
    cases text with
    | nil => simp [after?]
    | cons d text =>
      by_cases h : c = d
      · simp [after?, h, ih]
      · simp [after?, h, Ne.symm h]

/-- What precedes `tail` at the end of a text. -/
def before? (tail text : List Char) : Option (List Char) :=
  (after? tail.reverse text.reverse).map List.reverse

theorem before?_eq_some_iff (tail text rest : List Char) :
    before? tail text = some rest ↔ text = rest ++ tail := by
  simp only [before?, Option.map_eq_some_iff, after?_eq_some_iff]
  constructor
  · rintro ⟨_, h, rfl⟩
    simpa using congrArg List.reverse h
  · rintro rfl
    exact ⟨rest.reverse, by simp, by simp⟩

/-- The parts on both sides of the first `mark`. -/
def cut? (mark : Char) : List Char → Option (List Char × List Char)
  | [] => none
  | c :: text => if c = mark then some ([], text) else (cut? mark text).map fun (l, r) => (c :: l, r)

theorem cut?_eq_some_iff (mark : Char) (text left right : List Char) :
    cut? mark text = some (left, right) ↔ text = left ++ mark :: right ∧ mark ∉ left := by
  induction text generalizing left with
  | nil => simp [cut?]
  | cons c text ih =>
    by_cases h : c = mark
    · subst h
      cases left <;> simp_all [cut?]
    · cases left with
      | nil => simp [cut?, h]
      | cons d left =>
        simp only [cut?, h, ↓reduceIte, Option.map_eq_some_iff, Prod.exists, Prod.mk.injEq,
          List.cons.injEq, List.cons_append, List.mem_cons, not_or]
        constructor
        · rintro ⟨l, r, hl, ⟨rfl, rfl⟩, rfl⟩
          obtain ⟨rfl, hm⟩ := (ih l).mp hl
          exact ⟨⟨rfl, rfl⟩, Ne.symm h, hm⟩
        · rintro ⟨⟨rfl, rfl⟩, _, hm⟩
          exact ⟨left, right, (ih left).mpr ⟨rfl, hm⟩, ⟨rfl, rfl⟩, rfl⟩

/-! ## Quoted text

Quotes, backslashes and control characters stand behind a backslash.
-/

def escape : Char → List Char
  | '"' => ['\\', '"']
  | '\\' => ['\\', '\\']
  | '\n' => ['\\', 'n']
  | '\r' => ['\\', 'r']
  | '\t' => ['\\', 't']
  | '\x00' => ['\\', '0']
  | c =>
    if c.toNat < 0x20 ∨ c.toNat = 0x7f then
      '\\' :: 'u' :: '{' :: Nat.toDigits 16 c.toNat ++ ['}']
    else [c]

def quote (text : List Char) : List Char := '"' :: text.flatMap escape ++ ['"']

end Bucketing.Text
