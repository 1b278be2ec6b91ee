import Quorum.Numeral.Literal
import Quorum.Proofs.Numeral.Decimal
import Quorum.Proofs.Numeral.DigitLimit

/-!
# Literals with underscores

The integer literals of settings (`SpellsUnderscored`) are an optional sign and decimal digits of any
script, so many at most, with single underscores between them at will. Those that are read as an
integer are its literals with blanks around (`boundedLiteral?_eq_some_iff`). In base ten no letter is
a digit (`literalDigit?_ten`), and none repeats the base (`dropBaseMark_ten`).
-/

namespace Quorum.Numeral

open Quorum.Text (digitValue? isBlank)

/-- The text is decimal digits of the values, with single underscores between them at will. -/
inductive Underscored : List Char → List Nat → Prop
  | single {c : Char} {d : Nat} (hc : IsDecimal c d) : Underscored [c] [d]
  | cons {c : Char} {d : Nat} {r : List Char} {ds : List Nat} (hc : IsDecimal c d)
    (hr : Underscored r ds) : Underscored (c :: r) (d :: ds)
  | underscore {c : Char} {d : Nat} {r : List Char} {ds : List Nat} (hc : IsDecimal c d)
    (hr : Underscored r ds) : Underscored (c :: '_' :: r) (d :: ds)

/-- The text writes the number in so many digits at most. Zeros in front are counted. -/
def WritesUnderscored (most : Nat) (text : List Char) (n : Nat) : Prop :=
  ∃ ds, Underscored text ds ∧ ds.length ≤ most ∧ n = Nat.ofDigits 10 ds.reverse

/-- The literals of an integer with so many digits at most. -/
inductive SpellsUnderscored (most : Nat) : List Char → Int → Prop
  | plain {digits : List Char} {n : Nat} (h : WritesUnderscored most digits n) :
    SpellsUnderscored most digits n
  | plus {digits : List Char} {n : Nat} (h : WritesUnderscored most digits n) :
    SpellsUnderscored most ('+' :: digits) n
  | minus {digits : List Char} {n : Nat} (h : WritesUnderscored most digits n) :
    SpellsUnderscored most ('-' :: digits) (-n)

/-- The text is the inner one with blanks of literals around it. -/
def PadsLiteral (inner text : List Char) : Prop :=
  ∃ before after, (∀ c ∈ before, isLiteralBlank c = true) ∧
    (∀ c ∈ after, isLiteralBlank c = true) ∧ text = before ++ inner ++ after

/-! ## Digits -/

theorem literalDigit?_ten {c : Char} {d : Nat} :
    literalDigit? 10 c = some d ↔ IsDecimal c d := by
  rw [← digitValue?_eq_some_iff, literalDigit?, Option.filter_eq_some_iff, Option.or_eq_some_iff]
  constructor
  · rintro ⟨h | ⟨hn, hl⟩, hd⟩
    · exact h
    · -- The letters that stand for less than ten are the ASCII digits.
      have hd : d < 10 := by simpa using hd
      have hc := (isDigit_iff_isDecimal (toNat_lt_of_letterValue? hl) hd).1
        (letterValue?_eq_some_iff.1 hl)
      rw [digitValue?_eq_some_iff.2 hc] at hn
      cases hn
  · intro h
    exact ⟨.inl h, by simpa using (digitValue?_eq_some_iff.1 h).lt⟩

theorem dropBaseMark_ten (s : List Char) : dropBaseMark 10 s = s := by
  have hr : ∀ c, repeatsBase 10 c = false := fun _ => rfl
  unfold dropBaseMark
  split
  · rw [hr]
    rfl
  · rfl

theorem Underscored.ne_nil {text : List Char} {ds : List Nat} (h : Underscored text ds) :
    text ≠ [] := by
  cases h <;> exact List.cons_ne_nil _ _

theorem Underscored.digit_or_underscore {text : List Char} {ds : List Nat}
    (h : Underscored text ds) : ∀ c ∈ text, c = '_' ∨ ∃ d, IsDecimal c d := by
  induction h with
  | single hc => simpa using .inr ⟨_, hc⟩
  | cons hc _ ih => exact List.forall_mem_cons.2 ⟨.inr ⟨_, hc⟩, ih⟩
  | underscore hc _ ih =>
    exact List.forall_mem_cons.2 ⟨.inr ⟨_, hc⟩, List.forall_mem_cons.2 ⟨.inl rfl, ih⟩⟩

theorem Underscored.head_isDecimal {c : Char} {r : List Char} {ds : List Nat}
    (h : Underscored (c :: r) ds) : ∃ d, IsDecimal c d := by
  cases h with
  | single hc | cons hc | underscore hc => exact ⟨_, hc⟩

theorem underscoredDigits?_eq_some_iff {s : List Char} {ds : List Nat} :
    underscoredDigits? 10 s = some ds ↔ Underscored s ds := by
  constructor
  · intro h
    fun_induction underscoredDigits? 10 s generalizing ds with
    | case1 => cases h
    | case2 c =>
      obtain ⟨d, hd, rfl⟩ := Option.map_eq_some_iff.1 h
      exact .single (literalDigit?_ten.1 hd)
    | case3 c r ih =>
      obtain ⟨d, hd, h⟩ := Option.bind_eq_some_iff.1 h
      obtain ⟨ds, hr, h⟩ := Option.bind_eq_some_iff.1 h
      cases h
      exact .underscore (literalDigit?_ten.1 hd) (ih hr)
    | case4 c r _ _ ih =>
      obtain ⟨d, hd, h⟩ := Option.bind_eq_some_iff.1 h
      obtain ⟨ds, hr, h⟩ := Option.bind_eq_some_iff.1 h
      cases h
      exact .cons (literalDigit?_ten.1 hd) (ih hr)
  · intro h
    induction h with
    | single hc => rw [underscoredDigits?, literalDigit?_ten.2 hc]; rfl
    | underscore hc _ ih => rw [underscoredDigits?, literalDigit?_ten.2 hc, ih]; rfl
    | @cons c d r ds hc hr ih =>
      obtain ⟨e, t, rfl⟩ := List.exists_cons_of_ne_nil hr.ne_nil
      obtain ⟨_, he⟩ := hr.head_isDecimal
      rw [underscoredDigits?, literalDigit?_ten.2 hc, ih]
      · rfl
      · simp
      · exact fun r h => he.ne (a := '_') rfl (List.cons.inj h).1

theorem writesUnderscored_iff {most n : Nat} {s : List Char} :
    WritesUnderscored most s n ↔
      ∃ ds, underscoredDigits? 10 s = some ds ∧ ds.length ≤ most ∧ ofDigits 10 ds = n := by
  simp only [WritesUnderscored, underscoredDigits?_eq_some_iff, ofDigits_eq, eq_comm (a := n)]

/-! ## Literals -/

/-- A literal is a sign, or none, and digits. -/
theorem spellsUnderscored_iff {most : Nat} {s : List Char} {v : Int} :
    SpellsUnderscored most s v ↔
      ∃ n, WritesUnderscored most (splitSign s).2 n ∧ signed (splitSign s).1 n = v := by
  constructor
  · intro h
    cases h with
    | @plain _ n h =>
      obtain ⟨ds, hd, -, -⟩ := id h
      obtain ⟨c, r, rfl⟩ := List.exists_cons_of_ne_nil hd.ne_nil
      obtain ⟨d, hc⟩ := hd.head_isDecimal
      rw [splitSign_cons (hc.ne rfl) (hc.ne rfl)]
      exact ⟨n, h, rfl⟩
    | plus h => exact ⟨_, h, rfl⟩
    | minus h => exact ⟨_, h, rfl⟩
  · rintro ⟨n, hw, rfl⟩
    exact of_splitSign (p := SpellsUnderscored most) .plain .plus .minus hw

theorem not_isLiteralBlank {c : Char} (h : isBlank c = false) : isLiteralBlank c = false := by
  rw [isLiteralBlank, h, Bool.false_and]

theorem SpellsUnderscored.not_isLiteralBlank {most : Nat} {s : List Char} {v : Int}
    (h : SpellsUnderscored most s v) : ∀ c ∈ s, isLiteralBlank c = false := by
  have hd : ∀ {digits n}, WritesUnderscored most digits n →
      ∀ c ∈ digits, isLiteralBlank c = false := by
    rintro digits n ⟨ds, hw, -, -⟩ c hc
    rcases hw.digit_or_underscore c hc with rfl | ⟨d, hd⟩
    · decide
    · exact Numeral.not_isLiteralBlank (not_isBlank_of_isDecimal hd)
  cases h with
  | plain h => exact hd h
  | plus h | minus h => exact List.forall_mem_cons.2 ⟨by decide, hd h⟩

theorem trimLiteral_eq_iff {inner text : List Char} (h : ∀ c ∈ inner, isLiteralBlank c = false) :
    trimLiteral text = inner ↔ PadsLiteral inner text := by
  constructor
  · rintro rfl
    exact Text.exists_around_dropWhile isLiteralBlank text
  · rintro ⟨before, after, hb, ha, rfl⟩
    exact Text.dropWhile_around hb h ha

/-- What is read as an integer is its literals, with blanks around at will. -/
theorem boundedLiteral?_eq_some_iff {most : Nat} {s : List Char} {v : Int} :
    boundedLiteral? (.most most) 10 s = some v ↔ ∃ t, PadsLiteral t s ∧ SpellsUnderscored most t v := by
  have ht : boundedLiteral? (.most most) 10 s = some v ↔ SpellsUnderscored most (trimLiteral s) v := by
    rw [spellsUnderscored_iff, boundedLiteral?, literalDigits?]
    simp only [writesUnderscored_iff, dropBaseMark_ten]
    cases underscoredDigits? 10 (splitSign (trimLiteral s)).2 with
    | none => simp
    | some ds =>
      by_cases hm : ds.length ≤ most <;>
        simp [hm, DigitLimit.exceeded?_eq_none_iff, DigitLimit.allows_most_iff]
  rw [ht]
  constructor
  · exact fun h => ⟨_, Text.exists_around_dropWhile isLiteralBlank s, h⟩
  · rintro ⟨t, hp, h⟩
    rwa [(trimLiteral_eq_iff h.not_isLiteralBlank).2 hp]

end Quorum.Numeral
