import Quorum.Proofs.Formula.Substitution

/-!
# Values of templates

A template is a number in which variables stand for digits. For a variable that is not negative,
each of its letters adds the digits of the variable to what is in front of it (`Expands`), behind
a sign or none; a negative one brings its own sign, so it stands in front and there alone
(`Amounts`). Both are said without the text that the replacement gives, which
`spellsDecimal_substitute_iff` has for the two of them.
-/

namespace Quorum.Formula

open Quorum.Numeral (IsDecimal SpellsDecimal Writes decimal natDigits splitSign splitSign_cases
  spellsDecimal_decimal spellsDecimal_iff writes_natDigits)
open Quorum.Text (trim)

/-- The character is a decimal digit or the variable. -/
def DigitOrVariable (c : Char) : Prop :=
  c = variableLetter ∨ ∃ d, IsDecimal c d

/-- The text, of digits and variables, is the number where each variable stands for the decimal
digits of `x`. -/
inductive Expands (x : Nat) : List Char → Nat → Prop
  | nil : Expands x [] 0
  | digit {t : List Char} {n d : Nat} {c : Char} (h : Expands x t n) (hc : IsDecimal c d) :
    Expands x (t ++ [c]) (10 * n + d)
  | letter {t : List Char} {n : Nat} (h : Expands x t n) :
    Expands x (t ++ [variableLetter]) (n * 10 ^ (natDigits x).length + x)

/-- The template is the integer where the variable is `x`. -/
inductive Amounts (x : Int) : List Char → Int → Prop
  | plain {t : List Char} {n : Nat} (h0 : 0 ≤ x) (ht : t ≠ []) (h : Expands x.toNat t n) :
    Amounts x t n
  | plus {t : List Char} {n : Nat} (h0 : 0 ≤ x) (ht : t ≠ []) (h : Expands x.toNat t n) :
    Amounts x ('+' :: t) n
  | minus {t : List Char} {n : Nat} (h0 : 0 ≤ x) (ht : t ≠ []) (h : Expands x.toNat t n) :
    Amounts x ('-' :: t) (-n)
  | negative {digits : List Char} {n : Nat} (hx : x < 0)
    (h : Writes IsDecimal 10 (natDigits x.natAbs ++ digits) n) :
    Amounts x (variableLetter :: digits) (-n)

variable {limit x : Int}

/-! ## Texts of digits and variables -/

theorem Expands.digitOrVariable {x n : Nat} {t : List Char} (h : Expands x t n) :
    ∀ c ∈ t, DigitOrVariable c := by
  induction h with
  | nil => exact nofun
  | digit _ hc ih => exact List.forall_mem_append.2 ⟨ih, List.forall_mem_singleton.2 (.inr ⟨_, hc⟩)⟩
  | letter _ ih => exact List.forall_mem_append.2 ⟨ih, List.forall_mem_singleton.2 (.inl rfl)⟩

theorem exists_expands (x : Nat) {t : List Char} (h : ∀ c ∈ t, DigitOrVariable c) :
    ∃ n, Expands x t n := by
  induction t using List.reverseRecOn with
  | nil => exact ⟨0, .nil⟩
  | append_singleton r c ih =>
    obtain ⟨hr, hc⟩ := List.forall_mem_append.1 h
    obtain ⟨n, hn⟩ := ih hr
    rcases List.forall_mem_singleton.1 hc with rfl | ⟨d, hd⟩
    · exact ⟨_, hn.letter⟩
    · exact ⟨_, hn.digit hd⟩

theorem substitute_letter (s : List Char) :
    substitute x (variableLetter :: s) = decimal x ++ substitute x s := by
  simp [substitute]

theorem decimal_natCast (x : Nat) : decimal x = natDigits x := by
  simp [decimal]

/-- With the digits written for the variables, a text writes the number that it expands to. -/
theorem Expands.writes {x n : Nat} {t : List Char} (h : Expands x t n) :
    t = [] ∧ n = 0 ∨ Writes IsDecimal 10 (substitute x t) n := by
  induction h with
  | nil => exact .inl ⟨rfl, rfl⟩
  | @digit t n d c _ hc ih =>
    have hx : 'x' ∉ [c] := List.mem_singleton.not.2 (hc.ne (by decide)).symm
    rw [substitute_append, substitute_of_notMem hx]
    rcases ih with ⟨rfl, rfl⟩ | ih
    · exact .inr (by simpa [substitute] using Writes.singleton hc.lt hc)
    · exact .inr (ih.concat hc.lt hc)
  | letter _ ih =>
    rw [substitute_append, substitute_letter, decimal_natCast,
      substitute_of_notMem List.not_mem_nil, List.append_nil]
    rcases ih with ⟨rfl, rfl⟩ | ih
    · exact .inr (by simpa [substitute] using writes_natDigits x)
    · exact .inr (ih.append (writes_natDigits x))

theorem mem_substitute {c : Char} {t : List Char} (h : c ∈ t) (hc : c ≠ 'x') :
    c ∈ substitute x t :=
  List.mem_flatMap.2 ⟨c, h, by simp [variableLetter, hc]⟩

theorem writes_substitute_iff {x n : Nat} {t : List Char} :
    Writes IsDecimal 10 (substitute x t) n ↔ t ≠ [] ∧ Expands x t n := by
  constructor
  · intro h
    have ht : t ≠ [] := by
      rintro rfl
      exact h.ne_nil rfl
    have hc : ∀ c ∈ t, DigitOrVariable c := by
      intro c hc
      by_cases hx : c = 'x'
      · exact .inl hx
      · exact .inr ((h.exists_digit c (mem_substitute hc hx)).imp fun _ hd => hd.2)
    obtain ⟨m, hm⟩ := exists_expands x hc
    have hw := hm.writes.resolve_left fun h => ht h.1
    exact ⟨ht, h.unique hw ▸ hm⟩
  · rintro ⟨ht, h⟩
    exact h.writes.resolve_left fun h => ht h.1

/-! ## Signs -/

/-- Digits in the place of variables are no sign. -/
theorem splitSign_substitute (x : Nat) (t : List Char) :
    splitSign (substitute x t) = ((splitSign t).1, substitute x (splitSign t).2) := by
  rcases splitSign_cases t with ⟨r, rfl, -⟩ | ⟨r, rfl, -⟩ | hs
  · rw [substitute_cons (by decide)]
    rfl
  · rw [substitute_cons (by decide)]
    rfl
  · rw [hs]
    rcases t with _ | ⟨c, r⟩
    · rfl
    by_cases hc : c = 'x'
    · subst hc
      obtain ⟨c, s, hs⟩ := List.exists_cons_of_ne_nil (writes_natDigits x).ne_nil
      obtain ⟨d, -, hd⟩ := (writes_natDigits x).exists_digit c (by simp [hs])
      rw [← variableLetter, substitute_letter, decimal_natCast, hs]
      exact Numeral.splitSign_cons (hd.ne (by decide)) (hd.ne (by decide))
    · rw [substitute_cons hc]
      refine Numeral.splitSign_cons ?_ ?_
      · rintro rfl
        cases hs
      · rintro rfl
        cases hs

theorem decimal_of_neg (hx : x < 0) : decimal x = '-' :: natDigits x.natAbs :=
  if_pos hx

theorem Amounts.spellsDecimal {t : List Char} {v : Int} (h : Amounts x t v) :
    SpellsDecimal (substitute x t) v := by
  have hw : ∀ {t n}, 0 ≤ x → t ≠ [] → Expands x.toNat t n →
      Writes IsDecimal 10 (substitute x t) n := by
    intro t n h0 ht h
    rw [← Int.toNat_of_nonneg h0]
    exact writes_substitute_iff.2 ⟨ht, h⟩
  cases h with
  | plain h0 ht h => exact .plain (hw h0 ht h)
  | plus h0 ht h =>
    rw [substitute_cons (by decide)]
    exact .plus (hw h0 ht h)
  | minus h0 ht h =>
    rw [substitute_cons (by decide)]
    exact .minus (hw h0 ht h)
  | @negative digits n hx h =>
    have hd : 'x' ∉ digits := by
      intro hm
      obtain ⟨d, -, hd⟩ := h.exists_digit 'x' (List.mem_append_right _ hm)
      exact hd.ne (by decide) rfl
    rw [substitute_letter, decimal_of_neg hx, substitute_of_notMem hd, List.cons_append]
    exact .minus h

/-- A sign that the variable brings stands in front only if the variable does, and no other one
follows. -/
theorem eq_letter_cons {t : List Char} {v : Int} (hx : x < 0) (ht : variableLetter ∈ t)
    (h : SpellsDecimal (substitute x t) v) :
    ∃ digits, t = variableLetter :: digits ∧ variableLetter ∉ digits := by
  have hm : '-' ∉ (substitute x t).tail := by
    intro hm
    obtain ⟨d, hd⟩ := h.isDecimal_of_mem_tail '-' hm
    exact hd.ne (by decide) rfl
  obtain ⟨before, after, rfl, hb⟩ := List.eq_append_cons_of_mem ht
  rw [substitute_append, substitute_of_notMem hb, substitute_letter, decimal_of_neg hx] at hm
  cases before with
  | nil =>
    refine ⟨after, rfl, fun ha => hm ?_⟩
    obtain ⟨s, u, rfl⟩ := List.append_of_mem ha
    simp [substitute_append, substitute_letter, decimal_of_neg hx]
  | cons c r => exact absurd (by simp) hm

/-- A template writes an integer, once its variables are replaced, exactly if it is that integer. -/
theorem spellsDecimal_substitute_iff {t : List Char} {v : Int} (ht : variableLetter ∈ t) :
    SpellsDecimal (substitute x t) v ↔ Amounts x t v := by
  refine ⟨fun h => ?_, Amounts.spellsDecimal⟩
  rcases lt_or_ge x 0 with hx | h0
  · obtain ⟨digits, rfl, hd⟩ := eq_letter_cons hx ht h
    rw [substitute_letter, decimal_of_neg hx, substitute_of_notMem hd] at h
    obtain ⟨n, hn, rfl⟩ := spellsDecimal_iff.1 h
    exact .negative hx hn
  · rw [← Int.toNat_of_nonneg h0] at h
    obtain ⟨n, hn, rfl⟩ := spellsDecimal_iff.1 h
    rw [splitSign_substitute, writes_substitute_iff] at hn
    rw [splitSign_substitute]
    obtain ⟨hne, hn⟩ := hn
    rcases splitSign_cases t with ⟨r, rfl, -⟩ | ⟨r, rfl, -⟩ | hs
    · exact .minus h0 hne hn
    · exact .plus h0 hne hn
    · rw [hs] at hne hn ⊢
      exact .plain h0 hne hn

/-! ## Templates -/

theorem exists_amounts_iff_of_nonneg {t : List Char} (h0 : 0 ≤ x) :
    (∃ v, Amounts x t v) ↔ ∃ sign body, sign ∈ [[], ['+'], ['-']] ∧ t = sign ++ body ∧
      body ≠ [] ∧ ∀ c ∈ body, DigitOrVariable c := by
  constructor
  · rintro ⟨v, h⟩
    cases h with
    | plain _ ht h => exact ⟨[], _, by simp, rfl, ht, h.digitOrVariable⟩
    | plus _ ht h => exact ⟨['+'], _, by simp, rfl, ht, h.digitOrVariable⟩
    | minus _ ht h => exact ⟨['-'], _, by simp, rfl, ht, h.digitOrVariable⟩
    | negative hx => exact absurd h0 (not_le.2 hx)
  · rintro ⟨sign, body, hs, rfl, hne, hb⟩
    obtain ⟨n, hn⟩ := exists_expands x.toNat hb
    simp only [List.mem_cons, List.not_mem_nil, or_false] at hs
    rcases hs with rfl | rfl | rfl
    · exact ⟨_, .plain h0 hne hn⟩
    · exact ⟨_, .plus h0 hne hn⟩
    · exact ⟨_, .minus h0 hne hn⟩

theorem exists_amounts_iff_of_neg {t : List Char} (hx : x < 0) :
    (∃ v, Amounts x t v) ↔
      ∃ digits, t = variableLetter :: digits ∧ ∀ c ∈ digits, ∃ d, IsDecimal c d := by
  constructor
  · rintro ⟨v, h⟩
    cases h with
    | plain h0 | plus h0 | minus h0 => exact absurd h0 (not_le.2 hx)
    | negative _ h =>
      refine ⟨_, rfl, fun c hc => ?_⟩
      exact (h.exists_digit c (List.mem_append_right _ hc)).imp fun _ hd => hd.2
  · rintro ⟨digits, rfl, hd⟩
    have hn := writes_natDigits x.natAbs
    have hall : ∀ c ∈ natDigits x.natAbs ++ digits, ∃ d < 10, IsDecimal c d :=
      List.forall_mem_append.2 ⟨hn.exists_digit, fun c hc => (hd c hc).imp fun _ h => ⟨h.lt, h⟩⟩
    obtain ⟨n, hw⟩ := Numeral.exists_writes (List.append_ne_nil_of_left_ne_nil hn.ne_nil _) hall
    exact ⟨_, .negative hx hw⟩

/-- A trimmed text with the variable in it and without parentheses is read as a template. For a
variable that is not negative, it has a value exactly if it consists of digits and variables behind
an optional sign; for a negative one, exactly if it is the variable with digits behind it. -/
theorem evaluate_of_template (limit x : Int) {t : List Char} (ht : trim t = t)
    (hx : variableLetter ∈ t) (ho : '(' ∉ t) (hc : ')' ∉ t) :
    (∀ v, evaluate limit x t = .ok v ↔ Amounts x t v) ∧
      ((∀ v, ¬ Amounts x t v) → evaluate limit x t = .error .templateNotInteger) ∧
      (0 ≤ x → ((∃ v, Amounts x t v) ↔ ∃ sign body, sign ∈ [[], ['+'], ['-']] ∧ t = sign ++ body ∧
        body ≠ [] ∧ ∀ c ∈ body, DigitOrVariable c)) ∧
      (x < 0 → ((∃ v, Amounts x t v) ↔
        ∃ digits, t = variableLetter :: digits ∧ ∀ c ∈ digits, ∃ d, IsDecimal c d)) := by
  have hl : ∀ v, ¬ SpellsDecimal t v :=
    fun v hv => hv.notMem (by decide) (by decide) (by decide) hx
  have hread : read t = .ok (.template t) := by
    refine Spells.read ?_
    rw [ht]
    exact .template ho hc hx hl
  have hv : ∀ v, evaluate limit x t = .ok v ↔ Amounts x t v := by
    intro v
    rw [evaluate, hread, ok_bind, value_template_eq_ok_iff, spellsDecimal_substitute_iff hx]
  refine ⟨hv, fun hn => ?_, exists_amounts_iff_of_nonneg, exists_amounts_iff_of_neg⟩
  rw [evaluate, hread, ok_bind, value_template_eq_error_iff]
  exact ⟨fun v => (spellsDecimal_substitute_iff hx).not.2 (hn v), rfl⟩

/-- Variables around a digit of another script: in a positive number, in a negative one, and where
the second sign has no place. -/
theorem evaluate_of_template_mixed :
    evaluate 0 12 "-x٣x".toList = .ok (-12312) ∧ evaluate 0 (-12) "x٣".toList = .ok (-123) ∧
      evaluate 0 (-12) "x٣x".toList = .error .templateNotInteger := by
  have hthree : IsDecimal '٣' 3 := Numeral.digitValue?_eq_some_iff.1 (by decide)
  refine ⟨?_, ?_, ?_⟩
  · refine ((evaluate_of_template 0 12 (by decide) (by decide) (by decide) (by decide)).1 _).2 ?_
    exact .minus (by decide) (by decide) ((Expands.nil.letter.digit hthree).letter)
  · refine ((evaluate_of_template 0 (-12) (by decide) (by decide) (by decide) (by decide)).1 _).2 ?_
    exact .negative (by decide) ((writes_natDigits 12).concat hthree.lt hthree)
  · obtain ⟨-, herror, -, hneg⟩ :=
      evaluate_of_template 0 (-12) (t := "x٣x".toList) (by decide) (by decide) (by decide)
        (by decide)
    refine herror fun v hv => ?_
    obtain ⟨digits, hd, hall⟩ := (hneg (by decide)).1 ⟨v, hv⟩
    cases hd
    obtain ⟨d, hx⟩ := hall 'x' (by decide)
    exact hx.ne (by decide) rfl

end Quorum.Formula
