import Mathlib
import Quorum.Numeral.Decimal
import Quorum.Proofs.Text.Blank

/-!
# Spellings of integers

What it is to write an integer, said without reading it: `Writes` is a positional notation in
any digits, `Spells` the numerals of a base up to 36.

* `spells_iff`: the spellings of an integer are the numerals with its value;
* `paddedNatural?_eq_some_iff`: the decimal notations, in any script and between blanks, are the
  texts that are read as natural numbers.
-/

namespace Quorum.Numeral

open Quorum.Text (Pads digitValue? digitZeros isBlank trim)

/-- The text writes the number in the base, in characters that are digits as `digit` has it. Zeros
may stand in front. -/
def Writes (digit : Char → Nat → Prop) (base : Nat) (text : List Char) (n : Nat) : Prop :=
  ∃ ds, ds ≠ [] ∧ (∀ d ∈ ds, d < base) ∧ List.Forall₂ digit text ds ∧
    n = Nat.ofDigits base ds.reverse

/-- The digits of all bases, each in the place of its value. -/
def smallDigits : List Char :=
  "0123456789abcdefghijklmnopqrstuvwxyz".toList

def capitalDigits : List Char :=
  "0123456789ABCDEFGHIJKLMNOPQRSTUVWXYZ".toList

/-- The character is the digit of the value, in either case. -/
def IsDigit (c : Char) (d : Nat) : Prop :=
  smallDigits[d]? = some c ∨ capitalDigits[d]? = some c

/-- The character is a decimal digit of the value, in some script. -/
def IsDecimal (c : Char) (d : Nat) : Prop :=
  ∃ z ∈ digitZeros, c.toNat = z + d ∧ d < 10

/-- The numerals of an integer: its digits, with a minus sign if it is negative, and with a plus
sign at will if it is not. Zero may have either sign. -/
inductive Spells (base : Nat) : List Char → Int → Prop
  | plain {digits : List Char} {n : Nat} (h : Writes IsDigit base digits n) : Spells base digits n
  | plus {digits : List Char} {n : Nat} (h : Writes IsDigit base digits n) :
    Spells base ('+' :: digits) n
  | minus {digits : List Char} {n : Nat} (h : Writes IsDigit base digits n) :
    Spells base ('-' :: digits) (-n)

/-! ## Digits -/

theorem ofDigits_eq (base : Nat) (ds : List Nat) :
    ofDigits base ds = Nat.ofDigits base ds.reverse := by
  rw [Nat.ofDigits_eq_foldr, List.foldr_reverse, ofDigits]
  congr 1
  funext v d
  rw [Nat.cast_id, Nat.mul_comm, Nat.add_comm]

theorem toNat_lt_of_letterValue? {c : Char} {d : Nat} (h : letterValue? c = some d) :
    c.toNat < 128 := by
  have hv : c.val.toNat = c.toNat := rfl
  simp only [letterValue?, Char.isDigit, Char.isLower, Char.isUpper, Bool.and_eq_true,
    decide_eq_true_eq, ge_iff_le, UInt32.le_iff_toNat_le, hv, show '9'.val.toNat = 57 from rfl,
    show 'z'.val.toNat = 122 from rfl, show 'Z'.val.toNat = 90 from rfl] at h
  split at h
  · omega
  split at h
  · omega
  split at h
  · omega
  · cases h

/-- What holds of the ASCII characters is found by going through them. -/
theorem of_ascii {p : Char → Prop} (hall : ∀ n < 128, p (Char.ofNat n)) {c : Char}
    (hc : c.toNat < 128) : p c := by
  rw [← Char.ofNat_toNat c]
  exact hall c.toNat hc

theorem letterValue?_eq_some_iff {c : Char} {d : Nat} : letterValue? c = some d ↔ IsDigit c d := by
  constructor
  · intro h
    refine of_ascii (p := fun c => ∀ d ∈ letterValue? c, IsDigit c d) ?_
      (toNat_lt_of_letterValue? h) d h
    simp only [IsDigit]
    decide +kernel
  · have hs : ∀ d < 36, smallDigits[d]?.bind letterValue? = some d := by decide
    have hc : ∀ d < 36, capitalDigits[d]?.bind letterValue? = some d := by decide
    rintro (h | h)
    · have hd : d < 36 := (List.getElem?_eq_some_iff.1 h).1
      rw [← hs d hd, h, Option.bind_some]
    · have hd : d < 36 := (List.getElem?_eq_some_iff.1 h).1
      rw [← hc d hd, h, Option.bind_some]

theorem IsDigit.toNat_lt {c : Char} {d : Nat} (h : IsDigit c d) : c.toNat < 128 :=
  toNat_lt_of_letterValue? (letterValue?_eq_some_iff.2 h)

theorem isDigitOf_iff {base : Nat} {c : Char} :
    isDigitOf base c = true ↔ ∃ d < base, IsDigit c d := by
  simp only [← letterValue?_eq_some_iff, isDigitOf]
  cases letterValue? c <;> simp

theorem digitValue?_eq_some_iff {c : Char} {d : Nat} : digitValue? c = some d ↔ IsDecimal c d := by
  rw [digitValue?, Option.map_eq_some_iff]
  constructor
  · rintro ⟨z, hz, rfl⟩
    have hc := List.find?_some hz
    simp only [Bool.and_eq_true, decide_eq_true_eq] at hc
    exact ⟨z, List.mem_of_find?_eq_some hz, by omega, by omega⟩
  · rintro ⟨z, hz, hc, hd⟩
    -- The runs are apart, so no other one holds the character.
    have hapart : ∀ a ∈ digitZeros, ∀ b ∈ digitZeros, a ≤ b + 9 → b ≤ a + 9 → a = b := by
      decide +kernel
    obtain ⟨a, ha⟩ : ∃ a, digitZeros.find? (fun z => z ≤ c.toNat && c.toNat < z + 10) = some a := by
      rw [← Option.isSome_iff_exists, List.find?_isSome]
      exact ⟨z, hz, by simp only [Bool.and_eq_true, decide_eq_true_eq]; omega⟩
    have hac := List.find?_some ha
    simp only [Bool.and_eq_true, decide_eq_true_eq] at hac
    refine ⟨a, ha, ?_⟩
    rw [hapart a (List.mem_of_find?_eq_some ha) z hz (by omega) (by omega)]
    omega

theorem not_isBlank_of_isDecimal {c : Char} {d : Nat} (h : IsDecimal c d) : isBlank c = false := by
  obtain ⟨z, hz, hc, hd⟩ := h
  have hb : ∀ z ∈ digitZeros, ∀ d < 10, isBlank (Char.ofNat (z + d)) = false := by
    decide +kernel
  rw [← Char.ofNat_toNat c, hc]
  exact hb z hz d hd

theorem not_isBlank_of_isDigit {c : Char} {d : Nat} (h : IsDigit c d) : isBlank c = false := by
  have hs : (smallDigits ++ capitalDigits).all (fun c => !isBlank c) = true := by decide
  have hc := List.all_eq_true.1 hs c
    (List.mem_append.2 (h.imp List.mem_of_getElem? List.mem_of_getElem?))
  simpa using hc

/-! ## Notations -/

section

variable {digit : Char → Nat → Prop} {base n : Nat} {text : List Char}

theorem Writes.ne_nil (h : Writes digit base text n) : text ≠ [] := by
  obtain ⟨ds, hd, -, hf, -⟩ := h
  rintro rfl
  exact hd (List.forall₂_nil_left_iff.1 hf)

theorem Writes.exists_digit (h : Writes digit base text n) :
    ∀ c ∈ text, ∃ d < base, digit c d := by
  obtain ⟨ds, -, hb, hf, -⟩ := h
  induction hf with
  | nil => simp
  | cons hc _ ih =>
    rintro c (_ | ⟨_, hm⟩)
    · exact ⟨_, hb _ List.mem_cons_self, hc⟩
    · exact ih (fun d hd => hb d (List.mem_cons_of_mem _ hd)) c hm

theorem Writes.imp {digit' : Char → Nat → Prop} (h : Writes digit base text n)
    (hd : ∀ c ∈ text, ∀ d < base, digit c d → digit' c d) : Writes digit' base text n := by
  obtain ⟨ds, hne, hb, hf, rfl⟩ := h
  refine ⟨ds, hne, hb, ?_, rfl⟩
  clear hne
  induction hf with
  | nil => exact .nil
  | cons hc _ ih =>
    obtain ⟨hb, hbs⟩ := List.forall_mem_cons.1 hb
    obtain ⟨hd, hds⟩ := List.forall_mem_cons.1 hd
    exact .cons (hd _ hb hc) (ih hds hbs)

/-- Any digits write a number. -/
theorem exists_writes (ht : text ≠ []) (h : ∀ c ∈ text, ∃ d < base, digit c d) :
    ∃ n, Writes digit base text n := by
  have hf : ∃ ds, (∀ d ∈ ds, d < base) ∧ List.Forall₂ digit text ds := by
    clear ht
    induction text with
    | nil => exact ⟨[], by simp, .nil⟩
    | cons c r ih =>
      obtain ⟨⟨d, hb, hd⟩, hr⟩ := List.forall_mem_cons.1 h
      obtain ⟨ds, hbs, hds⟩ := ih hr
      exact ⟨d :: ds, List.forall_mem_cons.2 ⟨hb, hbs⟩, .cons hd hds⟩
  obtain ⟨ds, hb, hf⟩ := hf
  refine ⟨_, ds, ?_, hb, hf, rfl⟩
  rintro rfl
  exact ht (List.forall₂_nil_right_iff.1 hf)

theorem Writes.singleton {d : Nat} {c : Char} (hd : d < base) (hc : digit c d) :
    Writes digit base [c] d :=
  ⟨[d], by simp, by simpa using hd, .cons hc .nil, by simp⟩

/-- One notation behind another: the first weighs one place more for each digit of the second. -/
theorem Writes.append {m : Nat} {s t : List Char} (h : Writes digit base s n)
    (h' : Writes digit base t m) : Writes digit base (s ++ t) (n * base ^ t.length + m) := by
  obtain ⟨ds, hne, hb, hf, rfl⟩ := h
  obtain ⟨ds', -, hb', hf', rfl⟩ := h'
  refine ⟨ds ++ ds', by simp [hne], ?_, List.rel_append hf hf', ?_⟩
  · exact List.forall_mem_append.2 ⟨hb, hb'⟩
  · rw [List.reverse_append, Nat.ofDigits_append, List.length_reverse, hf'.length_eq]
    ring

/-- One digit more. -/
theorem Writes.concat {d : Nat} {c : Char} (h : Writes digit base text n) (hd : d < base)
    (hc : digit c d) : Writes digit base (text ++ [c]) (base * n + d) := by
  have hw := h.append (.singleton hd hc)
  rwa [List.length_singleton, pow_one, Nat.mul_comm] at hw

end

theorem magnitude_eq {base n : Nat} {text : List Char} (h : Writes IsDigit base text n) :
    magnitude base text = n := by
  obtain ⟨ds, -, -, hf, rfl⟩ := h
  have hm : text.filterMap letterValue? = ds := by
    induction hf with
    | nil => rfl
    | cons hc _ ih => rw [List.filterMap_cons, letterValue?_eq_some_iff.2 hc, ih]
  rw [magnitude, hm, ofDigits_eq]

/-- What digits write is their positional value. -/
theorem writes_iff {base n : Nat} {text : List Char} :
    Writes IsDigit base text n ↔
      (text ≠ [] ∧ ∀ c ∈ text, isDigitOf base c = true) ∧ magnitude base text = n := by
  constructor
  · exact fun h => ⟨⟨h.ne_nil, fun c hc => isDigitOf_iff.2 (h.exists_digit c hc)⟩, magnitude_eq h⟩
  · rintro ⟨⟨ht, hd⟩, rfl⟩
    obtain ⟨n, hw⟩ := exists_writes ht fun c hc => isDigitOf_iff.1 (hd c hc)
    rwa [magnitude_eq hw]

theorem splitSign_cons {c : Char} {r : List Char} (hm : c ≠ '-') (hp : c ≠ '+') :
    splitSign (c :: r) = (false, c :: r) := by
  rw [splitSign]
  · exact fun s h => hm (List.cons.inj h).1
  · exact fun s h => hp (List.cons.inj h).1

/-- A text starts with a minus sign, with a plus sign, or with neither. -/
theorem splitSign_cases (s : List Char) :
    (∃ r, s = '-' :: r ∧ splitSign s = (true, r)) ∨ (∃ r, s = '+' :: r ∧ splitSign s = (false, r)) ∨
      splitSign s = (false, s) := by
  cases s with
  | nil => exact .inr (.inr rfl)
  | cons c r =>
    by_cases hm : c = '-'
    · subst hm
      exact .inl ⟨r, rfl, rfl⟩
    by_cases hp : c = '+'
    · subst hp
      exact .inr (.inl ⟨r, rfl, rfl⟩)
    exact .inr (.inr (splitSign_cons hm hp))

/-- What is true of digits, and of digits behind either sign, is true of every text whose digits are
such. -/
theorem of_splitSign {p : List Char → Int → Prop} {w : List Char → Nat → Prop}
    (hplain : ∀ {t n}, w t n → p t n) (hplus : ∀ {t n}, w t n → p ('+' :: t) n)
    (hminus : ∀ {t n}, w t n → p ('-' :: t) (-n)) {s : List Char} {n : Nat}
    (h : w (splitSign s).2 n) : p s (signed (splitSign s).1 n) := by
  rcases splitSign_cases s with ⟨r, rfl, -⟩ | ⟨r, rfl, -⟩ | hs
  · exact hminus h
  · exact hplus h
  · rw [hs] at h ⊢
    exact hplain h

theorem notMem_of_isNumeral {base : Int} {t : List Char} {c : Char} (h : isNumeral base t = true)
    (hm : c ≠ '-') (hp : c ≠ '+') (hc : letterValue? c = none) : c ∉ t := by
  have hd := (isNumeral_iff.1 h).2
  have hs : c ∉ (splitSign t).2 := by
    intro hmem
    have hv := hd c hmem
    rw [isDigitOf, hc] at hv
    cases hv
  rcases splitSign_cases t with ⟨r, rfl, -⟩ | ⟨r, rfl, -⟩ | he
  · exact List.mem_cons.not.2 (not_or.2 ⟨hm, hs⟩)
  · exact List.mem_cons.not.2 (not_or.2 ⟨hp, hs⟩)
  · rwa [he] at hs

/-- Digits do not start with a sign. -/
theorem Writes.splitSign_eq {digit : Char → Nat → Prop} {base n : Nat} {text : List Char}
    (h : Writes digit base text n) (hm : ∀ d, ¬ digit '-' d) (hp : ∀ d, ¬ digit '+' d) :
    splitSign text = (false, text) := by
  rcases splitSign_cases text with ⟨r, rfl, -⟩ | ⟨r, rfl, -⟩ | hs
  · obtain ⟨d, -, hd⟩ := h.exists_digit '-' List.mem_cons_self
    exact absurd hd (hm d)
  · obtain ⟨d, -, hd⟩ := h.exists_digit '+' List.mem_cons_self
    exact absurd hd (hp d)
  · exact hs

theorem splitSign_of_writes {base n : Nat} {text : List Char} (h : Writes IsDigit base text n) :
    splitSign text = (false, text) := by
  refine h.splitSign_eq (fun d hd => ?_) fun d hd => ?_
  · cases letterValue?_eq_some_iff.2 hd
  · cases letterValue?_eq_some_iff.2 hd

/-- The spellings of an integer are the numerals with its value. -/
theorem spells_iff {base : Nat} {text : List Char} {v : Int} :
    Spells base text v ↔ isNumeral base text = true ∧ value base text = v := by
  rw [isNumeral_iff, value]
  constructor
  · intro h
    cases h with
    | plain h =>
      rw [splitSign_of_writes h]
      exact ⟨(writes_iff.1 h).1, congrArg (signed false) (magnitude_eq h)⟩
    | plus h => exact ⟨(writes_iff.1 h).1, congrArg (signed false) (magnitude_eq h)⟩
    | minus h => exact ⟨(writes_iff.1 h).1, congrArg (signed true) (magnitude_eq h)⟩
  · rintro ⟨hd, rfl⟩
    exact of_splitSign (p := Spells base) .plain .plus .minus (writes_iff.2 ⟨hd, rfl⟩)

theorem isNumeral_iff_spells {base : Nat} {t : List Char} :
    isNumeral base t = true ↔ ∃ v, Spells base t v := by
  simp [spells_iff]

theorem isNumeral_eq_false_iff {base : Int} {t : List Char} (hb : 0 ≤ base) :
    isNumeral base t = false ↔ ∀ v, ¬ Spells base.toNat t v := by
  rw [← not_exists, ← isNumeral_iff_spells, Int.toNat_of_nonneg hb, Bool.not_eq_true]

theorem Spells.not_isBlank {base : Nat} {text : List Char} {v : Int} (h : Spells base text v) :
    ∀ c ∈ text, isBlank c = false := by
  have hd : ∀ {digits n}, Writes IsDigit base digits n → ∀ c ∈ digits, isBlank c = false := by
    intro digits n hw c hc
    obtain ⟨d, -, hd⟩ := hw.exists_digit c hc
    exact not_isBlank_of_isDigit hd
  cases h with
  | plain h => exact hd h
  | plus h | minus h => exact List.forall_mem_cons.2 ⟨by decide, hd h⟩

/-! ## Decimal notation -/

theorem mapM_eq_some_iff {α β : Type} {f : α → Option β} {l : List α} {l' : List β} :
    l.mapM f = some l' ↔ List.Forall₂ (fun a b => f a = some b) l l' := by
  induction l generalizing l' with
  | nil => simp [eq_comm]
  | cons a r ih =>
    rw [List.mapM_cons, List.forall₂_cons_left_iff]
    simp only [Option.bind_eq_bind, Option.bind_eq_some_iff, Option.pure_def, Option.some.injEq, ih]
    constructor
    · rintro ⟨b, hb, l, hl, rfl⟩
      exact ⟨b, l, hb, hl, rfl⟩
    · rintro ⟨b, l, hb, hl, rfl⟩
      exact ⟨b, hb, l, hl, rfl⟩

/-- Decimal notation is what is read as a natural number. -/
theorem natural?_iff_writes {s : List Char} {n : Nat} :
    natural? s = some n ↔ Writes IsDecimal 10 s n := by
  rw [natural?_eq_some_iff]
  simp only [mapM_eq_some_iff, digitValue?_eq_some_iff, ofDigits_eq]
  constructor
  · rintro ⟨ht, ds, hf, rfl⟩
    refine ⟨ds, ?_, ?_, hf, rfl⟩
    · rintro rfl
      exact ht (List.forall₂_nil_right_iff.1 hf)
    · clear ht
      induction hf with
      | nil => simp
      | cons hc _ ih =>
        obtain ⟨-, -, -, hd⟩ := hc
        exact List.forall_mem_cons.2 ⟨hd, ih⟩
  · intro h
    obtain ⟨ds, -, -, hf, rfl⟩ := id h
    exact ⟨h.ne_nil, ds, hf, rfl⟩

/-- Between blanks, digits are what is left when these are dropped. -/
theorem trim_eq_of_writes {s t : List Char} {n : Nat} (hp : Pads t s)
    (h : Writes IsDecimal 10 t n) : trim s = t := by
  refine (Text.trim_eq_iff fun c hc => ?_).2 hp
  obtain ⟨d, -, hd⟩ := h.exists_digit c hc
  exact not_isBlank_of_isDecimal hd

theorem paddedNatural?_eq_some_iff {s : List Char} {n : Nat} :
    paddedNatural? s = some n ↔ ∃ t, Pads t s ∧ Writes IsDecimal 10 t n := by
  rw [paddedNatural?, natural?_iff_writes]
  constructor
  · exact fun h => ⟨trim s, Text.pads_trim s, h⟩
  · rintro ⟨t, hp, h⟩
    rwa [trim_eq_of_writes hp h]

/-! ## Leading zeros -/

/-- The digits behind `count` zeros. -/
def padded (count : Nat) (text : List Char) : List Char :=
  List.replicate count '0' ++ text

theorem length_padded (count : Nat) (text : List Char) :
    (padded count text).length = count + text.length := by
  rw [padded, List.length_append, List.length_replicate]

/-- However many zeros there are, they are nothing to the number. -/
theorem writes_padded {text : List Char} {n : Nat} (h : Writes IsDecimal 10 text n) (count : Nat) :
    Writes IsDecimal 10 (padded count text) n := by
  have hz : IsDecimal '0' 0 := ⟨0x30, by decide, rfl, by decide⟩
  induction count with
  | zero => exact h
  | succ count ih =>
    have hw := (Writes.singleton (by decide) hz).append ih
    rwa [Nat.zero_mul, Nat.zero_add] at hw

theorem writes_one : Writes IsDecimal 10 ['1'] 1 :=
  natural?_iff_writes.1 (by decide)

end Quorum.Numeral
