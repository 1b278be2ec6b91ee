import Quorum.Proofs.Numeral.Spelling

/-!
# Canonical numerals

Of all numerals of an integer in a base, the canonical one has capitals, no zeros in front, and no
sign but the minus sign of a negative integer. It is one of them (`spells_canonical`), and what any
other comes to (`normalize`): a numeral in normal form is the canonical numeral of its value
(`normalize_eq_canonical`).
-/

namespace Quorum.Numeral

/-- The digit of the value, as a capital. -/
def capitalDigit (d : Nat) : Char :=
  capitalDigits.getD d '0'

/-- The digits with their sign. Where there are none, it is zero, which has no sign. -/
def withSign (negative : Bool) (digits : List Char) : List Char :=
  if digits = [] then ['0'] else if negative then '-' :: digits else digits

/-- The canonical numeral of the integer. -/
def canonical (base : Nat) (v : Int) : List Char :=
  withSign (v < 0) ((base.digits v.natAbs).reverse.map capitalDigit)

/-- The numeral without zeros in front, plus sign and small letters, and without the minus sign if
it is zero. -/
def normalize (t : List Char) : List Char :=
  withSign (splitSign t).1 (((splitSign t).2.dropWhile (· == '0')).map Char.toUpper)

variable {base : Nat}

theorem isDigit_capitalDigit {d : Nat} (h : d < 36) : IsDigit (capitalDigit d) d := by
  have hc : ∀ d < 36, capitalDigits[d]? = some (capitalDigit d) := by decide
  exact .inr (hc d h)

theorem IsDigit.toUpper_eq {c : Char} {d : Nat} (h : IsDigit c d) : c.toUpper = capitalDigit d := by
  have hc := of_ascii (p := fun c => ∀ d ∈ letterValue? c, c.toUpper = capitalDigit d)
    (by decide +kernel) h.toNat_lt
  exact hc d (letterValue?_eq_some_iff.2 h)

theorem IsDigit.eq_zero_iff {c : Char} {d : Nat} (h : IsDigit c d) : d = 0 ↔ c = '0' := by
  have hc := of_ascii (p := fun c => ∀ d ∈ letterValue? c, d = 0 ↔ c = '0')
    (by decide +kernel) h.toNat_lt
  exact hc d (letterValue?_eq_some_iff.2 h)

theorem map_toUpper_eq {text : List Char} {ds : List Nat} (h : List.Forall₂ IsDigit text ds) :
    text.map Char.toUpper = ds.map capitalDigit := by
  induction h with
  | nil => rfl
  | cons hc _ ih => rw [List.map_cons, List.map_cons, hc.toUpper_eq, ih]

/-- Digits without the zeros in front are the digits of their value. -/
theorem dropWhile_eq_digits {text : List Char} {n : Nat} (hb : 1 < base)
    (h : Writes IsDigit base text n) :
    (text.dropWhile (· == '0')).map Char.toUpper = (base.digits n).reverse.map capitalDigit := by
  obtain ⟨ds, -, hlt, hf, rfl⟩ := h
  induction hf with
  | nil => simp
  | @cons c d text ds hc hf ih =>
    by_cases hd : d = 0
    · have hz := hc.eq_zero_iff.1 hd
      subst hd hz
      rw [Nat.ofDigits_reverse_zero_cons]
      exact ih fun d hd => hlt d (List.mem_cons_of_mem _ hd)
    · -- The last digit from below is not zero, so the digits are those of the value.
      have hz : c ≠ '0' := hc.eq_zero_iff.not.1 hd
      rw [Nat.digits_ofDigits base hb _ (by simpa [or_comm] using hlt) (by simpa using hd),
        List.reverse_reverse, ← map_toUpper_eq (.cons hc hf),
        List.dropWhile_cons_of_neg (by simpa using hz)]

theorem writes_digits {n : Nat} (hb : 1 < base) (hb' : base ≤ 36) (hn : n ≠ 0) :
    Writes IsDigit base ((base.digits n).reverse.map capitalDigit) n := by
  have hlt : ∀ d ∈ (base.digits n).reverse, d < base :=
    fun d hd => Nat.digits_lt_base hb (List.mem_reverse.1 hd)
  refine ⟨(base.digits n).reverse, ?_, hlt, ?_, ?_⟩
  · simpa using Nat.digits_ne_nil_iff_ne_zero.2 hn
  · rw [List.forall₂_map_left_iff, List.forall₂_same]
    exact fun d hd => isDigit_capitalDigit ((hlt d hd).trans_le hb')
  · rw [List.reverse_reverse, Nat.ofDigits_digits]

theorem canonical_natCast (n : Nat) :
    canonical base n = withSign false ((base.digits n).reverse.map capitalDigit) := by
  rw [canonical, Int.natAbs_natCast, decide_eq_false (not_lt.2 (Int.natCast_nonneg n))]

/-- Zero has no digits in front of which the sign could stand. -/
theorem canonical_neg_natCast (n : Nat) :
    canonical base (-n) = withSign true ((base.digits n).reverse.map capitalDigit) := by
  rw [canonical, Int.natAbs_neg, Int.natAbs_natCast]
  by_cases hn : n = 0
  · subst hn
    simp [withSign]
  · rw [decide_eq_true (by omega)]

/-- The canonical numeral of an integer is a numeral of it. -/
theorem spells_canonical (hb : 1 < base) (hb' : base ≤ 36) (v : Int) :
    Spells base (canonical base v) v := by
  by_cases hv : v = 0
  · subst hv
    have h0 : Writes IsDigit base ['0'] 0 :=
      .singleton (by omega) (isDigit_capitalDigit (show 0 < 36 by decide))
    simpa [canonical, withSign] using Spells.plain h0
  obtain ⟨n, he⟩ := v.eq_nat_or_neg
  have hw := writes_digits hb hb' (show n ≠ 0 by omega)
  rcases he with rfl | rfl
  · rw [canonical_natCast, withSign, if_neg hw.ne_nil, if_neg Bool.false_ne_true]
    exact .plain hw
  · rw [canonical_neg_natCast, withSign, if_neg hw.ne_nil, if_pos rfl]
    exact .minus hw

theorem capitalDigit_mem (d : Nat) : capitalDigit d ∈ capitalDigits := by
  rw [capitalDigit, List.getD_eq_getElem?_getD]
  cases h : capitalDigits[d]? with
  | none => decide
  | some c => exact List.mem_of_getElem? h

/-- The canonical numeral has no small letters. -/
theorem notMem_canonical {c : Char} (hc : c ∉ capitalDigits) (hm : c ≠ '-') (v : Int) :
    c ∉ canonical base v := by
  have hd : c ∉ (base.digits v.natAbs).reverse.map capitalDigit := by
    intro h
    obtain ⟨d, -, rfl⟩ := List.mem_map.1 h
    exact hc (capitalDigit_mem d)
  rw [canonical, withSign]
  split
  · rw [List.mem_singleton]
    rintro rfl
    exact hc (by decide)
  split
  · exact List.mem_cons.not.2 (not_or.2 ⟨hm, hd⟩)
  · exact hd

/-- A numeral in normal form is the canonical numeral of the integer. -/
theorem normalize_eq_canonical {t : List Char} {v : Int} (hb : 1 < base) (h : Spells base t v) :
    normalize t = canonical base v := by
  cases h with
  | plain h =>
    rw [canonical_natCast, normalize, splitSign_of_writes h, dropWhile_eq_digits hb h]
  | plus h => rw [canonical_natCast, ← dropWhile_eq_digits hb h, normalize, splitSign]
  | minus h => rw [canonical_neg_natCast, ← dropWhile_eq_digits hb h, normalize, splitSign]

end Quorum.Numeral
