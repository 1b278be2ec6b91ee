import Quorum.Proofs.Numeral.Spelling

/-!
# Integer literals

An integer literal (`SpellsDecimal`) is an optional sign and decimal digits of any script, and is
read as the integer that it writes (`integer?_eq_some_iff`). Those in ASCII digits are the numerals
of base ten (`spells_ten_iff`) and are told from the others by `isAsciiInteger_eq_false_iff`; a
numeral of any base has none but ASCII characters (`not_foreign_of_isNumeral`). Numbers are written
in decimal notation (`writes_natDigits`, `spellsDecimal_decimal`), no two of them alike
(`decimal_injective`).
-/

namespace Quorum.Numeral

open Quorum.Text (digitValue? digitZeros isBlank)

/-- The literals of an integer. The digits may be of any script, and scripts may mix. -/
inductive SpellsDecimal : List Char → Int → Prop
  | plain {digits : List Char} {n : Nat} (h : Writes IsDecimal 10 digits n) : SpellsDecimal digits n
  | plus {digits : List Char} {n : Nat} (h : Writes IsDecimal 10 digits n) :
    SpellsDecimal ('+' :: digits) n
  | minus {digits : List Char} {n : Nat} (h : Writes IsDecimal 10 digits n) :
    SpellsDecimal ('-' :: digits) (-n)

/-- Some character is outside ASCII. -/
def Foreign (t : List Char) : Prop :=
  ∃ c ∈ t, 128 ≤ c.toNat

theorem IsDecimal.lt {c : Char} {d : Nat} (h : IsDecimal c d) : d < 10 := by
  obtain ⟨z, -, -, hd⟩ := h
  exact hd

theorem IsDecimal.ne {a c : Char} {d : Nat} (h : IsDecimal c d) (ha : digitValue? a = none) :
    c ≠ a := by
  rintro rfl
  rw [digitValue?_eq_some_iff.2 h] at ha
  cases ha

theorem splitSign_of_writes_decimal {n : Nat} {text : List Char} (h : Writes IsDecimal 10 text n) :
    splitSign text = (false, text) :=
  h.splitSign_eq (fun _ hd => hd.ne (by decide) rfl) fun _ hd => hd.ne (by decide) rfl

/-- A literal is a sign, or none, and digits. -/
theorem spellsDecimal_iff {s : List Char} {v : Int} :
    SpellsDecimal s v ↔
      ∃ n, Writes IsDecimal 10 (splitSign s).2 n ∧ signed (splitSign s).1 n = v := by
  constructor
  · intro h
    cases h with
    | plain h =>
      rw [splitSign_of_writes_decimal h]
      exact ⟨_, h, rfl⟩
    | plus h => exact ⟨_, h, rfl⟩
    | minus h => exact ⟨_, h, rfl⟩
  · rintro ⟨n, hw, rfl⟩
    exact of_splitSign (p := SpellsDecimal) .plain .plus .minus hw

/-- The literals of an integer are the texts that are read as it. -/
theorem integer?_eq_some_iff {s : List Char} {v : Int} :
    integer? s = some v ↔ SpellsDecimal s v := by
  rw [integer?, Option.map_eq_some_iff, spellsDecimal_iff]
  simp only [natural?_iff_writes]

/-! ## Characters of literals -/

theorem SpellsDecimal.sign_or_digit {t : List Char} {v : Int} (h : SpellsDecimal t v) :
    ∀ c ∈ t, c = '+' ∨ c = '-' ∨ ∃ d, IsDecimal c d := by
  have hd : ∀ {digits n}, Writes IsDecimal 10 digits n →
      ∀ c ∈ digits, c = '+' ∨ c = '-' ∨ ∃ d, IsDecimal c d := by
    intro digits n hw c hc
    obtain ⟨d, -, hd⟩ := hw.exists_digit c hc
    exact .inr (.inr ⟨d, hd⟩)
  cases h with
  | plain h => exact hd h
  | plus h => exact List.forall_mem_cons.2 ⟨.inl rfl, hd h⟩
  | minus h => exact List.forall_mem_cons.2 ⟨.inr (.inl rfl), hd h⟩

/-- Signs stand in front only. -/
theorem SpellsDecimal.isDecimal_of_mem_tail {t : List Char} {v : Int} (h : SpellsDecimal t v) :
    ∀ c ∈ t.tail, ∃ d, IsDecimal c d := by
  have hd : ∀ {digits n}, Writes IsDecimal 10 digits n → ∀ c ∈ digits, ∃ d, IsDecimal c d :=
    fun hw c hc => (hw.exists_digit c hc).imp fun _ h => h.2
  cases h with
  | plain h => exact fun c hc => hd h c (List.mem_of_mem_tail hc)
  | plus h => exact hd h
  | minus h => exact hd h

/-- A character that is neither a sign nor a digit is in no literal. -/
theorem SpellsDecimal.notMem {t : List Char} {v : Int} {c : Char} (h : SpellsDecimal t v)
    (hp : c ≠ '+') (hm : c ≠ '-') (hd : digitValue? c = none) : c ∉ t := by
  intro hc
  rcases h.sign_or_digit c hc with rfl | rfl | ⟨d, hv⟩
  · exact hp rfl
  · exact hm rfl
  · exact hv.ne hd rfl

theorem SpellsDecimal.not_isBlank {t : List Char} {v : Int} (h : SpellsDecimal t v) :
    ∀ c ∈ t, isBlank c = false := by
  intro c hc
  rcases h.sign_or_digit c hc with rfl | rfl | ⟨d, hv⟩
  · decide
  · decide
  · exact not_isBlank_of_isDecimal hv

theorem SpellsDecimal.ne_nil {t : List Char} {v : Int} (h : SpellsDecimal t v) : t ≠ [] := by
  cases h with
  | plain h => exact h.ne_nil
  | plus h | minus h => exact List.cons_ne_nil _ _

/-! ## Characters outside ASCII -/

/-- The signs are ASCII, so a text is if what follows its sign is. -/
theorem not_foreign_of_splitSign {s : List Char} (h : ∀ c ∈ (splitSign s).2, c.toNat < 128) :
    ¬ Foreign s := by
  have hs : ∀ c ∈ s, c.toNat < 128 := by
    rcases splitSign_cases s with ⟨r, rfl, -⟩ | ⟨r, rfl, -⟩ | he
    · exact List.forall_mem_cons.2 ⟨by decide, h⟩
    · exact List.forall_mem_cons.2 ⟨by decide, h⟩
    · rwa [he] at h
  rintro ⟨c, hc, hf⟩
  exact absurd (hs c hc) (not_lt.2 hf)

theorem not_foreign_of_isNumeral {base : Int} {t : List Char} (h : isNumeral base t = true) :
    ¬ Foreign t := by
  refine not_foreign_of_splitSign fun c hc => ?_
  have hd := (isNumeral_iff.1 h).2 c hc
  rw [isDigitOf] at hd
  split at hd
  · rename_i hv
    exact toNat_lt_of_letterValue? hv
  · cases hd

/-- In ASCII the decimal digits are the first ten digits of all bases. -/
theorem isDigit_iff_isDecimal {c : Char} {d : Nat} (hc : c.toNat < 128) (hd : d < 10) :
    IsDigit c d ↔ IsDecimal c d := by
  rw [← letterValue?_eq_some_iff, ← digitValue?_eq_some_iff]
  exact of_ascii (p := fun c => ∀ d < 10, letterValue? c = some d ↔ digitValue? c = some d)
    (by decide +kernel) hc d hd

/-- The numerals of base ten are the literals in ASCII. -/
theorem spells_ten_iff {t : List Char} {v : Int} :
    Spells 10 t v ↔ SpellsDecimal t v ∧ ¬ Foreign t := by
  constructor
  · intro h
    have hw : ∀ {digits n}, Writes IsDigit 10 digits n → Writes IsDecimal 10 digits n :=
      fun hw => hw.imp fun c _ d hd hc => (isDigit_iff_isDecimal hc.toNat_lt hd).1 hc
    refine ⟨?_, not_foreign_of_isNumeral (spells_iff.1 h).1⟩
    cases h with
    | plain h => exact .plain (hw h)
    | plus h => exact .plus (hw h)
    | minus h => exact .minus (hw h)
  · rintro ⟨h, hf⟩
    have hw : ∀ {digits n}, digits ⊆ t → Writes IsDecimal 10 digits n →
        Writes IsDigit 10 digits n := by
      refine fun hs hw => hw.imp fun c hc d hd => (isDigit_iff_isDecimal ?_ hd).2
      exact not_le.1 fun hle => hf ⟨c, hs hc, hle⟩
    cases h with
    | plain h => exact .plain (hw (List.Subset.refl _) h)
    | plus h => exact .plus (hw (List.subset_cons_self _ _) h)
    | minus h => exact .minus (hw (List.subset_cons_self _ _) h)

theorem isDigit_eq_isDigitOf (c : Char) : c.isDigit = isDigitOf 10 c := by
  rw [isDigitOf, letterValue?]
  by_cases hd : c.isDigit = true
  · have hv : c.val.toNat = c.toNat := rfl
    have hlt : c.toNat - 48 < 10 := by
      simp only [Char.isDigit, Bool.and_eq_true, decide_eq_true_eq, ge_iff_le,
        UInt32.le_iff_toNat_le, hv, show '9'.val.toNat = 57 from rfl] at hd
      omega
    rw [if_pos hd, hd]
    exact (decide_eq_true (Int.ofNat_lt.2 hlt)).symm
  · -- A letter stands for ten at least.
    rw [if_neg hd, Bool.eq_false_iff.2 hd]
    split_ifs <;> simp

/-- The check for literals in ASCII finds the numerals of base ten. -/
theorem isAsciiInteger_iff {t : List Char} : isAsciiInteger t = true ↔ ∃ v, Spells 10 t v := by
  rw [← isNumeral_iff_spells, isAsciiInteger, isNumeral, funext isDigit_eq_isDigitOf]
  rfl

/-- A literal is in ASCII digits, or some character of it is outside ASCII. -/
theorem isAsciiInteger_eq_false_iff {t : List Char} {v : Int} (h : SpellsDecimal t v) :
    isAsciiInteger t = false ↔ Foreign t := by
  rw [← Bool.not_eq_true, isAsciiInteger_iff, not_iff_comm]
  constructor
  · exact fun hf => ⟨v, spells_ten_iff.2 ⟨h, hf⟩⟩
  · rintro ⟨w, hw⟩
    exact (spells_ten_iff.1 hw).2

/-! ## Written numbers -/

theorem Writes.unique {n m : Nat} {text : List Char} (h : Writes IsDecimal 10 text n)
    (h' : Writes IsDecimal 10 text m) : n = m :=
  Option.some.inj ((natural?_iff_writes.2 h).symm.trans (natural?_iff_writes.2 h'))

theorem isDecimal_digitChar {d : Nat} (h : d < 10) : IsDecimal (Nat.digitChar d) d := by
  have hc : ∀ d < 10, (Nat.digitChar d).toNat = 0x30 + d := by decide
  exact ⟨0x30, by decide, hc d h, h⟩

/-- The decimal notation of a number writes it. -/
theorem writes_natDigits (n : Nat) : Writes IsDecimal 10 (natDigits n) n := by
  rw [natDigits, Nat.toList_repr]
  induction n using Nat.strongRecOn with
  | ind n ih =>
    rw [Nat.toDigits_eq_if (by decide)]
    split
    · rename_i hn
      exact .singleton hn (isDecimal_digitChar hn)
    · have hm : n % 10 < 10 := Nat.mod_lt n (by decide)
      have hw := (ih (n / 10) (by omega)).concat hm (isDecimal_digitChar hm)
      rwa [Nat.div_add_mod] at hw

/-- The decimal notation of an integer is a literal of it. -/
theorem spellsDecimal_decimal (v : Int) : SpellsDecimal (decimal v) v := by
  rw [decimal]
  split
  · rename_i hv
    have hw := SpellsDecimal.minus (writes_natDigits v.natAbs)
    rwa [Int.ofNat_natAbs_of_nonpos hv.le, Int.neg_neg] at hw
  · rename_i hv
    have hw := SpellsDecimal.plain (writes_natDigits v.natAbs)
    rwa [Int.natAbs_of_nonneg (not_lt.1 hv)] at hw

theorem natDigits_injective : Function.Injective natDigits :=
  fun _ _ h => Nat.repr_inj.1 (String.toList_injective h)

theorem toList_toString (v : Int) : (toString v).toList = decimal v := by
  cases v with
  | ofNat n =>
    have hn : ¬ Int.ofNat n < 0 := not_lt.2 (Int.natCast_nonneg n)
    rw [decimal, if_neg hn]
    rfl
  | negSucc n =>
    rw [decimal, if_pos (Int.negSucc_lt_zero n)]
    show ("-" ++ Nat.repr (n + 1)).toList = _
    rw [String.toList_append]
    rfl

theorem decimal_injective : Function.Injective decimal := by
  intro v w h
  have hv := integer?_eq_some_iff.2 (spellsDecimal_decimal v)
  have hw := integer?_eq_some_iff.2 (spellsDecimal_decimal w)
  rw [h, hw] at hv
  exact (Option.some.inj hv).symm

end Quorum.Numeral
