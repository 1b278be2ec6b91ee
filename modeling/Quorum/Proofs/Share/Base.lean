import Quorum.Proofs.Numeral.Canonical
import Quorum.Proofs.Numeral.Decimal
import Quorum.Proofs.Share

/-!
# The base of a value

In which base the value of a share is read: in that of the share, but for integer literals in digits
of other scripts (`valueOf_of_formless`, `valueOf_foreign_digit`). Every integer has numerals in the
base and is read from each of them, and a numeral is read as the integer that it comes to
(`valueOf_of_numeral`).
-/

namespace Quorum

open Quorum.Numeral (Spells SpellsDecimal Foreign canonical isNumeral isAsciiInteger normalize)
open Quorum.Text (Pads trim pads_trim)

/-- A text without parentheses and variables is an integer literal or no formula. -/
theorem Formula.evaluate_of_formless {t : List Char} (limit x : Int) (ht : trim t = t)
    (hx : variableLetter ∉ t) (ho : '(' ∉ t) (hc : ')' ∉ t) :
    (∃ v, Numeral.integer? t = some v ∧ evaluate limit x t = .ok v) ∨
      Numeral.integer? t = none ∧ ∃ reason, evaluate limit x t = .error reason := by
  rw [evaluate, read, ht]
  by_cases he : t = []
  · subst he
    exact .inr ⟨rfl, _, rfl⟩
  simp only [List.isEmpty_iff, he, if_false]
  cases hi : Numeral.integer? t with
  | some v => exact .inl ⟨v, rfl, rfl⟩
  | none =>
    refine .inr ⟨rfl, .formless, ?_⟩
    rw [readCompound, splitFirst?_eq_none_iff.2 ho]
    simp [hx, hc]

namespace Share

/-- Without parentheses and variables, a text is a numeral in the base of its share or is refused,
unless it is an integer literal with a character outside ASCII: that is decimal in every base. -/
theorem valueOf_of_formless {base : Int} {text : List Char} (limit x : Int) (hb : 2 ≤ base)
    (hb' : base ≤ 36) (hx : Formula.variableLetter ∉ trim text) (ho : '(' ∉ trim text)
    (hc : ')' ∉ trim text) :
    (∀ v, valueOf limit base text x = .ok v ↔
      Spells base.toNat (trim text) v ∨ Foreign (trim text) ∧ SpellsDecimal (trim text) v) ∧
    ((∀ v, valueOf limit base text x ≠ .ok v) →
      ∃ reason, valueOf limit base text x = .error (.malformed none reason)) := by
  refine ⟨fun v => ?_, fun h => ?_⟩
  · have hbase : (base.toNat : Int) = base := Int.toNat_of_nonneg (by omega)
    rw [Numeral.spells_iff, hbase]
    by_cases hn : isNumeral base (trim text) = true
    · have hf := Numeral.not_foreign_of_isNumeral hn
      simp [valueOf, hx, hn, hb, hb', hf]
    by_cases hi : isAsciiInteger (trim text) = true
    · have hf : ¬ (Foreign (trim text) ∧ SpellsDecimal (trim text) v) := by
        rintro ⟨hf, hs⟩
        rw [(Numeral.isAsciiInteger_eq_false_iff hs).2 hf] at hi
        cases hi
      simp [valueOf, hn, hi, hf]
    -- What is left for the formula to read are the literals that no check has caught.
    rw [Bool.not_eq_true] at hi
    have htrim : trim (trim text) = trim text := (pads_trim text).trim_eq_trim.symm
    rcases Formula.evaluate_of_formless limit x htrim hx ho hc with ⟨w, hw, he⟩ | ⟨hw, reason, he⟩
    · have hs := Numeral.integer?_eq_some_iff.1 hw
      have hf := (Numeral.isAsciiInteger_eq_false_iff hs).1 hi
      have hv : SpellsDecimal (trim text) v ↔ w = v := by
        rw [← Numeral.integer?_eq_some_iff, hw, Option.some.injEq]
      simp [valueOf, hn, hi, he, hf, hv]
    · have hs : ¬ SpellsDecimal (trim text) v := by
        rw [← Numeral.integer?_eq_some_iff, hw]
        exact (Option.some_ne_none v).symm
      simp [valueOf, hn, hi, he, hs]
  · refine (valueOf_cases limit text x hb hb').resolve_left ?_
    rintro ⟨v, hv⟩
    exact h v hv

/-- A padded numeral of base sixteen, whatever the share and the limit. -/
theorem valueOf_of_formless_sixteen :
    Formula.variableLetter ∉ trim " -07fE\n".toList ∧ '(' ∉ trim " -07fE\n".toList ∧
      ')' ∉ trim " -07fE\n".toList ∧
      ∀ limit x, valueOf limit 16 " -07fE\n".toList x = .ok (-2046) := by
  refine ⟨by decide, by decide, by decide, fun limit x => ?_⟩
  refine ((valueOf_of_formless limit x (by decide) (by decide) (by decide) (by decide)
    (by decide)).1 _).2 (.inl ?_)
  exact Numeral.spells_iff.2 (by decide)

/-- An Arabic digit is no digit of base two, and is read all the same. -/
theorem valueOf_foreign_digit :
    valueOf Operation.defaultExponentLimit 2 ['٣'] 1 = .ok 3 ∧ ∀ v, ¬ Spells 2 (trim ['٣']) v := by
  refine ⟨by decide, fun v hv => ?_⟩
  have hn : isNumeral ((2 : Nat) : Int) (trim ['٣']) = false := by decide
  rw [(Numeral.spells_iff.1 hv).1] at hn
  cases hn

/-- An integer is read from all its numerals without the variable, whatever the share and the limit,
and the canonical one is one of these. Any numeral without the variable is read as the integer whose
canonical numeral is its normal form. -/
theorem valueOf_of_numeral {base : Int} (hb : 2 ≤ base) (hb' : base ≤ 36) :
    (∀ v t text, Spells base.toNat t v → Formula.variableLetter ∉ t → Pads t text →
      ∀ limit x, valueOf limit base text x = .ok v) ∧
    (∀ v, Spells base.toNat (canonical base.toNat v) v ∧
      Formula.variableLetter ∉ canonical base.toNat v) ∧
    ∀ text, Formula.variableLetter ∉ text → isNumeral base (trim text) = true →
      ∃ v, (∀ limit x, valueOf limit base text x = .ok v) ∧
        canonical base.toNat v = normalize (trim text) := by
  refine ⟨fun v t text h hx hp limit x => ?_, fun v => ?_, fun text hx hn => ?_⟩
  · rw [← (Text.trim_eq_iff h.not_isBlank).2 hp, Text.mem_trim_iff (by decide)] at hx
    exact valueOf_of_spells limit x hb hb' h hp hx
  · exact ⟨Numeral.spells_canonical (by omega) (by omega) v,
      Numeral.notMem_canonical (by decide) (by decide) v⟩
  · rw [← Int.toNat_of_nonneg (show 0 ≤ base by omega), Numeral.isNumeral_iff_spells] at hn
    obtain ⟨v, hv⟩ := hn
    refine ⟨v, fun limit x => valueOf_of_spells limit x hb hb' hv (pads_trim text) hx, ?_⟩
    exact (Numeral.normalize_eq_canonical (by omega) hv).symm

/-- Numerals that look like others: with the prefix of base two, with that of base sixteen, and like
an operation. -/
theorem valueOf_of_numeral_alike :
    (∀ limit x, valueOf limit 16 " +0b1\n".toList x = .ok 177) ∧
      (∃ v, (∀ limit x, valueOf limit 36 "-0X1f".toList x = .ok v) ∧
        canonical 36 v = "-X1F".toList) ∧
      ∃ v, (∀ limit x, valueOf limit 16 "add".toList x = .ok v) ∧
        canonical 16 v = "ADD".toList := by
  have h16 := valueOf_of_numeral (show (2 : Int) ≤ 16 by decide) (by decide)
  have h36 := valueOf_of_numeral (show (2 : Int) ≤ 36 by decide) (by decide)
  refine ⟨?_, h36.2.2 _ (by decide) (by decide), h16.2.2 _ (by decide) (by decide)⟩
  exact h16.1 177 _ _ (Numeral.spells_iff.2 (by decide)) (by decide) (pads_trim " +0b1\n".toList)

end Share

end Quorum
