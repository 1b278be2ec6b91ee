import Quorum.Proofs.Formula.Grammar
import Quorum.Proofs.Share

/-!
# Values that are formulas

A value without the variable that is a numeral of its base is read in the base, and a numeral of
base ten that is none in the base is refused. Every other value is read as a formula
(`valueOf_of_formula`). No numeral holds the variable of a formula or a parenthesis, so on texts
with one of them the base has no influence; in base ten it has none on any text, since a formula
reads the numerals of base ten alike (`valueOf_eq_evaluate`).
-/

namespace Quorum

open Quorum.Numeral (Spells isAsciiInteger isAsciiInteger_iff isNumeral letterValue?
  notMem_of_isNumeral spells_ten_iff)
open Quorum.Text (digitValue? isBlank mem_trim_iff pads_trim trim trim_trim)

theorem Formula.evaluate_trim (limit x : Int) (s : List Char) :
    evaluate limit x (trim s) = evaluate limit x s := by
  rw [evaluate, evaluate, read, read, trim_trim]

namespace Share

variable {limit x base : Int} {text : List Char}

theorem valueOf_of_formula
    (hn : Formula.variableLetter ∈ trim text ∨ isNumeral base (trim text) = false)
    (hd : isAsciiInteger (trim text) = false) :
    valueOf limit base text x = (Formula.evaluate limit x text).mapError (.malformed none) := by
  have hc : ¬ (Formula.variableLetter ∉ trim text ∧ isNumeral base (trim text) = true) := by
    rintro ⟨hx, hb⟩
    rcases hn with hn | hn
    · exact hx hn
    · rw [hn] at hb
      cases hb
  rw [← Formula.evaluate_trim]
  simp [valueOf, hd, hc]

/-- The variable or a parenthesis makes a value a formula. -/
theorem valueOf_of_mem {c : Char} (h : c ∈ text)
    (hc : c = Formula.variableLetter ∨ c = '(' ∨ c = ')') :
    valueOf limit base text x = (Formula.evaluate limit x text).mapError (.malformed none) := by
  obtain ⟨hb, hp, hm, hd, hv⟩ : isBlank c = false ∧ c ≠ '+' ∧ c ≠ '-' ∧ digitValue? c = none ∧
      (c = Formula.variableLetter ∨ letterValue? c = none) := by
    rcases hc with rfl | rfl | rfl <;> decide
  rw [← mem_trim_iff hb] at h
  refine valueOf_of_formula ?_ ?_
  · rcases hv with rfl | hv
    · exact .inl h
    · exact .inr (Bool.eq_false_iff.2 fun hn => notMem_of_isNumeral hn hm hp hv h)
  · rw [Bool.eq_false_iff, Ne, isAsciiInteger_iff]
    rintro ⟨v, hv⟩
    exact (spells_ten_iff.1 hv).1.notMem hp hm hd h

theorem valueOf_ten :
    valueOf limit 10 text x = (Formula.evaluate limit x text).mapError (.malformed none) := by
  by_cases hn : ∃ v, Spells 10 (trim text) v
  · obtain ⟨v, hv⟩ := hn
    have hd := (spells_ten_iff.1 hv).1
    have hx : Formula.variableLetter ∉ text :=
      (mem_trim_iff (by decide)).not.1 (hd.notMem (by decide) (by decide) (by decide))
    rw [valueOf_of_spells limit x (show (2 : Int) ≤ 10 by decide) (by decide) hv (pads_trim text)
      hx, Formula.evaluate, Formula.read_of_literal hd]
    rfl
  · refine valueOf_of_formula (.inr ?_) ?_
    · exact Bool.eq_false_iff.2 (Numeral.isNumeral_iff_spells.not.2 hn)
    · exact Bool.eq_false_iff.2 (isAsciiInteger_iff.not.2 hn)

/-- In base ten every value is what it is as a formula, and in any base one that holds the variable
or a parenthesis is, with the same result or the same fault. -/
theorem valueOf_eq_evaluate (limit x : Int) (text : List Char) :
    valueOf limit 10 text x = (Formula.evaluate limit x text).mapError (.malformed none) ∧
      ∀ base, Formula.variableLetter ∈ text ∨ '(' ∈ text ∨ ')' ∈ text →
        valueOf limit base text x =
          (Formula.evaluate limit x text).mapError (.malformed none) := by
  refine ⟨valueOf_ten, fun base h => ?_⟩
  rcases h with h | h | h <;> exact valueOf_of_mem h (by decide)

/-- A literal in digits of another script, a name whose letters are digits of base thirty-six, and a
sign without digits. -/
theorem valueOf_eq_evaluate_mixed :
    valueOf 0 10 " +٣ ".toList 5 = .ok 3 ∧
      valueOf 0 36 " addx\n".toList 5 = .error (.malformed none .templateNotInteger) ∧
      valueOf 0 16 "add(x,1)".toList 5 = .ok 6 ∧
      valueOf 0 10 "-".toList 5 = .error (.malformed none .formless) := by
  have h := fun s => valueOf_eq_evaluate 0 5 s
  refine ⟨?_, ?_, ?_, ?_⟩
  · rw [(h " +٣ ".toList).1]
    decide
  · rw [(h " addx\n".toList).2 36 (by decide)]
    decide
  · rw [(h "add(x,1)".toList).2 16 (by decide)]
    decide
  · rw [(h "-".toList).1]
    decide

end Share

end Quorum
