import Mathlib
import Quorum.Numeral.DigitLimit

/-!
# What a limit on digits allows

A limit allows so many digits or refuses them (`DigitLimit.exceeded?_eq_none_iff`,
`DigitLimit.exceeded?_eq_some_iff`), and a lifted one allows any number of them. A number has at most
`m` digits if it is less than the `m`th power of ten (`Numeral.digitCount_le_iff`).
-/

namespace Quorum

namespace DigitLimit

/-- There may be so many digits. -/
def Allows (digits : DigitLimit) (count : Nat) : Prop :=
  ∀ m, digits = .most m → count ≤ m

variable {digits : DigitLimit} {count m : Nat}

theorem allows_lifted (count : Nat) : lifted.Allows count :=
  nofun

theorem allows_most_iff : (most m).Allows count ↔ count ≤ m := by
  simp [Allows]

theorem exceeded?_eq_some_iff : digits.exceeded? count = some m ↔ digits = .most m ∧ m < count := by
  cases digits with
  | lifted => simp [exceeded?]
  | most n =>
    rw [exceeded?, Option.ite_none_right_eq_some, Option.some.injEq, most.injEq, and_comm]
    exact and_congr_right fun h => by rw [h]

theorem exceeded?_eq_none_iff : digits.exceeded? count = none ↔ digits.Allows count := by
  rw [Option.eq_none_iff_forall_ne_some]
  simp only [ne_eq, exceeded?_eq_some_iff, not_and, not_lt, Allows]

theorem not_allows_iff : ¬ digits.Allows count ↔ ∃ m, digits = .most m ∧ m < count := by
  simp [Allows]

end DigitLimit

namespace Numeral

/-- A number with so many digits at most is below a power of ten. -/
theorem digitCount_le_iff {v : Int} {m : Nat} (hm : 0 < m) :
    digitCount v ≤ m ↔ v.natAbs < 10 ^ m := by
  rw [digitCount, natDigits, String.length_toList]
  exact Nat.length_repr_le_iff hm

theorem digitCount_mono {v w : Int} (h : v.natAbs ≤ w.natAbs) : digitCount v ≤ digitCount w := by
  have hw : 0 < digitCount w := by
    rw [digitCount, natDigits, String.length_toList]
    exact Nat.length_repr_pos
  exact (digitCount_le_iff hw).2 (h.trans_lt ((digitCount_le_iff hw).1 le_rfl))

/-- A power of ten has one digit more than its exponent says. -/
theorem lt_digitCount_ten_pow {m : Nat} (hm : 0 < m) : m < digitCount (10 ^ m) := by
  rw [← not_le, digitCount_le_iff hm, Int.natAbs_pow]
  exact lt_irrefl _

end Numeral

end Quorum
