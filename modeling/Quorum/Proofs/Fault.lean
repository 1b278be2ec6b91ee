import Quorum.Proofs.Journal
import Quorum.Proofs.Numeral.DigitLimit

/-!
# Faults under a limit on digits

A fault is put into words as it is where the limit allows every number that it shows (`Fault.Fits`),
and else the refusal of a number stands in its place (`Fault.within_of_fits`,
`Fault.exists_within_of_not_fits`). Results do not depend on the limit, and a lifted one changes
nothing.
-/

namespace Quorum

variable {α : Type} {digits : DigitLimit}

namespace Fault

/-- The limit allows every number that the fault shows. -/
def Fits (digits : DigitLimit) (e : Fault) : Prop :=
  ∀ v ∈ e.numbers, digits.Allows (Numeral.digitCount v)

variable {e : Fault}

theorem fits_lifted (e : Fault) : e.Fits .lifted :=
  fun _ _ => DigitLimit.allows_lifted _

theorem within_of_fits (h : e.Fits digits) : e.within digits = e := by
  have hn : e.numbers.findSome? (fun v => digits.exceeded? (Numeral.digitCount v)) = none :=
    List.findSome?_eq_none_iff.2 fun v hv => DigitLimit.exceeded?_eq_none_iff.2 (h v hv)
  rw [within, hn]

theorem exists_within_of_not_fits (h : ¬ e.Fits digits) :
    ∃ m, digits = .most m ∧ e.within digits = .refused (.tooManyDigits m none) := by
  have hs : (e.numbers.findSome? fun v => digits.exceeded? (Numeral.digitCount v)) ≠ none := by
    rw [Ne, List.findSome?_eq_none_iff]
    exact fun hn => h fun v hv => DigitLimit.exceeded?_eq_none_iff.1 (hn v hv)
  obtain ⟨m, hm⟩ := Option.ne_none_iff_exists'.1 hs
  obtain ⟨v, -, hv⟩ := List.exists_of_findSome?_eq_some hm
  exact ⟨m, (DigitLimit.exceeded?_eq_some_iff.1 hv).1, by rw [within, hm]⟩

theorem within_most_of_lt {m : Nat} {v : Int} (hv : v ∈ e.numbers) (hm : m < Numeral.digitCount v) :
    e.within (.most m) = .refused (.tooManyDigits m none) := by
  obtain ⟨n, hn, hw⟩ :=
    exists_within_of_not_fits fun hf : e.Fits (.most m) => not_le.2 hm (hf v hv m rfl)
  cases hn
  exact hw

@[simp] theorem within_lifted (e : Fault) : e.within .lifted = e :=
  within_of_fits e.fits_lifted

/-- A fault that is no refusal of a number has been put into words as it is. -/
theorem eq_of_within_eq {e' : Fault} (h : e.within digits = e')
    (hn : ∀ m, e' ≠ .refused (.tooManyDigits m none)) : e = e' ∧ e.Fits digits := by
  by_cases hf : e.Fits digits
  · exact ⟨(within_of_fits hf).symm.trans h, hf⟩
  · obtain ⟨m, -, hw⟩ := exists_within_of_not_fits hf
    exact absurd (h.symm.trans hw) (hn m)

end Fault

@[simp] theorem mapError_within_lifted (r : Except Fault α) :
    r.mapError (Fault.within .lifted) = r := by
  cases r <;> simp

namespace Journal

@[simp] theorem within_lifted (j : Journal α) : j.within .lifted = j := by
  cases j
  simp [within]

end Journal

namespace DigitLimit

variable {count m : Nat} {v : Int}

theorem require_eq_ok (h : digits.Allows count) : digits.require count = .ok () := by
  rw [require, exceeded?_eq_none_iff.2 h]

theorem require_most_of_lt (h : m < count) :
    (most m).require count = .error (.refused (.tooManyDigits m (some count))) := by
  rw [require, exceeded?_eq_some_iff.2 ⟨rfl, h⟩]

theorem require_eq_error_iff {e : Fault} : digits.require count = .error e ↔
    ∃ m, digits = .most m ∧ m < count ∧ e = .refused (.tooManyDigits m (some count)) := by
  constructor
  · intro h
    by_cases ha : digits.Allows count
    · rw [require_eq_ok ha] at h
      cases h
    · obtain ⟨m, rfl, hm⟩ := not_allows_iff.1 ha
      rw [require_most_of_lt hm] at h
      cases h
      exact ⟨m, rfl, hm, rfl⟩
  · rintro ⟨m, rfl, hm, rfl⟩
    exact require_most_of_lt hm

theorem write_eq_ok (h : digits.Allows (Numeral.digitCount v)) :
    digits.write v = .ok (Numeral.decimal v) := by
  rw [write, exceeded?_eq_none_iff.2 h]

theorem write_most_of_lt (h : m < Numeral.digitCount v) :
    (most m).write v = .error (.refused (.tooManyDigits m none)) := by
  rw [write, exceeded?_eq_some_iff.2 ⟨rfl, h⟩]

end DigitLimit

end Quorum
