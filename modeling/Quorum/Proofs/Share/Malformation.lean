import Quorum.Proofs.Formula.Malformation
import Quorum.Proofs.Share.Formula

/-!
# Faults of share values

What is wrong with the value of a share (`Fails`), said of its text without the blanks around it.
A share in a base up to 36 denotes a point or is reported for what is wrong with its value first,
under its own number (`point_eq_error_iff`). The report says nothing else of the text, but where
digits are limited there is none for a number that is too long to be written (`point_reported`).
-/

namespace Quorum

open Quorum.Text (mem_trim_iff pads_trim trim)

theorem aboutShare_inj {id : Int} {text text' : String} :
    aboutShare (some id) text = aboutShare (some id) text' ↔ text = text' :=
  String.append_right_inj _

namespace Share

open Quorum.Numeral (Spells isAsciiInteger isAsciiInteger_iff isNumeral isNumeral_eq_false_iff
  letterValue? notMem_of_isNumeral spells_iff spells_ten_iff)

/-- The value of the share is malformed, and for this reason first. -/
inductive Fails (limit : Int) (s : Share) : Malformation → Prop
  | notNumeral {v : Int} (h : Spells 10 (trim s.value) v)
    (hn : ∀ w, ¬ Spells s.base.toNat (trim s.value) w) : Fails limit s (.notNumeral s.base)
  | formula {reason : Malformation} (h : Formula.Fails limit s.id (trim s.value) reason)
    (hn : Formula.variableLetter ∈ trim s.value ∨ ∀ w, ¬ Spells s.base.toNat (trim s.value) w) :
    Fails limit s reason

/-- The point that a share denotes, where a fault is put into words under a limit on digits. -/
def pointWithin (digits : DigitLimit) (limit : Int) (s : Share) : Except Fault Point :=
  (point limit s).mapError (Fault.within digits)

/-- What becomes of a share whose value may be malformed. -/
structure Reported (digits : DigitLimit) (limit : Int) (s : Share) : Prop where
  point_or_malformed : (∃ y, pointWithin digits limit s = .ok ⟨s.id, y⟩) ∨
    ∃ reason, pointWithin digits limit s = .error (.malformed (some s.id) reason)
  /-- Beside the number of the share, a report holds at most the base, the name of an operation or
  the place of an operand. -/
  wording : ∀ e, pointWithin digits limit s = .error e →
    ∃ text, Malformation.Wording s.base text ∧ e.message = s!"share {s.id}: {text}"
  /-- Of several operands the first that denotes nothing is reported, whatever is wrong with the
  number of operands or with an exponent. -/
  missing : ∀ place, (∃ e, pointWithin digits limit s = .error e ∧
      e.message = s!"share {s.id}: " ++ s!"operand {place} is empty") ↔
    Formula.StopsAt s.id (trim s.value) place []
  notInteger : ∀ place, (∃ e, pointWithin digits limit s = .error e ∧
      e.message = s!"share {s.id}: " ++ s!"operand {place} is not an integer literal") ↔
    ∃ operand, operand ≠ [] ∧ Formula.StopsAt s.id (trim s.value) place operand
  /-- Two texts with which the same is wrong are not told apart. -/
  same : ∀ reason text, Fails limit s reason → Fails limit { s with raw := text } reason →
    pointWithin digits limit { s with raw := text } = pointWithin digits limit s

variable {limit : Int} {s : Share} {reason : Malformation}

theorem Fails.wording (h : Fails limit s reason) :
    Malformation.Wording s.base reason.message := by
  cases h with
  | notNumeral => exact .ofBase
  | formula h => exact h.wording s.base

theorem valueOf_of_other_base {v x base : Int} {text : List Char} (h : Spells 10 (trim text) v)
    (hn : isNumeral base (trim text) = false) :
    valueOf limit base text x = .error (.malformed none (.notNumeral base)) := by
  simp [valueOf, hn, isAsciiInteger_iff.2 ⟨v, h⟩]

theorem mapError_malformed_eq_error_iff {id : Option Int} {r : Except Malformation Int} :
    r.mapError (Fault.malformed id) = .error (.malformed id reason) ↔ r = .error reason := by
  cases r <;> simp

theorem fails_of_valueOf (hb : 2 ≤ s.base) (hb' : s.base ≤ 36)
    (h : valueOf limit s.base s.value s.id = .error (.malformed none reason)) :
    Fails limit s reason := by
  by_cases hn : Formula.variableLetter ∈ trim s.value ∨
      ∀ w, ¬ Spells s.base.toNat (trim s.value) w
  · have hn' := hn.imp_right (isNumeral_eq_false_iff (by omega)).2
    by_cases hd : isAsciiInteger (trim s.value) = true
    · obtain ⟨v, hv⟩ := isAsciiInteger_iff.1 hd
      have hx : Formula.variableLetter ∉ trim s.value :=
        (spells_ten_iff.1 hv).1.notMem (by decide) (by decide) (by decide)
      rw [valueOf_of_other_base hv (hn'.resolve_left hx)] at h
      cases h
      exact .notNumeral hv (hn.resolve_left hx)
    · rw [valueOf_of_formula hn' (Bool.eq_false_iff.2 hd), mapError_malformed_eq_error_iff,
        Formula.evaluate_eq_error_iff] at h
      exact .formula h hn
  · obtain ⟨hx, hn⟩ := not_or.1 hn
    obtain ⟨w, hw⟩ := not_forall_not.1 hn
    rw [mem_trim_iff (by decide)] at hx
    rw [valueOf_of_spells limit s.id hb hb' hw (pads_trim s.value) hx] at h
    cases h

theorem Fails.valueOf_eq (h : Fails limit s reason) (hb : 2 ≤ s.base) :
    valueOf limit s.base s.value s.id = .error (.malformed none reason) := by
  cases h with
  | notNumeral h hn => exact valueOf_of_other_base h ((isNumeral_eq_false_iff (by omega)).2 hn)
  | formula h hn =>
    -- A numeral of base ten has a value as a formula.
    have hd : isAsciiInteger (trim s.value) = false := by
      rw [Bool.eq_false_iff, Ne, isAsciiInteger_iff]
      rintro ⟨v, hv⟩
      have hr := h.evaluate
      rw [Formula.evaluate, Formula.read_of_literal (spells_ten_iff.1 hv).1] at hr
      cases hr
    rw [valueOf_of_formula (hn.imp_right (isNumeral_eq_false_iff (by omega)).2) hd,
      mapError_malformed_eq_error_iff, h.evaluate]

/-- A share that denotes no point is reported for what is wrong with its value first. -/
theorem point_eq_error_iff (hb : 2 ≤ s.base) (hb' : s.base ≤ 36) {e : Fault} :
    point limit s = .error e ↔
      ∃ reason, e = .malformed (some s.id) reason ∧ Fails limit s reason := by
  constructor
  · intro h
    rcases valueOf_cases limit s.value s.id hb hb' with ⟨v, hv⟩ | ⟨reason, hr⟩
    · rw [point_eq_ok hv] at h
      cases h
    · rw [point_eq_error hr] at h
      cases h
      exact ⟨reason, rfl, fails_of_valueOf hb hb' hr⟩
  · rintro ⟨reason, rfl, h⟩
    exact point_eq_error (h.valueOf_eq hb)

/-- A reason is reported in its words exactly where it is what is wrong first. -/
theorem point_message_iff (hb : 2 ≤ s.base) (hb' : s.base ≤ 36) :
    (∃ e, point limit s = .error e ∧ e.message = s!"share {s.id}: {reason.message}") ↔
      Fails limit s reason := by
  constructor
  · rintro ⟨e, he, hm⟩
    obtain ⟨reason', rfl, h⟩ := (point_eq_error_iff hb hb').1 he
    rwa [← Malformation.message_injective (aboutShare_inj.1 hm)]
  · exact fun h => ⟨_, (point_eq_error_iff hb hb').2 ⟨reason, rfl, h⟩, rfl⟩

theorem not_spells_of_stopsAt {x : Int} {t operand : List Char} {place : Nat}
    (h : Formula.StopsAt x t place operand) (base : Nat) (w : Int) : ¬ Spells base t w := by
  intro hw
  cases h with
  | intro h _ _ =>
    cases h with
    | call =>
      exact notMem_of_isNumeral (spells_iff.1 hw).1 (by decide) (by decide)
        (show letterValue? '(' = none by decide) (List.mem_append_right _ List.mem_cons_self)

theorem fails_operandMissing_iff {place : Nat} :
    Fails limit s (.operandMissing place) ↔ Formula.StopsAt s.id (trim s.value) place [] := by
  constructor
  · rintro (_ | ⟨h, -⟩)
    exact h.of_operandMissing
  · exact fun h => .formula (.missing h) (.inr (not_spells_of_stopsAt h _))

theorem fails_operandNotInteger_iff {place : Nat} :
    Fails limit s (.operandNotInteger place) ↔
      ∃ operand, operand ≠ [] ∧ Formula.StopsAt s.id (trim s.value) place operand := by
  constructor
  · rintro (_ | ⟨h, -⟩)
    exact h.of_operandNotInteger
  · rintro ⟨operand, hne, h⟩
    exact .formula (.notInteger h hne) (.inr (not_spells_of_stopsAt h _))

/-! ## Limits -/

variable {digits : DigitLimit}

/-- A reason shows no number but the base. -/
theorem Fails.mem_numbers (h : Fails limit s reason) : ∀ v ∈ reason.numbers, v = s.base := by
  cases reason with
  | notNumeral base =>
    cases h with
    | notNumeral => exact fun v hv => List.mem_singleton.1 hv
    | formula h =>
      generalize trim s.value = t at h
      cases h with
      | flaw h => cases h
      | refused _ _ h => cases h
  | _ => exact nofun

theorem Fails.fits (h : Fails limit s reason) (hi : digits.Allows (Numeral.digitCount s.id))
    (hd : digits.Allows (Numeral.digitCount s.base)) :
    (Fault.malformed (some s.id) reason).Fits digits := by
  intro v hv
  rcases List.mem_append.1 hv with hv | hv
  · rwa [List.mem_singleton.1 hv]
  · rwa [h.mem_numbers v hv]

theorem pointWithin_eq (hb : 2 ≤ s.base) (hb' : s.base ≤ 36)
    (hi : digits.Allows (Numeral.digitCount s.id)) (hd : digits.Allows (Numeral.digitCount s.base)) :
    pointWithin digits limit s = point limit s := by
  cases h : point limit s with
  | ok p => rw [pointWithin, h]; rfl
  | error e =>
    obtain ⟨reason, rfl, hf⟩ := (point_eq_error_iff hb hb').1 h
    rw [pointWithin, h, mapError_error, Fault.within_of_fits (hf.fits hi hd)]

theorem reported_of_allows (limit : Int) (hb : 2 ≤ s.base) (hb' : s.base ≤ 36)
    (hi : digits.Allows (Numeral.digitCount s.id))
    (hd : digits.Allows (Numeral.digitCount s.base)) : Reported digits limit s := by
  have hw : pointWithin digits limit s = point limit s := pointWithin_eq hb hb' hi hd
  constructor
  · rw [hw]
    rcases valueOf_cases limit s.value s.id hb hb' with ⟨v, hv⟩ | ⟨reason, hr⟩
    · exact .inl ⟨v, point_eq_ok hv⟩
    · exact .inr ⟨reason, point_eq_error hr⟩
  · intro e he
    rw [hw] at he
    obtain ⟨reason, rfl, h⟩ := (point_eq_error_iff hb hb').1 he
    exact ⟨reason.message, h.wording, rfl⟩
  · rw [hw]
    exact fun place => (point_message_iff hb hb').trans fails_operandMissing_iff
  · rw [hw]
    exact fun place => (point_message_iff hb hb').trans fails_operandNotInteger_iff
  · intro reason text h h'
    have hp := (point_eq_error (h'.valueOf_eq hb)).trans (point_eq_error (h.valueOf_eq hb)).symm
    rw [pointWithin, pointWithin, hp]

/-- A share in a base up to 36 denotes a point, or it is malformed and is reported without its
value. Where its number is too long to be written, this is said instead. -/
theorem point_reported (digits : DigitLimit) (limit : Int) (s : Share) (hb : 2 ≤ s.base)
    (hb' : s.base ≤ 36) :
    ((∃ y, pointWithin digits limit s = .ok ⟨s.id, y⟩) ∨ ∃ reason,
      pointWithin digits limit s = .error ((Fault.malformed (some s.id) reason).within digits)) ∧
    (digits.Allows (Numeral.digitCount s.id) → digits.Allows (Numeral.digitCount s.base) →
      Reported digits limit s) ∧
    (¬ digits.Allows (Numeral.digitCount s.id) → ∀ e, pointWithin digits limit s = .error e →
      ∃ m, digits = .most m ∧ e = .refused (.tooManyDigits m none)) := by
  have hcases : (∃ y, pointWithin digits limit s = .ok ⟨s.id, y⟩) ∨ ∃ reason,
      pointWithin digits limit s = .error ((Fault.malformed (some s.id) reason).within digits) := by
    rcases valueOf_cases limit s.value s.id hb hb' with ⟨v, hv⟩ | ⟨reason, hr⟩
    · exact .inl ⟨v, by rw [pointWithin, point_eq_ok hv]; rfl⟩
    · exact .inr ⟨reason, by rw [pointWithin, point_eq_error hr]; rfl⟩
  refine ⟨hcases, reported_of_allows limit hb hb', fun hn e he => ?_⟩
  rcases hcases with ⟨y, hy⟩ | ⟨reason, hr⟩
  · cases hy.symm.trans he
  · have hf : ¬ (Fault.malformed (some s.id) reason).Fits digits := fun hf =>
      hn (hf s.id List.mem_cons_self)
    obtain ⟨m, hm, hw⟩ := Fault.exists_within_of_not_fits hf
    exact ⟨m, hm, Except.error.inj (he.symm.trans (hr.trans (congrArg _ hw)))⟩

/-- The second of three operands is no integer. That a power takes two of them is not reported. -/
theorem point_reported_power :
    ∃ e, pointWithin .standard 9 ⟨7, 16, .text "power(2, -x, 5)".toList⟩ = .error e ∧
      e.message = "share 7: operand 2 is not an integer literal" := by
  have hr : Formula.read "power(2, -x, 5)".toList =
      .ok (.call .power (["2".toList] ++ "-x".toList :: ["5".toList])) := by decide
  have hb : ∀ o ∈ ["2".toList], ∃ v, Formula.Denotes 7 o v := by
    rintro o (_ | ⟨_, ⟨⟩⟩)
    exact ⟨2, Formula.operandValue_eq_ok_iff.1 (show Formula.operandValue 7 1 _ = _ by decide)⟩
  have hd : ∀ v, ¬ Formula.Denotes 7 "-x".toList v :=
    (Formula.operandValue_eq_error_iff.1
      (show Formula.operandValue 7 2 _ = .error (.operandNotInteger 2) by decide)).1
  have hp := (point_reported .standard 9 ⟨7, 16, .text "power(2, -x, 5)".toList⟩ (by decide)
    (by decide)).2.1 (DigitLimit.allows_most_iff.2 (by decide))
      (DigitLimit.allows_most_iff.2 (by decide))
  exact (hp.notInteger 2).2 ⟨_, by decide, .intro (((Formula.read_iff _).1 _).1 hr) hb hd⟩

/-- A blank share whose number has one digit too many is not reported under it. -/
theorem pointWithin_of_longId : pointWithin .standard 9 ⟨10 ^ 4300, 10, .text []⟩ =
    .error (.refused (.tooManyDigits 4300 none)) := by
  have hp : ∀ id, 4300 < Numeral.digitCount id → pointWithin .standard 9 ⟨id, 10, .text []⟩ =
      .error (.refused (.tooManyDigits 4300 none)) := fun id hm =>
    congrArg Except.error
      (Fault.within_most_of_lt (e := .malformed (some id) .blank) List.mem_cons_self hm)
  exact hp _ (Numeral.lt_digitCount_ten_pow (by decide))

end Share

end Quorum
