import Quorum.Proofs.Formula.Value

/-!
# Faults of formulas

What is wrong with a text that has no value (`Fails`), said of the text as the grammar has it:
`evaluate_eq_error_iff` says that this and nothing else is reported. Of several operands the first
that denotes nothing decides, before the operation is looked at (`operandValues_eq_error_iff`).

The wording of a reason is one of a closed list of texts (`Wording`), and no two reasons are worded
alike (`message_injective`).
-/

namespace Quorum

namespace Malformation

open Quorum.Numeral (decimal decimal_injective natDigits)

/-- The texts that a reason is told in. They hold at most the base, the name of an operation or the
place of an operand. -/
inductive Wording (base : Int) : String → Prop
  | fixed {text : String} (h : text ∈ ["empty expression", "unknown function name",
      "unbalanced parentheses", "nested function calls are not supported",
      "not an integer literal or function call", "substituted value is not an integer literal",
      "power takes exactly two operands", "power exponent must be non-negative",
      "power exponent is too large"]) : Wording base text
  | ofBase : Wording base s!"value is not a valid base-{base} numeral"
  | ofOperation {name : String}
      (h : name ∈ ["multiply", "add", "subtract", "gcd", "lcm", "power"]) :
      Wording base s!"{name} needs at least one operand"
  | missing {i : Nat} (h : 1 ≤ i) : Wording base s!"operand {i} is empty"
  | notInteger {i : Nat} (h : 1 ≤ i) : Wording base s!"operand {i} is not an integer literal"

/-- The reasons that name neither a base nor the place of an operand. -/
def plain : List Malformation :=
  [blank, unknownOperation, unbalanced, nested, formless, templateNotInteger, powerArity,
    exponentNegative, exponentTooLarge] ++ Operation.all.map operandsNeeded

theorem mem_plain_or (a : Malformation) :
    a ∈ plain ∨ (∃ i, a = operandMissing i) ∨ (∃ i, a = operandNotInteger i) ∨
      ∃ b, a = notNumeral b := by
  cases a with
  | operandMissing i => exact .inr (.inl ⟨i, rfl⟩)
  | operandNotInteger i => exact .inr (.inr (.inl ⟨i, rfl⟩))
  | notNumeral b => exact .inr (.inr (.inr ⟨b, rfl⟩))
  | operandsNeeded f => cases f <;> exact .inl (by decide)
  | _ => exact .inl (by decide)

theorem toList_operandMissing (i : Nat) : (operandMissing i).message.toList =
    "operand ".toList ++ natDigits i ++ " is empty".toList := by
  show ("operand " ++ toString i ++ " is empty").toList = _
  rw [String.toList_append, String.toList_append]
  rfl

theorem toList_operandNotInteger (i : Nat) : (operandNotInteger i).message.toList =
    "operand ".toList ++ natDigits i ++ " is not an integer literal".toList := by
  show ("operand " ++ toString i ++ " is not an integer literal").toList = _
  rw [String.toList_append, String.toList_append]
  rfl

theorem toList_notNumeral (b : Int) : (notNumeral b).message.toList =
    "value is not a valid base-".toList ++ decimal b ++ " numeral".toList := by
  show ("value is not a valid base-" ++ toString b ++ " numeral").toList = _
  rw [String.toList_append, String.toList_append, Numeral.toList_toString]

theorem head_plain : ∀ a ∈ plain, a.message.toList.head? ∉ [some 'o', some 'v'] := by
  decide +kernel

theorem eq_operandMissing {a : Malformation} {i : Nat}
    (h : a.message = (operandMissing i).message) : a = operandMissing i := by
  have ht := congrArg String.toList h
  rw [toList_operandMissing] at ht
  rcases a.mem_plain_or with ha | ⟨j, rfl⟩ | ⟨j, rfl⟩ | ⟨b, rfl⟩
  · exact absurd (by simp [ht]) (head_plain a ha)
  · rw [toList_operandMissing] at ht
    have hd := List.append_cancel_left (List.append_cancel_right ht)
    rw [Numeral.natDigits_injective hd]
  · rw [toList_operandNotInteger] at ht
    have hlast := congrArg (fun l => l.reverse.head?) ht
    simp at hlast
  · rw [toList_notNumeral] at ht
    have hhead := congrArg List.head? ht
    simp at hhead

theorem eq_operandNotInteger {a : Malformation} {i : Nat}
    (h : a.message = (operandNotInteger i).message) : a = operandNotInteger i := by
  have ht := congrArg String.toList h
  rw [toList_operandNotInteger] at ht
  rcases a.mem_plain_or with ha | ⟨j, rfl⟩ | ⟨j, rfl⟩ | ⟨b, rfl⟩
  · exact absurd (by simp [ht]) (head_plain a ha)
  · cases eq_operandMissing h.symm
  · rw [toList_operandNotInteger] at ht
    have hd := List.append_cancel_left (List.append_cancel_right ht)
    rw [Numeral.natDigits_injective hd]
  · rw [toList_notNumeral] at ht
    have hhead := congrArg List.head? ht
    simp at hhead

theorem eq_notNumeral {a : Malformation} {b : Int} (h : a.message = (notNumeral b).message) :
    a = notNumeral b := by
  have ht := congrArg String.toList h
  rw [toList_notNumeral] at ht
  rcases a.mem_plain_or with ha | ⟨j, rfl⟩ | ⟨j, rfl⟩ | ⟨c, rfl⟩
  · exact absurd (by simp [ht]) (head_plain a ha)
  · cases eq_operandMissing h.symm
  · cases eq_operandNotInteger h.symm
  · rw [toList_notNumeral] at ht
    have hd := List.append_cancel_left (List.append_cancel_right ht)
    rw [decimal_injective hd]

/-- Each reason has its own wording. -/
theorem message_injective : Function.Injective message := by
  have hplain : ∀ a ∈ plain, ∀ b ∈ plain, a.message = b.message → a = b := by decide +kernel
  intro a b h
  rcases b.mem_plain_or with hb | ⟨i, rfl⟩ | ⟨i, rfl⟩ | ⟨c, rfl⟩
  · rcases a.mem_plain_or with ha | ⟨i, rfl⟩ | ⟨i, rfl⟩ | ⟨c, rfl⟩
    · exact hplain a ha b hb h
    · exact (eq_operandMissing h.symm).symm
    · exact (eq_operandNotInteger h.symm).symm
    · exact (eq_notNumeral h.symm).symm
  · exact eq_operandMissing h
  · exact eq_operandNotInteger h
  · exact eq_notNumeral h

end Malformation

namespace Formula

open Quorum.Numeral (SpellsDecimal)
open Quorum.Text (trim)

/-- The text is a call, and of its operands the one at the place, counted from one, is the first
that denotes nothing. -/
inductive StopsAt (x : Int) (t : List Char) : Nat → List Char → Prop
  | intro {f : Operation} {before after : List (List Char)} {operand : List Char}
    (h : Spells t (.call f (before ++ operand :: after))) (hb : ∀ o ∈ before, ∃ v, Denotes x o v)
    (hd : ∀ v, ¬ Denotes x operand v) : StopsAt x t (before.length + 1) operand

/-- The text, which has no blanks around it, has no value where the variable is `x`, and for this
reason first. -/
inductive Fails (limit x : Int) (t : List Char) : Malformation → Prop
  | flaw {reason : Malformation} (h : Flaw t reason) : Fails limit x t reason
  | missing {place : Nat} (h : StopsAt x t place []) : Fails limit x t (.operandMissing place)
  | notInteger {place : Nat} {operand : List Char} (h : StopsAt x t place operand)
    (hne : operand ≠ []) : Fails limit x t (.operandNotInteger place)
  | refused {f : Operation} {operands : List (List Char)} {vs : List Int} {reason : Malformation}
      (h : Spells t (.call f operands)) (hd : List.Forall₂ (Denotes x) operands vs)
      (hr : f.Refuses limit vs reason) : Fails limit x t reason
  | template (h : Spells t (.template t)) (hv : ∀ v, ¬ SpellsDecimal (substitute x t) v) :
      Fails limit x t .templateNotInteger

variable {limit x : Int}

theorem StopsAt.one_le {t operand : List Char} {place : Nat} (h : StopsAt x t place operand) :
    1 ≤ place := by
  cases h
  exact Nat.le_add_left 1 _

theorem Fails.wording {t : List Char} {reason : Malformation} (h : Fails limit x t reason)
    (base : Int) : Malformation.Wording base reason.message := by
  cases h with
  | flaw h => cases h <;> exact .fixed (by decide)
  | missing h => exact .missing h.one_le
  | notInteger h => exact .notInteger h.one_le
  | refused _ _ hr =>
    cases hr with
    | noOperands hf => rcases hf with rfl | rfl | rfl <;> exact .ofOperation (by decide)
    | _ => exact .fixed (by decide)
  | template => exact .fixed (by decide)

theorem Fails.of_operandMissing {t : List Char} {place : Nat}
    (h : Fails limit x t (.operandMissing place)) : StopsAt x t place [] := by
  cases h with
  | flaw h => cases h
  | missing h => exact h
  | refused _ _ h => cases h

theorem Fails.of_operandNotInteger {t : List Char} {place : Nat}
    (h : Fails limit x t (.operandNotInteger place)) :
    ∃ operand, operand ≠ [] ∧ StopsAt x t place operand := by
  cases h with
  | flaw h => cases h
  | notInteger h hne => exact ⟨_, hne, h⟩
  | refused _ _ h => cases h

theorem operandValue_of_not_denotes {place : Nat} {operand : List Char}
    (h : ∀ v, ¬ Denotes x operand v) :
    operandValue x place operand =
      .error (if operand = [] then .operandMissing place else .operandNotInteger place) := by
  by_cases hne : operand = []
  · subst hne
    rfl
  · have hx : operand ≠ [variableLetter] := by
      rintro rfl
      exact h x .letter
    have hi : Numeral.integer? operand = none :=
      Option.eq_none_iff_forall_ne_some.2 fun v hv =>
        h v (.literal (Numeral.integer?_eq_some_iff.1 hv))
    simp [operandValue, hne, hx, hi]

theorem operandValue_eq_error_iff {place : Nat} {operand : List Char} {reason : Malformation} :
    operandValue x place operand = .error reason ↔
      (∀ v, ¬ Denotes x operand v) ∧
        (if operand = [] then .operandMissing place else .operandNotInteger place) = reason := by
  constructor
  · intro h
    have hd : ∀ v, ¬ Denotes x operand v := by
      intro v hv
      rw [operandValue_eq_ok_iff.2 hv] at h
      cases h
    rw [operandValue_of_not_denotes hd] at h
    exact ⟨hd, Except.error.inj h⟩
  · rintro ⟨hd, rfl⟩
    exact operandValue_of_not_denotes hd

/-- The first operand that denotes nothing decides. -/
theorem operandValues_eq_error_iff {place : Nat} {operands : List (List Char)}
    {reason : Malformation} :
    operandValues x place operands = .error reason ↔
      ∃ before operand after, operands = before ++ operand :: after ∧
        (∀ o ∈ before, ∃ v, Denotes x o v) ∧
        operandValue x (place + before.length) operand = .error reason := by
  induction operands generalizing place with
  | nil => simp [operandValues]
  | cons o r ih =>
    rw [operandValues, bind_eq_error_iff]
    simp only [bind_eq_error_iff, operandValue_eq_ok_iff, ih, pure_eq_ok, reduceCtorEq, and_false,
      exists_false, or_false]
    constructor
    · rintro (h | ⟨v, hv, before, operand, after, rfl, hb, h⟩)
      · exact ⟨[], o, r, rfl, List.forall_mem_nil _, h⟩
      · refine ⟨o :: before, operand, after, rfl, List.forall_mem_cons.2 ⟨⟨v, hv⟩, hb⟩, ?_⟩
        rwa [List.length_cons, Nat.add_comm before.length, ← Nat.add_assoc]
    · rintro ⟨before, operand, after, he, hb, h⟩
      cases before with
      | nil =>
        cases he
        exact .inl h
      | cons b before =>
        cases he
        obtain ⟨⟨v, hv⟩, hb⟩ := List.forall_mem_cons.1 hb
        refine .inr ⟨v, hv, before, operand, after, rfl, hb, ?_⟩
        rwa [List.length_cons, Nat.add_comm before.length, ← Nat.add_assoc] at h

theorem value_call_eq_error {t : List Char} {f : Operation} {operands : List (List Char)}
    {reason : Malformation} (ht : Spells t (.call f operands))
    (h : value limit x (.call f operands) = .error reason) : Fails limit x t reason := by
  rcases bind_eq_error_iff.1 h with h | ⟨vs, hvs, h⟩
  · obtain ⟨before, operand, after, rfl, hb, h⟩ := operandValues_eq_error_iff.1 h
    obtain ⟨hd, rfl⟩ := operandValue_eq_error_iff.1 h
    have hs : StopsAt x t (before.length + 1) operand := .intro ht hb hd
    rw [Nat.add_comm 1]
    split
    · rename_i hne
      exact .missing (hne ▸ hs)
    · rename_i hne
      exact .notInteger hs hne
  · exact .refused ht (operandValues_eq_ok_iff.1 hvs) (((f.apply_iff limit vs).2 reason).1 h)

theorem fails_of_evaluate {s : List Char} {reason : Malformation}
    (h : evaluate limit x s = .error reason) : Fails limit x (trim s) reason := by
  rcases bind_eq_error_iff.1 h with h | ⟨F, hF, h⟩
  · exact .flaw (((read_iff s).2 reason).1 h)
  have ht := ((read_iff s).1 F).1 hF
  cases F with
  | literal v => cases h
  | call f operands => exact value_call_eq_error ht h
  | template t =>
    obtain ⟨rfl, -⟩ := spells_template_iff.1 ht
    obtain ⟨hv, rfl⟩ := value_template_eq_error_iff.1 h
    exact .template ht hv

/-- The first operand that denotes nothing is reported, whatever the operation. -/
theorem StopsAt.evaluate {s operand : List Char} {place : Nat}
    (h : StopsAt x (trim s) place operand) :
    evaluate limit x s =
      .error (if operand = [] then .operandMissing place else .operandNotInteger place) := by
  cases h with
  | @intro f before after _ ht hb hd =>
    rw [Formula.evaluate, ht.read, ok_bind, value]
    refine bind_eq_error_iff.2 (.inl (operandValues_eq_error_iff.2 ?_))
    refine ⟨before, operand, after, rfl, hb, ?_⟩
    rw [Nat.add_comm 1, operandValue_of_not_denotes hd]

theorem Fails.evaluate {s : List Char} {reason : Malformation} (h : Fails limit x (trim s) reason) :
    evaluate limit x s = .error reason := by
  cases h with
  | flaw h => rw [Formula.evaluate, h.read, error_bind]
  | missing h => rw [h.evaluate, if_pos rfl]
  | notInteger h hne => rw [h.evaluate, if_neg hne]
  | refused ht hd hr =>
    rw [Formula.evaluate, ht.read, ok_bind, value, operandValues_eq_ok_iff.2 hd, ok_bind, hr.apply]
  | template ht hv =>
    rw [Formula.evaluate, ht.read, ok_bind, value_template_eq_error_iff.2 ⟨hv, rfl⟩]

/-- What is reported is what is wrong first. -/
theorem evaluate_eq_error_iff {s : List Char} {reason : Malformation} :
    evaluate limit x s = .error reason ↔ Fails limit x (trim s) reason :=
  ⟨fails_of_evaluate, Fails.evaluate⟩

end Formula

end Quorum
