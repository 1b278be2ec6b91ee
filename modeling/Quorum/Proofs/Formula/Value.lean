import Quorum.Proofs.Formula.Operation
import Quorum.Proofs.Formula.Printing

/-!
# Values of calls

An operand denotes the value of the variable or the integer that it is a literal of (`Denotes`), and
operands have values exactly if each denotes one (`operandValues_eq_ok_iff`). So a call has the
value that its operation gives on the integers denoted, however it is spaced (`value_of_call`).
-/

namespace Quorum.Formula

open Quorum.Numeral (SpellsDecimal)
open Quorum.Text (Pads Repads isBlank joinWith repads_iff trim)

/-- The operand denotes the integer where the variable is `x`. -/
inductive Denotes (x : Int) : List Char → Int → Prop
  | letter : Denotes x ['x'] x
  | literal {operand : List Char} {v : Int} (h : SpellsDecimal operand v) : Denotes x operand v

variable {limit x : Int}

theorem operandValue_eq_ok_iff {place : Nat} {operand : List Char} {v : Int} :
    operandValue x place operand = .ok v ↔ Denotes x operand v := by
  constructor
  · intro h
    rw [operandValue] at h
    split at h
    · cases h
    split at h
    · rename_i hx
      cases h
      exact eq_of_beq hx ▸ .letter
    split at h
    · rename_i w hw
      cases h
      exact .literal (Numeral.integer?_eq_some_iff.1 hw)
    · cases h
  · intro h
    cases h with
    | letter => rfl
    | literal h =>
      have hx : operand ≠ [variableLetter] := by
        rintro rfl
        exact h.notMem (by decide) (by decide) (by decide) List.mem_cons_self
      simp [operandValue, h.ne_nil, hx, Numeral.integer?_eq_some_iff.2 h]

theorem operandValues_eq_ok_iff {place : Nat} {operands : List (List Char)} {vs : List Int} :
    operandValues x place operands = .ok vs ↔ List.Forall₂ (Denotes x) operands vs := by
  induction operands generalizing place vs with
  | nil => simp [operandValues, eq_comm]
  | cons o r ih =>
    rw [operandValues, List.forall₂_cons_left_iff]
    simp only [bind_eq_ok_iff, operandValue_eq_ok_iff, ih, pure_eq_ok, Except.ok.injEq]
    constructor
    · rintro ⟨v, hv, ws, hws, rfl⟩
      exact ⟨v, ws, hv, hws, rfl⟩
    · rintro ⟨v, ws, hv, hws, rfl⟩
      exact ⟨v, hv, ws, hws, rfl⟩

theorem value_template_eq_ok_iff {t : List Char} {v : Int} :
    value limit x (.template t) = .ok v ↔ SpellsDecimal (substitute x t) v := by
  rw [← Numeral.integer?_eq_some_iff, value]
  cases Numeral.integer? (substitute x t) <;> simp

theorem value_template_eq_error_iff {t : List Char} {reason : Malformation} :
    value limit x (.template t) = .error reason ↔
      (∀ v, ¬ SpellsDecimal (substitute x t) v) ∧ reason = .templateNotInteger := by
  simp only [← Numeral.integer?_eq_some_iff, value]
  cases Numeral.integer? (substitute x t) <;> simp [eq_comm]

theorem Denotes.shape {operand : List Char} {v : Int} (h : Denotes x operand v) :
    operand ≠ [] ∧ trim operand = operand ∧ ',' ∉ operand ∧ '(' ∉ operand ∧ ')' ∉ operand := by
  cases h with
  | letter => decide
  | literal h =>
    exact ⟨h.ne_nil, Text.trim_of_not_blank h.not_isBlank,
      h.notMem (by decide) (by decide) (by decide), h.notMem (by decide) (by decide) (by decide),
      h.notMem (by decide) (by decide) (by decide)⟩

theorem printable_of_denotes {operands : List (List Char)} {vs : List Int}
    (h : List.Forall₂ (Denotes x) operands vs) : Printable operands := by
  have hm : ∀ o ∈ operands, ∃ v, Denotes x o v := by
    induction h with
    | nil => exact nofun
    | cons hv _ ih => exact List.forall_mem_cons.2 ⟨⟨_, hv⟩, ih⟩
  refine ⟨fun o ho => ?_, ?_⟩
  · obtain ⟨v, hv⟩ := hm o ho
    exact hv.shape.2
  · rintro rfl
    obtain ⟨v, hv⟩ := hm [] List.mem_cons_self
    exact hv.shape.1 rfl

/-- A call is the operation on what its operands denote. -/
theorem evaluate_of_call {f : Operation} {operands : List (List Char)} {vs : List Int}
    {text : List Char} (hd : List.Forall₂ (Denotes x) operands vs)
    (hs : Respaced (call f operands).render text) : evaluate limit x text = f.apply limit vs := by
  rw [evaluate, hs.read, read_render_call f (printable_of_denotes hd), ok_bind, value,
    operandValues_eq_ok_iff.2 hd, ok_bind]

/-- A call, with blanks anywhere around its parts, gives what its operation gives on the integers
denoted by the operands, and is refused only where the operation is. In some calls the operands may
change places. -/
theorem value_of_call {f : Operation} {operands : List (List Char)} {vs : List Int}
    {text : List Char} (hd : List.Forall₂ (Denotes x) operands vs)
    (hs : Respaced (call f operands).render text) :
    (∀ r, evaluate limit x text = .ok r ↔ f.Gives limit vs r) ∧
      (∀ reason, evaluate limit x text = .error reason ↔ f.Refuses limit vs reason) ∧
      (f ∈ Operation.commutative → ∀ operands' text', operands.Perm operands' →
        Respaced (call f operands').render text' →
        evaluate limit x text' = evaluate limit x text) := by
  rw [evaluate_of_call hd hs]
  refine ⟨(f.apply_iff limit vs).1, (f.apply_iff limit vs).2, fun hf operands' text' hp hs' => ?_⟩
  obtain ⟨ws, hd', hw⟩ := List.perm_comp_forall₂ hp.symm hd
  rw [evaluate_of_call hd' hs', Operation.apply_perm hf hw]

/-- Operands with signs, of another script and with blanks around them, in two orders. -/
theorem value_of_call_lcm :
    List.Forall₂ (Denotes (-9)) ["x".toList, "-6".toList, "+４".toList] [-9, -6, 4] ∧
      Respaced "lcm(x,-6,+４)".toList "\tlcm( x ,-6 , +４)".toList ∧
      evaluate 0 (-9) "\tlcm( x ,-6 , +４)".toList = .ok 36 ∧
      evaluate 0 (-9) "lcm(+４,x,-6)".toList = .ok 36 := by
  have hd : List.Forall₂ (Denotes (-9)) ["x".toList, "-6".toList, "+４".toList] [-9, -6, 4] :=
    .cons .letter (.cons (.literal (Numeral.integer?_eq_some_iff.1 rfl))
      (.cons (.literal (Numeral.integer?_eq_some_iff.1 rfl)) .nil))
  have hr : List.Forall₂ Repads ["x".toList, "-6".toList, "+４".toList]
      [" x ".toList, "-6 ".toList, " +４".toList] :=
    .cons (repads_iff.2 (by decide)) (.cons (repads_iff.2 (by decide))
      (.cons (repads_iff.2 (by decide)) .nil))
  have ht : Pads ("lcm".toList ++ '(' :: joinWith ',' [" x ".toList, "-6 ".toList, " +４".toList] ++
      [')']) "\tlcm( x ,-6 , +４)".toList :=
    ⟨['\t'], [], by simp [isBlank], nofun, by decide⟩
  have hs : Respaced (call .lcm ["x".toList, "-6".toList, "+４".toList]).render
      "\tlcm( x ,-6 , +４)".toList :=
    .operands (by decide) (by decide) (repads_iff.2 rfl) hr (.refl _) ht
  have hm : LeastMultiple {v | v ∈ [-9, -6, 4]} 36 := by
    refine .of_dvd (by decide) ?_ fun c hc => ?_
    · show ∀ v ∈ [-9, -6, 4], v ∣ 36
      decide
    · have h9 : 9 ∣ c := neg_dvd.1 (hc (-9) (.head _))
      have h4 : 4 ∣ c := hc 4 (by simp)
      omega
  have hv : evaluate 0 (-9) "\tlcm( x ,-6 , +４)".toList = .ok 36 :=
    ((value_of_call hd hs).1 36).2 (.multiple (List.cons_ne_nil _ _) hm)
  refine ⟨hd, hs, hv, ?_⟩
  rw [← hv]
  refine (value_of_call hd hs).2.2 (by decide) ["+４".toList, "x".toList, "-6".toList] _ ?_
    (.around (repads_iff.2 rfl))
  decide

end Quorum.Formula
