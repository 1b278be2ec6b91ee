import Quorum.Proofs.Formula.Value

/-!
# Substitution

A formula that has a value keeps it when the numeral of the variable's value is written for every
variable in its text (`evaluate_substitute`). In a call every variable is a whole operand, and the
text changes operand by operand, blanks aside (`respaced_substitute`, `substitute_render_call`); in
a template the new text is the number itself.
-/

namespace Quorum.Formula

open Quorum.Numeral (decimal spellsDecimal_decimal)
open Quorum.Text (Pads Repads isBlank joinWith mem_trim_iff trim)

variable {limit x : Int}

/-! ## Texts -/

theorem substitute_append (s t : List Char) :
    substitute x (s ++ t) = substitute x s ++ substitute x t :=
  List.flatMap_append

theorem substitute_cons {c : Char} (hc : c ≠ 'x') (s : List Char) :
    substitute x (c :: s) = c :: substitute x s := by
  simp [substitute, variableLetter, hc]

theorem substitute_of_notMem {s : List Char} (h : 'x' ∉ s) : substitute x s = s := by
  induction s with
  | nil => rfl
  | cons c r ih =>
    obtain ⟨hc, hr⟩ := not_or.1 (List.mem_cons.not.1 h)
    rw [substitute_cons (Ne.symm hc), ih hr]

/-- Nothing comes into a text but what stands in numerals. -/
theorem notMem_substitute {c : Char} {s : List Char} (h : c ∉ s) (hp : c ≠ '+') (hm : c ≠ '-')
    (hd : Text.digitValue? c = none) : c ∉ substitute x s := by
  rw [substitute, List.mem_flatMap]
  rintro ⟨d, hds, hc⟩
  split at hc
  · exact (spellsDecimal_decimal x).notMem hp hm hd hc
  · exact h (List.mem_singleton.1 hc ▸ hds)

/-- A call stays a call. -/
theorem substitute_open (name after : List Char) :
    substitute x (name ++ '(' :: after) = substitute x name ++ '(' :: substitute x after := by
  rw [substitute_append, substitute_cons (by decide)]

theorem substitute_joinWith (parts : List (List Char)) :
    substitute x (joinWith ',' parts) = joinWith ',' (parts.map (substitute x)) :=
  Text.flatMap_joinWith (by rfl) parts

/-- Each piece between the commas of a call is changed. -/
theorem substitute_call (name : List Char) (parts : List (List Char)) :
    substitute x (name ++ '(' :: joinWith ',' parts ++ [')']) =
      substitute x name ++ '(' :: joinWith ',' (parts.map (substitute x)) ++ [')'] := by
  have hclose : 'x' ∉ [')'] := by decide
  rw [substitute_append, substitute_open, substitute_joinWith, substitute_of_notMem hclose]

theorem substitute_render_call (f : Operation) (operands : List (List Char)) :
    substitute x (call f operands).render = (call f (operands.map (substitute x))).render := by
  rw [render, substitute_call, substitute_of_notMem f.name_plain.2.1, render]

/-! ## Blanks -/

theorem pads_substitute {inner text : List Char} (h : Pads inner text) :
    Pads (substitute x inner) (substitute x text) := by
  obtain ⟨before, after, hb, ha, rfl⟩ := h
  have hx : ∀ {s : List Char}, (∀ c ∈ s, isBlank c = true) → substitute x s = s :=
    fun hs => substitute_of_notMem fun hm => absurd (hs 'x' hm) (by decide)
  exact ⟨before, after, hb, ha, by rw [substitute_append, substitute_append, hx hb, hx ha]⟩

theorem repads_substitute {s s' : List Char} (h : Repads s s') :
    Repads (substitute x s) (substitute x s') := by
  obtain ⟨inner, h, h'⟩ := h
  exact ⟨substitute x inner, pads_substitute h, pads_substitute h'⟩

/-- Blanks that do not count before a replacement do not count after it. -/
theorem respaced_substitute {s s' : List Char} (h : Respaced s s') :
    Respaced (substitute x s) (substitute x s') := by
  cases h with
  | around h => exact .around (repads_substitute h)
  | name hn h hs hs' =>
    have hs := pads_substitute (x := x) hs
    have hs' := pads_substitute (x := x) hs'
    rw [substitute_open] at hs hs'
    refine .name ?_ (repads_substitute h) hs hs'
    exact notMem_substitute hn (by decide) (by decide) (by decide)
  | operands hn hp h hr hs hs' =>
    have hs := pads_substitute (x := x) hs
    have hs' := pads_substitute (x := x) hs'
    rw [substitute_call] at hs hs'
    refine .operands ?_ ?_ (repads_substitute h) ?_ hs hs'
    · exact notMem_substitute hn (by decide) (by decide) (by decide)
    · refine List.forall_mem_map.2 fun p hin => ?_
      exact notMem_substitute (hp p hin) (by decide) (by decide) (by decide)
    · rw [List.forall₂_map_left_iff, List.forall₂_map_right_iff]
      exact hr.imp fun _ _ => repads_substitute

/-! ## Values -/

/-- The numeral in the place of the variable denotes the same, and no longer depends on it. -/
theorem denotes_substitute {operand : List Char} {v : Int} (h : Denotes x operand v) (y : Int) :
    Denotes y (substitute x operand) v := by
  cases h with
  | letter =>
    have hd : substitute x ['x'] = decimal x := by simp [substitute, variableLetter]
    rw [hd]
    exact .literal (spellsDecimal_decimal x)
  | literal h =>
    rw [substitute_of_notMem (h.notMem (by decide) (by decide) (by decide))]
    exact .literal h

/-- A text that has a value has it whatever the variable is once its value is written in the place
of every variable. -/
theorem evaluate_substitute {s : List Char} {v : Int} (h : evaluate limit x s = .ok v) (y : Int) :
    evaluate limit y (substitute x s) = .ok v := by
  obtain ⟨F, hF, hv⟩ := bind_eq_ok_iff.1 h
  cases F with
  | literal w =>
    have hl := spells_literal_iff.1 (((read_iff s).1 _).1 hF)
    have hx : 'x' ∉ s := by
      rw [← mem_trim_iff (by decide)]
      exact hl.notMem (by decide) (by decide) (by decide)
    rw [substitute_of_notMem hx, evaluate, hF, ok_bind]
    exact hv
  | call f operands =>
    obtain ⟨vs, hvs, hr⟩ := bind_eq_ok_iff.1 hv
    have hd : List.Forall₂ (Denotes y) (operands.map (substitute x)) vs :=
      List.forall₂_map_left_iff.2
        ((operandValues_eq_ok_iff.1 hvs).imp fun _ _ ho => denotes_substitute ho y)
    have hs := respaced_substitute (x := x) (respaced_of_read hF)
    rw [substitute_render_call] at hs
    rw [evaluate_of_call hd hs, hr]
  | template t =>
    have ht := (spells_template_iff.1 (((read_iff s).1 _).1 hF)).1
    have hw := value_template_eq_ok_iff.1 hv
    have htrim : trim (substitute x s) = substitute x t := by
      rw [(pads_substitute (ht ▸ Text.pads_trim s)).trim_eq_trim,
        Text.trim_of_not_blank hw.not_isBlank]
    rw [evaluate, read_of_literal (htrim ▸ hw), ok_bind, value]

/-- A negative number with its sign and a positive one, for an operand with blanks around it. -/
theorem evaluate_substitute_subtract :
    evaluate 0 (-7) " subtract(x , 2,x)\n".toList = .ok (-2) ∧
      ∀ y, evaluate 0 y " subtract(-7 , 2,-7)\n".toList = .ok (-2) := by
  have h : evaluate 0 (-7) " subtract(x , 2,x)\n".toList = .ok (-2) := rfl
  exact ⟨h, evaluate_substitute h⟩

end Quorum.Formula
