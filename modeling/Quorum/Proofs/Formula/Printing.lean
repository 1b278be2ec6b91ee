import Quorum.Proofs.Formula.Grammar

/-!
# Formulas read back

What a formula is printed as is read as that formula. For a number and a template the print is a
text without blanks around it that writes nothing else; for a call it is one if the operands can
stand between commas (`Printable`), as those of every call do that is read (`Printable.of_read`).
-/

namespace Quorum.Formula

open Quorum.Text (Repads joinWith mem_trim_iff repads_iff trim)

/-- Operands that are told apart by the commas between them. A single one must not be empty, since a
call without operands is printed alike. -/
def Printable (operands : List (List Char)) : Prop :=
  (∀ o ∈ operands, trim o = o ∧ ',' ∉ o ∧ '(' ∉ o ∧ ')' ∉ o) ∧ operands ≠ [[]]

theorem ListsOperands.printable {body : List Char} {operands : List (List Char)}
    (h : ListsOperands body operands) (ho : '(' ∉ body) (hc : ')' ∉ body) : Printable operands := by
  cases h with
  | none hb => exact ⟨nofun, nofun⟩
  | @some parts hp hb =>
    rw [Text.mem_joinWith (by decide)] at ho hc
    have hm : ∀ {c : Char} {p : List Char}, Text.isBlank c = false → c ∉ p → c ∉ trim p :=
      fun hc => (mem_trim_iff hc).not.2
    refine ⟨List.forall_mem_map.2 fun p hin => ⟨Text.trim_trim p, ?_, ?_, ?_⟩, fun hs => ?_⟩
    · exact hm (by decide) (hp p hin)
    · exact hm (by decide) fun h => ho ⟨p, hin, h⟩
    · exact hm (by decide) fun h => hc ⟨p, hin, h⟩
    · obtain ⟨p, rfl, ht⟩ := List.map_eq_singleton_iff.1 hs
      exact hb (Text.trim_eq_nil_iff.1 ht)

theorem Printable.of_read {s : List Char} {f : Operation} {operands : List (List Char)}
    (h : read s = .ok (.call f operands)) : Printable operands := by
  have hs := ((read_iff s).1 _).1 h
  generalize trim s = t at hs
  cases hs with
  | call hn hf ho hc hl => exact hl.printable ho hc

theorem read_render_call (f : Operation) {operands : List (List Char)} (h : Printable operands) :
    read (call f operands).render = .ok (call f operands) := by
  obtain ⟨ho, hne⟩ := h
  obtain ⟨hn, -, hf⟩ := f.name_plain
  have ht : operands.map trim = operands :=
    (List.map_congr_left fun o h => (ho o h).1).trans (List.map_id operands)
  have hb : ¬ ('(' ∈ joinWith ',' operands ∨ ')' ∈ joinWith ',' operands) := by
    rw [Text.mem_joinWith (by decide), Text.mem_joinWith (by decide)]
    rintro (⟨o, hm, hc⟩ | ⟨o, hm, hc⟩)
    · exact (ho o hm).2.2.1 hc
    · exact (ho o hm).2.2.2 hc
  rw [render, read_of_pads_concat hn (.refl _), readCall_concat hf, if_neg hb,
    readOperands_joinWith fun o h => (ho o h).2.1, ht, if_neg hne]

/-- A text that is read as a call is the print of the call with blanks put in. -/
theorem respaced_of_read {s : List Char} {f : Operation} {operands : List (List Char)}
    (h : read s = .ok (.call f operands)) : Respaced (call f operands).render s := by
  have hs := ((read_iff s).1 _).1 h
  have hpad := Text.pads_trim s
  generalize trim s = t at hs hpad
  obtain ⟨hn, -, hname⟩ := f.name_plain
  cases hs with
  | @call name body _ _ _ hf _ _ hl =>
    have hname : Repads f.name.toList name := repads_iff.2 (hname.trans hf.symm)
    cases hl with
    | none hb =>
      have hr : List.Forall₂ Repads [[]] [body] :=
        .cons (repads_iff.2 (Text.trim_eq_nil_iff.2 hb).symm) .nil
      exact .operands hn (by simp) hname hr (.refl _) (by simpa [joinWith] using hpad)
    | @some parts hp hb =>
      have hr : List.Forall₂ Repads (parts.map trim) parts :=
        List.forall₂_map_left_iff.2 (List.forall₂_same.2 fun p _ => repads_iff.2 (Text.trim_trim p))
      refine .operands hn (List.forall_mem_map.2 fun p hin => ?_) hname hr (.refl _) ?_
      · exact (mem_trim_iff (by decide)).not.2 (hp p hin)
      · simpa using hpad

/-- Every formula that is read is read again from its print, and so is a call made of any operands,
if and only if these are printable. -/
theorem read_render :
    (∀ s F, read s = .ok F → read F.render = .ok F) ∧
      ∀ f operands, read (call f operands).render = .ok (call f operands) ↔ Printable operands := by
  refine ⟨fun s F h => ?_, fun f operands => ⟨.of_read, read_render_call f⟩⟩
  cases F with
  | literal v =>
    have hv := Numeral.spellsDecimal_decimal v
    rw [render]
    refine read_of_literal ?_
    rwa [Text.trim_of_not_blank hv.not_isBlank]
  | call f operands => exact read_render_call f (.of_read h)
  | template t =>
    have hs := ((read_iff s).1 _).1 h
    have ht := (spells_template_iff.1 hs).1
    rw [ht] at hs
    have htt : trim t = t := by rw [← ht, Text.trim_trim]
    rw [render]
    refine Spells.read ?_
    rwa [htt]

/-- Operands in other scripts, with leading zeros or with no characters are kept as they are. -/
theorem read_render_lcm :
    read " lcm( -٣,x ,, +07)\n".toList =
        .ok (.call .lcm ["-٣".toList, "x".toList, [], "+07".toList]) ∧
      read "lcm(-٣,x,,+07)".toList =
        .ok (.call .lcm ["-٣".toList, "x".toList, [], "+07".toList]) := by
  have h : read " lcm( -٣,x ,, +07)\n".toList =
      .ok (.call .lcm ["-٣".toList, "x".toList, [], "+07".toList]) := rfl
  exact ⟨h, read_render.1 _ _ h⟩

end Quorum.Formula
