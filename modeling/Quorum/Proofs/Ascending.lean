import Mathlib.Data.List.Sort
import Quorum.Ascending

/-!
# Ascending order

Sorting keeps the elements (`sortBy_perm`) and puts them in order (`pairwise_sortBy`), so
elements with different numbers have one sorted list, however they are listed
(`sortBy_eq_of_perm`, `sortBy_congr`), and what keeps their order may be done to them before or
after (`sortBy_map`). Likewise the ascending list of some numbers is strictly ascending
(`pairwise_ascending`), and the same for all lists that hold these numbers (`ascending_congr`).
-/

namespace Quorum

variable {α : Type}

theorem insertBy_perm (key : α → Int) (a : α) : ∀ s : List α, (insertBy key a s).Perm (a :: s)
  | [] => .refl _
  | b :: r => by
    rw [insertBy]
    split
    · exact .refl _
    · exact ((insertBy_perm key a r).cons b).trans (.swap a b r)

theorem sortBy_perm (key : α → Int) : ∀ s : List α, (sortBy key s).Perm s
  | [] => .refl _
  | a :: r => (insertBy_perm key a _).trans ((sortBy_perm key r).cons a)

theorem pairwise_insertBy {key : α → Int} {a : α} {s : List α}
    (h : s.Pairwise fun b c => key b ≤ key c) :
    (insertBy key a s).Pairwise fun b c => key b ≤ key c := by
  induction s with
  | nil => simp [insertBy]
  | cons b r ih =>
    obtain ⟨hb, hr⟩ := List.pairwise_cons.1 h
    rw [insertBy]
    split
    · rename_i hab
      refine List.pairwise_cons.2 ⟨fun c hc => ?_, h⟩
      rcases List.mem_cons.1 hc with rfl | hc
      · exact hab
      · exact hab.trans (hb c hc)
    · rename_i hab
      refine List.pairwise_cons.2 ⟨fun c hc => ?_, ih hr⟩
      rcases mem_insertBy.1 hc with rfl | hc
      · omega
      · exact hb c hc

theorem pairwise_sortBy (key : α → Int) :
    ∀ s : List α, (sortBy key s).Pairwise fun b c => key b ≤ key c
  | [] => .nil
  | _ :: r => pairwise_insertBy (pairwise_sortBy key r)

/-- Elements in strictly ascending order are what sorting them in any order gives. -/
theorem sortBy_eq_of_perm {key : α → Int} {s t : List α} (h : s.Perm t)
    (ht : t.Pairwise fun a b => key a < key b) : sortBy key s = t := by
  have hn : (t.map key).Nodup := (List.pairwise_map.2 ht).imp fun hab => ne_of_lt hab
  have hs : (sortBy key s).Perm t := (sortBy_perm key s).trans h
  refine hs.eq_of_pairwise (fun a b ha hb hab hba => ?_) (pairwise_sortBy key s)
    (ht.imp fun hab => le_of_lt hab)
  exact List.inj_on_of_nodup_map hn (hs.subset ha) hb (le_antisymm hab hba)

/-- Elements with different numbers are in strictly ascending order when they are sorted. -/
theorem pairwise_lt_sortBy {key : α → Int} {s : List α} (h : (s.map key).Nodup) :
    (sortBy key s).Pairwise fun a b => key a < key b := by
  have hn : ((sortBy key s).map key).Nodup := ((sortBy_perm key s).map key).nodup_iff.2 h
  exact ((pairwise_sortBy key s).and (List.pairwise_map.1 hn)).imp fun ⟨hle, hne⟩ =>
    lt_of_le_of_ne hle hne

/-- Elements with different numbers may be listed in any order before they are sorted. -/
theorem sortBy_congr {key : α → Int} {s t : List α} (hp : s.Perm t) (h : (t.map key).Nodup) :
    sortBy key s = sortBy key t :=
  sortBy_eq_of_perm (hp.trans (sortBy_perm key t).symm) (pairwise_lt_sortBy h)

/-! ## Sets of numbers -/

theorem pairwise_insertNew {a : Int} {s : List Int} (h : s.Pairwise (· < ·)) :
    (insertNew a s).Pairwise (· < ·) := by
  induction s with
  | nil => simp [insertNew]
  | cons b r ih =>
    obtain ⟨hb, hr⟩ := List.pairwise_cons.1 h
    rw [insertNew]
    split
    · rename_i hab
      refine List.pairwise_cons.2 ⟨fun c hc => ?_, h⟩
      rcases List.mem_cons.1 hc with rfl | hc
      · exact hab
      · exact hab.trans (hb c hc)
    split
    · exact h
    · refine List.pairwise_cons.2 ⟨fun c hc => ?_, ih hr⟩
      rcases mem_insertNew.1 hc with rfl | hc
      · omega
      · exact hb c hc

theorem pairwise_ascending : ∀ s : List Int, (ascending s).Pairwise (· < ·)
  | [] => .nil
  | _ :: r => pairwise_insertNew (pairwise_ascending r)

/-- Lists of the same numbers have the same ascending list. -/
theorem ascending_congr {s t : List Int} (h : ∀ i, i ∈ s ↔ i ∈ t) : ascending s = ascending t := by
  refine (pairwise_ascending s).eq_of_mem_iff (pairwise_ascending t) fun i => ?_
  rw [mem_ascending, mem_ascending, h i]

/-! ## Two lists side by side -/

section

variable {β : Type} {key : α → Int} {key' : β → Int}

section

variable {R : α → β → Prop}
  (hk : ∀ a b c d, R a b → R c d → (key a ≤ key c ↔ key' b ≤ key' d))
include hk

theorem forall₂_insertBy {a : α} {b : β} (h : R a b) {s : List α} {t : List β}
    (hs : List.Forall₂ R s t) : List.Forall₂ R (insertBy key a s) (insertBy key' b t) := by
  induction hs with
  | nil => exact .cons h .nil
  | @cons c d s t hcd hs ih =>
    rw [insertBy, insertBy]
    by_cases hac : key a ≤ key c
    · rw [if_pos hac, if_pos ((hk a b c d h hcd).1 hac)]
      exact .cons h (.cons hcd hs)
    · rw [if_neg hac, if_neg (mt (hk a b c d h hcd).2 hac)]
      exact .cons hcd ih

/-- Elements that are related and in the same order are related when they are sorted. -/
theorem forall₂_sortBy {s : List α} {t : List β} (hs : List.Forall₂ R s t) :
    List.Forall₂ R (sortBy key s) (sortBy key' t) := by
  induction hs with
  | nil => exact .nil
  | cons h _ ih => exact forall₂_insertBy hk h ih

end

/-- What keeps the order of the elements may as well be done to them when they are sorted. -/
theorem sortBy_map {f : α → β} (hf : ∀ a b, key a ≤ key b ↔ key' (f a) ≤ key' (f b))
    (s : List α) : sortBy key' (s.map f) = (sortBy key s).map f := by
  have hs : List.Forall₂ (fun a b => f a = b) s (s.map f) :=
    List.forall₂_map_right_iff.2 (List.forall₂_same.2 fun _ _ => rfl)
  have h : List.Forall₂ (fun a b => f a = b) (sortBy key s) (sortBy key' (s.map f)) := by
    refine forall₂_sortBy (fun a b c d hab hcd => ?_) hs
    rw [← hab, ← hcd]
    exact hf a c
  rw [← List.forall₂_map_left_iff, List.forall₂_eq_eq_eq] at h
  exact h.symm

end

end Quorum
