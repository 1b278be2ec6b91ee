import Mathlib
import Quorum.Proofs.Ascending
import Quorum.Selection

/-!
# Selections as subsets

`Selection.choose` gives the sublists of a length (`mem_choose`), each once, and in
lexicographic order when the list is ascending (`pairwise_choose`). From the numbers of a
finite set it gives the subsets of a size (`mem_subsets`), so that to count among the
selections is to count subsets (`countP_subsets`). Their number is the binomial coefficient
(`count_eq`). So the selections from any list of numbers are the subsets of its set, in order, and
the first few of them are the least ones (`ofIds_enumerates`).
-/

namespace Quorum.Selection

open Finset (powersetCard)

variable {α β : Type}

/-- The pruned branches are empty, and the order is the reverse one of `sublistsLen`. -/
theorem choose_perm (k : Nat) (l : List α) : (choose k l).Perm (l.sublistsLen k) := by
  induction l generalizing k with
  | nil => cases k <;> simp [choose]
  | cons a r ih =>
    cases k with
    | zero => simp [choose]
    | succ k =>
      rw [choose]
      split
      · rename_i h
        have : ((a :: r).sublistsLen (k + 1)).length = 0 := by
          rw [List.length_sublistsLen, Nat.choose_eq_zero_of_lt (by simpa using h)]
        rw [List.length_eq_zero_iff.1 this]
      · rw [List.sublistsLen_succ_cons]
        exact (((ih k).map _).append (ih (k + 1))).trans List.perm_append_comm

theorem mem_choose {k : Nat} {l c : List α} : c ∈ choose k l ↔ c.Sublist l ∧ c.length = k := by
  rw [(choose_perm k l).mem_iff, List.mem_sublistsLen]

theorem length_choose (k : Nat) (l : List α) : (choose k l).length = l.length.choose k := by
  rw [(choose_perm k l).length_eq, List.length_sublistsLen]

theorem choose_eq_nil_iff {k : Nat} {l : List α} : choose k l = [] ↔ l.length < k := by
  rw [← List.length_eq_zero_iff, length_choose, Nat.choose_eq_zero_iff]

theorem choose_succ_cons {k : Nat} {a : α} {r : List α} (h : k ≤ r.length) :
    choose (k + 1) (a :: r) = (choose k r).map (a :: ·) ++ choose (k + 1) r := by
  rw [choose, if_neg (not_lt.2 h)]

theorem choose_map (f : α → β) (k : Nat) (l : List α) :
    choose k (l.map f) = (choose k l).map (List.map f) := by
  induction l generalizing k with
  | nil => cases k <;> rfl
  | cons a r ih =>
    cases k with
    | zero => rfl
    | succ k =>
      rw [List.map_cons, choose, choose, List.length_map]
      split
      · rfl
      · rw [ih, ih, List.map_append, List.map_map, List.map_map]
        rfl

/-- From an ascending list, the selections come in lexicographic order. -/
theorem pairwise_choose {k : Nat} {l : List Int} (h : l.Pairwise (· < ·)) :
    (choose k l).Pairwise (List.Lex (· < ·)) := by
  induction l generalizing k with
  | nil => cases k <;> simp [choose]
  | cons a r ih =>
    obtain ⟨ha, hr⟩ := List.pairwise_cons.1 h
    cases k with
    | zero => simp [choose]
    | succ k =>
      rw [choose]
      split
      · exact .nil
      refine List.pairwise_append.2 ⟨?_, ih hr, fun c hc d hd => ?_⟩
      · exact List.pairwise_map.2 ((ih hr).imp fun hcd => .cons hcd)
      · -- A selection without `a` starts with a later number.
        obtain ⟨c, -, rfl⟩ := List.mem_map.1 hc
        obtain ⟨hd, hn⟩ := mem_choose.1 hd
        obtain ⟨b, d, rfl⟩ := List.exists_cons_of_length_eq_add_one hn
        exact .rel (ha b (hd.subset List.mem_cons_self))

/-! ## Subsets -/

/-- The numbers of a set, in ascending order. -/
abbrev elements (ids : Finset Int) : List Int :=
  ids.sort

/-- The subsets of a size, in the order in which they are selected. -/
def subsets (k : Nat) (ids : Finset Int) : List (Finset Int) :=
  (choose k (elements ids)).map List.toFinset

theorem sort_toFinset {k : Nat} {ids : Finset Int} {c : List Int} (h : c ∈ choose k ids.sort) :
    c.toFinset.sort = c := by
  have hs := (mem_choose.1 h).1
  exact (List.toFinset_sort (· ≤ ·) (hs.nodup (ids.sort_nodup _))).2
    ((ids.pairwise_sort _).sublist hs)

/-- The subsets come in lexicographic order of their elements. -/
theorem pairwise_subsets (k : Nat) (ids : Finset Int) :
    (subsets k ids).Pairwise fun s t => List.Lex (· < ·) s.sort t.sort := by
  refine List.pairwise_map.2 ((pairwise_choose ids.sortedLT_sort.pairwise).imp_of_mem ?_)
  intro c d hc hd h
  rwa [sort_toFinset hc, sort_toFinset hd]

theorem nodup_subsets (k : Nat) (ids : Finset Int) : (subsets k ids).Nodup :=
  (pairwise_subsets k ids).imp fun h e => by
    rw [e] at h
    exact List.lt_irrefl _ h

theorem mem_subsets {k : Nat} {ids s : Finset Int} :
    s ∈ subsets k ids ↔ s ∈ powersetCard k ids := by
  rw [subsets, List.mem_map, Finset.mem_powersetCard]
  constructor
  · rintro ⟨c, hc, rfl⟩
    obtain ⟨hs, rfl⟩ := mem_choose.1 hc
    refine ⟨fun i hi => ?_, List.toFinset_card_of_nodup (hs.nodup (ids.sort_nodup _))⟩
    exact (Finset.mem_sort _).1 (hs.subset (List.mem_toFinset.1 hi))
  · rintro ⟨hs, rfl⟩
    refine ⟨s.sort, mem_choose.2 ⟨?_, s.length_sort _⟩, s.sort_toFinset _⟩
    refine List.sublist_of_subperm_of_pairwise (List.subperm_of_subset (s.sort_nodup _) ?_)
      (s.pairwise_sort _) (ids.pairwise_sort _)
    intro i hi
    exact (Finset.mem_sort _).2 (hs ((Finset.mem_sort _).1 hi))

theorem toFinset_subsets (k : Nat) (ids : Finset Int) :
    (subsets k ids).toFinset = powersetCard k ids := by
  ext s
  rw [List.mem_toFinset, mem_subsets]

/-- Counting among the selections is counting subsets. -/
theorem countP_subsets (k : Nat) (ids : Finset Int) (p : Finset Int → Prop) [DecidablePred p] :
    (subsets k ids).countP (fun s => p s) = {s ∈ powersetCard k ids | p s}.card := by
  rw [List.countP_eq_length_filter, ← toFinset_subsets,
    ← List.toFinset_card_of_nodup ((nodup_subsets k ids).filter _), List.toFinset_filter]
  simp only [decide_eq_true_eq]

/-! ## Their number -/

theorem foldl_binomial (n j : Nat) :
    (List.range j).foldl (fun c i => c * (n - i) / (i + 1)) 1 = n.choose j := by
  induction j with
  | zero => simp
  | succ j ih =>
    rw [List.range_succ, List.foldl_append, ih, List.foldl_cons, List.foldl_nil,
      ← Nat.choose_succ_right_eq, Nat.mul_div_cancel _ j.succ_pos]

theorem binomial_eq (n k : Nat) : binomial n k = n.choose k := by
  rw [binomial]
  split
  · rename_i h
    rw [Nat.choose_eq_zero_of_lt h]
  · rename_i h
    rw [foldl_binomial]
    rcases Nat.le_total k (n - k) with hk | hk
    · rw [Nat.min_eq_left hk]
    · rw [Nat.min_eq_right hk, Nat.choose_symm (by omega)]

theorem count_eq (n k : Nat) : count n k = .ok (n.choose k) := by
  have h : ¬ ((k : Int) < 0 ∨ (n : Int) < 0) := by omega
  simp [count, h, binomial_eq]

/-! ## From any list -/

theorem ascending_eq_elements (ids : List Int) : ascending ids = elements ids.toFinset := by
  refine (pairwise_ascending ids).eq_of_mem_iff ids.toFinset.sortedLT_sort.pairwise fun i => ?_
  rw [mem_ascending, Finset.mem_sort, List.mem_toFinset]

/-- From an ascending list, a selection is an ascending list of its numbers. -/
theorem mem_choose_iff_pairwise {k : Nat} {l c : List Int} (hl : l.Pairwise (· < ·)) :
    c ∈ choose k l ↔ c.Pairwise (· < ·) ∧ c.length = k ∧ ∀ i ∈ c, i ∈ l := by
  rw [mem_choose]
  constructor
  · rintro ⟨hs, hk⟩
    exact ⟨hl.sublist hs, hk, fun i hi => hs.subset hi⟩
  · rintro ⟨hc, hk, hm⟩
    have hn : c.Nodup := hc.imp fun hij => ne_of_lt hij
    have hcle : c.Pairwise (· ≤ ·) := hc.imp fun hij => le_of_lt hij
    have hlle : l.Pairwise (· ≤ ·) := hl.imp fun hij => le_of_lt hij
    exact ⟨List.sublist_of_subperm_of_pairwise (List.subperm_of_subset hn hm) hcle hlle, hk⟩

/-- The list holds the selections of `k` of the numbers, each once and in order. -/
structure Enumerates (ids : List Int) (k : Nat) (cs : List (List Int)) : Prop where
  pairwise_lex : cs.Pairwise (List.Lex (· < ·))
  mem_iff : ∀ c, c ∈ cs ↔ c.Pairwise (· < ·) ∧ c.length = k ∧ ∀ i ∈ c, i ∈ ids
  /-- Every subset of the size is selected once. -/
  perm_subsets : (cs.map List.toFinset).Perm (powersetCard k ids.toFinset).toList
  count_eq : count ids.toFinset.card k = .ok cs.length
  length_eq : cs.length = ids.toFinset.card.choose k
  eq_nil : ids.toFinset.card < k → cs = []
  eq_singleton : k = 0 → cs = [[]]

theorem enumerates_choose (ids : List Int) (k : Nat) :
    Enumerates ids k (choose k (ascending ids)) where
  pairwise_lex := pairwise_choose (pairwise_ascending ids)
  mem_iff c := by simp only [mem_choose_iff_pairwise (pairwise_ascending ids), mem_ascending]
  perm_subsets := by
    rw [ascending_eq_elements, ← subsets]
    refine (List.perm_ext_iff_of_nodup (nodup_subsets k _) (Finset.nodup_toList _)).2 fun s => ?_
    rw [mem_subsets, Finset.mem_toList]
  count_eq := by rw [count_eq, ascending_eq_elements, length_choose, Finset.length_sort]
  length_eq := by rw [ascending_eq_elements, length_choose, Finset.length_sort]
  eq_nil h := by rwa [ascending_eq_elements, choose_eq_nil_iff, Finset.length_sort]
  eq_singleton h := by rw [h, choose]

/-- The first selections of an enumeration come before all others. -/
theorem Enumerates.lex_of_take {ids : List Int} {k : Nat} {cs : List (List Int)}
    (h : Enumerates ids k cs) (limit : Nat) :
    ∀ c ∈ cs.take limit, ∀ d ∈ cs.drop limit, List.Lex (· < ·) c d := by
  have hs := h.pairwise_lex
  rw [← List.take_append_drop limit cs] at hs
  exact (List.pairwise_append.1 hs).2.2

theorem ofIds_none (ids : List Int) {k : Int} (hk : 0 ≤ k) :
    ofIds ids k none = .ok (choose k.toNat (ascending ids)) := by
  rw [ofIds.eq_def, if_neg (not_lt.2 hk)]

theorem ofIds_some (ids : List Int) {k : Int} (hk : 0 ≤ k) (limit : Nat) :
    ofIds ids k (some limit) = .ok ((choose k.toNat (ascending ids)).take limit) := by
  rw [ofIds.eq_def, if_neg (not_lt.2 hk)]
  exact congrArg Except.ok (firstChoices_eq_take limit k.toNat (ascending ids))

/-- From any list of numbers, its subsets of a size that is not negative are selected in order, and
if only so many are asked for, then the least ones. Only the set of the numbers matters. -/
theorem ofIds_enumerates (ids : List Int) (k : Int) :
    (k < 0 → ∀ limit, ofIds ids k limit = .error (.refused .negativeSize)) ∧
    (0 ≤ k → ∃ cs, ofIds ids k none = .ok cs ∧ Enumerates ids k.toNat cs ∧
      ∀ limit, ∃ first rest, ofIds ids k (some limit) = .ok first ∧ cs = first ++ rest ∧
        first.length = min limit (ids.toFinset.card.choose k.toNat) ∧
        ∀ c ∈ first, ∀ d ∈ rest, List.Lex (· < ·) c d) ∧
    ∀ ids', (∀ i, i ∈ ids' ↔ i ∈ ids) → ∀ limit, ofIds ids' k limit = ofIds ids k limit := by
  refine ⟨fun hk limit => ?_, fun hk => ?_, fun ids' h limit => ?_⟩
  · rw [ofIds.eq_def, if_pos hk]
  · have he := enumerates_choose ids k.toNat
    refine ⟨_, ofIds_none ids hk, he, fun limit => ?_⟩
    refine ⟨_, _, ofIds_some ids hk limit, (List.take_append_drop limit _).symm, ?_,
      he.lex_of_take limit⟩
    rw [List.length_take, he.length_eq]
  · rw [ofIds.eq_def, ofIds.eq_def, ascending_congr h]

/-- Three of the numbers 2, 3, 5, 8, listed out of order and one of them twice. -/
theorem ofIds_enumerates_repeated :
    Enumerates [8, 3, 5, 3, 2] 3 [[2, 3, 5], [2, 3, 8], [2, 5, 8], [3, 5, 8]] ∧
    ofIds [8, 3, 5, 3, 2] 3 (some 2) = .ok [[2, 3, 5], [2, 3, 8]] ∧
    ofIds [5, 2, 8, 3] 3 none = ofIds [8, 3, 5, 3, 2] 3 none := by
  obtain ⟨-, hk, hset⟩ := ofIds_enumerates [8, 3, 5, 3, 2] 3
  obtain ⟨cs, hcs, he, -⟩ := hk (by decide)
  have hlist : ofIds [8, 3, 5, 3, 2] 3 none =
      .ok [[2, 3, 5], [2, 3, 8], [2, 5, 8], [3, 5, 8]] := by decide
  obtain rfl := Except.ok.inj (hcs.symm.trans hlist)
  refine ⟨he, by decide, hset _ (fun i => ?_) none⟩
  simp only [List.mem_cons, List.not_mem_nil, or_false]
  omega

end Quorum.Selection
