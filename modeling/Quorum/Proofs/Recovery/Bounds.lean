import Quorum.Proofs.Recovery.Checks

/-!
# How votes and suspects bound each other

No subset that stands for the secret holds a suspect, and each other number is in one of them. So
there are at most as many such subsets as choices without the suspects (`agreement_le_choose`), and
they hold all other numbers together (`card_sdiff_suspects_le`). Two values share the votes between
them (`card_backers_add_le_choose`). What follows for the numbers that a recovery gives stands in
`Bounded`, and `bounded_of_ofPoints` says it of every recovery.
-/

namespace Quorum.Recovery

open Finset (powersetCard)

/-- Fewer elements have fewer selections, where there are any. -/
theorem choose_pred_lt_choose {n k : Nat} (hk : 1 ≤ k) (hn : k ≤ n) :
    (n - 1).choose k < n.choose k := by
  obtain ⟨j, rfl⟩ := Nat.exists_eq_add_one_of_ne_zero (by omega : k ≠ 0)
  obtain ⟨m, rfl⟩ := Nat.exists_eq_add_one_of_ne_zero (by omega : n ≠ 0)
  have hpos : 0 < m.choose j := Nat.choose_pos (by omega)
  rw [Nat.add_sub_cancel, Nat.choose_succ_succ']
  omega

section

variable {y : Int → Int} {ids : Finset Int} {k : Nat}

/-- No subset stands for two values. -/
theorem card_backers_add_le_choose {v w : Int} (h : v ≠ w) :
    (backers y ids k v).card + (backers y ids k w).card ≤ ids.card.choose k := by
  rw [← Finset.card_powersetCard, ← Finset.card_union_of_disjoint]
  · exact Finset.card_le_card
      (Finset.union_subset (Finset.filter_subset _ _) (Finset.filter_subset _ _))
  · refine Finset.disjoint_left.2 fun s hv hw => h ?_
    rw [← (mem_backers.1 hv).2, (mem_backers.1 hw).2]

namespace Outcome

variable {name : String} {r : Recovery} (h : Outcome y ids k name r)
include h

theorem toFinset_suspects_subset : r.suspects.toFinset ⊆ ids := fun i hi =>
  ((h.mem_suspects i).1 (List.mem_toFinset.1 hi)).1

theorem card_toFinset_suspects : r.suspects.toFinset.card = r.suspects.length :=
  List.toFinset_card_of_nodup (h.pairwise_suspects.imp fun hlt => ne_of_lt hlt)

theorem card_sdiff_suspects :
    (ids \ r.suspects.toFinset).card = ids.card - r.suspects.length := by
  rw [Finset.card_sdiff_of_subset h.toFinset_suspects_subset, h.card_toFinset_suspects]

/-- The subsets that stand for the secret hold no suspects. -/
theorem backers_subset :
    backers y ids k r.secret ⊆ powersetCard k (ids \ r.suspects.toFinset) := by
  intro s hs
  obtain ⟨hsub, hc⟩ := Finset.mem_powersetCard.1 (mem_backers.1 hs).1
  refine Finset.mem_powersetCard.2 ⟨fun i hi => Finset.mem_sdiff.2 ⟨hsub hi, fun hm => ?_⟩, hc⟩
  exact ((h.mem_suspects i).1 (List.mem_toFinset.1 hm)).2 s hs hi

/-- All other numbers are in one of these subsets. -/
theorem sdiff_suspects_subset :
    ids \ r.suspects.toFinset ⊆ (backers y ids k r.secret).biUnion id := by
  intro i hi
  obtain ⟨hid, hn⟩ := Finset.mem_sdiff.1 hi
  rw [List.mem_toFinset, h.mem_suspects] at hn
  push Not at hn
  obtain ⟨s, hs, his⟩ := hn hid
  exact Finset.mem_biUnion.2 ⟨s, hs, his⟩

theorem agreement_le_choose : r.agreement ≤ (ids.card - r.suspects.length).choose k := by
  have hle := Finset.card_le_card h.backers_subset
  rw [Finset.card_powersetCard, h.card_sdiff_suspects] at hle
  rw [h.agreement_eq]
  exact Int.ofNat_le.2 hle

theorem card_sdiff_suspects_le : (ids.card - r.suspects.length : Nat) ≤ k * r.agreement := by
  have hle : ((backers y ids k r.secret).biUnion id).card ≤
      (backers y ids k r.secret).card * k :=
    Finset.card_biUnion_le_card_mul _ _ _ fun s hs =>
      (Finset.mem_powersetCard.1 (mem_backers.1 hs).1).2.le
  have hsub := Finset.card_le_card h.sdiff_suspects_subset
  rw [h.card_sdiff_suspects] at hsub
  rw [h.agreement_eq, mul_comm]
  exact_mod_cast hsub.trans hle

/-- There are enough numbers that are not suspect. -/
theorem length_suspects_add_le (hn : k ≤ ids.card) : r.suspects.length + k ≤ ids.card := by
  obtain ⟨s, hs⟩ := h.backers_nonempty hn
  obtain ⟨hsub, hc⟩ := Finset.mem_powersetCard.1 (h.backers_subset hs)
  have hle := Finset.card_le_card hsub
  have hall := Finset.card_le_card h.toFinset_suspects_subset
  rw [h.card_sdiff_suspects, hc] at hle
  rw [h.card_toFinset_suspects] at hall
  omega

theorem two_mul_agreement_le (ht : r.tied = true) : 2 * r.agreement ≤ r.combinations := by
  obtain ⟨v, hv, hc⟩ := h.tied_iff.1 ht
  have hle : (backers y ids k v).card + (backers y ids k r.secret).card ≤ ids.card.choose k :=
    card_backers_add_le_choose hv
  have ha := h.agreement_eq
  have hall := h.combinations_eq
  omega

/-- With more votes than there are choices without some one number, no number is suspect. -/
theorem suspects_eq_nil (hl : ((ids.card - 1).choose k : Int) < r.agreement) : r.suspects = [] := by
  rw [← List.length_eq_zero_iff]
  by_contra hs
  have hmono : (ids.card - r.suspects.length).choose k ≤ (ids.card - 1).choose k :=
    Nat.choose_le_choose k (by omega)
  have hle := h.agreement_le_choose
  omega

end Outcome

end

/-- How the numbers that a recovery gives bound each other, for `n` points and a threshold `k`. -/
structure Bounded (n k : Nat) (r : Recovery) : Prop where
  one_le_agreement : 1 ≤ r.agreement
  agreement_le : r.agreement ≤ (n - r.suspects.length).choose k
  choose_le : ((n - r.suspects.length).choose k : Int) ≤ r.combinations
  suspects_le : (r.suspects.length : Int) ≤ n - k
  le_mul_agreement : (n - r.suspects.length : Int) ≤ k * r.agreement
  of_tied : r.tied = true → 2 * r.agreement ≤ r.combinations
  of_unanimous : r.agreement = r.combinations → r.suspects = [] ∧ r.tied = false
  of_choose_lt : ((n - 1).choose k : Int) < r.agreement → r.suspects = []

theorem Outcome.bounded {y : Int → Int} {ids : Finset Int} {k : Nat} {name : String} {r : Recovery}
    (h : Outcome y ids k name r) (hk : 1 ≤ k) (hn : k ≤ ids.card) : Bounded ids.card k r := by
  have hpos : 0 < (backers y ids k r.secret).card := Finset.card_pos.2 (h.backers_nonempty hn)
  have hone : 1 ≤ r.agreement := by
    rw [h.agreement_eq]
    omega
  have hs := h.length_suspects_add_le hn
  have hmul := h.card_sdiff_suspects_le
  have hlt : (ids.card - 1).choose k < ids.card.choose k := choose_pred_lt_choose hk hn
  refine ⟨hone, h.agreement_le_choose, ?_, by omega, ?_, h.two_mul_agreement_le, fun ha => ?_,
    h.suspects_eq_nil⟩
  · rw [h.combinations_eq]
    exact Int.ofNat_le.2 (Nat.choose_le_choose k (by omega))
  · rw [Nat.cast_sub (by omega)] at hmul
    exact hmul
  · refine ⟨h.suspects_eq_nil ?_, Bool.eq_false_iff.2 fun ht => ?_⟩
    · rw [ha, h.combinations_eq]
      exact Int.ofNat_lt.2 hlt
    · have htwo := h.two_mul_agreement_le ht
      omega

/-- The numbers of every recovery from points in a list or under labels are bounded by each other
and by the number of points. -/
theorem bounded_of_ofPoints {given : PointSet} {k : Int} {name : String} {r : Recovery}
    (hg : given.Keyed) (h : (ofPoints given k name).outcome = .ok r) :
    r.shares = given.size ∧ r.threshold = k ∧ Bounded given.size k.toNat r := by
  obtain ⟨y, ids, n, rfl, hk, hn, hc, hO⟩ := exists_outcome_of_ok hg h
  refine ⟨hO.shares_eq.trans hc, hO.threshold_eq, ?_⟩
  rw [← hc, Int.toNat_natCast]
  exact hO.bounded hk hn

/-- One of five points is a suspect, and all choices of the others agree. -/
theorem bounded_of_ofPoints_labelled :
    (PointSet.labelled [(5, ⟨5, 60⟩), (1, ⟨1, 8⟩), (4, ⟨4, 40⟩), (2, ⟨2, 15⟩), (3, ⟨3, 26⟩)]).Keyed ∧
    Bounded 5 3 ⟨5, 3, 5, 10, 4, false, [4]⟩ := by
  have hg : (PointSet.labelled
      [(5, ⟨5, 60⟩), (1, ⟨1, 8⟩), (4, ⟨4, 40⟩), (2, ⟨2, 15⟩), (3, ⟨3, 26⟩)]).Keyed := by
    rw [PointSet.Keyed]
    decide
  have h : (ofPoints (.labelled
      [(5, ⟨5, 60⟩), (1, ⟨1, 8⟩), (4, ⟨4, 40⟩), (2, ⟨2, 15⟩), (3, ⟨3, 26⟩)]) 3 "first").outcome =
      .ok ⟨5, 3, 5, 10, 4, false, [4]⟩ := by
    decide +kernel
  exact ⟨hg, (bounded_of_ofPoints hg h).2.2⟩

end Quorum.Recovery
