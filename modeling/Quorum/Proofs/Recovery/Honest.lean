import Quorum.Proofs.Recovery.Reference

/-!
# Honest and corrupted shares

Shares are honest if their values are those of the sharing polynomial. Honest subsets all
vote for its constant term (`candidate_of_subset_honest`), so they decide the recovery as
long as no other value gets as many votes (`Outcome.secret_eq_of_lt`):

* `recovers_of_honest_majority`: the constant term is recovered whenever the honest subsets
  outnumber those that agree on any one other value, as when they are the majority;
* `singles_out_corrupted`: a single corrupted share is found, if it is off by enough to be
  seen in every subset.
-/

namespace Quorum.Recovery

open Finset (powersetCard)
open Polynomial
open Quorum.Lagrange (candidate)

/-- The numbers whose values are those of the polynomial. -/
def honest (p : Int[X]) (y : Int → Int) (ids : Finset Int) : Finset Int :=
  {i ∈ ids | y i = p.eval i}

theorem honest_subset (p : Int[X]) (y : Int → Int) (ids : Finset Int) : honest p y ids ⊆ ids :=
  Finset.filter_subset _ _

section

variable {p : Int[X]} {y : Int → Int} {ids : Finset Int} {k : Nat}

theorem candidate_of_subset_honest {s : Finset Int} (hd : p.degree < k)
    (hs : s ∈ powersetCard k (honest p y ids)) : candidate y s = p.eval 0 := by
  obtain ⟨hsub, rfl⟩ := Finset.mem_powersetCard.1 hs
  exact Lagrange.candidate_eq_eval hd fun i hi => (Finset.mem_filter.1 (hsub hi)).2

theorem honest_subsets_subset_backers (hd : p.degree < k) :
    powersetCard k (honest p y ids) ⊆ backers y ids k (p.eval 0) := fun _ hs =>
  mem_backers.2 ⟨Finset.powersetCard_mono (honest_subset p y ids) hs,
    candidate_of_subset_honest hd hs⟩

theorem choose_le_card_backers (hd : p.degree < k) :
    (honest p y ids).card.choose k ≤ (backers y ids k (p.eval 0)).card := by
  rw [← Finset.card_powersetCard]
  exact Finset.card_le_card (honest_subsets_subset_backers hd)

/-- A value other than the constant term gets its votes from subsets that are not honest. -/
theorem exists_not_honest {s : Finset Int} {v : Int} (hd : p.degree < k)
    (hs : s ∈ backers y ids k v) (hv : v ≠ p.eval 0) : ∃ i ∈ s, i ∉ honest p y ids := by
  obtain ⟨hk, rfl⟩ := mem_backers.1 hs
  by_contra h
  push Not at h
  exact hv (candidate_of_subset_honest hd
    (Finset.mem_powersetCard.2 ⟨h, (Finset.mem_powersetCard.1 hk).2⟩))

theorem card_backers_add_le {v : Int} (hd : p.degree < k) (hv : v ≠ p.eval 0) :
    (backers y ids k v).card + (honest p y ids).card.choose k ≤ ids.card.choose k := by
  rw [← Finset.card_powersetCard k (honest p y ids), ← Finset.card_powersetCard k ids,
    ← Finset.card_union_of_disjoint]
  · refine Finset.card_le_card (Finset.union_subset (Finset.filter_subset _ _) ?_)
    exact Finset.powersetCard_mono (honest_subset p y ids)
  · refine Finset.disjoint_left.2 fun s hs hh => ?_
    obtain ⟨i, hi, hn⟩ := exists_not_honest hd hs hv
    exact hn ((Finset.mem_powersetCard.1 hh).1 hi)

theorem card_backers_lt_of_majority (hd : p.degree < k)
    (h : ids.card.choose k < 2 * (honest p y ids).card.choose k) :
    ∀ v, v ≠ p.eval 0 → (backers y ids k v).card < (honest p y ids).card.choose k := by
  intro v hv
  have hsum : (backers y ids k v).card + (honest p y ids).card.choose k ≤ ids.card.choose k :=
    card_backers_add_le hd hv
  omega

/-- A value with more votes than each other one is recovered, without a tie. -/
theorem Outcome.secret_eq_of_lt {name : String} {r : Recovery} {v : Int}
    (h : Outcome y ids k name r)
    (hv : ∀ w, w ≠ v → (backers y ids k w).card < (backers y ids k v).card) :
    r.secret = v ∧ r.tied = false := by
  have hs : r.secret = v := by
    by_contra hne
    have h₁ := hv _ hne
    have h₂ := h.card_le v
    rw [h.agreement_eq] at h₂
    omega
  refine ⟨hs, Bool.eq_false_iff.2 fun ht => ?_⟩
  obtain ⟨w, hw, hc⟩ := h.tied_iff.1 ht
  rw [h.agreement_eq, Nat.cast_inj] at hc
  have := hv w (hs ▸ hw)
  rw [hs] at hc
  omega

theorem Outcome.secret_eq_of_honest {name : String} {r : Recovery} (h : Outcome y ids k name r)
    (hd : p.degree < k)
    (hv : ∀ v, v ≠ p.eval 0 → (backers y ids k v).card < (honest p y ids).card.choose k) :
    r.secret = p.eval 0 ∧ r.tied = false ∧
      ((honest p y ids).card.choose k : Int) ≤ r.agreement := by
  have hle : (honest p y ids).card.choose k ≤ (backers y ids k (p.eval 0)).card :=
    choose_le_card_backers hd
  obtain ⟨hs, ht⟩ := h.secret_eq_of_lt fun v hne => (hv v hne).trans_le hle
  refine ⟨hs, ht, ?_⟩
  rw [h.agreement_eq, hs]
  exact Int.ofNat_le.2 hle

/-- Every honest number is in an honest subset. -/
theorem Outcome.not_mem_suspects {name : String} {r : Recovery} {i : Int}
    (h : Outcome y ids k name r) (hd : p.degree < k) (hs : r.secret = p.eval 0) (hk : 1 ≤ k)
    (hh : k ≤ (honest p y ids).card) (hi : i ∈ honest p y ids) : i ∉ r.suspects := by
  rw [h.mem_suspects, hs]
  rintro ⟨-, hn⟩
  obtain ⟨s, his, hsub, hc⟩ := Finset.exists_subsuperset_card_eq
    (Finset.singleton_subset_iff.2 hi) (by simpa using hk) hh
  refine hn s (honest_subsets_subset_backers hd ?_) (Finset.singleton_subset_iff.1 his)
  exact Finset.mem_powersetCard.2 ⟨hsub, hc⟩

/-- If all numbers are honest, all subsets agree and nothing is suspect. -/
theorem Outcome.unanimous {name : String} {r : Recovery} (h : Outcome y ids k name r)
    (hd : p.degree < k) (hs : r.secret = p.eval 0) (hk : 1 ≤ k) (hn : k ≤ ids.card)
    (hall : honest p y ids = ids) : r.agreement = r.combinations ∧ r.suspects = [] := by
  constructor
  · have hle : (honest p y ids).card.choose k ≤ (backers y ids k (p.eval 0)).card :=
      choose_le_card_backers hd
    have hge : (backers y ids k (p.eval 0)).card ≤ (powersetCard k ids).card :=
      Finset.card_le_card (Finset.filter_subset _ _)
    rw [hall] at hle
    rw [Finset.card_powersetCard] at hge
    rw [h.agreement_eq, h.combinations_eq, hs, le_antisymm hge hle]
  · refine List.eq_nil_iff_forall_not_mem.2 fun i hi => ?_
    have hm := ((h.mem_suspects i).1 hi).1
    rw [← hall] at hm hn
    exact h.not_mem_suspects hd hs hk hn hm hi

end

/-- The constant term is recovered whenever fewer subsets than the honest ones agree on any other
value, and so whenever the honest subsets are the majority. -/
theorem recovers_of_honest_majority {given : PointSet} {y : Int → Int} {ids : Finset Int} {k : Nat}
    {name : String} {p : Int[X]} (hg : given.Shows y ids) (hk : 1 ≤ k) (hd : p.degree < k)
    (hh : k ≤ (honest p y ids).card) (hr : name ∈ ruleNames)
    (hv : (∀ v, v ≠ p.eval 0 →
        {s ∈ powersetCard k ids | (∃ i ∈ s, i ∉ honest p y ids) ∧
          Lagrange.secret (graph y s) = .ok v}.card < (honest p y ids).card.choose k) ∨
      ids.card.choose k < 2 * (honest p y ids).card.choose k) :
    ∃ r, (ofPoints given k name).outcome = .ok r ∧ r.secret = p.eval 0 ∧ r.tied = false ∧
      ((honest p y ids).card.choose k : Int) ≤ r.agreement ∧
      ∀ i ∈ honest p y ids, i ∉ r.suspects := by
  have hn : k ≤ ids.card := hh.trans (Finset.card_le_card (honest_subset p y ids))
  obtain ⟨r, hr, hO⟩ := exists_outcome hg hk hn hr
  have hlt : ∀ v, v ≠ p.eval 0 → (backers y ids k v).card < (honest p y ids).card.choose k := by
    intro v hne
    rcases hv with hv | hv
    · refine (Finset.card_le_card fun s hs => ?_).trans_lt (hv v hne)
      obtain ⟨hsk, hsv⟩ := mem_backers.1 hs
      have hpos : 0 < s.card := by rw [(Finset.mem_powersetCard.1 hsk).2]; exact hk
      refine Finset.mem_filter.2 ⟨hsk, exists_not_honest hd hs hne, ?_⟩
      rw [secret_graph y (Finset.card_pos.1 hpos), hsv]
    · exact card_backers_lt_of_majority hd hv v hne
  obtain ⟨hs, ht, ha⟩ := hO.secret_eq_of_honest hd hlt
  exact ⟨r, hr, hs, ht, ha, fun i hi => hO.not_mem_suspects hd hs hk hh hi⟩

/-- Five numbers with the values of `2x + 3`, but for the fourth. -/
def nearLine (i : Int) : Int :=
  if i = 4 then 40 else 2 * i + 3

/-- Its points, the corrupted one first. -/
def nearLinePoints : PointSet :=
  .list [⟨4, 40⟩, ⟨1, 5⟩, ⟨5, 13⟩, ⟨2, 7⟩, ⟨3, 9⟩]

theorem shows_nearLine : nearLinePoints.Shows nearLine [1, 2, 3, 4, 5].toFinset := by
  rw [nearLinePoints, PointSet.Shows, graph_toFinset _ (by decide)]
  decide

theorem recovers_nearLine :
    Nat.choose 5 2 < 2 * Nat.choose 4 2 ∧
    ∃ r, (ofPoints nearLinePoints 2 "first").outcome = .ok r ∧
      r.secret = 3 ∧ r.tied = false ∧ 6 ≤ r.agreement ∧ ∀ i ∈ [1, 2, 3, 5], i ∉ r.suspects := by
  have hh : honest (C 2 * X + C 3) nearLine [1, 2, 3, 4, 5].toFinset = [1, 2, 3, 5].toFinset := by
    simp only [honest, eval_add, eval_mul, eval_C, eval_X]
    decide
  have hd : (C 2 * X + C 3 : Int[X]).degree < (2 : Nat) := degree_linear_lt
  have hr := recovers_of_honest_majority shows_nearLine (by decide) hd (by rw [hh]; decide)
    (show "first" ∈ ruleNames by decide) (.inr (by rw [hh]; decide))
  rw [hh] at hr
  refine ⟨by decide, ?_⟩
  simpa [Nat.choose] using hr

/-! ## A single corrupted share -/

/-- The subsets with a number are as many as the selections of the others beside it. -/
theorem card_filter_mem {ids : Finset Int} {c : Int} (hc : c ∈ ids) (k : Nat) :
    {s ∈ powersetCard (k + 1) ids | c ∈ s}.card = (ids.card - 1).choose k := by
  have hsplit := Finset.card_filter_add_card_filter_not (s := powersetCard (k + 1) ids) (c ∈ ·)
  have hnot : {s ∈ powersetCard (k + 1) ids | c ∉ s} = powersetCard (k + 1) (ids.erase c) := by
    ext s
    simp only [Finset.mem_filter, Finset.mem_powersetCard, Finset.subset_erase]
    tauto
  have hpos : 0 < ids.card := Finset.card_pos.2 ⟨c, hc⟩
  obtain ⟨m, hm⟩ := Nat.exists_eq_add_one_of_ne_zero hpos.ne'
  rw [hnot, Finset.card_powersetCard, Finset.card_powersetCard, Finset.card_erase_of_mem hc, hm,
    Nat.add_sub_cancel, Nat.choose_succ_succ'] at hsplit
  rw [hm, Nat.add_sub_cancel]
  omega

theorem choose_lt_choose_succ {m k : Nat} (h : 2 * k + 1 < m) : m.choose k < m.choose (k + 1) := by
  have hpos : 0 < m.choose k := Nat.choose_pos (by omega)
  have he := Nat.choose_succ_right_eq m k
  by_contra hle
  have h₁ : m.choose (k + 1) * (k + 1) ≤ m.choose k * (k + 1) :=
    Nat.mul_le_mul_right _ (by omega)
  have h₂ : m.choose k * (k + 1) < m.choose k * (m - k) :=
    Nat.mul_lt_mul_of_pos_left (by omega) hpos
  omega

/-- An error that is large enough against the weight of its number moves the value at zero so far
that cutting does not bring it back. -/
theorem candidate_ne_of_error {p : Int[X]} {y : Int → Int} {s : Finset Int} {c e : Int}
    (hd : p.degree < s.card) (hc : c ∈ s) (hp : ∀ i ∈ s, i ≠ c → y i = p.eval i)
    (hy : y c = p.eval c + e)
    (he : ∏ j ∈ s.erase c, |j - c| ≤ |e| * ∏ j ∈ s.erase c, |j|) : candidate y s ≠ p.eval 0 := by
  have hpos : (0 : Rat) < ∏ j ∈ s.erase c, |((c - j : Int) : Rat)| := by
    refine Finset.prod_pos fun j hj => abs_pos.2 (Int.cast_ne_zero.2 (sub_ne_zero.2 fun h => ?_))
    exact Finset.ne_of_mem_erase hj h.symm
  have hcast : ∏ j ∈ s.erase c, |((c - j : Int) : Rat)| ≤
      |(e : Rat)| * ∏ j ∈ s.erase c, |((-j : Int) : Rat)| := by
    have he' : ∏ j ∈ s.erase c, |c - j| ≤ |e| * ∏ j ∈ s.erase c, |-j| := by
      simpa only [abs_sub_comm c, abs_neg] using he
    exact_mod_cast he'
  have hone : (1 : Rat) ≤ |(Lagrange.through y s).eval 0 - (p.eval 0 : Int)| := by
    rw [Lagrange.eval_through_shifted hd hc hp hy, add_sub_cancel_left, abs_mul, Finset.abs_prod]
    simp only [abs_div]
    rw [Finset.prod_div_distrib, ← mul_div_assoc, one_le_div hpos]
    exact hcast
  intro h
  rw [← h] at hone
  exact absurd (Lagrange.abs_sub_towardZero_lt ((Lagrange.through y s).eval 0)) (not_lt.2 hone)

section

variable {p : Int[X]} {y : Int → Int} {ids : Finset Int} {k : Nat} {c : Int}

theorem backers_eq_of_single (hd : p.degree < k)
    (hp : ∀ i ∈ ids, i ≠ c → y i = p.eval i)
    (hm : ∀ s ∈ powersetCard k ids, c ∈ s → candidate y s ≠ p.eval 0) :
    backers y ids k (p.eval 0) = powersetCard k (ids.erase c) := by
  ext s
  rw [mem_backers, Finset.mem_powersetCard, Finset.mem_powersetCard, Finset.subset_erase]
  constructor
  · rintro ⟨⟨hs, hk⟩, hv⟩
    exact ⟨⟨hs, fun hc => hm s (Finset.mem_powersetCard.2 ⟨hs, hk⟩) hc hv⟩, hk⟩
  · rintro ⟨⟨hs, hc⟩, rfl⟩
    refine ⟨⟨hs, rfl⟩, Lagrange.candidate_eq_eval hd fun i hi => hp i (hs hi) ?_⟩
    exact ne_of_mem_of_not_mem hi hc

theorem card_backers_le_of_single (hd : p.degree < k) (hp : ∀ i ∈ ids, i ≠ c → y i = p.eval i)
    {v : Int} (hv : v ≠ p.eval 0) :
    (backers y ids k v).card ≤ {s ∈ powersetCard k ids | c ∈ s}.card := by
  refine Finset.card_le_card fun s hs => ?_
  obtain ⟨hk, rfl⟩ := mem_backers.1 hs
  obtain ⟨hsub, rfl⟩ := Finset.mem_powersetCard.1 hk
  refine Finset.mem_filter.2 ⟨hk, ?_⟩
  by_contra hc
  refine hv (Lagrange.candidate_eq_eval hd fun i hi => hp i (hsub hi) ?_)
  exact ne_of_mem_of_not_mem hi hc

end

/-- A single corrupted share among more than twice as many as it takes is found, if its error
shows in every subset. -/
theorem singles_out_corrupted {given : PointSet} {y : Int → Int} {ids : Finset Int} {k : Nat}
    {name : String} {p : Int[X]} {c e : Int} (hg : given.Shows y ids) (hk : 1 ≤ k)
    (hn : 2 * k < ids.card) (hd : p.degree < k) (hc : c ∈ ids)
    (hp : ∀ i ∈ ids, i ≠ c → y i = p.eval i) (hy : y c = p.eval c + e)
    (he : ∀ s ∈ powersetCard (k - 1) (ids.erase c), ∏ j ∈ s, |j - c| ≤ |e| * ∏ j ∈ s, |j|)
    (hr : name ∈ ruleNames) :
    ∃ r, (ofPoints given k name).outcome = .ok r ∧ r.secret = p.eval 0 ∧
      r.agreement = (ids.card - 1).choose k ∧ r.tied = false ∧ r.suspects = [c] := by
  obtain ⟨r, hr, hO⟩ := exists_outcome hg hk (by omega) hr
  have hm : ∀ s ∈ powersetCard k ids, c ∈ s → candidate y s ≠ p.eval 0 := by
    intro s hs hcs
    obtain ⟨hsub, rfl⟩ := Finset.mem_powersetCard.1 hs
    refine candidate_ne_of_error hd hcs (fun i hi => hp i (hsub hi)) hy (he _ ?_)
    exact Finset.mem_powersetCard.2
      ⟨Finset.erase_subset_erase c hsub, Finset.card_erase_of_mem hcs⟩
  have hb := backers_eq_of_single hd hp hm
  have hcard : (backers y ids k (p.eval 0)).card = (ids.card - 1).choose k := by
    rw [hb, Finset.card_powersetCard, Finset.card_erase_of_mem hc]
  obtain ⟨hs, ht⟩ := hO.secret_eq_of_lt (v := p.eval 0) fun v hv => by
    refine (card_backers_le_of_single hd hp hv).trans_lt ?_
    obtain ⟨j, rfl⟩ := Nat.exists_eq_add_one_of_ne_zero (by omega : k ≠ 0)
    rw [card_filter_mem hc, hcard]
    exact choose_lt_choose_succ (by omega)
  refine ⟨r, hr, hs, by rw [hO.agreement_eq, hs, hcard], ht, ?_⟩
  refine hO.pairwise_suspects.eq_of_mem_iff (List.pairwise_singleton _ c) fun i => ?_
  rw [hO.mem_suspects, hs, hb, List.mem_singleton]
  constructor
  · rintro ⟨hi, hns⟩
    by_contra hic
    obtain ⟨s, his, hsub, hcs⟩ := Finset.exists_subsuperset_card_eq (n := k)
      (Finset.singleton_subset_iff.2 (Finset.mem_erase.2 ⟨hic, hi⟩)) (by simpa using hk)
      (by rw [Finset.card_erase_of_mem hc]; omega)
    exact hns s (Finset.mem_powersetCard.2 ⟨hsub, hcs⟩) (Finset.singleton_subset_iff.1 his)
  · rintro rfl
    refine ⟨hc, fun s hs hi => ?_⟩
    exact (Finset.mem_erase.1 ((Finset.mem_powersetCard.1 hs).1 hi)).1 rfl

theorem singles_out_nearLine :
    (∀ s ∈ powersetCard 1 ([1, 2, 3, 4, 5].toFinset.erase 4),
      ∏ j ∈ s, |j - (4 : Int)| ≤ |29| * ∏ j ∈ s, |j|) ∧
    ∃ r, (ofPoints nearLinePoints 2 "").outcome = .ok r ∧
      r.secret = 3 ∧ r.agreement = 6 ∧ r.tied = false ∧ r.suspects = [4] := by
  have he : ∀ s ∈ powersetCard 1 ([1, 2, 3, 4, 5].toFinset.erase 4),
      ∏ j ∈ s, |j - (4 : Int)| ≤ |29| * ∏ j ∈ s, |j| := by
    decide
  have hd : (C 2 * X + C 3 : Int[X]).degree < (2 : Nat) := degree_linear_lt
  have hr := singles_out_corrupted shows_nearLine (by decide) (by decide) hd
    (show 4 ∈ [1, 2, 3, 4, 5].toFinset by decide) (fun i _ hi => by simp [nearLine, hi]) (by simp [nearLine]) he
    (show "" ∈ ruleNames by decide)
  refine ⟨he, ?_⟩
  simpa [Nat.choose] using hr

end Quorum.Recovery
