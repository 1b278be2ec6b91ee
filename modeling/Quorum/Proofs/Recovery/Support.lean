import Quorum.Proofs.Recovery.Honest

/-!
# Recoveries side by side

The support of a value is the number of choices of points that have it at zero. Recoveries from
different points are compared by the support of each value in the one and in the other:

* `gains_from_more_shares`: further points take no support away, so the agreement does not fall, and
  where the secret stays the same no earlier point becomes a suspect;
* `withstands_corruption`: other values of some points change the support of a value at most by the
  number of choices that hold one of them, so a secret that is ahead by more than twice that number
  stays the secret.
-/

namespace Quorum

open Finset (powersetCard)
open Polynomial

theorem graph_congr {y y' : Int → Int} {s : Finset Int} (h : ∀ i ∈ s, y' i = y i) :
    graph y' s = graph y s :=
  List.map_congr_left fun i hi => by rw [h i ((Finset.mem_sort _).1 hi)]

namespace Recovery

/-- The choices of `k` of the numbers whose points are interpolated to the value `v`. -/
def supporters (y : Int → Int) (ids : Finset Int) (k : Nat) (v : Int) : Finset (Finset Int) :=
  {s ∈ powersetCard k ids | Lagrange.secret (graph y s) = .ok v}

/-- How many choices of `k` of the numbers have the value `v`. -/
def support (y : Int → Int) (ids : Finset Int) (k : Nat) (v : Int) : Nat :=
  (supporters y ids k v).card

theorem mem_supporters {y : Int → Int} {ids s : Finset Int} {k : Nat} {v : Int} :
    s ∈ supporters y ids k v ↔ s ∈ powersetCard k ids ∧ Lagrange.secret (graph y s) = .ok v :=
  Finset.mem_filter

section

variable {y y' : Int → Int} {ids ids' : Finset Int} {k : Nat}

theorem supporters_eq (hk : 1 ≤ k) (y : Int → Int) (ids : Finset Int) (v : Int) :
    supporters y ids k v = backers y ids k v := by
  refine Finset.filter_congr fun s hs => ?_
  rw [secret_graph_of_mem hk hs, Except.ok.injEq]

theorem Outcome.agreement_eq_support {name : String} {r : Recovery} (h : Outcome y ids k name r)
    (hk : 1 ≤ k) : r.agreement = support y ids k r.secret := by
  rw [support, supporters_eq hk, h.agreement_eq]

theorem Outcome.support_le {name : String} {r : Recovery} (h : Outcome y ids k name r)
    (hk : 1 ≤ k) (v : Int) : (support y ids k v : Int) ≤ r.agreement := by
  rw [support, supporters_eq hk]
  exact h.card_le v

/-- A value with more support than each other one is recovered, without a tie. -/
theorem Outcome.secret_eq_of_support_lt {name : String} {r : Recovery} {v : Int}
    (h : Outcome y ids k name r) (hk : 1 ≤ k)
    (hv : ∀ w, w ≠ v → support y ids k w < support y ids k v) : r.secret = v ∧ r.tied = false := by
  simp only [support, supporters_eq hk] at hv
  exact h.secret_eq_of_lt hv

/-! ## More points -/

/-- A choice keeps its value among more points. -/
theorem supporters_subset (hs : ids ⊆ ids') (hy : ∀ i ∈ ids, y' i = y i) (k : Nat) (v : Int) :
    supporters y ids k v ⊆ supporters y' ids' k v := by
  intro s hm
  obtain ⟨hk, hv⟩ := mem_supporters.1 hm
  have hsub := (Finset.mem_powersetCard.1 hk).1
  refine mem_supporters.2 ⟨Finset.powersetCard_mono hs hk, ?_⟩
  rw [graph_congr fun i hi => hy i (hsub hi), hv]

theorem support_mono (hs : ids ⊆ ids') (hy : ∀ i ∈ ids, y' i = y i) (k : Nat) (v : Int) :
    support y ids k v ≤ support y' ids' k v :=
  Finset.card_le_card (supporters_subset hs hy k v)

theorem Outcome.agreement_le {name name' : String} {r r' : Recovery}
    (h : Outcome y ids k name r) (h' : Outcome y' ids' k name' r') (hk : 1 ≤ k) (hs : ids ⊆ ids')
    (hy : ∀ i ∈ ids, y' i = y i) : r.agreement ≤ r'.agreement := by
  have hm : support y ids k r.secret ≤ support y' ids' k r.secret := support_mono hs hy k r.secret
  have hle := h'.support_le hk r.secret
  rw [h.agreement_eq_support hk]
  omega

/-- A point in some choice for the secret is in it among more points as well. -/
theorem Outcome.mem_suspects_of_subset {name name' : String} {r r' : Recovery} {i : Int}
    (h : Outcome y ids k name r) (h' : Outcome y' ids' k name' r') (hk : 1 ≤ k) (hs : ids ⊆ ids')
    (hy : ∀ i ∈ ids, y' i = y i) (he : r'.secret = r.secret) (hi : i ∈ ids)
    (hm : i ∈ r'.suspects) : i ∈ r.suspects := by
  have hn := ((h'.mem_suspects i).1 hm).2
  rw [← supporters_eq hk, he] at hn
  rw [h.mem_suspects, ← supporters_eq hk]
  exact ⟨hi, fun s hsup => hn s (supporters_subset hs hy k r.secret hsup)⟩

end

/-- Further points leave every value the support that it has, so the agreement does not fall, and if
the secret stays the same no earlier point becomes a suspect. -/
theorem gains_from_more_shares {given given' : PointSet} {y y' : Int → Int} {ids ids' : Finset Int}
    {k : Nat} {name name' : String} (hg : given.Shows y ids) (hg' : given'.Shows y' ids')
    (hs : ids ⊆ ids') (hy : ∀ i ∈ ids, y' i = y i) (hk : 1 ≤ k) (hn : k ≤ ids.card)
    (hr : name ∈ ruleNames) (hr' : name' ∈ ruleNames) :
    (∀ v, support y ids k v ≤ support y' ids' k v) ∧
    ∃ r r', (ofPoints given k name).outcome = .ok r ∧ (ofPoints given' k name').outcome = .ok r' ∧
      r.agreement ≤ r'.agreement ∧
      (r'.secret = r.secret → ∀ i ∈ ids, i ∈ r'.suspects → i ∈ r.suspects) := by
  obtain ⟨r, hr, hO⟩ := exists_outcome hg hk hn hr
  obtain ⟨r', hr', hO'⟩ := exists_outcome hg' hk (hn.trans (Finset.card_le_card hs)) hr'
  refine ⟨support_mono hs hy k, r, r', hr, hr', hO.agreement_le hO' hk hs hy, fun he i hi => ?_⟩
  exact hO.mem_suspects_of_subset hO' hk hs hy he hi

/-- The third point of `nearLine` is added to the others, and the fourth stays the suspect. -/
theorem gains_nearLine :
    support nearLine [1, 2, 4, 5].toFinset 2 3 ≤ support nearLine [1, 2, 3, 4, 5].toFinset 2 3 ∧
    ∃ r r', (ofPoints (.list [⟨5, 13⟩, ⟨4, 40⟩, ⟨1, 5⟩, ⟨2, 7⟩]) 2 "first").outcome = .ok r ∧
      (ofPoints nearLinePoints 2 "").outcome = .ok r' ∧ r.agreement ≤ r'.agreement ∧
      r'.secret = r.secret ∧ ∀ i ∈ [1, 2, 4, 5].toFinset, i ∈ r'.suspects → i ∈ r.suspects := by
  have hg : (PointSet.list [⟨5, 13⟩, ⟨4, 40⟩, ⟨1, 5⟩, ⟨2, 7⟩]).Shows nearLine
      [1, 2, 4, 5].toFinset := by
    rw [PointSet.Shows, graph_toFinset _ (by decide)]
    decide
  have hfirst : "first" ∈ ruleNames := by decide
  have hnone : "" ∈ ruleNames := by decide
  obtain ⟨hv, r, r', hr, hr', ha, hs⟩ := gains_from_more_shares (k := 2) hg shows_nearLine
    (by decide) (fun _ _ => rfl) (by decide) (by decide) hfirst hnone
  have hfour : (ofPoints (.list [⟨5, 13⟩, ⟨4, 40⟩, ⟨1, 5⟩, ⟨2, 7⟩]) 2 "first").outcome =
      .ok ⟨3, 2, 4, 6, 3, false, [4]⟩ := by decide +kernel
  have hfive : (ofPoints nearLinePoints 2 "").outcome = .ok ⟨3, 2, 5, 10, 6, false, [4]⟩ := by
    decide +kernel
  obtain rfl := Except.ok.inj (hr.symm.trans hfour)
  obtain rfl := Except.ok.inj (hr'.symm.trans hfive)
  exact ⟨hv 3, _, _, hr, hr', ha, rfl, hs rfl⟩

/-! ## Other values -/

/-- How many of the choices of `k` of `n` elements hold one of `t` given ones. -/
def touched (n t k : Nat) : Nat :=
  n.choose k - (n - t).choose k

section

variable {y y' : Int → Int} {ids T : Finset Int} {k : Nat}

theorem card_touched (hT : T ⊆ ids) (k : Nat) :
    {s ∈ powersetCard k ids | ¬ Disjoint s T}.card = touched ids.card T.card k := by
  have hsplit := Finset.card_filter_add_card_filter_not (s := powersetCard k ids) (Disjoint · T)
  have hdis : {s ∈ powersetCard k ids | Disjoint s T} = powersetCard k (ids \ T) := by
    ext s
    simp only [Finset.mem_filter, Finset.mem_powersetCard, Finset.subset_sdiff]
    tauto
  rw [hdis, Finset.card_powersetCard, Finset.card_powersetCard, Finset.card_sdiff_of_subset hT]
    at hsplit
  rw [touched]
  omega

/-- The support of a value comes from choices without points of `T`, but for those touched. -/
theorem support_le_add (hT : T ⊆ ids) (y : Int → Int) (k : Nat) (v : Int) :
    support y ids k v ≤ support y (ids \ T) k v + touched ids.card T.card k := by
  rw [← card_touched hT k]
  refine (Finset.card_le_card fun s hs => ?_).trans (Finset.card_union_le _ _)
  obtain ⟨hk, hv⟩ := mem_supporters.1 hs
  obtain ⟨hsub, hc⟩ := Finset.mem_powersetCard.1 hk
  by_cases hd : Disjoint s T
  · refine Finset.mem_union_left _ (mem_supporters.2 ⟨?_, hv⟩)
    exact Finset.mem_powersetCard.2 ⟨Finset.subset_sdiff.2 ⟨hsub, hd⟩, hc⟩
  · exact Finset.mem_union_right _ (Finset.mem_filter.2 ⟨hk, hd⟩)

theorem support_le_add_touched (hT : T ⊆ ids) (hy : ∀ i ∈ ids \ T, y' i = y i) (k : Nat) (v : Int) :
    support y ids k v ≤ support y' ids k v + touched ids.card T.card k := by
  have hle : support y ids k v ≤ support y (ids \ T) k v + touched ids.card T.card k :=
    support_le_add hT y k v
  have hmono : support y (ids \ T) k v ≤ support y' ids k v :=
    support_mono Finset.sdiff_subset hy k v
  omega

/-- Other values at the numbers of `T` change the support of a value by the choices touched. -/
theorem abs_support_sub_le (hT : T ⊆ ids) (hy : ∀ i ∈ ids \ T, y' i = y i) (k : Nat) (v : Int) :
    |(support y ids k v : Int) - support y' ids k v| ≤ touched ids.card T.card k := by
  have h₁ : support y ids k v ≤ support y' ids k v + touched ids.card T.card k :=
    support_le_add_touched hT hy k v
  have h₂ : support y' ids k v ≤ support y ids k v + touched ids.card T.card k :=
    support_le_add_touched hT (fun i hi => (hy i hi).symm) k v
  rw [abs_le]
  omega

/-- A lead of more than twice the choices touched is not lost. -/
theorem Outcome.secret_eq_of_lead {name : String} {r r' : Recovery} (h : Outcome y ids k name r)
    (h' : Outcome y' ids k name r') (hk : 1 ≤ k) (hT : T ⊆ ids) (hy : ∀ i ∈ ids \ T, y' i = y i)
    (hl : ∀ v, v ≠ r.secret →
      2 * touched ids.card T.card k + support y ids k v < r.agreement) :
    r'.secret = r.secret ∧ r'.tied = false ∧
      r.agreement - touched ids.card T.card k ≤ r'.agreement := by
  have hle : ∀ v, support y' ids k v ≤ support y ids k v + touched ids.card T.card k :=
    support_le_add_touched hT (fun i hi => (hy i hi).symm) k
  have hge : support y ids k r.secret ≤ support y' ids k r.secret + touched ids.card T.card k :=
    support_le_add_touched hT hy k r.secret
  have ha := h.agreement_eq_support hk
  obtain ⟨hs, ht⟩ := h'.secret_eq_of_support_lt hk fun v hv => by
    have hlead := hl v hv
    have hlev := hle v
    show support y' ids k v < support y' ids k r.secret
    omega
  refine ⟨hs, ht, ?_⟩
  rw [h'.agreement_eq_support hk, hs]
  omega

end

/-- Other values of some points change the support of a value at most by the number of choices that
hold one of these points. A secret that is ahead of each other value by more than twice as many is
recovered from both, and at most as many choices for it are lost. -/
theorem withstands_corruption {given given' : PointSet} {y y' : Int → Int} {ids T : Finset Int}
    {k : Nat} {name : String} (hg : given.Shows y ids) (hg' : given'.Shows y' ids) (hT : T ⊆ ids)
    (hy : ∀ i ∈ ids \ T, y' i = y i) (hk : 1 ≤ k) (hn : k ≤ ids.card) (hr : name ∈ ruleNames) :
    (∀ v, |(support y ids k v : Int) - support y' ids k v| ≤ touched ids.card T.card k) ∧
    ∃ r r', (ofPoints given k name).outcome = .ok r ∧ (ofPoints given' k name).outcome = .ok r' ∧
      ((∀ v, v ≠ r.secret → 2 * touched ids.card T.card k + support y ids k v < r.agreement) →
        r'.secret = r.secret ∧ r'.tied = false ∧
          r.agreement - touched ids.card T.card k ≤ r'.agreement) := by
  obtain ⟨r, hr₁, hO⟩ := exists_outcome hg hk hn hr
  obtain ⟨r', hr₂, hO'⟩ := exists_outcome hg' hk hn hr
  exact ⟨abs_support_sub_le hT hy k, r, r', hr₁, hr₂, hO.secret_eq_of_lead hO' hk hT hy⟩

/-- Nine numbers, at the fourth of which `nearLine` is corrupted. -/
def nineIds : Finset Int :=
  [1, 2, 3, 4, 5, 6, 7, 8, 9].toFinset

theorem honest_nineIds : honest (C 2 * X + C 3) nearLine nineIds = nineIds.erase 4 := by
  simp only [honest, eval_add, eval_mul, eval_C, eval_X]
  decide

theorem support_nineIds_le {v : Int} (hv : v ≠ 3) : support nearLine nineIds 2 v ≤ 8 := by
  have hd : (C 2 * X + C 3 : Int[X]).degree < (2 : Nat) := degree_linear_lt
  have hadd : (backers nearLine nineIds 2 v).card +
      (honest (C 2 * X + C 3) nearLine nineIds).card.choose 2 ≤ nineIds.card.choose 2 :=
    card_backers_add_le hd (by simpa using hv)
  have hn : nineIds.card.choose 2 = 36 := by decide
  have hh : (nineIds.erase 4).card.choose 2 = 28 := by decide
  rw [honest_nineIds, hn, hh] at hadd
  rw [support, supporters_eq (by decide)]
  omega

theorem outcome_nineIds {r : Recovery} (hO : Outcome nearLine nineIds 2 "first" r) :
    r.secret = 3 ∧ 28 ≤ r.agreement := by
  have hd : (C 2 * X + C 3 : Int[X]).degree < (2 : Nat) := degree_linear_lt
  have hh : (honest (C 2 * X + C 3) nearLine nineIds).card.choose 2 = 28 := by
    rw [honest_nineIds]
    decide
  have hv : ∀ v, v ≠ (C 2 * X + C 3 : Int[X]).eval 0 → (backers nearLine nineIds 2 v).card <
      (honest (C 2 * X + C 3) nearLine nineIds).card.choose 2 := by
    refine card_backers_lt_of_majority hd ?_
    rw [hh]
    decide
  obtain ⟨hs, -, ha⟩ := hO.secret_eq_of_honest hd hv
  rw [hh] at ha
  exact ⟨by simpa using hs, ha⟩

/-- The ninth number is corrupted as well, and still the secret is that of the line. -/
theorem withstands_second_corruption :
    ∃ r r', (ofPoints (.list (graph nearLine nineIds)) 2 "first").outcome = .ok r ∧
      (ofPoints (.list (graph (Function.update nearLine 9 0) nineIds)) 2 "first").outcome = .ok r' ∧
      (∀ v, v ≠ r.secret → 2 * touched 9 1 2 + support nearLine nineIds 2 v < r.agreement) ∧
      r'.secret = 3 ∧ r'.tied = false ∧ 20 ≤ r'.agreement := by
  have hy : ∀ i ∈ nineIds \ {9}, Function.update nearLine 9 0 i = nearLine i := fun i hi =>
    Function.update_of_ne (Finset.notMem_singleton.1 (Finset.mem_sdiff.1 hi).2) _ _
  have hg : (PointSet.list (graph nearLine nineIds)).Shows nearLine nineIds := .refl _
  have hg' : (PointSet.list (graph (Function.update nearLine 9 0) nineIds)).Shows
      (Function.update nearLine 9 0) nineIds := .refl _
  have hrule : "first" ∈ ruleNames := by decide
  obtain ⟨-, r, r', hr, hr', hlead⟩ := withstands_corruption (k := 2) hg hg'
    (show {9} ⊆ nineIds by decide) hy (by decide) (by decide) hrule
  obtain ⟨r₀, h₀, hO⟩ := exists_outcome (k := 2) hg (by decide) (by decide) hrule
  obtain rfl : r = r₀ := Except.ok.inj (hr.symm.trans h₀)
  obtain ⟨hs, ha⟩ := outcome_nineIds hO
  have ht : touched 9 1 2 = 8 := by decide
  have hv : ∀ v, v ≠ r.secret →
      2 * touched 9 1 2 + support nearLine nineIds 2 v < r.agreement := fun v hv => by
    have hle := support_nineIds_le (hs ▸ hv)
    rw [ht]
    omega
  obtain ⟨hs', ht', ha'⟩ := hlead hv
  refine ⟨r, r', hr, hr', hv, hs'.trans hs, ht', ?_⟩
  have hT : touched nineIds.card (Finset.card {(9 : Int)}) 2 = 8 := ht
  rw [hT] at ha'
  omega

end Recovery

end Quorum
