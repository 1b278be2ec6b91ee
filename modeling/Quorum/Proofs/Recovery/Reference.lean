import Quorum.Proofs.Ascending
import Quorum.Proofs.Ballot
import Quorum.Proofs.Lagrange
import Quorum.Proofs.Selection
import Quorum.Recovery

/-!
# Recovery, said with sets

`Recovery.Outcome` says what a recovery comes to in terms of the subsets of the numbers and
of the polynomials through their points, with no list, tally or order of counting in it;
`ofPoints_iff_outcome` says that it is what `Recovery.ofPoints` gives.
-/

namespace Quorum

open Finset (powersetCard)
open Quorum.Lagrange (candidate)
open Quorum.Selection (elements subsets)

/-- The points of `y` over some numbers, in ascending order. -/
def graph (y : Int → Int) (ids : Finset Int) : List Point :=
  (elements ids).map fun i => ⟨i, y i⟩

theorem mem_graph {y : Int → Int} {ids : Finset Int} {p : Point} :
    p ∈ graph y ids ↔ p.x ∈ ids ∧ p.y = y p.x := by
  rw [graph, List.mem_map]
  constructor
  · rintro ⟨i, hi, rfl⟩
    exact ⟨(Finset.mem_sort _).1 hi, rfl⟩
  · rintro ⟨hi, hy⟩
    exact ⟨p.x, (Finset.mem_sort _).2 hi, by rw [← hy]⟩

theorem map_x_graph (y : Int → Int) (ids : Finset Int) : (graph y ids).map Point.x = ids.sort := by
  simp [graph, Function.comp_def]

theorem length_graph (y : Int → Int) (ids : Finset Int) : (graph y ids).length = ids.card := by
  simp [graph]

theorem pairwise_graph (y : Int → Int) (ids : Finset Int) :
    (graph y ids).Pairwise fun p q => p.x < q.x :=
  List.pairwise_map.2 ids.sortedLT_sort.pairwise

theorem graph_toFinset (y : Int → Int) {l : List Int} (h : l.Pairwise (· < ·)) :
    graph y l.toFinset = l.map fun i => ⟨i, y i⟩ := by
  rw [graph, elements, (List.toFinset_sort (· ≤ ·) (h.imp fun hab => ne_of_lt hab)).2
    (h.imp fun hab => le_of_lt hab)]

/-- The point set hands over the points of `y` over `ids`, each once, in any order and under its
number if there are labels. -/
def PointSet.Shows (y : Int → Int) (ids : Finset Int) : PointSet → Prop
  | .list points => points.Perm (graph y ids)
  | .labelled entries => entries.Perm ((graph y ids).map fun p => (p.x, p))

theorem PointSet.points_list_eq_ok_iff {given points : List Point} :
    (list given).points = .ok points ↔ (given.map Point.x).Nodup ∧ given = points := by
  rw [← firstRepeat?_beq_eq_none_iff, PointSet.points]
  cases firstRepeat? (· == ·) [] (given.map Point.x) <;> simp

theorem PointSet.points_labelled_eq_ok_iff {entries : List (Int × Point)} {points : List Point} :
    (labelled entries).points = .ok points ↔
      (∀ e ∈ entries, e.1 = e.2.x) ∧ entries.map Prod.snd = points := by
  have hnone : entries.find? (fun e => e.1 != e.2.x) = none ↔ ∀ e ∈ entries, e.1 = e.2.x := by
    simp
  rw [← hnone, PointSet.points]
  cases entries.find? fun e => e.1 != e.2.x with
  | none => simp
  | some e => simp

theorem PointSet.points_list {points : List Point} (h : (points.map Point.x).Nodup) :
    (list points).points = .ok points :=
  points_list_eq_ok_iff.2 ⟨h, rfl⟩

theorem PointSet.points_labelled {points : List Point} {entries : List (Int × Point)}
    (h : entries.Perm (points.map fun p => (p.x, p))) :
    (labelled entries).points = .ok (entries.map Prod.snd) ∧
      (entries.map Prod.snd).Perm points := by
  have hx : ∀ e ∈ entries, e.1 = e.2.x := fun e he => by
    obtain ⟨p, -, rfl⟩ := List.mem_map.1 (h.subset he)
    rfl
  refine ⟨points_labelled_eq_ok_iff.2 ⟨hx, rfl⟩, ?_⟩
  simpa [Function.comp_def] using h.map Prod.snd

theorem PointSet.Shows.exists_points {given : PointSet} {y : Int → Int} {ids : Finset Int}
    (h : given.Shows y ids) : ∃ points, given.points = .ok points ∧ points.Perm (graph y ids) := by
  cases given with
  | list points =>
    have hn : (points.map Point.x).Nodup := by
      rw [(h.map Point.x).nodup_iff, map_x_graph]
      exact ids.sort_nodup _
    exact ⟨points, points_list hn, h⟩
  | labelled entries => exact ⟨_, points_labelled h⟩

namespace Recovery

/-! ## Votes -/

theorem byNumber_graph (y : Int → Int) (ids : Finset Int) : byNumber (graph y ids) = graph y ids :=
  sortBy_eq_of_perm (.refl _) (pairwise_graph y ids)

/-- The subsets of a size whose points stand for the value `v`. -/
noncomputable def backers (y : Int → Int) (ids : Finset Int) (k : Nat) (v : Int) :
    Finset (Finset Int) :=
  {s ∈ powersetCard k ids | candidate y s = v}

theorem mem_backers {y : Int → Int} {ids s : Finset Int} {k : Nat} {v : Int} :
    s ∈ backers y ids k v ↔ s ∈ powersetCard k ids ∧ candidate y s = v :=
  Finset.mem_filter

/-- The votes of all subsets. -/
noncomputable def ballots (y : Int → Int) (ids : Finset Int) (k : Nat) : List Vote :=
  (subsets k ids).map fun s => ⟨graph y s, candidate y s⟩

theorem secret_graph (y : Int → Int) {s : Finset Int} (h : s.Nonempty) :
    Lagrange.secret (graph y s) = .ok (candidate y s) := by
  have h₀ : graph y s ≠ [] := by
    rw [← List.length_pos_iff, length_graph]
    exact h.card_pos
  have hn : ((graph y s).map Point.x).Nodup := by
    rw [map_x_graph]
    exact s.sort_nodup _
  rw [Lagrange.secret_eq h₀ hn fun p hp => (mem_graph.1 hp).2.symm, map_x_graph,
    Finset.sort_toFinset]

theorem secret_graph_of_mem {y : Int → Int} {ids s : Finset Int} {k : Nat} (hk : 1 ≤ k)
    (hs : s ∈ powersetCard k ids) : Lagrange.secret (graph y s) = .ok (candidate y s) := by
  refine secret_graph y (Finset.card_pos.1 ?_)
  rw [(Finset.mem_powersetCard.1 hs).2]
  exact hk

theorem choose_graph (k : Nat) (y : Int → Int) (ids : Finset Int) :
    Selection.choose k (graph y ids) = (subsets k ids).map (graph y) := by
  rw [graph, Selection.choose_map, subsets, List.map_map]
  refine List.map_congr_left fun c hc => ?_
  rw [Function.comp_apply, graph, elements, Selection.sort_toFinset hc]

theorem votes_graph {k : Nat} (hk : 1 ≤ k) (y : Int → Int) (ids : Finset Int) :
    votes k (graph y ids) = .ok (ballots y ids k) := by
  rw [votes, choose_graph, List.mapM_map]
  refine mapM_ok fun s hs => ?_
  rw [Function.comp_apply, secret_graph_of_mem hk (Selection.mem_subsets.1 hs)]
  rfl

theorem map_value_ballots (y : Int → Int) (ids : Finset Int) (k : Nat) :
    (ballots y ids k).map Vote.value = (subsets k ids).map (candidate y) := by
  simp [ballots, Function.comp_def]

theorem count_ballots (y : Int → Int) (ids : Finset Int) (k : Nat) (v : Int) :
    ((subsets k ids).map (candidate y)).count v = (backers y ids k v).card := by
  rw [backers, ← Selection.countP_subsets, List.count, List.countP_map]
  rfl

theorem mem_suspectsOf {v i : Int} {y : Int → Int} {ids : Finset Int} {k : Nat} :
    i ∈ suspectsOf v (ballots y ids k) (graph y ids) ↔
      i ∈ ids ∧ ∀ s ∈ backers y ids k v, i ∉ s := by
  rw [suspectsOf, map_x_graph, List.mem_filter, Finset.mem_sort]
  refine and_congr_right fun _ => ?_
  simp only [Bool.not_eq_true', List.any_eq_false, List.mem_filter, ballots, List.mem_map,
    beq_iff_eq, List.any_eq_true, not_exists, not_and, mem_backers]
  constructor
  · intro h s hs his
    exact h _ ⟨⟨s, Selection.mem_subsets.2 hs.1, rfl⟩, hs.2⟩ ⟨i, y i⟩ (mem_graph.2 ⟨his, rfl⟩) rfl
  · rintro h _ ⟨⟨s, hs, rfl⟩, hv⟩ p hp rfl
    exact h s ⟨Selection.mem_subsets.1 hs, hv⟩ (mem_graph.1 hp).1

theorem pairwise_suspectsOf (v : Int) (cast : List Vote) (y : Int → Int) (ids : Finset Int) :
    (suspectsOf v cast (graph y ids)).Pairwise (· < ·) := by
  rw [suspectsOf, map_x_graph]
  exact ids.sortedLT_sort.pairwise.filter _

/-! ## Outcomes -/

/-- What a recovery from the points of `y` over `ids` comes to under a rule for ties. -/
structure Outcome (y : Int → Int) (ids : Finset Int) (k : Nat) (rule : String) (r : Recovery) :
    Prop where
  threshold_eq : r.threshold = k
  shares_eq : r.shares = ids.card
  combinations_eq : r.combinations = ids.card.choose k
  /-- The agreement is the number of subsets that stand for the secret. -/
  agreement_eq : r.agreement = (backers y ids k r.secret).card
  card_le : ∀ v, ((backers y ids k v).card : Int) ≤ r.agreement
  tied_iff : r.tied = true ↔ ∃ v, v ≠ r.secret ∧ (backers y ids k v).card = r.agreement
  /-- Unless the rule says otherwise, the secret is the least value that most subsets stand for. -/
  le_of_card_eq : rule ≠ Ballot.Rule.first.name →
    ∀ v, (backers y ids k v).card = r.agreement → r.secret ≤ v
  /-- By the other rule, it is the one that the lexicographically least subset stands for. -/
  exists_least : rule = Ballot.Rule.first.name → ∃ s ∈ backers y ids k r.secret,
    ∀ t ∈ powersetCard k ids, (backers y ids k (candidate y t)).card = r.agreement →
      t = s ∨ List.Lex (· < ·) s.sort t.sort
  pairwise_suspects : r.suspects.Pairwise (· < ·)
  /-- The suspects are in no subset that stands for the secret. -/
  mem_suspects : ∀ i, i ∈ r.suspects ↔ i ∈ ids ∧ ∀ s ∈ backers y ids k r.secret, i ∉ s

/-- The names of the rules, the empty one included. -/
def ruleNames : List String :=
  ["", Ballot.Rule.smallest.name, Ballot.Rule.first.name]

theorem exists_ofName {name : String} (h : name ∈ ruleNames) :
    ∃ rule, Ballot.Rule.ofName name = .ok rule ∧ (rule = .first ↔ name = Ballot.Rule.first.name) := by
  simp only [ruleNames, List.mem_cons, List.not_mem_nil, or_false] at h
  rcases h with rfl | rfl | rfl <;> exact ⟨_, rfl, by decide⟩

/-- The first of the candidates that get the most votes belongs to the least of their subsets. -/
theorem exists_least_of_find {y : Int → Int} {ids : Finset Int} {k : Nat} {p : Int → Bool} {v : Int}
    (h : ((subsets k ids).map (candidate y)).find? p = some v) :
    ∃ s ∈ backers y ids k v, ∀ t ∈ powersetCard k ids, p (candidate y t) = true →
      t = s ∨ List.Lex (· < ·) s.sort t.sort := by
  rw [List.find?_map, Option.map_eq_some_iff] at h
  obtain ⟨s, hs, rfl⟩ := h
  obtain ⟨-, before, after, he, hb⟩ := List.find?_eq_some_iff_append.1 hs
  have hmem : s ∈ subsets k ids := he ▸ by simp
  refine ⟨s, mem_backers.2 ⟨Selection.mem_subsets.1 hmem, rfl⟩, fun t ht hp => ?_⟩
  have hord := Selection.pairwise_subsets k ids
  rw [he, List.pairwise_append, List.pairwise_cons] at hord
  have ht := Selection.mem_subsets.2 ht
  rw [he, List.mem_append, List.mem_cons] at ht
  -- A subset before `s` would have been found.
  rcases ht with ht | rfl | ht
  · have := hb t ht
    simp [hp] at this
  · exact .inl rfl
  · exact .inr (hord.2.1.1 t ht)

/-- A recovery without its events. -/
theorem outcome_ofPoints (given : PointSet) (k : Int) (rule : String) :
    (ofPoints given k rule).outcome =
      if k < 1 then .error (.invalidThreshold k none)
      else given.points >>= fun points =>
        if (points.length : Int) < k then .error (.insufficientShares points.length k)
        else Selection.count points.length k >>= fun _ =>
          votes k.toNat (byNumber points) >>= fun cast =>
          (Ballot.elect (Ballot.count (cast.map Vote.value)) rule).outcome >>= fun e =>
          .ok ⟨e.winner, k, (byNumber points).length, e.total, e.votes, e.tied,
            suspectsOf e.winner cast (byNumber points)⟩ := by
  unfold ofPoints
  by_cases hk : k < 1
  · simp [hk]
  simp only [hk, ite_false, Journal.outcome_bind, Journal.outcome_lift]
  congr 1
  funext points
  by_cases hn : (points.length : Int) < k
  · simp [hn]
  simp only [hn, ite_false, Journal.outcome_bind, Journal.outcome_lift, Journal.outcome_report,
    ok_bind]
  congr 1
  funext _
  congr 1
  funext cast
  congr 1
  funext e
  split <;> simp

theorem ofPoints_eq_ok {given : PointSet} {k : Int} {name : String} {r : Recovery}
    (h : (ofPoints given k name).outcome = .ok r) :
    1 ≤ k ∧ ∃ points cast e, given.points = .ok points ∧ k ≤ points.length ∧
      votes k.toNat (byNumber points) = .ok cast ∧
      (Ballot.elect (Ballot.count (cast.map Vote.value)) name).outcome = .ok e ∧
      r = ⟨e.winner, k, (byNumber points).length, e.total, e.votes, e.tied,
        suspectsOf e.winner cast (byNumber points)⟩ := by
  rw [outcome_ofPoints] at h
  split at h
  · cases h
  · obtain ⟨points, hp, h⟩ := bind_eq_ok_iff.1 h
    split at h
    · cases h
    · obtain ⟨_, -, h⟩ := bind_eq_ok_iff.1 h
      obtain ⟨cast, hc, h⟩ := bind_eq_ok_iff.1 h
      obtain ⟨e, he, h⟩ := bind_eq_ok_iff.1 h
      cases h
      exact ⟨by omega, points, cast, e, hp, by omega, hc, he, rfl⟩

/-- The election among the values of all subsets, with its suspects. -/
theorem outcome_of_elected {y : Int → Int} {ids : Finset Int} {k : Nat} {name : String}
    {rule : Ballot.Rule} {e : Ballot.Election} (hr : rule = .first ↔ name = Ballot.Rule.first.name)
    (he : Ballot.Elected ((subsets k ids).map (candidate y)) rule e) :
    Outcome y ids k name ⟨e.winner, k, ids.card, e.total, e.votes, e.tied,
      suspectsOf e.winner (ballots y ids k) (graph y ids)⟩ where
  threshold_eq := rfl
  shares_eq := rfl
  combinations_eq := by
    rw [he.total_eq, subsets, List.length_map, List.length_map, Selection.length_choose,
      Finset.length_sort]
  agreement_eq := by rw [he.votes_eq, count_ballots]
  card_le v := by
    rw [he.votes_eq, ← count_ballots]
    exact Int.ofNat_le.2 (he.count_le v)
  tied_iff := by
    rw [he.votes_eq, he.tied_iff]
    simp only [count_ballots, Nat.cast_inj]
  le_of_card_eq hn v hv := by
    have hs : rule = .smallest := by
      cases rule with
      | smallest => rfl
      | first => exact absurd (hr.1 rfl) hn
    rw [he.votes_eq, ← count_ballots, Nat.cast_inj] at hv
    exact he.le_of_smallest hs v hv
  exists_least hn := by
    obtain ⟨s, hs, hl⟩ := exists_least_of_find (he.find_of_first (hr.2 hn))
    refine ⟨s, hs, fun t ht hc => hl t ht ?_⟩
    rw [he.votes_eq, ← count_ballots, Nat.cast_inj] at hc
    simpa using hc
  pairwise_suspects := pairwise_suspectsOf _ _ y ids
  mem_suspects _ := mem_suspectsOf

theorem candidates_ne_nil {k : Nat} (y : Int → Int) {ids : Finset Int} (hn : k ≤ ids.card) :
    (subsets k ids).map (candidate y) ≠ [] := by
  rw [Ne, List.map_eq_nil_iff, subsets, List.map_eq_nil_iff, Selection.choose_eq_nil_iff,
    Finset.length_sort]
  exact not_lt.2 hn

theorem exists_outcome {given : PointSet} {y : Int → Int} {ids : Finset Int} {k : Nat}
    {name : String} (hg : given.Shows y ids) (hk : 1 ≤ k) (hn : k ≤ ids.card)
    (hr : name ∈ ruleNames) :
    ∃ r, (ofPoints given k name).outcome = .ok r ∧ Outcome y ids k name r := by
  obtain ⟨points, hp, hperm⟩ := hg.exists_points
  obtain ⟨rule, hrule, hfirst⟩ := exists_ofName hr
  have hlen : points.length = ids.card := by rw [hperm.length_eq, length_graph]
  have hsort : byNumber points = graph y ids := sortBy_eq_of_perm hperm (pairwise_graph y ids)
  obtain ⟨e, he, hE⟩ := Ballot.elect_count (candidates_ne_nil y hn) hrule
  have h₁ : ¬ (k : Int) < 1 := by omega
  have h₂ : ¬ (ids.card : Int) < k := by omega
  refine ⟨_, ?_, outcome_of_elected hfirst hE⟩
  rw [outcome_ofPoints, if_neg h₁, hp, ok_bind, hlen, if_neg h₂, Selection.count_eq, ok_bind,
    Int.toNat_natCast, hsort, votes_graph hk, ok_bind, map_value_ballots, he, ok_bind, length_graph]

/-- Some subset stands for the secret. -/
theorem Outcome.backers_nonempty {y : Int → Int} {ids : Finset Int} {k : Nat} {name : String}
    {r : Recovery} (h : Outcome y ids k name r) (hn : k ≤ ids.card) :
    (backers y ids k r.secret).Nonempty := by
  obtain ⟨t, ht⟩ := Finset.powersetCard_nonempty.2 hn
  have hpos : 0 < (backers y ids k (candidate y t)).card :=
    Finset.card_pos.2 ⟨t, mem_backers.2 ⟨ht, rfl⟩⟩
  have hle := h.card_le (candidate y t)
  rw [h.agreement_eq] at hle
  exact Finset.card_pos.1 (by omega)

/-- Nothing else has the properties of a recovery's outcome. -/
theorem Outcome.unique {y : Int → Int} {ids : Finset Int} {k : Nat} {name : String}
    {r r' : Recovery} (h : Outcome y ids k name r) (h' : Outcome y ids k name r') : r = r' := by
  have ha : r.agreement = r'.agreement :=
    le_antisymm (h.agreement_eq ▸ h'.card_le r.secret) (h'.agreement_eq ▸ h.card_le r'.secret)
  have hs : r.secret = r'.secret := by
    by_cases hn : name = Ballot.Rule.first.name
    · obtain ⟨s, hs, hl⟩ := h.exists_least hn
      obtain ⟨t, ht, hl'⟩ := h'.exists_least hn
      obtain ⟨hsk, hsv⟩ := mem_backers.1 hs
      obtain ⟨htk, htv⟩ := mem_backers.1 ht
      have h₁ := hl t htk (by rw [htv, ← h'.agreement_eq, ha])
      have h₂ := hl' s hsk (by rw [hsv, ← h.agreement_eq, ha])
      rcases h₁ with rfl | h₁
      · rw [← hsv, htv]
      rcases h₂ with rfl | h₂
      · rw [← hsv, htv]
      · exact absurd h₂ (asymm_of (List.Lex (· < ·)) h₁)
    · refine le_antisymm (h.le_of_card_eq hn _ ?_) (h'.le_of_card_eq hn _ ?_)
      · rw [← h'.agreement_eq, ha]
      · rw [← h.agreement_eq, ha]
  have ht : r.tied = r'.tied := by rw [Bool.eq_iff_iff, h.tied_iff, h'.tied_iff, hs, ha]
  have hu : r.suspects = r'.suspects := by
    refine h.pairwise_suspects.eq_of_mem_iff h'.pairwise_suspects fun i => ?_
    rw [h.mem_suspects, h'.mem_suspects, hs]
  have hk := h.threshold_eq.trans h'.threshold_eq.symm
  have hn := h.shares_eq.trans h'.shares_eq.symm
  have hc := h.combinations_eq.trans h'.combinations_eq.symm
  cases r
  cases r'
  simp_all

/-- The points of distinct numbers have one recovery, the one that is said with sets. -/
theorem ofPoints_iff_outcome {given : PointSet} {y : Int → Int} {ids : Finset Int} {k : Nat}
    {name : String} (hg : given.Shows y ids) (hk : 1 ≤ k) (hn : k ≤ ids.card)
    (hr : name ∈ ruleNames) :
    (∃ r, Outcome y ids k name r ∧ Selection.count ids.card k = .ok r.combinations) ∧
      ∀ r, (ofPoints given k name).outcome = .ok r ↔ Outcome y ids k name r := by
  obtain ⟨r, hr, hO⟩ := exists_outcome hg hk hn hr
  refine ⟨⟨r, hO, ?_⟩, fun r' => ⟨fun h => ?_, fun h => ?_⟩⟩
  · rw [Selection.count_eq, hO.combinations_eq]
  · rw [hr, Except.ok.injEq] at h
    exact h ▸ hO
  · rw [hr, hO.unique h]

/-- Five numbers with the values of `2x² + x + 5`, but for the fourth, which is off by one. -/
def nearParabola (i : Int) : Int :=
  if i = 4 then 40 else 2 * i ^ 2 + i + 5

theorem ofPoints_iff_outcome_nearParabola :
    (PointSet.list [⟨5, 60⟩, ⟨1, 8⟩, ⟨4, 40⟩, ⟨2, 15⟩, ⟨3, 26⟩]).Shows nearParabola
      [1, 2, 3, 4, 5].toFinset ∧
    (∃ r, Outcome nearParabola [1, 2, 3, 4, 5].toFinset 3 "first" r ∧
      Selection.count 5 3 = .ok r.combinations) ∧
    ∀ r, (ofPoints (.list [⟨5, 60⟩, ⟨1, 8⟩, ⟨4, 40⟩, ⟨2, 15⟩, ⟨3, 26⟩]) 3 "first").outcome = .ok r ↔
      Outcome nearParabola [1, 2, 3, 4, 5].toFinset 3 "first" r := by
  have hg : (PointSet.list [⟨5, 60⟩, ⟨1, 8⟩, ⟨4, 40⟩, ⟨2, 15⟩, ⟨3, 26⟩]).Shows nearParabola
      [1, 2, 3, 4, 5].toFinset := by
    rw [PointSet.Shows, graph_toFinset _ (by decide)]
    decide
  exact ⟨hg, ofPoints_iff_outcome hg (by decide) (by decide) (by decide)⟩

end Recovery

end Quorum
