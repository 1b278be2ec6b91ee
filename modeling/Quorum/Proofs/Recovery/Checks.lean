import Quorum.Proofs.Ballot.Plurality
import Quorum.Proofs.Recovery.Faults

/-!
# The checks of a recovery

A recovery looks at its threshold, at the numbers and labels of its points, at how many there are
and, behind all interpolation, at the name of the rule for ties. The first of these that is not as
it should be is the fault (`Fails`), and if there is none then the recovery succeeds
(`ofPoints_checked`): the points can be chosen, interpolated and counted without a fault (`Runs`). The
fault is put into words under a limit on digits, where a number that it shows may be too long
(`ofPoints_of_longThreshold`).
-/

namespace Quorum

namespace PointSet

/-- How many points there are. -/
def size : PointSet → Nat
  | list points => points.length
  | labelled entries => entries.length

/-- No label stands twice. -/
def Keyed : PointSet → Prop
  | list _ => True
  | labelled entries => (entries.map Prod.fst).Nodup

/-- The numbers of listed points are distinct, and labels are the numbers of their points. -/
def Numbered : PointSet → Prop
  | list points => (points.map Point.x).Nodup
  | labelled entries => ∀ e ∈ entries, e.1 = e.2.x

/-- What is wrong with the first point that repeats a number or has a wrong label. -/
inductive Flawed : PointSet → Fault → Prop
  | repeated {before after : List Point} {p : Point} (hb : (before.map Point.x).Nodup)
      (hp : p.x ∈ before.map Point.x) :
      Flawed (.list (before ++ p :: after)) (.duplicateShare p.x)
  | mislabelled {before after : List (Int × Point)} {label : Int} {p : Point}
      (hb : ∀ e ∈ before, e.1 = e.2.x) (hp : label ≠ p.x) :
      Flawed (.labelled (before ++ (label, p) :: after)) (.refused (.mislabelledShare label p.x))

theorem Flawed.points_eq {given : PointSet} {e : Fault} (h : given.Flawed e) :
    given.points = .error e := by
  cases h with
  | @repeated before after p hb hp =>
    have hr : firstRepeat? (· == ·) [] ((before ++ p :: after).map Point.x) = some p.x := by
      rw [firstRepeat?_eq_some_iff, List.map_append, List.map_cons]
      refine ⟨_, _, rfl, hb.imp fun hne => ?_, _, hp, beq_self_eq_true _⟩
      exact beq_eq_false_iff_ne.2 hne.symm
    rw [points, hr]
  | @mislabelled before after label p hb hp =>
    have hf : (before ++ (label, p) :: after).find? (fun e => e.1 != e.2.x) = some (label, p) := by
      rw [List.find?_eq_some_iff_append]
      exact ⟨bne_iff_ne.2 hp, before, after, rfl, fun e he => by simp [hb e he]⟩
    rw [points, hf]

theorem numbered_or_flawed (given : PointSet) : given.Numbered ∨ ∃ e, given.Flawed e := by
  cases given with
  | list points =>
    cases hr : firstRepeat? (· == ·) [] (points.map Point.x) with
    | none =>
      exact .inl (firstRepeat?_beq_eq_none_iff.1 hr)
    | some id =>
      obtain ⟨ids, rest, he, hb, j, hj, hij⟩ := firstRepeat?_eq_some_iff.1 hr
      obtain ⟨before, tail, rfl, rfl, ht⟩ := List.map_eq_append_iff.1 he
      obtain ⟨p, after, rfl, rfl, -⟩ := List.map_eq_cons_iff.1 ht
      obtain rfl := eq_of_beq hij
      exact .inr ⟨_, .repeated (hb.imp fun h => (beq_eq_false_iff_ne.1 h).symm) hj⟩
  | labelled entries =>
    by_cases h : ∀ e ∈ entries, e.1 = e.2.x
    · exact .inl h
    · obtain ⟨before, ⟨label, p⟩, after, rfl, hb, hp⟩ :=
        exists_first_not (p := fun e : Int × Point => e.1 = e.2.x) (by simpa using h)
      exact .inr ⟨_, .mislabelled hb hp⟩

/-! ## The function behind the points -/

theorem perm_graph {points : List Point} (hn : (points.map Point.x).Nodup) {y : Int → Int}
    (hy : ∀ p ∈ points, y p.x = p.y) : points.Perm (graph y (points.map Point.x).toFinset) := by
  refine (List.perm_ext_iff_of_nodup hn.of_map (pairwise_graph y _).nodup).2 fun p => ?_
  rw [mem_graph, List.mem_toFinset, List.mem_map]
  constructor
  · exact fun hp => ⟨⟨p, hp, rfl⟩, (hy p hp).symm⟩
  · rintro ⟨⟨q, hq, hx⟩, hp⟩
    have hpq : p = q := by
      rw [← hx, hy q hq] at hp
      cases p
      cases q
      simp_all
    exact hpq ▸ hq

theorem exists_shows {given : PointSet} (hk : given.Keyed) (hn : given.Numbered) :
    ∃ (y : Int → Int) (ids : Finset Int), given.Shows y ids ∧ ids.card = given.size := by
  cases given with
  | list points =>
    obtain ⟨y, hy⟩ := Lagrange.exists_ordinates hn
    exact ⟨y, _, perm_graph hn hy, Lagrange.card_abscissas hn⟩
  | labelled entries =>
    have hkeys : (entries.map Prod.snd).map Point.x = entries.map Prod.fst := by
      rw [List.map_map]
      exact List.map_congr_left fun e he => (hn e he).symm
    have hx : ((entries.map Prod.snd).map Point.x).Nodup := by
      rw [hkeys]
      exact hk
    have he : (entries.map Prod.snd).map (fun p => (p.x, p)) = entries := by
      calc (entries.map Prod.snd).map (fun p => (p.x, p)) = entries.map id := by
            rw [List.map_map]
            exact List.map_congr_left fun e he => Prod.ext (hn e he).symm rfl
        _ = entries := List.map_id entries
    obtain ⟨y, hy⟩ := Lagrange.exists_ordinates hx
    have hp : ((entries.map Prod.snd).map fun p => (p.x, p)).Perm _ := (perm_graph hx hy).map _
    rw [he] at hp
    exact ⟨y, _, hp, (Lagrange.card_abscissas hx).trans (List.length_map _)⟩

theorem exists_points_of_numbered {given : PointSet} (hk : given.Keyed) (hn : given.Numbered) :
    ∃ (points : List Point) (y : Int → Int) (ids : Finset Int), given.points = .ok points ∧
      points.Perm (graph y ids) ∧ points.length = given.size := by
  obtain ⟨y, ids, hs, hc⟩ := exists_shows hk hn
  obtain ⟨points, hp, hperm⟩ := hs.exists_points
  exact ⟨points, y, ids, hp, hperm, by rw [hperm.length_eq, length_graph, hc]⟩

end PointSet

namespace Recovery

/-! ## Checks -/

/-- The fault of the first check that is not passed. -/
inductive Fails (given : PointSet) (k : Int) (name : String) : Fault → Prop
  | threshold (hk : k < 1) : Fails given k name (.invalidThreshold k none)
  | points {e : Fault} (hk : 1 ≤ k) (he : given.Flawed e) : Fails given k name e
  | shares (hk : 1 ≤ k) (hg : given.Numbered) (hn : (given.size : Int) < k) :
      Fails given k name (.insufficientShares given.size k)
  | rule (hk : 1 ≤ k) (hg : given.Numbered) (hn : k ≤ given.size) (hr : name ∉ ruleNames) :
      Fails given k name (.refused (.unknownRule name))

/-- All checks are passed. -/
structure Passes (given : PointSet) (k : Int) (name : String) : Prop where
  one_le : 1 ≤ k
  numbered : given.Numbered
  le_size : k ≤ given.size
  mem_ruleNames : name ∈ ruleNames

theorem mem_ruleNames_iff {name : String} :
    name ∈ ruleNames ↔ ∃ rule : Ballot.Rule, rule.Called name := by
  simp only [ruleNames, List.mem_cons, List.not_mem_nil, or_false]
  constructor
  · rintro (rfl | rfl | rfl)
    · exact ⟨_, .unnamed⟩
    · exact ⟨_, .named .smallest⟩
    · exact ⟨_, .named .first⟩
  · rintro ⟨rule, _ | _⟩
    · exact .inl rfl
    · cases rule <;> simp

theorem passes_or_fails (given : PointSet) (k : Int) (name : String) :
    Passes given k name ∨ ∃ e, Fails given k name e := by
  by_cases hk : k < 1
  · exact .inr ⟨_, .threshold hk⟩
  rcases given.numbered_or_flawed with hg | ⟨e, he⟩
  · by_cases hn : (given.size : Int) < k
    · exact .inr ⟨_, .shares (by omega) hg hn⟩
    by_cases hr : name ∈ ruleNames
    · exact .inl ⟨by omega, hg, by omega, hr⟩
    · exact .inr ⟨_, .rule (by omega) hg (by omega) hr⟩
  · exact .inr ⟨e, .points (by omega) he⟩

/-! ## Behind the checks -/

/-- What a recovery does with the points that it has found to be enough: they can be chosen,
interpolated and counted. -/
structure Runs (points : List Point) (k : Int) : Prop where
  count_eq : Selection.count points.length k = .ok (points.length.choose k.toNat)
  /-- The choices of the points are the selections of their numbers. -/
  ofIds_eq : Selection.ofIds (points.map Point.x) k none =
    .ok ((Selection.choose k.toNat (byNumber points)).map (List.map Point.x))
  exists_secret : ∀ c ∈ Selection.choose k.toNat (byNumber points), ∃ v, Lagrange.secret c = .ok v
  exists_votes : ∃ cast, votes k.toNat (byNumber points) = .ok cast ∧
    Ballot.count (cast.map Vote.value) ≠ []

theorem map_x_byNumber {points : List Point} (hn : (points.map Point.x).Nodup) :
    (byNumber points).map Point.x = ascending (points.map Point.x) := by
  refine (List.pairwise_map.2 (pairwise_lt_sortBy hn)).eq_of_mem_iff (pairwise_ascending _) ?_
  intro i
  simp only [mem_ascending, List.mem_map, mem_sortBy]

theorem ofIds_map_x {points : List Point} (hn : (points.map Point.x).Nodup) {k : Int}
    (hk : 0 ≤ k) : Selection.ofIds (points.map Point.x) k none =
      .ok ((Selection.choose k.toNat (byNumber points)).map (List.map Point.x)) := by
  rw [Selection.ofIds_none _ hk, ← map_x_byNumber hn, Selection.choose_map]

theorem runs_of_perm {points : List Point} {y : Int → Int} {ids : Finset Int} {k : Int}
    (hp : points.Perm (graph y ids)) (hk : 1 ≤ k) (hn : k ≤ points.length) : Runs points k := by
  obtain ⟨n, rfl⟩ := Int.eq_ofNat_of_zero_le (by omega : 0 ≤ k)
  have hx : (points.map Point.x).Nodup := by
    rw [(hp.map Point.x).nodup_iff, map_x_graph]
    exact ids.sort_nodup _
  have hlen : points.length = ids.card := by rw [hp.length_eq, length_graph]
  have hsort : byNumber points = graph y ids := sortBy_eq_of_perm hp (pairwise_graph y ids)
  have h₁ : 1 ≤ n := by omega
  refine ⟨Selection.count_eq _ n, ofIds_map_x hx (by omega), ?_, ?_⟩
  · rw [Int.toNat_natCast, hsort, choose_graph]
    intro c hc
    obtain ⟨s, hs, rfl⟩ := List.mem_map.1 hc
    exact ⟨_, secret_graph_of_mem h₁ (Selection.mem_subsets.1 hs)⟩
  · rw [Int.toNat_natCast, hsort]
    refine ⟨_, votes_graph h₁ y ids, Ballot.count_ne_nil ?_⟩
    rw [map_value_ballots]
    exact candidates_ne_nil y (by omega)

section

variable {given : PointSet} {k : Int} {name : String}

theorem exists_runs (hg : given.Keyed) (hk : 1 ≤ k) (hn : given.Numbered) (hl : k ≤ given.size) :
    ∃ points, given.points = .ok points ∧ points.length = given.size ∧ Runs points k := by
  obtain ⟨points, y, ids, hp, hperm, hlen⟩ := PointSet.exists_points_of_numbered hg hn
  exact ⟨points, hp, hlen, runs_of_perm hperm hk (by omega)⟩

theorem Fails.outcome {e : Fault} (hg : given.Keyed) (h : Fails given k name e) :
    (ofPoints given k name).outcome = .error e := by
  rw [outcome_ofPoints]
  cases h with
  | threshold hk => rw [if_pos hk]
  | points hk he => rw [if_neg (by omega), he.points_eq, error_bind]
  | shares hk hn hl =>
    obtain ⟨points, y, ids, hp, -, hlen⟩ := PointSet.exists_points_of_numbered hg hn
    rw [if_neg (by omega), hp, ok_bind, hlen, if_pos hl]
  | rule hk hn hl hr =>
    obtain ⟨points, hp, hlen, hruns⟩ := exists_runs hg hk hn hl
    obtain ⟨cast, hc, hne⟩ := hruns.exists_votes
    have hnot : ∀ rule : Ballot.Rule, ¬ rule.Called name := fun rule h =>
      hr (mem_ruleNames_iff.2 ⟨rule, h⟩)
    rw [if_neg (by omega), hp, ok_bind, if_neg (by omega), hruns.count_eq, ok_bind, hc, ok_bind,
      Ballot.outcome_elect_of_not_called hne hnot, error_bind]

/-- Behind the checks, a recovery is that of a function over some numbers. -/
theorem Passes.exists_outcome (hg : given.Keyed) (h : Passes given k name) :
    ∃ (y : Int → Int) (ids : Finset Int) (n : Nat) (r : Recovery), k = n ∧ 1 ≤ n ∧ n ≤ ids.card ∧
      ids.card = given.size ∧ (ofPoints given k name).outcome = .ok r ∧ Outcome y ids n name r := by
  obtain ⟨hk, hn, hl, hr⟩ := h
  obtain ⟨n, rfl⟩ := Int.eq_ofNat_of_zero_le (by omega : 0 ≤ k)
  obtain ⟨y, ids, hs, hc⟩ := PointSet.exists_shows hg hn
  have h₁ : 1 ≤ n := by omega
  have h₂ : n ≤ ids.card := by omega
  obtain ⟨r, hrec, hO⟩ := Recovery.exists_outcome hs h₁ h₂ hr
  exact ⟨y, ids, n, r, rfl, h₁, h₂, hc, hrec, hO⟩

theorem passes_of_outcome {r : Recovery} (hg : given.Keyed)
    (h : (ofPoints given k name).outcome = .ok r) : Passes given k name := by
  rcases passes_or_fails given k name with hp | ⟨e, he⟩
  · exact hp
  · rw [he.outcome hg] at h
    cases h

theorem exists_outcome_of_ok {r : Recovery} (hg : given.Keyed)
    (h : (ofPoints given k name).outcome = .ok r) :
    ∃ (y : Int → Int) (ids : Finset Int) (n : Nat), k = n ∧ 1 ≤ n ∧ n ≤ ids.card ∧
      ids.card = given.size ∧ Outcome y ids n name r := by
  obtain ⟨y, ids, n, r', hk, h₁, h₂, hc, hrec, hO⟩ := (passes_of_outcome hg h).exists_outcome hg
  obtain rfl : r' = r := Except.ok.inj (hrec.symm.trans h)
  exact ⟨y, ids, n, hk, h₁, h₂, hc, hO⟩

theorem exists_vote {r : Recovery} (h : (ofPoints given k name).outcome = .ok r) :
    ∃ points cast, given.points = .ok points ∧ votes k.toNat (byNumber points) = .ok cast ∧
      ∃ v ∈ cast, v.value = r.secret := by
  obtain ⟨-, points, cast, e, hp, -, hc, he, rfl⟩ := ofPoints_eq_ok h
  exact ⟨points, cast, hp, hc, List.mem_map.1 (Ballot.winner_mem_of_elect he)⟩

end

/-- Faults of choosing, interpolating and counting, which the checks rule out. -/
def innerFaults : List Fault :=
  [.noCandidates, .refused .noPoints, .refused .repeatedAbscissa, .refused .negativeSize,
    .refused .negativeCount]

theorem Fails.not_mem_innerFaults {given : PointSet} {k : Int} {name : String} {e : Fault}
    (h : Fails given k name e) : e ∉ innerFaults := by
  cases h with
  | points hk he => cases he <;> simp [innerFaults]
  | _ => simp [innerFaults]

/-- What a recovery from any points comes to. -/
structure Checked (digits : DigitLimit) (given : PointSet) (k : Int) (name : String) : Prop where
  error_iff : ∀ e, ((ofPoints given k name).within digits).outcome = .error e ↔
    ∃ e', Fails given k name e' ∧ e'.within digits = e
  /-- Where the limit allows the numbers of the fault, it is told as it is. -/
  error_of_fits : ∀ e, Fails given k name e → e.Fits digits →
    ((ofPoints given k name).within digits).outcome = .error e
  ok_iff : (∃ r, ((ofPoints given k name).within digits).outcome = .ok r) ↔ Passes given k name
  no_inner_fault : ∀ e ∈ innerFaults, ((ofPoints given k name).within digits).outcome ≠ .error e
  exists_runs : 1 ≤ k → given.Numbered → k ≤ given.size →
    ∃ points, given.points = .ok points ∧ Runs points k
  /-- The secret is the value of some choice of points. -/
  exists_vote : ∀ r, ((ofPoints given k name).within digits).outcome = .ok r →
    ∃ points cast, given.points = .ok points ∧ votes k.toNat (byNumber points) = .ok cast ∧
      ∃ v ∈ cast, v.value = r.secret

theorem outcome_eq_error_iff {given : PointSet} {k : Int} {name : String} {e : Fault}
    (hg : given.Keyed) : (ofPoints given k name).outcome = .error e ↔ Fails given k name e := by
  refine ⟨fun h => ?_, Fails.outcome hg⟩
  rcases passes_or_fails given k name with hp | ⟨e', he'⟩
  · obtain ⟨-, -, -, r, -, -, -, -, hr, -⟩ := hp.exists_outcome hg
    cases h.symm.trans hr
  · cases h.symm.trans (he'.outcome hg)
    exact he'

/-- A recovery from points in a list or under labels fails with the first of its checks that is not
passed, and in no other way. -/
theorem ofPoints_checked (digits : DigitLimit) {given : PointSet} (hg : given.Keyed) (k : Int)
    (name : String) : Checked digits given k name := by
  have herr : ∀ e, ((ofPoints given k name).within digits).outcome = .error e ↔
      ∃ e', Fails given k name e' ∧ e'.within digits = e := by
    intro e
    rw [Journal.outcome_within, mapError_eq_error_iff]
    simp only [outcome_eq_error_iff hg]
  refine ⟨herr, fun e he hf => (herr e).2 ⟨e, he, Fault.within_of_fits hf⟩, ⟨?_, ?_⟩,
    fun e he h => ?_, fun hk hn hl => ?_, fun r h => Recovery.exists_vote (mapError_eq_ok_iff.1 h)⟩
  · rintro ⟨r, hr⟩
    exact passes_of_outcome hg (mapError_eq_ok_iff.1 hr)
  · intro hp
    obtain ⟨-, -, -, r, -, -, -, -, hr, -⟩ := hp.exists_outcome hg
    exact ⟨r, mapError_eq_ok_iff.2 hr⟩
  · obtain ⟨e', he', hw⟩ := (herr e).1 h
    have hne : ∀ m, e ≠ .refused (.tooManyDigits m none) := by
      rintro m rfl
      simp [innerFaults] at he
    obtain ⟨rfl, -⟩ := Fault.eq_of_within_eq hw hne
    exact he'.not_mem_innerFaults he
  · obtain ⟨points, hp, -, hruns⟩ := Recovery.exists_runs hg hk hn hl
    exact ⟨points, hp, hruns⟩

/-- Labels in no order, of which the second one is wrong and the last one as well. -/
def mislabelledPoints : PointSet :=
  .labelled [(4, ⟨4, 1⟩), (2, ⟨-2, 7⟩), (-2, ⟨2, 7⟩)]

theorem ofPoints_checked_mislabelled :
    mislabelledPoints.Keyed ∧
    Fails mislabelledPoints 9 "random" (.refused (.mislabelledShare 2 (-2))) ∧
    ((ofPoints mislabelledPoints 9 "random").within .standard).outcome =
      .error (.refused (.mislabelledShare 2 (-2))) := by
  have hk : mislabelledPoints.Keyed := by
    rw [mislabelledPoints, PointSet.Keyed]
    decide
  have hf : Fails mislabelledPoints 9 "random" (.refused (.mislabelledShare 2 (-2))) :=
    .points (by decide) (@PointSet.Flawed.mislabelled [(4, ⟨4, 1⟩)] _ _ _ (by decide) (by decide))
  refine ⟨hk, hf, (ofPoints_checked .standard hk 9 "random").error_of_fits _ hf fun v hv => ?_⟩
  rw [DigitLimit.standard, DigitLimit.allows_most_iff]
  revert v
  decide

/-- A threshold of 4301 digits that is not reached, or is below one, is not named. -/
theorem ofPoints_of_longThreshold :
    ((ofPoints (.list []) (10 ^ 4300) "smallest").within .standard).outcome =
        .error (.refused (.tooManyDigits 4300 none)) ∧
      ((ofPoints (.list []) (-10 ^ 4300) "smallest").within .standard).outcome =
        .error (.refused (.tooManyDigits 4300 none)) := by
  have hfails : ∀ {k : Int} {e : Fault}, Fails (.list []) k "smallest" e → k ∈ e.numbers →
      4300 < Numeral.digitCount k → ((ofPoints (.list []) k "smallest").within .standard).outcome =
        .error (.refused (.tooManyDigits 4300 none)) := fun hf hk hlong =>
    mapError_eq_error_iff.2 ⟨_, hf.outcome trivial, Fault.within_most_of_lt hk hlong⟩
  have hends : ∀ k : Int, 0 < k → 4300 < Numeral.digitCount k →
      ((ofPoints (.list []) k "smallest").within .standard).outcome =
          .error (.refused (.tooManyDigits 4300 none)) ∧
        ((ofPoints (.list []) (-k) "smallest").within .standard).outcome =
          .error (.refused (.tooManyDigits 4300 none)) := by
    intro k hk hlong
    have hneg : Numeral.digitCount (-k) = Numeral.digitCount k := by
      rw [Numeral.digitCount, Int.natAbs_neg, Numeral.digitCount]
    exact ⟨hfails (.shares hk .nil hk) (List.mem_cons_of_mem _ List.mem_cons_self) hlong,
      hfails (.threshold (by omega)) List.mem_cons_self (hneg ▸ hlong)⟩
  exact hends _ (pow_pos (by decide) _) (Numeral.lt_digitCount_ten_pow (by decide))

end Recovery

end Quorum
