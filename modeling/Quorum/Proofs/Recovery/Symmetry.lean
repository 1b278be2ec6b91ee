import Quorum.Proofs.Recovery.Checks

/-!
# Points that are scaled or negated

A factor of all numbers cancels in each weight of an interpolation, and a sign of all values goes
through the sum and the cut toward zero (`secret_scaled`, `secret_negated`). A recovery cannot tell
such points from the old ones but by its secret and its suspects: it chooses, counts and sorts them
in the same way (`Carries`, `Carries.outcome_ofPoints`). Only among tied leaders does negation turn
the order around.
-/

namespace Quorum

/-- The point with its number multiplied. -/
def Point.scaled (c : Int) (p : Point) : Point :=
  ⟨c * p.x, p.y⟩

/-- The point with the opposite value. -/
def Point.negated (p : Point) : Point :=
  ⟨p.x, -p.y⟩

namespace Lagrange

/-! ## Interpolation -/

theorem weight_scaled {c : Int} (hc : c ≠ 0) (x : Int) (others : List Int) :
    weight (c * x) (others.map (c * ·)) = weight x others := by
  rw [weight, weight, List.foldl_map]
  congr 1
  funext w z
  have hcast : (c : Rat) ≠ 0 := Int.cast_ne_zero.2 hc
  have hz : ((-(c * z) : Int) : Rat) = c * (-z : Int) := by push_cast; ring
  have hxz : ((c * x - c * z : Int) : Rat) = c * (x - z : Int) := by push_cast; ring
  rw [hz, hxz, mul_div_mul_left _ _ hcast]

theorem map_x_map {f : Point → Point} {g : Int → Int} (hf : ∀ p, (f p).x = g p.x)
    (points : List Point) : (points.map f).map Point.x = (points.map Point.x).map g := by
  rw [List.map_map, List.map_map]
  exact List.map_congr_left fun p _ => hf p

/-- The factor cancels in every weight. -/
theorem atZero_scaled {c : Int} (hc : c ≠ 0) (points : List Point) :
    atZero (points.map (Point.scaled c)) = atZero points := by
  have hx : (points.map (Point.scaled c)).map Point.x = (points.map Point.x).map (c * ·) :=
    map_x_map (fun _ => rfl) points
  rw [atZero_eq_sum_map, atZero_eq_sum_map, hx, List.map_map]
  refine congrArg List.sum (List.map_congr_left fun p _ => ?_)
  have hfilter : ((points.map Point.x).map (c * ·)).filter (· != c * p.x) =
      ((points.map Point.x).filter (· != p.x)).map (c * ·) := by
    rw [List.filter_map]
    congr 2
    funext z
    simp [bne, hc]
  show (p.y : Rat) * weight (c * p.x) (((points.map Point.x).map (c * ·)).filter (· != c * p.x)) = _
  rw [hfilter, weight_scaled hc]

theorem atZero_negated (points : List Point) :
    atZero (points.map Point.negated) = -atZero points := by
  have hx : (points.map Point.negated).map Point.x = points.map Point.x :=
    (map_x_map (fun _ => rfl) points).trans (List.map_id _)
  rw [atZero_eq_sum_map, atZero_eq_sum_map, hx, List.map_map, neg_eq_neg_one_mul,
    ← List.sum_map_mul_left]
  refine congrArg List.sum (List.map_congr_left fun p _ => ?_)
  show ((-p.y : Int) : Rat) * weight p.x ((points.map Point.x).filter (· != p.x)) = _
  push_cast
  ring

/-- Cutting toward zero goes with the sign. -/
theorem truncate_neg (q : Rat) : truncate (-q) = -truncate q := by
  rw [truncate, truncate, Rat.neg_num, Rat.neg_den, Int.neg_tdiv]

/-- Points whose numbers are kept apart are as fit for interpolation as before. -/
theorem secret_map {f : Point → Point} {g h : Int → Int} (hf : ∀ p, (f p).x = g p.x)
    (hg : Function.Injective g) {points : List Point}
    (hz : truncate (atZero (points.map f)) = h (truncate (atZero points))) :
    secret (points.map f) = (secret points).map h := by
  by_cases h₀ : points = []
  · subst h₀
    rfl
  have h₀' : points.map f ≠ [] := fun h => h₀ (List.map_eq_nil_iff.1 h)
  have hn : ((points.map f).map Point.x).Nodup ↔ (points.map Point.x).Nodup := by
    rw [map_x_map hf, List.nodup_map_iff hg]
  by_cases hd : (points.map Point.x).Nodup
  · rw [secret_of_nodup h₀ hd, secret_of_nodup h₀' (hn.2 hd), hz]
    rfl
  · rw [secret_of_not_nodup hd, secret_of_not_nodup (mt hn.1 hd)]
    rfl

theorem secret_scaled {c : Int} (hc : c ≠ 0) (points : List Point) :
    secret (points.map (Point.scaled c)) = (secret points).map id := by
  refine secret_map (fun _ => rfl) (mul_right_injective₀ hc) ?_
  rw [atZero_scaled hc, id]

theorem secret_negated (points : List Point) :
    secret (points.map Point.negated) = (secret points).map Neg.neg := by
  refine secret_map (fun _ => rfl) Function.injective_id ?_
  rw [atZero_negated, truncate_neg]

end Lagrange

/-! ## Points and votes -/

/-- The point set with other points and other labels. -/
def PointSet.map (f : Point → Point) (g : Int → Int) : PointSet → PointSet
  | list points => list (points.map f)
  | labelled entries => labelled (entries.map fun e => (g e.1, f e.2))

/-- The point set with all numbers multiplied. -/
def PointSet.scaled (c : Int) : PointSet → PointSet :=
  map (Point.scaled c) (c * ·)

/-- The point set with all values negated. -/
def PointSet.negated : PointSet → PointSet :=
  map Point.negated id

/-- The vote with other points and another value. -/
def Recovery.Vote.map (f : Point → Point) (h : Int → Int) (v : Vote) : Vote :=
  ⟨v.points.map f, h v.value⟩

/-- Other points, by `f`, have numbers in the same order, by `g`, and values at zero that are told
apart, by `h`. -/
structure Carries (f : Point → Point) (g h : Int → Int) : Prop where
  x_eq : ∀ p, (f p).x = g p.x
  strictMono : StrictMono g
  injective : Function.Injective h
  secret_eq : ∀ points, Lagrange.secret (points.map f) = (Lagrange.secret points).map h

theorem carries_scaled {c : Int} (hc : 0 < c) : Carries (Point.scaled c) (c * ·) id where
  x_eq _ := rfl
  strictMono := strictMono_mul_left_of_pos hc
  injective := Function.injective_id
  secret_eq := Lagrange.secret_scaled hc.ne'

theorem carries_negated : Carries Point.negated id Neg.neg where
  x_eq _ := rfl
  strictMono := strictMono_id
  injective := neg_injective
  secret_eq := Lagrange.secret_negated

namespace Carries

open Recovery

variable {f : Point → Point} {g h : Int → Int} (hc : Carries f g h)
include hc

theorem points_map {given : PointSet} {points : List Point} (hp : given.points = .ok points) :
    (given.map f g).points = .ok (points.map f) := by
  cases given with
  | list l =>
    obtain ⟨hn, rfl⟩ := PointSet.points_list_eq_ok_iff.1 hp
    refine PointSet.points_list ?_
    rw [Lagrange.map_x_map hc.x_eq]
    exact hn.map hc.strictMono.injective
  | labelled entries =>
    obtain ⟨hx, rfl⟩ := PointSet.points_labelled_eq_ok_iff.1 hp
    refine PointSet.points_labelled_eq_ok_iff.2 ⟨fun e' he' => ?_, ?_⟩
    · obtain ⟨e, he, rfl⟩ := List.mem_map.1 he'
      rw [hx e he, hc.x_eq]
    · rw [List.map_map, List.map_map]
      rfl

theorem byNumber_map (points : List Point) :
    byNumber (points.map f) = (byNumber points).map f := by
  refine sortBy_map (fun p q => ?_) points
  rw [hc.x_eq, hc.x_eq, hc.strictMono.le_iff_le]

theorem votes_map (k : Nat) (points : List Point) :
    votes k (points.map f) = (votes k points).map (List.map (Vote.map f h)) := by
  rw [votes, votes, Selection.choose_map, List.mapM_map, ← mapM_map]
  congr 1
  funext chosen
  rw [Function.comp_apply, hc.secret_eq]
  cases Lagrange.secret chosen <;> rfl

theorem suspectsOf_map (w : Int) (cast : List Vote) (points : List Point) :
    suspectsOf (h w) (cast.map (Vote.map f h)) (points.map f) =
      (suspectsOf w cast points).map g := by
  have hvalue : (fun v : Vote => v.value == h w) ∘ Vote.map f h = fun v => v.value == w := by
    funext v
    exact Bool.eq_iff_iff.2 (by simp [Vote.map, hc.injective.eq_iff])
  have hx : ∀ i, (fun p : Point => p.x == g i) ∘ f = fun p => p.x == i := fun i => by
    funext p
    exact Bool.eq_iff_iff.2 (by simp [hc.x_eq, hc.strictMono.injective.eq_iff])
  have hpoints : ∀ i, (fun v : Vote => v.points.any fun p => p.x == g i) ∘ Vote.map f h =
      fun v => v.points.any fun p => p.x == i := fun i => by
    funext v
    rw [Function.comp_apply, Vote.map, List.any_map, hx]
  rw [suspectsOf, suspectsOf, Lagrange.map_x_map hc.x_eq, List.filter_map]
  refine congrArg (List.map g) (List.filter_congr fun i _ => ?_)
  rw [Function.comp_apply, List.filter_map, hvalue, List.any_map, hpoints]

/-- The same choices of points stand for the secret, unless a tie was broken the other way. -/
theorem outcome_ofPoints {given : PointSet} {k : Int} {name : String} {r : Recovery}
    (hr : (ofPoints given k name).outcome = .ok r) (hh : Monotone h ∨ r.tied = false) :
    (ofPoints (given.map f g) k name).outcome =
      .ok { r with secret := h r.secret, suspects := r.suspects.map g } := by
  obtain ⟨hk, points, cast, e, hp, hn, hcast, he, rfl⟩ := ofPoints_eq_ok hr
  obtain ⟨n, rfl⟩ := Int.eq_ofNat_of_zero_le (by omega : 0 ≤ k)
  have hvotes : votes n ((byNumber points).map f) = .ok (cast.map (Vote.map f h)) := by
    rw [hc.votes_map, ← Int.toNat_natCast n, hcast]
    rfl
  have hvalues : (cast.map (Vote.map f h)).map Vote.value = (cast.map Vote.value).map h := by
    rw [List.map_map, List.map_map]
    rfl
  rw [Recovery.outcome_ofPoints, if_neg (by omega), hc.points_map hp, ok_bind, List.length_map,
    if_neg (by omega), Selection.count_eq, ok_bind, hc.byNumber_map, Int.toNat_natCast, hvotes,
    ok_bind, hvalues, Ballot.count_map hc.injective, Ballot.elect_rename he hh, ok_bind,
    hc.suspectsOf_map, List.length_map]

end Carries

/-! ## Recoveries -/

namespace Recovery

/-- Interpolation does not see a factor of all numbers, and turns its sign with all values. So a
recovery from numbers multiplied by a positive factor differs in no more than its suspects, which
are multiplied with them, and one from negated values, unless a tie was broken, in no more than its
secret, which is negated. -/
theorem scaled_and_negated :
    (∀ points : List Point, points ≠ [] → (points.map Point.x).Nodup →
      ∃ v, Lagrange.secret points = .ok v ∧
        (∀ c, c ≠ 0 → Lagrange.secret (points.map (Point.scaled c)) = .ok v) ∧
        Lagrange.secret (points.map Point.negated) = .ok (-v)) ∧
    ∀ (given : PointSet) (k : Int) (name : String), given.Keyed → Passes given k name →
      ∃ r, (ofPoints given k name).outcome = .ok r ∧
        (∀ c, 0 < c → (ofPoints (given.scaled c) k name).outcome =
          .ok { r with suspects := r.suspects.map (c * ·) }) ∧
        (r.tied = false → (ofPoints given.negated k name).outcome =
          .ok { r with secret := -r.secret }) := by
  refine ⟨fun points h₀ hn => ?_, fun given k name hg hp => ?_⟩
  · have hv := Lagrange.secret_of_nodup h₀ hn
    refine ⟨_, hv, fun c hc => ?_, ?_⟩
    · rw [Lagrange.secret_scaled hc, hv]
      rfl
    · rw [Lagrange.secret_negated, hv]
      rfl
  · obtain ⟨-, -, -, r, -, -, -, -, hr, -⟩ := hp.exists_outcome hg
    refine ⟨r, hr, fun c hc => ?_, fun ht => ?_⟩
    · exact (carries_scaled hc).outcome_ofPoints hr (.inl monotone_id)
    · have hneg := carries_negated.outcome_ofPoints hr (.inr ht)
      rwa [List.map_id] at hneg

/-- Points on `2x + 3`, but for the one of the number three. -/
def offLine : PointSet :=
  .labelled [(-2, ⟨-2, -1⟩), (5, ⟨5, 13⟩), (1, ⟨1, 5⟩), (3, ⟨3, 100⟩)]

theorem scaled_and_negated_offLine :
    Lagrange.secret [⟨1, 0⟩, ⟨4, 5⟩] = .ok (-1) ∧
    Lagrange.secret ([⟨1, 0⟩, ⟨4, 5⟩].map (Point.scaled (-6))) = .ok (-1) ∧
    Lagrange.secret ([⟨1, 0⟩, ⟨4, 5⟩].map Point.negated) = .ok 1 ∧
    (ofPoints offLine 2 "first").outcome = .ok ⟨3, 2, 4, 6, 3, false, [3]⟩ ∧
    (ofPoints (offLine.scaled 7) 2 "first").outcome = .ok ⟨3, 2, 4, 6, 3, false, [21]⟩ ∧
    (ofPoints offLine.negated 2 "first").outcome = .ok ⟨-3, 2, 4, 6, 3, false, [3]⟩ := by
  have hv : Lagrange.secret [⟨1, 0⟩, ⟨4, 5⟩] = .ok (-1) := by decide +kernel
  have hr : (ofPoints offLine 2 "first").outcome = .ok ⟨3, 2, 4, 6, 3, false, [3]⟩ := by
    decide +kernel
  have hkeyed : offLine.Keyed := by
    rw [offLine, PointSet.Keyed]
    decide
  have hnumbered : offLine.Numbered := by
    rw [offLine, PointSet.Numbered]
    decide
  obtain ⟨hpoints, hgiven⟩ := scaled_and_negated
  obtain ⟨v, hv', hscaled, hnegated⟩ := hpoints [⟨1, 0⟩, ⟨4, 5⟩] (by decide) (by decide)
  obtain ⟨r, hr', hscaled', hnegated'⟩ := hgiven offLine 2 "first" hkeyed
    ⟨by decide, hnumbered, by decide, by decide⟩
  obtain rfl : v = -1 := Except.ok.inj (hv'.symm.trans hv)
  obtain rfl := Except.ok.inj (hr'.symm.trans hr)
  exact ⟨hv, hscaled (-6) (by decide), hnegated, hr, hscaled' 7 (by decide), hnegated' rfl⟩

end Recovery

end Quorum
