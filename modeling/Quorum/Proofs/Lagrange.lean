import Mathlib
import Quorum.Lagrange

/-!
# The interpolated value

What `Lagrange.secret` computes is the value at zero of the one polynomial of least degree
through the points, cut toward zero (`secret_eq`):

* `candidate_eq_eval`: points of an integer polynomial give its constant term;
* `eval_through_shifted`: one ordinate that is off shifts the value in proportion;
* `abs_sub_towardZero_lt`: cutting moves a value by less than one;
* `atZero_eq_sum`: the sum by places in the list, with denominators that are not zero;
* `secret_exact`: what comes of every list of points, in whatever order.
-/

namespace Quorum.Lagrange

open Polynomial

/-! ## Cutting -/

/-- The integer next to a fraction on the side of zero. -/
def towardZero (q : Rat) : Int :=
  if 0 ≤ q then ⌊q⌋ else ⌈q⌉

theorem truncate_eq (q : Rat) : truncate q = towardZero q := by
  rw [truncate, towardZero]
  split
  · rename_i h
    rw [Rat.floor_def', Int.tdiv_eq_ediv_of_nonneg (Rat.num_nonneg.2 h)]
  · rename_i h
    have hn : 0 ≤ -q.num := neg_nonneg.2 (Rat.num_nonpos.2 (not_le.1 h).le)
    rw [Rat.ceil_def', ← Int.tdiv_eq_ediv_of_nonneg hn, Int.neg_tdiv, neg_neg]

theorem towardZero_intCast (n : Int) : towardZero n = n := by
  rw [towardZero, Int.floor_intCast, Int.ceil_intCast, ite_self]

theorem abs_sub_towardZero_lt (q : Rat) : |q - towardZero q| < 1 := by
  rw [towardZero, abs_lt]
  split
  · have h₁ := Int.floor_le q
    have h₂ := Int.lt_floor_add_one q
    constructor <;> linarith
  · have h₁ := Int.le_ceil q
    have h₂ := Int.ceil_lt_add_one q
    constructor <;> linarith

/-! ## The polynomial -/

/-- The polynomial of least degree through the points of `y` over `s`. -/
noncomputable def through (y : Int → Int) (s : Finset Int) : Rat[X] :=
  Lagrange.interpolate s (fun i => (i : Rat)) fun i => (y i : Rat)

/-- The value at zero that the points of `y` over `s` stand for, as an integer. -/
noncomputable def candidate (y : Int → Int) (s : Finset Int) : Int :=
  towardZero ((through y s).eval 0)

theorem injOn_intCast (s : Finset Int) : Set.InjOn (fun i : Int => (i : Rat)) s :=
  fun _ _ _ _ h => Int.cast_injective h

/-- There is no other polynomial through the points of a degree below their number. -/
theorem eq_through {y : Int → Int} {s : Finset Int} {p : Rat[X]} (hd : p.degree < s.card)
    (hp : ∀ i ∈ s, p.eval (i : Rat) = y i) : p = through y s :=
  Lagrange.eq_interpolate_of_eval_eq _ (injOn_intCast s) hd hp

theorem through_eq_map {y : Int → Int} {s : Finset Int} {p : Int[X]} (hd : p.degree < s.card)
    (hp : ∀ i ∈ s, y i = p.eval i) : through y s = p.map (Int.castRingHom Rat) := by
  refine (eq_through (degree_map_le.trans_lt hd) fun i hi => ?_).symm
  rw [hp i hi, ← eq_intCast (Int.castRingHom Rat) i, eval_map_apply, eq_intCast]

theorem eval_zero_map (p : Int[X]) : (p.map (Int.castRingHom Rat)).eval 0 = (p.eval 0 : Int) := by
  rw [← map_zero (Int.castRingHom Rat), eval_map_apply, eq_intCast]

/-- Points of an integer polynomial of a degree below their number give its constant term. -/
theorem candidate_eq_eval {y : Int → Int} {s : Finset Int} {p : Int[X]} (hd : p.degree < s.card)
    (hp : ∀ i ∈ s, y i = p.eval i) : candidate y s = p.eval 0 := by
  rw [candidate, through_eq_map hd hp, eval_zero_map, towardZero_intCast]

/-! ## Weights -/

theorem foldl_weight (x : Int) (w : Rat) (others : List Int) :
    others.foldl (fun w z => w * ((-z : Int) / (x - z : Int) : Rat)) w =
      w * (others.map fun z => ((-z : Int) / (x - z : Int) : Rat)).prod := by
  induction others generalizing w with
  | nil => simp
  | cons z r ih => rw [List.foldl_cons, ih, List.map_cons, List.prod_cons, mul_assoc]

theorem eval_basis (s : Finset Int) (x : Int) :
    (Lagrange.basis s (fun i => (i : Rat)) x).eval 0 =
      ∏ z ∈ s.erase x, ((-z : Int) / (x - z : Int) : Rat) := by
  rw [Lagrange.basis, eval_prod]
  refine Finset.prod_congr rfl fun z _ => ?_
  simp only [Lagrange.basisDivisor, eval_mul, eval_C, eval_sub, eval_X]
  push_cast
  rw [zero_sub, div_eq_inv_mul]

/-- A weight is the value at zero of a basis polynomial. -/
theorem weight_eq {l : List Int} (hl : l.Nodup) (x : Int) :
    weight x (l.filter (· != x)) =
      (Lagrange.basis l.toFinset (fun i => (i : Rat)) x).eval 0 := by
  have he : (l.filter (· != x)).toFinset = l.toFinset.erase x := by
    ext z
    simp [and_comm]
  rw [eval_basis, ← he, List.prod_toFinset _ (hl.filter _), weight, foldl_weight, one_mul]

theorem atZero_eq_sum_map (points : List Point) : atZero points = (points.map fun p =>
    (p.y : Rat) * weight p.x ((points.map Point.x).filter (· != p.x))).sum := by
  rw [List.sum_eq_foldl, List.foldl_map, atZero]

/-- The sum over the points is the value at zero of the polynomial through them. -/
theorem atZero_eq {points : List Point} (hn : (points.map Point.x).Nodup) {y : Int → Int}
    (hy : ∀ p ∈ points, y p.x = p.y) :
    atZero points = (through y (points.map Point.x).toFinset).eval 0 := by
  rw [through, Lagrange.interpolate_apply, eval_finsetSum, List.sum_toFinset _ hn, List.map_map,
    atZero_eq_sum_map]
  refine congrArg List.sum (List.map_congr_left fun p hp => ?_)
  rw [Function.comp_apply, eval_mul, eval_C, hy p hp, weight_eq hn]

theorem secret_of_nodup {points : List Point} (h₀ : points ≠ [])
    (hn : (points.map Point.x).Nodup) : secret points = .ok (truncate (atZero points)) := by
  simp [secret, h₀, firstRepeat?_beq_eq_none_iff.2 hn]

theorem secret_eq {points : List Point} (h₀ : points ≠ []) (hn : (points.map Point.x).Nodup)
    {y : Int → Int} (hy : ∀ p ∈ points, y p.x = p.y) :
    secret points = .ok (candidate y (points.map Point.x).toFinset) := by
  rw [secret_of_nodup h₀ hn, atZero_eq hn hy, truncate_eq, candidate]

/-! ## One ordinate that is off -/

/-- An error at one point reaches the value at zero with the weight of the point. -/
theorem eval_through_shifted {y : Int → Int} {s : Finset Int} {p : Int[X]} {c e : Int}
    (hd : p.degree < s.card) (hc : c ∈ s) (hp : ∀ i ∈ s, i ≠ c → y i = p.eval i)
    (he : y c = p.eval c + e) :
    (through y s).eval 0 =
      (p.eval 0 : Int) + e * ∏ z ∈ s.erase c, ((-z : Int) / (c - z : Int) : Rat) := by
  have hy : (fun i => (y i : Rat)) =
      fun i => ((p.eval i : Int) : Rat) + ((y i - p.eval i : Int) : Rat) := by
    funext i
    push_cast
    ring
  have hs : through (fun i => y i - p.eval i) s =
      C (e : Rat) * Lagrange.basis s (fun i => (i : Rat)) c := by
    rw [through, Lagrange.interpolate_apply, Finset.sum_eq_single_of_mem c hc]
    · rw [he, add_sub_cancel_left]
    · intro i hi hic
      rw [hp i hi hic, sub_self, Int.cast_zero, C_0, zero_mul]
  have ht : through y s = through (fun i => p.eval i) s + through (fun i => y i - p.eval i) s := by
    rw [through, hy]
    exact map_add (Lagrange.interpolate s _) _ _
  rw [ht, eval_add, hs, through_eq_map hd fun _ _ => rfl, eval_zero_map, eval_mul, eval_C,
    eval_basis]

/-! ## Lists of points -/

/-- The product of the differences at zero to all abscissas but that of one place. -/
def numerator (points : List Point) (i : Fin points.length) : Int :=
  ∏ j ∈ Finset.univ.erase i, -points[j].x

/-- The product of the differences of the abscissa of one place to all others. -/
def denominator (points : List Point) (i : Fin points.length) : Int :=
  ∏ j ∈ Finset.univ.erase i, (points[i].x - points[j].x)

/-- The polynomial passes through the points, and its degree is below their number. -/
structure Interpolates (points : List Point) (p : Rat[X]) : Prop where
  degree_lt : p.degree < points.length
  eval_eq : ∀ q ∈ points, p.eval (q.x : Rat) = q.y

section

variable {points : List Point} (hn : (points.map Point.x).Nodup)
include hn

theorem injective_x : Function.Injective fun i : Fin points.length => points[i].x := by
  intro i j hij
  have he : points[i] = points[j] :=
    List.inj_on_of_nodup_map hn (List.getElem_mem _) (List.getElem_mem _) hij
  exact Fin.ext ((hn.of_map _).getElem_inj_iff.1 he)

theorem denominator_ne_zero (i : Fin points.length) : denominator points i ≠ 0 := by
  refine Finset.prod_ne_zero_iff.2 fun j hj => sub_ne_zero.2 fun he => ?_
  exact Finset.ne_of_mem_erase hj (injective_x hn he).symm

theorem card_abscissas : (points.map Point.x).toFinset.card = points.length := by
  rw [List.toFinset_card_of_nodup hn, List.length_map]

/-- A product over the other abscissas is one over the other places. -/
theorem prod_erase_eq (i : Fin points.length) (g : Int → Rat) :
    ∏ z ∈ (points.map Point.x).toFinset.erase points[i].x, g z =
      ∏ j ∈ Finset.univ.erase i, g points[j].x := by
  have himage : (points.map Point.x).toFinset =
      Finset.univ.image fun j : Fin points.length => points[j].x := by
    ext z
    simp [List.mem_iff_getElem]
  rw [himage, ← Finset.image_erase (injective_x hn), Finset.prod_image]
  exact fun j _ k _ hjk => injective_x hn hjk

theorem weight_eq_div (i : Fin points.length) :
    weight points[i].x ((points.map Point.x).filter (· != points[i].x)) =
      numerator points i / denominator points i := by
  rw [weight_eq hn, eval_basis,
    prod_erase_eq hn i fun z => ((-z : Int) / (points[i].x - z : Int) : Rat),
    Finset.prod_div_distrib, numerator, denominator, Int.cast_prod, Int.cast_prod]

/-- The value at zero is the sum over all places of the ordinate times one product over another. -/
theorem atZero_eq_sum :
    atZero points = ∑ i : Fin points.length,
      (points[i].y : Rat) * (numerator points i / denominator points i) := by
  rw [atZero_eq_sum_map, ← Fin.sum_univ_fun_getElem]
  exact Finset.sum_congr rfl fun i _ => congrArg _ (weight_eq_div hn i)

/-- Points with distinct abscissas have their ordinates by abscissa. -/
theorem exists_ordinates : ∃ y : Int → Int, ∀ p ∈ points, y p.x = p.y := by
  classical
  refine ⟨fun i => if h : ∃ q ∈ points, q.x = i then h.choose.y else 0, fun p hp => ?_⟩
  have h : ∃ q ∈ points, q.x = p.x := ⟨p, hp, rfl⟩
  have he : h.choose = p := List.inj_on_of_nodup_map hn h.choose_spec.1 hp h.choose_spec.2
  show dite _ _ _ = p.y
  rw [dif_pos h, he]

theorem interpolates_through {y : Int → Int} (hy : ∀ p ∈ points, y p.x = p.y) :
    Interpolates points (through y (points.map Point.x).toFinset) := by
  constructor
  · rw [← card_abscissas hn]
    exact Lagrange.degree_interpolate_lt _ (injOn_intCast _)
  · intro q hq
    rw [← hy q hq]
    refine Lagrange.eval_interpolate_at_node (fun i => (y i : Rat)) (injOn_intCast _) ?_
    exact List.mem_toFinset.2 (List.mem_map_of_mem hq)

theorem Interpolates.eq_through {y : Int → Int} (hy : ∀ p ∈ points, y p.x = p.y) {p : Rat[X]}
    (h : Interpolates points p) : p = through y (points.map Point.x).toFinset := by
  refine Lagrange.eq_through (by rw [card_abscissas hn]; exact h.degree_lt) fun i hi => ?_
  obtain ⟨q, hq, rfl⟩ := List.mem_map.1 (List.mem_toFinset.1 hi)
  rw [h.eval_eq q hq, hy q hq]

end

/-- What comes of points of which there is at least one, with distinct abscissas. -/
structure Exact (points : List Point) : Prop where
  denominator_ne_zero : ∀ i, denominator points i ≠ 0
  atZero_eq : atZero points =
    ∑ i : Fin points.length, (points[i].y : Rat) * (numerator points i / denominator points i)
  existsUnique : ∃! p, Interpolates points p
  secret_eq : ∀ p, Interpolates points p → secret points = .ok (towardZero (p.eval 0))
  /-- Points of an integer polynomial give its constant term. -/
  secret_eq_coeff : ∀ p : Int[X], p.degree < points.length → (∀ q ∈ points, p.eval q.x = q.y) →
    secret points = .ok (p.coeff 0)

theorem exact_of_nodup {points : List Point} (h₀ : points ≠ [])
    (hn : (points.map Point.x).Nodup) : Exact points := by
  obtain ⟨y, hy⟩ := exists_ordinates hn
  have hsecret := secret_eq h₀ hn hy
  refine ⟨denominator_ne_zero hn, atZero_eq_sum hn, ⟨_, interpolates_through hn hy, ?_⟩, ?_, ?_⟩
  · exact fun p hp => hp.eq_through hn hy
  · intro p hp
    rw [hsecret, hp.eq_through hn hy, candidate]
  · intro p hd hp
    rw [hsecret, coeff_zero_eq_eval_zero, candidate_eq_eval (by rwa [card_abscissas hn])]
    intro i hi
    obtain ⟨q, hq, rfl⟩ := List.mem_map.1 (List.mem_toFinset.1 hi)
    rw [hy q hq, hp q hq]

theorem secret_of_not_nodup {points : List Point} (hn : ¬ (points.map Point.x).Nodup) :
    secret points = .error (.refused .repeatedAbscissa) := by
  have h₀ : points ≠ [] := by
    rintro rfl
    exact hn .nil
  have hr : firstRepeat? (· == ·) [] (points.map Point.x) ≠ none := fun h =>
    hn (firstRepeat?_beq_eq_none_iff.1 h)
  rw [secret, if_neg (by simpa using h₀), if_pos (Option.isSome_iff_ne_none.2 hr)]

theorem secret_of_perm {points points' : List Point} (h : points'.Perm points) :
    secret points' = secret points := by
  have hx := h.map Point.x
  by_cases h₀ : points = []
  · subst h₀
    rw [h.eq_nil]
  by_cases hn : (points.map Point.x).Nodup
  · obtain ⟨y, hy⟩ := exists_ordinates hn
    have h₀' : points' ≠ [] := by
      rintro rfl
      exact h₀ h.symm.eq_nil
    rw [secret_eq h₀ hn hy, secret_eq h₀' (hx.nodup_iff.2 hn) fun p hp => hy p (h.subset hp),
      List.toFinset_eq_of_perm _ _ hx]
  · rw [secret_of_not_nodup hn, secret_of_not_nodup (mt hx.nodup_iff.1 hn)]

/-- A list of points is refused if it is empty or repeats an abscissa, and in no other case; else
its value is that of the one polynomial through the points, cut toward zero, and no division by zero
takes part in it. The order of the points does not matter. -/
theorem secret_exact (points : List Point) :
    (∀ e, secret points = .error e ↔ points = [] ∧ e = .refused .noPoints ∨
      ¬ (points.map Point.x).Nodup ∧ e = .refused .repeatedAbscissa) ∧
    (points ≠ [] → (points.map Point.x).Nodup → Exact points) ∧
    ∀ points', points'.Perm points → secret points' = secret points := by
  refine ⟨fun e => ?_, exact_of_nodup, fun points' h => secret_of_perm h⟩
  by_cases h₀ : points = []
  · subst h₀
    simp [secret, eq_comm]
  by_cases hn : (points.map Point.x).Nodup
  · obtain ⟨p, hp, -⟩ := (exact_of_nodup h₀ hn).existsUnique
    rw [(exact_of_nodup h₀ hn).secret_eq p hp]
    simp [h₀, hn]
  · rw [secret_of_not_nodup hn]
    simp [h₀, hn, eq_comm]

/-- The value of the line is `-3/5`, which is cut to zero from below. -/
theorem secret_exact_descending :
    ([⟨-2, 1⟩, ⟨3, -3⟩].map Point.x).Nodup ∧ Exact [⟨-2, 1⟩, ⟨3, -3⟩] ∧
      secret [⟨3, -3⟩, ⟨-2, 1⟩] = .ok 0 := by
  obtain ⟨-, hexact, hperm⟩ := secret_exact [⟨-2, 1⟩, ⟨3, -3⟩]
  refine ⟨by decide, hexact (by decide) (by decide), ?_⟩
  rw [hperm _ (.swap _ _ _)]
  decide +kernel

end Quorum.Lagrange
