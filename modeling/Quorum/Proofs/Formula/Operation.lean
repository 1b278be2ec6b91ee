import Mathlib
import Quorum.Formula.Value
import Quorum.Proofs.Journal

/-!
# What the operations compute

An operation gives a result (`Gives`) or is refused (`Refuses`), said without its loop: one of the
two always holds (`gives_or_refuses`), and the operation does the same (`apply_iff`). The loops of
the greatest common divisor and of the least common multiple keep what is known of the integers seen
so far (`GreatestDivisor.insert`, `LeastMultiple.insert`), so they end with it for all of them
(`foldl_of_insert`). Four of the operations do not look at the order of their operands
(`apply_perm`).
-/

namespace Quorum

/-- `g` generates the ideal that the integers span, and is not negative: it is the divisor of them
all that every other one divides. -/
structure GreatestDivisor (s : Set Int) (g : Int) : Prop where
  nonneg : 0 ≤ g
  span_eq : Ideal.span s = Ideal.span {g}
  dvd : ∀ v ∈ s, g ∣ v
  dvd_of_dvd : ∀ d, (∀ v ∈ s, d ∣ v) → d ∣ g
  eq_zero : (∀ v ∈ s, v = 0) → g = 0

/-- `m` is the multiple of all of the integers that divides every other one, and is not negative. -/
structure LeastMultiple (s : Set Int) (m : Int) : Prop where
  nonneg : 0 ≤ m
  dvd : ∀ v ∈ s, v ∣ m
  dvd_of_dvd : ∀ c, (∀ v ∈ s, v ∣ c) → m ∣ c
  eq_zero : 0 ∈ s → m = 0

namespace GreatestDivisor

theorem of_span {s : Set Int} {g : Int} (h0 : 0 ≤ g) (h : Ideal.span s = Ideal.span {g}) :
    GreatestDivisor s g := by
  have hd : ∀ d, (∀ v ∈ s, d ∣ v) ↔ d ∣ g := by
    intro d
    rw [← Ideal.span_singleton_le_span_singleton, ← h, Ideal.span_le]
    exact forall₂_congr fun v _ => Ideal.mem_span_singleton.symm
  refine ⟨h0, h, (hd g).2 dvd_rfl, fun d => (hd d).1, fun hz => ?_⟩
  exact zero_dvd_iff.1 ((hd 0).1 fun v hv => (hz v hv).symm ▸ dvd_rfl)

theorem singleton (v : Int) : GreatestDivisor {v} (v.natAbs : Int) :=
  of_span (Int.natCast_nonneg _) (Int.span_natAbs v).symm

theorem insert {s : Set Int} {a : Int} (h : GreatestDivisor s a) (b : Int) :
    GreatestDivisor (insert b s) (Int.gcd a b) := by
  refine of_span (Int.natCast_nonneg _) ?_
  rw [Int.coe_gcd, span_gcd, Ideal.span_insert, h.span_eq, ← Ideal.span_insert, Set.pair_comm]

theorem unique {s : Set Int} {g g' : Int} (h : GreatestDivisor s g) (h' : GreatestDivisor s g') :
    g = g' :=
  Int.dvd_antisymm h.nonneg h'.nonneg (h'.dvd_of_dvd g h.dvd) (h.dvd_of_dvd g' h'.dvd)

end GreatestDivisor

namespace LeastMultiple

theorem of_dvd {s : Set Int} {m : Int} (h0 : 0 ≤ m) (hd : ∀ v ∈ s, v ∣ m)
    (hl : ∀ c, (∀ v ∈ s, v ∣ c) → m ∣ c) : LeastMultiple s m :=
  ⟨h0, hd, hl, fun h => zero_dvd_iff.1 (hd 0 h)⟩

theorem singleton (v : Int) : LeastMultiple {v} (v.natAbs : Int) :=
  of_dvd (Int.natCast_nonneg _) (by simp) (by simp)

theorem insert {s : Set Int} {a : Int} (h : LeastMultiple s a) (b : Int) :
    LeastMultiple (insert b s) (leastMultiple a b) := by
  rw [leastMultiple_eq]
  refine of_dvd (Int.natCast_nonneg _) ?_ fun c hc => ?_
  · rintro v (rfl | hv)
    · exact Int.dvd_lcm_right a v
    · exact (h.dvd v hv).trans (Int.dvd_lcm_left a b)
  · exact Int.coe_lcm_dvd (h.dvd_of_dvd c fun v hv => hc v (.inr hv)) (hc b (.inl rfl))

theorem unique {s : Set Int} {m m' : Int} (h : LeastMultiple s m) (h' : LeastMultiple s m') :
    m = m' :=
  Int.dvd_antisymm h.nonneg h'.nonneg (h.dvd_of_dvd m' h'.dvd) (h'.dvd_of_dvd m h.dvd)

end LeastMultiple

/-- What one step of a loop carries on to one integer more, the loop carries on to all. -/
theorem foldl_of_insert {p : Set Int → Int → Prop} {f : Int → Int → Int}
    (hstep : ∀ s a b, p s a → p (insert b s) (f a b)) {v a : Int} (h : p {v} a) (vs : List Int) :
    p {w | w ∈ v :: vs} (vs.foldl f a) := by
  induction vs using List.reverseRecOn with
  | nil => simpa using h
  | append_singleton r b ih =>
    have hs : {w | w ∈ v :: (r ++ [b])} = insert b {w | w ∈ v :: r} := by
      ext w
      show w ∈ v :: (r ++ [b]) ↔ w = b ∨ w ∈ v :: r
      simp only [List.mem_cons, List.mem_append, List.not_mem_nil, or_false]
      tauto
    rw [hs, List.foldl_append]
    exact hstep _ _ b ih

namespace Operation

variable {limit : Int}

/-- The operation gives the result on these integers. -/
inductive Gives (limit : Int) : Operation → List Int → Int → Prop
  | product (vs : List Int) : Gives limit multiply vs vs.prod
  | sum (vs : List Int) : Gives limit add vs vs.sum
  | difference (v : Int) (vs : List Int) : Gives limit subtract (v :: vs) (v - vs.sum)
  | divisor {vs : List Int} {g : Int} (hne : vs ≠ []) (h : GreatestDivisor {v | v ∈ vs} g) :
    Gives limit gcd vs g
  | multiple {vs : List Int} {m : Int} (hne : vs ≠ []) (h : LeastMultiple {v | v ∈ vs} m) :
    Gives limit lcm vs m
  | power {b e : Int} (h0 : 0 ≤ e) (hl : e ≤ limit) : Gives limit power [b, e] (b ^ e.toNat)

/-- The operation is refused on these integers. -/
inductive Refuses (limit : Int) : Operation → List Int → Malformation → Prop
  | noOperands {f : Operation} (h : f = subtract ∨ f = gcd ∨ f = lcm) :
    Refuses limit f [] (.operandsNeeded f)
  | arity {vs : List Int} (h : vs.length ≠ 2) : Refuses limit power vs .powerArity
  | negative {b e : Int} (h : e < 0) : Refuses limit power [b, e] .exponentNegative
  | tooLarge {b e : Int} (h0 : 0 ≤ e) (h : limit < e) :
    Refuses limit power [b, e] .exponentTooLarge

theorem foldl_sub (v : Int) (vs : List Int) : vs.foldl (· - ·) v = v - vs.sum := by
  induction vs generalizing v with
  | nil => simp
  | cons w r ih => rw [List.foldl_cons, ih, List.sum_cons, Int.sub_sub]

theorem greatestDivisor_foldl (v : Int) (vs : List Int) :
    GreatestDivisor {w | w ∈ v :: vs}
      (vs.foldl (fun a b => (Int.gcd a b : Int)) (v.natAbs : Int)) :=
  foldl_of_insert (fun _ _ b h => h.insert b) (.singleton v) vs

theorem leastMultiple_foldl (v : Int) (vs : List Int) :
    LeastMultiple {w | w ∈ v :: vs} (vs.foldl leastMultiple (v.natAbs : Int)) :=
  foldl_of_insert (fun _ _ b h => h.insert b) (.singleton v) vs

theorem Gives.apply {f : Operation} {vs : List Int} {r : Int} (h : Gives limit f vs r) :
    f.apply limit vs = .ok r := by
  cases h with
  | product => rw [Operation.apply, List.prod_eq_foldl]
  | sum => rw [Operation.apply, List.sum_eq_foldl]
  | difference v vs => rw [Operation.apply, foldl_sub]
  | divisor hne h =>
    obtain ⟨v, vs, rfl⟩ := List.exists_cons_of_ne_nil hne
    rw [Operation.apply, (greatestDivisor_foldl v vs).unique h]
  | multiple hne h =>
    obtain ⟨v, vs, rfl⟩ := List.exists_cons_of_ne_nil hne
    rw [Operation.apply, (leastMultiple_foldl v vs).unique h]
  | power h0 hl =>
    rw [Operation.apply, if_neg (not_lt.2 h0), if_neg (not_lt.2 hl), integerPower_eq]
    rfl

theorem Refuses.apply {f : Operation} {vs : List Int} {reason : Malformation}
    (h : Refuses limit f vs reason) : f.apply limit vs = .error reason := by
  cases h with
  | noOperands h => rcases h with rfl | rfl | rfl <;> rfl
  | arity h =>
    rcases vs with _ | ⟨b, _ | ⟨e, _ | ⟨c, r⟩⟩⟩
    · rfl
    · rfl
    · exact absurd rfl h
    · rfl
  | negative h => rw [Operation.apply, if_pos h]
  | tooLarge h0 h => rw [Operation.apply, if_neg (not_lt.2 h0), if_pos h]

theorem gives_or_refuses (limit : Int) (f : Operation) (vs : List Int) :
    (∃ r, Gives limit f vs r) ∨ ∃ reason, Refuses limit f vs reason := by
  cases f with
  | multiply => exact .inl ⟨_, .product vs⟩
  | add => exact .inl ⟨_, .sum vs⟩
  | subtract =>
    cases vs with
    | nil => exact .inr ⟨_, .noOperands (by simp)⟩
    | cons v vs => exact .inl ⟨_, .difference v vs⟩
  | gcd =>
    cases vs with
    | nil => exact .inr ⟨_, .noOperands (by simp)⟩
    | cons v vs => exact .inl ⟨_, .divisor (List.cons_ne_nil v vs) (greatestDivisor_foldl v vs)⟩
  | lcm =>
    cases vs with
    | nil => exact .inr ⟨_, .noOperands (by simp)⟩
    | cons v vs => exact .inl ⟨_, .multiple (List.cons_ne_nil v vs) (leastMultiple_foldl v vs)⟩
  | power =>
    by_cases hlen : vs.length = 2
    · obtain ⟨b, e, rfl⟩ := List.length_eq_two.1 hlen
      rcases lt_or_ge e 0 with hn | h0
      · exact .inr ⟨_, .negative hn⟩
      rcases lt_or_ge limit e with hl | hl
      · exact .inr ⟨_, .tooLarge h0 hl⟩
      · exact .inl ⟨_, .power h0 hl⟩
    · exact .inr ⟨_, .arity hlen⟩

theorem apply_iff (limit : Int) (f : Operation) (vs : List Int) :
    (∀ r, f.apply limit vs = .ok r ↔ Gives limit f vs r) ∧
      ∀ reason, f.apply limit vs = .error reason ↔ Refuses limit f vs reason :=
  outcome_iff (fun _ => Gives.apply) (fun _ => Refuses.apply) (gives_or_refuses limit f vs)

/-- The operations that do not look at the order of their operands. -/
def commutative : List Operation :=
  [add, multiply, gcd, lcm]

theorem Gives.perm {f : Operation} {vs ws : List Int} {r : Int} (h : Gives limit f vs r)
    (hf : f ∈ commutative) (hp : vs.Perm ws) : Gives limit f ws r := by
  have hs : {v | v ∈ vs} = {v | v ∈ ws} := Set.ext fun _ => hp.mem_iff
  cases h with
  | product => exact hp.prod_eq ▸ .product ws
  | sum => exact hp.sum_eq ▸ .sum ws
  | difference => simp [commutative] at hf
  | divisor hne h => exact .divisor (fun e => hne (e ▸ hp).eq_nil) (hs ▸ h)
  | multiple hne h => exact .multiple (fun e => hne (e ▸ hp).eq_nil) (hs ▸ h)
  | power => simp [commutative] at hf

theorem apply_perm {f : Operation} (hf : f ∈ commutative) {vs ws : List Int} (hp : vs.Perm ws) :
    f.apply limit vs = f.apply limit ws := by
  rcases gives_or_refuses limit f vs with ⟨r, h⟩ | ⟨reason, h⟩
  · rw [h.apply, (h.perm hf hp).apply]
  · cases h with
    | noOperands => rw [hp.nil_eq]
    | _ => simp [commutative] at hf

end Operation

end Quorum
