import Quorum.Proofs.Recovery.Reports

/-!
# The limit on exponents

Only a power looks at the limit, and only after everything else that may be wrong with it. So under
a higher limit a formula keeps its value or its fault, unless that is an exponent above the limit
(`Formula.persists_evaluate`), and so do a share, a list of shares and a recovery
(`persists_of_limit_le`).
-/

namespace Quorum

variable {limit limit' : Int}

namespace Operation

theorem apply_of_ne_power {f : Operation} (hf : f ≠ .power) (limit limit' : Int) (vs : List Int) :
    f.apply limit vs = f.apply limit' vs := by
  cases f with
  | power => exact absurd rfl hf
  | multiply => rfl
  | add => rfl
  | subtract => cases vs <;> rfl
  | gcd => cases vs <;> rfl
  | lcm => cases vs <;> rfl

theorem persists_power (h : limit ≤ limit') (b e : Int) :
    Persists (· = .exponentTooLarge) (power.apply limit [b, e]) (power.apply limit' [b, e]) := by
  rw [apply, apply]
  refine .ite (.refl _ _) ?_
  by_cases hlarge : limit < e
  · rw [if_pos hlarge]
    exact .of_passes (by rfl) _
  · rw [if_neg hlarge, if_neg (by omega)]
    exact .refl _ _

theorem persists_apply (h : limit ≤ limit') (f : Operation) (vs : List Int) :
    Persists (· = .exponentTooLarge) (f.apply limit vs) (f.apply limit' vs) := by
  by_cases hf : f = .power
  · subst hf
    -- The number of operands comes before the exponent.
    rcases vs with _ | ⟨b, _ | ⟨e, _ | ⟨c, r⟩⟩⟩
    · exact .refl _ _
    · exact .refl _ _
    · exact persists_power h b e
    · exact .refl _ _
  · rw [apply_of_ne_power hf limit limit']
    exact .refl _ _

end Operation

namespace Formula

theorem persists_value (h : limit ≤ limit') (x : Int) (f : Formula) :
    Persists (· = .exponentTooLarge) (f.value limit x) (f.value limit' x) := by
  cases f with
  | literal v => exact .refl _ _
  | template t => exact .refl _ _
  | call f operands =>
    exact (Persists.refl _ (operandValues x 1 operands)).bind (f.persists_apply h)

theorem persists_evaluate (h : limit ≤ limit') (x : Int) (s : List Char) :
    Persists (· = .exponentTooLarge) (evaluate limit x s) (evaluate limit' x s) :=
  (Persists.refl _ (read s)).bind (persists_value h x)

end Formula

/-- The fault is an exponent above the limit, in the value of a share if one is named. -/
def Fault.OverLimit (e : Fault) : Prop :=
  ∃ id, e = .malformed id .exponentTooLarge

theorem Fault.OverLimit.inShare {e : Fault} (h : e.OverLimit) (id : Int) :
    (e.inShare id).OverLimit := by
  obtain ⟨_, rfl⟩ := h
  exact ⟨some id, rfl⟩

namespace Share

theorem persists_valueOf (h : limit ≤ limit') (base : Int) (text : List Char) (x : Int) :
    Persists Fault.OverLimit (valueOf limit base text x) (valueOf limit' base text x) := by
  unfold valueOf
  refine .ite (.refl _ _) (.ite (.refl _ _) ?_)
  refine (Formula.persists_evaluate h x (Text.trim text)).mapError fun e he => ?_
  exact ⟨none, congrArg (Fault.malformed none) he⟩

theorem point_eq (limit : Int) (s : Share) :
    point limit s =
      ((valueOf limit s.base s.value s.id).map (Point.mk s.id)).mapError (Fault.inShare s.id) := by
  rw [point]
  cases valueOf limit s.base s.value s.id <;> rfl

theorem persists_point (h : limit ≤ limit') (s : Share) :
    Persists Fault.OverLimit (s.point limit) (s.point limit') := by
  rw [point_eq, point_eq]
  exact ((persists_valueOf h s.base s.value s.id).map _).mapError fun e he => he.inShare s.id

theorem persists_points (h : limit ≤ limit') (shares : List Share) :
    Persists Fault.OverLimit (points limit shares).outcome (points limit' shares).outcome := by
  unfold points
  cases firstRepeat? (· == ·) [] (shares.map id) with
  | some i => exact .refl _ _
  | none =>
    simp only [Journal.outcome_bind, Journal.outcome_ofOutcome]
    exact (Persists.mapM fun s _ => persists_point h s).bind fun decoded => .refl _ _

end Share

namespace Recovery

theorem persists_ofBundle (h : limit ≤ limit') (settings : Settings) (b : Bundle) :
    Persists Fault.OverLimit (ofBundle { settings with exponentLimit := limit } b).outcome
      (ofBundle { settings with exponentLimit := limit' } b).outcome := by
  simp only [ofBundle, Journal.outcome_bind]
  exact (Share.persists_points h b.shares).bind fun points => .refl _ _

/-- A higher limit on exponents takes no result away and changes none, and a fault stays the same
unless it is an exponent above the limit: for formulas, values and points of shares, and
recoveries. -/
theorem persists_of_limit_le {limit limit' : Int} (h : limit ≤ limit') :
    (∀ x s, Persists (· = .exponentTooLarge) (Formula.evaluate limit x s)
      (Formula.evaluate limit' x s)) ∧
    (∀ base text x, Persists Fault.OverLimit (Share.valueOf limit base text x)
      (Share.valueOf limit' base text x)) ∧
    (∀ s : Share, Persists Fault.OverLimit (s.point limit) (s.point limit')) ∧
    ∀ (settings : Settings) (b : Bundle),
      Persists Fault.OverLimit (ofBundle { settings with exponentLimit := limit } b).outcome
        (ofBundle { settings with exponentLimit := limit' } b).outcome :=
  ⟨Formula.persists_evaluate h, Share.persists_valueOf h, Share.persists_point h,
    persists_ofBundle h⟩

/-- Under the limit zero a power may have the exponent zero and no other. -/
theorem persists_from_zero :
    (0 : Int) ≤ 3 ∧
    Formula.evaluate 0 2 "power(x, 3)".toList = .error .exponentTooLarge ∧
    Formula.evaluate 3 2 "power(x, 3)".toList = .ok 8 ∧
    Formula.evaluate 3 2 "power(x, -3)".toList = .error .exponentNegative ∧
    (ofBundle { tieRule := "first", exponentLimit := 3 }
      (overfullBundle "5" "7" "power(x, 0)")).outcome = .ok ⟨3, 2, 3, 3, 1, true, [3]⟩ := by
  obtain ⟨hformula, -, -, hbundle⟩ := persists_of_limit_le (show (0 : Int) ≤ 3 by decide)
  have hpower : Formula.evaluate 0 2 "power(x, -3)".toList = .error .exponentNegative := by decide
  refine ⟨by decide, by decide, by decide, ?_, ?_⟩
  · exact (hformula _ _).of_error _ hpower (by decide)
  · exact (hbundle { tieRule := "first" } _).of_ok _ (by decide +kernel)

end Recovery

end Quorum
