import Quorum.Journal

/-!
# Outcomes step by step

What is known of an outcome in every case is known both ways round (`outcome_iff`). An outcome that is
no fault is handed to what follows it, a fault ends a computation (`bind_eq_ok_iff`,
`bind_eq_error_iff`), and a list of steps succeeds if each of them does
(`mapM_ok`), while the first that fails decides otherwise (`mapM_error`). A success reports what its
steps report (`Journal.events_bind_of_ok`). What all faults of a computation are like (`FailsAs`)
follows from its steps, and so does what two computations have in common (`Agree`, `Journal.Alike`), or
what one of them keeps of the other (`Persists`).
-/

namespace Quorum

variable {ε α β γ δ : Type}

@[simp] theorem ok_bind (a : α) (f : α → Except ε β) : (Except.ok a >>= f) = f a := rfl
@[simp] theorem error_bind (e : ε) (f : α → Except ε β) : (Except.error e >>= f) = .error e := rfl
@[simp] theorem pure_eq_ok (a : α) : (pure a : Except ε α) = .ok a := rfl

theorem bind_eq_ok_iff {r : Except ε α} {f : α → Except ε β} {b : β} :
    r >>= f = .ok b ↔ ∃ a, r = .ok a ∧ f a = .ok b := by
  cases r <;> simp

theorem bind_eq_error_iff {r : Except ε α} {f : α → Except ε β} {e : ε} :
    r >>= f = .error e ↔ r = .error e ∨ ∃ a, r = .ok a ∧ f a = .error e := by
  cases r <;> simp

@[simp] theorem mapError_ok {ε' : Type} (f : ε → ε') (a : α) :
    (Except.ok a : Except ε α).mapError f = .ok a := rfl

@[simp] theorem mapError_error {ε' : Type} (f : ε → ε') (e : ε) :
    (Except.error e : Except ε α).mapError f = .error (f e) := rfl

@[simp] theorem mapError_eq_ok_iff {ε' : Type} {r : Except ε α} {f : ε → ε'} {a : α} :
    r.mapError f = .ok a ↔ r = .ok a := by
  cases r <;> simp

theorem mapError_eq_error_iff {ε' : Type} {r : Except ε α} {f : ε → ε'} {e' : ε'} :
    r.mapError f = .error e' ↔ ∃ e, r = .error e ∧ f e = e' := by
  cases r <;> simp

theorem mapError_id (r : Except ε α) : r.mapError id = r := by
  cases r <;> rfl

/-- An outcome is known by conditions for its results and its faults if one of them is always met. -/
theorem outcome_iff {r : Except ε α} {p : α → Prop} {q : ε → Prop} (hok : ∀ a, p a → r = .ok a)
    (herror : ∀ e, q e → r = .error e) (h : (∃ a, p a) ∨ ∃ e, q e) :
    (∀ a, r = .ok a ↔ p a) ∧ ∀ e, r = .error e ↔ q e := by
  rcases h with ⟨a, ha⟩ | ⟨e, he⟩
  · have hr := hok a ha
    refine ⟨fun b => ⟨fun h => ?_, hok b⟩, fun e => ⟨fun h => ?_, herror e⟩⟩
    · cases hr.symm.trans h
      exact ha
    · cases hr.symm.trans h
  · have hr := herror e he
    refine ⟨fun a => ⟨fun h => ?_, hok a⟩, fun e' => ⟨fun h => ?_, herror e'⟩⟩
    · cases hr.symm.trans h
    · cases hr.symm.trans h
      exact he

@[simp] theorem Journal.outcome_lift (r : Except Fault α) : (liftM r : Journal α).outcome = r := rfl

@[simp] theorem Journal.events_lift (r : Except Fault α) : (liftM r : Journal α).events = [] := rfl

/-- A computation that succeeds does so step by step, and reports what its steps report. -/
theorem Journal.events_bind_of_ok {j : Journal α} {f : α → Journal β} {b : β}
    (h : (j >>= f).outcome = .ok b) :
    ∃ a, j.outcome = .ok a ∧ (f a).outcome = .ok b ∧
      (j >>= f).events = j.events ++ (f a).events := by
  rw [outcome_bind] at h
  obtain ⟨a, ha, hb⟩ := bind_eq_ok_iff.1 h
  refine ⟨a, ha, hb, ?_⟩
  rw [events_bind, ha, next]

theorem Journal.lift_ok_bind (a : α) (f : α → Journal β) :
    ((liftM (.ok a : Except Fault α) : Journal α) >>= f) = f a := rfl

theorem mapM_ok {f : α → Except ε β} {g : α → β} {l : List α} (h : ∀ a ∈ l, f a = .ok (g a)) :
    l.mapM f = .ok (l.map g) := by
  induction l with
  | nil => rfl
  | cons a r ih =>
    rw [List.mapM_cons, h a List.mem_cons_self, ih fun b hb => h b (List.mem_cons_of_mem _ hb)]
    rfl

theorem mapM_error {f : α → Except ε β} {before after : List α} {a : α} {e : ε}
    (hb : ∀ b ∈ before, ∃ v, f b = .ok v) (ha : f a = .error e) :
    (before ++ a :: after).mapM f = .error e := by
  induction before with
  | nil => rw [List.nil_append, List.mapM_cons, ha, error_bind]
  | cons b r ih =>
    obtain ⟨⟨v, hv⟩, hr⟩ := List.forall_mem_cons.1 hb
    rw [List.cons_append, List.mapM_cons, hv, ok_bind, ih hr, error_bind]

/-- Results may be changed one by one or all at the end. -/
theorem mapM_map {f : α → Except ε β} {g : β → γ} (l : List α) :
    l.mapM (fun a => (f a).map g) = (l.mapM f).map (List.map g) := by
  induction l with
  | nil => rfl
  | cons a r ih =>
    rw [List.mapM_cons, List.mapM_cons, ih]
    cases f a with
    | error e => rfl
    | ok b => cases r.mapM f <;> rfl

theorem forM_cons (f : α → Except ε PUnit) (a : α) (l : List α) :
    (a :: l).forM f = f a >>= fun _ => l.forM f := rfl

theorem forM_eq_ok {f : α → Except ε PUnit} {l : List α} (h : ∀ a ∈ l, f a = .ok ()) :
    l.forM f = .ok () := by
  induction l with
  | nil => rfl
  | cons a l ih =>
    obtain ⟨ha, hl⟩ := List.forall_mem_cons.1 h
    rw [forM_cons, ha, ok_bind, ih hl]

theorem forM_error {f : α → Except ε PUnit} {before after : List α} {a : α} {e : ε}
    (hb : ∀ b ∈ before, f b = .ok ()) (ha : f a = .error e) :
    (before ++ a :: after).forM f = .error e := by
  induction before with
  | nil => rw [List.nil_append, forM_cons, ha, error_bind]
  | cons b r ih =>
    obtain ⟨hv, hr⟩ := List.forall_mem_cons.1 hb
    rw [List.cons_append, forM_cons, hv, ok_bind, ih hr]

/-! ## Faults -/

/-- If the outcome is a fault, it passes `q`. -/
def FailsAs (q : ε → Prop) : Except ε α → Prop
  | .ok _ => True
  | .error e => q e

theorem FailsAs.imp {q q' : ε → Prop} {x : Except ε α} (hx : FailsAs q x) (hq : ∀ e, q e → q' e) :
    FailsAs q' x := by
  cases x with
  | ok a => trivial
  | error e => exact hq e hx

theorem FailsAs.bind {q : ε → Prop} {x : Except ε α} {f : α → Except ε β} (hx : FailsAs q x)
    (hf : ∀ a, FailsAs q (f a)) : FailsAs q (x >>= f) := by
  cases x with
  | ok a => exact hf a
  | error e => exact hx

/-! ## Two computations side by side -/

/-- Both outcomes are the same fault, or results that are in the relation. -/
def Agree (R : α → β → Prop) : Except ε α → Except ε β → Prop
  | .ok a, .ok b => R a b
  | .error e, .error e' => e = e'
  | _, _ => False

section
variable {R : α → β → Prop} {S : γ → δ → Prop}

theorem agree_iff {x : Except ε α} {y : Except ε β} :
    Agree R x y ↔
      (∃ a b, x = .ok a ∧ y = .ok b ∧ R a b) ∨ ∃ e, x = .error e ∧ y = .error e := by
  cases x <;> cases y <;> simp [Agree, eq_comm]

theorem agree_self (x : Except ε α) : Agree (· = ·) x x := by
  cases x <;> rfl

theorem Agree.bind {x : Except ε α} {y : Except ε β} {f : α → Except ε γ} {g : β → Except ε δ}
    (h : Agree R x y) (hf : ∀ a b, R a b → Agree S (f a) (g b)) : Agree S (x >>= f) (y >>= g) := by
  rcases agree_iff.1 h with ⟨a, b, rfl, rfl, hab⟩ | ⟨e, rfl, rfl⟩
  · exact hf a b hab
  · rfl

theorem Agree.mapError {ε' : Type} {x : Except ε α} {y : Except ε β} (h : Agree R x y)
    (f : ε → ε') : Agree R (x.mapError f) (y.mapError f) := by
  rcases agree_iff.1 h with ⟨a, b, rfl, rfl, hab⟩ | ⟨e, rfl, rfl⟩
  · exact hab
  · rfl

theorem Agree.imp {R' : α → β → Prop} {x : Except ε α} {y : Except ε β} (h : Agree R x y)
    (hR : ∀ a b, R a b → R' a b) : Agree R' x y := by
  rcases agree_iff.1 h with ⟨a, b, rfl, rfl, hab⟩ | ⟨e, rfl, rfl⟩
  · exact hR a b hab
  · rfl

/-- Both computations report the same events and come to outcomes that agree. -/
structure Journal.Alike (R : α → β → Prop) (j : Journal α) (j' : Journal β) : Prop where
  events_eq : j.events = j'.events
  agree : Agree R j.outcome j'.outcome

namespace Journal.Alike

theorem self (j : Journal α) : j.Alike (· = ·) j :=
  ⟨rfl, agree_self j.outcome⟩

theorem imp {R' : α → β → Prop} {j : Journal α} {j' : Journal β} (h : j.Alike R j')
    (hR : ∀ a b, R a b → R' a b) : j.Alike R' j' :=
  ⟨h.events_eq, h.agree.imp hR⟩

theorem throw (e : Fault) : (MonadExcept.throw e : Journal α).Alike R (MonadExcept.throw e) :=
  ⟨rfl, rfl⟩

theorem pure {a : α} {b : β} (h : R a b) : (Pure.pure a : Journal α).Alike R (Pure.pure b) :=
  ⟨rfl, h⟩

theorem lift {x : Except Fault α} {y : Except Fault β} (h : Agree R x y) :
    (liftM x : Journal α).Alike R (liftM y) :=
  ⟨rfl, h⟩

theorem bind {j : Journal α} {j' : Journal β} {f : α → Journal γ} {g : β → Journal δ}
    (h : j.Alike R j') (hf : ∀ a b, R a b → (f a).Alike S (g b)) :
    (j >>= f).Alike S (j' >>= g) := by
  obtain ⟨he, hr⟩ := h
  rcases agree_iff.1 hr with ⟨a, b, ha, hb, hab⟩ | ⟨e, ha, hb⟩
  · obtain ⟨he', hr'⟩ := hf a b hab
    constructor
    · rw [events_bind, events_bind, he, ha, hb, next, next, he']
    · rwa [outcome_bind, outcome_bind, ha, hb]
  · constructor
    · rw [events_bind, events_bind, he, ha, hb, next, next]
    · rw [outcome_bind, outcome_bind, ha, hb]
      rfl

theorem ite {c : Prop} [Decidable c] {j l : Journal α} {j' l' : Journal β} (h : j.Alike R j')
    (h' : l.Alike R l') : (if c then j else l).Alike R (if c then j' else l') := by
  split
  · exact h
  · exact h'

theorem within {j : Journal α} {j' : Journal β} (h : j.Alike R j') (digits : DigitLimit) :
    (j.within digits).Alike R (j'.within digits) :=
  ⟨h.events_eq, h.agree.mapError _⟩

end Journal.Alike

end

/-! ## A computation with more leeway -/

/-- What the first computation comes to, the second one comes to as well, unless it is a fault that
passes `q`. -/
structure Persists (q : ε → Prop) (x y : Except ε α) : Prop where
  of_ok : ∀ a, x = .ok a → y = .ok a
  of_error : ∀ e, x = .error e → ¬ q e → y = .error e

namespace Persists

variable {q : ε → Prop} {x y : Except ε α}

theorem refl (q : ε → Prop) (x : Except ε α) : Persists q x x :=
  ⟨fun _ h => h, fun _ h _ => h⟩

theorem of_passes {e : ε} (he : q e) (y : Except ε α) : Persists q (.error e) y := by
  refine ⟨nofun, fun e' h hq => ?_⟩
  cases h
  exact absurd he hq

theorem bind {f g : α → Except ε β} (h : Persists q x y) (hf : ∀ a, Persists q (f a) (g a)) :
    Persists q (x >>= f) (y >>= g) := by
  cases x with
  | ok a =>
    rw [h.of_ok a rfl]
    exact hf a
  | error e =>
    by_cases he : q e
    · exact of_passes he _
    · rw [h.of_error e rfl he]
      exact refl q _

theorem ite {c : Prop} [Decidable c] {x' y' : Except ε α} (h : Persists q x y)
    (h' : Persists q x' y') : Persists q (if c then x else x') (if c then y else y') := by
  split
  · exact h
  · exact h'

theorem map (h : Persists q x y) (f : α → β) : Persists q (x.map f) (y.map f) :=
  h.bind fun a => refl q (.ok (f a))

theorem mapError {ε' : Type} {q' : ε' → Prop} {f : ε → ε'} (h : Persists q x y)
    (hf : ∀ e, q e → q' (f e)) : Persists q' (x.mapError f) (y.mapError f) := by
  cases x with
  | ok a =>
    rw [h.of_ok a rfl]
    exact refl q' _
  | error e =>
    by_cases he : q e
    · exact of_passes (hf e he) _
    · rw [h.of_error e rfl he]
      exact refl q' _

/-- Of two ways of putting faults, the first may put those that pass `q` in its own way. -/
theorem of_mapError {ε' : Type} {q : ε' → Prop} {f g : ε → ε'} (h : ∀ e, q (f e) ∨ f e = g e)
    (x : Except ε α) : Persists q (x.mapError f) (x.mapError g) := by
  cases x with
  | ok a => exact refl q _
  | error e =>
    rcases h e with hq | he
    · exact of_passes hq _
    · rw [mapError_error, he, mapError_error]
      exact refl q _

theorem mapM {f g : α → Except ε β} {l : List α} (h : ∀ a ∈ l, Persists q (f a) (g a)) :
    Persists q (l.mapM f) (l.mapM g) := by
  induction l with
  | nil => exact refl q _
  | cons a l ih =>
    obtain ⟨ha, hl⟩ := List.forall_mem_cons.1 h
    rw [List.mapM_cons, List.mapM_cons]
    exact ha.bind fun b => (ih hl).bind fun bs => refl q _

end Persists

end Quorum
