import Quorum.Event
import Quorum.Fault

/-!
# Computations that report

A `Journal α` is the outcome of a computation together with the events that it reported,
in order. Events that were reported before a fault are kept.

* `outcome_bind`: the outcomes alone compose as if nothing were reported;
* `events_bind`: the events of a step come before those of what follows it.
-/

namespace Quorum

/-- An outcome with the events reported on the way to it. -/
structure Journal (α : Type) where
  events : List Event
  outcome : Except Fault α

namespace Journal

variable {α β : Type}

/-- Events that follow the outcome of a step. -/
def next (f : α → Journal β) : Except Fault α → Journal β
  | .ok a => f a
  | .error e => ⟨[], .error e⟩

instance : Monad Journal where
  pure a := ⟨[], .ok a⟩
  bind j f := ⟨j.events ++ (next f j.outcome).events, (next f j.outcome).outcome⟩

instance : MonadExceptOf Fault Journal where
  throw e := ⟨[], .error e⟩
  tryCatch j f := match j.outcome with
    | .ok _ => j
    | .error e => ⟨j.events ++ (f e).events, (f e).outcome⟩

/-- Reports an event. -/
def report (e : Event) : Journal Unit :=
  ⟨[e], .ok ()⟩

/-- An outcome without events. -/
def ofOutcome (r : Except Fault α) : Journal α :=
  ⟨[], r⟩

/-- The computation where its faults are put into words under a limit on digits. -/
def within (digits : DigitLimit) (j : Journal α) : Journal α :=
  ⟨j.events, j.outcome.mapError (Fault.within digits)⟩

instance : MonadLift (Except Fault) Journal where
  monadLift := ofOutcome

@[simp] theorem outcome_pure (a : α) : (pure a : Journal α).outcome = .ok a := rfl
@[simp] theorem events_pure (a : α) : (pure a : Journal α).events = [] := rfl
@[simp] theorem outcome_throw (e : Fault) : (throw e : Journal α).outcome = .error e := rfl
@[simp] theorem events_throw (e : Fault) : (throw e : Journal α).events = [] := rfl
@[simp] theorem outcome_report (e : Event) : (report e).outcome = .ok () := rfl
@[simp] theorem events_report (e : Event) : (report e).events = [e] := rfl
@[simp] theorem outcome_ofOutcome (r : Except Fault α) : (ofOutcome r).outcome = r := rfl
@[simp] theorem events_ofOutcome (r : Except Fault α) : (ofOutcome r).events = [] := rfl

@[simp] theorem outcome_within (digits : DigitLimit) (j : Journal α) :
    (j.within digits).outcome = j.outcome.mapError (Fault.within digits) := rfl

@[simp] theorem events_within (digits : DigitLimit) (j : Journal α) :
    (j.within digits).events = j.events := rfl

@[simp] theorem outcome_next (f : α → Journal β) (r : Except Fault α) :
    (next f r).outcome = r >>= fun a => (f a).outcome := by
  cases r <;> rfl

@[simp] theorem outcome_bind (j : Journal α) (f : α → Journal β) :
    (j >>= f).outcome = j.outcome >>= fun a => (f a).outcome :=
  outcome_next f j.outcome

theorem events_bind (j : Journal α) (f : α → Journal β) :
    (j >>= f).events = j.events ++ (next f j.outcome).events := rfl

end Journal

end Quorum
