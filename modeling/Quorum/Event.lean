import Quorum.Data

/-!
# Events

What a recovery reports on its way. An event has a topic and a level of importance, and
its wording is given by `Event.message`; no event holds a share's value.
-/

namespace Quorum

/-- How important an event is. -/
inductive Level where
  | debug | info | warning | error | critical
  deriving DecidableEq, Repr

namespace Level

/-- Levels as numbers, the more important the greater. -/
def rank : Level → Nat
  | debug => 10
  | info => 20
  | warning => 30
  | error => 40
  | critical => 50

def name : Level → String
  | debug => "DEBUG"
  | info => "INFO"
  | warning => "WARNING"
  | error => "ERROR"
  | critical => "CRITICAL"

end Level

/-- What a finished recovery tells without its secret. -/
structure Summary where
  threshold : Int
  shares : Nat
  combinations : Int
  agreement : Int
  tied : Bool
  suspects : List Int
  deriving DecidableEq, Repr

/-- A truth value as a message shows it. -/
def displayBool (b : Bool) : String :=
  (Scalar.bool b).display

/-- Integers between brackets. -/
def displayList (vs : List Int) : String :=
  "[" ++ String.intercalate ", " (vs.map toString) ++ "]"

/-- Integers between parentheses; a comma follows a single one. -/
def displayTuple : List Int → String
  | [v] => s!"({v},)"
  | vs => "(" ++ String.intercalate ", " (vs.map toString) ++ ")"

namespace Summary

/-- The fields by name, between braces. -/
def display (s : Summary) : String :=
  "\x7b'threshold': " ++ toString s.threshold ++ ", 'shares': " ++ toString s.shares ++
    ", 'combinations': " ++ toString s.combinations ++ ", 'agreement': " ++ toString s.agreement ++
    ", 'tied': " ++ displayBool s.tied ++ ", 'suspects': " ++ displayList s.suspects ++ "\x7d"

end Summary

/-- Something worth a line in the log. -/
inductive Event where
  /-- A key of a document that is no share's number. -/
  | keyIgnored (key : Scalar)
  /-- A share's number above the declared total. -/
  | idOutsideRange (id total : Int)
  | documentLoaded (shares : Nat) (total threshold : Int)
  | sharesDecoded (count : Nat)
  /-- Several candidates have the most votes. -/
  | tieBroken (leaders : Nat) (votes : Int) (rule : String)
  | interpolating (subsets shares : Nat) (threshold : Int)
  /-- Shares that no winning subset holds. -/
  | dissent (suspects : List Int)
  | finished (summary : Summary)
  deriving DecidableEq, Repr

namespace Event

def level : Event → Level
  | keyIgnored _ | documentLoaded .. | sharesDecoded _ | interpolating .. | finished _ => .debug
  | idOutsideRange .. | tieBroken .. | dissent _ => .warning

/-- The part of the work that the event belongs to. -/
def topic : Event → String
  | keyIgnored _ | idOutsideRange .. | documentLoaded .. => "share_recovery.document"
  | sharesDecoded _ => "share_recovery.decoder"
  | tieBroken .. => "share_recovery.tally"
  | interpolating .. | dissent _ | finished _ => "share_recovery.reconstruct"

def message : Event → String
  | keyIgnored key => s!"Ignoring document key {key.display}"
  | idOutsideRange id total => s!"Share id {id} is outside the declared range 1..{total}"
  | documentLoaded shares total threshold => s!"Loaded {shares} share(s), n={total}, k={threshold}"
  | sharesDecoded count => s!"Decoded {count} share(s)"
  | tieBroken leaders votes rule =>
    s!"{leaders} candidates tie with {votes} vote(s) each; picked by {rule} rule"
  | interpolating subsets shares threshold =>
    s!"Interpolating {subsets} subset(s) of {shares} share(s), k={threshold}"
  | dissent suspects => s!"Shares {displayList suspects} never agree with the winning candidate"
  | finished summary => s!"Reconstruction finished: {summary.display}"

/-- The event as a line of the log. -/
def line (e : Event) : String :=
  s!"{e.level.name} {e.topic}: {e.message}"

end Event

end Quorum
