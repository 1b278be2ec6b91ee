import Quorum.Bundle.Basic
import Quorum.Lagrange
import Quorum.Selection
import Quorum.Settings
import Quorum.Share.Value

/-!
# Recovering a secret

Every choice of as many shares as the threshold says is interpolated, and the values
vote on the secret. Honest shares all vote alike, so a few corrupted ones are outvoted;
shares that no winning choice holds are suspects.
-/

namespace Quorum

/-- Points as they are handed over: in a list, or under labels that should be their numbers. -/
inductive PointSet where
  | list (points : List Point)
  | labelled (entries : List (Int × Point))
  deriving DecidableEq, Repr

namespace PointSet

/-- The points, when no two have the same number and every label is right. -/
def points : PointSet → Except Fault (List Point)
  | list points =>
    match firstRepeat? (· == ·) [] (points.map Point.x) with
    | some id => .error (.duplicateShare id)
    | none => .ok points
  | labelled entries =>
    match entries.find? fun e => e.1 != e.2.x with
    | some (label, p) => .error (.refused (.mislabelledShare label p.x))
    | none => .ok (entries.map Prod.snd)

end PointSet

/-- A recovered secret and how it came about. -/
structure Recovery where
  secret : Int
  threshold : Int
  shares : Nat
  combinations : Int
  agreement : Int
  tied : Bool
  suspects : List Int
  deriving DecidableEq, Repr

namespace Recovery

/-- The recovery without its secret. -/
def summary (r : Recovery) : Summary :=
  ⟨r.threshold, r.shares, r.combinations, r.agreement, r.tied, r.suspects⟩

/-- The recovery as a message shows it, without its secret. -/
def display (r : Recovery) : String :=
  s!"Reconstruction(threshold={r.threshold}, shares={r.shares}, combinations={r.combinations}, " ++
    s!"agreement={r.agreement}, tied={displayBool r.tied}, suspects={displayTuple r.suspects})"

/-- Points by ascending number. -/
def byNumber (points : List Point) : List Point :=
  sortBy Point.x points

/-- A choice of points with the value at zero that they give. -/
structure Vote where
  points : List Point
  value : Int
  deriving DecidableEq, Repr

/-- One vote for every choice of `k` of the points. -/
def votes (k : Nat) (points : List Point) : Except Fault (List Vote) :=
  (Selection.choose k points).mapM fun chosen => (Lagrange.secret chosen).map (Vote.mk chosen)

/-- The numbers of the points that no vote for the winner holds. -/
def suspectsOf (winner : Int) (votes : List Vote) (points : List Point) : List Int :=
  let agreeing := votes.filter fun v => v.value == winner
  (points.map Point.x).filter fun id =>
    !agreeing.any fun v => v.points.any fun p => p.x == id

/-- Recovers the secret from points of which any `k` determine it. -/
def ofPoints (given : PointSet) (k : Int) (rule : String) : Journal Recovery := do
  if k < 1 then throw (.invalidThreshold k none)
  let points ← given.points
  if (points.length : Int) < k then throw (.insufficientShares points.length k)
  let expected ← Selection.count points.length k
  Journal.report (.interpolating expected.toNat points.length k)
  let points := byNumber points
  let cast ← votes k.toNat points
  let election ← Ballot.elect (Ballot.count (cast.map Vote.value)) rule
  let suspects := suspectsOf election.winner cast points
  if !suspects.isEmpty then Journal.report (.dissent suspects)
  return {
    secret := election.winner
    threshold := k
    shares := points.length
    combinations := election.total
    agreement := election.votes
    tied := election.tied
    suspects := suspects }

/-- Recovers the secret of a bundle. -/
def ofBundle (settings : Settings) (b : Bundle) : Journal Recovery := do
  let points ← Share.points settings.exponentLimit b.shares
  let r ← ofPoints (.labelled (points.map fun p => (p.x, p))) b.threshold settings.tieRule
  Journal.report (.finished r.summary)
  return r

end Recovery

end Quorum
