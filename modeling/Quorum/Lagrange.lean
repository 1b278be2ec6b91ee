import Quorum.Fault
import Quorum.Repeat
import Quorum.Share.Basic

/-!
# Interpolation at zero

The value at zero of the polynomial through some points, computed over the rational
numbers and cut to an integer once, toward zero.
-/

namespace Quorum.Lagrange

/-- The value at zero of the basis polynomial that is one at `x` and zero at the others. -/
def weight (x : Int) (others : List Int) : Rat :=
  others.foldl (fun w z => w * ((-z : Int) / (x - z : Int) : Rat)) 1

/-- The value at zero of the polynomial through the points, whose abscissas are distinct. -/
def atZero (points : List Point) : Rat :=
  let xs := points.map Point.x
  points.foldl (fun v p => v + (p.y : Rat) * weight p.x (xs.filter (· != p.x))) 0

/-- The integer part of a fraction. -/
def truncate (q : Rat) : Int :=
  q.num.tdiv q.den

/-- The interpolated value at zero as an integer, for a nonempty list of points with distinct
abscissas. -/
def secret (points : List Point) : Except Fault Int :=
  if points.isEmpty then .error (.refused .noPoints)
  else if (firstRepeat? (· == ·) [] (points.map Point.x)).isSome then
    .error (.refused .repeatedAbscissa)
  else .ok (truncate (atZero points))

end Quorum.Lagrange
