import Quorum.Formula.Value
import Quorum.Journal
import Quorum.Repeat
import Quorum.Share.Basic

/-!
# Values of shares

The value of a share is a numeral in the share's base, or a formula in the share's
number. A text with the variable in it is always a formula, even where the variable is
also a digit; a decimal numeral that is none in the base is refused, so that no numeral
is read in another base than its own.
-/

namespace Quorum

open Quorum.Numeral (isNumeral isAsciiInteger)

/-- The value of a text in the share with number `x`, with powers up to the exponent `limit`. -/
def Share.valueOf (limit base : Int) (text : List Char) (x : Int) : Except Fault Int :=
  let t := Text.trim text
  if !t.contains Formula.variableLetter && isNumeral base t then
    if 2 ≤ base && base ≤ 36 then .ok (Numeral.value base.toNat t)
    else .error (.refused .baseOutOfRange)
  else if isAsciiInteger t then .error (.malformed none (.notNumeral base))
  else (Formula.evaluate limit x t).mapError (.malformed none)

/-- A malformed value is put down to the share. -/
def Fault.inShare (id : Int) : Fault → Fault
  | .malformed _ reason => .malformed (some id) reason
  | e => e

namespace Share

/-- The point that a share denotes. -/
def point (limit : Int) (s : Share) : Except Fault Point :=
  match valueOf limit s.base s.value s.id with
  | .ok y => .ok ⟨s.id, y⟩
  | .error e => .error (e.inShare s.id)

/-- The points of all shares, in order. None is worked out if two shares have the same number. -/
def points (limit : Int) (shares : List Share) : Journal (List Point) := do
  match firstRepeat? (· == ·) [] (shares.map Share.id) with
  | some id => throw (.duplicateShare id)
  | none =>
    let points ← Journal.ofOutcome (shares.mapM (point limit))
    Journal.report (.sharesDecoded points.length)
    return points

end Share

end Quorum
