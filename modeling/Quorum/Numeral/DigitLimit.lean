import Quorum.Numeral.Decimal

/-!
# Limits on digits

How many decimal digits may be read as a number, and how many a number may have that is written in
them. Work on shares is done with the limit lifted, so that it takes numbers of any size; elsewhere
the limit of the caller stands.
-/

namespace Quorum

/-- How many digits a number may have that is read from decimal digits or written in them. -/
inductive DigitLimit where
  | lifted
  | most (count : Nat)
  deriving DecidableEq, Repr

/-- How many digits a number may have where nobody has said otherwise. -/
def mostDigits : Nat := 4300

namespace Numeral

/-- The number of digits in which a number is written; its sign is not counted. -/
def digitCount (v : Int) : Nat :=
  (natDigits v.natAbs).length

end Numeral

namespace DigitLimit

def standard : DigitLimit := .most mostDigits

/-- The number of digits that may be, if so many are too many. -/
def exceeded? (digits : DigitLimit) (count : Nat) : Option Nat :=
  match digits with
  | lifted => none
  | most m => if m < count then some m else none

end DigitLimit

end Quorum
