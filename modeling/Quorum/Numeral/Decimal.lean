import Quorum.Numeral.Positional
import Quorum.Text.Blank
import Quorum.Text.Digit

/-!
# Decimal numerals

Integers in decimal notation. They are read in the digits of any script, which may
mix inside one numeral, and written in ASCII digits.

* `natural?_eq_some_iff`: the unsigned numerals are the nonempty texts of digits.
-/

namespace Quorum.Numeral

open Quorum.Text (digitValue? trim)

/-- Reads a nonempty text of decimal digits. -/
def natural? (s : List Char) : Option Nat :=
  if s.isEmpty then none else (s.mapM digitValue?).map (ofDigits 10)

/-- Reads an optional sign and decimal digits. -/
def integer? (s : List Char) : Option Int :=
  let (negative, digits) := splitSign s
  (natural? digits).map (signed negative)

/-- Reads an unsigned numeral between blanks. -/
def paddedNatural? (s : List Char) : Option Nat :=
  natural? (trim s)

/-- Whether the text is an optional sign and ASCII digits. -/
def isAsciiInteger (s : List Char) : Bool :=
  let digits := (splitSign s).2
  !digits.isEmpty && digits.all Char.isDigit

/-- The digits of a number. -/
def natDigits (n : Nat) : List Char :=
  (Nat.repr n).toList

/-- The number in decimal notation, with a minus sign if it is negative. -/
def decimal (v : Int) : List Char :=
  if v < 0 then '-' :: natDigits v.natAbs else natDigits v.natAbs

theorem natural?_eq_some_iff {s : List Char} {n : Nat} :
    natural? s = some n ↔ s ≠ [] ∧ ∃ ds, s.mapM digitValue? = some ds ∧ ofDigits 10 ds = n := by
  cases s <;> simp [natural?, -List.mapM_cons, -List.mapM_nil]

end Quorum.Numeral
