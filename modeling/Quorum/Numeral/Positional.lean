/-!
# Positional numerals

Numerals in a base up to 36, written with the ASCII digits and letters. A letter
counts from ten upwards in either case.

* `isNumeral_iff`: a numeral is an optional sign and at least one digit, all below
  the base.
-/

namespace Quorum.Numeral

/-- Splits a text at an optional sign; the flag tells a minus sign. -/
def splitSign : List Char → Bool × List Char
  | '-' :: r => (true, r)
  | '+' :: r => (false, r)
  | s => (false, s)

/-- A magnitude with its sign. -/
def signed (negative : Bool) (n : Nat) : Int :=
  if negative then -(n : Int) else n

/-- The value of an ASCII digit or letter. -/
def letterValue? (c : Char) : Option Nat :=
  if c.isDigit then some (c.toNat - '0'.toNat)
  else if c.isLower then some (c.toNat - 'a'.toNat + 10)
  else if c.isUpper then some (c.toNat - 'A'.toNat + 10)
  else none

/-- The number whose digits, the most significant first, are `ds`. -/
def ofDigits (base : Nat) (ds : List Nat) : Nat :=
  ds.foldl (fun v d => v * base + d) 0

/-- Whether `c` is a digit of the base. -/
def isDigitOf (base : Int) (c : Char) : Bool :=
  match letterValue? c with
  | some d => (d : Int) < base
  | none => false

/-- Whether the text is an optional sign and at least one digit, all below the base. -/
def isNumeral (base : Int) (s : List Char) : Bool :=
  let digits := (splitSign s).2
  !digits.isEmpty && digits.all (isDigitOf base)

/-- The positional value of a text of digits. -/
def magnitude (base : Nat) (digits : List Char) : Nat :=
  ofDigits base (digits.filterMap letterValue?)

/-- The positional value of a numeral. -/
def value (base : Nat) (s : List Char) : Int :=
  let (negative, digits) := splitSign s
  signed negative (magnitude base digits)

theorem isNumeral_iff {base : Int} {s : List Char} :
    isNumeral base s = true ↔
      (splitSign s).2 ≠ [] ∧ ∀ c ∈ (splitSign s).2, isDigitOf base c = true := by
  simp [isNumeral]

end Quorum.Numeral
