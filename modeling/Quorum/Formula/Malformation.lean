import Quorum.Formula.Basic

/-!
# What can be wrong with a share's value

The reasons for which a text gives no value. A reason names at most a base, an
operation or the place of an operand: it never holds a part of the text, which is
secret.
-/

namespace Quorum

/-- Why a text is no value. -/
inductive Malformation where
  /-- Nothing but blanks. -/
  | blank
  /-- The text before the first parenthesis is no operation's name. -/
  | unknownOperation
  /-- A parenthesis is never closed at the end, or one is closed that was not opened. -/
  | unbalanced
  /-- A parenthesis inside the operands. -/
  | nested
  /-- Neither a number nor a call, and without a variable. -/
  | formless
  /-- The operand at this place, counted from one, has no characters. -/
  | operandMissing (place : Nat)
  /-- The operand at this place is neither a number nor the variable. -/
  | operandNotInteger (place : Nat)
  /-- A template that is no number once its variables are replaced. -/
  | templateNotInteger
  /-- An operation without operands that needs one. -/
  | operandsNeeded (operation : Operation)
  /-- A power with other than two operands. -/
  | powerArity
  | exponentNegative
  | exponentTooLarge
  /-- A decimal numeral that is none in the share's base. -/
  | notNumeral (base : Int)
  deriving DecidableEq, Repr

namespace Malformation

/-- The reason in words. -/
def message : Malformation → String
  | blank => "empty expression"
  | unknownOperation => "unknown function name"
  | unbalanced => "unbalanced parentheses"
  | nested => "nested function calls are not supported"
  | formless => "not an integer literal or function call"
  | operandMissing place => s!"operand {place} is empty"
  | operandNotInteger place => s!"operand {place} is not an integer literal"
  | templateNotInteger => "substituted value is not an integer literal"
  | operandsNeeded operation => s!"{operation.name} needs at least one operand"
  | powerArity => "power takes exactly two operands"
  | exponentNegative => "power exponent must be non-negative"
  | exponentTooLarge => "power exponent is too large"
  | notNumeral base => s!"value is not a valid base-{base} numeral"

/-- The numbers that the message shows. The places of operands are shown with the limit on digits
lifted, so they are left out. -/
def numbers : Malformation → List Int
  | notNumeral base => [base]
  | _ => []

end Malformation

end Quorum
