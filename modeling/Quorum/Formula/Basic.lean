import Quorum.Numeral.Decimal
import Quorum.Text.Pieces

/-!
# Formulas for share values

A share's value may be given by a small formula in one variable, which stands for
the share's number. A formula has one of three shapes, and `Formula.render` writes
it down again.
-/

namespace Quorum

/-- What a formula can do with its operands. -/
inductive Operation where
  | multiply | add | subtract | gcd | lcm | power
  deriving DecidableEq, Repr

namespace Operation

/-- All operations. -/
def all : List Operation :=
  [multiply, add, subtract, gcd, lcm, power]

/-- The name under which a formula calls the operation. -/
def name : Operation → String
  | multiply => "multiply"
  | add => "add"
  | subtract => "subtract"
  | gcd => "gcd"
  | lcm => "lcm"
  | power => "power"

/-- The operation of a name. -/
def ofName? (s : List Char) : Option Operation :=
  all.find? fun f => f.name.toList == s

end Operation

/-- A formula: a number, an operation on operands that are still texts, or a text whose
variables are to be replaced by the digits of the share's number. -/
inductive Formula where
  | literal (value : Int)
  | call (operation : Operation) (operands : List (List Char))
  | template (text : List Char)
  deriving DecidableEq, Repr

namespace Formula

/-- The letter that stands for the share's number. -/
def variableLetter : Char := 'x'

/-- The formula as a text. -/
def render : Formula → List Char
  | literal v => Numeral.decimal v
  | call f operands => f.name.toList ++ '(' :: Text.joinWith ',' operands ++ [')']
  | template t => t

end Formula

end Quorum
