import Quorum.Numeral.DigitLimit

/-!
# Integer literals

Integers as people write them in settings and data: blanks around, a sign, a letter that
repeats the base (`0x1f` in base sixteen), digits of any script, and single underscores
between digits.
-/

namespace Quorum.Numeral

/-- The blanks around a literal: all but the four information separators. -/
def isLiteralBlank (c : Char) : Bool :=
  Text.isBlank c && !(0x1C ≤ c.toNat && c.toNat ≤ 0x1F)

/-- A text without the blanks around a literal. -/
def trimLiteral (s : List Char) : List Char :=
  ((s.dropWhile isLiteralBlank).reverse.dropWhile isLiteralBlank).reverse

/-- The value of a digit in the base: a decimal digit of any script, or a letter. -/
def literalDigit? (base : Nat) (c : Char) : Option Nat :=
  ((Text.digitValue? c).or (letterValue? c)).filter (· < base)

/-- Whether a letter after a zero repeats the base. -/
def repeatsBase (base : Nat) (c : Char) : Bool :=
  (base == 2 && (c == 'b' || c == 'B')) || (base == 8 && (c == 'o' || c == 'O')) ||
    (base == 16 && (c == 'x' || c == 'X'))

/-- The digits of a literal without the repetition of the base and the underscore after it. -/
def dropBaseMark (base : Nat) : List Char → List Char
  | '0' :: c :: r =>
    if repeatsBase base c then
      match r with
      | '_' :: r' => r'
      | _ => r
    else '0' :: c :: r
  | s => s

/-- Digits with single underscores between them. -/
def underscoredDigits? (base : Nat) : List Char → Option (List Nat)
  | [] => none
  | [c] => (literalDigit? base c).map ([·])
  | c :: '_' :: r => do
    let d ← literalDigit? base c
    return d :: (← underscoredDigits? base r)
  | c :: r => do
    let d ← literalDigit? base c
    return d :: (← underscoredDigits? base r)

/-- The sign and the digits of a literal. -/
def literalDigits? (base : Nat) (s : List Char) : Option (Bool × List Nat) :=
  let (negative, digits) := splitSign (trimLiteral s)
  (underscoredDigits? base (dropBaseMark base digits)).map (negative, ·)

/-- The value of a literal. -/
def literal? (base : Nat) (s : List Char) : Option Int :=
  (literalDigits? base s).map fun (negative, digits) => signed negative (ofDigits base digits)

/-- The value of a literal with no more digits than the limit allows, zeros in front counted. -/
def boundedLiteral? (limit : DigitLimit) (base : Nat) (s : List Char) : Option Int :=
  match literalDigits? base s with
  | some (negative, digits) =>
    if (limit.exceeded? digits.length).isNone then some (signed negative (ofDigits base digits))
    else none
  | none => none

end Quorum.Numeral
