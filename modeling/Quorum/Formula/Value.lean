import Quorum.Formula.Reader

/-!
# Values of formulas

`Formula.value` computes a formula for a given value of the variable, with a limit on
the exponents of powers. `integerPower_eq` says that the short cuts for the bases
whose powers stay small change nothing, and `leastMultiple_eq` that the quotient of a
product is the least common multiple.
-/

namespace Quorum

/-- The power of an integer; those of 0, 1 and -1 take no work however large the exponent is. -/
def integerPower (b : Int) (e : Nat) : Int :=
  if b = 1 then 1
  else if b = -1 then if e % 2 = 0 then 1 else -1
  else if b = 0 then if e = 0 then 1 else 0
  else Int.pow b e

theorem integerPower_eq (b : Int) (e : Nat) : integerPower b e = Int.pow b e := by
  change integerPower b e = b ^ e
  have one : (1 : Int) ^ e = 1 := by
    induction e with
    | zero => rfl
    | succ e ih => rw [Int.pow_succ, ih]; rfl
  unfold integerPower
  split
  · simp_all
  split
  · subst b
    rw [Int.neg_pow, one]
    split <;> rename_i h
    · rw [h]; rfl
    · rw [show e % 2 = 1 by omega]; rfl
  split
  · subst b
    cases e with
    | zero => rfl
    | succ e => rw [Int.pow_succ]; simp
  · rfl

/-- The least common multiple: the product without its sign over the greatest common divisor, and
zero if one of the two is zero. -/
def leastMultiple (a b : Int) : Int :=
  if a = 0 ∨ b = 0 then 0 else ((a * b).natAbs / Int.gcd a b : Nat)

theorem leastMultiple_eq (a b : Int) : leastMultiple a b = Int.lcm a b := by
  unfold leastMultiple
  split
  · rename_i h
    rcases h with rfl | rfl <;> simp
  · rw [Int.natAbs_mul, Int.gcd, Int.lcm, Nat.lcm_eq_mul_div]

namespace Operation

/-- The largest exponent of a power when none is set. -/
def defaultExponentLimit : Int := 2147483647

/-- The operation on the values of its operands. -/
def apply (limit : Int) : Operation → List Int → Except Malformation Int
  | multiply, vs => .ok (vs.foldl (· * ·) 1)
  | add, vs => .ok (vs.foldl (· + ·) 0)
  | subtract, v :: vs => .ok (vs.foldl (· - ·) v)
  | gcd, v :: vs => .ok (vs.foldl (fun a b => (Int.gcd a b : Int)) (v.natAbs : Int))
  | lcm, v :: vs => .ok (vs.foldl leastMultiple (v.natAbs : Int))
  | power, [b, e] =>
    if e < 0 then .error .exponentNegative
    else if limit < e then .error .exponentTooLarge
    else .ok (integerPower b e.toNat)
  | power, _ => .error .powerArity
  | f, [] => .error (.operandsNeeded f)

end Operation

namespace Formula

open Quorum.Numeral (decimal integer?)

/-- The value of the operand at a place, counted from one. -/
def operandValue (x : Int) (place : Nat) (operand : List Char) : Except Malformation Int :=
  if operand.isEmpty then .error (.operandMissing place)
  else if operand == [variableLetter] then .ok x
  else match integer? operand with
    | some v => .ok v
    | none => .error (.operandNotInteger place)

/-- The values of the operands from a place on; the first that has none decides. -/
def operandValues (x : Int) (place : Nat) : List (List Char) → Except Malformation (List Int)
  | [] => .ok []
  | s :: r => do
    let v ← operandValue x place s
    let vs ← operandValues x (place + 1) r
    return v :: vs

/-- The text with each variable replaced by the decimal numeral of `x`. -/
def substitute (x : Int) (t : List Char) : List Char :=
  t.flatMap fun c => if c == variableLetter then decimal x else [c]

/-- The value of the formula where the variable is `x`, with powers up to the exponent `limit`. -/
def value (limit x : Int) : Formula → Except Malformation Int
  | literal v => .ok v
  | call f operands => operandValues x 1 operands >>= f.apply limit
  | template t =>
    match integer? (substitute x t) with
    | some v => .ok v
    | none => .error .templateNotInteger

/-- Reads a formula and computes it. -/
def evaluate (limit x : Int) (s : List Char) : Except Malformation Int :=
  read s >>= value limit x

end Formula

end Quorum
