/-!
# Numbers of 53 significant bits

Binary floating-point numbers of the usual 64-bit format, as exact values:
`Binary64.ofRatio` takes a fraction to the nearest of them, a tie to the even
neighbour, and `Binary64.ofDecimal` a decimal numeral.
-/

namespace Quorum

/-- A binary floating-point number. A finite one has the magnitude `mantissa * 2 ^ exponent`,
with a mantissa below `2 ^ 53` and the least exponent that allows it, at least `-1074`. -/
inductive Binary64 where
  | nan
  | infinity (negative : Bool)
  | finite (negative : Bool) (mantissa : Nat) (exponent : Int)
  deriving DecidableEq, Repr

namespace Binary64

/-- The quotient rounded to the nearest natural number, a tie to the even one. -/
def roundDiv (num den : Nat) : Nat :=
  let q := num / den
  let r := num % den
  if 2 * r < den then q
  else if den < 2 * r then q + 1
  else if q % 2 = 0 then q else q + 1

/-- The fraction `num / den` over `2 ^ e`, with the power moved to where it is a whole number. -/
def rescale (num den : Nat) (e : Int) : Nat × Nat :=
  (num * Nat.pow 2 (-e).toNat, den * Nat.pow 2 e.toNat)

/-- The greatest `e` with `2 ^ e ≤ num / den`, for positive `num` and `den`. -/
def binaryExponent (num den : Nat) : Int :=
  let e : Int := (num.log2 : Int) - den.log2
  let (n, d) := rescale num den e
  if n < d then e - 1 else e

/-- The number nearest to the fraction `num / den` with the given sign. -/
def ofRatio (negative : Bool) (num den : Nat) : Binary64 :=
  if num = 0 then finite negative 0 (-1074)
  else
    let q := max (binaryExponent num den - 52) (-1074)
    let (n, d) := rescale num den q
    let m := roundDiv n d
    let (m, q) := if m = Nat.pow 2 53 then (Nat.pow 2 52, q + 1) else (m, q)
    if 971 < q then infinity negative else finite negative m q

/-- The number nearest to `digits * 10 ^ exponent`. Exponents far outside the range are
settled from the size of the digits alone. -/
def ofDecimal (negative : Bool) (digits : Nat) (exponent : Int) : Binary64 :=
  if digits = 0 then finite negative 0 (-1074)
  else
    let size := exponent + (digits.log2 * 30103 / 100000 : Nat)
    if 400 < size then infinity negative
    else if size < -400 then finite negative 0 (-1074)
    else ofRatio negative (digits * Nat.pow 10 exponent.toNat) (Nat.pow 10 (-exponent).toNat)

/-- The magnitude of a finite number as a fraction. -/
def ratio? : Binary64 → Option (Nat × Nat)
  | finite _ m e => some (m * Nat.pow 2 e.toNat, Nat.pow 2 (-e).toNat)
  | _ => none

/-- The integer that the number is, if it is one. -/
def integer? : Binary64 → Option Int
  | finite negative m e =>
    let den := Nat.pow 2 (-e).toNat
    if m % den = 0 then
      let n : Int := (m * Nat.pow 2 e.toNat / den : Nat)
      some (if negative then -n else n)
    else none
  | _ => none

/-- The number with the other sign. -/
def negate : Binary64 → Binary64
  | nan => nan
  | infinity negative => infinity !negative
  | finite negative m e => finite (!negative) m e

/-- Whether two numbers count as equal: zeros whatever their sign, and a NaN with itself. -/
def same : Binary64 → Binary64 → Bool
  | finite _ 0 _, finite _ 0 _ => true
  | a, b => a == b

/-- `acc + digit * weight`, each of the two operations rounded, for numbers that are not
negative. -/
def addScaled (acc digit : Binary64) (weight : Nat) : Binary64 :=
  match acc.ratio?, digit.ratio?, (ofRatio false weight 1).ratio? with
  | some (n, d), some (m, c), some (w, v) =>
    match (ofRatio false (m * w) (c * v)).ratio? with
    | some (p, q) => ofRatio false (n * q + p * d) (d * q)
    | none => infinity false
  | _, _, _ => infinity false

end Binary64

end Quorum
