import Quorum.Number.Binary64
import Quorum.Numeral.Decimal

/-!
# Shortest decimal text of a binary number

`Binary64.shortest` gives the fewest decimal digits that read back as the number, and
of the texts with that many digits the nearest one. `Binary64.display` lays them out: with
a point for decimal exponents from -4 to 15, with an exponent otherwise.
-/

namespace Quorum.Binary64

/-- The numbers that read back as the given one: an interval around it, in units of a
quarter of its last bit. -/
structure Neighbourhood where
  low : Nat
  middle : Nat
  high : Nat
  /-- The value of one unit is `2 ^ unit`. -/
  unit : Int
  /-- Whether the two ends belong to the interval. -/
  closed : Bool

/-- The interval that rounds to `m * 2 ^ e`; it reaches less far down from a power of two. -/
def neighbourhood (m : Nat) (e : Int) : Neighbourhood where
  low := if m = Nat.pow 2 52 && e != -1074 then 4 * m - 1 else 4 * m - 2
  middle := 4 * m
  high := 4 * m + 2
  unit := e - 2
  closed := m % 2 == 0

/-- The factors that take multiples of `2 ^ unit` and of `10 ^ place` to one scale. -/
def scales (unit place : Int) : Nat × Nat :=
  (Nat.pow 2 unit.toNat * Nat.pow 10 (-place).toNat,
    Nat.pow 10 place.toNat * Nat.pow 2 (-unit).toNat)

/-- The multiple of `10 ^ place` inside the interval that is nearest to its middle. -/
def gridPoint? (v : Neighbourhood) (place : Int) : Option Nat :=
  let (unit, grid) := scales v.unit place
  let middle := v.middle * unit
  let below := middle / grid
  let holds (t : Nat) : Bool :=
    if v.closed then v.low * unit ≤ t * grid && t * grid ≤ v.high * unit
    else v.low * unit < t * grid && t * grid < v.high * unit
  let down := middle - below * grid
  let up := (below + 1) * grid - middle
  match holds below, holds (below + 1) with
  | true, true =>
    some (if down < up then below
      else if up < down then below + 1
      else if below % 2 = 0 then below else below + 1)
  | true, false => some below
  | false, true => some (below + 1)
  | false, false => none

/-- The least `p` with `m * 2 ^ e < 10 ^ p`, for a positive `m`. -/
def decimalPoint (m : Nat) (e : Int) : Int :=
  let p := ((m.log2 : Int) + e) * 30103 / 100000 + 1
  let (n, d) := scales e p
  if m * n < d then p else p + 1

/-- The grids of one digit, of two digits, and so on, in turn, until one has a point. -/
def shortestFrom (v : Neighbourhood) (point : Int) : List Nat → Nat × Int
  | [] => (v.middle, point)
  | count :: r =>
    let place := point - count
    match gridPoint? v place with
    | some t => (t, place)
    | none => shortestFrom v point r

/-- The shortest decimal `t * 10 ^ p` that reads back as `m * 2 ^ e`, as the pair of `t` and
`p`. Seventeen digits always suffice. -/
def shortest (m : Nat) (e : Int) : Nat × Int :=
  shortestFrom (neighbourhood m e) (decimalPoint m e) (List.range' 1 17)

/-- Digits with a point before or after them, or among them; `point` digits stand before it. -/
def showPositional (digits : List Char) (point : Int) : List Char :=
  if point ≤ 0 then '0' :: '.' :: List.replicate (-point).toNat '0' ++ digits
  else
    let whole := digits.take point.toNat
    let rest := digits.drop point.toNat
    whole ++ List.replicate (point.toNat - whole.length) '0' ++ '.' ::
      (if rest.isEmpty then ['0'] else rest)

/-- Digits with a point after the first and an exponent of at least two digits. -/
def showScientific (digits : List Char) (point : Int) : List Char :=
  let exponent := point - 1
  let written := Numeral.natDigits exponent.natAbs
  let padded := if written.length < 2 then '0' :: written else written
  let fraction := match digits with
    | c :: [] => [c]
    | c :: r => c :: '.' :: r
    | [] => []
  fraction ++ 'e' :: (if exponent < 0 then '-' else '+') :: padded

/-- The digits of a decimal `t * 10 ^ p`, zeros at the end dropped, laid out. -/
def showDecimal (t : Nat) (p : Int) : List Char :=
  let written := Numeral.natDigits t
  let point := (written.length : Int) + p
  let kept := (written.reverse.dropWhile (· == '0')).reverse
  let digits := if kept.isEmpty then ['0'] else kept
  if -4 < point && point ≤ 16 then showPositional digits point else showScientific digits point

/-- The number as a text. -/
def display : Binary64 → List Char
  | nan => ['n', 'a', 'n']
  | infinity negative => (if negative then ['-'] else []) ++ ['i', 'n', 'f']
  | finite negative m e =>
    (if negative then ['-'] else []) ++
      if m = 0 then ['0', '.', '0']
      else
        let (t, p) := shortest m e
        showDecimal t p

end Quorum.Binary64
