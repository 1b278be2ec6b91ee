import Quorum.Numeral.Literal
import Quorum.Text.Base64
import Quorum.Yaml.Cursor
import Quorum.Yaml.Tag

/-!
# Values of YAML scalars

The value that the code points of a scalar write, by the kind of the scalar. A text that is
marked as a number without writing one is refused, and so is a day that no calendar has.
-/

namespace Quorum.Yaml

/-- The characters with these code points; one that is no character is replaced. -/
def charsOf (codes : List Nat) : List Char :=
  codes.map fun n => if n.isValidChar then Char.ofNat n else '\uFFFD'

/-! ## Integers -/

/-- Numbers between colons as one number in base sixty. -/
def sexagesimal (parts : List Int) : Int :=
  parts.foldl (fun v d => v * 60 + d) 0

/-- An integer in a base. -/
def readLiteral (base : Nat) (codes : List Nat) : Except Refusal Int :=
  match Numeral.literal? base (charsOf codes) with
  | some v => .ok v
  | none => .error (.notInteger base codes)

/-- The value of an integer without its sign: what stands in front tells the base, and colons
part the places of base sixty. -/
def magnitudeOf (codes : List Nat) : Except Refusal Int :=
  match charsOf codes with
  | ['0'] => .ok 0
  | '0' :: 'b' :: _ => readLiteral 2 (codes.drop 2)
  | '0' :: 'x' :: _ => readLiteral 16 (codes.drop 2)
  | '0' :: _ => readLiteral 8 codes
  | _ => sexagesimal <$> (Text.splitAll ':'.toNat codes).mapM (readLiteral 10)

/-- The value of an integer; underscores do not count. -/
def intOf (codes : List Nat) : Except Refusal Int :=
  let codes := codes.filter (· != '_'.toNat)
  match charsOf codes with
  | [] => .error .noDigits
  | '-' :: _ => (- ·) <$> magnitudeOf (codes.drop 1)
  | '+' :: _ => magnitudeOf (codes.drop 1)
  | _ => magnitudeOf codes

/-! ## Floating-point numbers -/

/-- Digits with a point, and an exponent, as the digits and the power of ten. -/
def decimalParts? (s : List Char) : Option (Nat × Int) :=
  let whole := s.takeWhile Char.isDigit
  let rest := s.dropWhile Char.isDigit
  let (fraction, rest) := match rest with
    | '.' :: r => (r.takeWhile Char.isDigit, r.dropWhile Char.isDigit)
    | _ => ([], rest)
  let exponent? : Option Int := match rest with
    | [] => some 0
    | c :: r =>
      let (negative, digits) := Numeral.splitSign r
      if (c == 'e' || c == 'E') && isRunOf Char.isDigit digits then
        some (Numeral.signed negative (Numeral.magnitude 10 digits))
      else none
  if whole.isEmpty && fraction.isEmpty then none
  else exponent?.map fun e => (Numeral.magnitude 10 (whole ++ fraction), e - fraction.length)

/-- A floating-point number without a sign, between blanks. -/
def readDecimal (s : List Char) : Except Refusal Binary64 :=
  match decimalParts? (Numeral.trimLiteral s) with
  | some (digits, exponent) => .ok (.ofDecimal false digits exponent)
  | none => .error (.notFloat s)

/-- A floating-point number between blanks, with a sign, or one of the names of those that are no
decimals. Digits may be of any script. -/
def readFloat (s : List Char) : Except Refusal Binary64 :=
  let digit (c : Char) : Char := ((Text.digitValue? c).map Nat.digitChar).getD c
  let (negative, t) := Numeral.splitSign ((Numeral.trimLiteral s).map digit)
  let value? : Option Binary64 :=
    if t == "inf".toList || t == "infinity".toList then some (.infinity false)
    else if t == "nan".toList then some .nan
    else (decimalParts? t).map fun (digits, exponent) => .ofDecimal false digits exponent
  match value? with
  | some v => .ok (if negative then v.negate else v)
  | none => .error (.notFloat s)

/-- Numbers between colons, the last place first, as one number in base sixty. -/
def sexagesimalFloat (parts : List Binary64) : Binary64 :=
  (parts.foldl (fun (acc, weight) d => (Binary64.addScaled acc d weight, weight * 60))
    (Binary64.finite false 0 (-1074), 1)).1

/-- The value of a floating-point number; underscores do not count. -/
def floatOf (s : List Char) : Except Refusal Binary64 :=
  let digits := (s.filter (· != '_')).map Char.toLower
  let (negative, t) := Numeral.splitSign digits
  let value : Except Refusal Binary64 :=
    if digits.isEmpty then .error .noDigits
    else if t == ".inf".toList then .ok (.infinity false)
    else if t == ".nan".toList then .ok .nan
    else if t.contains ':' then
      (fun parts => sexagesimalFloat parts.reverse) <$> (Text.splitAll ':' t).mapM readDecimal
    else readFloat t
  (fun v => if negative then v.negate else v) <$> value

/-! ## Kinds -/

/-- The value of a day or moment, if its fields are in their ranges. -/
def timeOf (t : Time) : Except Refusal Scalar :=
  match t with
  | .day d =>
    match d.check with
    | .ok () => .ok (.date d)
    | .error flaw => .error (.calendar flaw)
  | .moment m =>
    match m.check with
    | .ok () => .ok (.moment m)
    | .error flaw => .error (.calendar flaw)

/-- The bytes that a text of ASCII writes. -/
def bytesOf? (codes : List Nat) : Option (List UInt8) :=
  if codes.all (· < 0x80) then Text.Base64.decode? (charsOf codes) else none

def refuse {α : Type} (r : Except Refusal α) : Except Stop α :=
  r.mapError .refused

/-- The value of a scalar. -/
def scalarOf (line : Nat) (tag : Tag) (codes : List Nat) : Except Stop Scalar :=
  let s := charsOf codes
  match tag with
  | .text => .ok (.ofCodes codes)
  | .null => .ok .null
  | .bool =>
    match truth? s with
    | some b => .ok (.bool b)
    | none => .error (.refused (.notTruth (s.map Char.toLower)))
  | .int => .int <$> refuse (intOf codes)
  | .float => .float <$> refuse (floatOf s)
  | .moment =>
    match readTime? (dropFinalBreak s) with
    | some t => refuse (timeOf t)
    | none => .error (.refused .notTime)
  | .binary =>
    match bytesOf? codes with
    | some bytes => .ok (.bytes bytes)
    | none => .error (.misplaced line)
  | .sequence | .mapping | .set | .pairs | .other _ => .error (.misplaced line)

end Quorum.Yaml
