import Quorum.Calendar
import Quorum.Text.Pieces

/-!
# Kinds of scalars

A plain scalar without a tag has the kind that its text shows: a truth value, a number, a
day or moment, nothing, or else a text. `Tag.ofPlain` decides by the forms of YAML 1.1.
-/

namespace Quorum.Yaml

/-- The kind of a node. -/
inductive Tag where
  | null | bool | int | float | moment | text | binary | sequence | mapping | set | pairs
  | other (uri : List Char)
  deriving DecidableEq, Repr

/-! ## Forms of plain scalars -/

def isDigitOrUnderscore (c : Char) : Bool :=
  c.isDigit || c == '_'

/-- Whether the text has characters and all of them pass `p`. -/
def isRunOf (p : Char → Bool) (s : List Char) : Bool :=
  !s.isEmpty && s.all p

/-- Digits and underscores that start with a digit. -/
def isDigits (s : List Char) : Bool :=
  match s with
  | c :: r => c.isDigit && r.all isDigitOrUnderscore
  | [] => false

/-- Digits and underscores that start with a digit other than zero. -/
def isWhole (s : List Char) : Bool :=
  isDigits s && s.head? != some '0'

/-- A number of minutes or seconds. -/
def isSixtieth (s : List Char) : Bool :=
  match s with
  | [c] => c.isDigit
  | [c, d] => '0' ≤ c && c ≤ '5' && d.isDigit
  | _ => false

/-- A text without a plus or minus sign in front. -/
def dropSign (s : List Char) : List Char :=
  (Numeral.splitSign s).2

/-- An integer in base sixty, between colons. -/
def isSexagesimal (s : List Char) : Bool :=
  match Text.splitAll ':' s with
  | first :: second :: more => isWhole first && (second :: more).all isSixtieth
  | _ => false

/-- The forms of integers. -/
def isInt (s : List Char) : Bool :=
  match dropSign s with
  | ['0'] => true
  | '0' :: 'b' :: r => isRunOf (fun c => c == '0' || c == '1' || c == '_') r
  | '0' :: 'x' :: r =>
    isRunOf (fun c => c.isDigit || ('a' ≤ c && c ≤ 'f') || ('A' ≤ c && c ≤ 'F') || c == '_') r
  | '0' :: r => isRunOf (fun c => ('0' ≤ c && c ≤ '7') || c == '_') r
  | t => isWhole t || isSexagesimal t

/-- A signed exponent, or nothing. -/
def isExponent (s : List Char) : Bool :=
  match s with
  | [] => true
  | c :: sign :: r =>
    (c == 'e' || c == 'E') && (sign == '+' || sign == '-') && isRunOf Char.isDigit r
  | _ => false

/-- Digits behind a point, and an exponent. -/
def isFraction (s : List Char) : Bool :=
  isExponent (s.dropWhile isDigitOrUnderscore)

/-- A number with a point in it. -/
def isPointed (s : List Char) : Bool :=
  match s.dropWhile isDigitOrUnderscore with
  | '.' :: r => isDigits (s.takeWhile isDigitOrUnderscore) && isFraction r
  | _ => false

/-- A number in base sixty whose last place has a point. -/
def isPointedSexagesimal (s : List Char) : Bool :=
  match (Text.splitAll ':' s).reverse with
  | last :: middle :: more =>
    let places := (middle :: more).reverse
    let whole := last.takeWhile (· != '.')
    isDigits (places.headD []) && (places.drop 1).all isSixtieth && isSixtieth whole &&
      match last.dropWhile (· != '.') with
      | '.' :: r => r.all isDigitOrUnderscore
      | _ => false
  | _ => false

/-- The forms of floating-point numbers. -/
def isFloat (s : List Char) : Bool :=
  let t := dropSign s
  [".inf", ".Inf", ".INF"].any (·.toList == t) || [".nan", ".NaN", ".NAN"].any (·.toList == s) ||
    isPointed t || isPointedSexagesimal t ||
    match s with
    | '.' :: c :: r => c.isDigit && isFraction r
    | _ => false

/-- The truth value of a word. -/
def truth? (s : List Char) : Option Bool :=
  let word := String.ofList (s.map Char.toLower)
  if word = "yes" || word = "true" || word = "on" then some true
  else if word = "no" || word = "false" || word = "off" then some false
  else none

/-- Small letters, capitals, or small letters after a capital. -/
def isUniformCase (s : List Char) : Bool :=
  s.all Char.isLower || s.all Char.isUpper ||
    match s with
    | c :: r => c.isUpper && r.all Char.isLower
    | [] => false

/-- The forms of truth values. -/
def isBool (s : List Char) : Bool :=
  (truth? s).isSome && isUniformCase s

/-- The forms of nothing. -/
def isNull (s : List Char) : Bool :=
  ["", "~", "null", "Null", "NULL"].any (·.toList == s)

/-! ## Days and moments -/

/-- A number of at least `least` and at most `most` digits, and what follows it. -/
def readNumber? (least most : Nat) (s : List Char) : Option (Nat × Nat × List Char) :=
  let digits := (s.take most).takeWhile Char.isDigit
  if digits.length < least then none
  else some (digits.length, Numeral.magnitude 10 digits,
    s.drop digits.length)

/-- The rest of a text after a character that it must start with. -/
def expect? (c : Char) : List Char → Option (List Char)
  | d :: r => if d == c then some r else none
  | [] => none

/-- What stands between a day and the time: a letter or blanks. -/
def dropTimeMark? (s : List Char) : Option (List Char) :=
  match s with
  | 'T' :: r | 't' :: r => some r
  | c :: r =>
    if c == ' ' || c == '\t' then some (r.dropWhile fun x => x == ' ' || x == '\t') else none
  | [] => none

/-- The microseconds of a fraction; digits past the sixth do not count. -/
def microseconds (digits : List Char) : Nat :=
  let kept := digits.take 6
  Numeral.magnitude 10 kept * Nat.pow 10 (6 - kept.length)

/-- An optional fraction of a second, in microseconds, and what follows it. -/
def readSecondFraction (s : List Char) : Nat × List Char :=
  match s with
  | '.' :: r => (microseconds (r.takeWhile Char.isDigit), r.dropWhile Char.isDigit)
  | _ => (0, s)

/-- The minutes of an offset, which may be left out. -/
def readOffsetMinutes? (s : List Char) : Option Nat :=
  match s with
  | [] => some 0
  | ':' :: r =>
    match readNumber? 2 2 r with
    | some (_, minutes, []) => some minutes
    | _ => none
  | _ => none

/-- The offset from universal time at the end of a moment, if there is one. -/
def readOffset? (s : List Char) : Option (Option Int) :=
  match s with
  | [] => some none
  | _ =>
    match s.dropWhile fun x => x == ' ' || x == '\t' with
    | ['Z'] => some (some 0)
    | sign :: r =>
      if sign == '+' || sign == '-' then do
        let (_, hours, r) ← readNumber? 1 2 r
        let minutes ← readOffsetMinutes? r
        return some (Numeral.signed (sign == '-') (hours * 60 + minutes))
      else none
    | [] => none

/-- A day, or a moment of a day. -/
inductive Time where
  | day (value : Calendar.Date)
  | moment (value : Calendar.Moment)
  deriving DecidableEq, Repr

/-- A day, or a day and a time. -/
def readTime? (s : List Char) : Option Time := do
  let (_, year, s) ← readNumber? 4 4 s
  let s ← expect? '-' s
  let (monthWidth, month, s) ← readNumber? 1 2 s
  let s ← expect? '-' s
  let (dayWidth, day, s) ← readNumber? 1 2 s
  let date : Calendar.Date := ⟨year, month, day⟩
  if s.isEmpty then
    if monthWidth = 2 ∧ dayWidth = 2 then some (.day date) else none
  else do
    let s ← dropTimeMark? s
    let (_, hour, s) ← readNumber? 1 2 s
    let s ← expect? ':' s
    let (_, minute, s) ← readNumber? 2 2 s
    let s ← expect? ':' s
    let (_, second, s) ← readNumber? 2 2 s
    let (micro, s) := readSecondFraction s
    let offset ← readOffset? s
    return .moment ⟨date, hour, minute, second, micro, offset⟩

/-! ## Tags -/

/-- A text without a line feed at its end, which does not count in a form. -/
def dropFinalBreak (s : List Char) : List Char :=
  if s.length > 1 && s.getLast? == some '\n' then s.dropLast else s

/-- Where the tags of the common kinds start. -/
def commonTag : List Char := "tag:yaml.org,2002:".toList

namespace Tag

/-- The common kinds by name. -/
def common : List (String × Tag) :=
  [("null", null), ("bool", bool), ("int", int), ("float", float), ("timestamp", moment),
    ("str", text), ("binary", binary), ("seq", sequence), ("map", mapping), ("set", set),
    ("omap", pairs), ("pairs", pairs)]

/-- The kind that a full tag names. -/
def ofUri (uri : List Char) : Tag :=
  match common.find? fun (name, _) => commonTag ++ name.toList == uri with
  | some (_, tag) => tag
  | none => other uri

/-- The kind that the text of a plain scalar shows. -/
def ofPlain (s : List Char) : Tag :=
  let t := dropFinalBreak s
  if isBool t then bool
  else if isFloat t then float
  else if isInt t then int
  else if t == "<<".toList then ofUri (commonTag ++ "merge".toList)
  else if isNull t then null
  else if (readTime? t).isSome then moment
  else if t == "=".toList then ofUri (commonTag ++ "value".toList)
  else text

end Tag

end Quorum.Yaml
