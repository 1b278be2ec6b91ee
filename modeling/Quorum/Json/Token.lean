import Quorum.Data

/-!
# Tokens of JSON

A JSON text as a sequence of tokens: punctuation, strings, and the scalars. Each token
knows the text from its first character on, which is where an error about it is placed.
The sequence ends at the first character that starts no token.
-/

namespace Quorum.Json

/-- White space between tokens. -/
def isSpace (c : Char) : Bool :=
  c == ' ' || c == '\t' || c == '\n' || c == '\r'

/-- What a token is. -/
inductive Kind where
  | openMapping | closeMapping | openList | closeList | colon | comma
  | text (value : Scalar)
  | scalar (value : Scalar)
  /-- A string that goes wrong where the given text starts. -/
  | brokenText (place : List Char)
  /-- A character that starts no token. -/
  | unknown
  deriving DecidableEq, Repr

/-- A token, and the text from its first character on. -/
structure Token where
  kind : Kind
  place : List Char
  deriving DecidableEq, Repr

/-! ## Strings -/

/-- The value of a hexadecimal digit. -/
def hexValue? (c : Char) : Option Nat :=
  if c.isDigit then some (c.toNat - '0'.toNat)
  else if 'a' ≤ c && c ≤ 'f' then some (c.toNat - 'a'.toNat + 10)
  else if 'A' ≤ c && c ≤ 'F' then some (c.toNat - 'A'.toNat + 10)
  else none

/-- The number of four hexadecimal digits. -/
def hexUnit? (a b c d : Char) : Option Nat := do
  let a ← hexValue? a
  let b ← hexValue? b
  let c ← hexValue? c
  let d ← hexValue? d
  return ((a * 16 + b) * 16 + c) * 16 + d

/-- The character that a backslash and this letter stand for. -/
def escaped? : Char → Option Char
  | '"' => some '"'
  | '\\' => some '\\'
  | '/' => some '/'
  | 'b' => some '\x08'
  | 'f' => some '\x0c'
  | 'n' => some '\n'
  | 'r' => some '\r'
  | 't' => some '\t'
  | _ => none

/-- Puts a code point in front of a string that has been read. -/
def consCode (n : Nat) : Except (List Char) (List Nat × List Char) →
    Except (List Char) (List Nat × List Char)
  | .ok (codes, rest) => .ok (n :: codes, rest)
  | .error place => .error place

/-- The code points of a string up to its closing quote, and the text after that. `opening`
is the text from the opening quote on, where a string that is not closed is said to be wrong.
An escape of four digits must be followed by a further character. -/
def readCodes (opening : List Char) : List Char → Except (List Char) (List Nat × List Char)
  | [] => .error opening
  | '"' :: rest => .ok ([], rest)
  | '\\' :: [] => .error opening
  | '\\' :: 'u' :: r =>
    match r with
    | a :: b :: c :: d :: next :: r' =>
      match hexUnit? a b c d with
      | some n => consCode n (readCodes opening (next :: r'))
      | none => .error ('u' :: r)
    | _ => .error ('u' :: r)
  | '\\' :: c :: r =>
    match escaped? c with
    | some e => consCode e.toNat (readCodes opening r)
    | none => .error ('\\' :: c :: r)
  | c :: r => if c.toNat < 0x20 then .error (c :: r) else consCode c.toNat (readCodes opening r)

/-- Code points with each high surrogate and the low one after it put together. -/
def joinPairs : List Nat → List Nat
  | [] => []
  | [n] => [n]
  | n :: m :: r =>
    if 0xD800 ≤ n && n < 0xDC00 && 0xDC00 ≤ m && m < 0xE000 then
      (0x10000 + (n - 0xD800) * 0x400 + (m - 0xDC00)) :: joinPairs r
    else n :: joinPairs (m :: r)

/-! ## Numbers -/

/-- A run of ASCII digits at the start of a text, and what follows it. -/
def spanDigits (s : List Char) : List Char × List Char :=
  (s.takeWhile Char.isDigit, s.dropWhile Char.isDigit)

/-- The digits of a whole number: a zero alone, or digits that do not start with one. -/
def readWhole? : List Char → Option (List Char × List Char)
  | '0' :: r => some (['0'], r)
  | c :: r => if c.isDigit then some (spanDigits (c :: r)) else none
  | [] => none

/-- A fraction's digits, or none where no digit follows the point. -/
def readFraction : List Char → List Char × List Char
  | '.' :: r =>
    match spanDigits r with
    | ([], _) => ([], '.' :: r)
    | (digits, rest) => (digits, rest)
  | s => ([], s)

/-- An exponent after its letter, or nothing where it has no digits. -/
def readExponent? (s : List Char) : Option (Int × List Char) :=
  let letter := match s with
    | 'e' :: r => some r
    | 'E' :: r => some r
    | _ => none
  letter.bind fun r =>
    let (negative, r) := Numeral.splitSign r
    match spanDigits r with
    | ([], _) => none
    | (digits, rest) =>
      some (Numeral.signed negative (Numeral.magnitude 10 digits), rest)

/-- A number: an integer, unless it has a fraction or an exponent. -/
def readNumber? (s : List Char) : Option (Scalar × List Char) := do
  let (negative, s) := match s with
    | '-' :: r => (true, r)
    | s => (false, s)
  let (whole, s) ← readWhole? s
  let (fraction, s) := readFraction s
  let digits := Numeral.magnitude 10 (whole ++ fraction)
  match readExponent? s, fraction with
  | none, [] => some (.int (Numeral.signed negative digits), s)
  | none, _ => some (.float (.ofDecimal negative digits (-fraction.length)), s)
  | some (e, s), _ => some (.float (.ofDecimal negative digits (e - fraction.length)), s)

/-! ## Tokens -/

/-- The rest of `s` after the word, if it starts with it. -/
def dropWord? : List Char → List Char → Option (List Char)
  | [], s => some s
  | c :: w, d :: s => if c == d then dropWord? w s else none
  | _ :: _, [] => none

/-- The words that are scalars. -/
def constants : List (String × Scalar) :=
  [("null", .null), ("true", .bool true), ("false", .bool false), ("NaN", .float .nan),
    ("Infinity", .float (.infinity false)), ("-Infinity", .float (.infinity true))]

/-- A constant at the start of a text. -/
def readConstant? (s : List Char) : Option (Scalar × List Char) :=
  constants.findSome? fun (word, value) => (dropWord? word.toList s).map (value, ·)

/-- What a text starts with, and the text after it; nothing if the sequence ends there. -/
def readKind : List Char → Kind × Option (List Char)
  | '\x7b' :: r => (.openMapping, some r)
  | '\x7d' :: r => (.closeMapping, some r)
  | '[' :: r => (.openList, some r)
  | ']' :: r => (.closeList, some r)
  | ':' :: r => (.colon, some r)
  | ',' :: r => (.comma, some r)
  | '"' :: r =>
    match readCodes ('"' :: r) r with
    | .ok (codes, rest) => (.text (.ofCodes (joinPairs codes)), some rest)
    | .error place => (.brokenText place, none)
  | s =>
    match (readConstant? s).or (readNumber? s) with
    | some (value, rest) => (.scalar value, some rest)
    | none => (.unknown, none)

/-- The tokens of a text of which at most `fuel` are looked for. -/
def scanFrom : Nat → List Char → List Token
  | 0, _ => []
  | fuel + 1, s =>
    match s.dropWhile isSpace with
    | [] => []
    | c :: r =>
      match readKind (c :: r) with
      | (kind, some rest) => ⟨kind, c :: r⟩ :: scanFrom fuel rest
      | (kind, none) => [⟨kind, c :: r⟩]

/-- The tokens of a text; every one takes a character at least. -/
def scan (s : List Char) : List Token :=
  scanFrom s.length s

end Quorum.Json
