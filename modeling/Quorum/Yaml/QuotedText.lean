import Quorum.Yaml.Token

/-!
# Quoted scalars

Between single quotes only the quote itself is written twice; between double quotes a
backslash starts an escape. Line breaks are folded in both, and a mark between documents
must not stand at the start of a line.
-/

namespace Quorum.Yaml

/-- Over the line breaks and blanks after a first line break, with the breaks. -/
def quotedBreaks : Nat → Cursor → Except Stop (List Char × Cursor)
  | 0, c => .ok ([], c)
  | fuel + 1, c =>
    if atDocumentMark c.rest then c.stop
    else
      let c := c.dropWhile fun x => x == ' ' || x == '\t'
      match c.lineBreak? with
      | some (b, c) => do
        let (more, c) ← quotedBreaks fuel c
        return (b :: more, c)
      | none => .ok ([], c)

/-- A gap inside a quoted scalar, as the characters that it amounts to. -/
def quotedGap (c : Cursor) : Except Stop (List Char × Cursor) :=
  let (blanks, c) := c.span fun x => x == ' ' || x == '\t'
  match c.lineBreak? with
  | some (b, c) => do
    let (more, c) ← quotedBreaks (c.rest.length + 1) c
    return (Cursor.fold b more, c)
  | none => if c.rest.isEmpty then c.stop else .ok (blanks, c)

/-- The character that a backslash and this one stand for. -/
def escapedChar? : Char → Option Char
  | '0' => some '\x00'
  | 'a' => some '\x07'
  | 'b' => some '\x08'
  | 't' => some '\t'
  | '\t' => some '\t'
  | 'n' => some '\n'
  | 'v' => some '\x0b'
  | 'f' => some '\x0c'
  | 'r' => some '\r'
  | 'e' => some '\x1b'
  | ' ' => some ' '
  | '"' => some '"'
  | '\\' => some '\\'
  | '/' => some '/'
  | 'N' => some '\u0085'
  | '_' => some '\u00A0'
  | 'L' => some '\u2028'
  | 'P' => some '\u2029'
  | _ => none

/-- How many hexadecimal digits follow a backslash and this character. -/
def escapeWidth? : Char → Option Nat
  | 'x' => some 2
  | 'u' => some 4
  | 'U' => some 8
  | _ => none

/-- The code point that so many hexadecimal digits write. -/
def readHexCode (width : Nat) (c : Cursor) : Except Stop (Nat × Cursor) :=
  let digits := c.rest.take width
  match digits.mapM hexValue? with
  | some values =>
    if values.length < width then c.stop
    else
      let code := Numeral.ofDigits 16 values
      if code < 0x110000 then .ok (code, c.skip width) else .error (.refused .notCharacter)
  | none => c.stop

/-- What an escape stands for; the cursor is behind its backslash. -/
def readEscape (c : Cursor) : Except Stop (List Nat × Cursor) :=
  match c.rest with
  | [] => c.stop
  | x :: _ =>
    match escapedChar? x, escapeWidth? x, c.lineBreak? with
    | some e, _, _ => .ok ([e.toNat], c.next)
    | none, some width, _ => do
      let (code, c) ← readHexCode width c.next
      return ([code], c)
    | none, none, some (_, c) => do
      let (more, c) ← quotedBreaks (c.rest.length + 1) c
      return (codesOf more, c)
    | none, none, none => c.stop

/-- A piece of a quoted scalar, or nothing at its closing quote. -/
def readPiece? (double : Bool) (c : Cursor) : Except Stop (Option (List Nat × Cursor)) :=
  match c.rest with
  | '\'' :: r =>
    if double then .ok (some (codesOf ['\''], c.next))
    else match r with
      | '\'' :: _ => .ok (some (codesOf ['\''], c.skip 2))
      | _ => .ok none
  | '"' :: _ => if double then .ok none else .ok (some (codesOf ['"'], c.next))
  | '\\' :: _ =>
    if double then some <$> readEscape c.next else .ok (some (codesOf ['\\'], c.next))
  | [] => c.stop
  | x :: _ =>
    if isGap x then do
      let (text, c) ← quotedGap c
      return some (codesOf text, c)
    else
      let (run, c) := c.span fun x => !(isGap x || x == '\'' || x == '"' || x == '\\')
      .ok (some (codesOf run, c))

/-- The pieces up to the closing quote, at most `fuel` of them, put together. -/
def readPieces (double : Bool) : Nat → Cursor → Except Stop (List Nat × Cursor)
  | 0, c => c.stop
  | fuel + 1, c => do
    match ← readPiece? double c with
    | none => return ([], c.next)
    | some (codes, c) =>
      let (more, c) ← readPieces double fuel c
      return (codes ++ more, c)

/-- A quoted scalar from its opening quote on. -/
def readQuoted (double : Bool) (c : Cursor) : Except Stop (Kind × Cursor) := do
  let (codes, c) ← readPieces double (c.rest.length + 1) c.next
  return (.scalar false codes, c)

end Quorum.Yaml
