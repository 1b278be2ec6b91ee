import Quorum.Text.Utf8
import Quorum.Yaml.Cursor

/-!
# Tokens of YAML

What a YAML text consists of. Besides what stands in the text there are tokens for what
its indentation means: the start and the end of block collections.
-/

namespace Quorum.Yaml

/-- A line that says something about a document. -/
inductive Directive where
  | version (major : Nat)
  | tagHandle (handle tagStart : List Char)
  | other
  deriving DecidableEq, Repr

/-- What a token is. -/
inductive Kind where
  | streamEnd
  | directive (directive : Directive)
  | documentStart
  | documentEnd
  | blockSequence
  | blockMapping
  | blockEnd
  | flowSequence
  | flowSequenceEnd
  | flowMapping
  | flowMappingEnd
  | flowEntry
  | blockEntry
  | key
  | value
  | alias (name : List Char)
  | anchor (name : List Char)
  /-- A tag: a suffix, to be put after what the handle stands for if there is one. -/
  | tag (handle : Option (List Char)) (suffix : List Char)
  /-- A scalar with its code points. -/
  | scalar (plain : Bool) (codes : List Nat)
  /-- The text is wrong here. -/
  | broken (stop : Stop)
  deriving DecidableEq, Repr

/-- A token and the line on which it starts. -/
structure Token where
  kind : Kind
  line : Nat
  deriving DecidableEq, Repr

/-- The code points of characters. -/
def codesOf (s : List Char) : List Nat :=
  s.map Char.toNat

/-! ## Names -/

/-- The characters of anchors and of tag handles. -/
def isNameChar (c : Char) : Bool :=
  c.isAlphanum || c == '-' || c == '_'

/-- An anchor or an alias, after the sign that marks it. -/
def readName (c : Cursor) : Except Stop (List Char × Cursor) :=
  let (name, c) := c.span isNameChar
  let ends := match c.rest with
    | [] => true
    | x :: _ => isGap x || "?:,]\x7d%@\x60".toList.contains x
  if name.isEmpty || !ends then c.stop else .ok (name, c)

/-! ## Tags -/

/-- The characters of a tag. -/
def isTagChar (c : Char) : Bool :=
  c.isAlphanum || "-;/?:@&=+$,_.!~*'()[]%".toList.contains c

/-- The value of a hexadecimal digit. -/
def hexValue? (c : Char) : Option Nat :=
  if c.isDigit || ('a' ≤ c && c ≤ 'f') || ('A' ≤ c && c ≤ 'F') then Numeral.letterValue? c else none

/-- The bytes that a run of percent escapes stands for, and what follows it. -/
def percentBytes? : List Char → Option (List UInt8 × List Char)
  | '%' :: r =>
    match r with
    | a :: b :: r' => do
      let a ← hexValue? a
      let b ← hexValue? b
      let (bytes, rest) ← percentBytes? r'
      return (UInt8.ofNat (a * 16 + b) :: bytes, rest)
    | _ => none
  | s => some ([], s)

/-- A tag without its percent escapes; at most `fuel` pieces. -/
def decodeTag? : Nat → List Char → Option (List Char)
  | _, [] => some []
  | 0, _ => none
  | fuel + 1, '%' :: r => do
    let (bytes, rest) ← percentBytes? ('%' :: r)
    let text ← Text.Utf8.decode? bytes
    return text ++ (← decodeTag? fuel rest)
  | fuel + 1, c :: r => (decodeTag? fuel r).map (c :: ·)

/-- The characters of a tag, which must be some. -/
def readTagText (c : Cursor) : Except Stop (List Char × Cursor) :=
  let (text, c') := c.span isTagChar
  match decodeTag? text.length text with
  | some decoded => if text.isEmpty then c.stop else .ok (decoded, c')
  | none => c.stop

/-- The handle of a tag, between exclamation marks; a single one before a space is one too. -/
def readTagHandle (c : Cursor) : Except Stop (List Char × Cursor) :=
  match c.rest with
  | '!' :: ' ' :: _ => .ok (['!'], c.next)
  | '!' :: _ =>
    let (name, c') := c.next.span isNameChar
    match c'.rest with
    | '!' :: _ => .ok ('!' :: name ++ ['!'], c'.next)
    | _ => c'.stop
  | _ => c.stop

/-- Whether a further exclamation mark follows in the word. -/
def hasHandle (afterMark : List Char) : Bool :=
  (afterMark.takeWhile fun x => !(x == ' ' || isBreak x)).contains '!'

/-- A tag from its exclamation mark on. -/
def readTag (c : Cursor) : Except Stop (Kind × Cursor) := do
  let afterMark := c.next.rest
  let (kind, c) ←
    match afterMark with
    | '<' :: _ => do
      let (suffix, c) ← readTagText (c.skip 2)
      match c.rest with
      | '>' :: _ => pure (Kind.tag none suffix, c.next)
      | _ => c.stop
    | _ =>
      if atGap afterMark then pure (Kind.tag none ['!'], c.next)
      else if hasHandle afterMark then do
        let (handle, c) ← readTagHandle c
        let (suffix, c) ← readTagText c
        pure (Kind.tag (some handle) suffix, c)
      else do
        let (suffix, c) ← readTagText c.next
        pure (Kind.tag (some ['!']) suffix, c)
  if atTokenEnd c.rest then .ok (kind, c) else c.stop

/-! ## Directives -/

/-- A number of a version. -/
def readVersionNumber (c : Cursor) : Except Stop (Nat × Cursor) :=
  let (digits, c') := c.span Char.isDigit
  if digits.isEmpty then c.stop
  else .ok (Numeral.magnitude 10 digits, c')

/-- The version that a directive declares. -/
def readVersion (c : Cursor) : Except Stop (Directive × Cursor) := do
  let (major, c) ← readVersionNumber c.dropSpaces
  match c.rest with
  | '.' :: _ => do
    let (_, c) ← readVersionNumber c.next
    if atTokenEnd c.rest then .ok (.version major, c) else c.stop
  | _ => c.stop

/-- The tag handle that a directive declares. -/
def readHandleDeclaration (c : Cursor) : Except Stop (Directive × Cursor) := do
  let (handle, c) ← readTagHandle c.dropSpaces
  match c.rest with
  | ' ' :: _ => do
    let (tagStart, c) ← readTagText c.dropSpaces
    if atTokenEnd c.rest then .ok (.tagHandle handle tagStart, c) else c.stop
  | _ => c.stop

/-- A directive from its percent sign on, with its line. -/
def readDirective (c : Cursor) : Except Stop (Kind × Cursor) := do
  let (name, c) := c.next.span isNameChar
  if name.isEmpty || !atTokenEnd c.rest then c.stop
  else
    let (directive, c) ←
      if name == "YAML".toList then readVersion c
      else if name == "TAG".toList then readHandleDeclaration c
      else pure (.other, c.dropWhile fun x => !isBreak x)
    return (.directive directive, ← c.endLine)

end Quorum.Yaml
