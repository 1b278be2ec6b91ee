import Quorum.Fault

/-!
# A place in a YAML text

The characters that a YAML text may hold, its line breaks, and a cursor that keeps count
of lines and columns while it moves over the text. Lines and columns count from zero.
-/

namespace Quorum.Yaml

/-- Why a text is no YAML document. -/
inductive Stop where
  /-- The text holds a character that is not allowed anywhere. -/
  | unprintable
  /-- The text is wrong at this line. -/
  | misplaced (line : Nat)
  /-- Something is refused, and not as a fault of YAML. -/
  | refused (refusal : Refusal)
  deriving DecidableEq, Repr

/-- Whether a text may hold the character. -/
def isAllowed (c : Char) : Bool :=
  let n := c.toNat
  n == 0x09 || n == 0x0A || n == 0x0D || (0x20 ≤ n && n ≤ 0x7E) || n == 0x85 ||
    (0xA0 ≤ n && n ≤ 0xD7FF) || (0xE000 ≤ n && n ≤ 0xFFFD) || 0x10000 ≤ n

def isBreak (c : Char) : Bool :=
  c == '\n' || c == '\r' || c == '\u0085' || c == '\u2028' || c == '\u2029'

/-- Whether the character separates words. -/
def isGap (c : Char) : Bool :=
  c == ' ' || c == '\t' || isBreak c

/-- Whether a word ends here: at the end of the text or before a gap. -/
def atGap : List Char → Bool
  | [] => true
  | c :: _ => isGap c

/-- Whether the line ends here. -/
def atLineEnd : List Char → Bool
  | [] => true
  | c :: _ => isBreak c

/-- Whether a token on one line may end here: a tab does not end it. -/
def atTokenEnd : List Char → Bool
  | [] => true
  | c :: _ => c == ' ' || isBreak c

/-- Whether a line starts with three times the character, alone. -/
def isMarker (c : Char) : List Char → Bool
  | c₁ :: c₂ :: c₃ :: r => c₁ == c && c₂ == c && c₃ == c && atGap r
  | _ => false

/-- Whether a line starts with a mark between documents. -/
def atDocumentMark (s : List Char) : Bool :=
  isMarker '-' s || isMarker '.' s

/-- A place in a text: what follows it, and where it is. -/
structure Cursor where
  rest : List Char
  index : Nat
  line : Nat
  column : Nat
  deriving Repr

namespace Cursor

def start (text : List Char) : Cursor :=
  ⟨text, 0, 0, 0⟩

/-- The error at the cursor's line. -/
def stop {α : Type} (c : Cursor) : Except Stop α :=
  .error (.misplaced c.line)

/-- Over one character. A carriage return before a line feed does not count, nor does a byte
order mark. -/
def next (c : Cursor) : Cursor :=
  match c.rest with
  | [] => c
  | x :: r =>
    if x == '\r' && r.head? == some '\n' then ⟨r, c.index + 1, c.line, c.column + 1⟩
    else if isBreak x then ⟨r, c.index + 1, c.line + 1, 0⟩
    else if x == '\uFEFF' then ⟨r, c.index + 1, c.line, c.column⟩
    else ⟨r, c.index + 1, c.line, c.column + 1⟩

/-- Over so many characters. -/
def skip : Nat → Cursor → Cursor
  | 0, c => c
  | n + 1, c => skip n c.next

/-- The characters up to the first that fails `p`, and the place of that one. -/
def span (p : Char → Bool) (c : Cursor) : List Char × Cursor :=
  let run := c.rest.takeWhile p
  (run, c.skip run.length)

/-- Over all characters up to the first that fails `p`. -/
def dropWhile (p : Char → Bool) (c : Cursor) : Cursor :=
  (c.span p).2

def dropSpaces (c : Cursor) : Cursor :=
  c.dropWhile (· == ' ')

/-- Over a comment, if one starts here. -/
def dropComment (c : Cursor) : Cursor :=
  if c.rest.head? == some '#' then c.dropWhile fun x => !isBreak x else c

/-- The line break at the cursor, if there is one, as the character that stands for it. -/
def lineBreak? (c : Cursor) : Option (Char × Cursor) :=
  match c.rest with
  | '\r' :: '\n' :: _ => some ('\n', c.skip 2)
  | x :: _ =>
    if x == '\u2028' || x == '\u2029' then some (x, c.next)
    else if isBreak x then some ('\n', c.next)
    else none
  | [] => none

/-- Over a line break, if one is here. -/
def dropLineBreak (c : Cursor) : Cursor :=
  match c.lineBreak? with
  | some (_, c) => c
  | none => c

/-- To the next line, over nothing but spaces and a comment. -/
def endLine (c : Cursor) : Except Stop Cursor :=
  let c := c.dropSpaces.dropComment
  if atLineEnd c.rest then .ok c.dropLineBreak else c.stop

/-- Characters below which everything is shown: what a folded line break and the breaks after
it amount to. -/
def fold (first : Char) (more : List Char) : List Char :=
  if first != '\n' then first :: more
  else if more.isEmpty then [' ']
  else more

end Cursor

end Quorum.Yaml
