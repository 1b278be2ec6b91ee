import Quorum.Yaml.Token

/-!
# Plain scalars

A plain scalar runs on, over line breaks too, until something ends it: a colon before a
gap, a comment, less indentation, a mark between documents, or in a flow collection its
punctuation.
-/

namespace Quorum.Yaml

/-- The characters that structure flow collections. -/
def isFlowMark (c : Char) : Bool :=
  c == ',' || c == '[' || c == ']' || c == '\x7b' || c == '\x7d'

/-- Whether a plain scalar ends at this place. -/
def endsPlain (inFlow : Bool) : List Char → Bool
  | [] => true
  | ':' :: r => atGap r || (inFlow && (match r with | x :: _ => isFlowMark x | [] => false))
  | c :: _ => isGap c || (inFlow && (isFlowMark c || c == '?'))

/-- The characters of a plain scalar up to where it ends or a gap comes. -/
def plainRun (inFlow : Bool) : List Char → List Char
  | [] => []
  | c :: r => if endsPlain inFlow (c :: r) then [] else c :: plainRun inFlow r

/-- Over the spaces and empty lines after a line break, with the breaks among them; nothing if
a mark between documents stands at the start of a line. -/
def skipEmptyLines : Nat → Cursor → Option (List Char) × Cursor
  | 0, c => (some [], c)
  | fuel + 1, c =>
    if atDocumentMark c.rest then (none, c)
    else
      let c := c.dropSpaces
      match c.lineBreak? with
      | some (b, c) =>
        let (more, c) := skipEmptyLines fuel c
        (more.map (b :: ·), c)
      | none => (some [], c)

/-- What separates two runs of a plain scalar. -/
structure PlainGap where
  /-- The characters that the gap amounts to; without any, the scalar ends. -/
  text : List Char
  /-- Whether the gap holds a line break. -/
  broken : Bool
  after : Cursor

/-- The gap at the cursor. -/
def readPlainGap (c : Cursor) : PlainGap :=
  let (spaces, c) := c.span (· == ' ')
  match c.lineBreak? with
  | some (b, c) =>
    match skipEmptyLines (c.rest.length + 1) c with
    | (some more, c) => ⟨Cursor.fold b more, true, c⟩
    | (none, c) => ⟨[], true, c⟩
  | none => ⟨spaces, false, c⟩

/-- A plain scalar that has been read. -/
structure PlainScalar where
  text : List Char
  /-- Whether a line break comes after its last character. -/
  broken : Bool
  after : Cursor

/-- Runs of a plain scalar and the gaps between them, of which at most `fuel` are read; `gap`
is what stands before the next run. -/
def readPlainRuns (inFlow : Bool) (indent : Int) :
    Nat → (gap : List Char) → (broken : Bool) → Cursor → PlainScalar
  | 0, _, broken, c => ⟨[], broken, c⟩
  | fuel + 1, gap, broken, c =>
    let run := plainRun inFlow c.rest
    if c.rest.head? == some '#' || run.isEmpty then ⟨[], broken, c⟩
    else
      let next := readPlainGap (c.skip run.length)
      if next.text.isEmpty || next.after.rest.head? == some '#' ||
          (!inFlow && next.after.column < indent) then
        ⟨gap ++ run, next.broken, next.after⟩
      else
        let tail := readPlainRuns inFlow indent fuel next.text next.broken next.after
        ⟨gap ++ run ++ tail.text, tail.broken, tail.after⟩

/-- A plain scalar whose further lines are indented to `indent` at least. -/
def readPlain (inFlow : Bool) (indent : Int) (c : Cursor) : PlainScalar :=
  readPlainRuns inFlow indent (c.rest.length + 1) [] false c

end Quorum.Yaml
