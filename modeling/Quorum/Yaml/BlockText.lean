import Quorum.Yaml.Token

/-!
# Block scalars

A block scalar takes the lines that are indented below its header: as they are after a
bar, folded after a greater-than sign. The header may say how far they are indented and
what becomes of the line breaks at the end.
-/

namespace Quorum.Yaml

/-- What becomes of the line breaks at the end: all but the first are dropped, all are, or none. -/
inductive Chomp where
  | clip | strip | keep
  deriving DecidableEq, Repr

/-- What the header of a block scalar says. -/
structure BlockHeader where
  chomp : Chomp
  /-- The indentation below that of the collection around, if it is given. -/
  indent : Option Nat
  deriving DecidableEq, Repr

def chompSign? : List Char → Option Chomp
  | '+' :: _ => some .keep
  | '-' :: _ => some .strip
  | _ => none

/-- A digit that tells the indentation; zero is wrong. -/
def readIndentDigit (c : Cursor) : Except Stop (Option Nat × Cursor) :=
  match c.rest with
  | x :: _ =>
    if !x.isDigit then .ok (none, c)
    else if x == '0' then c.stop
    else .ok (some (x.toNat - '0'.toNat), c.next)
  | [] => .ok (none, c)

/-- The signs of a header, in either order. -/
def readBlockSigns (c : Cursor) : Except Stop (BlockHeader × Cursor) := do
  match chompSign? c.rest with
  | some chomp =>
    let (indent, c) ← readIndentDigit c.next
    return (⟨chomp, indent⟩, c)
  | none =>
    let (indent, c) ← readIndentDigit c
    match indent, chompSign? c.rest with
    | some _, some chomp => return (⟨chomp, indent⟩, c.next)
    | _, _ => return (⟨.clip, indent⟩, c)

/-- The header, up to the end of its line. -/
def readBlockHeader (c : Cursor) : Except Stop (BlockHeader × Cursor) := do
  let (header, c) ← readBlockSigns c
  if atTokenEnd c.rest then return (header, ← c.endLine) else c.stop

/-- Over lines of nothing but spaces: their breaks, and the widest of them. -/
def findIndent : Nat → Nat → Cursor → List Char × Nat × Cursor
  | 0, widest, c => ([], widest, c)
  | fuel + 1, widest, c =>
    let c := c.dropSpaces
    let widest := max widest c.column
    match c.lineBreak? with
    | some (b, c) =>
      let (breaks, widest, c) := findIndent fuel widest c
      (b :: breaks, widest, c)
    | none => ([], widest, c)

/-- Over the spaces of an indentation. -/
def dropIndent (indent : Nat) (c : Cursor) : Cursor :=
  c.skip (min (indent - c.column) (c.rest.takeWhile (· == ' ')).length)

/-- Over empty lines, up to the indentation of the next line. -/
def blockBreaks (indent : Nat) : Nat → Cursor → List Char × Cursor
  | 0, c => ([], c)
  | fuel + 1, c =>
    let c := dropIndent indent c
    match c.lineBreak? with
    | some (b, c) =>
      let (breaks, c) := blockBreaks indent fuel c
      (b :: breaks, c)
    | none => ([], c)

/-- The lines of a block scalar, with the line break after the last and the breaks after that. -/
structure BlockBody where
  text : List Char
  last : List Char
  breaks : List Char
  after : Cursor

/-- Whether a line is indented further, so that its break is not folded. -/
def startsBlank (s : List Char) : Bool :=
  match s with
  | ' ' :: _ | '\t' :: _ => true
  | _ => false

/-- The lines of a block scalar, of which at most `fuel` are read, after the breaks before them. -/
def blockLines (folded : Bool) (indent : Nat) : Nat → List Char → Cursor → BlockBody
  | 0, breaks, c => ⟨[], [], breaks, c⟩
  | fuel + 1, breaks, c =>
    if c.column != indent || c.rest.isEmpty then ⟨[], [], breaks, c⟩
    else
      let spaced := startsBlank c.rest
      let (line, c) := c.span fun x => !isBreak x
      let (last, c) := match c.lineBreak? with
        | some (b, c) => ([b], c)
        | none => ([], c)
      let (more, c) := blockBreaks indent fuel c
      if c.column == indent && !c.rest.isEmpty then
        let joint :=
          if folded && last == ['\n'] && !spaced && !startsBlank c.rest then
            if more.isEmpty then [' '] else []
          else last
        let body := blockLines folded indent fuel more c
        { body with text := breaks ++ line ++ joint ++ body.text }
      else ⟨breaks ++ line, last, more, c⟩

/-- A block scalar from its sign on, inside a collection that is indented to `outer`. -/
def readBlock (folded : Bool) (outer : Int) (c : Cursor) : Except Stop (Kind × Cursor) := do
  let (header, c) ← readBlockHeader c.next
  let least := (max (outer + 1) 1).toNat
  let (indent, breaks, c) := match header.indent with
    | some n =>
      let indent := least + n - 1
      let (breaks, c) := blockBreaks indent (c.rest.length + 1) c
      (indent, breaks, c)
    | none =>
      let (breaks, widest, c) := findIndent (c.rest.length + 1) 0 c
      (max least widest, breaks, c)
  let body := blockLines folded indent (c.rest.length + 1) breaks c
  let last := if header.chomp = .strip then [] else body.last
  let tail := if header.chomp = .keep then body.breaks else []
  return (.scalar false (codesOf (body.text ++ last ++ tail)), body.after)

end Quorum.Yaml
