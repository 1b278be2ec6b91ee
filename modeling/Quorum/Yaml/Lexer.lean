import Quorum.Yaml.BlockText
import Quorum.Yaml.PlainText
import Quorum.Yaml.QuotedText

/-!
# The tokens of a YAML text

Tokens are read from left to right. Whether a node is a key shows only at the colon
behind it, so the place of every node that may be a key is kept (`Candidate`), and the
key token is put in front of it when the colon comes. Indentation in block collections
opens and closes them.

Where the text is wrong the sequence ends with a `broken` token. It stands in front of the
earliest token of which it is still open whether it is a key, since that token cannot be
told either.
-/

namespace Quorum.Yaml

/-- A token, and those that were put in front of it later. -/
structure Slot where
  before : List Token
  token : Token

/-- A node that may turn out to be a key. -/
structure Candidate where
  /-- The depth of flow collections at which it stands. -/
  level : Nat
  /-- How many tokens come before it. -/
  number : Nat
  /-- Whether it must be a key, since it starts a line of a block mapping. -/
  required : Bool
  index : Nat
  line : Nat
  column : Nat

/-- What is known in the middle of a text. -/
structure Lexer where
  cursor : Cursor
  /-- The depth of flow collections. -/
  level : Nat
  /-- The indentation of the innermost block collection, and of those around it. -/
  indent : Int
  outer : List Int
  /-- Whether a key may start here. -/
  keyAllowed : Bool
  candidates : List Candidate
  /-- The tokens so far, the last first, and their number. -/
  slots : List Slot
  count : Nat
  done : Bool

namespace Lexer

def start (text : List Char) : Lexer where
  cursor := .start text
  level := 0
  indent := -1
  outer := []
  keyAllowed := true
  candidates := []
  slots := []
  count := 0
  done := false

/-- Whether the cursor is inside a flow collection. -/
def inFlow (s : Lexer) : Bool :=
  s.level != 0

def push (s : Lexer) (kind : Kind) (line : Nat) : Lexer :=
  { s with slots := ⟨[], ⟨kind, line⟩⟩ :: s.slots, count := s.count + 1 }

/-- A token at the cursor's line. -/
def pushHere (s : Lexer) (kind : Kind) : Lexer :=
  s.push kind s.cursor.line

/-- A token of so many characters at the cursor. -/
def pushMark (s : Lexer) (kind : Kind) (width : Nat) : Lexer :=
  { s.pushHere kind with cursor := s.cursor.skip width }

/-- The tokens in the order of the text. -/
def tokens (s : Lexer) : List Token :=
  s.slots.reverse.flatMap fun slot => slot.before ++ [slot.token]

/-- The number of the first token that is still waiting for what follows it. -/
def waiting (s : Lexer) : Nat :=
  s.candidates.foldl (fun n k => min n k.number) s.count

/-- The tokens that wait for nothing, and then the error. -/
def breakOff (s : Lexer) (stop : Stop) : List Token :=
  ({ s with slots := s.slots.drop (s.count - s.waiting) } : Lexer).tokens ++
    [⟨.broken stop, s.cursor.line⟩]

/-! ## Keys -/

/-- Gives up the nodes that can no longer be keys: those on earlier lines, or too far back. -/
def dropStale (s : Lexer) : Except Stop Lexer :=
  let isStale (k : Candidate) : Bool := k.line != s.cursor.line || 1024 < s.cursor.index - k.index
  if s.candidates.any fun k => isStale k && k.required then s.cursor.stop
  else .ok { s with candidates := s.candidates.filter fun k => !isStale k }

/-- Gives up the node at the present depth. -/
def dropCandidate (s : Lexer) : Except Stop Lexer :=
  if s.candidates.any fun k => k.level == s.level && k.required then s.cursor.stop
  else .ok { s with candidates := s.candidates.filter fun k => k.level != s.level }

/-- Keeps the place of the node that starts here. -/
def saveCandidate (s : Lexer) : Except Stop Lexer :=
  if !s.keyAllowed then .ok s
  else do
    let required := !s.inFlow && s.indent == (s.cursor.column : Int)
    let s ← s.dropCandidate
    return { s with candidates :=
      ⟨s.level, s.count, required, s.cursor.index, s.cursor.line, s.cursor.column⟩ :: s.candidates }

/-- Opens a block collection if the column is indented further. -/
def openIndent (s : Lexer) (column : Int) : Lexer × Bool :=
  if s.indent < column then ({ s with indent := column, outer := s.indent :: s.outer }, true)
  else (s, false)

/-- Opens a block collection at the cursor if it is indented further. -/
def openHere (s : Lexer) (kind : Kind) : Lexer :=
  match s.openIndent s.cursor.column with
  | (s, true) => s.pushHere kind
  | (s, false) => s

/-- Closes the indentations in `indents` that are wider than the column. -/
def closeIndents (column : Int) (line : Nat) : List Int → Lexer → Lexer
  | [], s => { s with outer := [] }
  | i :: r, s =>
    if column < s.indent then
      closeIndents column line r ({ s with indent := i }.push .blockEnd line)
    else { s with outer := i :: r }

/-- Closes the block collections that are indented further than the column. -/
def unwind (s : Lexer) (column : Int) : Lexer :=
  if s.inFlow then s else closeIndents column s.cursor.line s.outer s

/-! ## Reading one token -/

/-- Over blanks, comments and line breaks; a key may start on a new line of a block. -/
def skipGaps : Nat → Lexer → Lexer
  | 0, s => s
  | fuel + 1, s =>
    let c := s.cursor.dropSpaces.dropComment
    match c.lineBreak? with
    | some (_, c) => skipGaps fuel { s with cursor := c, keyAllowed := s.keyAllowed || !s.inFlow }
    | none => { s with cursor := c }

/-- To the next token. A byte order mark may stand at the very start. -/
def toNextToken (s : Lexer) : Lexer :=
  let s := if s.cursor.index == 0 && s.cursor.rest.head? == some '\uFEFF' then
    { s with cursor := s.cursor.next } else s
  skipGaps (s.cursor.rest.length + 1) s

/-- The end of the text. -/
def readEnd (s : Lexer) : Except Stop Lexer := do
  let s ← (s.unwind (-1)).dropCandidate
  return { s.pushHere .streamEnd with keyAllowed := false, candidates := [], done := true }

/-- A directive's line. -/
def readDirectiveLine (s : Lexer) : Except Stop Lexer := do
  let s ← (s.unwind (-1)).dropCandidate
  let (kind, c) ← readDirective s.cursor
  return { s.pushHere kind with keyAllowed := false, cursor := c }

/-- A mark between documents. -/
def readDocumentMark (kind : Kind) (s : Lexer) : Except Stop Lexer := do
  let s ← (s.unwind (-1)).dropCandidate
  return { s.pushMark kind 3 with keyAllowed := false }

def openFlow (kind : Kind) (s : Lexer) : Except Stop Lexer := do
  let s ← s.saveCandidate
  return { s.pushMark kind 1 with level := s.level + 1, keyAllowed := true }

def closeFlow (kind : Kind) (s : Lexer) : Except Stop Lexer := do
  let s ← s.dropCandidate
  return { s.pushMark kind 1 with level := s.level - 1, keyAllowed := false }

def readFlowEntry (s : Lexer) : Except Stop Lexer := do
  let s ← s.dropCandidate
  return { s.pushMark .flowEntry 1 with keyAllowed := true }

/-- An entry of a block sequence. -/
def readBlockEntry (s : Lexer) : Except Stop Lexer := do
  if !s.inFlow && !s.keyAllowed then s.cursor.stop
  else
    let s := if s.inFlow then s else s.openHere .blockSequence
    let s ← s.dropCandidate
    return { s.pushMark .blockEntry 1 with keyAllowed := true }

/-- A key that is marked as one. -/
def readKey (s : Lexer) : Except Stop Lexer := do
  if !s.inFlow && !s.keyAllowed then s.cursor.stop
  else
    let s := if s.inFlow then s else s.openHere .blockMapping
    let s ← s.dropCandidate
    return { s.pushMark .key 1 with keyAllowed := !s.inFlow }

/-- Puts a key token in front of the node, and the start of a mapping if it begins one. -/
def confirmKey (k : Candidate) (s : Lexer) : Lexer :=
  let (s, opened) := if s.inFlow then (s, false) else s.openIndent k.column
  let front := (if opened then [⟨.blockMapping, k.line⟩] else []) ++ [⟨.key, k.line⟩]
  { s with
    slots := s.slots.modify (s.count - 1 - k.number) fun slot => { slot with before := front }
    candidates := s.candidates.filter fun k' => k'.level != k.level }

/-- The colon before a value. -/
def readValue (s : Lexer) : Except Stop Lexer :=
  match s.candidates.find? fun k => k.level == s.level with
  | some k => .ok { (s.confirmKey k).pushMark .value 1 with keyAllowed := false }
  | none =>
    if !s.inFlow && !s.keyAllowed then s.cursor.stop
    else
      let s := if s.inFlow then s else s.openHere .blockMapping
      .ok { s.pushMark .value 1 with keyAllowed := !s.inFlow }

/-- A token that may start a key, read from the cursor on. -/
def readNode (read : Cursor → Except Stop (Kind × Cursor)) (s : Lexer) : Except Stop Lexer := do
  let s ← s.saveCandidate
  let (kind, c) ← read s.cursor
  return { s.pushHere kind with cursor := c, keyAllowed := false }

/-- A name after the sign that marks it. -/
def readNamed (kind : List Char → Kind) (c : Cursor) : Except Stop (Kind × Cursor) := do
  let (name, c) ← readName c.next
  return (kind name, c)

def readPlainNode (s : Lexer) : Except Stop Lexer := do
  let s ← s.saveCandidate
  let scalar := readPlain s.inFlow (s.indent + 1) s.cursor
  return { s.pushHere (.scalar true (codesOf scalar.text)) with
    cursor := scalar.after, keyAllowed := scalar.broken }

def readBlockNode (folded : Bool) (s : Lexer) : Except Stop Lexer := do
  let s ← s.dropCandidate
  let (kind, c) ← readBlock folded s.indent s.cursor
  return { s.pushHere kind with cursor := c, keyAllowed := true }

/-- The characters with which no plain scalar starts. -/
def isIndicator (c : Char) : Bool :=
  isFlowMark c || "-?:#&*!|>'\"%@\x60".toList.contains c

/-- Whether a plain scalar starts here: some indicators do not count before other characters. -/
def startsPlain (inFlow : Bool) (c : Char) (r : List Char) : Bool :=
  !(isGap c || isIndicator c) || (!atGap r && (c == '-' || (!inFlow && (c == '?' || c == ':'))))

/-- The token at the cursor. -/
def readToken (s : Lexer) : Except Stop Lexer :=
  let atLineStart := s.cursor.column == 0
  match s.cursor.rest with
  | [] => s.readEnd
  | c :: r =>
    if c == '%' && atLineStart then s.readDirectiveLine
    else if atLineStart && isMarker '-' (c :: r) then s.readDocumentMark .documentStart
    else if atLineStart && isMarker '.' (c :: r) then s.readDocumentMark .documentEnd
    else if c == '[' then s.openFlow .flowSequence
    else if c == '\x7b' then s.openFlow .flowMapping
    else if c == ']' then s.closeFlow .flowSequenceEnd
    else if c == '\x7d' then s.closeFlow .flowMappingEnd
    else if c == ',' then s.readFlowEntry
    else if c == '-' && atGap r then s.readBlockEntry
    else if c == '?' && (s.inFlow || atGap r) then s.readKey
    else if c == ':' && (s.inFlow || atGap r) then s.readValue
    else if c == '*' then s.readNode (readNamed .alias)
    else if c == '&' then s.readNode (readNamed .anchor)
    else if c == '!' then s.readNode readTag
    else if c == '|' && !s.inFlow then s.readBlockNode false
    else if c == '>' && !s.inFlow then s.readBlockNode true
    else if c == '\'' then s.readNode (readQuoted false)
    else if c == '"' then s.readNode (readQuoted true)
    else if startsPlain s.inFlow c r then s.readPlainNode
    else s.cursor.stop

/-- One more token, with those that its indentation calls for. -/
def step (s : Lexer) : Except Stop Lexer := do
  let s ← s.toNextToken.dropStale
  let s ← (s.unwind s.cursor.column).readToken
  if s.done then return s else s.dropStale

/-- All tokens, of which at most `fuel` are read. -/
def run : Nat → Lexer → List Token
  | 0, s => s.tokens
  | fuel + 1, s =>
    match s.step with
    | .ok next => if next.done then next.tokens else run fuel next
    | .error stop => s.breakOff stop

end Lexer

/-- The tokens of a YAML text; every one but the last takes a character at least. -/
def scan (text : List Char) : List Token :=
  if text.all isAllowed then Lexer.run (text.length + 2) (.start text)
  else [⟨.broken .unprintable, 0⟩]

end Quorum.Yaml
