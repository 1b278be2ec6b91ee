import Quorum.Yaml.Lexer
import Quorum.Yaml.Tag

/-!
# Nodes of a YAML document

The nodes that a sequence of tokens denotes, with the kind of each and the line on which
it starts. A node with an anchor is kept apart, and a `reference` stands in its own place
as well as in that of each alias; so a node may stand in many places, and inside itself.
Of two errors the one that comes first in the text is reported.
-/

namespace Quorum.Yaml

/-- A node of a document. -/
inductive Node where
  | scalar (line : Nat) (tag : Tag) (codes : List Nat)
  | sequence (line : Nat) (tag : Tag) (items : List Node)
  | mapping (line : Nat) (tag : Tag) (entries : List (Node × Node))
  /-- The node with this anchor. -/
  | reference (anchor : List Char)

/-- A root, and the nodes that have anchors. -/
structure Document where
  root : Node
  anchored : List (List Char × Node)

/-- Tags by their handles. -/
abbrev Handles := List (List Char × List Char)

/-- The handles that need no declaration. -/
def defaultHandles : Handles :=
  [(['!'], ['!']), (['!', '!'], commonTag)]

/-- What is left to read, and what has been declared. An anchor is declared where its node
starts, and the node is there when it has been read. -/
structure Reader where
  tokens : List Token
  handles : Handles
  declared : List (List Char)
  anchored : List (List Char × Node)

namespace Reader

/-- The next token, unless the text is wrong there. -/
def peek (r : Reader) : Except Stop Token :=
  match r.tokens with
  | [] => .error (.misplaced 0)
  | t :: _ =>
    match t.kind with
    | .broken stop => .error stop
    | _ => .ok t

/-- Over the next token. -/
def next (r : Reader) : Reader :=
  { r with tokens := r.tokens.drop 1 }

/-- Declares an anchor, which must not be given twice. -/
def declare (r : Reader) (anchor : Option (List Char)) (line : Nat) : Except Stop Reader :=
  match anchor with
  | none => .ok r
  | some a =>
    if r.declared.contains a then .error (.misplaced line)
    else .ok { r with declared := a :: r.declared }

/-- Puts a node that has been read in its place, or a reference to it if it has an anchor. -/
def place (r : Reader) (anchor : Option (List Char)) (n : Node) : Node × Reader :=
  match anchor with
  | none => (n, r)
  | some a => (.reference a, { r with anchored := (a, n) :: r.anchored })

end Reader

/-- What stands before the content of a node. -/
structure Properties where
  anchor : Option (List Char)
  tag : Option (List Char)
  /-- The line on which the properties start, if there are any. -/
  line : Option Nat

/-- An anchor, if one comes next. -/
def readAnchor (r : Reader) : Except Stop (Option (Token × List Char) × Reader) := do
  let t ← r.peek
  match t.kind with
  | .anchor a => return (some (t, a), r.next)
  | _ => return (none, r)

/-- A full tag, if a tag comes next; its handle must be declared. The check is left to the
caller, who may find an anchor first. -/
def readTagToken (r : Reader) :
    Except Stop (Option (Token × Option (List Char) × List Char) × Reader) := do
  let t ← r.peek
  match t.kind with
  | .tag handle suffix => return (some (t, handle, suffix), r.next)
  | _ => return (none, r)

/-- The tag that a handle and a suffix make up. -/
def expandTag (handles : Handles) (line : Nat) (handle : Option (List Char)) (suffix : List Char) :
    Except Stop (List Char) :=
  match handle with
  | none => .ok suffix
  | some h =>
    match handles.find? fun e => e.1 == h with
    | some (_, tagStart) => .ok (tagStart ++ suffix)
    | none => .error (.misplaced line)

/-- An anchor and a tag, in either order. -/
def readProperties (r : Reader) : Except Stop (Properties × Reader) := do
  let (anchor, r) ← readAnchor r
  let (tag, r) ← readTagToken r
  let (anchor', r) ← if anchor.isNone && tag.isSome then readAnchor r else pure (none, r)
  let full ← match tag with
    | some (t, handle, suffix) => some <$> expandTag r.handles t.line handle suffix
    | none => pure none
  let line := (anchor.map fun a => a.1.line).or (tag.map fun t => t.1.line)
  return (⟨(anchor.or anchor').map Prod.snd, full, line⟩, r)

/-- The kind of a scalar: what its tag says, or what its text shows if it is plain or marked to
be taken as plain. -/
def scalarTag (tag : Option (List Char)) (plain : Bool) (codes : List Nat) : Tag :=
  match tag with
  | none => if plain then .ofPlain (codes.map Char.ofNat) else .text
  | some t => if t == ['!'] then .ofPlain (codes.map Char.ofNat) else .ofUri t

/-- The kind of a collection. -/
def collectionTag (tag : Option (List Char)) (usual : Tag) : Tag :=
  match tag with
  | none => usual
  | some t => if t == ['!'] then usual else .ofUri t

/-- The empty node at a line. -/
def emptyNode (line : Nat) : Node :=
  .scalar line .null []

mutual

/-- A node. Block collections are only taken where `block` holds, and entries that are not
indented further where `indentless` does. -/
def readNode (block indentless : Bool) : Nat → Reader → Except Stop (Node × Reader)
  | 0, _ => .error (.misplaced 0)
  | fuel + 1, r => do
    let t ← r.peek
    match t.kind with
    | .alias a =>
      if r.declared.contains a then return (.reference a, r.next)
      else .error (.misplaced t.line)
    | _ =>
      let (p, r) ← readProperties r
      let t ← r.peek
      let line := p.line.getD t.line
      let collect {α : Type} (build : List α → Node)
          (read : Reader → Except Stop (List α × Reader)) (r : Reader) :
          Except Stop (Node × Reader) := do
        let (parts, r) ← read (← r.declare p.anchor line)
        return r.place p.anchor (build parts)
      let sequence := collect (.sequence line (collectionTag p.tag .sequence))
      let mapping := collect (.mapping line (collectionTag p.tag .mapping))
      let scalar (plain : Bool) (codes : List Nat) (r : Reader) : Except Stop (Node × Reader) := do
        let r ← r.declare p.anchor line
        return r.place p.anchor (.scalar line (scalarTag p.tag plain codes) codes)
      let absent : Except Stop (Node × Reader) :=
        if p.line.isSome then scalar true [] r else .error (.misplaced t.line)
      if indentless && t.kind == .blockEntry then sequence (readIndentlessItems fuel) r
      else match t.kind with
        | .scalar plain codes => scalar plain codes r.next
        | .flowSequence => sequence (readFlowItems true fuel) r.next
        | .flowMapping => mapping (readFlowEntries true fuel) r.next
        | .blockSequence => if block then sequence (readBlockItems fuel) r.next else absent
        | .blockMapping => if block then mapping (readBlockEntries fuel) r.next else absent
        | _ => absent

/-- The node after a dash, a question mark or a colon, or the empty node where one of `ends`
comes next. -/
def readNodeOr (block indentless : Bool) (ends : List Kind) (line : Nat) :
    Nat → Reader → Except Stop (Node × Reader)
  | 0, _ => .error (.misplaced line)
  | fuel + 1, r => do
    let t ← r.peek
    if ends.contains t.kind then return (emptyNode line, r)
    else readNode block indentless fuel r

/-- The entries of a block sequence, up to its end. -/
def readBlockItems : Nat → Reader → Except Stop (List Node × Reader)
  | 0, _ => .error (.misplaced 0)
  | fuel + 1, r => do
    let t ← r.peek
    match t.kind with
    | .blockEntry =>
      let (n, r) ← readNodeOr true false [.blockEntry, .blockEnd] t.line fuel r.next
      let (more, r) ← readBlockItems fuel r
      return (n :: more, r)
    | .blockEnd => return ([], r.next)
    | _ => .error (.misplaced t.line)

/-- The entries of a sequence that is not indented further than the mapping around it. -/
def readIndentlessItems : Nat → Reader → Except Stop (List Node × Reader)
  | 0, _ => .error (.misplaced 0)
  | fuel + 1, r => do
    let t ← r.peek
    match t.kind with
    | .blockEntry =>
      let (n, r) ← readNodeOr true false [.blockEntry, .key, .value, .blockEnd] t.line fuel r.next
      let (more, r) ← readIndentlessItems fuel r
      return (n :: more, r)
    | _ => return ([], r)

/-- The value of a key, or the empty node if there is no colon. -/
def readValueOr (block : Bool) (ends : List Kind) : Nat → Reader → Except Stop (Node × Reader)
  | 0, _ => .error (.misplaced 0)
  | fuel + 1, r => do
    let t ← r.peek
    match t.kind with
    | .value => readNodeOr block block ends t.line fuel r.next
    | _ => return (emptyNode t.line, r)

/-- The entries of a block mapping, up to its end. -/
def readBlockEntries : Nat → Reader → Except Stop (List (Node × Node) × Reader)
  | 0, _ => .error (.misplaced 0)
  | fuel + 1, r => do
    let t ← r.peek
    match t.kind with
    | .key =>
      let (k, r) ← readNodeOr true true [.key, .value, .blockEnd] t.line fuel r.next
      let (v, r) ← readValueOr true [.key, .value, .blockEnd] fuel r
      let (more, r) ← readBlockEntries fuel r
      return ((k, v) :: more, r)
    | .blockEnd => return ([], r.next)
    | _ => .error (.misplaced t.line)

/-- The entries of a flow sequence, up to its bracket. One with a key is a mapping of its own. -/
def readFlowItems (first : Bool) : Nat → Reader → Except Stop (List Node × Reader)
  | 0, _ => .error (.misplaced 0)
  | fuel + 1, r => do
    let t ← r.peek
    if t.kind == .flowSequenceEnd then return ([], r.next)
    else if !first && t.kind != .flowEntry then .error (.misplaced t.line)
    else
      let r := if first then r else r.next
      let t ← r.peek
      match t.kind with
      | .key =>
        let (k, r) ←
          readNodeOr false false [.value, .flowEntry, .flowSequenceEnd] t.line fuel r.next
        let (v, r) ← readValueOr false [.flowEntry, .flowSequenceEnd] fuel r
        let (more, r) ← readFlowItems false fuel r
        return (.mapping t.line .mapping [(k, v)] :: more, r)
      | .flowSequenceEnd => return ([], r.next)
      | _ =>
        let (n, r) ← readNode false false fuel r
        let (more, r) ← readFlowItems false fuel r
        return (n :: more, r)

/-- The entries of a flow mapping, up to its brace. -/
def readFlowEntries (first : Bool) : Nat → Reader → Except Stop (List (Node × Node) × Reader)
  | 0, _ => .error (.misplaced 0)
  | fuel + 1, r => do
    let t ← r.peek
    if t.kind == .flowMappingEnd then return ([], r.next)
    else if !first && t.kind != .flowEntry then .error (.misplaced t.line)
    else
      let r := if first then r else r.next
      let t ← r.peek
      match t.kind with
      | .key =>
        let (k, r) ← readNodeOr false false [.value, .flowEntry, .flowMappingEnd] t.line fuel r.next
        let (v, r) ← readValueOr false [.flowEntry, .flowMappingEnd] fuel r
        let (more, r) ← readFlowEntries false fuel r
        return ((k, v) :: more, r)
      | .flowMappingEnd => return ([], r.next)
      | _ =>
        let (k, r) ← readNode false false fuel r
        let t ← r.peek
        let (more, r) ← readFlowEntries false fuel r
        return ((k, emptyNode t.line) :: more, r)

end

/-! ## Documents -/

/-- The directives before a document: the handles that they declare. -/
def readDirectives : Nat → (version : Bool) → Handles → Reader → Except Stop (Handles × Reader)
  | 0, _, _, _ => .error (.misplaced 0)
  | fuel + 1, version, handles, r => do
    let t ← r.peek
    match t.kind with
    | .directive (.version major) =>
      if version || major != 1 then .error (.misplaced t.line)
      else readDirectives fuel true handles r.next
    | .directive (.tagHandle handle tagStart) =>
      if handles.any fun e => e.1 == handle then .error (.misplaced t.line)
      else readDirectives fuel version ((handle, tagStart) :: handles) r.next
    | .directive .other => readDirectives fuel version handles r.next
    | _ => return (handles ++ defaultHandles, r)

/-- The start of a document that is marked, after its directives. -/
def readDocumentStart (r : Reader) : Except Stop Reader := do
  let (handles, r) ← readDirectives (r.tokens.length + 1) false [] r
  let t ← r.peek
  if t.kind == .documentStart then return { r.next with handles := handles }
  else .error (.misplaced t.line)

/-- Over the marks at the ends of documents. -/
def dropDocumentEnds (r : Reader) : Reader :=
  { r with tokens := r.tokens.dropWhile fun t => t.kind == .documentEnd }

/-- Behind the one document of a text there must be nothing but its end. -/
def readStreamEnd (r : Reader) : Except Stop Unit := do
  let r := dropDocumentEnds r
  let t ← r.peek
  if t.kind == .streamEnd then return ()
  else
    let _ ← readDocumentStart r
    .error (.misplaced t.line)

/-- A document from its root on; it must be the only one. -/
def readRoot (r : Reader) : Except Stop Document := do
  let fuel := 2 * r.tokens.length + 2
  let (n, r) ← readNode true false fuel r
  readStreamEnd r
  return ⟨n, r.anchored⟩

/-- Whether a marked document has no content. -/
def isDocumentBound : Kind → Bool
  | .directive _ | .documentStart | .documentEnd | .streamEnd => true
  | _ => false

/-- The document that the tokens denote; without one, it is an empty node. -/
def readDocument (tokens : List Token) : Except Stop Document := do
  let r : Reader := ⟨tokens, defaultHandles, [], []⟩
  let t ← r.peek
  match t.kind with
  | .streamEnd => return ⟨emptyNode t.line, []⟩
  | .directive _ | .documentStart =>
    let r ← readDocumentStart r
    let t ← r.peek
    if isDocumentBound t.kind then
      readStreamEnd r
      return ⟨emptyNode t.line, []⟩
    else readRoot r
  | _ => readRoot r

end Quorum.Yaml
