import Quorum.Yaml.Lexer
import Quorum.Yaml.Loading
import Quorum.Yaml.Node
import Quorum.Yaml.Value

/-!
# Data of YAML documents

The reader of YAML texts that runs (`load`). What is no collection must have a value, and a mapping
must have such values as keys; before its entries are looked at it is handed over. Of an item of pairs
no mapping is made: it must be a single entry, whose parts are looked at. This is done from the root
on, level by level, so of two faults the outermost decides, and of those equally deep the one that
comes first. A node that stands in many places is looked at once (`Document.stepsOfLevels`), so there
is an end also where a node stands inside itself; such a document has no last level, and data is made
of as many levels as are asked for (`Document.unfold`).
-/

namespace Quorum.Yaml

namespace Node

/-- The line on which the node starts. -/
def line : Node → Nat
  | scalar line _ _ | sequence line _ _ | mapping line _ _ => line
  | reference _ => 0

/-- The kind of the node. -/
def tag : Node → Tag
  | scalar _ tag _ | sequence _ tag _ | mapping _ tag _ => tag
  | reference _ => .null

mutual

/-- How many nodes are written in the node. -/
def size : Node → Nat
  | scalar _ _ _ | reference _ => 1
  | sequence _ _ items => sizeOfItems items + 1
  | mapping _ _ entries => sizeOfEntries entries + 1

def sizeOfItems : List Node → Nat
  | [] => 0
  | n :: r => n.size + sizeOfItems r

def sizeOfEntries : List (Node × Node) → Nat
  | [] => 0
  | (k, v) :: r => k.size + v.size + sizeOfEntries r

end

end Node

/-- The kind of the key `=`, whose value a mapping stands for as a scalar. -/
def valueTag : Tag :=
  .ofPlain ['=']

/-- Whether a node of the kind is made into a mapping. A set is made like one. -/
def Tag.isMade : Tag → Bool
  | .mapping | .set => true
  | _ => false

/-- What is done on the way to the data. -/
inductive Step where
  /-- A node is handed over. -/
  | make (target : Target)
  /-- A value is made, or whatever else must be in order. -/
  | need (done : Except Stop Unit)

/-- The loading of a text that gives the data if nothing is wrong on the way. -/
def Loading.ofSteps (data : Data) : List Step → Loading
  | [] => ⟨[], .ok data⟩
  | .make target :: r =>
    let l := ofSteps data r
    ⟨target :: l.targets, l.outcome⟩
  | .need (.ok _) :: r => ofSteps data r
  | .need (.error stop) :: _ => ⟨[], .error stop⟩

namespace Document

/-- How many nodes there are. -/
def size (d : Document) : Nat :=
  d.anchored.foldl (fun total (_, n) => total + n.size) d.root.size

/-- The node that stands at a place: where a reference is, the node with its anchor. -/
def resolve (d : Document) : Node → Node
  | .reference a => ((d.anchored.find? fun e => e.1 == a).map Prod.snd).getD (emptyNode 0)
  | n => n

/-! ## Values -/

/-- The code points of a node that is marked as a scalar: its own, or those of its value under the
key `=`; at most `fuel` of these inside one another. -/
def codesIn (d : Document) : (fuel : Nat) → Node → Except Stop (List Nat)
  | 0, n => .error (.misplaced (d.resolve n).line)
  | fuel + 1, n =>
    match d.resolve n with
    | .scalar _ _ codes => .ok codes
    | .mapping line _ entries =>
      match entries.find? fun (k, _) => (d.resolve k).tag = valueTag with
      | some (_, v) => d.codesIn fuel v
      | none => .error (.misplaced line)
    | n => .error (.misplaced n.line)

/-- The value of a node; a collection has none. -/
def valueOf (d : Document) (n : Node) : Except Stop (Option Scalar) :=
  let n := d.resolve n
  match n.tag with
  | .sequence | .mapping | .set | .pairs => .ok none
  | .other _ => .error (.misplaced n.line)
  | tag => do
    let codes ← match n with
      | .scalar _ _ codes => pure codes
      | n => d.codesIn d.size n
    some <$> scalarOf n.line tag codes

/-- The kind of the node by its content. -/
def kindOf (d : Document) (n : Node) : NodeKind :=
  match d.resolve n with
  | .sequence .. => .sequence
  | .mapping .. => .mapping
  | _ => .scalar

/-- The node as a key. -/
def keyOf (d : Document) (n : Node) : Key :=
  match d.valueOf n with
  | .ok (some s) => .value s
  | .ok none => .collection
  | .error stop => .failing stop

/-- The entry of a mapping that has one and no more, as an item of pairs must. -/
def pairOf? (d : Document) (n : Node) : Option (Node × Node) :=
  match d.resolve n with
  | .mapping _ _ [e] => some e
  | _ => none

/-! ## Steps -/

/-- A key must not be a collection. -/
def needKey (d : Document) (k : Node) : Except Stop Unit := do
  match ← d.valueOf k with
  | some _ => .ok ()
  | none => .error (.misplaced (d.resolve k).line)

/-- What is done with an item of pairs. Of the mapping itself nothing is made. -/
def stepsOfPair (d : Document) (n : Node) : List Step :=
  match d.pairOf? n with
  | some (k, v) => [k, v].map fun n => .need (discard (d.valueOf n))
  | none => [.need (.error (.misplaced (d.resolve n).line))]

/-- What is done with a node: the values of its parts are made, and what is to become a mapping is
handed over before that. What is marked as a collection must be one. -/
def stepsOf (d : Document) (n : Node) : List Step :=
  match d.resolve n with
  | .sequence line tag items =>
    if tag = .sequence then items.map fun n => .need (discard (d.valueOf n))
    else if tag = .pairs then items.flatMap d.stepsOfPair
    else if tag.isMade then
      [.make (.sequence (items.map d.kindOf)), .need (.error (.misplaced line))]
    else []
  | .mapping line tag entries =>
    if tag.isMade then
      .make (.mapping (entries.map fun e => d.keyOf e.1)) ::
        entries.flatMap fun e => [.need (d.needKey e.1), .need (discard (d.valueOf e.2))]
    else if tag = .sequence ∨ tag = .pairs then [.need (.error (.misplaced line))]
    else []
  | .scalar line tag codes =>
    if tag.isMade then [.make (.scalar codes), .need (.error (.misplaced line))]
    else if tag = .sequence ∨ tag = .pairs then [.need (.error (.misplaced line))]
    else []
  | .reference _ => []

/-- The parts of a collection that may have parts themselves. -/
def parts (d : Document) (n : Node) : List Node :=
  match d.resolve n with
  | .sequence _ tag items =>
    if tag = .sequence then items
    else if tag = .pairs then (items.filterMap d.pairOf?).flatMap fun e => [e.1, e.2]
    else []
  | .mapping _ tag entries => if tag.isMade then entries.map Prod.snd else []
  | _ => []

/-- The nodes without those that have stood somewhere already, and all anchors seen with them. -/
def unseen (seen : List (List Char)) : List Node → List Node × List (List Char)
  | [] => ([], seen)
  | .reference a :: r =>
    if seen.contains a then unseen seen r
    else
      let (ns, seen) := unseen (a :: seen) r
      (.reference a :: ns, seen)
  | n :: r =>
    let (ns, seen) := unseen seen r
    (n :: ns, seen)

/-- What is done with the nodes of a level, then with their parts, and so on down to a level without
nodes, which must be reached within `fuel` levels. -/
def stepsOfLevels (d : Document) : (fuel : Nat) → (seen : List (List Char)) → List Node → List Step
  | 0, _, _ => [.need (.error (.misplaced 0))]
  | fuel + 1, seen, level =>
    if level.isEmpty then []
    else
      let (next, seen) := unseen seen (level.flatMap d.parts)
      level.flatMap d.stepsOf ++ d.stepsOfLevels fuel seen next

/-- What is done with a document, the outer nodes first. Each level has a node that no other has, so
there are no more levels than nodes, unless a mapping is an item of pairs inside itself. -/
def steps (d : Document) : List Step :=
  let (level, seen) := unseen [] [d.root]
  .need (discard (d.valueOf d.root)) :: d.stepsOfLevels (d.size + 1) seen level

/-! ## Data -/

/-- The key of a node that has a value. -/
def keyData (d : Document) (n : Node) : Scalar :=
  match d.keyOf n with
  | .value s => s
  | _ => .null

/-- The value of a node that has one; a collection counts as empty. -/
def bareData (d : Document) (n : Node) : Data :=
  match d.valueOf n with
  | .ok (some s) => .scalar s
  | _ => if (d.resolve n).tag = .mapping then .mapping [] else .list []

/-- The data of a node that has been found sound, with so many levels of collections; those below
them count as empty. A set is the list of its keys. -/
def unfold (d : Document) : (levels : Nat) → Node → Data
  | 0, n => d.bareData n
  | levels + 1, n =>
    match d.resolve n with
    | .sequence _ .sequence items => .list (items.map (d.unfold levels))
    | .sequence _ .pairs items =>
      .list ((items.filterMap d.pairOf?).map fun e =>
        .list [d.unfold levels e.1, d.unfold levels e.2])
    | .mapping _ .mapping entries =>
      .mapping (entries.map fun (k, v) => (d.keyData k, d.unfold levels v))
    | .mapping _ .set entries => .list (entries.map fun (k, _) => .scalar (d.keyData k))
    | n => d.bareData n

end Document

/-- Loads a YAML text, with so many levels of the collections of its document. A text without a
document is nothing. -/
def load (levels : Nat) : Loader := fun text =>
  match readDocument (scan text) with
  | .ok d => .ofSteps (d.unfold levels d.root) d.steps
  | .error stop => ⟨[], .error stop⟩

/-- Loads a text of which only the entries matter, and what stands in each. -/
def loadEntries : Loader :=
  load 2

end Quorum.Yaml
