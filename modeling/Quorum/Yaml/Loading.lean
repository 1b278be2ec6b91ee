import Quorum.Yaml.Cursor

/-!
# Loading YAML documents

A reader of YAML texts (`Loader`) makes values of the nodes of a document one after the other. Each
node of which it makes a mapping it hands over first (`Target`), for the keys to be looked at: no
two may be the same (`checkTarget`). In the end it has the data of the document, unless it stops on
the way. So a text is broken off (`Break`) for a key that is repeated, for what cannot be taken
apart into keys and values, or for what the reader itself stops at.
-/

namespace Quorum.Yaml

/-- The kinds of nodes, by content. -/
inductive NodeKind where
  | scalar | sequence | mapping
  deriving DecidableEq, Repr

/-- The name of the kind, as messages have it. -/
def NodeKind.name : NodeKind → String
  | scalar => "ScalarNode"
  | sequence => "SequenceNode"
  | mapping => "MappingNode"

/-- What the reader makes of the key of an entry. -/
inductive Key where
  | value (s : Scalar)
  /-- A collection, which cannot be compared with other keys. -/
  | collection
  /-- Nothing: the reader stops at the key. -/
  | failing (stop : Stop)
  deriving DecidableEq, Repr

/-- A node of which a mapping is to be made. -/
inductive Target where
  | mapping (keys : List Key)
  /-- Code points that are marked as a mapping. -/
  | scalar (codes : List Nat)
  /-- A sequence that is marked as a mapping, with the kinds of its items. -/
  | sequence (kinds : List NodeKind)
  deriving DecidableEq, Repr

/-- Why a text gives no data. -/
inductive Break where
  /-- A mapping has this key twice. -/
  | repeated (key : Scalar)
  | stopped (stop : Stop)
  deriving DecidableEq, Repr

/-- No two keys may be the same. Collections are passed over. -/
def checkKeys (seen : List Scalar) : List Key → Except Break Unit
  | [] => .ok ()
  | .value s :: r =>
    if seen.any (Scalar.same s) then .error (.repeated s) else checkKeys (s :: seen) r
  | .collection :: r => checkKeys seen r
  | .failing stop :: _ => .error (.stopped stop)

/-- The node is taken apart into keys and values, and the keys are looked at. What is no mapping can
be taken apart only if there is nothing in it. -/
def checkTarget : Target → Except Break Unit
  | .mapping keys => checkKeys [] keys
  | .scalar [] | .sequence [] => .ok ()
  | .scalar (_ :: _) => .error (.stopped (.refused .notPair))
  | .sequence (kind :: _) => .error (.stopped (.refused (.indivisible kind.name)))

/-- What a reader does with a text: the nodes that it hands over, in order, and what it comes to as
long as nothing is wrong with these. -/
structure Loading where
  targets : List Target
  outcome : Except Stop Data

/-- A reader of YAML texts. -/
abbrev Loader := List Char → Loading

/-- The data of a text, if nothing is wrong with what is handed over. -/
def Loading.check (l : Loading) : Except Break Data := do
  l.targets.forM checkTarget
  l.outcome.mapError .stopped

end Quorum.Yaml
