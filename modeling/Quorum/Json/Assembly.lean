import Quorum.Json.Token
import Quorum.Repeat

/-!
# Data of JSON tokens

Tokens are put together from left to right, with the lists and mappings that are still
open on a stack. A mapping is looked through for repeated keys when it is closed, so the
first one that is closed with a repeated key decides, whatever follows it.
-/

namespace Quorum.Json

/-- Why a text is no JSON document. -/
inductive Stop where
  /-- The text is wrong where the given rest of it starts. -/
  | misplaced (rest : List Char)
  /-- A mapping has this key twice. -/
  | repeated (key : Scalar)
  deriving DecidableEq, Repr

/-- A list or mapping that is still open, with what it holds so far, the last first. -/
inductive Open where
  | list (items : List Data)
  | mapping (entries : List (Scalar × Data))
  /-- A mapping that waits for the value of a key. -/
  | entry (entries : List (Scalar × Data)) (key : Scalar)

/-- What may come next. -/
inductive Stage where
  | value
  /-- Right after the opening of a list: a value, or its end. -/
  | item
  /-- Right after the opening of a mapping: a key, or its end. -/
  | firstKey
  | key
  | colon
  /-- Behind a value of a list. -/
  | afterItem
  /-- Behind a value of a mapping. -/
  | afterEntry
  /-- Behind the document. -/
  | done (document : Data)

/-- The stage and the stack once a value is complete. -/
def complete (v : Data) : List Open → Stage × List Open
  | [] => (.done v, [])
  | .list items :: st => (.afterItem, .list (v :: items) :: st)
  | .entry entries key :: st => (.afterEntry, .mapping ((key, v) :: entries) :: st)
  | .mapping entries :: st => (.afterEntry, .mapping entries :: st)

/-- Closes the innermost mapping. -/
def closeMapping : List Open → Except Stop (Stage × List Open)
  | .mapping entries :: st =>
    match firstRepeat? Scalar.same [] (entries.reverse.map Prod.fst) with
    | some key => .error (.repeated key)
    | none => .ok (complete (.mapping entries.reverse) st)
  | st => .ok (.afterEntry, st)

/-- Closes the innermost list. -/
def closeList : List Open → Stage × List Open
  | .list items :: st => complete (.list items.reverse) st
  | st => (.afterItem, st)

/-- Makes the innermost mapping wait for the value of a key. -/
def awaitValue (key : Scalar) : List Open → List Open
  | .mapping entries :: st => .entry entries key :: st
  | st => st

/-- Takes the token where a value may stand. -/
def startValue (t : Token) (st : List Open) : Except Stop (Stage × List Open) :=
  match t.kind with
  | .openMapping => .ok (.firstKey, .mapping [] :: st)
  | .openList => .ok (.item, .list [] :: st)
  | .text v | .scalar v => .ok (complete (.scalar v) st)
  | .brokenText place => .error (.misplaced place)
  | _ => .error (.misplaced t.place)

/-- Takes the token where a key must stand. -/
def startKey (t : Token) (st : List Open) : Except Stop (Stage × List Open) :=
  match t.kind with
  | .text key => .ok (.colon, awaitValue key st)
  | .brokenText place => .error (.misplaced place)
  | _ => .error (.misplaced t.place)

/-- Takes one token. -/
def step (t : Token) : Stage → List Open → Except Stop (Stage × List Open)
  | .value, st => startValue t st
  | .item, st => if t.kind = .closeList then .ok (closeList st) else startValue t st
  | .firstKey, st => if t.kind = .closeMapping then closeMapping st else startKey t st
  | .key, st => startKey t st
  | .colon, st => if t.kind = .colon then .ok (.value, st) else .error (.misplaced t.place)
  | .afterItem, st =>
    if t.kind = .closeList then .ok (closeList st)
    else if t.kind = .comma then .ok (.value, st)
    else .error (.misplaced t.place)
  | .afterEntry, st =>
    if t.kind = .closeMapping then closeMapping st
    else if t.kind = .comma then .ok (.key, st)
    else .error (.misplaced t.place)
  | .done _, _ => .error (.misplaced t.place)

/-- Takes all tokens. -/
def assemble : List Token → Stage → List Open → Except Stop Data
  | [], .done v, _ => .ok v
  | [], _, _ => .error (.misplaced [])
  | t :: r, stage, st =>
    match step t stage st with
    | .ok (stage, st) => assemble r stage st
    | .error e => .error e

/-- Reads a JSON document. -/
def read (s : List Char) : Except Stop Data :=
  assemble (scan s) .value []

end Quorum.Json
