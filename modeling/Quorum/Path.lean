import Quorum.Text.Pieces

/-!
# Paths

Paths as sequences of names between slashes, and what is found when one is followed in a
tree of files.
-/

namespace Quorum

/-- What is found at a path. -/
inductive Found where
  | missing
  /-- The path goes on below a file. -/
  | belowFile
  /-- The path, or a name in it, is longer than a path or name can be. -/
  | tooLong
  | directory
  | file (bytes : List UInt8)
  deriving DecidableEq, Repr

namespace Path

/-- Whether a piece of a path names something; an empty one and a single dot do not. -/
def isName (piece : List Char) : Bool :=
  !piece.isEmpty && piece != ['.']

/-- The names of a path. -/
def names (path : List Char) : List (List Char) :=
  (Text.splitAll '/' path).filter isName

/-- The ending of a name from its last dot on; a dot at either end of the name starts none. -/
def endingOfName (name : List Char) : List Char :=
  let ending := (name.reverse.takeWhile (· != '.')).reverse
  if ending.isEmpty || name.length ≤ ending.length + 1 then [] else '.' :: ending

/-- The ending of the last name. -/
def ending (path : List Char) : List Char :=
  match (names path).getLast? with
  | some name => endingOfName name
  | none => []

/-- The path with nothing in it that names nothing. -/
def tidy (path : List Char) : List Char :=
  let root := if path.head? == some '/' then ['/'] else []
  match names path with
  | [] => if root.isEmpty then ['.'] else root
  | ns => root ++ Text.joinWith '/' ns

/-- The number of bytes of a text. -/
def byteCount (s : List Char) : Nat :=
  s.foldl (fun n c => n + c.utf8Size) 0

/-- A path of so many bytes can be followed. -/
def longest : Nat := 4095

/-- A file or directory can have a name of so many bytes. -/
def longestName : Nat := 255

end Path

/-- Files and directories by their names from the root on. Of two entries with the same names the
later one counts. -/
abbrev FileTree := List (List (List Char) × Found)

namespace FileTree

/-- What is at a sequence of names; the directories above an entry are there with it. -/
def lookup (tree : FileTree) (names : List (List Char)) : Found :=
  match tree.reverse.find? fun e => e.1 == names with
  | some (_, found) => found
  | none =>
    if names.isEmpty || tree.any fun e => names.isPrefixOf e.1 then .directory else .missing

/-- What is found outside the tree: directories above its root, and nothing else in them. -/
def outside (names : List (List Char)) : Found :=
  match names.dropWhile (· == ['.', '.']) with
  | [] => .directory
  | n :: _ => if Path.longestName < Path.byteCount n then .tooLong else .missing

/-- Follows names from a place that has been reached by `here`. -/
def walk (tree : FileTree) : (here : List (List Char)) → List (List Char) → Found
  | here, [] => tree.lookup here
  | here, n :: r =>
    match tree.lookup here with
    | .directory =>
      if !Path.isName n then walk tree here r
      else if n == ['.', '.'] then
        if here.isEmpty then outside (r.filter Path.isName)
        else walk tree here.dropLast r
      else if Path.longestName < Path.byteCount n then .tooLong
      else walk tree (here ++ [n]) r
    | .file _ => .belowFile
    | found => found

/-- What is found at a path from the root on; an absolute path leads out of the tree. -/
def find (tree : FileTree) (path : List Char) : Found :=
  if path.isEmpty then .missing
  else if Path.longest < Path.byteCount path then .tooLong
  else if path.head? == some '/' then outside (Path.names path)
  else tree.walk [] (Text.splitAll '/' path)

end FileTree

end Quorum
