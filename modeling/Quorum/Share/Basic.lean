import Quorum.Formula.Basic
import Quorum.Text.Raw

/-!
# Shares

A share as it stands in a document, and the point of the sharing polynomial that it
denotes. Neither is shown with its value, which is secret.
-/

namespace Quorum

/-- A share of the secret: its number, and its value as a text with a base for numerals. -/
structure Share where
  id : Int
  base : Int
  raw : RawText
  deriving DecidableEq, Repr

/-- The characters of the share's value. -/
def Share.value (s : Share) : List Char :=
  s.raw.chars

/-- A point of the sharing polynomial. -/
structure Point where
  x : Int
  y : Int
  deriving DecidableEq, Repr

/-- A share without its value. -/
def Share.display (s : Share) : String :=
  s!"Share(id={s.id}, base={s.base})"

/-- A point without its ordinate. -/
def Point.display (p : Point) : String :=
  s!"EvaluatedShare(x={p.x})"

end Quorum
