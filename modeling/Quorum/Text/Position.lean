/-!
# Places in a text

Lines are ended by line feeds alone; lines and columns count from one.
-/

namespace Quorum.Text

/-- A line and a column. -/
structure Position where
  line : Nat
  column : Nat
  deriving DecidableEq, Repr

/-- The place after the characters of a text. -/
def Position.after (before : List Char) : Position where
  line := before.count '\n' + 1
  column := (before.reverse.takeWhile (· != '\n')).length + 1

/-- The place in `whole` where its end part `rest` starts. -/
def Position.ofRest (whole rest : List Char) : Position :=
  .after (whole.take (whole.length - rest.length))

end Quorum.Text
