/-!
# Letter case

Case mapping for texts that are compared with words of ASCII letters. Each map is
the full Unicode one on every character whose image is made of ASCII characters and
leaves the others alone, so a mapped text is an ASCII word exactly when the full map
gives that word.
-/

namespace Quorum.Text

/-- Small letters of one character: the ASCII capitals and the kelvin sign. -/
def lowerChar (c : Char) : Char :=
  if c == '\u212A' then 'k' else c.toLower

/-- The text in small letters. -/
def lower (s : List Char) : List Char :=
  s.map lowerChar

/-- Capitals of one character: the ASCII letters, dotless i, long s and the Latin ligatures. -/
def upperChar (c : Char) : List Char :=
  match c with
  | '\u00DF' => ['S', 'S']
  | '\u0131' => ['I']
  | '\u017F' => ['S']
  | '\uFB00' => ['F', 'F']
  | '\uFB01' => ['F', 'I']
  | '\uFB02' => ['F', 'L']
  | '\uFB03' => ['F', 'F', 'I']
  | '\uFB04' => ['F', 'F', 'L']
  | '\uFB05' => ['S', 'T']
  | '\uFB06' => ['S', 'T']
  | c => [c.toUpper]

/-- The text in capitals. -/
def upper (s : List Char) : List Char :=
  s.flatMap upperChar

end Quorum.Text
