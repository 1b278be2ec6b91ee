import Quorum.Text.Printable

/-!
# Quoted texts

How a text is shown inside a message: between single quotes, or double ones where
that spares escaping, with every character that is not printable spelt out.
-/

namespace Quorum.Text.Quoted

/-- The last `width` hexadecimal digits of `n`, in small letters. -/
def hex (width n : Nat) : List Char :=
  (List.range width).reverse.map fun i => Nat.digitChar (n / Nat.pow 16 i % 16)

/-- A code point spelt out with the shortest of the three forms that holds it. -/
def spell (code : Nat) : List Char :=
  if code < 0x100 then '\\' :: 'x' :: hex 2 code
  else if code < 0x10000 then '\\' :: 'u' :: hex 4 code
  else '\\' :: 'U' :: hex 8 code

/-- One character between quotes of the kind `mark`. -/
def escape (mark c : Char) : List Char :=
  if c == '\\' || c == mark then ['\\', c]
  else match c with
    | '\n' => ['\\', 'n']
    | '\r' => ['\\', 'r']
    | '\t' => ['\\', 't']
    | c => if isPrintable c then [c] else spell c.toNat

/-- Double quotes are used for a text that holds single ones and no double ones. -/
def mark (single double : Bool) : Char :=
  if single && !double then '"' else '\''

/-- The text between quotes. -/
def encode (s : List Char) : List Char :=
  let q := mark (s.contains '\'') (s.contains '"')
  q :: s.flatMap (escape q) ++ [q]

/-- Code points between quotes; one that is no character is spelt out. -/
def encodeCodes (codes : List Nat) : List Char :=
  let q := mark (codes.contains 0x27) (codes.contains 0x22)
  q :: (codes.flatMap fun n => if n.isValidChar then escape q (Char.ofNat n) else spell n) ++ [q]

/-- Bytes between quotes, behind the letter that marks them; one that stands for no character of its own
is spelt out. -/
def encodeBytes (bytes : List UInt8) : List Char :=
  let q := mark (bytes.contains 0x27) (bytes.contains 0x22)
  'b' :: q :: (bytes.flatMap fun b =>
    if b < 0x80 then escape q (Char.ofNat b.toNat) else spell b.toNat) ++ [q]

example : encode "it's".toList = "\"it's\"".toList := by decide +kernel
example : encodeBytes [0x27, 0x0a, 0xe9] = "b\"'\\n\\xe9\"".toList := by decide +kernel
example : encode "a'\"\n".toList = "'a\\'\"\\n'".toList := by decide +kernel

end Quorum.Text.Quoted
