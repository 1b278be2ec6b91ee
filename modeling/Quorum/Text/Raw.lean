/-!
# Texts as they are kept

A text is a sequence of code points, and some code points are no characters: halves of a pair that
stand alone. Such a text is kept as it is. Where a text is only looked through for digits, blanks,
letters and parentheses its characters are enough (`RawText.chars`), for what stands for a code
point that is no character is none of these either.
-/

namespace Quorum

/-- A text, or code points of which some are no characters. -/
inductive RawText where
  | text (value : List Char)
  | unpaired (codes : List Nat)
  deriving DecidableEq, Repr

namespace RawText

instance : Coe (List Char) RawText :=
  ⟨text⟩

/-- The characters of the text; a code point that is no character is replaced. -/
def chars : RawText → List Char
  | text s => s
  | unpaired codes => codes.map fun n => if n.isValidChar then Char.ofNat n else '\uFFFD'

/-- Whether the text can be written in bytes, so that it can name a file. Of the code points that
are no characters, those that stand for single bytes can be written. -/
def isEncodable : RawText → Bool
  | text _ => true
  | unpaired codes => codes.all fun n => n.isValidChar || (0xDC80 ≤ n && n ≤ 0xDCFF)

@[simp] theorem chars_text (s : List Char) : (text s).chars = s := rfl

end RawText

end Quorum
