import NeuralGenome.Text.CodePointSet

/-!
# Blank characters

Blank characters are the spaces, the line and page breaks, and the separators of
lines and paragraphs.  They may stand around a numeral without changing it.
-/

namespace NeuralGenome

namespace Text

/-- The code points of blank characters. -/
def blanks : CodePointSet := CodePointSet.mk
  #[0x9, 0xe, 0x20, 0x21, 0x85, 0x86, 0xa0, 0xa1, 0x1680, 0x1681, 0x2000,
    0x200b, 0x2028, 0x202a, 0x202f, 0x2030, 0x205f, 0x2060, 0x3000, 0x3001]

/-- Whether a character is blank. -/
def isBlank (char : Char) : Bool :=
  blanks.contains char.toNat

/-- A text without the blank characters at both ends. -/
def trim (chars : List Char) : List Char :=
  ((chars.dropWhile isBlank).reverse.dropWhile isBlank).reverse

end Text

end NeuralGenome
