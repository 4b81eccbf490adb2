import NeuralGenome.Text.Printable

/-!
# Quoted text

A quoted text stands between single quotes, or between double quotes when it
holds a single quote and no double one.  Inside, the quote in use and the
backslash are escaped, and so is every character that is not printable.
-/

namespace NeuralGenome

namespace Text

/-- The quote that stands around a text. -/
def quoteFor (chars : List Char) : Char :=
  if chars.contains '\'' && !chars.contains '"' then '"' else '\''

/-- The hexadecimal digits of a number, with leading zeros up to a width. -/
def hexadecimal (width number : Nat) : List Char :=
  let digits := Nat.toDigits 16 number
  List.replicate (width - digits.length) '0' ++ digits

/-- One character of a quoted text. -/
def escape (quote char : Char) : List Char :=
  if char = quote || char = '\\' then ['\\', char]
  else if char = '\t' then ['\\', 't']
  else if char = '\n' then ['\\', 'n']
  else if char = '\r' then ['\\', 'r']
  else if isPrintable char then [char]
  else if char.toNat < 0x100 then '\\' :: 'x' :: hexadecimal 2 char.toNat
  else if char.toNat < 0x10000 then '\\' :: 'u' :: hexadecimal 4 char.toNat
  else '\\' :: 'U' :: hexadecimal 8 char.toNat

/-- A text in quotes. -/
def quoted (text : String) : String :=
  let chars := text.toList
  let quote := quoteFor chars
  String.ofList (quote :: chars.flatMap (escape quote) ++ [quote])

end Text

end NeuralGenome
