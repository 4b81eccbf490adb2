import NeuralGenome.Decimal.Shortest

/-!
# Numbers as text

A number is written with the fewest digits that read back.  `Decimal.Style`
holds the choices that a format makes around those digits, and `Binary64.text`
writes a number in the one style that listings, messages and descriptions share.
-/

namespace NeuralGenome

/-- How digits become text. -/
structure Decimal.Style where
  /--
  The least exponent of a leading digit that is written without an exponent.
  -/
  plainFrom : Int
  /--
  The least exponent of a leading digit that is written with an exponent again.
  -/
  plainBelow : Int
  /-- How many digits an exponent has at least. -/
  exponentWidth : Nat
  /-- The text of a pattern that is not a number. -/
  notANumber : String
  /-- The text of positive infinity. -/
  infinity : String

namespace Decimal

/--
Numbers from `0.0001` to below `1e16` have no exponent; an exponent has at least
two digits.
-/
def Style.standard : Style :=
  ⟨-4, 16, 2, "nan", "inf"⟩

/-- A text of zeros. -/
def zeros (count : Nat) : String :=
  String.ofList (List.replicate count '0')

/-- A text with leading zeros up to a width. -/
def padded (width : Nat) (text : String) : String :=
  zeros (width - text.length) ++ text

/-- The significant digits of a number, without the zeros at the end. -/
def significant (digits : Nat) : List Char :=
  ((Nat.toDigits 10 digits).reverse.dropWhile (· == '0')).reverse

/--
Write digits without exponent; the first digit stands for ten to the power
`leading`.
-/
def plain (digits : List Char) (leading : Int) : String :=
  if leading < 0 then
    "0." ++ zeros (-leading - 1).toNat ++ String.ofList digits
  else
    let whole := leading.toNat + 1
    if digits.length ≤ whole then
      String.ofList digits ++ zeros (whole - digits.length) ++ ".0"
    else
      String.ofList (digits.take whole) ++ "." ++
        String.ofList (digits.drop whole)

/-- Write digits with an exponent. -/
def scientific (style : Style) (digits : List Char) (leading : Int) : String :=
  let fraction := digits.drop 1
  String.ofList (digits.take 1) ++
    (if fraction.isEmpty then "" else "." ++ String.ofList fraction) ++
    (if leading < 0 then "e-" else "e+") ++
    padded style.exponentWidth (toString leading.natAbs)

/-- The text of a positive decimal. -/
def text (style : Style) (decimal : Decimal) : String :=
  let leading : Int := digitCount decimal.digits - 1 + decimal.exponent
  let digits := significant decimal.digits
  if style.plainFrom ≤ leading && leading < style.plainBelow then
    plain digits leading
  else scientific style digits leading

end Decimal

/-- The text of a number in the standard style. -/
def Binary64.text (x : Binary64) : String :=
  let style := Decimal.Style.standard
  let sign := if x.isNegative then "-" else ""
  if x.isNaN then style.notANumber
  else if x.isInfinite then sign ++ style.infinity
  else if x.magnitude = 0 then sign ++ "0.0"
  else sign ++ (Decimal.shortest x.magnitude).text style

end NeuralGenome
