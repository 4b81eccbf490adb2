import NeuralGenome.Binary64.Rounding
import NeuralGenome.Text.Blank

/-!
# Reading numerals

A plain integer is at most a minus and digits without a zero in front.  An
integer numeral may also have blank characters around it, a plus, zeros in
front, a fraction of zeros behind it, and single underscores between its
characters; none of them counts.

A decimal numeral is an optional sign and digits, with a fraction and a power of
ten where there are any; it is read as the nearest binary64 pattern.  The words
for an infinity and for what is not a number are decimal numerals too, and blank
characters and single underscores do not count here either.
-/

namespace NeuralGenome

namespace Decimal

/-- Whether a character is one of the ten digits. -/
def isDigit (char : Char) : Bool :=
  '0' ≤ char && char ≤ '9'

/-- The number that digits spell. -/
def digitsValue (digits : List Char) : Nat :=
  digits.foldl (fun number digit => 10 * number + (digit.toNat - '0'.toNat)) 0

/-- Split a leading sign off; whether it is a minus comes first. -/
def splitSign : List Char → Bool × List Char
  | '-' :: rest => (true, rest)
  | '+' :: rest => (false, rest)
  | rest => (false, rest)

/-! ## Underscores -/

/-- Whether no underscore is followed by another one or by nothing. -/
def separates : List Char → Bool
  | [] => true
  | ['_'] => false
  | '_' :: '_' :: _ => false
  | _ :: rest => separates rest

/--
A text without its underscores, each of which must stand between two other
characters.
-/
def ungrouped? (chars : List Char) : Option (List Char) :=
  if chars.head? != some '_' && separates chars then
    some (chars.filter (· != '_'))
  else none

/-! ## Plain integers -/

/-- An integer as it is written. -/
structure IntegerNumeral where
  negative : Bool
  digits : List Char
deriving DecidableEq

/-- The integer that a numeral stands for. -/
def IntegerNumeral.value (numeral : IntegerNumeral) : Int :=
  if numeral.negative then -(digitsValue numeral.digits : Int)
  else digitsValue numeral.digits

/-- Split a leading minus off. -/
def splitMinus : List Char → Bool × List Char
  | '-' :: rest => (true, rest)
  | rest => (false, rest)

/--
Whether digits are those of a plain integer: there are some, and no zero is in
front.
-/
def isPlain : List Char → Bool
  | [] => false
  | ['0'] => true
  | '0' :: _ => false
  | digits => digits.all isDigit

/-- Read a plain integer. -/
def plainInteger? (chars : List Char) : Option IntegerNumeral :=
  let (negative, digits) := splitMinus chars
  if isPlain digits then some ⟨negative, digits⟩ else none

/--
How many digits the plain integer has that a text starts with, whatever follows
it.
-/
def plainLength (text : String) : Nat :=
  let digits := (splitMinus text.toList).2.takeWhile isDigit
  if isPlain digits then digits.length else 0

/-! ## Integers -/

/--
Remove the zeros in front of an integer, and the underscores among those zeros.
A minus may follow the zeros; the last of them stays where no digit and no minus
follows.
-/
def withoutLeadingZeros (chars : List Char) : List Char :=
  if chars.head? == some '0' then
    let zeros := chars.takeWhile fun char => char == '0' || char == '_'
    match chars.drop zeros.length with
    | [] => zeros.drop (zeros.length - 1)
    | '.' :: fraction => zeros.drop (zeros.length - 1) ++ '.' :: fraction
    | rest => rest
  else chars

/-- Whether characters are a point and zeros behind it. -/
def isZeroFraction : List Char → Bool
  | '.' :: zeros => !zeros.isEmpty && zeros.all (· == '0')
  | _ => false

/-- Remove a fraction of zeros. -/
def withoutZeroFraction (chars : List Char) : List Char :=
  if isZeroFraction (chars.dropWhile (· != '.')) then chars.takeWhile (· != '.')
  else chars

/-- Read an integer numeral.  No minus stands directly behind its sign. -/
def integerNumeral? (text : String) : Option IntegerNumeral :=
  let (negative, chars) := splitSign (Text.trim text.toList)
  if chars.head? == some '-' then none
  else
    (ungrouped? (withoutZeroFraction (withoutLeadingZeros chars))).bind
      fun plain => plainInteger? (if negative then '-' :: plain else plain)

/-! ## Decimals -/

/-- Read the power of ten that a numeral names. -/
def exponent? (chars : List Char) : Option Int :=
  let (negative, digits) := splitSign chars
  if !digits.isEmpty && digits.all isDigit then
    some (IntegerNumeral.mk negative digits).value
  else none

/--
Read the power of ten at the end of a numeral; nothing stands for the power
zero.
-/
def readPower? : List Char → Option Int
  | [] => some 0
  | mark :: rest => if mark == 'e' || mark == 'E' then exponent? rest else none

/-- Split off the fraction that follows the whole digits of a numeral. -/
def splitFraction : List Char → List Char × List Char
  | '.' :: rest => (rest.takeWhile isDigit, rest.dropWhile isDigit)
  | rest => ([], rest)

/--
The pattern nearest to `digits * 10 ^ exponent`; powers beyond all patterns are
cut short.
-/
def nearest (negative : Bool) (digits : Nat) (exponent : Int) : Binary64 :=
  let count := (Nat.toDigits 10 digits).length
  if digits = 0 || exponent + count < -400 then .ofMagnitude negative 0
  else if 400 < exponent + count then .infinity negative
  else
    Binary64.rounded negative
      (digits * Nat.pow 10 exponent.toNat * Binary64.quantaPerOne)
      (Nat.pow 10 (-exponent).toNat)

/-- Read digits with a fraction and a power of ten as the nearest pattern. -/
def digitsNumeral? (negative : Bool) (chars : List Char) : Option Binary64 :=
  let whole := chars.takeWhile isDigit
  let (fraction, rest) := splitFraction (chars.dropWhile isDigit)
  if whole.isEmpty && fraction.isEmpty then none
  else
    (readPower? rest).map fun power =>
      nearest negative (digitsValue (whole ++ fraction))
        (power - fraction.length)

/-- Read a word that stands for an infinity or for what is not a number. -/
def wordNumeral? (negative : Bool) (chars : List Char) : Option Binary64 :=
  let word := String.ofList (chars.map Char.toLower)
  if word = "inf" || word = "infinity" then some (.infinity negative)
  else if word = "nan" then some .nan
  else none

/-- Read a signed decimal numeral with nothing around it. -/
def signedNumeral? (chars : List Char) : Option Binary64 :=
  let (negative, chars) := splitSign chars
  (wordNumeral? negative chars).or (digitsNumeral? negative chars)

/-- Read a decimal numeral as the nearest pattern. -/
def readNumber? (text : String) : Option Binary64 :=
  (signedNumeral? (Text.trim text.toList)).or
    ((ungrouped? text.toList).bind signedNumeral?)

end Decimal

end NeuralGenome
