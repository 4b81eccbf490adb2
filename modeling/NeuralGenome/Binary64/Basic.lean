/-!
# Binary64 patterns

Signals, weights and operands are numbers of the binary64 interchange format.  A
number is kept as its 64-bit pattern, so that every payload of a not-a-number
and both zeros stay apart.

Every finite pattern stands for a whole multiple of one *quantum*, `2 ^ -1074`,
the least positive number of the format.  `Binary64.quanta` is that multiple; it
makes exact arithmetic on finite patterns arithmetic on integers.
`Binary64.rank` orders all patterns that are numbers, infinities included.
-/

namespace NeuralGenome

/--
A number of the binary64 interchange format, equal to another exactly when all
bits agree.
-/
structure Binary64 where
  bits : UInt64
deriving DecidableEq, Inhabited

namespace Binary64

/-! ## Fields -/

/-- The pattern without its sign bit. -/
def magnitude (x : Binary64) : Nat :=
  x.bits.toNat % 0x8000000000000000

/-- Whether the sign bit is set. -/
def isNegative (x : Binary64) : Bool :=
  0x8000000000000000 ≤ x.bits.toNat

/--
The magnitude of both infinities: the exponent field is full and the fraction is
empty.
-/
def infinityMagnitude : Nat :=
  0x7ff0000000000000

/-- A pattern above infinity is not a number. -/
def isNaN (x : Binary64) : Bool :=
  infinityMagnitude < x.magnitude

/-- Whether the pattern is one of the two infinities. -/
def isInfinite (x : Binary64) : Bool :=
  x.magnitude == infinityMagnitude

/-- Whether the pattern stands for a real number. -/
def isFinite (x : Binary64) : Bool :=
  x.magnitude < infinityMagnitude

/-- The pattern with a given sign and magnitude. -/
def ofMagnitude (negative : Bool) (magnitude : Nat) : Binary64 :=
  ⟨UInt64.ofNat ((if negative then 0x8000000000000000 else 0) + magnitude)⟩

/-! ## Named patterns -/

/-- Positive zero. -/
def zero : Binary64 := ⟨0⟩

/-- Negative zero. -/
def negativeZero : Binary64 := ⟨0x8000000000000000⟩

/-- One half. -/
def half : Binary64 := ⟨0x3fe0000000000000⟩

/-- One. -/
def one : Binary64 := ⟨0x3ff0000000000000⟩

/-- Minus one. -/
def minusOne : Binary64 := ⟨0xbff0000000000000⟩

/-- Two. -/
def two : Binary64 := ⟨0x4000000000000000⟩

/-- Minus two. -/
def minusTwo : Binary64 := ⟨0xc000000000000000⟩

/-- The quiet not-a-number that arithmetic produces. -/
def nan : Binary64 := ⟨0x7ff8000000000000⟩

/-- The infinity of a given sign. -/
def infinity (negative : Bool) : Binary64 :=
  ofMagnitude negative infinityMagnitude

/-! ## Exact values -/

/--
The whole number of quanta that a magnitude stands for.

An empty exponent field counts quanta directly.  Otherwise the fraction gains
its hidden leading bit and every further exponent doubles it.
-/
def quantaOfMagnitude (magnitude : Nat) : Nat :=
  let exponent := magnitude >>> 52
  if exponent = 0 then magnitude
  else (0x10000000000000 + magnitude % 0x10000000000000) <<< (exponent - 1)

/-- The exact value of a finite pattern, counted in quanta of `2 ^ -1074`. -/
def quanta (x : Binary64) : Int :=
  if x.isNegative then -(quantaOfMagnitude x.magnitude : Int)
  else quantaOfMagnitude x.magnitude

/-- How many quanta make one. -/
def quantaPerOne : Nat :=
  1 <<< 1074

/-! ## Order -/

/-- The signed magnitude, which grows with the value of the pattern. -/
def rank (x : Binary64) : Int :=
  if x.isNegative then -(x.magnitude : Int) else x.magnitude

/--
Whether one number is less than another; a not-a-number is comparable to
nothing.
-/
def less (x y : Binary64) : Bool :=
  !x.isNaN && !y.isNaN && x.rank < y.rank

/-- Whether one number is at most another. -/
def atMost (x y : Binary64) : Bool :=
  !x.isNaN && !y.isNaN && x.rank ≤ y.rank

/--
Whether two patterns are the same number: both zeros are, a not-a-number never
is.
-/
def sameNumber (x y : Binary64) : Bool :=
  !x.isNaN && !y.isNaN && x.rank == y.rank

end Binary64

end NeuralGenome
