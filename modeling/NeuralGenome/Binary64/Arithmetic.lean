import NeuralGenome.Binary64.Rounding

/-!
# Arithmetic on binary64

A sum or a product of finite patterns is the exact result, rounded once.  Sums
of lists follow a fixed association: short lists from left to right, longer ones
in eight interleaved lanes, and very long ones by halves.
-/

namespace NeuralGenome

namespace Binary64

/-! ## Two operands -/

/--
The sum of two numbers; an exact zero is negative only when both operands are.
-/
def add (x y : Binary64) : Binary64 :=
  if x.isNaN || y.isNaN then nan
  else if x.isInfinite then
    if y.isInfinite && x.isNegative != y.isNegative then nan else x
  else if y.isInfinite then y
  else
    let total := x.quanta + y.quanta
    if total = 0 then
      if x.isNegative && y.isNegative then negativeZero else zero
    else rounded (decide (total < 0)) total.natAbs 1

/-- The product of two numbers, whose sign is the product of the signs. -/
def mul (x y : Binary64) : Binary64 :=
  let negative := x.isNegative != y.isNegative
  if x.isNaN || y.isNaN then nan
  else if x.isInfinite || y.isInfinite then
    if x.magnitude = 0 || y.magnitude = 0 then nan else infinity negative
  else rounded negative (x.quanta.natAbs * y.quanta.natAbs) quantaPerOne

/-- The lesser of two numbers, or whichever is not a number. -/
def lesser (x y : Binary64) : Binary64 :=
  if x.isNaN then x else if y.isNaN || y.less x then y else x

/-- The greater of two numbers, or whichever is not a number. -/
def greater (x y : Binary64) : Binary64 :=
  if x.isNaN then x else if y.isNaN || x.less y then y else x

/-! ## Lists -/

/-- Eight running sums. -/
structure Lanes where
  first : Binary64
  second : Binary64
  third : Binary64
  fourth : Binary64
  fifth : Binary64
  sixth : Binary64
  seventh : Binary64
  eighth : Binary64

/-- Add one group of eight, lane by lane. -/
def Lanes.add (lanes group : Lanes) : Lanes :=
  ⟨lanes.first.add group.first, lanes.second.add group.second,
    lanes.third.add group.third, lanes.fourth.add group.fourth,
    lanes.fifth.add group.fifth, lanes.sixth.add group.sixth,
    lanes.seventh.add group.seventh, lanes.eighth.add group.eighth⟩

/-- The lanes added up as a balanced tree. -/
def Lanes.total (lanes : Lanes) : Binary64 :=
  ((lanes.first.add lanes.second).add (lanes.third.add lanes.fourth)).add
    ((lanes.fifth.add lanes.sixth).add (lanes.seventh.add lanes.eighth))

/--
Add whole groups of eight to the lanes, then the remaining values one by one to
their total.
-/
def Lanes.sweep (lanes : Lanes) : List Binary64 → Binary64
  | a :: b :: c :: d :: e :: f :: g :: h :: rest =>
      (lanes.add ⟨a, b, c, d, e, f, g, h⟩).sweep rest
  | rest => rest.foldl Binary64.add lanes.total

/-- The sum of a list of at most one hundred and twenty-eight values. -/
def blockSum : List Binary64 → Binary64
  | a :: b :: c :: d :: e :: f :: g :: h :: rest =>
      Lanes.sweep ⟨a, b, c, d, e, f, g, h⟩ rest
  | values => values.foldl add negativeZero

/--
The sum of a list, where more than one hundred and twenty-eight values are
summed by halves.
-/
def pairwiseSum (values : List Binary64) : Binary64 :=
  if 128 < values.length then
    let half := values.length / 2
    let cut := half - half % 8
    add (pairwiseSum (values.take cut)) (pairwiseSum (values.drop cut))
  else blockSum values
termination_by values.length
decreasing_by
  all_goals
    simp only [List.length_take, List.length_drop]
    omega

/-- The sum of a list, which is never negative zero. -/
def sum (values : List Binary64) : Binary64 :=
  add zero (pairwiseSum values)

/--
The least of a list: zero for the empty list, not a number when any value is
not.
-/
def minimum : List Binary64 → Binary64
  | [] => zero
  | value :: rest => rest.foldl lesser value

/--
The greatest of a list: zero for the empty list, not a number when any value is
not.
-/
def maximum : List Binary64 → Binary64
  | [] => zero
  | value :: rest => rest.foldl greater value

end Binary64

end NeuralGenome
