import NeuralGenome.Procedure

/-!
# Sources of random numbers

Whatever needs chance is written against any source of draws: a source hands out
numbers between zero and one, and pairs of list positions, and moves on.  The
choice of a pair may fail, because a source may repeat numbers that were not
drawn at all.  `DrawSource.take` draws several numbers in a row.
-/

namespace NeuralGenome

/-- A state from which random numbers are drawn. -/
class DrawSource (Source : Type) where
  /-- The next number, at least zero and below one. -/
  next : Source → Binary64 × Source
  /-- Two positions in a list of the given length. -/
  nextPair : Nat → Procedure Source (Int × Int)

namespace DrawSource

variable {Source : Type} [DrawSource Source]

/-- Draw a number of times in a row. -/
def take (count : Nat) (source : Source) : List Binary64 × Source :=
  match count with
  | 0 => ([], source)
  | count + 1 =>
      let (draw, source) := next source
      let (rest, source) := take count source
      (draw :: rest, source)

@[simp]
theorem take_zero (source : Source) : take 0 source = ([], source) := rfl

/-- The first of several draws is made first. -/
theorem take_succ (count : Nat) (source : Source) :
    take (count + 1) source =
      ((next source).1 :: (take count (next source).2).1,
        (take count (next source).2).2) := rfl

/-- Drawing yields as many numbers as asked for. -/
@[simp]
theorem length_take (count : Nat) (source : Source) :
    (take count source).1.length = count := by
  induction count generalizing source with
  | zero => rfl
  | succ count ih => simp [take, ih]

/-- Draws in a row can be made in two parts. -/
theorem take_add (first second : Nat) (source : Source) :
    take (first + second) source =
      ((take first source).1 ++ (take second (take first source).2).1,
        (take second (take first source).2).2) := by
  induction first generalizing source with
  | zero => rw [Nat.zero_add, take_zero, List.nil_append]
  | succ first ih =>
      rw [Nat.succ_add, take_succ, ih, take_succ, List.cons_append]

end DrawSource

end NeuralGenome
