import NeuralGenome.Proofs.Random.Choice

/-!
# Sources as streams

What is bred depends on the order in which numbers are drawn.  To tell which
number serves for what, a source is seen as a stream: every draw is the number
at the next place, and two positions are chosen from the numbers at the next two
places.  A script is such a source for all lists into which its numbers point.
-/

namespace NeuralGenome

open ListPosition (Within)

/-- The numbers of a stream at so many places from a first one on. -/
def window (stream : Nat → Binary64) (first count : Nat) : List Binary64 :=
  (List.range' first count).map stream

@[simp]
theorem length_window (stream : Nat → Binary64) (first count : Nat) :
    (window stream first count).length = count := by
  rw [window, List.length_map, List.length_range']

theorem window_succ (stream : Nat → Binary64) (first count : Nat) :
    window stream first (count + 1) =
      stream first :: window stream (first + 1) count := by
  rw [window, List.range'_succ, List.map_cons, window]

namespace DrawSource

variable {Source : Type} [DrawSource Source]

/--
A source that hands out the numbers of a stream one after the other, and whose
state is known at every place.  Two positions in a list of the given length come
from two numbers.
-/
structure Streams (length : Nat) (choose : Binary64 → Binary64 → Int × Int)
    (stream : Nat → Binary64) (state : Nat → Source) : Prop where
  next : ∀ place, next (state place) = (stream place, state (place + 1))
  nextPair : ∀ place, (nextPair length).run (state place) =
    (.ok (choose (stream place) (stream (place + 1))), state (place + 2))
  within : ∀ place,
    Within length (choose (stream place) (stream (place + 1))).1 ∧
      Within length (choose (stream place) (stream (place + 1))).2

/-- Several draws are the numbers at as many places. -/
theorem Streams.take {length : Nat} {choose : Binary64 → Binary64 → Int × Int}
    {stream : Nat → Binary64} {state : Nat → Source}
    (streams : Streams length choose stream state) (place count : Nat) :
    DrawSource.take count (state place) =
      (window stream place count, state (place + count)) := by
  induction count generalizing place with
  | zero => rfl
  | succ count ih =>
      rw [take_succ, streams.next, ih, window_succ, Nat.add_assoc,
        Nat.add_comm 1]

end DrawSource

/-! ## Scripts -/

namespace Script

/-- The position in a list of the given length to which a number points. -/
def pointed (length : Nat) (draw : Binary64) : Except Fault Int := do
  let scale ← (Number.integer length).toBinary64
  return (← (draw.mul scale).checkFinite).floored

/-- A number that points into a list, and to a position that fits a word. -/
def Points (length : Nat) (draw : Binary64) : Prop :=
  ((pointed length draw).toOption.any fun position =>
    decide (Within length position) && Word.holds position) = true

instance (length : Nat) : DecidablePred (Points length) :=
  fun _ => inferInstanceAs (Decidable (_ = true))

/-- Where a number points, or the first position if it points nowhere. -/
def target (length : Nat) (draw : Binary64) : Int :=
  (pointed length draw).toOption.getD 0

theorem Points.pointed_eq {length : Nat} {draw : Binary64}
    (points : Points length draw) :
    pointed length draw = .ok (target length draw) ∧
      Within length (target length draw) ∧ Word.holds (target length draw) =
        true := by
  rw [Points] at points
  rw [target]
  cases found : pointed length draw with
  | error fault =>
      rw [found] at points
      cases points
  | ok position =>
      rw [found] at points
      simpa [Except.toOption] using points

/--
A script of numbers that point into lists of a length hands out those numbers in
turn.
-/
theorem streams {length : Nat} {draws : List Binary64} (some : draws ≠ [])
    (points : ∀ draw ∈ draws, Points length draw) :
    DrawSource.Streams length
      (fun first second => (target length first, target length second))
      (fun place => (Script.mk draws place).current) (Script.mk draws) := by
  have known (place : Nat) : Points length (Script.mk draws place).current := by
    refine points _ ?_
    have inside := Nat.mod_lt place (List.length_pos_iff.mpr some)
    rw [current, List.getD_eq_getElem?_getD, List.getElem?_eq_getElem inside]
    exact List.getElem_mem inside
  have position (place : Nat) :
      (nextPosition length).run (Script.mk draws place) =
        (.ok (target length (Script.mk draws place).current),
          Script.mk draws (place + 1)) := by
    rw [← (known place).pointed_eq.1]
    rfl
  constructor
  case next => exact fun place => rfl
  case nextPair =>
    intro place
    have holds : (Word.holds (target length (Script.mk draws place).current) &&
        Word.holds (target length (Script.mk draws (place + 1)).current)) =
          true :=
      Bool.and_eq_true_iff.mpr
        ⟨(known place).pointed_eq.2.2, (known (place + 1)).pointed_eq.2.2⟩
    refine (Procedure.run_bind_of_ok (position place)).trans
      ((Procedure.run_bind_of_ok (position (place + 1))).trans ?_)
    rw [if_pos holds]
    rfl
  case within =>
    intro place
    dsimp only
    exact ⟨(known place).pointed_eq.2.1, (known (place + 1)).pointed_eq.2.1⟩

end Script

end NeuralGenome
