import NeuralGenome.Number

/-!
# Positions and moves

Agents live on an unbounded grid of integers.  A move leads from one position to
another.
-/

namespace NeuralGenome

/-- A displacement on the grid. -/
structure Move where
  dx : Int
  dy : Int
deriving DecidableEq, Inhabited

/-- A place on the grid. -/
structure Position where
  x : Int
  y : Int
deriving DecidableEq, Inhabited

namespace Position

/-- The place with both coordinates zero. -/
def origin : Position :=
  ⟨0, 0⟩

/-- The place at given coordinates, of which the integer parts count. -/
def ofNumbers (x y : Number) : Except Fault Position := do
  return ⟨← x.toInt, ← y.toInt⟩

/-- The place that a move leads to. -/
def move (position : Position) (move : Move) : Position :=
  ⟨position.x + move.dx, position.y + move.dy⟩

/-- The move that leads to another place. -/
def moveTo (position target : Position) : Move :=
  ⟨target.x - position.x, target.y - position.y⟩

/-- A place as text. -/
def text (position : Position) : String :=
  s!"({position.x}, {position.y})"

/-- The move to a place leads there. -/
@[simp]
theorem move_moveTo (position target : Position) :
    position.move (position.moveTo target) = target := by
  cases position
  cases target
  simp only [move, moveTo, mk.injEq]
  omega

end Position

end NeuralGenome
