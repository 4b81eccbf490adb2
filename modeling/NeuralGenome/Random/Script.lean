import NeuralGenome.Number
import NeuralGenome.Random.Source
import NeuralGenome.Word

/-!
# Scripted draws

A script repeats a fixed list of numbers for ever and counts how many it has
handed out.  A position in a list is a number scaled to the length and cut
downward to an integer.  The numbers are not confined to zero and one, so that a
position may be negative or too great, and a number that is not finite leads to
none.  Two positions are handed out together, and only if both fit a word.
-/

namespace NeuralGenome

/-- A list of numbers that repeats, and how many have been drawn. -/
structure Script where
  draws : List Binary64
  used : Nat
deriving DecidableEq

namespace Script

/-- The script before its first draw. -/
def ofList (draws : List Binary64) : Script :=
  ⟨draws, 0⟩

/-- The number that is drawn next; an empty script repeats zero. -/
def current (script : Script) : Binary64 :=
  script.draws.getD (script.used % script.draws.length) .zero

/-- Count one number as drawn. -/
def advance (script : Script) : Script :=
  { script with used := script.used + 1 }

/-- A position in a list of the given length, from the next number. -/
def position (length : Nat) (script : Script) : Except Fault Int := do
  let scale ← (Number.integer length).toBinary64
  return (← (script.current.mul scale).checkFinite).floored

/--
Draw a position in a list of the given length; the number is used up even if it
fails.
-/
def nextPosition (length : Nat) : Procedure Script Int := do
  let script ← get
  set script.advance
  Procedure.ofExcept (script.position length)

instance : DrawSource Script where
  next script := (script.current, script.advance)
  nextPair length := do
    let first ← nextPosition length
    let second ← nextPosition length
    if Word.holds first && Word.holds second then return (first, second)
    else throw .oversizedIndex

@[simp]
theorem used_advance (script : Script) :
    script.advance.used = script.used + 1 := rfl

end Script

end NeuralGenome
