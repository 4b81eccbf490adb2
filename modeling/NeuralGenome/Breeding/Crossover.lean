import NeuralGenome.Journal.Compilation

/-!
# Crossover

Crossover chooses every gene of a child from one of two parents.  The parents
are aligned at their ends: the shorter one is first padded in front with the
leading genes of the longer one.  Only whole genes are copied, so a child can
always be decoded.
-/

namespace NeuralGenome

namespace Crossover

/-- By how many genes two programs differ in length. -/
def gap (left right : Program) : Nat :=
  (left.length - right.length) + (right.length - left.length)

/--
Pad the shorter of two programs in front with the leading genes of the longer
one.
-/
def align (left right : Program) : Program × Program :=
  (right.take (right.length - left.length) ++ left,
    left.take (left.length - right.length) ++ right)

/-- Whether a draw chooses the first of two parents. -/
def favoursFirst (draw : Binary64) : Bool :=
  draw.less .half

/-- Choose each gene from the left or the right parent, as the coins say. -/
def choose : List Bool → Program → Program → Program
  | coin :: coins, left :: lefts, right :: rights =>
      (if coin then left else right) :: choose coins lefts rights
  | _, _, _ => []

/-- Both programs have the same length once they are aligned. -/
theorem length_align (left right : Program) :
    (align left right).1.length = (align left right).2.length := by
  simp only [align, List.length_append, List.length_take]
  omega

variable {Source : Type} [DrawSource Source]

/-- Align two programs; padding is noted. -/
def alignNoted (left right : Program) : Lab Source (Program × Program) := do
  Lab.noteIf (gap left right != 0) (.paddedParent (gap left right))
  return align left right

/-- The child of two chromosomes, with one draw for each of its genes. -/
def cross (first second : Chromosome) : Lab Source Chromosome := do
  let left ← Lab.decode first
  let right ← Lab.decode second
  let (left, right) ← alignNoted left right
  let draws ← Lab.draw (DrawSource.take left.length)
  return .ofProgram (choose (draws.map favoursFirst) left right)

end Crossover

namespace Reproduction

variable {Source : Type} [DrawSource Source]

/-- Combine two parents. -/
def combine (reproduction : Reproduction) (first second : Chromosome) :
    Lab Source Chromosome :=
  match reproduction with
  | firstParent => return first
  | randomParent => do
      let draw ← Lab.draw DrawSource.next
      return if Crossover.favoursFirst draw then first else second
  | randomCodes => Crossover.cross first second

end Reproduction

end NeuralGenome
