import NeuralGenome.Bits
import NeuralGenome.Journal.Compilation

/-!
# Mutation

A mutation flips bits, each with the same probability and one draw for each bit.
Either every bit of a chromosome may flip, or only the operand bits of weighted
sums; then all other bytes, the fragment at the end included, stay as they are.
-/

namespace NeuralGenome

/-- A kind of mutation with its probability. -/
inductive Mutation where
  | nothing
  | bits (probability : Probability)
  | weights (probability : Probability)
deriving DecidableEq

namespace Mutation

/-- What a mutation may flip. -/
def kind : Mutation → MutationKind
  | nothing => .nothing
  | bits _ => .bits
  | weights _ => .weights

/-- A mutation with a checked probability. -/
def ofKind (kind : MutationKind) (probability : Probability) : Mutation :=
  match kind with
  | .nothing => nothing
  | .bits => bits probability
  | .weights => weights probability

/--
A mutation with a number as probability, which is checked only if something may
flip.
-/
def ofNumber (kind : MutationKind) (probability : Number) :
    Except Fault Mutation :=
  match kind with
  | .nothing => .ok nothing
  | .bits => do return bits (← Probability.ofNumber probability)
  | .weights => do return weights (← Probability.ofNumber probability)

/-- The bits that draws select. -/
def mask (probability : Probability) (draws : List Binary64) : List Bool :=
  draws.map probability.covers

/-- Whether a frame is that of a weighted sum. -/
def isWeighted (frame : Frame) : Bool :=
  Opcode.ofTag? frame.tag == some .createWeightedSum

variable {Source : Type} [DrawSource Source]

/-- Flip bits of a byte string; how many is noted if there are any. -/
def flipBytes (probability : Probability) (bytes : List UInt8) :
    Lab Source (List UInt8) := do
  let draws ← Lab.draw (DrawSource.take (8 * bytes.length))
  let mask := mask probability draws
  Lab.noteIf (Bits.flips mask != 0)
    (.flippedBits (Bits.flips mask) (8 * bytes.length))
  return Bits.flip mask bytes

/-- Flip any bits of a chromosome. -/
def mutateBits (probability : Probability) (chromosome : Chromosome) :
    Lab Source Chromosome :=
  if chromosome.bytes.isEmpty then return chromosome
  else do return ⟨← flipBytes probability chromosome.bytes⟩

/-- Flip operand bits of a frame if it is that of a weighted sum. -/
def mutateFrame (probability : Probability) (frame : Frame) :
    Lab Source Frame :=
  if isWeighted frame then do
    return { frame with
      operand := .ofBytes (← flipBytes probability frame.operand.bytes) }
  else return frame

/-- Flip operand bits of the weighted sums among frames, in order. -/
def mutateFrames (probability : Probability) :
    List Frame → Lab Source (List Frame)
  | [] => return []
  | frame :: rest => do
      let frame ← mutateFrame probability frame
      return frame :: (← mutateFrames probability rest)

/--
Flip operand bits of the weighted sums of a chromosome, which must be decodable.
-/
def mutateWeights (probability : Probability) (chromosome : Chromosome) :
    Lab Source Chromosome := do
  let _ ← Lab.decode chromosome
  let frames := Frame.list chromosome.bytes
  let weighted := frames.countP isWeighted
  if weighted = 0 then return chromosome
  else
    let frames ← mutateFrames probability frames
    Lab.note (.mutatedWeights weighted)
    return ⟨frames.flatMap Frame.bytes ++ chromosome.fragment⟩

/-- Mutate a chromosome. -/
def apply (mutation : Mutation) (chromosome : Chromosome) :
    Lab Source Chromosome :=
  match mutation with
  | nothing => return chromosome
  | bits probability => mutateBits probability chromosome
  | weights probability => mutateWeights probability chromosome

end Mutation

end NeuralGenome
