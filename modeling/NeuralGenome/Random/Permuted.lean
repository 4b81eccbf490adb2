import NeuralGenome.Binary64.Rounding
import NeuralGenome.Random.Entropy
import NeuralGenome.Random.Source

/-!
# A permuted congruential generator

The state is a 128-bit linear congruential sequence; each step hands out
sixty-four bits, the exclusive or of the halves of the state rotated by its top
bits.  Draws use the upper fifty-three bits.  List positions use thirty-two bits
at a time, two from each step, and redraw the few values that would favour some
positions.
-/

namespace NeuralGenome

/--
The state of the generator: the sequence, its increment, and half a step left
over.
-/
structure Permuted where
  state : BitVec 128
  increment : BitVec 128
  spare : Option UInt32
deriving DecidableEq

namespace Permuted

/-- The factor of the congruential sequence. -/
def multiplier : BitVec 128 :=
  0x2360ed051fc65da44385df649fccf645

/-- Move the sequence on by one step. -/
def step (generator : Permuted) : Permuted :=
  { generator with state := generator.state * multiplier + generator.increment }

/-- The generator that starts from four 64-bit words. -/
def ofWords (a b c d : Nat) : Permuted :=
  let increment := BitVec.ofNat 128 (2 * ((c <<< 64) + d) + 1)
  let first := (Permuted.mk 0 increment none).step
  { first with state := first.state + BitVec.ofNat 128 ((a <<< 64) + b) }.step

/-- The generator of a seed. -/
def ofSeed (seed : Nat) : Permuted :=
  match Entropy.state seed with
  | [a, b, c, d] => ofWords a b c d
  | _ => ofWords 0 0 0 0

/-- The sixty-four bits that a state of the sequence hands out. -/
def permute (state : BitVec 128) : BitVec 64 :=
  let halves := state.setWidth 64 ^^^ (state >>> 64).setWidth 64
  halves.rotateRight (state >>> 122).toNat

/-- The next sixty-four bits. -/
def next64 (generator : Permuted) : BitVec 64 × Permuted :=
  let generator := generator.step
  (permute generator.state, generator)

/--
The next thirty-two bits: the half left over, or the lower half of a step.
-/
def next32 (generator : Permuted) : UInt32 × Permuted :=
  match generator.spare with
  | some half => (half, { generator with spare := none })
  | none =>
      let (word, generator) := generator.next64
      (UInt32.ofNat word.toNat,
        { generator with spare := some (UInt32.ofNat (word.toNat >>> 32)) })

/-- The next number, a multiple of `2 ^ -53` below one. -/
def nextDraw (generator : Permuted) : Binary64 × Permuted :=
  let (word, generator) := generator.next64
  (Binary64.rounded false ((word.toNat >>> 11) <<< 1021) 1, generator)

/--
A position below a bound, after at most so many redraws.

The scaled word's upper half is the position.  A lower half under the threshold
would make some positions likelier than others, so such a word is redrawn; less
than half of all words are, and the redraws allowed by callers are never used up
in practice.
-/
def nextBelow (bound threshold : Nat) : Nat → Permuted → Nat × Permuted
  | 0, generator =>
      let (word, generator) := generator.next32
      ((word.toNat * bound) >>> 32, generator)
  | redraws + 1, generator =>
      let (word, generator) := generator.next32
      let scaled := word.toNat * bound
      if scaled % 0x100000000 < threshold then
        nextBelow bound threshold redraws generator
      else (scaled >>> 32, generator)

/--
A position in a list of the given length; a list of one position needs no draw.
-/
def nextPosition (length : Nat) (generator : Permuted) : Nat × Permuted :=
  if length ≤ 1 then (0, generator)
  else nextBelow length ((0x100000000 - length) % length) 4096 generator

instance : DrawSource Permuted where
  next := nextDraw
  nextPair length := do
    let first ← Procedure.ofStep (nextPosition length)
    let second ← Procedure.ofStep (nextPosition length)
    return (first, second)

end Permuted

end NeuralGenome
