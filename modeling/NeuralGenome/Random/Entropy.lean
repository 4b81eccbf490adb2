/-!
# Seeding by entropy mixing

A seed is spread over a pool of four 32-bit words, so that every bit of the seed
reaches every word; the words of a generator's first state are then hashed out
of the pool.  All arithmetic wraps at thirty-two bits.
-/

namespace NeuralGenome

namespace Entropy

/--
The 32-bit words of a seed, the least significant first; zero has one word.
-/
def words (seed : Nat) : List UInt32 :=
  if seed < 0x100000000 then [UInt32.ofNat seed]
  else UInt32.ofNat seed :: words (seed >>> 32)
termination_by seed
decreasing_by omega

/-- Fold the upper half of a word into the lower. -/
def fold (word : UInt32) : UInt32 :=
  word ^^^ (word >>> 16)

/-- Hash a word under a running key, and move the key on. -/
def hash (word key : UInt32) : UInt32 × UInt32 :=
  let key' := key * 0x931e8875
  (fold ((word ^^^ key) * key'), key')

/-- Mix a hashed word into a word of the pool. -/
def mix (word hashed : UInt32) : UInt32 :=
  fold (0xca01f9dd * word - 0x4973f715 * hashed)

/-- The four words of the pool. -/
structure Pool where
  words : List UInt32
  key : UInt32

/-- Hash one word of the seed into the pool as a new word. -/
def Pool.add (pool : Pool) (word : UInt32) : Pool :=
  let (hashed, key) := hash word pool.key
  ⟨pool.words ++ [hashed], key⟩

/-- Mix a word into one word of the pool. -/
def Pool.stir (word : UInt32) (pool : Pool) (target : Nat) : Pool :=
  let (hashed, key) := hash word pool.key
  ⟨pool.words.modify target fun old => mix old hashed, key⟩

/-- Mix one word of the pool into each of the other three. -/
def Pool.cross (pool : Pool) (origin : Nat) : Pool :=
  ((List.range 4).filter (· != origin)).foldl
    (fun pool target => pool.stir (pool.words.getD origin 0) target) pool

/-- Mix a further word of the seed into every word of the pool. -/
def Pool.absorb (pool : Pool) (word : UInt32) : Pool :=
  (List.range 4).foldl (fun pool target => pool.stir word target) pool

/-- The pool of a seed. -/
def pool (seed : Nat) : Pool :=
  let seedWords := words seed
  let start :=
    (List.range 4).foldl (fun pool place => pool.add (seedWords.getD place 0))
      ⟨[], 0x43b0d7e5⟩
  let crossed := (List.range 4).foldl Pool.cross start
  (seedWords.drop 4).foldl Pool.absorb crossed

/--
Hash the word at a place of the pool under a running key, and move the key on.
-/
def output (pool : Pool) (key : UInt32) (place : Nat) : UInt32 × UInt32 :=
  let key' := key * 0x58f38ded
  (fold ((pool.words.getD (place % 4) 0 ^^^ key) * key'), key')

/-- A number of 32-bit words hashed out of a pool, from a place and a key on. -/
def outputs (pool : Pool) (key : UInt32) (place : Nat) : Nat → List UInt32
  | 0 => []
  | count + 1 =>
      let (word, key) := output pool key place
      word :: outputs pool key (place + 1) count

/-- Join words pairwise to 64-bit numbers, the lower half first. -/
def pairs : List UInt32 → List Nat
  | low :: high :: rest => (low.toNat + (high.toNat <<< 32)) :: pairs rest
  | _ => []

/-- The four 64-bit words that a generator starts from. -/
def state (seed : Nat) : List Nat :=
  pairs (outputs (pool seed) 0x8b51f9dd 0 8)

end Entropy

end NeuralGenome
