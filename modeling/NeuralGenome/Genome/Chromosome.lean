import NeuralGenome.Digest.Md5
import NeuralGenome.Genome.Program

/-!
# Chromosomes

A chromosome is the byte string of a program and the unit of heredity.  Any byte
string is one: whether it can be read as a program shows only when it is
decoded.
-/

namespace NeuralGenome

/-- The bytes of a genome. -/
structure Chromosome where
  bytes : List UInt8
deriving DecidableEq, Inhabited

namespace Chromosome

/-- The chromosome of a program. -/
def ofProgram (program : Program) : Chromosome :=
  ⟨program.encode⟩

/-- The program that a chromosome carries. -/
def program (chromosome : Chromosome) : Except Fault Program :=
  Program.decode chromosome.bytes

/-- How many bytes a chromosome has. -/
def length (chromosome : Chromosome) : Nat :=
  chromosome.bytes.length

/-- How many whole frames a chromosome has. -/
def frameCount (chromosome : Chromosome) : Nat :=
  chromosome.length / Frame.size

/-- The bytes after the last whole frame. -/
def fragment (chromosome : Chromosome) : List UInt8 :=
  Frame.fragment chromosome.bytes

/-- Whether every whole frame starts with the tag of an opcode. -/
def isDecodable (chromosome : Chromosome) : Bool :=
  (List.range chromosome.frameCount).all fun position =>
    match chromosome.bytes[position * Frame.size]? with
    | some tag => (Opcode.ofTag? tag).isSome
    | none => false

/-- A short digest of a chromosome, as text. -/
def signature (chromosome : Chromosome) : String :=
  Md5.text chromosome.bytes

@[simp]
theorem bytes_ofProgram (program : Program) :
    (ofProgram program).bytes = program.encode := rfl

end Chromosome

end NeuralGenome
