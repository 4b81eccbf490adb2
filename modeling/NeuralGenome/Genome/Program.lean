import NeuralGenome.Genome.Gene

/-!
# Programs

A program is a list of genes.  Writing it concatenates the frames of its genes;
reading it takes the whole frames of a byte string in order, drops a shorter
fragment at the end, and stops at the first tag that no opcode has.
-/

namespace NeuralGenome

/-- Genes in the order in which readers receive them. -/
abbrev Program :=
  List Gene

namespace Program

/-- The frames of all genes, one after the other. -/
def encode (program : Program) : List UInt8 :=
  program.flatMap Gene.encode

/-- Read genes from frames, where the first frame starts at a given byte. -/
def ofFrames (offset : Nat) : List Frame → Except Fault Program
  | [] => .ok []
  | frame :: rest =>
      match Gene.ofFrame? frame with
      | some gene => do return gene :: (← ofFrames (offset + Frame.size) rest)
      | none => .error (.unknownTag frame.tag.toNat (some offset))

/-- Read a program from a byte string. -/
def decode (bytes : List UInt8) : Except Fault Program :=
  ofFrames 0 (Frame.list bytes)

/-- The opcodes of a program, in order. -/
def opcodes (program : Program) : List Opcode :=
  program.map Instruction.opcode

/-- What readers receive for a program, in order. -/
def calls (program : Program) : List Call :=
  program.map Gene.call

/-- How messages show a program. -/
def summary (program : Program) : String :=
  s!"Program({program.length} instructions)"

/-- Whether two programs are written with the same bytes. -/
def sameBytes (left right : Program) : Bool :=
  left.encode == right.encode

@[simp]
theorem encode_nil : encode [] = [] := rfl

@[simp]
theorem encode_cons (gene : Gene) (program : Program) :
    encode (gene :: program) = gene.encode ++ encode program := rfl

end Program

end NeuralGenome
