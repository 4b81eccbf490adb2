import NeuralGenome.Genome.Instruction
import NeuralGenome.Word

/-!
# Genes and frames

A gene is an instruction whose index or value is a binary64 operand.  It is
written as one frame: a tag byte and the eight operand bytes, most significant
first.  A gene whose opcode has no operand is written with operand zero, and its
operand is ignored on reading.  Equality of genes compares opcodes and operands,
and an operand is known again by its place in memory before it is compared as a
number.
-/

namespace NeuralGenome

/-! ## Operand bytes -/

namespace Binary64

/-- One byte of a pattern; byte zero is the least significant. -/
def byte (x : Binary64) (place : Nat) : UInt8 :=
  UInt8.ofNat (x.bits.toNat >>> (8 * place))

/-- The eight bytes of a pattern, most significant first. -/
def bytes (x : Binary64) : List UInt8 :=
  [x.byte 7, x.byte 6, x.byte 5, x.byte 4, x.byte 3, x.byte 2, x.byte 1,
    x.byte 0]

/-- The pattern that bytes spell, most significant first. -/
def ofBytes (bytes : List UInt8) : Binary64 :=
  ⟨UInt64.ofNat (bytes.foldl (fun number byte => 256 * number + byte.toNat) 0)⟩

end Binary64

/-! ## Frames -/

/-- A tag byte and an operand, whether or not an opcode has the tag. -/
structure Frame where
  tag : UInt8
  operand : Binary64
deriving DecidableEq

namespace Frame

/-- How many bytes a frame has. -/
def size : Nat := 9

/-- The nine bytes of a frame. -/
def bytes (frame : Frame) : List UInt8 :=
  frame.tag :: frame.operand.bytes

/-- Read exactly one frame. -/
def ofBytes (bytes : List UInt8) : Except Fault Frame :=
  match bytes with
  | [tag, a, b, c, d, e, f, g, h] =>
      .ok ⟨tag, .ofBytes [a, b, c, d, e, f, g, h]⟩
  | _ => .error (.frameLength bytes.length)

/--
A frame with a tag given as an integer; the operand is converted before the tag
is checked.
-/
def ofNumbers (tag : Int) (operand : Number) : Except Fault Frame := do
  let operand ← operand.toBinary64
  if 0 ≤ tag ∧ tag ≤ 255 then return ⟨UInt8.ofNat tag.toNat, operand⟩
  else throw (if Word.holds tag then .tagRange else .tagSize)

/-- How many whole frames a number of bytes holds. -/
def countIn (length : Int) : Int :=
  length.fdiv size

/-- The whole frames at the start of a byte string. -/
def list : List UInt8 → List Frame
  | tag :: a :: b :: c :: d :: e :: f :: g :: h :: rest =>
      ⟨tag, .ofBytes [a, b, c, d, e, f, g, h]⟩ :: list rest
  | _ => []

/-- What follows the last whole frame of a byte string. -/
def fragment : List UInt8 → List UInt8
  | _ :: _ :: _ :: _ :: _ :: _ :: _ :: _ :: _ :: rest => fragment rest
  | rest => rest

end Frame

/-! ## Genes -/

/-- An instruction as a genome carries it. -/
abbrev Gene :=
  Instruction Binary64 Binary64

namespace Gene

/-- The operand of a gene, zero when its opcode has none. -/
def operand : Gene → Binary64
  | .create (.fixed signal) => signal
  | .create (.weightedSum weight) => weight
  | .create _ => .zero
  | .moveTo operand => operand
  | .readFrom operand => operand
  | .assign _ operand => operand

/-- The frame of a gene. -/
def frame (gene : Gene) : Frame :=
  ⟨gene.opcode.tag, gene.operand⟩

/-- The nine bytes of a gene. -/
def encode (gene : Gene) : List UInt8 :=
  gene.frame.bytes

/-- The gene of a frame, unless no opcode has its tag. -/
def ofFrame? (frame : Frame) : Option Gene :=
  (Opcode.ofTag? frame.tag).map fun opcode => .ofOpcode opcode frame.operand

/-- Read a gene from exactly one frame. -/
def decode (bytes : List UInt8) : Except Fault Gene := do
  let frame ← Frame.ofBytes bytes
  match ofFrame? frame with
  | some gene => return gene
  | none => throw (.unknownTag frame.tag.toNat none)

/--
A gene from an opcode and a number, which is converted only when the opcode has
an operand.
-/
def ofNumber (opcode : Opcode) (operand : Number) : Except Fault Gene := do
  if opcode.hasOperand then return .ofOpcode opcode (← operand.toBinary64)
  else return .ofOpcode opcode .zero

/-- A gene from an opcode given as an integer. -/
def ofCode (code : Int) (operand : Number) : Except Fault Gene :=
  match Opcode.ofCode? code with
  | some opcode => ofNumber opcode operand
  | none => .error (.unknownOpcode code)

/-- What a reader of programs receives for a gene. -/
def call (gene : Gene) : Call :=
  gene.map Binary64.toIndex id

/--
A gene in one line: the mnemonic, and the operand as a number or as an index.
-/
def describe (gene : Gene) : String :=
  let mnemonic := gene.opcode.mnemonic
  match gene with
  | .create (.fixed signal) => mnemonic ++ " " ++ signal.text
  | .create (.weightedSum weight) => mnemonic ++ " " ++ weight.text
  | .create _ => mnemonic
  | .moveTo operand => s!"{mnemonic} {operand.toIndex}"
  | .readFrom operand => s!"{mnemonic} {operand.toIndex}"
  | .assign _ operand => s!"{mnemonic} {operand.toIndex}"

/-! ## Equality -/

/-- A gene as memory holds it: its opcode, and the place of its operand. -/
structure Held where
  opcode : Opcode
  place : Nat
deriving DecidableEq

namespace Held

/-- The gene that memory holds. -/
def gene (memory : Nat → Binary64) (held : Held) : Gene :=
  .ofOpcode held.opcode (memory held.place)

/--
Whether two genes in memory are equal: they have the same opcode, and their
operands stand at one place or are the same number.  An operand that is no
number is thus equal to itself, but to no operand at another place.
-/
def equals (memory : Nat → Binary64) (left right : Held) : Bool :=
  left.opcode == right.opcode &&
    (left.place == right.place ||
      (left.gene memory).operand.sameNumber (right.gene memory).operand)

end Held

/--
Whether two genes are equal that are read apart, each with its own operand.
-/
def agrees (left right : Gene) : Bool :=
  let memory (place : Nat) := if place = 0 then left.operand else right.operand
  Held.equals memory ⟨left.opcode, 0⟩ ⟨right.opcode, 1⟩

end Gene

end NeuralGenome
