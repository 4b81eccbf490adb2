import NeuralGenome.Procedure
import NeuralGenome.Proofs.Genome.Decoding
import NeuralGenome.Proofs.Genome.Operand

/-!
# Writing programs and reading them back

A byte string is a row of whole frames and a shorter fragment, in exactly one
way.  So a program that is written and read again comes back gene by gene and
bit by bit, whatever fragment follows it.  Two programs written with the same
bytes are the same program.  Equality of genes is another notion.  It takes the
two zeros for the same operand, and of operands that are no number it asks
whether they stand at one place in memory, of which bytes know nothing.
-/

namespace NeuralGenome

namespace Frame

/-! ## Byte strings as rows of frames -/

@[simp]
theorem length_bytes (frame : Frame) : frame.bytes.length = size := rfl

@[simp]
theorem list_bytes_append (frame : Frame) (rest : List UInt8) :
    list (frame.bytes ++ rest) = frame :: list rest := by
  have read : Binary64.ofBytes frame.operand.bytes = frame.operand :=
    Binary64.ofBytes_bytes frame.operand
  show Frame.mk frame.tag (.ofBytes frame.operand.bytes) :: list rest = _
  rw [read]

@[simp]
theorem fragment_bytes_append (frame : Frame) (rest : List UInt8) :
    fragment (frame.bytes ++ rest) = fragment rest := rfl

theorem fragment_of_length_lt {bytes : List UInt8}
    (short : bytes.length < size) : fragment bytes = bytes := by
  unfold fragment
  split
  · simp [size] at short
    omega
  · rfl

/-- A byte string that is long enough starts with the bytes of a frame. -/
theorem exists_bytes_append {bytes : List UInt8}
    (long : size ≤ bytes.length) :
    ∃ (frame : Frame) (rest : List UInt8), bytes = frame.bytes ++ rest := by
  match bytes, long with
  | tag :: a :: b :: c :: d :: e :: f :: g :: h :: rest, _ =>
      refine ⟨⟨tag, .ofBytes [a, b, c, d, e, f, g, h]⟩, rest, ?_⟩
      rw [Frame.bytes, Binary64.bytes_ofBytes rfl]
      rfl

/--
What holds of fragments and of a frame before what it holds of holds of every
byte string.
-/
theorem byteInduction {motive : List UInt8 → Prop}
    (short : ∀ bytes, bytes.length < size → motive bytes)
    (whole : ∀ (frame : Frame) (rest : List UInt8),
      motive rest → motive (frame.bytes ++ rest))
    (bytes : List UInt8) : motive bytes := by
  induction counted : bytes.length using Nat.strongRecOn generalizing bytes with
  | ind length ih =>
      by_cases long : size ≤ bytes.length
      · obtain ⟨frame, rest, rfl⟩ := exists_bytes_append long
        rw [List.length_append, length_bytes] at counted
        have shorter : rest.length < length := by
          have positive : 0 < size := by decide
          omega
        exact whole frame rest (ih rest.length shorter rest rfl)
      · exact short bytes (Nat.lt_of_not_le long)

/-- The frames of a byte string and its fragment are all of it. -/
theorem flatMap_bytes_list (bytes : List UInt8) :
    (list bytes).flatMap Frame.bytes ++ fragment bytes = bytes := by
  induction bytes using byteInduction with
  | short bytes short =>
      rw [list_of_length_lt short, fragment_of_length_lt short]
      rfl
  | whole frame rest ih =>
      rw [list_bytes_append, fragment_bytes_append, List.flatMap_cons,
        List.append_assoc, ih]

theorem length_fragment_lt (bytes : List UInt8) :
    (fragment bytes).length < size := by
  induction bytes using byteInduction with
  | short bytes short => rwa [fragment_of_length_lt short]
  | whole frame rest ih => rwa [fragment_bytes_append]

@[simp]
theorem length_flatMap_bytes (frames : List Frame) :
    (frames.flatMap Frame.bytes).length = frames.length * size := by
  induction frames with
  | nil => rfl
  | cons frame rest ih =>
      rw [List.flatMap_cons, List.length_append, ih, length_bytes,
        List.length_cons, Nat.succ_mul, Nat.add_comm]

theorem length_list (bytes : List UInt8) :
    (list bytes).length = bytes.length / size := by
  have whole := congrArg List.length (flatMap_bytes_list bytes)
  have rest := length_fragment_lt bytes
  rw [List.length_append, length_flatMap_bytes] at whole
  simp only [size] at whole rest ⊢
  omega

/-- Frames are read back, whatever follows them. -/
theorem list_flatMap_bytes_append (frames : List Frame) (rest : List UInt8) :
    list (frames.flatMap Frame.bytes ++ rest) = frames ++ list rest := by
  induction frames with
  | nil => rfl
  | cons frame others ih =>
      rw [List.flatMap_cons, List.append_assoc, list_bytes_append, ih]
      rfl

theorem list_flatMap_bytes_fragment (frames : List Frame)
    {rest : List UInt8} (short : rest.length < size) :
    list (frames.flatMap Frame.bytes ++ rest) = frames := by
  rw [list_flatMap_bytes_append, list_of_length_lt short, List.append_nil]

end Frame

/-! ## Genes -/

namespace Instruction

/-- A gene is made of its opcode and its operand. -/
@[simp]
theorem ofOpcode_operand (gene : Gene) :
    ofOpcode gene.opcode gene.operand = gene := by
  cases gene with
  | create neuron => cases neuron <;> rfl
  | moveTo index => rfl
  | readFrom index => rfl
  | assign output index => cases output <;> rfl

end Instruction

namespace Gene

theorem ext_of_operand {left right : Gene}
    (opcode : left.opcode = right.opcode)
    (operand : left.operand = right.operand) : left = right := by
  rw [← Instruction.ofOpcode_operand left, opcode, operand,
    Instruction.ofOpcode_operand right]

/-- A gene is read back from its frame. -/
@[simp]
theorem ofFrame?_frame (gene : Gene) : ofFrame? gene.frame = some gene := by
  rw [ofFrame?, frame, Opcode.ofTag?_tag, Option.map_some,
    Instruction.ofOpcode_operand]

theorem operand_ofOpcode {opcode : Opcode} (valued : opcode.hasOperand)
    (x : Binary64) : operand (.ofOpcode opcode x) = x := by
  cases opcode <;> first | rfl | cases valued

/-! ## Genes in memory -/

namespace Held

variable {memory : Nat → Binary64} {first second : Held}

theorem operand_gene {held : Held} (valued : held.opcode.hasOperand) :
    (held.gene memory).operand = memory held.place :=
  operand_ofOpcode valued _

/-- An operand that is no number is equal to what stands at its place only. -/
theorem equals_iff_of_isNaN (opcode : first.opcode = second.opcode)
    (valued : first.opcode.hasOperand)
    (undefined : (memory first.place).isNaN) :
    first.equals memory second ↔ first.place = second.place := by
  have unequal : (first.gene memory).operand.sameNumber
      (second.gene memory).operand = false := by
    rw [operand_gene valued, Binary64.sameNumber, undefined]
    rfl
  rw [equals, unequal, Bool.or_false, opcode, beq_self_eq_true, Bool.true_and,
    beq_iff_eq]

/-- The two zeros are one number. -/
theorem equals_of_zeros (opcode : first.opcode = second.opcode)
    (valued : first.opcode.hasOperand) (zero : memory first.place = .zero)
    (negative : memory second.place = .negativeZero) :
    first.equals memory second := by
  have zeros : Binary64.zero.sameNumber .negativeZero = true := by decide
  have same : (first.gene memory).operand.sameNumber
      (second.gene memory).operand = true := by
    rw [operand_gene valued, operand_gene (opcode ▸ valued), zero, negative,
      zeros]
  rw [equals, same, Bool.or_true, opcode, beq_self_eq_true]
  rfl

end Held

end Gene

/-! ## Programs -/

namespace Program

/--
Frames are read as a program exactly when each of them carries the gene at its
place.
-/
theorem ofFrames_eq_ok_iff {offset : Nat} {frames : List Frame}
    {program : Program} :
    ofFrames offset frames = .ok program ↔
      frames.map Gene.ofFrame? = program.map some := by
  induction frames generalizing offset program with
  | nil =>
      constructor
      · intro read
        cases read
        rfl
      · intro same
        cases program with
        | nil => rfl
        | cons gene rest => cases same
  | cons frame rest ih =>
      rw [ofFrames, List.map_cons]
      cases carried : Gene.ofFrame? frame with
      | none =>
          constructor
          · intro read
            cases read
          · intro same
            cases program <;> cases same
      | some gene =>
          constructor
          · intro read
            obtain ⟨others, readOthers, done⟩ := bind_eq_ok.mp read
            cases done
            rw [ih.mp readOthers, List.map_cons]
          · intro same
            cases program with
            | nil => cases same
            | cons first others =>
                rw [List.map_cons, List.cons.injEq, Option.some.injEq] at same
                obtain ⟨rfl, sameOthers⟩ := same
                exact bind_eq_ok.mpr ⟨others, ih.mpr sameOthers, rfl⟩

theorem decode_eq_ok_iff {bytes : List UInt8} {program : Program} :
    decode bytes = .ok program ↔
      (Frame.list bytes).map Gene.ofFrame? = program.map some :=
  ofFrames_eq_ok_iff

theorem encode_eq_flatMap (program : Program) :
    program.encode = (program.map Gene.frame).flatMap Frame.bytes := by
  rw [List.flatMap_map]
  rfl

@[simp]
theorem length_encode (program : Program) :
    program.encode.length = program.length * Frame.size := by
  rw [encode_eq_flatMap, Frame.length_flatMap_bytes, List.length_map]

/-- A program is read back, whatever fragment of a frame follows it. -/
theorem decode_encode_append (program : Program) {fragment : List UInt8}
    (short : fragment.length < Frame.size) :
    decode (program.encode ++ fragment) = .ok program := by
  rw [decode_eq_ok_iff, encode_eq_flatMap,
    Frame.list_flatMap_bytes_fragment _ short, List.map_map]
  exact List.map_congr_left fun gene _ => gene.ofFrame?_frame

@[simp]
theorem decode_encode (program : Program) :
    decode program.encode = .ok program := by
  have read : decode (program.encode ++ []) = .ok program :=
    program.decode_encode_append (by decide)
  rwa [List.append_nil] at read

theorem encode_inj {left right : Program} :
    left.encode = right.encode ↔ left = right := by
  constructor
  · intro same
    have read := left.decode_encode
    rw [same, right.decode_encode] at read
    exact (Except.ok.inj read).symm
  · intro same
    rw [same]

/-- The bits of all operands of a program, in order. -/
def patterns (program : Program) : List UInt64 :=
  program.map fun gene => gene.operand.bits

theorem eq_of_patterns {left right : Program}
    (opcodes : left.opcodes = right.opcodes)
    (patterns : left.patterns = right.patterns) : left = right := by
  induction left generalizing right with
  | nil => exact (List.map_eq_nil_iff.mp opcodes.symm).symm
  | cons gene rest ih =>
      cases right with
      | nil => cases opcodes
      | cons other others =>
          simp only [Program.opcodes, Program.patterns, List.map_cons,
            List.cons.injEq] at opcodes patterns
          have same : gene = other :=
            Gene.ext_of_operand opcodes.1
              (congrArg Binary64.mk patterns.1)
          rw [same, ih opcodes.2 patterns.2]

theorem sameBytes_iff {left right : Program} :
    left.sameBytes right ↔
      left.opcodes = right.opcodes ∧ left.patterns = right.patterns := by
  rw [sameBytes, beq_iff_eq, encode_inj]
  constructor
  · rintro rfl
    exact ⟨rfl, rfl⟩
  · rintro ⟨opcodes, patterns⟩
    exact eq_of_patterns opcodes patterns

/-- The two zeros are different patterns. -/
theorem sameBytes_of_zeros {memory : Nat → Binary64} {first second : Gene.Held}
    (opcode : first.opcode = second.opcode) (valued : first.opcode.hasOperand)
    (zero : memory first.place = .zero)
    (negative : memory second.place = .negativeZero) :
    sameBytes [first.gene memory] [second.gene memory] = false := by
  rw [Bool.eq_false_iff]
  intro same
  have patterns := (sameBytes_iff.mp same).2
  simp only [Program.patterns, List.map_cons, List.map_nil,
    Gene.Held.operand_gene valued, Gene.Held.operand_gene (opcode ▸ valued),
    zero, negative] at patterns
  revert patterns
  decide

/--
Writing loses nothing.  A program is read back from its bytes and any fragment
of a frame, so different programs are written with different bytes.  Programs
with the same bytes agree in every opcode and every operand bit, and a program
agrees with itself whatever its operands are.  Genes are compared otherwise.
Two genes in memory with one and the same pattern that is no number are always
written alike, but they are equal only if their operand stands at one place, so
that they are not when they were made apart.  Two genes with the two zeros are
equal, but they are not written alike.
-/
theorem encode_lossless (program left right : Program) {fragment : List UInt8}
    (short : fragment.length < Frame.size) :
    decode (program.encode ++ fragment) = .ok program ∧
      (left.encode = right.encode → left = right) ∧
      (left.sameBytes right ↔
        left.length = right.length ∧ left.opcodes = right.opcodes ∧
          left.patterns = right.patterns) ∧
      program.sameBytes program ∧
      ∀ (memory : Nat → Binary64) (first second : Gene.Held),
        first.opcode = second.opcode → first.opcode.hasOperand →
          (memory first.place = memory second.place →
            (memory first.place).isNaN →
              sameBytes [first.gene memory] [second.gene memory] ∧
                (first.equals memory second ↔ first.place = second.place)) ∧
          (memory first.place = .zero → memory second.place = .negativeZero →
            first.equals memory second ∧
              sameBytes [first.gene memory] [second.gene memory] = false) := by
  refine ⟨program.decode_encode_append short, encode_inj.mp, ?_,
    sameBytes_iff.mpr ⟨rfl, rfl⟩, ?_⟩
  · rw [sameBytes_iff]
    constructor
    · rintro ⟨opcodes, patterns⟩
      exact ⟨by rw [eq_of_patterns opcodes patterns], opcodes, patterns⟩
    · rintro ⟨-, opcodes, patterns⟩
      exact ⟨opcodes, patterns⟩
  · intro memory first second opcode valued
    constructor
    · intro same undefined
      refine ⟨?_, Gene.Held.equals_iff_of_isNaN opcode valued undefined⟩
      rw [Gene.Held.gene, Gene.Held.gene, opcode, same]
      exact sameBytes_iff.mpr ⟨rfl, rfl⟩
    · intro zero negative
      exact ⟨Gene.Held.equals_of_zeros opcode valued zero negative,
        sameBytes_of_zeros opcode valued zero negative⟩

/--
A signalling payload, a gene without operand, a negative zero, and no number.
-/
def peculiar : Program :=
  [.create (.fixed ⟨0x7ff0000000000001⟩), .create .random,
    .create (.weightedSum .negativeZero), .readFrom .nan]

/--
The same operands at the first two places, and a zero of each sign behind them.
-/
def crowded (place : Nat) : Binary64 :=
  [.nan, .nan, .zero, .negativeZero].getD place .one

theorem encode_lossless_peculiar :
    (List.replicate 8 (255 : UInt8)).length < Frame.size ∧
      decode (peculiar.encode ++ List.replicate 8 255) = .ok peculiar ∧
      peculiar.sameBytes peculiar ∧
      Gene.Held.equals crowded ⟨.moveTo, 0⟩ ⟨.moveTo, 0⟩ ∧
      ¬Gene.Held.equals crowded ⟨.moveTo, 0⟩ ⟨.moveTo, 1⟩ ∧
      sameBytes [.moveTo .nan] [.moveTo .nan] ∧
      Gene.Held.equals crowded ⟨.moveTo, 2⟩ ⟨.moveTo, 3⟩ ∧
      sameBytes [.moveTo .zero] [.moveTo .negativeZero] = false := by
  have short : (List.replicate 8 (255 : UInt8)).length < Frame.size := by decide
  obtain ⟨read, -, -, reflexive, genes⟩ :=
    encode_lossless peculiar peculiar peculiar short
  obtain ⟨-, itself⟩ :=
    (genes crowded ⟨.moveTo, 0⟩ ⟨.moveTo, 0⟩ rfl rfl).1 rfl (by decide)
  obtain ⟨alike, apart⟩ :=
    (genes crowded ⟨.moveTo, 0⟩ ⟨.moveTo, 1⟩ rfl rfl).1 rfl (by decide)
  obtain ⟨zeros, different⟩ :=
    (genes crowded ⟨.moveTo, 2⟩ ⟨.moveTo, 3⟩ rfl rfl).2 rfl rfl
  exact ⟨short, read, reflexive, itself.mpr rfl,
    fun equal => absurd (apart.mp equal) (by decide), alike, zeros, different⟩

end Program

end NeuralGenome
