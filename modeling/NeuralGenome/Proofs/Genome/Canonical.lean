import NeuralGenome.Proofs.Genome.Codec

/-!
# The canonical form of a genome

Several byte strings decode to one program, since a fragment at the end is
dropped and the operand of an opcode without operand is ignored.  One of them is
the canonical form, which is described here byte by byte: the whole frames, with
zeros for every operand that is ignored.  Decoding is then settled for every
byte string.  It fails at the first frame with an unknown tag, or else it gives
a program whose bytes are the canonical form.
-/

namespace NeuralGenome

/-- The tags of the opcodes without operand. -/
def Opcode.bareTags : List UInt8 :=
  [createRandom.tag, createSum.tag, createMin.tag, createMax.tag]

namespace Chromosome

/--
What stands at a place of the canonical form of a byte string: an operand is
zero behind the tag of an opcode without operand, and all else is as it was.
-/
def canonicalByte (bytes : List UInt8) (place : Nat) : UInt8 :=
  if place % Frame.size ≠ 0 ∧
      bytes.getD (place / Frame.size * Frame.size) 0 ∈ Opcode.bareTags then 0
  else bytes.getD place 0

/--
The whole frames of a chromosome, with zeros for the operands that are ignored.
-/
def canonical (chromosome : Chromosome) : Chromosome :=
  ⟨(List.range (chromosome.frameCount * Frame.size)).map
    (canonicalByte chromosome.bytes)⟩

end Chromosome

/-! ## Tags -/

namespace Opcode

theorem isSome_ofTag?_iff (tag : UInt8) : (ofTag? tag).isSome ↔ tag ≤ 9 := by
  constructor
  · intro found
    obtain ⟨opcode, same⟩ := Option.isSome_iff_exists.mp found
    rw [← ofTag?_eq_some_iff.mp same]
    exact opcode.tag_le
  · intro known
    obtain ⟨opcode, rfl⟩ := exists_tag_eq known
    rw [ofTag?_tag]
    rfl

theorem tag_mem_bareTags_iff (opcode : Opcode) :
    opcode.tag ∈ bareTags ↔ opcode.hasOperand = false := by
  cases opcode <;> decide

end Opcode

/-! ## Frames -/

namespace Frame

/-- A frame with operand zero if the opcode of its tag has no operand. -/
def cleared (frame : Frame) : Frame :=
  if frame.tag ∈ Opcode.bareTags then { frame with operand := .zero } else frame

/-- Every byte of a row of frames belongs to the frame at its place. -/
theorem getElem?_flatMap_bytes (frames : List Frame) (place : Nat) :
    (frames.flatMap Frame.bytes)[place]? =
      frames[place / size]?.bind fun frame => frame.bytes[place % size]? := by
  induction frames generalizing place with
  | nil => rfl
  | cons frame rest ih =>
      rw [List.flatMap_cons]
      by_cases here : place < size
      · rw [List.getElem?_append_left here, Nat.div_eq_of_lt here,
          Nat.mod_eq_of_lt here]
        rfl
      · have later : size ≤ place := Nat.le_of_not_lt here
        rw [List.getElem?_append_right later, length_bytes, ih,
          Nat.div_eq_sub_div (by decide) later, Nat.mod_eq_sub_mod later,
          List.getElem?_cons_succ]

theorem getElem?_eq_bind {bytes : List UInt8} {place : Nat}
    (inside : place < bytes.length / size * size) :
    bytes[place]? = (list bytes)[place / size]?.bind fun frame =>
      frame.bytes[place % size]? := by
  have early : place < ((list bytes).flatMap Frame.bytes).length := by
    rwa [length_flatMap_bytes, length_list]
  rw [← getElem?_flatMap_bytes, ← List.getElem?_append_left early,
    flatMap_bytes_list]

/--
Every byte of the whole frames belongs to a frame, which starts at its tag.
-/
theorem exists_frame_at {bytes : List UInt8} {place : Nat}
    (inside : place < bytes.length / size * size) :
    ∃ frame, (list bytes)[place / size]? = some frame ∧
      bytes[place]? = frame.bytes[place % size]? ∧
      bytes[place / size * size]? = some frame.tag := by
  have counted : place / size < (list bytes).length := by
    rw [length_list]
    exact Nat.div_lt_of_lt_mul (by rwa [Nat.mul_comm])
  have found := List.getElem?_eq_getElem counted
  have start : place / size * size < bytes.length / size * size :=
    Nat.lt_of_le_of_lt (Nat.div_mul_le_self place size) inside
  refine ⟨(list bytes)[place / size], found, ?_, ?_⟩
  · rw [getElem?_eq_bind inside, found]
    rfl
  · rw [getElem?_eq_bind start, Nat.mul_div_cancel _ (by decide), found,
      Nat.mul_mod_left]
    rfl

theorem getElem?_bytes_zero (tag : UInt8) {place : Nat}
    (behind : place ≠ 0) (inside : place < size) :
    (Frame.mk tag .zero).bytes[place]? = some 0 := by
  obtain ⟨place, rfl⟩ := Nat.exists_eq_succ_of_ne_zero behind
  have zeros : Binary64.zero.bytes = List.replicate 8 0 := by decide
  rw [Frame.bytes, List.getElem?_cons_succ, zeros,
    List.getElem?_replicate_of_lt (Nat.lt_of_succ_lt_succ inside)]

/-- What a frame carries does not depend on an operand that is ignored. -/
@[simp]
theorem ofFrame?_cleared (frame : Frame) :
    Gene.ofFrame? frame.cleared = Gene.ofFrame? frame := by
  unfold cleared
  split
  · rename_i bare
    cases named : Opcode.ofTag? frame.tag with
    | none => simp only [Gene.ofFrame?, named, Option.map_none]
    | some opcode =>
        rw [← Opcode.ofTag?_eq_some_iff.mp named,
          Opcode.tag_mem_bareTags_iff] at bare
        simp only [Gene.ofFrame?, named, Option.map_some]
        cases opcode <;> first | rfl | cases bare
  · rfl

end Frame

/--
A gene is written with the frame that carries it, but for an operand that is
ignored.
-/
theorem Gene.frame_of_ofFrame? {frame : Frame} {gene : Gene}
    (carried : ofFrame? frame = some gene) : gene.frame = frame.cleared := by
  obtain ⟨tag, operand⟩ := frame
  obtain ⟨opcode, named, rfl⟩ := Option.map_eq_some_iff.mp carried
  cases Opcode.ofTag?_eq_some_iff.mp named
  cases opcode <;> rfl

theorem Program.map_frame_of_map_ofFrame? {frames : List Frame}
    {program : Program}
    (carried : frames.map Gene.ofFrame? = program.map some) :
    program.map Gene.frame = frames.map Frame.cleared := by
  induction program generalizing frames with
  | nil =>
      rw [List.map_eq_nil_iff.mp carried]
      rfl
  | cons gene rest ih =>
      obtain ⟨frame, others, rfl, first, later⟩ :=
        List.map_eq_cons_iff.mp carried
      rw [List.map_cons, List.map_cons, Gene.frame_of_ofFrame? first, ih later]

/-! ## Chromosomes -/

namespace Chromosome

theorem some_canonicalByte {bytes : List UInt8} {place : Nat}
    (inside : place < bytes.length / Frame.size * Frame.size) :
    some (canonicalByte bytes place) =
      (((Frame.list bytes).map Frame.cleared).flatMap Frame.bytes)[place]? := by
  obtain ⟨frame, found, here, start⟩ := Frame.exists_frame_at inside
  have within : place % Frame.size < frame.bytes.length :=
    Nat.mod_lt place (by decide)
  rw [Frame.getElem?_flatMap_bytes, List.getElem?_map, found, Option.map_some,
    Option.bind_some]
  simp only [canonicalByte, List.getD_eq_getElem?_getD, here, start,
    Option.getD_some, Frame.cleared]
  by_cases bare : frame.tag ∈ Opcode.bareTags
  · by_cases first : place % Frame.size = 0
    · simp only [first, ne_eq, not_true, false_and, if_false, if_pos bare]
      rfl
    · rw [if_pos ⟨first, bare⟩, if_pos bare,
        Frame.getElem?_bytes_zero frame.tag first within]
  · rw [if_neg fun both => bare both.2, if_neg bare,
      List.getElem?_eq_getElem within]
    rfl

/-- The canonical form is the row of the cleared frames. -/
theorem bytes_canonical (chromosome : Chromosome) :
    chromosome.canonical.bytes =
      ((Frame.list chromosome.bytes).map Frame.cleared).flatMap
        Frame.bytes := by
  apply List.ext_getElem?
  intro place
  rw [canonical, List.getElem?_map]
  by_cases inside : place < chromosome.frameCount * Frame.size
  · rw [List.getElem?_range inside]
    exact some_canonicalByte inside
  · rw [List.getElem?_eq_none (by rw [List.length_range]; omega),
      List.getElem?_eq_none]
    · rfl
    · rw [Frame.length_flatMap_bytes, List.length_map, Frame.length_list]
      exact Nat.le_of_not_lt inside

theorem list_canonical (chromosome : Chromosome) :
    Frame.list chromosome.canonical.bytes =
      (Frame.list chromosome.bytes).map Frame.cleared := by
  have nothing : ([] : List UInt8).length < Frame.size := by decide
  have row := Frame.list_flatMap_bytes_fragment
    ((Frame.list chromosome.bytes).map Frame.cleared) nothing
  rwa [List.append_nil, ← bytes_canonical] at row

/-- A genome and its canonical form carry the same program, if any. -/
theorem program_canonical_eq_ok_iff {chromosome : Chromosome}
    {program : Program} :
    chromosome.canonical.program = .ok program ↔
      chromosome.program = .ok program := by
  rw [Chromosome.program, Chromosome.program, Program.decode_eq_ok_iff,
    Program.decode_eq_ok_iff, list_canonical, List.map_map]
  have same : Gene.ofFrame? ∘ Frame.cleared = Gene.ofFrame? :=
    funext Frame.ofFrame?_cleared
  rw [same]

/-- The program of a genome is written as its canonical form. -/
theorem ofProgram_of_program {chromosome : Chromosome} {program : Program}
    (decoded : chromosome.program = .ok program) :
    ofProgram program = chromosome.canonical := by
  have carried := Program.decode_eq_ok_iff.mp decoded
  have bytes : program.encode = chromosome.canonical.bytes := by
    rw [bytes_canonical, Program.encode_eq_flatMap,
      Program.map_frame_of_map_ofFrame? carried]
  exact congrArg Chromosome.mk bytes

theorem length_of_program {chromosome : Chromosome} {program : Program}
    (decoded : chromosome.program = .ok program) :
    program.length = chromosome.frameCount := by
  have carried := congrArg List.length (Program.decode_eq_ok_iff.mp decoded)
  rw [List.length_map, List.length_map, Frame.length_list] at carried
  exact carried.symm

@[simp]
theorem program_ofProgram (program : Program) :
    (ofProgram program).program = .ok program :=
  program.decode_encode

/-! ## Which genomes can be decoded -/

theorem length_tags (chromosome : Chromosome) :
    chromosome.tags.length = chromosome.frameCount := by
  rw [tags, ← Frame.map_tag_list, List.length_map, Frame.length_list]
  rfl

/-- The tags stand at the starts of the whole frames. -/
theorem getElem?_tags {chromosome : Chromosome} {position : Nat}
    (inside : position < chromosome.frameCount) :
    chromosome.tags[position]? =
      chromosome.bytes[position * Frame.size]? := by
  have start : position * Frame.size <
      chromosome.bytes.length / Frame.size * Frame.size :=
    Nat.mul_lt_mul_of_pos_right inside (by decide)
  obtain ⟨frame, found, -, tag⟩ := Frame.exists_frame_at start
  rw [Nat.mul_div_cancel _ (by decide)] at found tag
  rw [tag, tags, ← Frame.map_tag_list, List.getElem?_map, found]
  rfl

theorem forall_tags_iff {chromosome : Chromosome} :
    (∀ tag ∈ chromosome.tags, tag ≤ 9) ↔
      ∀ position < chromosome.frameCount, ∃ tag ≤ 9,
        chromosome.bytes[position * Frame.size]? = some tag := by
  constructor
  · intro known position inside
    have counted : position < chromosome.tags.length := by
      rwa [length_tags]
    have found := List.getElem?_eq_getElem counted
    exact ⟨_, known _ (List.getElem_mem counted),
      (getElem?_tags inside).symm.trans found⟩
  · intro known tag member
    obtain ⟨position, found⟩ := List.mem_iff_getElem?.mp member
    have inside : position < chromosome.frameCount := by
      rw [← length_tags]
      exact (List.getElem?_eq_some_iff.mp found).1
    obtain ⟨other, bound, start⟩ := known position inside
    rw [getElem?_tags inside, start] at found
    cases found
    exact bound

theorem isDecodable_iff (chromosome : Chromosome) :
    chromosome.isDecodable ↔
      ∀ position < chromosome.frameCount, ∃ tag ≤ 9,
        chromosome.bytes[position * Frame.size]? = some tag := by
  rw [isDecodable, List.all_eq_true]
  simp only [List.mem_range]
  apply forall₂_congr
  intro position _
  cases chromosome.bytes[position * Frame.size]? with
  | none => simp
  | some tag => simp [Opcode.isSome_ofTag?_iff]

theorem exists_program_iff {chromosome : Chromosome} :
    (∃ program, chromosome.program = .ok program) ↔
      ∀ tag ∈ chromosome.tags, tag ≤ 9 := by
  constructor
  · rintro ⟨program, decoded⟩
    rcases known_or_first_unknown chromosome.tags with
      known | ⟨before, tag, after, split, earlier, unknown⟩
    · exact known
    · rw [program_of_unknown split earlier unknown] at decoded
      cases decoded
  · intro known
    obtain ⟨program, decoded, -⟩ := exists_program known
    exact ⟨program, decoded⟩

/-- Decoding fails with unknown tags only. -/
theorem exists_unknownTag {chromosome : Chromosome} {fault : Fault}
    (failed : chromosome.program = .error fault) :
    ∃ tag offset, fault = .unknownTag tag (some offset) := by
  rcases known_or_first_unknown chromosome.tags with
    known | ⟨before, tag, after, split, earlier, unknown⟩
  · obtain ⟨program, decoded⟩ := exists_program_iff.mpr known
    rw [decoded] at failed
    cases failed
  · rw [program_of_unknown split earlier unknown] at failed
    cases failed
    exact ⟨_, _, rfl⟩

/-- The check of the tags tells which genomes carry a program. -/
theorem isDecodable_iff_exists_program {chromosome : Chromosome} :
    chromosome.isDecodable ↔ ∃ program, chromosome.program = .ok program :=
  chromosome.isDecodable_iff.trans
    (exists_program_iff.trans forall_tags_iff).symm

/--
Decoding is settled for every byte string.  It succeeds exactly when the check
of the tags does, which is when every whole frame starts with a known tag.
Otherwise the first frame that does not is reported, whatever follows it.  When
it succeeds there is a gene for every whole frame, and writing the program gives
the canonical form, which carries the same program.
-/
theorem program_settled (chromosome : Chromosome) :
    (chromosome.isDecodable ↔ ∃ program, chromosome.program = .ok program) ∧
      ((∃ program, chromosome.program = .ok program) ↔
        ∀ position < chromosome.frameCount, ∃ tag ≤ 9,
          chromosome.bytes[position * Frame.size]? = some tag) ∧
      ((∃ position < chromosome.frameCount, ∃ tag > 9,
          chromosome.bytes[position * Frame.size]? = some tag ∧
            (∀ earlier < position, ∃ known ≤ 9,
              chromosome.bytes[earlier * Frame.size]? = some known) ∧
            chromosome.program =
              .error (.unknownTag tag.toNat (some (position * Frame.size)))) ∨
        ∃ program, chromosome.program = .ok program ∧
          program.length = chromosome.frameCount ∧
          ofProgram program = chromosome.canonical ∧
          chromosome.canonical.program = .ok program) := by
  refine ⟨isDecodable_iff_exists_program,
    exists_program_iff.trans forall_tags_iff, ?_⟩
  rcases known_or_first_unknown chromosome.tags with
    known | ⟨before, tag, after, split, earlier, unknown⟩
  · obtain ⟨program, decoded⟩ := exists_program_iff.mpr known
    exact .inr ⟨program, decoded, length_of_program decoded,
      ofProgram_of_program decoded, program_canonical_eq_ok_iff.mpr decoded⟩
  · have counted : before.length < chromosome.frameCount := by
      rw [← length_tags, split, List.length_append, List.length_cons]
      omega
    refine .inl ⟨before.length, counted, tag, unknown, ?_, ?_,
      program_of_unknown split earlier unknown⟩
    · rw [← getElem?_tags counted, split,
        List.getElem?_append_right (Nat.le_refl _), Nat.sub_self]
      rfl
    · intro position inside
      refine ⟨before[position], earlier _ (List.getElem_mem inside), ?_⟩
      rw [← getElem?_tags (Nat.lt_trans inside counted), split,
        List.getElem?_append_left inside, List.getElem?_eq_getElem inside]

/--
A sum with a payload in its operand, a weight that is no number, and a fragment.
-/
example :
    (canonical ⟨[2, 9, 9, 9, 9, 9, 9, 9, 9, 3, 127, 240, 0, 0, 0, 0, 0, 1,
      42]⟩).bytes =
      [2, 0, 0, 0, 0, 0, 0, 0, 0, 3, 127, 240, 0, 0, 0, 0, 0, 1] := by decide

end Chromosome

end NeuralGenome
