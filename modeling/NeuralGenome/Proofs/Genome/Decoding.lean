import NeuralGenome.Genome.Chromosome

/-!
# What a byte string decodes to

A byte string is read in whole frames of nine bytes, of which only the first
byte can be wrong.  This module relates the frames that the decoder peels off
to the byte string itself: `Chromosome.tags` are the bytes at the starts of the
whole frames.  Decoding succeeds when all of them are tags of opcodes, and
otherwise it reports the first that is not, with the place where it stands.
-/

namespace NeuralGenome

/-! ## Frames and tags -/

namespace Frame

theorem list_of_length_lt {bytes : List UInt8} (short : bytes.length < size) :
    list bytes = [] := by
  unfold list
  split
  · simp [size] at short
    omega
  · rfl

theorem exists_frame {bytes : List UInt8} (long : size ≤ bytes.length) :
    ∃ frame, list bytes = frame :: list (bytes.drop size) ∧
      bytes[0]? = some frame.tag := by
  match bytes, long with
  | tag :: a :: b :: c :: d :: e :: f :: g :: h :: rest, _ =>
      exact ⟨⟨tag, .ofBytes [a, b, c, d, e, f, g, h]⟩, by rw [list]; rfl, rfl⟩

/-- The bytes at the starts of the whole frames of a byte string. -/
def tags (bytes : List UInt8) : List UInt8 :=
  (List.range (bytes.length / size)).filterMap fun position =>
    bytes[position * size]?

/-- The frames of a byte string have the tags that stand at their starts. -/
theorem map_tag_list (bytes : List UInt8) :
    (list bytes).map tag = tags bytes := by
  unfold tags
  -- on the number of whole frames, each step dropping the first of them
  induction counted : bytes.length / size generalizing bytes with
  | zero =>
      have short : bytes.length < size :=
        (Nat.div_eq_zero_iff_lt (by decide)).mp counted
      rw [list_of_length_lt short]
      rfl
  | succ count ih =>
      have long : size ≤ bytes.length := by
        simp only [size] at counted ⊢
        omega
      have dropped : (bytes.drop size).length / size = count := by
        simp only [List.length_drop, size] at counted ⊢
        omega
      obtain ⟨frame, peeled, first⟩ := exists_frame long
      rw [peeled, List.map_cons, ih _ dropped, List.range_succ_eq_map,
        List.filterMap_cons, Nat.zero_mul, first, List.filterMap_map]
      congr 2
      funext position
      rw [Function.comp_apply, List.getElem?_drop, Nat.succ_mul, Nat.add_comm]

end Frame

/-- The tags of the whole frames of a chromosome, known or not, in order. -/
def Chromosome.tags (chromosome : Chromosome) : List UInt8 :=
  Frame.tags chromosome.bytes

/-! ## Genes -/

/-- A frame whose tag is known carries a gene of the opcode with that tag. -/
theorem Gene.exists_ofFrame? {frame : Frame} (known : frame.tag ≤ 9) :
    ∃ gene, Gene.ofFrame? frame = some gene ∧ gene.opcode.tag = frame.tag := by
  obtain ⟨opcode, same⟩ := Opcode.exists_tag_eq known
  refine ⟨.ofOpcode opcode frame.operand, ?_, ?_⟩
  · rw [Gene.ofFrame?, Opcode.ofTag?_eq_some_iff.mpr same]
    rfl
  · rw [Instruction.opcode_ofOpcode]
    exact same

theorem Gene.ofFrame?_eq_none {frame : Frame} (unknown : 9 < frame.tag) :
    Gene.ofFrame? frame = none := by
  rw [Gene.ofFrame?, Opcode.ofTag?_eq_none unknown]
  rfl

namespace Program

/-- Frames with known tags are read as genes of the opcodes with these tags. -/
theorem exists_ofFrames {frames : List Frame} (offset : Nat)
    (known : ∀ frame ∈ frames, frame.tag ≤ 9) :
    ∃ program, ofFrames offset frames = .ok program ∧
      program.opcodes.map Opcode.tag = frames.map Frame.tag := by
  induction frames generalizing offset with
  | nil => exact ⟨[], rfl, rfl⟩
  | cons frame rest ih =>
      obtain ⟨gene, carried, tag⟩ :=
        Gene.exists_ofFrame? (known frame List.mem_cons_self)
      obtain ⟨program, read, tags⟩ :=
        ih (offset + Frame.size) fun later member =>
        known later (List.mem_cons_of_mem frame member)
      refine ⟨gene :: program, ?_, ?_⟩
      · rw [ofFrames, carried]
        simp only [read]
        rfl
      · simp only [opcodes, List.map_cons] at tags ⊢
        rw [tag, tags]

/-- The first frame with an unknown tag is reported, whatever follows it. -/
theorem ofFrames_of_unknown {before : List Frame} {frame : Frame}
    (after : List Frame) (offset : Nat)
    (known : ∀ earlier ∈ before, earlier.tag ≤ 9) (unknown : 9 < frame.tag) :
    ofFrames offset (before ++ frame :: after) =
      .error (.unknownTag frame.tag.toNat
        (some (offset + before.length * Frame.size))) := by
  induction before generalizing offset with
  | nil =>
      rw [List.nil_append, ofFrames, Gene.ofFrame?_eq_none unknown]
      simp
  | cons first rest ih =>
      obtain ⟨gene, carried, -⟩ :=
        Gene.exists_ofFrame? (known first List.mem_cons_self)
      have failed := ih (offset + Frame.size) fun earlier member =>
        known earlier (List.mem_cons_of_mem first member)
      rw [List.cons_append, ofFrames, carried]
      simp only [failed, List.length_cons, Nat.succ_mul]
      rw [Nat.add_assoc, Nat.add_comm Frame.size]
      rfl

end Program

/-! ## Chromosomes -/

namespace Chromosome

variable {chromosome : Chromosome}

/-- Known tags decode to a program of the opcodes that they stand for. -/
theorem exists_program (known : ∀ tag ∈ chromosome.tags, tag ≤ 9) :
    ∃ program, chromosome.program = .ok program ∧
      program.opcodes.map Opcode.tag = chromosome.tags := by
  have tags := Frame.map_tag_list chromosome.bytes
  have framesKnown : ∀ frame ∈ Frame.list chromosome.bytes, frame.tag ≤ 9 := by
    intro frame member
    apply known
    rw [Chromosome.tags, ← tags]
    exact List.mem_map_of_mem member
  obtain ⟨program, read, opcodes⟩ := Program.exists_ofFrames 0 framesKnown
  exact ⟨program, read, opcodes.trans tags⟩

theorem program_of_unknown {before after : List UInt8} {tag : UInt8}
    (split : chromosome.tags = before ++ tag :: after)
    (known : ∀ earlier ∈ before, earlier ≤ 9) (unknown : 9 < tag) :
    chromosome.program =
      .error (.unknownTag tag.toNat (some (before.length * Frame.size))) := by
  have tags := Frame.map_tag_list chromosome.bytes
  obtain ⟨first, rest, frames, firstTags, restTags⟩ :=
    List.map_eq_append_iff.mp (tags.trans split)
  obtain ⟨frame, last, rfl, rfl, -⟩ := List.map_eq_cons_iff.mp restTags
  subst firstTags
  have failed := Program.ofFrames_of_unknown last 0
    (fun earlier member => known earlier.tag (List.mem_map_of_mem member))
      unknown
  rw [← frames, Nat.zero_add] at failed
  rw [List.length_map]
  exact failed

theorem known_or_first_unknown (tags : List UInt8) :
    (∀ tag ∈ tags, tag ≤ 9) ∨
      ∃ before tag after, tags = before ++ tag :: after ∧
        (∀ earlier ∈ before, earlier ≤ 9) ∧ 9 < tag := by
  induction tags with
  | nil => exact .inl nofun
  | cons first rest ih =>
      by_cases known : first ≤ 9
      · rcases ih with all | ⟨before, tag, after, rfl, earlier, unknown⟩
        · exact .inl (List.forall_mem_cons.mpr ⟨known, all⟩)
        · exact .inr ⟨first :: before, tag, after, rfl,
            List.forall_mem_cons.mpr ⟨known, earlier⟩, unknown⟩
      · exact .inr ⟨[], first, rest, rfl, nofun, UInt8.not_le.mp known⟩

end Chromosome

end NeuralGenome
