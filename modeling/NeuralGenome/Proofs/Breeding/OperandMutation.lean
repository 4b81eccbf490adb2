import NeuralGenome.Proofs.Breeding.BitMutation
import NeuralGenome.Proofs.Genome.Canonical
import NeuralGenome.Reading.Weights

/-!
# Mutation of weights, byte by byte

Which bits may flip is found on the frames of a genome, and flipped in their
operands.  Here the outcome is told by the bytes of the genome alone.  Each
weighted sum takes sixty-four draws, and turns those bits of its operand that
they select; all other bytes stay, so that the tags still tell the same frames
apart and the same draws restore the genome.
-/

namespace NeuralGenome

/-! ## Weights of frames -/

namespace Frame

/-- The weight that a frame carries, if it is that of a weighted sum. -/
def weight? (frame : Frame) : Option Binary64 :=
  if Mutation.isWeighted frame then some frame.operand else none

end Frame

theorem Mutation.isWeighted_iff {frame : Frame} :
    isWeighted frame ↔ frame.tag = Opcode.createWeightedSum.tag := by
  rw [isWeighted, beq_iff_eq, Opcode.ofTag?_eq_some_iff, eq_comm]

namespace Weights

theorem receiveAll_eq_append (weights : List Binary64) (calls : List Call) :
    receiveAll weights calls = weights ++ calls.filterMap ofCall? := by
  induction calls generalizing weights with
  | nil => rw [List.filterMap_nil, List.append_nil, receiveAll, List.foldl_nil]
  | cons call rest ih =>
      rw [receiveAll, List.foldl_cons, ← receiveAll, ih, receive,
        List.append_assoc, List.filterMap_cons]
      cases ofCall? call <;> rfl

/-- A gene is received as a weight exactly when its frame carries one. -/
theorem ofCall?_of_frame {frame : Frame} {gene : Gene}
    (carried : Gene.ofFrame? frame = some gene) :
    ofCall? gene.call = frame.weight? := by
  obtain ⟨opcode, named, rfl⟩ := Option.map_eq_some_iff.mp carried
  rw [Frame.weight?, Mutation.isWeighted, named]
  cases opcode <;> rfl

theorem filterMap_ofCall? {frames : List Frame} {program : Program}
    (carried : frames.map Gene.ofFrame? = program.map some) :
    program.filterMap (fun gene => ofCall? gene.call) =
      frames.filterMap Frame.weight? := by
  induction frames generalizing program with
  | nil =>
      cases List.map_eq_nil_iff.mp carried.symm
      rfl
  | cons frame rest ih =>
      obtain ⟨gene, others, rfl, same, restSame⟩ :=
        List.map_eq_cons_iff.mp carried.symm
      rw [List.filterMap_cons, List.filterMap_cons, ofCall?_of_frame same.symm,
        ih restSame.symm]

end Weights

namespace Chromosome

/--
Whether a byte belongs to the operand of a weighted sum.  A fragment has no such
byte, whatever it starts with.
-/
def InWeight (chromosome : Chromosome) (place : Nat) : Prop :=
  chromosome.tags[place / Frame.size]? = some Opcode.createWeightedSum.tag ∧
    place % Frame.size ≠ 0

instance (chromosome : Chromosome) : DecidablePred chromosome.InWeight :=
  fun _ => inferInstanceAs (Decidable (_ ∧ _))

theorem map_tag_list (chromosome : Chromosome) :
    (Frame.list chromosome.bytes).map Frame.tag = chromosome.tags :=
  Frame.map_tag_list chromosome.bytes

/-- The weights of a genome are those of its frames, in order. -/
theorem weights_of_program {chromosome : Chromosome} {program : Program}
    (decoded : chromosome.program = .ok program) :
    program.weights =
      (Frame.list chromosome.bytes).filterMap Frame.weight? := by
  rw [Program.weights, Weights.receiveAll_eq_append, List.nil_append,
    Program.calls, List.filterMap_map]
  exact Weights.filterMap_ofCall? (Program.decode_eq_ok_iff.mp decoded)

end Chromosome

namespace Mutation

/-! ## Flipping operands -/

/-- An operand with those bits flipped that a mask selects. -/
def flipOperand (mask : List Bool) (operand : Binary64) : Binary64 :=
  .ofBytes (Bits.flip mask operand.bytes)

/-- A frame with operand bits flipped, if it is that of a weighted sum. -/
def flipFrame (mask : List Bool) (frame : Frame) : Frame :=
  if isWeighted frame then
    { frame with operand := flipOperand (mask.take 64) frame.operand }
  else frame

/--
Frames with operand bits of their weighted sums flipped; each of these takes its
part of the mask.
-/
def flipFrames : List Bool → List Frame → List Frame
  | _, [] => []
  | mask, frame :: rest =>
      flipFrame mask frame ::
        flipFrames (if isWeighted frame then mask.drop 64 else mask) rest

section Operand

variable {mask : List Bool} (operand : Binary64)

theorem bytes_flipOperand (counted : mask.length = 64) :
    (flipOperand mask operand).bytes = Bits.flip mask operand.bytes :=
  Binary64.bytes_ofBytes (Bits.length_flip counted)

theorem flipOperand_flipOperand (counted : mask.length = 64) :
    flipOperand mask (flipOperand mask operand) = operand := by
  rw [flipOperand, bytes_flipOperand operand counted, Bits.flip_flip counted,
    Binary64.ofBytes_bytes]

/-- A bit of an operand is turned exactly when the mask selects it. -/
theorem testBit_flipOperand (counted : mask.length = 64) {place : Nat}
    (inside : place < 64)
    {chosen : Bool} (selected : mask[place]? = some chosen) :
    (flipOperand mask operand).bits.toNat.testBit (63 - place) =
      Bool.xor (operand.bits.toNat.testBit (63 - place)) chosen := by
  rw [← Bits.bit_bytes _ inside, ← Bits.bit_bytes _ inside,
    bytes_flipOperand operand counted, Bits.bit_flip counted selected]

end Operand

/-! ## Flipping frames -/

section Frames

variable {mask : List Bool}

@[simp]
theorem tag_flipFrame (mask : List Bool) (frame : Frame) :
    (flipFrame mask frame).tag = frame.tag := by
  rw [flipFrame]
  split <;> rfl

@[simp]
theorem isWeighted_flipFrame (mask : List Bool) (frame : Frame) :
    isWeighted (flipFrame mask frame) = isWeighted frame := by
  rw [isWeighted, isWeighted, tag_flipFrame]

theorem flipFrame_of_unweighted (mask : List Bool) {frame : Frame}
    (plain : isWeighted frame = false) : flipFrame mask frame = frame := by
  rw [flipFrame, plain]
  rfl

theorem operand_flipFrame (mask : List Bool) {frame : Frame}
    (weighted : isWeighted frame) :
    (flipFrame mask frame).operand =
      flipOperand (mask.take 64) frame.operand := by
  rw [flipFrame, if_pos weighted]

theorem flipFrame_flipFrame {frame : Frame}
    (enough : isWeighted frame → 64 ≤ mask.length) :
    flipFrame mask (flipFrame mask frame) = frame := by
  cases weighted : isWeighted frame with
  | false =>
      rw [flipFrame_of_unweighted mask weighted,
        flipFrame_of_unweighted mask weighted]
  | true =>
      have counted : (mask.take 64).length = 64 :=
        List.length_take_of_le (enough weighted)
      rw [flipFrame, isWeighted_flipFrame, if_pos weighted,
        operand_flipFrame mask weighted, flipOperand_flipOperand _ counted,
        tag_flipFrame]

/-- A tag stays, and without a weight the operand does too. -/
theorem getElem?_bytes_flipFrame (mask : List Bool) {frame : Frame}
    {place : Nat} (outside : isWeighted frame → place = 0) :
    (flipFrame mask frame).bytes[place]? = frame.bytes[place]? := by
  cases weighted : isWeighted frame with
  | false => rw [flipFrame_of_unweighted mask weighted]
  | true =>
      rw [outside weighted, Frame.bytes, Frame.bytes, tag_flipFrame]
      rfl

@[simp]
theorem map_tag_flipFrames (mask : List Bool) (frames : List Frame) :
    (flipFrames mask frames).map Frame.tag = frames.map Frame.tag := by
  induction frames generalizing mask with
  | nil => rfl
  | cons frame rest ih =>
      rw [flipFrames, List.map_cons, List.map_cons, ih, tag_flipFrame]

@[simp]
theorem length_flipFrames (mask : List Bool) (frames : List Frame) :
    (flipFrames mask frames).length = frames.length := by
  have tags := congrArg List.length (map_tag_flipFrames mask frames)
  rwa [List.length_map, List.length_map] at tags

/--
A frame takes the part of the mask behind those of the weighted sums before it.
-/
theorem getElem?_flipFrames (mask : List Bool) (frames : List Frame)
    (place : Nat) : (flipFrames mask frames)[place]? = frames[place]?.map
      (flipFrame (mask.drop (64 * (frames.take place).countP isWeighted))) := by
  induction frames generalizing mask place with
  | nil => rfl
  | cons frame rest ih =>
      cases place with
      | zero => rfl
      | succ place =>
          rw [flipFrames, List.getElem?_cons_succ, List.getElem?_cons_succ, ih,
            List.take_succ_cons, List.countP_cons]
          cases isWeighted frame with
          | false => rfl
          | true =>
              rw [if_pos rfl, if_pos rfl, List.drop_drop, Nat.mul_succ,
                Nat.add_comm 64]

/--
The weights of flipped frames are the weights, each flipped by its part of the
mask.
-/
theorem weights_flipFrames (mask : List Bool) (frames : List Frame) :
    (flipFrames mask frames).filterMap Frame.weight? =
      (frames.filterMap Frame.weight?).mapIdx fun place =>
        flipOperand ((mask.drop (64 * place)).take 64) := by
  induction frames generalizing mask with
  | nil => rfl
  | cons frame rest ih =>
      rw [flipFrames, List.filterMap_cons, List.filterMap_cons, Frame.weight?,
        Frame.weight?, isWeighted_flipFrame, ih]
      cases weighted : isWeighted frame with
      | false => rfl
      | true =>
          simp only [if_true, List.mapIdx_cons, operand_flipFrame mask weighted,
            List.drop_drop, Nat.mul_zero, List.drop_zero, Nat.mul_succ,
            Nat.add_comm 64]

theorem flipFrames_of_unweighted (mask : List Bool) {frames : List Frame}
    (plain : frames.countP isWeighted = 0) :
    flipFrames mask frames = frames := by
  induction frames generalizing mask with
  | nil => rfl
  | cons frame rest ih =>
      rw [List.countP_cons, Nat.add_eq_zero_iff] at plain
      have unweighted : isWeighted frame = false := by
        by_contra weighted
        rw [Bool.not_eq_false] at weighted
        simp [weighted] at plain
      rw [flipFrames, flipFrame_of_unweighted mask unweighted, ih _ plain.1]

/-- The same mask restores frames, if it is long enough. -/
theorem flipFrames_flipFrames {frames : List Frame}
    (enough : 64 * frames.countP isWeighted ≤ mask.length) :
    flipFrames mask (flipFrames mask frames) = frames := by
  -- flipping keeps the tags, so that the second time every frame takes the same
  -- part of the mask
  induction frames generalizing mask with
  | nil => rfl
  | cons frame rest ih =>
      rw [flipFrames, flipFrames, isWeighted_flipFrame]
      rw [List.countP_cons] at enough
      cases weighted : isWeighted frame with
      | false =>
          rw [weighted] at enough
          have plain := flipFrame_of_unweighted mask weighted
          rw [plain, plain]
          exact congrArg (List.cons frame) (ih enough)
      | true =>
          rw [weighted, if_pos rfl] at enough
          rw [flipFrame_flipFrame fun _ => by omega]
          refine congrArg (List.cons frame) (ih ?_)
          rw [if_pos rfl, List.length_drop]
          omega

end Frames

/-! ## Flipping the frames of a genome -/

/-- A genome with operand bits of its weighted sums flipped. -/
def reweighed (mask : List Bool) (chromosome : Chromosome) : Chromosome :=
  ⟨(flipFrames mask (Frame.list chromosome.bytes)).flatMap Frame.bytes ++
    chromosome.fragment⟩

section Reweighed

variable (mask : List Bool) (chromosome : Chromosome)

theorem list_reweighed :
    Frame.list (reweighed mask chromosome).bytes =
      flipFrames mask (Frame.list chromosome.bytes) :=
  Frame.list_flatMap_bytes_fragment _
    (Frame.length_fragment_lt chromosome.bytes)

theorem fragment_reweighed :
    (reweighed mask chromosome).fragment = chromosome.fragment := by
  have whole := Frame.flatMap_bytes_list (reweighed mask chromosome).bytes
  rw [list_reweighed] at whole
  exact List.append_cancel_left whole

@[simp]
theorem tags_reweighed :
    (reweighed mask chromosome).tags = chromosome.tags := by
  rw [← Chromosome.map_tag_list, ← Chromosome.map_tag_list, list_reweighed,
    map_tag_flipFrames]

@[simp]
theorem length_reweighed :
    (reweighed mask chromosome).length = chromosome.length := by
  have row := congrArg List.length (Frame.flatMap_bytes_list chromosome.bytes)
  rw [List.length_append, Frame.length_flatMap_bytes] at row
  rw [Chromosome.length, reweighed, List.length_append,
    Frame.length_flatMap_bytes, length_flipFrames]
  exact row

theorem reweighed_of_unweighted
    (plain : (Frame.list chromosome.bytes).countP isWeighted = 0) :
    reweighed mask chromosome = chromosome := by
  rw [reweighed, flipFrames_of_unweighted mask plain]
  exact congrArg Chromosome.mk (Frame.flatMap_bytes_list chromosome.bytes)

theorem reweighed_reweighed
    (enough : 64 * (Frame.list chromosome.bytes).countP isWeighted ≤
      mask.length) :
    reweighed mask (reweighed mask chromosome) = chromosome := by
  have restored := flipFrames_flipFrames enough
  rw [← list_reweighed] at restored
  rw [reweighed, restored, fragment_reweighed]
  exact congrArg Chromosome.mk (Frame.flatMap_bytes_list chromosome.bytes)

end Reweighed

/-! ## Bits of operands -/

/-- The operand of a frame stands behind its tag. -/
theorem bit_operand {frames : List Frame} {position : Nat} {frame : Frame}
    (found : frames[position]? = some frame) (rest : List UInt8) {place : Nat}
    (inside : place < 64) :
    Bits.bit (frames.flatMap Frame.bytes ++ rest)
      (8 * (position * Frame.size + 1) + place) =
      Bits.bit frame.operand.bytes place := by
  have reached : place / 8 < 8 := Nat.div_lt_of_lt_mul inside
  have early : position < frames.length :=
    (List.getElem?_eq_some_iff.mp found).1
  have byte : (8 * (position * Frame.size + 1) + place) / 8 =
      position * Frame.size + (1 + place / 8) := by
    rw [Nat.mul_add_div (by decide), Nat.add_assoc]
  have here : (position * Frame.size + (1 + place / 8)) / Frame.size =
      position := by
    simp only [Frame.size]
    omega
  have behind : (position * Frame.size + (1 + place / 8)) % Frame.size =
      place / 8 + 1 := by
    simp only [Frame.size]
    omega
  have within : position * Frame.size + (1 + place / 8) <
      (frames.flatMap Frame.bytes).length := by
    rw [Frame.length_flatMap_bytes]
    simp only [Frame.size]
    omega
  rw [Bits.bit, Bits.bit, byte, Nat.mul_add_mod, List.getD_eq_getElem?_getD,
    List.getElem?_append_left within, Frame.getElem?_flatMap_bytes, here,
    found, behind]
  rfl

theorem countP_isWeighted (frames : List Frame) :
    frames.countP isWeighted =
      (frames.map Frame.tag).count Opcode.createWeightedSum.tag := by
  rw [List.count_eq_countP, List.countP_map]
  apply List.countP_congr
  intro frame _
  rw [isWeighted_iff, Function.comp_apply, beq_iff_eq]

/-- How many frames of a genome are those of weighted sums. -/
theorem countP_list (chromosome : Chromosome) :
    (Frame.list chromosome.bytes).countP isWeighted =
      chromosome.tags.count Opcode.createWeightedSum.tag := by
  rw [countP_isWeighted, chromosome.map_tag_list]

/-! ## Mutation of weights at a bench -/

variable {Source : Type} [DrawSource Source] {source after : Source}
  {draws : List Binary64}

theorem ends_mutateFrame_of_weighted (probability : Probability) {frame : Frame}
    (weighted : isWeighted frame)
    (drawn : DrawSource.take 64 source = (draws, after)) :
    Lab.Ends (mutateFrame probability frame) source
      (.ok { frame with
        operand := flipOperand (mask probability draws) frame.operand })
      after := by
  have flip := ends_flipBytes probability frame.operand.bytes source
  rw [Binary64.length_bytes, drawn] at flip
  rw [mutateFrame, if_pos weighted]
  exact flip.bind (.pure _ after)

/--
Frames are flipped with sixty-four draws for each weighted sum among them, in
order.
-/
theorem ends_mutateFrames (probability : Probability) {frames : List Frame}
    (drawn : DrawSource.take (64 * frames.countP isWeighted) source =
      (draws, after)) :
    Lab.Ends (mutateFrames probability frames) source
      (.ok (flipFrames (mask probability draws) frames)) after := by
  induction frames generalizing source draws with
  | nil =>
      cases drawn
      exact .pure [] _
  | cons frame rest ih =>
      rw [mutateFrames, flipFrames]
      rw [List.countP_cons] at drawn
      cases weighted : isWeighted frame with
      | false =>
          rw [weighted] at drawn
          rw [flipFrame_of_unweighted _ weighted]
          have kept : Lab.Ends (mutateFrame probability frame) source
              (.ok frame) source := by
            rw [mutateFrame, weighted]
            exact .pure frame source
          exact kept.bind ((ih drawn).bind (.pure _ after))
      | true =>
          rcases early : DrawSource.take 64 source with ⟨first, middle⟩
          rcases late : DrawSource.take (64 * rest.countP isWeighted) middle
            with ⟨others, last⟩
          rw [weighted, if_pos rfl, Nat.mul_succ, Nat.add_comm,
            DrawSource.take_add, early, late] at drawn
          cases drawn
          have counted : (mask probability first).length = 64 := by
            rw [length_mask, DrawSource.length_of_take_eq early]
          have parts : mask probability (first ++ others) =
              mask probability first ++ mask probability others :=
                List.map_append
          rw [if_pos rfl, flipFrame, if_pos weighted, parts,
            List.take_left' counted, List.drop_left' counted]
          exact (ends_mutateFrame_of_weighted probability weighted early).bind
            ((ih late).bind (.pure _ _))

/--
A genome that can be decoded is flipped with sixty-four draws for each weighted
sum.
-/
theorem ends_mutateWeights (probability : Probability) {chromosome : Chromosome}
    {program : Program} (decoded : chromosome.program = .ok program)
    (drawn : DrawSource.take
      (64 * chromosome.tags.count Opcode.createWeightedSum.tag) source =
      (draws, after)) :
    Lab.Ends (mutateWeights probability chromosome) source
      (.ok (reweighed (mask probability draws) chromosome)) after := by
  have read := Lab.Ends.decode chromosome source
  rw [decoded] at read
  rw [← countP_list] at drawn
  refine read.bind ?_
  by_cases plain : (Frame.list chromosome.bytes).countP isWeighted = 0
  · rw [if_pos plain, reweighed_of_unweighted _ chromosome plain]
    rw [plain] at drawn
    cases drawn
    exact .pure chromosome _
  · rw [if_neg plain]
    exact (ends_mutateFrames probability drawn).bind
      ((Lab.Ends.note _ after).bind (.pure _ after))

theorem ends_mutateWeights_of_error (probability : Probability)
    {chromosome : Chromosome}
    {fault : Fault} (failed : chromosome.program = .error fault)
    (source : Source) :
    Lab.Ends (mutateWeights probability chromosome) source (.error fault)
      source := by
  have read := Lab.Ends.decode chromosome source
  rw [failed] at read
  exact read.bind_error

/-! ## What becomes of the bytes -/

/-- What a mutation of weights makes of a genome, told by its bytes. -/
structure Reweighs (probability : Probability) (draws : List Binary64)
    (chromosome mutant : Chromosome) : Prop where
  length : mutant.length = chromosome.length
  /-- Tags, other operands and the fragment stay. -/
  outside : ∀ place, ¬chromosome.InWeight place →
    mutant.bytes[place]? = chromosome.bytes[place]?
  /--
  The operands of weighted sums are turned by sixty-four draws each, in the
  order of frames.
  -/
  inside : ∀ position,
    chromosome.tags[position]? = some Opcode.createWeightedSum.tag →
      ∀ place < 64, ∃ draw,
        draws[64 * (chromosome.tags.take position).count
          Opcode.createWeightedSum.tag + place]? = some draw ∧
        Bits.bit mutant.bytes (8 * (position * Frame.size + 1) + place) =
          Bool.xor
            (Bits.bit chromosome.bytes
              (8 * (position * Frame.size + 1) + place))
            (draw.less probability.value)
  /--
  The weights are turned by the same draws, the most significant bit by the
  first.
  -/
  weights : ∃ program genes, chromosome.program = .ok program ∧
    mutant.program = .ok genes ∧
    program.weights.length =
      chromosome.tags.count Opcode.createWeightedSum.tag ∧
    genes.weights.length = program.weights.length ∧
    ∀ number weight, program.weights[number]? = some weight →
      ∃ turned, genes.weights[number]? = some turned ∧ ∀ place < 64, ∃ draw,
        draws[64 * number + place]? = some draw ∧
          turned.bits.toNat.testBit (63 - place) =
            Bool.xor (weight.bits.toNat.testBit (63 - place))
              (draw.less probability.value)

section Bytes

variable {Source : Type} [DrawSource Source] {source after : Source}
  {draws : List Binary64} {probability : Probability} {chromosome : Chromosome}

theorem length_weights {program : Program}
    (decoded : chromosome.program = .ok program) :
    program.weights.length =
      chromosome.tags.count Opcode.createWeightedSum.tag := by
  rw [Chromosome.weights_of_program decoded, ← countP_list,
    List.length_filterMap_eq_countP]
  apply List.countP_congr
  intro frame _
  rw [Frame.weight?]
  cases isWeighted frame <;> simp

/-- A weighted sum is not among those before it. -/
theorem count_take_lt {tags : List UInt8} {position : Nat} {tag : UInt8}
    (found : tags[position]? = some tag) :
    (tags.take position).count tag < tags.count tag := by
  have next : tags.take (position + 1) = tags.take position ++ [tag] := by
    rw [List.take_add_one, found]
    rfl
  calc
    (tags.take position).count tag < (tags.take position).count tag + 1 :=
      Nat.lt_succ_self _
    _ = (tags.take (position + 1)).count tag := by
        rw [next, List.count_append, List.count_singleton_self]
    _ ≤ tags.count tag := (List.take_sublist _ tags).count_le tag

/-- The part of a mask that a weighted sum takes. -/
theorem exists_turn (probability : Probability) {count number place : Nat}
    (counted : draws.length = 64 * count) (early : number < count)
    (inside : place < 64) :
    ∃ draw, draws[64 * number + place]? = some draw ∧
      (((mask probability draws).drop (64 * number)).take 64)[place]? =
        some (probability.covers draw) := by
  have reached : 64 * number + place < draws.length := by omega
  have found := List.getElem?_eq_getElem reached
  refine ⟨_, found, ?_⟩
  rw [List.getElem?_take_of_lt inside, List.getElem?_drop,
    getElem?_mask probability found]

theorem length_part (probability : Probability) {count number : Nat}
    (counted : draws.length = 64 * count) (early : number < count) :
    (((mask probability draws).drop (64 * number)).take 64).length = 64 := by
  rw [List.length_take, List.length_drop, length_mask, counted]
  omega

theorem exists_frame_of_tag {position : Nat}
    (found : chromosome.tags[position]? = some Opcode.createWeightedSum.tag) :
    ∃ frame, (Frame.list chromosome.bytes)[position]? = some frame ∧
      isWeighted frame := by
  rw [← Chromosome.map_tag_list, List.getElem?_map, Option.map_eq_some_iff]
    at found
  obtain ⟨frame, there, tag⟩ := found
  exact ⟨frame, there, isWeighted_iff.mpr tag⟩

/-- What is no operand of a weighted sum stays, whatever the mask is. -/
theorem getElem?_reweighed (mask : List Bool) {place : Nat}
    (outside : ¬chromosome.InWeight place) :
    (reweighed mask chromosome).bytes[place]? = chromosome.bytes[place]? := by
  have row := congrArg (·[place]?) (Frame.flatMap_bytes_list chromosome.bytes)
  have lengths :
      ((flipFrames mask (Frame.list chromosome.bytes)).flatMap
        Frame.bytes).length =
      ((Frame.list chromosome.bytes).flatMap Frame.bytes).length := by
    rw [Frame.length_flatMap_bytes, length_flipFrames,
      ← Frame.length_flatMap_bytes]
  rw [← row, reweighed]
  by_cases whole : place <
    ((Frame.list chromosome.bytes).flatMap Frame.bytes).length
  · rw [List.getElem?_append_left whole,
      List.getElem?_append_left (lengths.symm ▸ whole),
      Frame.getElem?_flatMap_bytes, Frame.getElem?_flatMap_bytes,
      getElem?_flipFrames]
    cases found : (Frame.list chromosome.bytes)[place / Frame.size]? with
    | none => rfl
    | some frame =>
        have tag : chromosome.tags[place / Frame.size]? = some frame.tag := by
          rw [← Chromosome.map_tag_list, List.getElem?_map, found,
            Option.map_some]
        apply getElem?_bytes_flipFrame
        intro weighted
        by_contra behind
        exact outside
          ⟨tag.trans (congrArg some (isWeighted_iff.mp weighted)), behind⟩
  · -- both fragments start behind equally many bytes
    have behind := Nat.le_of_not_lt whole
    rw [List.getElem?_append_right behind,
      List.getElem?_append_right (lengths ▸ behind), lengths]
    rfl

theorem reweighs_reweighed {program : Program}
    (decoded : chromosome.program = .ok program)
    (counted : draws.length =
      64 * chromosome.tags.count Opcode.createWeightedSum.tag) :
    Reweighs probability draws chromosome
      (reweighed (mask probability draws) chromosome) where
  length := length_reweighed _ chromosome
  outside _ outside := getElem?_reweighed _ outside
  inside := by
    intro position found place inside
    obtain ⟨frame, there, weighted⟩ := exists_frame_of_tag found
    have early := count_take_lt found
    obtain ⟨draw, drawn, turned⟩ := exists_turn probability counted early inside
    have before := bit_operand there chromosome.fragment inside
    rw [Chromosome.fragment, Frame.flatMap_bytes_list] at before
    have mutated :=
      getElem?_flipFrames (mask probability draws) (Frame.list chromosome.bytes)
        position
    rw [there, Option.map_some, countP_isWeighted, List.map_take,
      chromosome.map_tag_list] at mutated
    have after := bit_operand mutated chromosome.fragment inside
    rw [operand_flipFrame _ weighted,
      bytes_flipOperand _ (length_part probability counted early),
      Bits.bit_flip (length_part probability counted early) turned, ← before]
      at after
    exact ⟨draw, drawn, after⟩
  weights := by
    have known := Chromosome.exists_program_iff.mp ⟨program, decoded⟩
    rw [← tags_reweighed (mask probability draws)] at known
    obtain ⟨genes, carried⟩ := Chromosome.exists_program_iff.mpr known
    refine ⟨program, genes, decoded, carried, length_weights decoded, ?_, ?_⟩
    · rw [length_weights decoded, length_weights carried, tags_reweighed]
    · intro number weight found
      have early :
          number < chromosome.tags.count Opcode.createWeightedSum.tag := by
        rw [← length_weights decoded]
        exact (List.getElem?_eq_some_iff.mp found).1
      rw [Chromosome.weights_of_program decoded] at found
      rw [Chromosome.weights_of_program carried, list_reweighed,
        weights_flipFrames, List.getElem?_mapIdx, found]
      refine ⟨_, rfl, fun place inside => ?_⟩
      obtain ⟨draw, drawn, turned⟩ :=
        exists_turn probability counted early inside
      exact ⟨draw, drawn,
        testBit_flipOperand weight (length_part probability counted early)
          inside turned⟩

/--
Mutation of weights is settled for all byte strings and all draws.  It fails
exactly when some whole frame has an unknown tag, which is reported before
anything is drawn.  Otherwise it takes sixty-four draws for each weighted sum,
in the order of frames.  All bytes outside the operands of weighted sums stay; a
bit of such an operand is turned exactly when the draw in its place falls under
the probability, and the weights of the program are turned with it.  Mutating
with the same draws again restores the genome.
-/
theorem mutateWeights_settled (probability : Probability)
    (chromosome : Chromosome)
    (drawn : DrawSource.take
      (64 * chromosome.tags.count Opcode.createWeightedSum.tag) source =
      (draws, after)) :
    ((∃ tag ∈ chromosome.tags, 9 < tag) ↔
        ∃ tag offset, Lab.Ends (mutateWeights probability chromosome) source
          (.error (.unknownTag tag (some offset))) source) ∧
      ((∀ tag ∈ chromosome.tags, tag ≤ 9) →
        ∃ mutant, Lab.Ends (mutateWeights probability chromosome) source
            (.ok mutant) after ∧
          Reweighs probability draws chromosome mutant ∧
          ∀ {Other : Type} [DrawSource Other] (other later : Other),
            DrawSource.take
              (64 * chromosome.tags.count Opcode.createWeightedSum.tag) other =
                (draws, later) →
              Lab.Ends (mutateWeights probability mutant) other (.ok chromosome)
                later) := by
  have counted := DrawSource.length_of_take_eq drawn
  constructor
  · constructor
    · rintro ⟨tag, member, unknown⟩
      cases decoded : chromosome.program with
      | ok program =>
          have known :=
            Chromosome.exists_program_iff.mp ⟨program, decoded⟩ tag member
          exact absurd known (UInt8.not_le.mpr unknown)
      | error fault =>
          obtain ⟨code, offset, rfl⟩ := Chromosome.exists_unknownTag decoded
          exact ⟨code, offset,
            ends_mutateWeights_of_error probability decoded source⟩
    · rintro ⟨code, offset, failed⟩
      by_contra none
      simp only [not_exists, not_and, UInt8.not_lt] at none
      obtain ⟨program, decoded⟩ := Chromosome.exists_program_iff.mpr none
      cases (failed.unique (ends_mutateWeights probability decoded drawn)).1
  · intro known
    obtain ⟨program, decoded⟩ := Chromosome.exists_program_iff.mpr known
    refine ⟨_, ends_mutateWeights probability decoded drawn,
      reweighs_reweighed decoded counted, fun other later drawnAgain => ?_⟩
    obtain ⟨genes, carried⟩ := Chromosome.exists_program_iff.mpr
      ((tags_reweighed (mask probability draws) chromosome).symm ▸ known)
    rw [← tags_reweighed (mask probability draws) chromosome] at drawnAgain
    have restored := ends_mutateWeights probability carried drawnAgain
    rwa [reweighed_reweighed] at restored
    rw [countP_list, length_mask, counted]

end Bytes

/--
A weight of one, a sum with an operand that is ignored, and a fragment that
starts like the frame of a weighted sum.
-/
def encumbered : Chromosome :=
  ⟨[3, 0x3f, 0xf0, 0, 0, 0, 0, 0, 0, 2, 7, 0, 0, 0, 0, 0, 0, 0, 3, 0xff]⟩

/--
Under one half, every other bit of the weight is turned, the sign first, and
nothing else.
-/
theorem mutateWeights_settled_encumbered :
    DrawSource.take (64 * encumbered.tags.count Opcode.createWeightedSum.tag)
      alternating = ((DrawSource.take 64 alternating).1, ⟨[.zero, .half], 64⟩) ∧
      (∀ tag ∈ encumbered.tags, tag ≤ 9) ∧
      ∃ mutant after,
        Lab.Ends (mutateWeights ⟨.half, by decide⟩ encumbered) alternating
            (.ok mutant) after ∧
          after.used = 64 ∧
          Bits.bit mutant.bytes 8 = true ∧ Bits.bit mutant.bytes 9 = false ∧
          (∀ place, ¬encumbered.InWeight place →
            mutant.bytes[place]? = encumbered.bytes[place]?) ∧
          ¬encumbered.InWeight 10 ∧ ¬encumbered.InWeight 19 ∧
          Lab.Ends (mutateWeights ⟨.half, by decide⟩ mutant) alternating
            (.ok encumbered) after := by
  have drawn :
      DrawSource.take (64 * encumbered.tags.count Opcode.createWeightedSum.tag)
          alternating =
        ((DrawSource.take 64 alternating).1, ⟨[.zero, .half], 64⟩) := rfl
  have known : ∀ tag ∈ encumbered.tags, tag ≤ 9 := by decide +kernel
  obtain ⟨mutant, ends, reweighs, restores⟩ :=
    (mutateWeights_settled ⟨.half, by decide⟩ encumbered drawn).2 known
  obtain ⟨_, found, sign⟩ := reweighs.inside 0 (by decide) 0 (by decide)
  obtain ⟨_, found', next⟩ := reweighs.inside 0 (by decide) 1 (by decide)
  cases found
  cases found'
  exact ⟨drawn, known, mutant, _, ends, rfl, sign, next, reweighs.outside,
    by decide, by decide, restores _ _ drawn⟩

end Mutation

end NeuralGenome
