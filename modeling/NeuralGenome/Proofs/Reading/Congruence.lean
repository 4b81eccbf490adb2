import Mathlib.Data.Int.ModEq
import NeuralGenome.Proofs.Binary64.ExactArithmetic
import NeuralGenome.Proofs.Genome.Codec
import NeuralGenome.Proofs.Graph.ClosedForm
import NeuralGenome.Proofs.Reading.ListingMirror
import NeuralGenome.Proofs.Reading.SketchMirror

/-!
# Programs that name the same neurons

An operand that names a neuron counts modulo the neurons that exist where it
stands.  Programs are *congruent* when they differ in such operands only, and in
each of them by a multiple of that number.  No reader can tell congruent
programs apart: each one wraps an index around its own count of neurons, and
that count is the number of creations before.

So there is a simplest program among congruent ones, in which every operand is
itself the number of a neuron that exists where it stands.
-/

namespace NeuralGenome

open ListPosition (Within)

theorem ListPosition.wrap_emod (size : Nat) (position : Int) :
    wrap size (position % size) = wrap size position := by
  rw [wrap, Int.emod_emod, wrap]

/-! ## Genes -/

namespace Gene

/-- Genes that are the same or, with one opcode, name congruent integers. -/
def Congruent (population : Nat) (gene other : Gene) : Prop :=
  gene.opcode = other.opcode ∧
    if gene.opcode.isIndexed then
      gene.operand.toIndex ≡ other.operand.toIndex [ZMOD population]
    else gene = other

instance (population : Nat) (gene other : Gene) :
    Decidable (gene.Congruent population other) :=
  inferInstanceAs (Decidable (_ ∧ _))

/-- The gene with the number of the neuron that it names as operand. -/
def reduced (population : Nat) (gene : Gene) : Gene :=
  gene.map (fun operand =>
    (Binary64.ofInt? (operand.toIndex % population)).getD .zero) id

end Gene

/-- A call that names a neuron by its number. -/
def Call.wrapped (population : Nat) (call : Call) : Call :=
  call.map (· % (population : Int)) id

theorem Neuron.map_id {Value : Type} (neuron : Neuron Value) :
    neuron.map id = neuron := by
  cases neuron <;> rfl

/-- Congruent genes name the same neuron. -/
theorem Gene.Congruent.wrapped_eq {population : Nat} {gene other : Gene}
    (congruent : gene.Congruent population other) :
    gene.call.wrapped population = other.call.wrapped population := by
  obtain ⟨opcode, same⟩ := congruent
  by_cases indexed : gene.opcode.isIndexed
  · rw [if_pos indexed] at same
    rw [← Instruction.ofOpcode_operand gene,
      ← Instruction.ofOpcode_operand other, ← opcode]
    cases kind : gene.opcode with
    | moveTo => exact congrArg Instruction.moveTo same
    | readFrom => exact congrArg Instruction.readFrom same
    | setDx => exact congrArg (Instruction.assign .dx) same
    | setDy => exact congrArg (Instruction.assign .dy) same
    | _ =>
        rw [kind] at indexed
        cases indexed
  · rw [if_neg indexed] at same
    rw [same]

/-! ## Readers -/

theorem Graph.receive_wrapped (graph : Graph) (call : Call) :
    graph.receive (call.wrapped graph.count) = graph.receive call := by
  have wraps (index : Int) :
      graph.wrap (index % graph.count) = graph.wrap index :=
    ListPosition.wrap_emod graph.count index
  cases call with
  | create neuron => rw [Call.wrapped, Instruction.map, neuron.map_id]
  | moveTo index =>
      exact congrArg (fun place : Nat => graph.place place) (wraps index)
  | readFrom index =>
      exact congrArg (fun place : Nat => graph.link graph.cursor.toNat place)
        (wraps index)
  | assign output index =>
      exact congrArg (fun place : Nat => graph.designate output place)
        (wraps index)

theorem Listing.receive_wrapped (listing : Listing) (call : Call) :
    listing.receive (call.wrapped listing.neurons.length).numeric =
      listing.receive call.numeric := by
  have wraps (index : Int) :
      listing.resolve (index % listing.neurons.length) =
        listing.resolve index :=
    ListPosition.wrap_emod listing.neurons.length index
  cases call with
  | create neuron => rw [Call.wrapped, Instruction.map, neuron.map_id]
  | moveTo index =>
      exact congrArg (fun reader => { listing.flush with reader := reader })
        (wraps index)
  | readFrom index =>
      exact congrArg
        (fun neuron => { listing with waiting := listing.waiting ++ [neuron] })
        (wraps index)
  | assign output index =>
      exact congrArg (fun neuron =>
        { listing.flush with
          lines := listing.flush.lines ++
            [Listing.Line.answer output neuron (listing.flush.name neuron)] })
        (wraps index)

theorem Sketch.receive_wrapped (sketch : Sketch) (call : Call) :
    sketch.receive (call.wrapped sketch.count) = sketch.receive call := by
  have wraps (index : Int) :
      sketch.resolve (index % sketch.count) = sketch.resolve index :=
    ListPosition.wrap_emod sketch.count index
  cases call with
  | create neuron => rw [Call.wrapped, Instruction.map, neuron.map_id]
  | moveTo index =>
      exact congrArg (fun cursor => { sketch with cursor := cursor })
        (wraps index)
  | readFrom index =>
      exact congrArg
        (fun neuron => { sketch with
          readings := sketch.readings ++ [(sketch.cursor, neuron)] })
        (wraps index)
  | assign output index =>
      cases output with
      | dx =>
          exact congrArg (fun neuron => { sketch with dx := some neuron })
            (wraps index)
      | dy =>
          exact congrArg (fun neuron => { sketch with dy := some neuron })
            (wraps index)

/-! ## Programs -/

namespace Program

/-- Programs of one length whose genes are congruent, position by position. -/
structure Congruent (program other : Program) : Prop where
  length : other.length = program.length
  gene : ∀ (position : Nat) (gene gene' : Gene),
    program[position]? = some gene →
    other[position]? = some gene' →
      gene.Congruent (program.population position) gene'

theorem population_take (program : Program) (position : Nat) :
    population (program.take position) (program.take position).length =
      program.population position := by
  rw [population, List.take_length, population]

/--
What a reader does with a call is not changed by naming the neuron by its
number.  If it has counted as many neurons as have been created, it ends alike
with congruent programs.
-/
theorem Congruent.foldl_eq {State : Type} {receive : State → Call → State}
    {start : State} (size : State → Nat)
    (sized : ∀ program : Program,
      size (program.calls.foldl receive start) =
        program.population program.length)
    (wraps : ∀ state call, receive state (call.wrapped (size state)) =
      receive state call)
    {program other : Program} (congruent : program.Congruent other) :
    program.calls.foldl receive start = other.calls.foldl receive start := by
  -- one gene more, at a time when both readers are in the same state
  have next {program : Program} {count : Nat} {gene : Gene}
    (found : program[count]? = some gene) :
      (calls (program.take (count + 1))).foldl receive start =
        receive ((calls (program.take count)).foldl receive start)
          gene.call := by
    rw [List.take_add_one, found, calls, List.map_append, List.foldl_append]
    rfl
  have prefixes (count : Nat) (inside : count ≤ program.length) :
      (calls (program.take count)).foldl receive start =
        (calls (other.take count)).foldl receive start := by
    induction count with
    | zero => rfl
    | succ count ih =>
        have found := List.getElem?_eq_getElem (Nat.lt_of_succ_le inside)
        have foundToo :=
          List.getElem?_eq_getElem (congruent.length ▸ Nat.lt_of_succ_le inside)
        have same := (congruent.gene count _ _ found foundToo).wrapped_eq
        rw [next found, next foundToo, ← ih (Nat.le_of_succ_le inside)]
        rw [← program.population_take count, ← sized] at same
        rw [← wraps, same, wraps]
  have whole := prefixes program.length (Nat.le_refl _)
  rwa [List.take_length, ← congruent.length, List.take_length] at whole

namespace Congruent

variable {program other : Program}

theorem compiled_eq (congruent : program.Congruent other) :
    program.compiled = other.compiled :=
  congruent.foldl_eq Graph.count count_eq_population Graph.receive_wrapped

theorem listing_eq (congruent : program.Congruent other) :
    program.listing = other.listing := by
  have received (program : Program) :
      Listing.initial.receiveAll (program.calls.map Call.numeric) =
        program.calls.foldl (fun listing call => listing.receive call.numeric)
          Listing.initial :=
    List.foldl_map
  have sized (program : Program) :
      (program.calls.foldl (fun listing call => listing.receive call.numeric)
        Listing.initial).neurons.length =
          program.population program.length := by
    rw [← received,
      (Listing.mirrors_initial.receiveAll Graph.sound_initial
        program.calls).neurons]
    exact program.count_eq_population
  rw [listing, listing, received, received,
    congruent.foldl_eq (fun listing : Listing => listing.neurons.length) sized
      Listing.receive_wrapped]

theorem description_eq (congruent : program.Congruent other) :
    program.description = other.description := by
  have sized (program : Program) :
      (program.calls.foldl Sketch.receive Sketch.initial).count =
        program.population program.length := by
    rw [← count_eq_population]
    exact (Sketch.mirrors_initial.receiveAll Graph.sound_initial
      program.calls).count
  exact congrArg Sketch.describe
    (congruent.foldl_eq Sketch.count sized Sketch.receive_wrapped)

end Congruent

end Program

/-! ## The simplest of congruent programs -/

namespace Gene

variable {population : Nat} {gene : Gene}

/-- The operand that names a neuron by its number stands for that number. -/
theorem denotes_reduced (indexed : gene.opcode.isIndexed)
    (occupied : 0 < population) (few : population ≤ 0x7fffffff) :
    (gene.reduced population).operand.Denotes (gene.target population) := by
  rw [target_eq]
  have within := ListPosition.within_emod gene.operand.toIndex occupied
  have short :
      (gene.operand.toIndex % population).natAbs < 0x20000000000000 := by
    have lower := within.1
    have upper := within.2
    omega
  obtain ⟨pattern, found, finite, quanta⟩ := Binary64.exists_ofInt? short
  have operand : (gene.reduced population).operand = pattern := by
    rw [← Option.getD_some (a := pattern) (b := Binary64.zero), ← found]
    cases gene with
    | create neuron => cases neuron <;> cases indexed
    | moveTo operand | readFrom operand | assign output operand => rfl
  rw [operand]
  exact ⟨finite, quanta⟩

theorem congruent_reduced (occupied : 0 < population)
    (few : population ≤ 0x7fffffff) :
    gene.Congruent population (gene.reduced population) := by
  refine ⟨(Instruction.opcode_map _ _ gene).symm, ?_⟩
  split
  case isTrue indexed =>
    have denotes := denotes_reduced indexed occupied few
    have within := gene.target_within occupied
    have index :
        (gene.reduced population).operand.toIndex = gene.target population := by
      refine Binary64.toIndex_of_quanta denotes.finite denotes.quanta ?_ ?_
      · exact Int.le_trans (by decide) within.1
      · exact Int.le_trans (Int.le_of_lt within.2) (Int.ofNat_le.mpr few)
    rw [index, target_eq]
    exact (Int.mod_modEq _ _).symm
  case isFalse valued =>
    cases gene with
    | create neuron => rw [reduced, Instruction.map, neuron.map_id]
    | moveTo operand | readFrom operand => exact absurd rfl valued
    | assign output operand => exact absurd (by cases output <;> rfl) valued

end Gene

namespace Program

/--
The program with each operand that names a neuron replaced by the number of that
neuron.
-/
def reduced (program : Program) : Program :=
  program.mapIdx fun position gene => gene.reduced (program.population position)

theorem getElem?_reduced (program : Program) (position : Nat) :
    program.reduced[position]? =
      program[position]?.map (·.reduced (program.population position)) := by
  rw [reduced, List.getElem?_mapIdx]

/--
A program that does not create too many neurons never has too many for an index.
-/
theorem population_le {program : Program}
    (few : program.opcodes.countP Opcode.creates < 0x7ffffffe)
    (position : Nat) : program.population position ≤ 0x7fffffff := by
  have earlier : (program.take position).countP (·.opcode.creates) ≤
      program.opcodes.countP Opcode.creates := by
    rw [opcodes, List.countP_map]
    exact (List.take_sublist position program).countP_le
  rw [population, reservedNeurons]
  omega

theorem opcodes_reduced (program : Program) :
    program.reduced.opcodes = program.opcodes := by
  refine List.ext_getElem? fun position => ?_
  rw [opcodes, opcodes, List.getElem?_map, List.getElem?_map, getElem?_reduced,
    Option.map_map]
  exact Option.map_congr fun gene _ => Instruction.opcode_map _ _ gene

theorem congruent_reduced {program : Program}
    (few : program.opcodes.countP Opcode.creates < 0x7ffffffe) :
    program.Congruent program.reduced where
  length := List.length_mapIdx
  gene := by
    intro position gene gene' found foundToo
    rw [getElem?_reduced, found] at foundToo
    cases foundToo
    exact Gene.congruent_reduced (program.population_pos position)
      (population_le few position)

/--
Readers cannot tell congruent programs apart: they have the same graph, the same
network or the same missing outputs, the same listing and the same description.
If a program does not create too many neurons for an operand to number them all,
it is congruent to one with the same opcodes in which every operand that names a
neuron stands for an integer that counts the neuron from the start, without
going around.
-/
theorem congruent_programs_alike (program : Program) :
    (∀ other : Program, program.Congruent other →
      program.build = other.build ∧ program.network = other.network ∧
        program.listing = other.listing ∧
          program.description = other.description) ∧
      (program.opcodes.countP Opcode.creates < 0x7ffffffe →
        ∃ other : Program, program.Congruent other ∧
          other.opcodes = program.opcodes ∧
          ∀ (position : Nat) (gene : Gene), other[position]? = some gene →
            gene.opcode.isIndexed →
              ∃ index, Within (program.population position) index ∧
                gene.operand.Denotes index) := by
  constructor
  · intro other congruent
    have same := congruent.compiled_eq
    exact ⟨by rw [build_eq, build_eq, same],
      by rw [network_eq, network_eq,
        same], congruent.listing_eq, congruent.description_eq⟩
  · intro few
    refine ⟨program.reduced, congruent_reduced few, program.opcodes_reduced, ?_⟩
    intro position gene found indexed
    rw [getElem?_reduced] at found
    obtain ⟨before, foundBefore, rfl⟩ := Option.map_eq_some_iff.mp found
    rw [Gene.reduced, Instruction.opcode_map] at indexed
    have occupied := program.population_pos position
    exact ⟨before.target (program.population position),
      before.target_within occupied,
      Gene.denotes_reduced indexed occupied (population_le few position)⟩

/--
A program whose operands are no number, infinite, negative and no whole number.
-/
def crooked : Program :=
  [.create .sum, .readFrom .nan, .moveTo (.infinity false), .readFrom .minusTwo,
    .assign .dx .minusOne, .assign .dy .half]

/-- The same wiring with the numbers of the neurons. -/
def straight : Program :=
  [.create .sum, .readFrom .zero, .moveTo .one, .readFrom .one,
    .assign .dx .two, .assign .dy .negativeZero]

theorem congruent_crooked : crooked.Congruent straight where
  length := rfl
  gene := by
    rintro (_ | _ | _ | _ | _ | _ | position) gene gene' found foundToo <;>
      cases found <;> cases foundToo <;> decide +kernel

theorem congruent_programs_alike_crooked :
    crooked.Congruent straight ∧ crooked.opcodes.countP Opcode.creates <
      0x7ffffffe ∧
      (crooked.build = straight.build ∧ crooked.network = straight.network ∧
        crooked.listing = straight.listing ∧
          crooked.description = straight.description) ∧
      ∃ other : Program, crooked.Congruent other ∧
        other.opcodes = crooked.opcodes ∧
        ∀ (position : Nat) (gene : Gene), other[position]? = some gene →
          gene.opcode.isIndexed →
            ∃ index, Within (crooked.population position) index ∧
              gene.operand.Denotes index :=
  have few : crooked.opcodes.countP Opcode.creates < 0x7ffffffe := by decide
  have ⟨alike, simplest⟩ := congruent_programs_alike crooked
  ⟨congruent_crooked, few, alike straight congruent_crooked, simplest few⟩

end Program

end NeuralGenome
