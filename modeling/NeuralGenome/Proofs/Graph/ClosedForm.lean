import Mathlib.Data.List.Basic
import Mathlib.Data.List.Induction
import NeuralGenome.Proofs.Binary64.Saturation
import NeuralGenome.Proofs.Graph.Compilation

/-!
# The graph of a program, read off its genes

The builder goes through a program gene by gene, with a graph that grows and a
cursor that wanders.  What comes out can be said without it, for each position
of the program on its own.  The number of neurons that exist there counts the
genes before it that create one, its operand names a neuron modulo that number,
and the cursor stands where the last gene before it that moves the cursor has
led.

`Program.closedForm` puts these together, and `Program.build_eq_closedForm` says
that it is what the builder builds.  One gene more, at the end, changes the
closed form as it changes the graph, and that is the step of the induction.
-/

namespace NeuralGenome

open ListPosition (Within)

namespace Gene

/--
The neuron that a gene names when so many neurons exist: the integer part of its
operand, held within the indexes and wrapped.
-/
def target (gene : Gene) (population : Nat) : Int :=
  gene.operand.clampedIndex % population

/-- The index that a compiler finds in an operand names the same neuron. -/
theorem target_eq (gene : Gene) (population : Nat) :
    gene.target population = gene.operand.toIndex % population := by
  rw [target, Binary64.toIndex_eq]

theorem target_within (gene : Gene) {population : Nat}
    (occupied : 0 < population) : Within population (gene.target population) :=
  ListPosition.within_emod _ occupied

/--
The neuron to which a gene moves the cursor when so many neurons exist: the one
that it creates, or the one that it names as a place to move to.
-/
def landing? (gene : Gene) (population : Nat) : Option Int :=
  if gene.opcode.creates then some population
  else if gene.opcode = .moveTo then some (gene.target population)
  else none

/--
The definition of the neuron that a gene creates; the operand is the parameter.
-/
def definition? (gene : Gene) : Option (Definition Number) :=
  (Kind.ofOpcode? gene.opcode).map fun kind => ⟨kind, .pattern gene.operand⟩

end Gene

/-- Graphs are the same if their neurons, inputs, cursors and outputs are. -/
theorem Graph.ext_output {left right : Graph}
    (neurons : left.neurons = right.neurons)
    (inputs : left.inputs = right.inputs) (cursor : left.cursor = right.cursor)
    (output : ∀ axis, left.output axis = right.output axis) : left = right := by
  have dx : left.dx = right.dx := output .dx
  have dy : left.dy = right.dy := output .dy
  cases left
  cases right
  cases neurons
  cases inputs
  cases cursor
  cases dx
  cases dy
  rfl

namespace Program

/-! ## What stands at a position -/

/-- How many neurons exist before the gene at a position. -/
def population (program : Program) (position : Nat) : Nat :=
  reservedNeurons + (program.take position).countP (·.opcode.creates)

/-- The neuron that the gene at a position names. -/
def target (program : Program) (position : Nat) : Int :=
  program[position]?.elim 0 (·.target (program.population position))

/-- The neuron to which the gene at a position moves the cursor. -/
def landing? (program : Program) (position : Nat) : Option Int :=
  program[position]?.bind (·.landing? (program.population position))

/-- The neuron under the cursor before the gene at a position. -/
def focus (program : Program) (position : Nat) : Int :=
  (((List.range position).filterMap program.landing?).getLast?).getD xNeuron

/-- The positions of the genes with an opcode, ascending. -/
def occurrences (program : Program) (opcode : Opcode) : List Nat :=
  (List.range program.length).filter fun position =>
    program.opcodes[position]? = some opcode

/--
The neurons that a neuron reads, in order: those named by the reads under the
cursor on it.
-/
def sources (program : Program) (neuron : Nat) : List Int :=
  ((program.occurrences .readFrom).filter fun position =>
    program.focus position = neuron).map program.target

/-- The neuron that answers for an axis: the one named last. -/
def outlet (program : Program) (output : Output) : Option Int :=
  (program.occurrences output.opcode).getLast?.map program.target

/-- The graph of a program, position by position. -/
def closedForm (program : Program) : Graph where
  neurons := [⟨.inputX, .pattern .zero⟩, ⟨.inputY, .pattern .zero⟩] ++
    program.filterMap Gene.definition?
  inputs := (List.range (program.population program.length)).map program.sources
  cursor := program.focus program.length
  dx := program.outlet .dx
  dy := program.outlet .dy

/-! ## One gene more -/

section Concat

variable (program : Program) (gene : Gene)

theorem population_concat_of_le {position : Nat}
    (before : position ≤ program.length) :
    population (program ++ [gene]) position = program.population position := by
  rw [population, List.take_append_of_le_length before, population]

theorem population_concat_length :
    population (program ++ [gene]) (program ++ [gene]).length =
      program.population program.length +
        if gene.opcode.creates then 1 else 0 := by
  rw [population, List.take_length, population, List.take_length,
    List.countP_append, List.countP_singleton, Nat.add_assoc]

theorem target_concat_of_lt {position : Nat}
    (before : position < program.length) :
    target (program ++ [gene]) position = program.target position := by
  rw [target, List.getElem?_append_left before,
    population_concat_of_le program gene (Nat.le_of_lt before), target]

theorem target_concat_length :
    target (program ++ [gene]) program.length =
      gene.target (program.population program.length) := by
  rw [target, List.getElem?_concat_length,
    population_concat_of_le program gene (Nat.le_refl _)]
  rfl

theorem landing?_concat_of_lt {position : Nat}
    (before : position < program.length) :
    landing? (program ++ [gene]) position = program.landing? position := by
  rw [landing?, List.getElem?_append_left before,
    population_concat_of_le program gene (Nat.le_of_lt before), landing?]

theorem landing?_concat_length :
    landing? (program ++ [gene]) program.length =
      gene.landing? (program.population program.length) := by
  rw [landing?, List.getElem?_concat_length,
    population_concat_of_le program gene (Nat.le_refl _)]
  rfl

theorem focus_concat_of_le {position : Nat}
    (before : position ≤ program.length) :
    focus (program ++ [gene]) position = program.focus position := by
  have same : (List.range position).filterMap (landing? (program ++ [gene])) =
      (List.range position).filterMap program.landing? :=
    List.filterMap_congr fun earlier member =>
      landing?_concat_of_lt program gene
        (Nat.lt_of_lt_of_le (List.mem_range.mp member) before)
  rw [focus, same, focus]

/--
The gene at the end moves the cursor, or leaves it where it stood before that
gene.
-/
theorem focus_concat_length :
    focus (program ++ [gene]) (program ++ [gene]).length =
      (gene.landing? (program.population program.length)).getD
        (program.focus program.length) := by
  have before := focus_concat_of_le program gene (Nat.le_refl program.length)
  rw [focus] at before
  rw [focus, List.length_append, List.length_singleton, List.range_succ,
    List.filterMap_append, List.getLast?_append, List.filterMap_cons,
    landing?_concat_length]
  cases gene.landing? (program.population program.length) with
  | some neuron => rfl
  | none => exact before

theorem occurrences_concat (opcode : Opcode) :
    occurrences (program ++ [gene]) opcode =
      program.occurrences opcode ++ if gene.opcode =
        opcode then [program.length] else [] := by
  have counted : program.opcodes.length = program.length := List.length_map _
  have earlier : ∀ position ∈ List.range program.length,
      (opcodes (program ++ [gene]))[position]? =
        program.opcodes[position]? := by
    intro position member
    rw [opcodes, List.map_append, List.getElem?_append_left]
    · rfl
    · rw [List.length_map]
      exact List.mem_range.mp member
  have last : (opcodes (program ++ [gene]))[program.length]? =
      some gene.opcode := by
    rw [opcodes, List.map_append, ← counted]
    exact List.getElem?_concat_length
  rw [occurrences, List.length_append, List.length_singleton, List.range_succ,
    List.filter_append, occurrences]
  congr 1
  · exact List.filter_congr fun position member =>
      by rw [earlier position member]
  · rw [List.filter_singleton, last]
    simp only [Option.some.injEq, cond_eq_ite, decide_eq_true_eq]

theorem lt_length_of_mem_occurrences {opcode : Opcode} {position : Nat}
    (occurs : position ∈ program.occurrences opcode) :
    position < program.length :=
  List.mem_range.mp (List.mem_filter.mp occurs).1

/-- A read at the end adds to what the neuron under the cursor reads. -/
theorem sources_concat (neuron : Nat) :
    sources (program ++ [gene]) neuron =
      program.sources neuron ++
        if gene.opcode = .readFrom ∧ program.focus program.length = neuron then
          [gene.target (program.population program.length)]
        else [] := by
  have kept : ((program.occurrences .readFrom).filter fun position =>
      focus (program ++ [gene]) position = neuron).map
        (target (program ++ [gene])) = program.sources neuron := by
    have foci := List.filter_congr (l := program.occurrences .readFrom)
      (p := fun position =>
        decide (focus (program ++ [gene]) position = neuron))
      (q := fun position => decide (program.focus position = neuron))
      fun position occurs => by
        rw [focus_concat_of_le program gene
          (Nat.le_of_lt (program.lt_length_of_mem_occurrences occurs))]
    rw [foci, sources]
    refine List.map_congr_left fun position member => ?_
    exact target_concat_of_lt program gene
      (program.lt_length_of_mem_occurrences (List.mem_filter.mp member).1)
  rw [sources, occurrences_concat, List.filter_append, List.map_append, kept]
  congr 1
  by_cases reads : gene.opcode = .readFrom
  · have here := focus_concat_of_le program gene (Nat.le_refl program.length)
    by_cases focused : program.focus program.length = neuron <;>
      simp [reads, here, focused, target_concat_length]
  · simp [reads]

/-- A designation at the end replaces the one before it. -/
theorem outlet_concat (output : Output) :
    outlet (program ++ [gene]) output =
      if gene.opcode = output.opcode then
        some (gene.target (program.population program.length))
      else program.outlet output := by
  rw [outlet, occurrences_concat]
  by_cases designates : gene.opcode = output.opcode
  · rw [if_pos designates, if_pos designates, List.getLast?_concat,
      Option.map_some, target_concat_length]
  · rw [if_neg designates, if_neg designates, List.append_nil, outlet]
    refine Option.map_congr fun position last => ?_
    exact target_concat_of_lt program gene
      (program.lt_length_of_mem_occurrences (List.mem_of_getLast? last))

end Concat

/-! ## Where the cursor can stand -/

theorem population_pos (program : Program) (position : Nat) :
    0 < program.population position :=
  Nat.lt_of_lt_of_le (by decide) (Nat.le_add_right reservedNeurons _)

/-- After a program the cursor stands on a neuron that exists. -/
theorem focus_within (program : Program) :
    Within (program.population program.length)
      (program.focus program.length) := by
  induction program using List.reverseRecOn with
  | nil => exact ⟨by decide, by decide⟩
  | append_singleton program gene ih =>
      rw [focus_concat_length, population_concat_length]
      unfold Gene.landing?
      split
      case isTrue =>
        exact ⟨Int.natCast_nonneg _, Int.ofNat_lt.mpr (Nat.lt_succ_self _)⟩
      case isFalse =>
        split
        case isTrue =>
          exact gene.target_within (population_pos program program.length)
        case isFalse => exact ih

/--
A neuron that does not exist yet has not been under the cursor and reads
nothing.
-/
theorem sources_eq_nil {program : Program} {neuron : Nat}
    (outside : program.population program.length ≤ neuron) :
    program.sources neuron = [] := by
  induction program using List.reverseRecOn with
  | nil => rfl
  | append_singleton program gene ih =>
      rw [population_concat_length] at outside
      have elsewhere : focus program program.length ≠ neuron := by
        have := (focus_within program).2
        omega
      rw [sources_concat, ih (by omega), if_neg fun both => elsewhere both.2]
      rfl

/-! ## The step and the run -/

section Step

variable (program : Program)

theorem isSome_definition? (gene : Gene) :
    gene.definition?.isSome = gene.opcode.creates := by
  rw [Gene.definition?, Option.isSome_map]
  cases gene.opcode <;> rfl

theorem count_closedForm :
    program.closedForm.count = program.population program.length := by
  rw [Graph.count, closedForm, List.length_append,
    List.length_filterMap_eq_countP, population, List.take_length]
  exact congrArg (_ + ·)
    (List.countP_congr fun gene _ => by rw [isSome_definition?])

/-- The closed form wraps an index around the neurons that exist at the end. -/
theorem wrap_closedForm (gene : Gene) :
    (program.closedForm.wrap gene.operand.toIndex : Int) =
      gene.target (program.population program.length) := by
  rw [Graph.wrap, count_closedForm, Gene.target_eq,
    ListPosition.natCast_wrap _ (program.population_pos program.length)]

theorem neurons_concat (gene : Gene) :
    (closedForm (program ++ [gene])).neurons =
      program.closedForm.neurons ++ gene.definition?.toList := by
  rw [closedForm, List.filterMap_append, ← List.append_assoc, closedForm,
    List.filterMap_cons]
  cases gene.definition? <;> rfl

/-- A gene that neither creates nor reads leaves the lists of inputs alone. -/
theorem inputs_concat_of_idle {gene : Gene} (idle : gene.opcode.creates = false)
    (silent : gene.opcode ≠ .readFrom) :
    (closedForm (program ++ [gene])).inputs = program.closedForm.inputs := by
  rw [closedForm, population_concat_length, idle, closedForm]
  refine List.map_congr_left fun neuron _ => ?_
  rw [sources_concat, if_neg fun both => silent both.1, List.append_nil]

/-- A neuron that is created reads nothing yet. -/
theorem inputs_concat_of_creates {gene : Gene}
    (creates : gene.opcode.creates = true) :
    (closedForm (program ++ [gene])).inputs =
      program.closedForm.inputs ++ [[]] := by
  have silent : gene.opcode ≠ .readFrom := by
    intro reads
    rw [reads] at creates
    cases creates
  have same (neuron : Nat) :
      sources (program ++ [gene]) neuron = program.sources neuron := by
    rw [sources_concat, if_neg fun both => silent both.1, List.append_nil]
  rw [closedForm, population_concat_length, if_pos creates, List.range_succ,
    List.map_append, List.map_singleton, same, sources_eq_nil (Nat.le_refl _),
    closedForm]
  exact congrArg (· ++ _) (List.map_congr_left fun neuron _ => same neuron)

/-- A read adds a link to the list of the neuron under the cursor. -/
theorem inputs_concat_of_reads {gene : Gene} (reads : gene.opcode = .readFrom) :
    (closedForm (program ++ [gene])).inputs =
      program.closedForm.inputs.modify (program.focus program.length).toNat
        (· ++ [gene.target (program.population program.length)]) := by
  have idle : gene.opcode.creates = false := by rw [reads]; rfl
  have counted := program.focus_within.1
  rw [closedForm, population_concat_length, idle, closedForm]
  refine List.ext_getElem? fun neuron => ?_
  rw [List.getElem?_modify, List.getElem?_map, List.getElem?_map,
    Option.map_eq_map, Option.map_map]
  refine Option.map_congr fun place found => ?_
  obtain ⟨-, rfl⟩ := List.getElem?_eq_some_iff.mp found
  rw [List.getElem_range, Function.comp_apply, sources_concat]
  by_cases focused : program.focus program.length = neuron
  · rw [if_pos ⟨reads, focused⟩, if_pos (by omega)]
  · rw [if_neg fun both => focused both.2, if_neg (by omega), List.append_nil]

theorem output_closedForm (output : Output) :
    program.closedForm.output output = program.outlet output := by
  cases output <;> rfl

theorem output_concat_of_ne {gene : Gene} {output : Output}
    (other : gene.opcode ≠ output.opcode) :
    (closedForm (program ++ [gene])).output output =
      program.closedForm.output output := by
  rw [output_closedForm, outlet_concat, if_neg other, output_closedForm]

/-- A gene at the end changes the closed form as it changes the graph. -/
theorem closedForm_concat (gene : Gene) :
    closedForm (program ++ [gene]) = program.closedForm.receive gene.call := by
  have neurons := program.neurons_concat gene
  have cursor := program.focus_concat_length gene
  have named := program.wrap_closedForm gene
  cases gene with
  | create neuron =>
      have creates : (Instruction.create neuron : Gene).opcode.creates =
          true := by
        cases neuron <;> rfl
      have definition : Gene.definition? (.create neuron) =
          some ((neuron.map id).definition .zero).numeric := by
        cases neuron <;> rfl
      rw [definition] at neurons
      rw [Gene.landing?, if_pos creates] at cursor
      refine Graph.ext_output neurons (inputs_concat_of_creates program creates)
        (cursor.trans (congrArg Int.ofNat program.count_closedForm.symm))
          fun output => ?_
      have other :
          (Instruction.create neuron : Gene).opcode ≠ output.opcode := by
        cases neuron <;> cases output <;> nofun
      rw [output_concat_of_ne program other]
      cases output <;> rfl
  | moveTo operand =>
      refine Graph.ext_output (neurons.trans (List.append_nil _))
        (inputs_concat_of_idle program rfl nofun) (cursor.trans named.symm)
          fun output => ?_
      rw [output_concat_of_ne program (by cases output <;> nofun)]
      cases output <;> rfl
  | readFrom operand =>
      have reads :
          (Instruction.readFrom operand : Gene).opcode = .readFrom := rfl
      have inputs := program.inputs_concat_of_reads reads
      rw [← named] at inputs
      refine Graph.ext_output (neurons.trans (List.append_nil _)) inputs cursor
        fun output => ?_
      rw [output_concat_of_ne program (by cases output <;> nofun)]
      cases output <;> rfl
  | assign designated operand =>
      have idle : (Instruction.assign designated operand :
          Gene).opcode.creates = false := by
        cases designated <;> rfl
      have silent : (Instruction.assign designated operand : Gene).opcode ≠
          .readFrom := by
        cases designated <;> nofun
      have opcode : (Instruction.assign designated operand : Gene).opcode =
          designated.opcode := by
        cases designated <;> rfl
      refine Graph.ext_output ?neurons ?inputs ?cursor fun output => ?output
      case neurons =>
        cases designated <;> exact neurons.trans (List.append_nil _)
      case inputs =>
        rw [inputs_concat_of_idle program idle silent]
        cases designated <;> rfl
      case cursor => cases designated <;> exact cursor
      case output =>
        by_cases same : designated = output
        · subst same
          rw [output_closedForm, outlet_concat, if_pos opcode, ← named]
          cases designated <;> rfl
        · rw [output_concat_of_ne program (by
            rw [opcode]
            cases designated <;> cases output <;>
              first | exact absurd rfl same | nofun)]
          cases designated <;> cases output <;>
            first | rfl | exact absurd rfl same

end Step

/-- The graph of a program is its closed form. -/
theorem compiled_eq_closedForm (program : Program) :
    program.compiled = program.closedForm := by
  induction program using List.reverseRecOn with
  | nil => rfl
  | append_singleton program gene ih =>
      rw [closedForm_concat, ← ih, compiled, calls, List.map_append,
        Graph.receiveAll, List.foldl_append]
      rfl

/-- How many neurons there are after a program. -/
theorem count_eq_population (program : Program) :
    program.compiled.count = program.population program.length := by
  rw [compiled_eq_closedForm, count_closedForm]

/--
Building a program never fails and ends with its closed form: the two inputs and
one neuron for each gene that creates one, in order; for each neuron what the
reads under the cursor on it name, in order; and for each axis what its last
designation names.  A name is the integer part of an operand, held within
thirty-two signed bits; it counts modulo the neurons that exist at its position,
and the cursor is where the last gene before that position has led it that
creates a neuron or moves to one.
-/
theorem build_eq_closedForm (program : Program) :
    program.build = (.ok (), program.closedForm) := by
  rw [build_eq, compiled_eq_closedForm]

/--
A read goes to the neuron that the cursor was moved back to, and minus two names
an input as long as there are three neurons.
-/
example :
    let program : Program :=
      [.create .sum, .readFrom .one, .moveTo .minusTwo, .readFrom .two,
      .create (.fixed .half), .assign .dx .minusTwo, .assign .dx .minusOne]
    program.closedForm.inputs = [[], [2], [1], []] ∧
      program.closedForm.dx = some 3 := by
  decide +kernel

end Program

end NeuralGenome
