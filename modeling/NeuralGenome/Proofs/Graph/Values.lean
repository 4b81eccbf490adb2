import Mathlib.Data.List.Forall2
import NeuralGenome.Proofs.Graph.Compilation

/-!
# Programs that differ in values

The values of a program are the signals of its fixed neurons and the weights of
its weighted sums.  They become parameters and are never looked at while a graph
is built, so programs that differ in values only have graphs, and then networks,
that differ in parameters only.  The opcodes alone decide the kinds.

Two definitions are *alike* when they agree on the kind and, unless the kind is
among those that are *loose*, on the parameter.  From there the relation is
carried over to calls, to graphs and to networks, which otherwise agree: on the
links, the cursor and the outputs.
-/

namespace NeuralGenome

variable {loose : Kind → Prop}

/-! ## What is alike -/

/--
Definitions of one kind, whose parameters may differ if the kind is loose.
-/
structure Definition.Alike {Value : Type} (loose : Kind → Prop)
    (left right : Definition Value) : Prop where
  kind : left.kind = right.kind
  parameter : ¬loose left.kind → left.parameter = right.parameter

theorem Definition.Alike.refl {Value : Type} (definition : Definition Value) :
    Alike loose definition definition :=
  ⟨rfl, fun _ => rfl⟩

/-- Calls that ask for the same, but for the parameters of loose kinds. -/
inductive Call.Alike (loose : Kind → Prop) : Call → Call → Prop where
  | create {neuron other : Neuron Binary64}
      (definition : (neuron.definition .zero).Alike loose
        (other.definition .zero)) :
      Alike loose (.create neuron) (.create other)
  | same (call : Call) : Alike loose call call

structure Graph.Alike (loose : Kind → Prop) (left right : Graph) : Prop where
  neurons : List.Forall₂ (Definition.Alike loose) left.neurons right.neurons
  inputs : left.inputs = right.inputs
  cursor : left.cursor = right.cursor
  dx : left.dx = right.dx
  dy : left.dy = right.dy

structure LinkedNeuron.Alike (loose : Kind → Prop) (left right : LinkedNeuron) :
    Prop where
  definition : left.definition.Alike loose right.definition
  links : left.links = right.links

/--
Networks with the same kinds, links and outputs, and parameters that differ at
most at neurons of loose kinds.
-/
structure Network.Alike (loose : Kind → Prop) (left right : Network) :
    Prop where
  neurons : List.Forall₂ (LinkedNeuron.Alike loose) left.neurons right.neurons
  output : ∀ axis, left.output axis = right.output axis

/-! ## Graphs -/

namespace Graph.Alike

variable {left right : Graph}

theorem refl (graph : Graph) : graph.Alike loose graph where
  neurons := List.forall₂_same.mpr fun definition _ => .refl definition
  inputs := rfl
  cursor := rfl
  dx := rfl
  dy := rfl

theorem count_eq (alike : left.Alike loose right) : left.count = right.count :=
  alike.neurons.length_eq

theorem output_eq (alike : left.Alike loose right) (axis : Output) :
    left.output axis = right.output axis := by
  cases axis with
  | dx => exact alike.dx
  | dy => exact alike.dy

/-- Alike graphs that receive alike calls stay alike. -/
theorem receive (alike : left.Alike loose right) {call other : Call}
    (asked : call.Alike loose other) :
    (left.receive call).Alike loose (right.receive other) := by
  -- as many neurons have been created, so an index names the same one
  have wraps (index : Int) : left.wrap index = right.wrap index := by
    rw [wrap, wrap, alike.count_eq]
  have create {neuron other : Neuron Binary64}
      (definition : (neuron.definition .zero).Alike loose
        (other.definition .zero)) :
      (left.receive (.create neuron)).Alike loose
        (right.receive (.create other)) := by
    refine ⟨?_, ?_, ?_, alike.dx, alike.dy⟩
    · refine List.rel_append alike.neurons (.cons ⟨definition.kind, ?_⟩ .nil)
      intro firm
      exact congrArg Number.pattern (definition.parameter firm)
    · exact congrArg (· ++ [[]]) alike.inputs
    · exact congrArg Int.ofNat alike.count_eq
  cases asked with
  | create definition => exact create definition
  | same =>
      cases call with
      | create neuron => exact create (.refl _)
      | moveTo index =>
          exact ⟨alike.neurons, alike.inputs, congrArg Int.ofNat (wraps index),
            alike.dx, alike.dy⟩
      | readFrom index =>
          refine ⟨alike.neurons, ?_, alike.cursor, alike.dx, alike.dy⟩
          rw [Graph.receive, Graph.receive, link, link, alike.inputs,
            alike.cursor, wraps index]
      | assign axis index =>
          have found :=
            congrArg (fun place => some (Int.ofNat place)) (wraps index)
          cases axis with
          | dx =>
              exact ⟨alike.neurons, alike.inputs, alike.cursor, found, alike.dy⟩
          | dy =>
              exact ⟨alike.neurons, alike.inputs, alike.cursor, alike.dx, found⟩

theorem receiveAll (alike : left.Alike loose right) {calls others : List Call}
    (asked : List.Forall₂ (Call.Alike loose) calls others) :
    (left.receiveAll calls).Alike loose (right.receiveAll others) := by
  induction asked generalizing left right with
  | nil => exact alike
  | cons first _ ih => exact ih (alike.receive first)

end Graph.Alike

/-- Alike graphs become alike networks. -/
theorem Graph.Alike.network {left right : Graph}
    (alike : left.Alike loose right)
    (sound : left.Sound) (soundToo : right.Sound) {first second : Network}
    (made : left.network = .ok first) (madeToo : right.network = .ok second) :
    first.Alike loose second := by
  obtain ⟨neurons, links, outputs⟩ := sound.shape_of_network made
  obtain ⟨neurons', links', outputs'⟩ := soundToo.shape_of_network madeToo
  constructor
  · have definitions := alike.neurons
    rw [← neurons, ← neurons', List.forall₂_map_left_iff,
      List.forall₂_map_right_iff] at definitions
    have joined : List.Forall₂ (fun neuron other => neuron.links = other.links)
        first.neurons second.neurons := by
      rw [← List.forall₂_map_right_iff (f := LinkedNeuron.links),
        ← List.forall₂_map_left_iff (f := LinkedNeuron.links),
        List.forall₂_eq_eq_eq, links, links']
      exact alike.inputs
    refine List.Forall₂.mp ?_ definitions joined
    intro neuron other definition links
    refine ⟨⟨definition.kind, ?_⟩, links⟩
    intro firm
    exact Number.pattern.inj (definition.parameter firm)
  · intro axis
    have same := alike.output_eq axis
    rw [outputs, outputs'] at same
    exact Option.some.inj same

/-! ## Programs -/

theorem Program.alike_compiled {program other : Program}
    (genes : List.Forall₂ (fun left right => left.call.Alike loose right.call)
      program other) :
    program.compiled.Alike loose other.compiled := by
  refine (Graph.Alike.refl Graph.initial).receiveAll ?_
  rw [Program.calls, Program.calls, List.forall₂_map_left_iff,
    List.forall₂_map_right_iff]
  exact genes

/-- Kinds whose parameters are values of a program. -/
def Kind.IsValued (kind : Kind) : Prop :=
  kind = .fixed ∨ kind = .weightedSum

/-- A gene without its value: the instruction and the integer that it names. -/
def Gene.outline (gene : Gene) : Instruction Int Unit :=
  gene.call.map id fun _ => ()

theorem Gene.exists_weight {gene : Gene}
    (weighted : gene.opcode = .createWeightedSum) :
    ∃ weight, gene = .create (.weightedSum weight) := by
  cases gene with
  | create neuron =>
      cases neuron <;> first | exact ⟨_, rfl⟩ | cases weighted
  | moveTo index | readFrom index => cases weighted
  | assign axis index => cases axis <;> cases weighted

/-- Genes with the same outline differ at most in values. -/
theorem Gene.alike_of_outline {gene other : Gene}
    (same : gene.outline = other.outline) :
    gene.call.Alike Kind.IsValued other.call := by
  have calls (left right : Call)
      (outlines : left.map id (fun _ => ()) = right.map id fun _ => ()) :
      left.Alike Kind.IsValued right := by
    cases left with
    | create neuron =>
        cases right with
        | create other =>
            refine .create ⟨?_, ?_⟩
            · cases neuron <;> cases other <;> first | rfl | cases outlines
            · intro firm
              cases neuron <;> cases other <;>
                first
                | rfl
                | exact absurd (.inl rfl) firm
                | exact absurd (.inr rfl) firm
                | cases outlines
        | moveTo index | readFrom index | assign axis index => cases outlines
    | moveTo index | readFrom index | assign axis index =>
        cases right <;> cases outlines
        exact .same _
  exact calls gene.call other.call same

/-! ## Kinds -/

/-- The kinds of the neurons of a network. -/
def Network.kinds (network : Network) : List Kind :=
  network.neurons.map (·.definition.kind)

/-- The kinds of the inputs and of the neurons that a program creates. -/
def Program.kinds (program : Program) : List Kind :=
  [.inputX, .inputY] ++ program.opcodes.filterMap Kind.ofOpcode?

theorem Graph.map_kind_receive (graph : Graph) (call : Call) :
    (graph.receive call).neurons.map Definition.kind =
      graph.neurons.map Definition.kind ++
        (Kind.ofOpcode? call.opcode).toList := by
  cases call with
  | create neuron =>
      rw [receive, append, List.map_append]
      cases neuron <;> rfl
  | moveTo index => exact (List.append_nil _).symm
  | readFrom index => exact (List.append_nil _).symm
  | assign axis index => cases axis <;> exact (List.append_nil _).symm

theorem Graph.map_kind_receiveAll (graph : Graph) (calls : List Call) :
    (graph.receiveAll calls).neurons.map Definition.kind =
      graph.neurons.map Definition.kind ++
        calls.filterMap fun call => Kind.ofOpcode? call.opcode := by
  induction calls generalizing graph with
  | nil => exact (List.append_nil _).symm
  | cons call rest ih =>
      rw [receiveAll, List.foldl_cons, ← receiveAll, ih, map_kind_receive,
        List.append_assoc, List.filterMap_cons]
      cases Kind.ofOpcode? call.opcode <;> rfl

/-- The kinds in the graph of a program are those that its opcodes create. -/
theorem Program.map_kind_compiled (program : Program) :
    program.compiled.neurons.map Definition.kind = program.kinds := by
  rw [compiled, Graph.map_kind_receiveAll, kinds, opcodes, calls,
    List.filterMap_map, List.filterMap_map]
  congr 2
  funext gene
  rw [Function.comp_apply, Function.comp_apply, Gene.call,
    Instruction.opcode_map]

/-- The network of a program has the kinds that its opcodes create. -/
theorem Program.kinds_of_network {program : Program} {network : Network}
    (made : program.compiled.network = .ok network) :
    network.kinds = program.kinds := by
  obtain ⟨neurons, -, -⟩ := program.sound_compiled.shape_of_network made
  rw [← program.map_kind_compiled, ← neurons, List.map_map]
  rfl

end NeuralGenome
