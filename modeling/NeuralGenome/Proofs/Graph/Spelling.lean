import NeuralGenome.Network.Firing
import NeuralGenome.Proofs.Graph.Compilation

/-!
# Graphs that spell networks

A graph spells the neurons of a network when it has their definitions and their
links, in order.  To create a neuron and let it read earlier ones spells one
neuron more: none of the indexes is wrapped.  A sound graph becomes the network
that it spells.
-/

namespace NeuralGenome

/-- Neurons are the same if their definitions and links are. -/
theorem LinkedNeuron.eq_of_maps {left right : List LinkedNeuron}
    (definitions : left.map (·.definition.numeric) =
      right.map (·.definition.numeric))
    (links : left.map LinkedNeuron.links = right.map LinkedNeuron.links) :
    left = right := by
  induction left generalizing right with
  | nil => exact (List.map_eq_nil_iff.mp links.symm).symm
  | cons neuron rest ih =>
      cases right with
      | nil => cases links
      | cons other others =>
          obtain ⟨first, definitions⟩ := List.cons.inj definitions
          obtain ⟨second, links⟩ := List.cons.inj links
          rw [ih definitions links]
          rcases neuron with ⟨⟨kind, parameter⟩, inputs⟩
          rcases other with ⟨⟨kind', parameter'⟩, inputs'⟩
          simp only [Definition.numeric, Definition.mk.injEq,
            Number.pattern.injEq] at first
          obtain ⟨rfl, rfl⟩ := first
          cases second
          rfl

/-- A neuron that is to be created, and the neurons that it is to read. -/
structure Entry where
  neuron : Neuron Binary64
  parents : List Nat

namespace Entry

/-- The calls that create the neuron and let it read. -/
def calls (entry : Entry) : List Call :=
  .create entry.neuron :: entry.parents.map fun parent : Nat => .readFrom parent

/-- The neuron of a network that comes out. -/
def linked (entry : Entry) : LinkedNeuron :=
  ⟨entry.neuron.definition .zero, entry.parents.map Int.ofNat⟩

end Entry

namespace Graph

/-- A graph with the definitions and links of given neurons. -/
structure Spells (graph : Graph) (linked : List LinkedNeuron)
    (output : Output → Option Int) : Prop where
  neurons : graph.neurons = linked.map (·.definition.numeric)
  inputs : graph.inputs = linked.map LinkedNeuron.links
  output : ∀ axis, graph.output axis = output axis

theorem spells_initial :
    initial.Spells [⟨⟨.inputX, .zero⟩, []⟩, ⟨⟨.inputY, .zero⟩, []⟩] fun _ =>
      none where
  neurons := rfl
  inputs := rfl
  output := fun axis => by cases axis <;> rfl

/-- A handle of a neuron that exists is not wrapped. -/
theorem wrap_natCast {graph : Graph} {handle : Nat}
    (inside : handle < graph.count) : graph.wrap handle = handle := by
  rw [wrap, ListPosition.wrap, ← Int.natCast_emod, Int.toNat_natCast,
    Nat.mod_eq_of_lt inside]

theorem receiveAll_append (graph : Graph) (first second : List Call) :
    graph.receiveAll (first ++ second) =
      (graph.receiveAll first).receiveAll second :=
  List.foldl_append

/--
Reads of neurons that exist extend the list under the cursor by their handles.
-/
theorem receiveAll_reads {graph : Graph} {parents : List Nat}
    (inside : ∀ parent ∈ parents, parent < graph.count) :
    graph.receiveAll (parents.map fun parent : Nat => .readFrom parent) =
      { graph with
        inputs := graph.inputs.modify graph.cursor.toNat
          (· ++ parents.map Int.ofNat) } := by
  induction parents generalizing graph with
  | nil =>
      have unchanged : (fun links : List Int => links ++ [].map Int.ofNat) =
          id := by
        funext links
        exact List.append_nil links
      rw [unchanged, List.modify_id]
      rfl
  | cons parent rest ih =>
      have first : graph.wrap parent = parent :=
        wrap_natCast (inside parent List.mem_cons_self)
      have others : ∀ other ∈ rest,
          other < (graph.link graph.cursor.toNat parent).count :=
        fun other member => inside other (List.mem_cons_of_mem _ member)
      show (graph.link graph.cursor.toNat (graph.wrap parent)).receiveAll _ = _
      rw [first, ih others, link, List.modify_modify_eq]
      have joined : ((fun links : List Int => links ++ rest.map Int.ofNat) ∘
          fun links => links ++ [(parent : Int)]) =
            fun links => links ++ (parent :: rest).map Int.ofNat := by
        funext links
        exact List.append_assoc links [_] _
      rw [joined]

theorem modify_concat {Element : Type} (list : List Element) (last : Element)
    (change : Element → Element) :
    (list ++ [last]).modify list.length change = list ++ [change last] := by
  induction list with
  | nil => rfl
  | cons first rest ih => exact congrArg (first :: ·) ih

namespace Spells

variable {graph : Graph} {neurons : List LinkedNeuron}
  {output : Output → Option Int}

theorem count (spells : graph.Spells neurons output) :
    graph.count = neurons.length := by
  rw [Graph.count, spells.neurons, List.length_map]

/-- A neuron that is created and reads earlier ones is one neuron more. -/
theorem create (spells : graph.Spells neurons output) (entry : Entry)
    (earlier : ∀ parent ∈ entry.parents, parent < neurons.length) :
    (graph.receiveAll entry.calls).Spells (neurons ++ [entry.linked])
      output := by
  have inside : ∀ parent ∈ entry.parents,
      parent < (graph.append (entry.neuron.definition .zero)).count := by
    intro parent member
    rw [count_append, spells.count]
    exact Nat.lt_succ_of_lt (earlier parent member)
  have wired : graph.receiveAll entry.calls =
      { graph.append (entry.neuron.definition .zero) with
        inputs := (graph.inputs ++ [[]]).modify graph.inputs.length
          (· ++ entry.parents.map Int.ofNat) } := by
    have tabled : graph.inputs.length = graph.count := by
      rw [spells.count, spells.inputs, List.length_map]
    rw [tabled]
    exact receiveAll_reads inside
  rw [wired, modify_concat]
  constructor
  case neurons =>
    show graph.neurons ++ [(entry.neuron.definition .zero).numeric] = _
    rw [spells.neurons, List.map_append]
    rfl
  case inputs =>
    show graph.inputs ++ [[] ++ _] = _
    rw [spells.inputs, List.map_append]
    rfl
  case output =>
    intro axis
    cases axis
    · exact spells.output .dx
    · exact spells.output .dy

/-- Entries of which each reads earlier neurons only add their neurons. -/
theorem createAll (spells : graph.Spells neurons output) {entries : List Entry}
    (earlier : ∀ (place : Nat) (entry : Entry), entries[place]? = some entry →
      ∀ parent ∈ entry.parents, parent < neurons.length + place) :
    (graph.receiveAll (entries.flatMap Entry.calls)).Spells
      (neurons ++ entries.map Entry.linked) output := by
  induction entries generalizing graph neurons with
  | nil =>
      rw [List.map_nil, List.append_nil]
      exact spells
  | cons entry rest ih =>
      have first := spells.create entry (earlier 0 entry rfl)
      have later := ih first fun place other found parent member => by
        have before := earlier (place + 1) other found parent member
        rw [List.length_append, List.length_singleton]
        omega
      rw [List.append_assoc] at later
      rw [List.flatMap_cons, receiveAll_append]
      exact later

/--
The neuron that is designated answers for its axis, and the other axis keeps its
own.
-/
theorem assign (spells : graph.Spells neurons output) {neuron : Nat}
    (inside : neuron < neurons.length) (designated : Output) :
    (graph.receive (.assign designated neuron)).Spells neurons
      fun axis => if axis = designated then some neuron else output axis := by
  have found : graph.wrap neuron = neuron :=
    wrap_natCast (spells.count.symm ▸ inside)
  rw [receive, found]
  constructor
  case neurons => cases designated <;> exact spells.neurons
  case inputs => cases designated <;> exact spells.inputs
  case output =>
    intro axis
    cases designated <;> cases axis
    case dx.dx => rfl
    case dx.dy => exact spells.output .dy
    case dy.dx => exact spells.output .dx
    case dy.dy => rfl

/-- A sound graph becomes the network that it spells. -/
theorem network_eq {network : Network} (sound : graph.Sound)
    (spells : graph.Spells network.neurons fun axis =>
      some (network.output axis)) :
    graph.network = .ok network := by
  have designated : graph.missing = [] := by
    rw [missing_eq_nil_iff]
    intro axis
    rw [spells.output]
    rfl
  obtain ⟨made, found, definitions, links, outputs⟩ :=
    sound.exists_network designated
  rw [found]
  rcases made with ⟨neurons, dx, dy⟩
  rcases network with ⟨neurons', dx', dy'⟩
  obtain rfl : neurons = neurons' :=
    LinkedNeuron.eq_of_maps (definitions.trans spells.neurons)
      (links.trans spells.inputs)
  have dxSame := (outputs .dx).symm.trans (spells.output .dx)
  have dySame := (outputs .dy).symm.trans (spells.output .dy)
  cases dxSame
  cases dySame
  rfl

end Spells

end Graph

end NeuralGenome
