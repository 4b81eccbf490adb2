import NeuralGenome.Proofs.Binary64.Nearest
import NeuralGenome.Proofs.Graph.Edit

/-!
# Refusals of the graph builder

A builder can be set on a graph in any condition: without neurons, with another
number of lists of inputs, with a cursor or an output that names nothing.  What
a builder does about them is settled here for all graphs.  A creation looks at
its value only; a read finds the list under the cursor before its address is
resolved; no other request can fail where there is a neuron.  Whatever is
refused leaves the graph as it was, and whatever is done changes only the fields
that belong to it.
-/

namespace NeuralGenome

open ListPosition (Spans fromStart absence)

/-! ## Values without a pattern -/

/-- A number that lies beyond the finite patterns. -/
def Number.IsTooLarge : Number → Prop
  | .integer value => Binary64.overflow ≤ value.natAbs
  | .pattern _ => False

instance (number : Number) : Decidable number.IsTooLarge :=
  match number with
  | .integer _ => inferInstanceAs (Decidable (_ ≤ _))
  | .pattern _ => inferInstanceAs (Decidable False)

/-- A neuron whose value lies beyond the finite patterns. -/
def Neuron.IsTooLarge : Neuron Number → Prop
  | .fixed value | .weightedSum value => value.IsTooLarge
  | .random | .sum | .minimum | .maximum => False

instance (neuron : Neuron Number) : Decidable neuron.IsTooLarge :=
  match neuron with
  | .fixed value | .weightedSum value =>
      inferInstanceAs (Decidable value.IsTooLarge)
  | .random | .sum | .minimum | .maximum => inferInstanceAs (Decidable False)

theorem Number.toBinary64_of_isTooLarge {number : Number}
    (large : number.IsTooLarge) :
    number.toBinary64 = .error .integerTooLarge := by
  cases number with
  | integer value =>
      exact toBinary64_of_none ((Binary64.ofInt?_eq_none_iff value).mpr large)
  | pattern value => exact large.elim

theorem Number.exists_toBinary64_of_not_isTooLarge {number : Number}
    (near : ¬ number.IsTooLarge) : ∃ value, number.toBinary64 = .ok value := by
  cases number with
  | integer value =>
      obtain ⟨pattern, found⟩ := Option.ne_none_iff_exists'.mp
        (mt (Binary64.ofInt?_eq_none_iff value).mp near)
      exact ⟨pattern, toBinary64_of_some found⟩
  | pattern value => exact ⟨value, rfl⟩

theorem Neuron.convert_of_isTooLarge {neuron : Neuron Number}
    (large : neuron.IsTooLarge) :
    neuron.convert Number.toBinary64 = .error .integerTooLarge := by
  cases neuron with
  | fixed value | weightedSum value =>
      rw [convert, Number.toBinary64_of_isTooLarge large]
      rfl
  | random | sum | minimum | maximum => exact large.elim

theorem Neuron.exists_convert {neuron : Neuron Number}
    (near : ¬ neuron.IsTooLarge) :
    ∃ converted, neuron.convert Number.toBinary64 = .ok converted := by
  cases neuron with
  | fixed value | weightedSum value =>
      obtain ⟨pattern, converts⟩ :=
        Number.exists_toBinary64_of_not_isTooLarge near
      rw [convert, converts]
      exact ⟨_, rfl⟩
  | random | sum | minimum | maximum => exact ⟨_, rfl⟩

/-! ## Addresses -/

namespace Address

variable {graph : Graph}

theorem wrapIndex_of_isEmpty (index : Int) (empty : graph.neurons = []) :
    wrapIndex index graph.count = .error .emptyGraph := by
  rw [Graph.count, empty]
  rfl

/-- Where there are no neurons, no address names one. -/
theorem resolve_of_isEmpty (address : Address) (empty : graph.neurons = []) :
    address.resolve graph = .error .emptyGraph := by
  have nowhere (index : Int) := wrapIndex_of_isEmpty index empty
  cases address <;> simp only [resolve, value, nowhere] <;>
    first | exact nowhere _ | rfl

theorem resolve_of_ne_nil (address : Address) (occupied : graph.neurons ≠ []) :
    ∃ value, address.value graph = .ok value ∧
      address.resolve graph = .ok (value % graph.count) := by
  have positive : 0 < graph.count := List.length_pos_iff.mpr occupied
  obtain ⟨value, denotes⟩ := address.exists_value positive
  exact ⟨value, denotes, resolve_of_value denotes positive⟩

end Address

namespace Graph

/-! ## What is asked of a builder -/

/-- What a builder can be told to do. -/
inductive Command where
  | request (request : Request)
  /-- Give the network of the graph. -/
  | build

/-- Obey a command; only building has a result. -/
def obey : Command → Procedure Graph (Option Network)
  | .request request => do
      perform request
      return none
  | .build => do
      let graph ← get
      return some (← Procedure.ofExcept graph.network)

/-- Why a request is refused, if it is. -/
def refusal? (graph : Graph) : Request → Option Fault
  | .create neuron => if neuron.IsTooLarge then some .integerTooLarge else none
  | .moveTo _ | .assign _ _ =>
      if graph.neurons = [] then some .emptyGraph else none
  | .readFrom _ =>
      if ¬ Spans graph.inputs.length graph.cursor then
        some (absence graph.cursor)
      else if graph.neurons = [] then some .emptyGraph
      else none

/--
What a command that succeeds makes of a graph: the fields that it changes, and
how.
-/
inductive Changes (graph : Graph) : Command → Graph → Prop where
  | create {neuron : Neuron Number} {converted : Neuron Binary64}
      (converts : neuron.convert Number.toBinary64 = .ok converted) :
      Changes graph (.request (.create neuron))
        { graph with
          neurons := graph.neurons ++ [(converted.definition .zero).numeric]
          inputs := graph.inputs ++ [[]]
          cursor := graph.count }
  | moveTo {address : Address} {value : Int}
      (denotes : address.value graph = .ok value) :
      Changes graph (.request (.moveTo address))
        { graph with cursor := value % graph.count }
  /--
  The list under the cursor, which may count from the end, gets one more
  element.
  -/
  | readFrom {address : Address} {value : Int} {before after : List (List Int)}
      {reads : List Int} (denotes : address.value graph = .ok value)
      (split : graph.inputs = before ++ reads :: after)
      (place : (before.length : Int) =
        fromStart graph.inputs.length graph.cursor) :
      Changes graph (.request (.readFrom address))
        { graph with
          inputs := before ++ (reads ++ [value % graph.count]) :: after }
  | assignDx {address : Address} {value : Int}
      (denotes : address.value graph = .ok value) :
      Changes graph (.request (.assign .dx address))
        { graph with dx := some (value % graph.count) }
  | assignDy {address : Address} {value : Int}
      (denotes : address.value graph = .ok value) :
      Changes graph (.request (.assign .dy address))
        { graph with dy := some (value % graph.count) }
  | build : Changes graph .build graph

/-- What is not refused for a reason is not in that condition. -/
theorem not_of_ite_eq_none {condition : Prop} [Decidable condition]
    {fault : Fault}
    (accepted : (if condition then some fault else none) = none) :
    ¬ condition := by
  intro holds
  rw [if_pos holds] at accepted
  cases accepted

variable {graph : Graph} {request : Request}

theorem edit_of_refusal? {fault : Fault}
    (refused : graph.refusal? request = some fault) :
    graph.edit request = .error fault := by
  unfold refusal? at refused
  cases request with
  | create neuron =>
      obtain ⟨large, ⟨⟩⟩ := Option.ite_none_right_eq_some.mp refused
      rw [edit, Neuron.convert_of_isTooLarge large]
      rfl
  | moveTo address | assign output address =>
      obtain ⟨empty, ⟨⟩⟩ := Option.ite_none_right_eq_some.mp refused
      rw [edit, address.resolve_of_isEmpty empty]
      rfl
  | readFrom address =>
      dsimp only at refused
      split at refused
      case isTrue outside =>
        cases refused
        rw [edit, reader, ListPosition.locate_of_not_spans outside]
        rfl
      case isFalse inside =>
        obtain ⟨empty, ⟨⟩⟩ := Option.ite_none_right_eq_some.mp refused
        rw [edit, reader, (not_not.mp inside).locate,
          address.resolve_of_isEmpty empty]
        rfl

/-- A link is stored at the end of one list, and the lists around it stay. -/
theorem changes_link {address : Address} {value : Int}
    (inside : Spans graph.inputs.length graph.cursor)
    (denotes : address.value graph = .ok value) :
    graph.Changes (.request (.readFrom address))
      (graph.link (fromStart graph.inputs.length graph.cursor).toNat
        (value % graph.count)) := by
  obtain ⟨lower, upper⟩ := inside.within_fromStart
  have place : (fromStart graph.inputs.length graph.cursor).toNat <
      graph.inputs.length := by omega
  rw [link, List.modify_eq_take_cons_drop place]
  refine .readFrom denotes ?_ ?_
  · rw [List.getElem_cons_drop, List.take_append_drop]
  · rw [List.length_take]
    omega

theorem exists_changes (accepted : graph.refusal? request = none) :
    ∃ edit, graph.edit request = .ok edit ∧
      graph.Changes (.request request) (graph.apply edit) := by
  unfold refusal? at accepted
  cases request with
  | create neuron =>
      obtain ⟨converted, converts⟩ :=
        Neuron.exists_convert (not_of_ite_eq_none accepted)
      rw [edit, converts]
      exact ⟨_, rfl, .create converts⟩
  | moveTo address =>
      obtain ⟨value, denotes, resolved⟩ :=
        address.resolve_of_ne_nil (not_of_ite_eq_none accepted)
      rw [edit, resolved]
      exact ⟨_, rfl, .moveTo denotes⟩
  | assign output address =>
      obtain ⟨value, denotes, resolved⟩ :=
        address.resolve_of_ne_nil (not_of_ite_eq_none accepted)
      rw [edit, resolved]
      cases output with
      | dx => exact ⟨_, rfl, .assignDx denotes⟩
      | dy => exact ⟨_, rfl, .assignDy denotes⟩
  | readFrom address =>
      dsimp only at accepted
      split at accepted
      case isTrue => cases accepted
      case isFalse outside =>
        have inside := not_not.mp outside
        obtain ⟨value, denotes, resolved⟩ :=
          address.resolve_of_ne_nil (not_of_ite_eq_none accepted)
        rw [edit, reader, inside.locate, resolved]
        exact ⟨_, rfl, changes_link inside denotes⟩

theorem run_perform_eq_error_iff {fault : Fault} :
    ((perform request).run graph).1 = .error fault ↔
      graph.refusal? request = some fault := by
  rw [run_perform]
  cases answer : graph.refusal? request with
  | some refused =>
      rw [edit_of_refusal? answer, Except.error.injEq, Option.some.injEq]
  | none =>
      obtain ⟨edit, asked, -⟩ := exists_changes answer
      rw [asked]
      simp only [reduceCtorEq]

/-- A command fails on the spot or makes its changes. -/
theorem run_obey (graph : Graph) (command : Command) :
    (∃ fault, (obey command).run graph = (.error fault, graph)) ∨
      ∃ result after, (obey command).run graph = (.ok result, after) ∧
        graph.Changes command after := by
  cases command with
  | request request =>
      cases answer : graph.refusal? request with
      | some fault =>
          left
          refine ⟨fault, Procedure.run_bind_of_error ?_⟩
          rw [run_perform, edit_of_refusal? answer]
      | none =>
          right
          obtain ⟨edit, asked, changes⟩ := exists_changes answer
          refine ⟨none, graph.apply edit, ?_, changes⟩
          rw [obey, Procedure.run_bind, run_perform, asked]
          rfl
  | build =>
      cases built : graph.network with
      | error fault =>
          left
          refine ⟨fault, ?_⟩
          simp only [obey, Procedure.run_bind, Procedure.run_get,
            Procedure.run_ofExcept, built]
      | ok network =>
          right
          refine ⟨some network, graph, ?_, .build⟩
          simp only [obey, Procedure.run_bind, Procedure.run_get,
            Procedure.run_ofExcept, built, Procedure.run_pure]

/--
The graph builder on any graph, well made or not.  A request fails exactly for
the reason that `Graph.refusal?` gives.  A command that fails, building
included, leaves the graph as it was, and one that succeeds makes the changes
that belong to it and no others.
-/
theorem refuses_or_changes (graph : Graph) :
    (∀ (request : Request) (fault : Fault),
      ((perform request).run graph).1 = .error fault ↔
        graph.refusal? request = some fault) ∧
    ∀ command : Command,
      (∃ fault, (obey command).run graph = (.error fault, graph)) ∨
        ∃ result after, (obey command).run graph = (.ok result, after) ∧
          graph.Changes command after :=
  ⟨fun _ _ => run_perform_eq_error_iff, run_obey graph⟩

/--
Of a cursor outside the lists and a missing neuron, a read reports the cursor.
-/
example :
    (Graph.mk [] [[]] (-2) none none).refusal? (.readFrom (.index 0)) =
      some .position := by
  decide

end Graph

end NeuralGenome
