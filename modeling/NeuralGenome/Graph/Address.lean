import NeuralGenome.Graph.Basic
import NeuralGenome.ListPosition
import NeuralGenome.Procedure

/-!
# Addresses

An address names a neuron of a graph.  It is resolved when it is used: `last` is
another neuron after the next creation.  Integers of any size wrap around the
neurons that exist, so that in a graph with neurons every address names one of
them.
-/

namespace NeuralGenome

/-- The remainder of an index modulo a count of neurons. -/
def wrapIndex (index count : Int) : Except Fault Int :=
  if count ≤ 0 then .error .emptyGraph else .ok (index % count)

/--
The remainder of a number's integer part; that there are neurons is checked
first.
-/
def wrapNumber (index : Number) (count : Int) : Except Fault Int := do
  if count ≤ 0 then throw .emptyGraph
  wrapIndex (← index.toInt) count

/-- A way to name a neuron. -/
inductive Address where
  /-- An integer that the builder wraps. -/
  | index (value : Int)
  /-- The neuron under the cursor. -/
  | current
  /-- The first neuron. -/
  | first
  /-- The neuron before the cursor. -/
  | previous
  /-- The neuron after the cursor. -/
  | next
  /-- The neuron created last. -/
  | last
  /-- The horizontal input. -/
  | x
  /-- The vertical input. -/
  | y
  /-- The neuron at a distance from the cursor. -/
  | relative (offset : Int)
  /-- An integer that the address wraps by itself. -/
  | absolute (value : Int)
deriving DecidableEq

namespace Address

/-- The integer that an address denotes in a graph. -/
def value (address : Address) (graph : Graph) : Except Fault Int :=
  match address with
  | index value => .ok value
  | current => .ok graph.cursor
  | first => .ok 0
  | previous => wrapIndex (graph.cursor - 1) graph.count
  | next => wrapIndex (graph.cursor + 1) graph.count
  | last => .ok (graph.count - 1)
  | x => .ok xNeuron
  | y => .ok yNeuron
  | relative offset => wrapIndex (graph.cursor + offset) graph.count
  | absolute value => wrapIndex value graph.count

/-- The neuron that an address names in a graph. -/
def resolve (address : Address) (graph : Graph) : Except Fault Int := do
  wrapIndex (← address.value graph) graph.count

end Address

/-! ## Addresses where there are neurons -/

theorem wrapIndex_of_pos {count : Int} (index : Int) (positive : 0 < count) :
    wrapIndex index count = .ok (index % count) :=
  if_neg (Int.not_le.mpr positive)

namespace Address

variable {graph : Graph}

/-- Where there are neurons, every address denotes an integer. -/
theorem exists_value (address : Address) (occupied : 0 < graph.count) :
    ∃ value, address.value graph = .ok value := by
  have positive : 0 < (graph.count : Int) := Int.natCast_pos.mpr occupied
  cases address <;>
    simp only [value, wrapIndex_of_pos _ positive, Except.ok.injEq, exists_eq']

/-- Where there are neurons, an address names the remainder of its value. -/
theorem resolve_of_value {address : Address} {value : Int}
    (denotes : address.value graph = .ok value) (occupied : 0 < graph.count) :
    address.resolve graph = .ok (value % graph.count) := by
  rw [resolve, denotes]
  exact wrapIndex_of_pos value (Int.natCast_pos.mpr occupied)

/-- Where there are neurons, every address names one of them. -/
theorem exists_resolve (address : Address) (occupied : 0 < graph.count) :
    ∃ index, address.resolve graph = .ok index ∧
      ListPosition.Within graph.count index := by
  obtain ⟨value, denotes⟩ := address.exists_value occupied
  exact ⟨value % graph.count, resolve_of_value denotes occupied,
    ListPosition.within_emod value occupied⟩

end Address

end NeuralGenome
