import NeuralGenome.Layered.Session
import NeuralGenome.Network.Firing

/-!
# Blueprints

Whoever works with a layered programmer thinks of neurons by what they are for:
an input, a constant, a draw, the child of a neuron under a weight, the sum of a
layer.  A blueprint keeps just that.  It has one origin for each neuron, in the
order of creation, and a handle is a position in that order.  There are no
programs, no cursor and no wrapped indexes.

The operations of a session have a direct meaning on blueprints, and an origin
says which signal its neuron is to emit.
-/

namespace NeuralGenome

open ListPosition (Within)

/-! ## Origins -/

/-- What a neuron is for. -/
inductive Origin where
  /-- The horizontal input. -/
  | x
  /-- The vertical input. -/
  | y
  /-- A constant. -/
  | constant (signal : Binary64)
  /-- A fresh draw. -/
  | random
  /-- The child of a neuron under a weight. -/
  | child (parent : Nat) (weight : Binary64)
  /-- The sum of a layer. -/
  | total (layer : List Nat)
deriving DecidableEq

namespace Origin

/-- The neurons that a neuron depends on, in order. -/
def parents : Origin → List Nat
  | child parent _ => [parent]
  | total layer => layer
  | _ => []

/-- How a network defines a neuron. -/
def definition : Origin → Definition Binary64
  | x => ⟨.inputX, .zero⟩
  | y => ⟨.inputY, .zero⟩
  | constant signal => ⟨.fixed, signal⟩
  | random => ⟨.random, .zero⟩
  | child _ weight => ⟨.weightedSum, weight⟩
  | total _ => ⟨.sum, .zero⟩

/--
The neuron of a network that has an origin; its links are the handles
themselves.
-/
def linked (origin : Origin) : LinkedNeuron :=
  ⟨origin.definition, origin.parents.map Int.ofNat⟩

/-- Whether a neuron is for a draw. -/
def isRandom : Origin → Bool
  | random => true
  | _ => false

/--
The signal that a neuron is to emit, from the inputs, its own draw and the
signals of all.
-/
def signal (memory : Memory) (draw : Binary64) (signals : List Binary64) :
    Origin → Binary64
  | x => memory.x
  | y => memory.y
  | constant signal => signal
  | random => draw
  | child parent weight => (Binary64.sum [signals.getD parent .zero]).mul weight
  | total layer =>
      Binary64.sum (layer.map fun neuron => signals.getD neuron .zero)

end Origin

/-! ## Blueprints -/

/-- The neurons made so far by what they are for, and the handles on them. -/
structure Blueprint where
  origins : List Origin
  layers : List (List Nat)
  sums : List Nat
  dx : Option Nat
  dy : Option Nat
deriving DecidableEq

namespace Blueprint

/-- The two inputs, and nothing made of them. -/
def initial : Blueprint :=
  ⟨[.x, .y], [], [], none, none⟩

/-- The handle of the next neuron. -/
def fresh (blueprint : Blueprint) : Nat :=
  blueprint.origins.length

/-- The handle that answers for an axis, once it is designated. -/
def output (blueprint : Blueprint) : Output → Option Nat
  | .dx => blueprint.dx
  | .dy => blueprint.dy

/-- How many draws neurons before a handle take. -/
def turn (blueprint : Blueprint) (handle : Nat) : Nat :=
  (blueprint.origins.take handle).countP Origin.isRandom

/-- Add neurons. -/
def append (blueprint : Blueprint) (origins : List Origin) : Blueprint :=
  { blueprint with origins := blueprint.origins ++ origins }

/-- Add a layer. -/
def addLayer (blueprint : Blueprint) (layer : List Nat) : Blueprint :=
  { blueprint with layers := blueprint.layers ++ [layer] }

/-- Add a sum. -/
def addSum (blueprint : Blueprint) (neuron : Nat) : Blueprint :=
  { blueprint with sums := blueprint.sums ++ [neuron] }

/-- Put a layer in the place of another. -/
def replace (blueprint : Blueprint) (place : Nat) (layer : List Nat) :
    Blueprint :=
  { blueprint with layers := blueprint.layers.set place layer }

/-- Let a neuron answer for an axis. -/
def designate (blueprint : Blueprint) (neuron : Nat) : Output → Blueprint
  | .dx => { blueprint with dx := some neuron }
  | .dy => { blueprint with dy := some neuron }

theorem output_designate (blueprint : Blueprint) (neuron : Nat)
    (axis : Output) : (blueprint.designate neuron axis).output =
      fun other => if other =
        axis then some neuron else blueprint.output other := by
  funext other
  cases axis <;> cases other <;> rfl

/-- Extend the layer at a position by a neuron. -/
def extend? (blueprint : Blueprint) (position : Int) (neuron : Nat) :
    Option Blueprint := do
  let place ← ListPosition.place? blueprint.layers.length position
  let layer ← blueprint.layers[place]?
  return blueprint.replace place (layer ++ [neuron])

/--
What an operation means; a number that is taken for no neuron means nothing.
-/
def perform? (blueprint : Blueprint) : Session.Operation → Option Blueprint
  | .emptyLayer => some (blueprint.addLayer [])
  | .newLayer neurons =>
      if ∀ neuron ∈ neurons, Within blueprint.fresh neuron then
        some (blueprint.addLayer (neurons.map Int.toNat))
      else none
  | .x position => blueprint.extend? position xNeuron
  | .y position => blueprint.extend? position yNeuron
  | .constant position signal => do
      let signal ← signal.toBinary64.toOption
      (blueprint.append [.constant signal]).extend? position blueprint.fresh
  | .random position =>
      (blueprint.append [.random]).extend? position blueprint.fresh
  | .weighted position weights => do
      let layer ← ListPosition.get? blueprint.layers position
      let weights ← (weights.mapM Number.toBinary64).toOption
      if weights.length = layer.length then
        some ((blueprint.append (List.zipWith .child layer weights)).addLayer
          (List.range' blueprint.fresh layer.length))
      else none
  | .sum position => do
      let layer ← ListPosition.get? blueprint.layers position
      return (blueprint.append [.total layer]).addSum blueprint.fresh
  | .assign output position => do
      let neuron ← ListPosition.get? blueprint.sums position
      return blueprint.designate neuron output
  | .count position => do
      let _ ← ListPosition.get? blueprint.layers position
      return blueprint
  | .program => some blueprint
  | .allocate => none

/-- What operations in order mean. -/
def performAll? (blueprint : Blueprint) :
    List Session.Operation → Option Blueprint
  | [] => some blueprint
  | operation :: rest => do (← blueprint.perform? operation).performAll? rest

/-! ## Sound blueprints -/

/--
A blueprint whose handles name neurons and whose neurons depend on earlier ones
only.
-/
structure Sound (blueprint : Blueprint) : Prop where
  reserved : reservedNeurons ≤ blueprint.fresh
  layers : ∀ layer ∈ blueprint.layers, ∀ neuron ∈ layer,
    neuron < blueprint.fresh
  sums : ∀ neuron ∈ blueprint.sums, neuron < blueprint.fresh
  parents : ∀ (handle : Nat) (origin : Origin),
    blueprint.origins[handle]? = some origin →
    ∀ parent ∈ origin.parents, parent < handle

theorem sound_initial : initial.Sound where
  reserved := Nat.le_refl _
  layers := fun _ member => absurd member List.not_mem_nil
  sums := fun _ member => absurd member List.not_mem_nil
  parents := by
    intro handle origin found
    rcases handle with _ | _ | handle
    · cases found
      exact fun _ member => absurd member List.not_mem_nil
    · cases found
      exact fun _ member => absurd member List.not_mem_nil
    · cases found

theorem fresh_append (blueprint : Blueprint) (origins : List Origin) :
    (blueprint.append origins).fresh = blueprint.fresh + origins.length :=
  List.length_append

namespace Sound

variable {blueprint : Blueprint}

/-- Neurons that depend on earlier neurons can be added. -/
theorem append (sound : blueprint.Sound) {origins : List Origin}
    (earlier : ∀ origin ∈ origins, ∀ parent ∈ origin.parents,
      parent < blueprint.fresh) :
    (blueprint.append origins).Sound where
  reserved := by
    rw [fresh_append]
    exact Nat.le_add_right_of_le sound.reserved
  layers := by
    intro layer member neuron inside
    rw [fresh_append]
    exact Nat.lt_add_right _ (sound.layers layer member neuron inside)
  sums := by
    intro neuron member
    rw [fresh_append]
    exact Nat.lt_add_right _ (sound.sums neuron member)
  parents := by
    intro handle origin found parent inside
    rcases Nat.lt_or_ge handle blueprint.origins.length with old | new
    · rw [Blueprint.append, List.getElem?_append_left old] at found
      exact sound.parents handle origin found parent inside
    · rw [Blueprint.append, List.getElem?_append_right new] at found
      exact Nat.lt_of_lt_of_le
        (earlier origin (List.mem_of_getElem? found) parent inside) new

theorem addLayer (sound : blueprint.Sound) {layer : List Nat}
    (inside : ∀ neuron ∈ layer, neuron < blueprint.fresh) :
    (blueprint.addLayer layer).Sound :=
  { sound with
    layers := List.forall_mem_append.mpr
      ⟨sound.layers, List.forall_mem_singleton.mpr inside⟩ }

theorem addSum (sound : blueprint.Sound) {neuron : Nat}
    (inside : neuron < blueprint.fresh) : (blueprint.addSum neuron).Sound :=
  { sound with
    sums := List.forall_mem_append.mpr
      ⟨sound.sums, List.forall_mem_singleton.mpr inside⟩ }

theorem replace (sound : blueprint.Sound) (place : Nat) {layer : List Nat}
    (inside : ∀ neuron ∈ layer, neuron < blueprint.fresh) :
    (blueprint.replace place layer).Sound :=
  { sound with
    layers := by
      intro other member
      rcases List.mem_or_eq_of_mem_set member with old | new
      · exact sound.layers other old
      · rw [new]
        exact inside }

theorem designate (sound : blueprint.Sound) (neuron : Nat) (output : Output) :
    (blueprint.designate neuron output).Sound := by
  cases output <;>
    exact ⟨sound.reserved, sound.layers, sound.sums, sound.parents⟩

end Sound

end Blueprint

end NeuralGenome
