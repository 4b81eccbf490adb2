import NeuralGenome.Genome.Instruction

/-!
# Neuron kinds

A network knows eight kinds of neurons: its two inputs and the six kinds that a
program can create.  A neuron is defined by its kind and one parameter, which is
the signal of a fixed neuron and the weight of a weighted sum, and otherwise
idle.  The parameter of a neuron in a network is a pattern; in a graph under
construction it may still be a number of any kind.
-/

namespace NeuralGenome

/-- How a neuron finds its signal. -/
inductive Kind where
  | inputX
  | inputY
  | fixed
  | random
  | sum
  | weightedSum
  | minimum
  | maximum
deriving DecidableEq, Inhabited

namespace Kind

/-- All kinds, in the order of their codes. -/
def all : List Kind :=
  [inputX, inputY, fixed, random, sum, weightedSum, minimum, maximum]

/-- The number that stands for a kind. -/
def code : Kind → Nat
  | inputX => 0
  | inputY => 1
  | fixed => 2
  | random => 3
  | sum => 4
  | weightedSum => 5
  | minimum => 6
  | maximum => 7

/-- The kind that a number stands for. -/
def ofCode (code : Int) : Except Fault Kind :=
  match all.find? fun kind => (kind.code : Int) == code with
  | some kind => .ok kind
  | none => .error (.unknownKind code)

/-- The kind of neuron that an opcode creates. -/
def ofOpcode? : Opcode → Option Kind
  | .createFixed => some fixed
  | .createRandom => some random
  | .createSum => some sum
  | .createWeightedSum => some weightedSum
  | .createMin => some minimum
  | .createMax => some maximum
  | .moveTo | .readFrom | .setDx | .setDy => none

/-- Whether a neuron of this kind looks at its links. -/
def readsLinks : Kind → Bool
  | sum | weightedSum | minimum | maximum => true
  | inputX | inputY | fixed | random => false

end Kind

/-- The kind of a neuron and its parameter. -/
structure Definition (Value : Type) where
  kind : Kind
  parameter : Value
deriving DecidableEq, Inhabited

namespace Definition

/-- A definition whose parameter is given as a number. -/
def numeric (definition : Definition Binary64) : Definition Number :=
  ⟨definition.kind, .pattern definition.parameter⟩

/-- The definition with the pattern nearest to its parameter. -/
def toBinary64 (definition : Definition Number) :
    Except Fault (Definition Binary64) := do
  return ⟨definition.kind, ← definition.parameter.toBinary64⟩

@[simp]
theorem toBinary64_numeric (definition : Definition Binary64) :
    definition.numeric.toBinary64 = .ok definition := rfl

/-- Parameters that are patterns are kept. -/
theorem mapM_toBinary64_numeric (definitions : List (Definition Binary64)) :
    (definitions.map numeric).mapM toBinary64 = .ok definitions := by
  induction definitions with
  | nil => rfl
  | cons definition rest ih =>
      rw [List.map_cons, List.mapM_cons, toBinary64_numeric, ih]
      rfl

end Definition

/--
The definition of a neuron that an instruction creates, with a given idle
parameter.
-/
def Neuron.definition {Value : Type} (idle : Value) :
    Neuron Value → Definition Value
  | .fixed signal => ⟨.fixed, signal⟩
  | .random => ⟨.random, idle⟩
  | .sum => ⟨.sum, idle⟩
  | .weightedSum weight => ⟨.weightedSum, weight⟩
  | .minimum => ⟨.minimum, idle⟩
  | .maximum => ⟨.maximum, idle⟩

/-- Changing the value of a neuron changes its parameter in the same way. -/
theorem Neuron.definition_map_pattern (neuron : Neuron Binary64) :
    (neuron.map Number.pattern).definition (.pattern .zero) =
      (neuron.definition .zero).numeric := by
  cases neuron <;> rfl

end NeuralGenome
