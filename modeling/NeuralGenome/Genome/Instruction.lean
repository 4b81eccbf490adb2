import NeuralGenome.Genome.Opcode
import NeuralGenome.Number

/-!
# Instructions

An instruction creates a neuron, moves the cursor, wires a neuron to the one
under the cursor, or designates an output.  The type leaves open what names a
neuron and what a value is, because the same four instructions appear at three
stages:

* a *gene* names neurons and values by binary64 operands (`Gene`);
* a *call*, which every reader of a program receives, names neurons by integers
  (`Call`);
* a *request* to the graph builder names neurons by addresses and values by
  numbers.
-/

namespace NeuralGenome

/-- A neuron that an instruction can create. -/
inductive Neuron (Value : Type) where
  /-- Emits a constant signal. -/
  | fixed (signal : Value)
  /-- Emits a fresh draw on every firing. -/
  | random
  /-- Sums its inputs. -/
  | sum
  /-- Sums its inputs and scales the sum. -/
  | weightedSum (weight : Value)
  /-- Takes the least of its inputs. -/
  | minimum
  /-- Takes the greatest of its inputs. -/
  | maximum
deriving DecidableEq

/-- One step of a program. -/
inductive Instruction (Index Value : Type) where
  /-- Append a neuron and move the cursor to it. -/
  | create (neuron : Neuron Value)
  /-- Move the cursor. -/
  | moveTo (index : Index)
  /-- Wire a neuron as an input of the one under the cursor. -/
  | readFrom (index : Index)
  /-- Designate the neuron that produces an output. -/
  | assign (output : Output) (index : Index)
deriving DecidableEq

/-! ## Changing values and indexes -/

/-- Convert the value of a neuron, if it has one. -/
def Neuron.convert {Value Value' : Type}
    (conversion : Value → Except Fault Value') :
    Neuron Value → Except Fault (Neuron Value')
  | .fixed signal => do return .fixed (← conversion signal)
  | .random => .ok .random
  | .sum => .ok .sum
  | .weightedSum weight => do return .weightedSum (← conversion weight)
  | .minimum => .ok .minimum
  | .maximum => .ok .maximum

/-- Change the value of a neuron, if it has one. -/
def Neuron.map {Value Value' : Type} (change : Value → Value') :
    Neuron Value → Neuron Value'
  | .fixed signal => .fixed (change signal)
  | .random => .random
  | .sum => .sum
  | .weightedSum weight => .weightedSum (change weight)
  | .minimum => .minimum
  | .maximum => .maximum

namespace Instruction

variable {Index Index' Value Value' : Type}

/-- Change how an instruction names neurons and values. -/
def map (changeIndex : Index → Index') (changeValue : Value → Value') :
    Instruction Index Value → Instruction Index' Value'
  | create neuron => create (neuron.map changeValue)
  | moveTo index => moveTo (changeIndex index)
  | readFrom index => readFrom (changeIndex index)
  | assign output index => assign output (changeIndex index)

/--
Convert how an instruction names neurons and values, where either may fail.
-/
def convert (convertIndex : Index → Except Fault Index')
    (convertValue : Value → Except Fault Value') :
    Instruction Index Value → Except Fault (Instruction Index' Value')
  | create neuron => do return create (← neuron.convert convertValue)
  | moveTo index => do return moveTo (← convertIndex index)
  | readFrom index => do return readFrom (← convertIndex index)
  | assign output index => do return assign output (← convertIndex index)

/-- The opcode of an instruction. -/
def opcode : Instruction Index Value → Opcode
  | create (.fixed _) => .createFixed
  | create .random => .createRandom
  | create .sum => .createSum
  | create (.weightedSum _) => .createWeightedSum
  | create .minimum => .createMin
  | create .maximum => .createMax
  | moveTo _ => .moveTo
  | readFrom _ => .readFrom
  | assign .dx _ => .setDx
  | assign .dy _ => .setDy

/--
The instruction with a given opcode and an operand that serves as index or
value.
-/
def ofOpcode (opcode : Opcode) (operand : Value) : Instruction Value Value :=
  match opcode with
  | .createFixed => create (.fixed operand)
  | .createRandom => create .random
  | .createSum => create .sum
  | .createWeightedSum => create (.weightedSum operand)
  | .createMin => create .minimum
  | .createMax => create .maximum
  | .moveTo => moveTo operand
  | .readFrom => readFrom operand
  | .setDx => assign .dx operand
  | .setDy => assign .dy operand

/-- An instruction made from an opcode has that opcode. -/
@[simp]
theorem opcode_ofOpcode (opcode : Opcode) (operand : Value) :
    (ofOpcode opcode operand).opcode = opcode := by
  cases opcode <;> rfl

/-- Changing names keeps the opcode. -/
@[simp]
theorem opcode_map (changeIndex : Index → Index') (changeValue : Value → Value')
    (instruction : Instruction Index Value) :
    (instruction.map changeIndex changeValue).opcode = instruction.opcode := by
  cases instruction with
  | create neuron => cases neuron <;> rfl
  | moveTo index => rfl
  | readFrom index => rfl
  | assign output index => cases output <;> rfl

end Instruction

/--
What every reader of a program receives: indexes are integers and values are
patterns.
-/
abbrev Call :=
  Instruction Int Binary64

/-- A call whose values may still be numbers of any kind. -/
abbrev NumericCall :=
  Instruction Int Number

/-- A call names its values by patterns. -/
def Call.numeric (call : Call) : NumericCall :=
  call.map id .pattern

end NeuralGenome
