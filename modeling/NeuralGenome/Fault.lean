import NeuralGenome.Decimal.Text
import NeuralGenome.Genome.Output

/-!
# Faults

`Fault` lists every reason for which an operation can fail, with the data that
belongs to the reason.  `Fault.message` is the only place where a reason is put
into words.
-/

namespace NeuralGenome

/-! ## Settings -/

/-- Why the value given for one breeding setting is refused. -/
inductive SettingFault where
  | fractionalSeed
  | infiniteSeed
  | oversizedSeed
  | unreadableSeed
  | seedType
  | reproductionName
  | mutationName
  | probabilityType
  | unreadableProbability
  | probabilityAboveOne
  | probabilityBelowZero
  /--
  Settings do not change once they are made; the name is the one assigned to.
  -/
  | frozen (name : String)
deriving DecidableEq

namespace SettingFault

/-- The name of the setting that is refused. -/
def setting : SettingFault → String
  | fractionalSeed | infiniteSeed | oversizedSeed | unreadableSeed
  | seedType => "seed"
  | reproductionName => "reproducer"
  | mutationName => "mutation"
  | probabilityType | unreadableProbability | probabilityAboveOne
  | probabilityBelowZero =>
      "mutation_probability"
  | frozen name => name

/-- What is wrong with the value, with the short name of the rule at the end. -/
def explanation : SettingFault → String
  | fractionalSeed =>
      "Input should be a valid integer, got a number with a fractional part " ++
        "[int_from_float]"
  | infiniteSeed => "Input should be a finite number [finite_number]"
  | oversizedSeed =>
      "Unable to parse input string as an integer, exceeded maximum size " ++
        "[int_parsing_size]"
  | unreadableSeed =>
      "Input should be a valid integer, unable to parse string as an " ++
        "integer [int_parsing]"
  | seedType => "Input should be a valid integer [int_type]"
  | reproductionName =>
      "Input should be 'first_parent', 'random_parent' or 'random_codes' " ++
        "[literal_error]"
  | mutationName =>
      "Input should be 'none', 'bits' or 'weights' [literal_error]"
  | probabilityType => "Input should be a valid number [float_type]"
  | unreadableProbability =>
      "Input should be a valid number, unable to parse string as a number " ++
        "[float_parsing]"
  | probabilityAboveOne =>
      "Input should be less than or equal to 1 [less_than_equal]"
  | probabilityBelowZero =>
      "Input should be greater than or equal to 0 [greater_than_equal]"
  | frozen _ => "Instance is frozen [frozen_instance]"

/-- One refusal in words. -/
def message (fault : SettingFault) : String :=
  fault.setting ++ ": " ++ fault.explanation

end SettingFault

/-! ## Operations -/

/-- Why an operation fails. -/
inductive Fault where
  /--
  A frame starts with a tag of no opcode; the offset is known when a whole
  program is read.
  -/
  | unknownTag (tag : Nat) (offset : Option Nat)
  /-- A network lacks these outputs. -/
  | missingOutputs (missing : List Output)
  | frameLength (length : Nat)
  | unknownOpcode (code : Int)
  | unknownKind (code : Int)
  | emptyGraph
  | weightCount (required given : Nat)
  | unequalLengths
  | probabilityRange (probability : Binary64)
  | noParents
  | negativeCount (count : Int)
  | missingChromosome
  | missingNetwork
  | negativeSeed
  | notANumber
  | infiniteNumber
  | integerTooLarge
  | negativePattern
  | oversizedPattern
  /-- A tag that fits a word but no byte. -/
  | tagRange
  /-- A tag that does not even fit a word. -/
  | tagSize
  /-- A position in a list that does not exist. -/
  | position
  /-- A position in a list that does not exist and does not fit a word. -/
  | oversizedPosition
  /-- A signal that does not exist in a network of this size. -/
  | signalPosition (index : Int) (size : Nat)
  /--
  An index of a signal, a link or a drawn position that does not fit a word.
  -/
  | oversizedIndex
  /-- An index of a signal that does not fit a word, even without a sign. -/
  | unusableIndex
  /-- Several settings may be refused at once. -/
  | settings (faults : List SettingFault)
deriving DecidableEq

namespace Fault

/-- The fault in words. -/
def message : Fault → String
  | unknownTag tag none => s!"No opcode mapped to tag {tag}"
  | unknownTag tag (some offset) =>
      s!"No opcode mapped to tag {tag} (frame at byte {offset})"
  | missingOutputs missing =>
      "Network outputs not assigned: " ++
        ", ".intercalate (missing.map Output.label)
  | frameLength length => s!"Frame must be exactly 9 bytes, got {length}."
  | unknownOpcode code => s!"{code} is not a valid Opcode"
  | unknownKind code => s!"{code} is not a valid NeuronKind"
  | emptyGraph => "Cannot normalize an index against an empty graph."
  | weightCount required given =>
      s!"Your layer requires {required} weights, currently {given}"
  | unequalLengths =>
      "Neuron kinds, parameters and inputs must have the same length."
  | probabilityRange probability =>
      "Mutation probability must be within [0, 1], got " ++
        probability.text ++ "."
  | noParents => "At least one parent is required to breed."
  | negativeCount count => s!"Children count must be non-negative, got {count}."
  | missingChromosome => "No chromosome provided"
  | missingNetwork => "No neural network provided"
  | negativeSeed => "expected non-negative integer"
  | notANumber => "cannot convert float NaN to integer"
  | infiniteNumber => "cannot convert float infinity to integer"
  | integerTooLarge => "int too large to convert to float"
  | negativePattern => "can't convert negative int to unsigned"
  | oversizedPattern => "int too big to convert"
  | tagRange => "ubyte format requires 0 <= number <= 255"
  | tagSize => "argument out of range"
  | position => "list index out of range"
  | oversizedPosition => "cannot fit 'int' into an index-sized integer"
  | signalPosition index size =>
      s!"index {index} is out of bounds for axis 0 with size {size}"
  | oversizedIndex => "Python int too large to convert to C long"
  | unusableIndex =>
      "only integers, slices (`:`), ellipsis (`...`), numpy.newaxis " ++
        "(`None`) and integer or boolean arrays are valid indices"
  | settings faults => "; ".intercalate (faults.map SettingFault.message)

end Fault

end NeuralGenome
