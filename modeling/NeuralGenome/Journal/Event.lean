import NeuralGenome.Agent.Position
import NeuralGenome.Breeding.Settings

/-!
# Events

Operations note what they do as events.  An event is kept with its data, and
`Event.text` is the only place where it becomes words.
-/

namespace NeuralGenome

/-- How much an event matters. -/
inductive Level where
  | debug
  | info
  | error
deriving DecidableEq

/-- The name of a level. -/
def Level.name : Level → String
  | debug => "DEBUG"
  | info => "INFO"
  | error => "ERROR"

/-- Something that is noted. -/
inductive Event where
  /-- A program was read from bytes that end in a fragment of a frame. -/
  | droppedFragment (bytes frames : Nat)
  | compiledNetwork (neurons : Nat) (dx dy : Int)
  /-- The shorter parent was padded before genes were chosen. -/
  | paddedParent (genes : Nat)
  | flippedBits (flips bits : Nat)
  | mutatedWeights (neurons : Nat)
  | preparedBreeder (reproduction : Reproduction) (mutation : MutationKind)
      (seed : Option Int)
  | bredPopulation (children parents decodable : Nat)
  /-- A demonstration starts. -/
  | heading (title : String)
  | walked (name : String) (path : List Position)
  | instructions (descriptions : List String)
  | listingLine (line : String)
  | layer (depth : Nat) (titles : List String)
  | collectedWeights (weights : List Binary64)
  | droppedChild (signature : String) (fault : Fault)
  | generation (number compiled bred distinct : Nat)
  | extinct
  /--
  The command line was asked for something else; the mode is given as quoted
  text.
  -/
  | unknownMode (quoted : String)

namespace Event

/-- The level at which an event is noted. -/
def level : Event → Level
  | heading _ | walked _ _ | instructions _ | listingLine _ | layer _ _
  | collectedWeights _
  | generation _ _ _ _ | extinct => .info
  | unknownMode _ => .error
  | _ => .debug

/-- A text with blanks before it up to a width. -/
def alignRight (width : Nat) (text : String) : String :=
  String.ofList (List.replicate (width - text.length) ' ') ++ text

/-- An event in words. -/
def text : Event → String
  | droppedFragment bytes frames =>
      s!"Dropping {bytes} trailing byte(s) after {frames} frames"
  | compiledNetwork neurons dx dy =>
      s!"Compiled network with {neurons} neurons (dX={dx}, dY={dy})"
  | paddedParent genes =>
      s!"Crossover padded the shorter parent with {genes} instruction(s)"
  | flippedBits flips bits => s!"Flipped {flips} of {bits} bit(s)"
  | mutatedWeights neurons =>
      s!"Mutated operands of {neurons} weighted-sum neuron(s) (64 bits each)"
  | preparedBreeder reproduction mutation seed =>
      let shown := (seed.map fun number => toString number).getD "None"
      s!"Breeder from config: {reproduction.text}, {mutation.text}, " ++
        s!"seed={shown}"
  | bredPopulation children parents decodable =>
      s!"Bred {children} children from {parents} parents " ++
        s!"({decodable} decodable)"
  | heading title => s!"=== {title} ==="
  | walked name path =>
      alignRight 14 name ++ ": " ++ " ".intercalate (path.map Position.text)
  | instructions descriptions =>
      "Instructions: " ++ ", ".intercalate descriptions
  | listingLine line => "  " ++ line
  | layer depth titles => s!"Layer {depth}: " ++ ", ".intercalate titles
  | collectedWeights weights =>
      "Weights: [" ++ ", ".intercalate (weights.map Binary64.text) ++ "]"
  | droppedChild signature fault =>
      s!"Dropped child {signature}: {fault.message}"
  | generation number compiled bred distinct =>
      s!"Generation {number}: {compiled}/{bred} children compile, " ++
        s!"{distinct} distinct genomes"
  | extinct => "No child compiles, stopping"
  | unknownMode quoted =>
      s!"Unknown mode {quoted}: use walk, listing, layers, breeding or all"

end Event

end NeuralGenome
