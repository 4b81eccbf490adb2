import NeuralGenome.Demonstration
import NeuralGenome.Text.Lowercase
import NeuralGenome.Text.Quoted

/-!
# The command line

The first argument that is no option names a demonstration, in any case of
letters; without one all of them run.  The option `--debug`, wherever it stands,
shows events of every level.
-/

namespace NeuralGenome

namespace CommandLine

/-- Whether an argument is an option. -/
def isOption (argument : String) : Bool :=
  argument.startsWith "--"

/-- The mode that arguments name. -/
def mode (arguments : List String) : String :=
  match arguments.find? fun argument => !isOption argument with
  | some argument => Text.lower argument
  | none => "all"

/-- Whether an event is shown. -/
def isShown (arguments : List String) (event : Event) : Bool :=
  event.level != .debug || arguments.contains "--debug"

/-- What a mode does. -/
def perform (mode : String) : Lab Generator Unit := do
  if mode = "all" then
    let _ ← Demonstration.all 8 5 12
  else if mode = "walk" then
    let _ ← Demonstration.walk 8 0
  else if mode = "listing" then
    let _ ← Demonstration.listing Demonstration.listingTarget
  else if mode = "layers" then
    let _ ← Demonstration.layers Demonstration.layersTarget
  else if mode = "breeding" then
    let _ ← Demonstration.breeding 5 12 Demonstration.bitSettings
    let _ ← Demonstration.breeding 5 12 Demonstration.breedingSettings
  else
    Lab.note (.unknownMode (Text.quoted mode))

/--
A bench on which nothing has been noted; demonstrations bring their own seeds.
-/
def bench : Bench Generator :=
  ⟨.scripted (.ofList []), #[]⟩

/-- The lines that arguments lead to. -/
def lines (arguments : List String) : List String :=
  let (_, bench) := (perform (mode arguments)).run bench
  (bench.journal.toList.filter (isShown arguments)).map Event.text

/-- The text that arguments lead to, with every line ended. -/
def output (arguments : List String) : String :=
  String.join ((lines arguments).map fun line => line ++ "\n")

end CommandLine

end NeuralGenome
