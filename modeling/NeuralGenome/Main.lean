import NeuralGenome.CommandLine

/-!
# The program

Runs the demonstrations that the arguments name and writes their events to
standard error.
-/

/-- Write what the arguments lead to. -/
def main (arguments : List String) : IO Unit := do
  (← IO.getStderr).putStr (NeuralGenome.CommandLine.output arguments)
