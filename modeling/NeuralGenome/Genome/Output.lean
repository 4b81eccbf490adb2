/-!
# Outputs

A network answers with two signals, one for each axis of the grid.
-/

namespace NeuralGenome

/-- An axis on which a network decides a move. -/
inductive Output where
  | dx
  | dy
deriving DecidableEq, Inhabited

namespace Output

/-- Both outputs, the horizontal one first. -/
def all : List Output :=
  [dx, dy]

/-- How messages and descriptions call an output. -/
def label : Output → String
  | dx => "dX"
  | dy => "dY"

/-- How listings and mnemonics call an output. -/
def mnemonic : Output → String
  | dx => "DX"
  | dy => "DY"

end Output

end NeuralGenome
