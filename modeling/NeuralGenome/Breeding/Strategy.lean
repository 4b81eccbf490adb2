/-!
# Breeding strategies

Two choices say how a child is made: how its parents are combined, and what may
be flipped in it afterwards.  Each choice has a name under which settings know
it.
-/

namespace NeuralGenome

/-- How two parents are combined. -/
inductive Reproduction where
  /-- The child is the first parent. -/
  | firstParent
  /-- The child is one parent, chosen by a fair coin. -/
  | randomParent
  /-- Every gene comes from one parent or the other, by a fair coin each. -/
  | randomCodes
deriving DecidableEq, Inhabited

namespace Reproduction

/-- All ways of combining parents. -/
def all : List Reproduction :=
  [firstParent, randomParent, randomCodes]

/-- The name under which a way is chosen. -/
def name : Reproduction → String
  | firstParent => "first_parent"
  | randomParent => "random_parent"
  | randomCodes => "random_codes"

/-- How messages show a way. -/
def text (reproduction : Reproduction) : String :=
  "Reproducer(" ++ reproduction.name ++ ")"

/-- The way with a given name. -/
def ofName? (name : String) : Option Reproduction :=
  all.find? fun reproduction => reproduction.name == name

end Reproduction

/-- What may be flipped in a child. -/
inductive MutationKind where
  | nothing
  /-- Any bit. -/
  | bits
  /-- The bits of weights. -/
  | weights
deriving DecidableEq, Inhabited

namespace MutationKind

/-- All kinds of mutation. -/
def all : List MutationKind :=
  [nothing, bits, weights]

/-- The name under which a kind is chosen. -/
def name : MutationKind → String
  | nothing => "none"
  | bits => "bits"
  | weights => "weights"

/-- How messages show a kind. -/
def text (kind : MutationKind) : String :=
  "Mutator(" ++ kind.name ++ ")"

/-- The kind with a given name. -/
def ofName? (name : String) : Option MutationKind :=
  all.find? fun kind => kind.name == name

end MutationKind

end NeuralGenome
