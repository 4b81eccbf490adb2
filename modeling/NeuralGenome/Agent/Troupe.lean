import NeuralGenome.Agent.Basic

/-!
# Troupes

A troupe is a number of agents that share one source of draws.  Each decision
changes the memory of one agent and moves the shared source on.
-/

namespace NeuralGenome

/-- Agents with a shared source. -/
structure Troupe (Source : Type) where
  agents : List Agent
  source : Source

namespace Troupe

variable {Source : Type} [DrawSource Source]

/-- Let one agent act; there must be an agent of that number. -/
def act {Value : Type} (number : Nat)
    (procedure : Procedure (Agent × Source) Value) :
    Procedure (Troupe Source) Value := do
  match (← get).agents[number]? with
  | some agent =>
      procedure.within (fun troupe => (agent, troupe.source))
        fun state troupe =>
        { agents := troupe.agents.set number state.1, source := state.2 }
  | none => throw .position

/-- Let one agent decide its next move. -/
def decide (number : Nat) (position : Position) :
    Procedure (Troupe Source) Move :=
  act number (Agent.decide position)

end Troupe

end NeuralGenome
