import NeuralGenome.Journal.Event
import NeuralGenome.Random.Source

/-!
# Benches

A bench is what experiments share: a source of draws and the journal of events.
A lab procedure works at a bench; what it has drawn and noted stays when it
fails.
-/

namespace NeuralGenome

/-- A source of draws and what has been noted. -/
structure Bench (Source : Type) where
  source : Source
  journal : Array Event

/-- A procedure at a bench. -/
abbrev Lab (Source Value : Type) : Type :=
  Procedure (Bench Source) Value

namespace Lab

variable {Source Value : Type}

/-- Note an event. -/
def note (event : Event) : Lab Source Unit :=
  modify fun bench => { bench with journal := bench.journal.push event }

/-- Note an event if a condition holds. -/
def noteIf (condition : Bool) (event : Event) : Lab Source Unit :=
  if condition then note event else pure ()

/-- Draw from the source of a bench. -/
def draw (step : Source → Value × Source) : Lab Source Value :=
  Procedure.ofStep fun bench =>
    let (value, source) := step bench.source
    (value, { bench with source := source })

/-- Choose two positions in a list of the given length. -/
def choosePair [DrawSource Source] (length : Nat) : Lab Source (Int × Int) :=
  (DrawSource.nextPair length).within Bench.source fun source bench =>
    { bench with source := source }

/-- Put another source on a bench. -/
def replaceSource (source : Source) : Lab Source Unit :=
  modify fun bench => { bench with source := source }

@[simp]
theorem run_note (event : Event) (bench : Bench Source) :
    (note event).run bench =
      (.ok (), { bench with journal := bench.journal.push event }) := rfl

end Lab

end NeuralGenome
