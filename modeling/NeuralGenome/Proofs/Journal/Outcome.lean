import NeuralGenome.Journal.Compilation

/-!
# Outcomes of procedures at a bench

The journal of a bench is written and never read back, so what a procedure gives
and what it draws depends on the source alone.  `Lab.Ends` says both at once,
for every journal.  Its laws follow the constructs that procedures are made of;
with them, proofs about results and draws pass over the journal.
-/

namespace NeuralGenome

namespace Lab

variable {Source Value Result : Type}

/--
Whatever the journal holds, a procedure has this outcome and leaves this source.
-/
def Ends (procedure : Lab Source Value) (source : Source)
    (outcome : Except Fault Value) (after : Source) : Prop :=
  ∀ journal, ∃ noted,
    procedure.run ⟨source, journal⟩ = (outcome, ⟨after, noted⟩)

namespace Ends

variable {procedure : Lab Source Value} {source middle after : Source}

theorem unique {other : Source} {outcome outcome' : Except Fault Value}
    (first : Ends procedure source outcome after)
    (second : Ends procedure source outcome' other) :
    outcome = outcome' ∧ after = other := by
  obtain ⟨_, firstRun⟩ := first #[]
  obtain ⟨_, secondRun⟩ := second #[]
  rw [firstRun] at secondRun
  cases secondRun
  exact ⟨rfl, rfl⟩

theorem pure (value : Value) (source : Source) :
    Ends (Pure.pure value) source (.ok value) source :=
  fun journal => ⟨journal, rfl⟩

theorem ofExcept (outcome : Except Fault Value) (source : Source) :
    Ends (Procedure.ofExcept outcome) source outcome source :=
  fun journal => ⟨journal, rfl⟩

theorem note (event : Event) (source : Source) :
    Ends (Lab.note event) source (.ok ()) source :=
  fun journal => ⟨journal.push event, rfl⟩

theorem noteIf (condition : Bool) (event : Event) (source : Source) :
    Ends (Lab.noteIf condition event) source (.ok ()) source := by
  cases condition with
  | false => exact pure () source
  | true => exact note event source

theorem draw (step : Source → Value × Source) (source : Source) :
    Ends (Lab.draw step) source (.ok (step source).1) (step source).2 :=
  fun journal => ⟨journal, rfl⟩

theorem choosePair [DrawSource Source] (length : Nat) (source : Source) :
    Ends (Lab.choosePair length) source
      ((DrawSource.nextPair length).run source).1
      ((DrawSource.nextPair length).run source).2 :=
  fun journal => ⟨journal, rfl⟩

/-- A sequence goes on from the source that its first part leaves. -/
theorem bind {value : Value} {next : Value → Lab Source Result}
    {outcome : Except Fault Result}
    (first : Ends procedure source (.ok value) middle)
    (second : Ends (next value) middle outcome after) :
    Ends (procedure >>= next) source outcome after := by
  intro journal
  obtain ⟨noted, done⟩ := first journal
  obtain ⟨later, ended⟩ := second noted
  exact ⟨later, (Procedure.run_bind_of_ok done).trans ended⟩

/-- A sequence ends where its first part fails. -/
theorem bind_error {fault : Fault} {next : Value → Lab Source Result}
    (failed : Ends procedure source (.error fault) after) :
    Ends (procedure >>= next) source (.error fault) after := by
  intro journal
  obtain ⟨noted, ended⟩ := failed journal
  exact ⟨noted, Procedure.run_bind_of_error ended⟩

/-- An attempt ends with the outcome itself. -/
theorem attempt {outcome : Except Fault Value}
    (ends : Ends procedure source outcome after) :
    Ends procedure.attempt source (.ok outcome) after := by
  intro journal
  obtain ⟨noted, done⟩ := ends journal
  exact ⟨noted, by rw [Procedure.run_attempt, done]⟩

/-- Decoding at a bench gives what decoding gives and draws nothing. -/
theorem decode (chromosome : Chromosome) (source : Source) :
    Ends (Lab.decode chromosome) source chromosome.program source :=
  (noteIf _ _ source).bind (ofExcept chromosome.program source)

end Ends

end Lab

end NeuralGenome
