import NeuralGenome.Proofs.Network.Pass

/-!
# Series of firings

A network that fires again and again carries its signals from one firing to the
next.  All else comes from outside: what its inputs are bound to, and what its
random neurons draw.  The share of one firing is its *stimulus*, and
`Network.stimuli` are the stimuli of a series, read off the source.

`Network.Responds` relates the signals before and after given stimuli by the
equations of the single firings, and `Network.run_fireAll` says that a series of
firings responds to its stimuli.
-/

namespace NeuralGenome

/-- What a network receives from outside in one firing. -/
structure Stimulus where
  x : Binary64
  y : Binary64
  /-- What the random neurons draw, in ascending order. -/
  draws : List Binary64
deriving DecidableEq

namespace Memory

/-- The memory with other signals bound to the inputs. -/
def bound (memory : Memory) (inputs : Binary64 × Binary64) : Memory :=
  { memory with x := inputs.1, y := inputs.2 }

end Memory

namespace Network

/-! ## Firing with given inputs -/

section Firing

variable {Source : Type} [DrawSource Source]

/-- Bind both inputs and fire. -/
def fireOn (network : Network) (inputs : Binary64 × Binary64) :
    Procedure (Activity Source) Unit := do
  (Memory.bind (.pattern inputs.1) (.pattern inputs.2)).within Activity.memory
    fun memory activity => { activity with memory := memory }
  network.fire

/-- Fire once for each pair of inputs, in order. -/
def fireAll (network : Network) :
    List (Binary64 × Binary64) → Procedure (Activity Source) Unit
  | [] => pure ()
  | inputs :: rest => do
      network.fireOn inputs
      network.fireAll rest

/-- The stimuli of a series of firings that draws from a source. -/
def stimuli (network : Network) (source : Source) :
    List (Binary64 × Binary64) → List Stimulus
  | [] => []
  | inputs :: rest =>
      ⟨inputs.1, inputs.2, (DrawSource.take network.draws source).1⟩ ::
        network.stimuli (DrawSource.take network.draws source).2 rest

/--
A network that does not draw has the same stimulus wherever the inputs are the
same.
-/
theorem stimuli_replicate {network : Network} (quiet : network.draws = 0)
    (source : Source) (inputs : Binary64 × Binary64) (count : Nat) :
    network.stimuli source (List.replicate count inputs) =
      List.replicate count ⟨inputs.1, inputs.2, []⟩ := by
  induction count generalizing source with
  | zero => rfl
  | succ count ih =>
      rw [List.replicate_succ, stimuli, ih, quiet]
      rfl

theorem run_fireOn (network : Network) (inputs : Binary64 × Binary64)
    (memory : Memory) (source : Source) :
    (network.fireOn inputs).run ⟨memory, source⟩ =
      network.fire.run ⟨memory.bound inputs, source⟩ := rfl

theorem fireAll_singleton (network : Network) (inputs : Binary64 × Binary64) :
    (network.fireAll [inputs] : Procedure (Activity Source) Unit) =
      network.fireOn inputs := by
  rw [fireAll, fireAll]
  exact bind_pure (network.fireOn inputs)

end Firing

/-! ## Responses -/

/-- Signals before and after a series of firings with given stimuli. -/
inductive Responds (network : Network) :
    List Binary64 → List Stimulus → List Binary64 → Prop where
  | nil (signals : List Binary64) : Responds network signals [] signals
  | cons {before middle after : List Binary64} {stimulus : Stimulus}
      {rest : List Stimulus}
      (first : network.Settles ⟨stimulus.x, stimulus.y, before⟩
        stimulus.draws middle)
      (later : Responds network middle rest after) :
      Responds network before (stimulus :: rest) after

/-- A series can be cut at any firing. -/
theorem Responds.of_append {network : Network}
    {before after : List Binary64} {earlier recent : List Stimulus}
    (response : network.Responds before (earlier ++ recent) after) :
    ∃ middle, network.Responds before earlier middle ∧
      network.Responds middle recent after := by
  induction earlier generalizing before with
  | nil => exact ⟨before, .nil before, response⟩
  | cons stimulus rest ih =>
      cases response with
      | cons first later =>
          obtain ⟨middle, onTheWay, recently⟩ := ih later
          exact ⟨middle, .cons first onTheWay, recently⟩

variable {Source : Type} [DrawSource Source] {network : Network}

/--
A series of firings ends, responds to its stimuli, and draws what is in them.
-/
theorem run_fireAll (grounded : network.Grounded)
    (inputs : List (Binary64 × Binary64)) (memory : Memory) (source : Source)
    (sized : memory.signals.length = network.size) :
    ∃ after,
      (network.fireAll inputs).run ⟨memory, source⟩ = (.ok (), after) ∧
      network.Responds memory.signals (network.stimuli source inputs)
        after.memory.signals ∧
      after.memory.signals.length = network.size ∧
      after.source =
        (DrawSource.take (inputs.length * network.draws) source).2 := by
  induction inputs generalizing memory source with
  | nil =>
      refine ⟨⟨memory, source⟩, rfl, .nil memory.signals, sized, ?_⟩
      rw [List.length_nil, Nat.zero_mul]
      rfl
  | cons first rest ih =>
      obtain ⟨middle, fired, settles⟩ :=
        network.run_fire (memory.bound first) source sized grounded
      obtain ⟨after, ended, response, length, drawn⟩ :=
        ih { memory.bound first with signals := middle }
          (DrawSource.take network.draws source).2 settles.length
      refine ⟨after, ?_, .cons settles response, length, ?_⟩
      · rw [fireAll, Procedure.run_bind_of_ok
          ((network.run_fireOn first memory source).trans fired)]
        exact ended
      · rw [drawn, List.length_cons, Nat.succ_mul, Nat.add_comm,
          DrawSource.take_add]

end Network

end NeuralGenome
