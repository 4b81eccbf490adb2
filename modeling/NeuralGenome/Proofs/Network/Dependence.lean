import Mathlib.Data.Set.Defs
import NeuralGenome.Proofs.Network.Series

/-!
# What signals depend on

A new signal depends on the stimulus and on the signals that its neuron reads.
So two networks that are alike at the neurons in question, and that fire with
the same stimulus, agree there after a firing if they agreed before it on all
that is read.  `Network.Settles.agree` says so for two sets of neurons: those
where agreement is asked for, and those where it is given.  The first must be
closed under the links to neurons that come before, whose signals are new when
they are read; all other links must lead into the second.

For a set that is closed under all links, agreement lasts for ever
(`Network.Responds.agree`).
-/

namespace NeuralGenome

/--
A neuron finds its signal in the inputs that are bound, not in the other
signals.
-/
theorem LinkedNeuron.signal_inputs (neuron : LinkedNeuron)
    {memory other : Memory} (x : memory.x = other.x) (y : memory.y = other.y)
    (draw : Binary64) (values : List Binary64) :
    neuron.signal memory draw values = neuron.signal other draw values := by
  unfold signal
  rw [x, y]

namespace Network

/-- A neuron looks at its links, and one of them leads to another neuron. -/
def Reads (network : Network) (neuron other : Nat) : Prop :=
  ∃ linked, network.neurons[neuron]? = some linked ∧
    linked.definition.kind.readsLinks ∧ (other : Int) ∈ linked.links

theorem Reads.lt_size {network : Network} {neuron other : Nat}
    (reads : network.Reads neuron other) : neuron < network.size := by
  obtain ⟨linked, found, -⟩ := reads
  exact (List.getElem?_eq_some_iff.mp found).1

theorem Reads.lt_size_of_grounded {network : Network} {neuron other : Nat}
    (grounded : network.Grounded) (reads : network.Reads neuron other) :
    other < network.size := by
  obtain ⟨linked, found, looks, member⟩ := reads
  have within := grounded linked (List.mem_of_getElem? found) looks _ member
  exact Int.ofNat_lt.mp within.2

theorem countP_isRandom (neurons : List LinkedNeuron) :
    neurons.countP LinkedNeuron.isRandom =
      (neurons.map LinkedNeuron.isRandom).count true := by
  rw [List.count, List.countP_map]
  apply List.countP_congr
  intro neuron _
  simp

/-- Networks that draw at the same positions draw in the same order. -/
theorem turn_congr {left right : Network}
    (randoms : left.neurons.map LinkedNeuron.isRandom =
      right.neurons.map LinkedNeuron.isRandom) (position : Nat) :
    left.turn position = right.turn position := by
  rw [turn, turn, countP_isRandom, countP_isRandom, List.map_take, randoms,
    List.map_take]

theorem draws_congr {left right : Network}
    (randoms : left.neurons.map LinkedNeuron.isRandom =
      right.neurons.map LinkedNeuron.isRandom) : left.draws = right.draws := by
  rw [draws, draws, countP_isRandom, countP_isRandom, randoms]

/-- Networks that draw equally often have the same stimuli. -/
theorem stimuli_congr {Source : Type} [DrawSource Source]
    {left right : Network} (draws : left.draws = right.draws) (source : Source)
    (inputs : List (Binary64 × Binary64)) :
    left.stimuli source inputs = right.stimuli source inputs := by
  induction inputs generalizing source with
  | nil => rfl
  | cons first rest ih => rw [stimuli, stimuli, draws, ih]

/-! ## One firing -/

/-- Two memories agree on a set of neurons. -/
def AgreeOn (part : Set Nat) (left right : List Binary64) : Prop :=
  ∀ neuron ∈ part, left[neuron]? = right[neuron]?

variable {left right : Network}

/--
Two networks agree on a set of neurons after a firing, if they are alike there,
receive the same, and agreed before the firing on what is read from it.
-/
theorem Settles.agree {memory other : Memory}
    {draws after after' : List Binary64} {given asked : Set Nat}
    (grounded : left.Grounded)
    (first : left.Settles memory draws after)
    (second : right.Settles other draws after')
    (x : memory.x = other.x) (y : memory.y = other.y)
    (alike : ∀ neuron ∈ asked, left.neurons[neuron]? = right.neurons[neuron]?)
    (turns : ∀ neuron ∈ asked, left.turn neuron = right.turn neuron)
    (earlier : ∀ neuron ∈ asked, ∀ link, left.Reads neuron link →
      link < neuron → link ∈ asked)
    (later : ∀ neuron ∈ asked, ∀ link, left.Reads neuron link →
      neuron ≤ link → link ∈ given)
    (before : AgreeOn given memory.signals other.signals) :
    AgreeOn asked after after' := by
  intro neuron
  -- only signals of earlier neurons are new when a neuron reads them
  induction neuron using Nat.strongRecOn with
  | ind neuron ih =>
      intro member
      cases found : left.neurons[neuron]? with
      | none =>
          have same := alike neuron member
          have outside : left.size ≤ neuron :=
            List.getElem?_eq_none_iff.mp found
          have outsideToo : right.size ≤ neuron :=
            List.getElem?_eq_none_iff.mp (same.symm.trans found)
          rw [List.getElem?_eq_none (first.length.symm ▸ outside),
            List.getElem?_eq_none (second.length.symm ▸ outsideToo)]
      | some linked =>
          have foundToo := (alike neuron member).symm.trans found
          rw [first.signal neuron linked found,
            second.signal neuron linked foundToo, turns neuron member,
            linked.signal_inputs x y]
          apply congrArg some
          apply linked.signal_congr
          intro looks
          apply List.map_congr_left
          intro link listed
          have counted : 0 ≤ link :=
            (grounded linked (List.mem_of_getElem? found) looks link listed).1
          obtain ⟨place, rfl⟩ := Int.eq_ofNat_of_zero_le counted
          have reads : left.Reads neuron place := ⟨linked, found, looks, listed⟩
          simp only [Memory.reading, List.getD_eq_getElem?_getD, Int.ofNat_lt,
            Int.toNat_natCast]
          split
          case isTrue near =>
            rw [ih place near (earlier neuron member place reads near)]
          case isFalse far =>
            rw [before place
              (later neuron member place reads (Nat.le_of_not_lt far))]

/-! ## A series of firings -/

/--
What two networks have in common when a set of neurons is shut off from all
others.
-/
structure Share (left right : Network) (part : Set Nat) : Prop where
  randoms : left.neurons.map LinkedNeuron.isRandom =
    right.neurons.map LinkedNeuron.isRandom
  alike : ∀ neuron ∈ part, left.neurons[neuron]? = right.neurons[neuron]?
  closed : ∀ neuron ∈ part, ∀ link, left.Reads neuron link → link ∈ part

/-- Networks that share a part keep agreeing on it, whatever they receive. -/
theorem Responds.agree {part : Set Nat} (share : left.Share right part)
    (grounded : left.Grounded) {stimuli : List Stimulus}
    {before before' after after' : List Binary64}
    (first : left.Responds before stimuli after)
    (second : right.Responds before' stimuli after')
    (start : AgreeOn part before before') : AgreeOn part after after' := by
  induction stimuli generalizing before before' with
  | nil =>
      cases first
      cases second
      exact start
  | cons stimulus rest ih =>
      cases first with
      | cons settles later =>
          cases second with
          | cons settles' later' =>
              refine ih later later' ?_
              exact settles.agree grounded settles' rfl rfl share.alike
                (fun neuron _ => turn_congr share.randoms neuron)
                (fun neuron member link reads _ =>
                  share.closed neuron member link reads)
                (fun neuron member link reads _ =>
                  share.closed neuron member link reads) start

end Network

end NeuralGenome
