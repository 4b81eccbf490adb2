import NeuralGenome.Network.Firing
import NeuralGenome.Random.Script

/-!
# One pass over a network

A firing overwrites the signals that it reads.  Its result is described here
without that order of events: `Network.Settles` is a system of equations, one
for each neuron, between the signals before and after a firing.  A neuron reads
the new signal of a neuron before it and the old signal of itself and of a
neuron after it, and the neurons that draw take the draws in order.

The invariant of the loop is that the signals before the current position are
new and the others old.  It gives a solution of the equations, and since every
equation refers to new signals of earlier neurons only, there is no other.
-/

namespace NeuralGenome

open ListPosition (Within)

/-! ## The equations of a firing -/

namespace LinkedNeuron

/-- Whether a neuron draws when it fires. -/
def isRandom (neuron : LinkedNeuron) : Bool :=
  neuron.definition.kind == .random

/-- The new signal of a neuron, given what it would draw and what it reads. -/
def signal (neuron : LinkedNeuron) (memory : Memory) (draw : Binary64)
    (values : List Binary64) : Binary64 :=
  match neuron.definition.kind with
  | .inputX => memory.x
  | .inputY => memory.y
  | .fixed => neuron.definition.parameter
  | .random => draw
  | .sum => Binary64.sum values
  | .weightedSum => (Binary64.sum values).mul neuron.definition.parameter
  | .minimum => Binary64.minimum values
  | .maximum => Binary64.maximum values

/-- Whether every link that a neuron looks at names one of so many neurons. -/
def Grounded (neuron : LinkedNeuron) (size : Nat) : Prop :=
  neuron.definition.kind.readsLinks → ∀ link ∈ neuron.links, Within size link

instance (neuron : LinkedNeuron) (size : Nat) :
    Decidable (neuron.Grounded size) :=
  inferInstanceAs (Decidable (_ → _))

/-- A neuron that does not draw does not depend on the draw. -/
theorem signal_draw {neuron : LinkedNeuron} {memory : Memory}
    {left right : Binary64} {values : List Binary64}
    (same : neuron.isRandom → left = right) :
    neuron.signal memory left values = neuron.signal memory right values := by
  unfold signal
  cases kind : neuron.definition.kind
  case random =>
    refine same ?_
    rw [isRandom, kind]
    rfl
  all_goals rfl

/-- A neuron that does not look at its links does not depend on them. -/
theorem signal_congr {neuron : LinkedNeuron} {memory : Memory}
    {draw : Binary64} {left right : List Binary64}
    (same : neuron.definition.kind.readsLinks → left = right) :
    neuron.signal memory draw left = neuron.signal memory draw right := by
  unfold signal
  cases kind : neuron.definition.kind <;> rw [kind] at same <;>
    first
    | rfl
    | rw [same rfl]

end LinkedNeuron

/--
What a neuron at a position reads at a link: new before it, old from it on.
-/
def Memory.reading (before after : List Binary64) (position : Nat)
    (link : Int) : Binary64 :=
  if link < position then after.getD link.toNat .zero
  else before.getD link.toNat .zero

namespace Memory

/-- A signal stored at an earlier position is no old signal any more. -/
theorem reading_store (memory : Memory) (after : List Binary64)
    {stored position : Nat} (earlier : stored < position) (fresh : Binary64)
    (link : Int) :
    reading (memory.store stored fresh).signals after position link =
      reading memory.signals after position link := by
  unfold reading
  split
  · rfl
  · have other : stored ≠ link.toNat := by omega
    rw [store, List.getD_eq_getElem?_getD, List.getElem?_set_ne other,
      List.getD_eq_getElem?_getD]

/--
Before its own signal is stored, a neuron finds in the memory what it reads.
-/
theorem reading_eq_getD {memory : Memory} {after : List Binary64}
    {position : Nat} {link : Int} (counted : 0 ≤ link)
    (kept : ∀ earlier < position, after[earlier]? = memory.signals[earlier]?) :
    reading memory.signals after position link =
      memory.signals.getD link.toNat .zero := by
  unfold reading
  split
  · rw [List.getD_eq_getElem?_getD, kept link.toNat (by omega),
      List.getD_eq_getElem?_getD]
  · rfl

end Memory

namespace Network

/-- How many neurons draw when a network fires. -/
def draws (network : Network) : Nat :=
  network.neurons.countP LinkedNeuron.isRandom

/-- The number of the draw that the neuron at a position takes, if it draws. -/
def turn (network : Network) (position : Nat) : Nat :=
  (network.neurons.take position).countP LinkedNeuron.isRandom

/-- Whether every link that a neuron looks at names a neuron. -/
def Grounded (network : Network) : Prop :=
  ∀ neuron ∈ network.neurons, neuron.Grounded network.size

instance (network : Network) : Decidable network.Grounded :=
  inferInstanceAs (Decidable (∀ _ ∈ _, _))

/-- New signals that solve the equations of a firing with given draws. -/
structure Settles (network : Network) (memory : Memory)
    (draws after : List Binary64) : Prop where
  length : after.length = network.size
  signal : ∀ (position : Nat) (neuron : LinkedNeuron),
    network.neurons[position]? = some neuron →
      after[position]? =
        some (neuron.signal memory
          (draws.getD (network.turn position) .zero)
          (neuron.links.map
            (Memory.reading memory.signals after position)))

end Network

/-! ## One neuron -/

namespace Memory

/-- A link that names a neuron is read where it points. -/
theorem signal_of_within {memory : Memory} {link : Int}
    (within : Within memory.signals.length link) :
    memory.signal link = .ok (memory.signals.getD link.toNat .zero) := by
  have inside : link.toNat < memory.signals.length := by
    have := within.1
    have := within.2
    omega
  have found : ListPosition.get? memory.signals link =
      some (memory.signals.getD link.toNat .zero) := by
    rw [ListPosition.get?, within.place?, Option.bind_some,
      List.getElem?_eq_getElem inside, List.getD_eq_getElem?_getD,
      List.getElem?_eq_getElem inside]
    rfl
  rw [signal, found]

theorem gather_of_within {memory : Memory} {links : List Int}
    (within : ∀ link ∈ links, Within memory.signals.length link) :
    memory.gather links =
      .ok (links.map fun link => memory.signals.getD link.toNat .zero) := by
  induction links with
  | nil => rfl
  | cons link rest ih =>
      rw [gather, signal_of_within (within link List.mem_cons_self),
        ih fun other member => within other (List.mem_cons_of_mem link member)]
      rfl

end Memory

namespace LinkedNeuron

variable {Source : Type} [DrawSource Source]

def spend (neuron : LinkedNeuron) (source : Source) : Source :=
  if neuron.isRandom then (DrawSource.next source).2 else source

/-- The draws of several neurons start with the draw of the first, if any. -/
theorem take_countP_cons (neuron : LinkedNeuron) (rest : List LinkedNeuron)
    (source : Source) :
    DrawSource.take ((neuron :: rest).countP isRandom) source =
      ((if neuron.isRandom then [(DrawSource.next source).1] else []) ++
          (DrawSource.take (rest.countP isRandom) (neuron.spend source)).1,
        (DrawSource.take (rest.countP isRandom) (neuron.spend source)).2) := by
  unfold spend
  cases random : neuron.isRandom with
  | true =>
      rw [List.countP_cons_of_pos random, DrawSource.take_succ]
      rfl
  | false =>
      rw [List.countP_cons_of_neg (by rw [random]; exact Bool.false_ne_true)]
      rfl

/-- After a neuron the next draw of the others is theirs. -/
theorem getD_countP_cons (neuron : LinkedNeuron) (before : List LinkedNeuron)
    (draw : Binary64) (draws : List Binary64) :
    ((if neuron.isRandom then [draw] else []) ++ draws).getD
        ((neuron :: before).countP isRandom) .zero =
      draws.getD (before.countP isRandom) .zero := by
  cases random : neuron.isRandom with
  | true =>
      rw [List.countP_cons_of_pos random]
      rfl
  | false =>
      rw [List.countP_cons_of_neg (by rw [random]; exact Bool.false_ne_true)]
      rfl

/-- A grounded neuron finds its signal and leaves the memory alone. -/
theorem run_compute {neuron : LinkedNeuron} {memory : Memory}
    (source : Source) (grounded : neuron.Grounded memory.signals.length) :
    neuron.compute.run ⟨memory, source⟩ =
      (.ok (neuron.signal memory (DrawSource.next source).1
          (neuron.links.map fun link => memory.signals.getD link.toNat .zero)),
        ⟨memory, neuron.spend source⟩) := by
  have gathered : neuron.definition.kind.readsLinks →
      memory.gather neuron.links = .ok (neuron.links.map fun link =>
        memory.signals.getD link.toNat .zero) :=
    fun reads => Memory.gather_of_within (grounded reads)
  cases kind : neuron.definition.kind <;> rw [kind] at gathered <;>
    simp only [compute, signal, spend, isRandom, kind]
  case inputX => rfl
  case inputY => rfl
  case fixed => rfl
  case random => rfl
  all_goals
    simp only [Procedure.run_bind, Procedure.run_get, Procedure.run_ofExcept,
      gathered rfl, Definition.combine, kind]
    rfl

end LinkedNeuron

/-! ## The loop -/

namespace Network

variable {Source : Type} [DrawSource Source]

/-- One step of the loop stores one signal and goes on. -/
theorem run_fireFrom_cons {neuron : LinkedNeuron} {memory : Memory}
    (position : Nat) (rest : List LinkedNeuron) (source : Source)
    (grounded : neuron.Grounded memory.signals.length) :
    (fireFrom position (neuron :: rest)).run ⟨memory, source⟩ =
      (fireFrom (position + 1) rest).run
        ⟨memory.store position
          (neuron.signal memory (DrawSource.next source).1
            (neuron.links.map fun link =>
              memory.signals.getD link.toNat .zero)),
          neuron.spend source⟩ := by
  rw [fireFrom, Procedure.run_bind_of_ok (neuron.run_compute source grounded)]
  rfl

/--
What the loop does from a position on: it keeps the signals before that position
and solves the equations of the neurons that it visits.
-/
theorem run_fireFrom (rest : List LinkedNeuron) (position : Nat)
    (memory : Memory) (source : Source)
    (sized : memory.signals.length = position + rest.length)
    (grounded : ∀ neuron ∈ rest, neuron.Grounded memory.signals.length) :
    ∃ after,
      (fireFrom position rest).run ⟨memory, source⟩ =
        (.ok (), ⟨{ memory with signals := after },
          (DrawSource.take (rest.countP LinkedNeuron.isRandom) source).2⟩) ∧
      after.length = memory.signals.length ∧
      (∀ earlier < position, after[earlier]? = memory.signals[earlier]?) ∧
      ∀ (place : Nat) (neuron : LinkedNeuron), rest[place]? = some neuron →
        after[position + place]? =
          some (neuron.signal memory
            ((DrawSource.take (rest.countP LinkedNeuron.isRandom) source).1.getD
              ((rest.take place).countP LinkedNeuron.isRandom) .zero)
            (neuron.links.map
              (Memory.reading memory.signals after (position + place)))) := by
  -- on the neurons still to visit: what stands before the position is final,
  -- so what a neuron stores is what every later neuron reads
  induction rest generalizing position memory source with
  | nil =>
      refine ⟨memory.signals, rfl, rfl, fun _ _ => rfl, ?_⟩
      intro place neuron found
      cases found
  | cons neuron rest ih =>
      have here := grounded neuron List.mem_cons_self
      have inside : position < memory.signals.length := by
        rw [sized, List.length_cons]
        omega
      let values := neuron.links.map fun link =>
        memory.signals.getD link.toNat .zero
      let fresh := neuron.signal memory (DrawSource.next source).1 values
      obtain ⟨after, run, length, kept, solved⟩ :=
        ih (position + 1) (memory.store position fresh) (neuron.spend source)
          (by
            rw [Memory.length_signals_store, sized, List.length_cons]
            omega)
          (by
            rw [Memory.length_signals_store]
            exact fun other member =>
              grounded other (List.mem_cons_of_mem neuron member))
      have keptBefore :
          ∀ earlier < position, after[earlier]? = memory.signals[earlier]? := by
        intro earlier before
        rw [kept earlier (by omega), Memory.store,
          List.getElem?_set_ne (by omega)]
      refine ⟨after, ?_, ?_, keptBefore, ?_⟩
      · rw [run_fireFrom_cons position rest source here, run,
          LinkedNeuron.take_countP_cons]
        rfl
      · rw [length, Memory.length_signals_store]
      · intro place visited found
        rw [LinkedNeuron.take_countP_cons]
        cases place with
        | zero =>
            cases found
            have stored : after[position]? = some fresh := by
              rw [kept position (by omega), Memory.store,
                List.getElem?_set_self inside]
            rw [Nat.add_zero, stored]
            apply congrArg some
            refine Eq.trans (neuron.signal_draw fun random => ?_)
              (neuron.signal_congr fun reads => ?_)
            · rw [if_pos random]
              rfl
            · apply List.map_congr_left
              intro link member
              exact (Memory.reading_eq_getD (here reads link member).1
                keptBefore).symm
        | succ place =>
            have later := solved place visited found
            have reached : position + 1 + place = position + (place + 1) := by
              omega
            rw [reached] at later
            rw [later, List.take_succ_cons, LinkedNeuron.getD_countP_cons]
            have readings :
                Memory.reading (memory.store position fresh).signals after
                    (position + (place + 1)) =
                  Memory.reading memory.signals after
                    (position + (place + 1)) :=
              funext (Memory.reading_store memory after (by omega) fresh)
            rw [readings]
            rfl

/-- A firing solves its equations and draws once for each neuron that draws. -/
theorem run_fire (network : Network) (memory : Memory) (source : Source)
    (sized : memory.signals.length = network.size)
    (grounded : network.Grounded) :
    ∃ after,
      (network.fire).run ⟨memory, source⟩ =
        (.ok (), ⟨{ memory with signals := after },
          (DrawSource.take network.draws source).2⟩) ∧
      network.Settles memory
        (DrawSource.take network.draws source).1 after := by
  have readable :
      ∀ neuron ∈ network.neurons, neuron.Grounded memory.signals.length := by
    rw [sized]
    exact grounded
  obtain ⟨after, run, length, -, solved⟩ :=
    run_fireFrom network.neurons 0 memory source
      (by rw [sized, size, Nat.zero_add]) readable
  refine ⟨after, run, length.trans sized, ?_⟩
  intro position neuron found
  have equation := solved position neuron found
  rw [Nat.zero_add] at equation
  exact equation

/-! ## Uniqueness -/

theorem Settles.unique {network : Network} {memory : Memory}
    {draws left right : List Binary64} (grounded : network.Grounded)
    (first : network.Settles memory draws left)
    (second : network.Settles memory draws right) : left = right := by
  have agree : ∀ position : Nat, left[position]? = right[position]? := by
    intro position
    -- an equation refers to new signals of earlier positions only
    induction position using Nat.strongRecOn with
    | ind position ih =>
        cases found : network.neurons[position]? with
        | none =>
            have outside : network.size ≤ position :=
              List.getElem?_eq_none_iff.mp found
            rw [List.getElem?_eq_none (first.length.symm ▸ outside),
              List.getElem?_eq_none (second.length.symm ▸ outside)]
        | some neuron =>
            rw [first.signal position neuron found,
              second.signal position neuron found]
            apply congrArg some
            apply neuron.signal_congr
            intro reads
            apply List.map_congr_left
            intro link member
            have counted :=
              (grounded neuron (List.mem_of_getElem? found) reads link member).1
            unfold Memory.reading
            split
            · rw [List.getD_eq_getElem?_getD, List.getD_eq_getElem?_getD,
                ih link.toNat (by omega)]
            · rfl
  exact List.ext_getElem? agree

/--
A firing of a network whose links name neurons succeeds, draws once for each
neuron that draws, and leaves behind the one solution of its equations.
-/
theorem fire_settles_iff (network : Network) (memory : Memory) (source : Source)
    (sized : memory.signals.length = network.size)
    (grounded : network.Grounded) :
    ∃ after,
      (network.fire).run ⟨memory, source⟩ =
        (.ok (), ⟨{ memory with signals := after },
          (DrawSource.take network.draws source).2⟩) ∧
      ∀ candidate,
        network.Settles memory
          (DrawSource.take network.draws source).1 candidate ↔
            candidate = after := by
  obtain ⟨after, run, settles⟩ := run_fire network memory source sized grounded
  refine ⟨after, run, ?_⟩
  intro candidate
  constructor
  · intro solution
    exact solution.unique grounded settles
  · rintro rfl
    exact settles

/-- A sum that reads an input twice, then itself, then a neuron after it. -/
def entangled : Network where
  neurons :=
    [⟨⟨.inputX, .zero⟩, []⟩,
      ⟨⟨.inputY, .zero⟩, []⟩,
      ⟨⟨.sum, .zero⟩, [0, 0, 2, 3]⟩,
      ⟨⟨.random, .zero⟩, []⟩]
  dx := 2
  dy := 3

theorem fire_settles_iff_entangled :
    (Memory.initial 4).signals.length = entangled.size ∧
      entangled.Grounded ∧
      ∃ after,
        (entangled.fire).run ⟨Memory.initial 4, Script.ofList [.half]⟩ =
          (.ok (), ⟨{ Memory.initial 4 with signals := after },
            (DrawSource.take 1 (Script.ofList [.half])).2⟩) ∧
        ∀ candidate,
          entangled.Settles (Memory.initial 4)
            (DrawSource.take 1 (Script.ofList [.half])).1 candidate ↔
              candidate = after :=
  ⟨rfl, by decide,
    fire_settles_iff entangled (Memory.initial 4) (Script.ofList [.half]) rfl
      (by decide)⟩

end Network

end NeuralGenome
