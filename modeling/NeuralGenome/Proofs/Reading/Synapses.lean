import NeuralGenome.Proofs.Graph.Compilation
import NeuralGenome.Proofs.Reading.SketchMirror

/-!
# Synapses in a graph

A description finds the two ends of a synapse among the readings that it has
kept: the neuron that the weighted sum reads last, and the neuron that reads it
last.  The readings are the links of the graph, so the ends of a synapse can be
read off the lists of inputs.  In particular both ends are neurons of the graph.
-/

namespace NeuralGenome

open ListPosition (Within)

namespace Graph.Sound

variable {graph : Graph} {reader neuron : Nat}

/-- Only a neuron that exists reads, and what it reads exists. -/
theorem lt_of_mem_inputsOf (sound : graph.Sound)
    (read : (neuron : Int) ∈ graph.inputsOf reader) :
    reader < graph.count ∧ neuron < graph.count := by
  rcases Nat.lt_or_ge reader graph.inputs.length with inside | outside
  case inr =>
    rw [inputsOf, List.getD_eq_getElem?_getD,
      List.getElem?_eq_none outside] at read
    cases read
  rw [sound.inputs] at inside
  have listed := List.mem_of_getElem? (sound.getElem?_inputs inside)
  have within : Within graph.count neuron := sound.links _ listed _ read
  exact ⟨inside, Int.ofNat_lt.mp within.2⟩

end Graph.Sound

namespace Sketch

variable {sketch : Sketch} {neuron other : Nat}

/-- The last neuron that a neuron reads is one that it reads. -/
theorem mem_readings_of_lastRead (found : sketch.lastRead neuron = some other) :
    (neuron, other) ∈ sketch.readings := by
  obtain ⟨⟨reader, read⟩, last, rfl⟩ := Option.map_eq_some_iff.mp found
  obtain ⟨member, same⟩ := List.mem_filter.mp (List.mem_of_getLast? last)
  cases beq_iff_eq.mp same
  exact member

theorem mem_readings_of_lastReader
    (found : sketch.lastReader neuron = some other) :
    (other, neuron) ∈ sketch.readings := by
  obtain ⟨⟨reader, read⟩, last, rfl⟩ := Option.map_eq_some_iff.mp found
  obtain ⟨member, same⟩ := List.mem_filter.mp (List.mem_of_getLast? last)
  cases beq_iff_eq.mp same
  exact member

namespace Mirrors

variable {graph : Graph} {reader : Nat}

/-- A reading that is kept is a link of the graph. -/
theorem mem_readings_iff (mirrors : sketch.Mirrors graph) :
    (reader, neuron) ∈ sketch.readings ↔
      (neuron : Int) ∈ graph.inputsOf reader := by
  rw [← mirrors.readings, List.mem_map]
  constructor
  · intro kept
    exact ⟨(reader, neuron),
      List.mem_filter.mpr ⟨kept, beq_self_eq_true reader⟩, rfl⟩
  · rintro ⟨⟨other, read⟩, kept, same⟩
    obtain ⟨member, here⟩ := List.mem_filter.mp kept
    cases beq_iff_eq.mp here
    cases Int.ofNat_inj.mp same
    exact member

/-- The last neuron that a neuron reads stands last in its list of inputs. -/
theorem map_lastRead (mirrors : sketch.Mirrors graph) (neuron : Nat) :
    (sketch.lastRead neuron).map Int.ofNat =
      (graph.inputsOf neuron).getLast? := by
  rw [← mirrors.readings, List.getLast?_map, lastRead, Option.map_map]
  rfl

/-- When only one neuron reads a neuron, it is the last to read it. -/
theorem lastReader_eq (mirrors : sketch.Mirrors graph)
    (reads : (neuron : Int) ∈ graph.inputsOf reader)
    (alone : ∀ other, (neuron : Int) ∈ graph.inputsOf other → other = reader) :
    sketch.lastReader neuron = some reader := by
  cases found : sketch.lastReader neuron with
  | some last =>
      have read :=
        mirrors.mem_readings_iff.mp (mem_readings_of_lastReader found)
      rw [alone last read]
  | none =>
      have empty :=
        List.getLast?_eq_none_iff.mp (Option.map_eq_none_iff.mp found)
      have kept := mirrors.mem_readings_iff.mpr reads
      exact absurd (beq_self_eq_true neuron)
        (List.filter_eq_nil_iff.mp empty _ kept)

/-- Both ends of a synapse are neurons of the graph. -/
theorem lt_count_of_mem_synapses (mirrors : sketch.Mirrors graph)
    (sound : graph.Sound)
    {synapse : Synapse} (member : synapse ∈ sketch.synapses) :
    (∀ readee, synapse.readee = some readee → readee < graph.count) ∧
      ∀ reader, synapse.reader = some reader → reader < graph.count := by
  obtain ⟨⟨weighted, weight⟩, -, rfl⟩ := List.mem_map.mp member
  constructor
  · intro readee found
    exact (sound.lt_of_mem_inputsOf
      (mirrors.mem_readings_iff.mp (mem_readings_of_lastRead found))).2
  · intro reader found
    exact (sound.lt_of_mem_inputsOf
      (mirrors.mem_readings_iff.mp (mem_readings_of_lastReader found))).1

end Mirrors

end Sketch

/-- The sketch of a program agrees with the graph of the program. -/
theorem Program.mirrors_compiled (program : Program) :
    (Sketch.initial.receiveAll program.calls).Mirrors program.compiled :=
  Sketch.mirrors_initial.receiveAll Graph.sound_initial program.calls

end NeuralGenome
