import Mathlib.Data.List.NodupEquivFin
import NeuralGenome.Proofs.Reading.Synapses

/-!
# Layers that are peeled off

Peeling goes in rounds.  A round takes the synapses whose readee is the reader
of no synapse that remains; their readees are the next layer.  So a neuron is
peeled off at most once: no synapse that reads it remains.  And a reader is
peeled off only when its synapses have gone, each in the round of its readee,
which is therefore an earlier one.

Every round takes a synapse at least, so there are no more rounds than synapses,
and what cannot be peeled makes up the last layer.
-/

namespace NeuralGenome

namespace Synapse

/-- The synapses that remain after a number of rounds. -/
def remaining (synapses : List Synapse) : Nat → List Synapse
  | 0 => synapses
  | round + 1 => fed (remaining synapses round)

/-- A neuron is the readee of a synapse that a round takes. -/
def Peeled (synapses : List Synapse) (round neuron : Nat) : Prop :=
  ∃ synapse ∈ free (remaining synapses round), synapse.readee = some neuron

variable {synapses : List Synapse} {synapse : Synapse}
  {round other neuron : Nat}

theorem remaining_fed (synapses : List Synapse) (round : Nat) :
    remaining (fed synapses) round = remaining synapses (round + 1) := by
  induction round with
  | zero => rfl
  | succ round ih => exact congrArg fed ih

/-- Where a round takes nothing, no later round does. -/
theorem remaining_of_free_eq_nil (stuck : free synapses = []) (round : Nat) :
    remaining synapses round = synapses := by
  have kept : fed synapses = synapses := by
    refine List.filter_eq_self.mpr fun synapse member => ?_
    have taken := List.filter_eq_nil_iff.mp stuck synapse member
    simpa using taken
  induction round with
  | zero => rfl
  | succ round ih => rw [remaining, ih, kept]

theorem remaining_subset (synapses : List Synapse) {earlier later : Nat}
    (ordered : earlier ≤ later) :
    remaining synapses later ⊆ remaining synapses earlier := by
  induction ordered with
  | refl => exact List.Subset.refl _
  | step _ ih => exact List.Subset.trans (List.filter_subset_self _) ih

/-! ## Rounds -/

/-- The layers are those of the rounds that take a synapse. -/
theorem getElem?_peel (count : Nat) (synapses : List Synapse) (round : Nat) :
    (peel count synapses)[round]? =
      if free (remaining synapses round) = [] then none
      else some (readees count (free (remaining synapses round))) := by
  fun_induction peel count synapses generalizing round with
  | case1 synapses stuck =>
      rw [remaining_of_free_eq_nil stuck, if_pos stuck]
      rfl
  | case2 synapses found ih =>
      cases round with
      | zero => exact (if_neg found).symm
      | succ round => rw [List.getElem?_cons_succ, ih, remaining_fed]

theorem lt_length_peel_iff (count : Nat) (synapses : List Synapse)
    (round : Nat) :
    round < (peel count synapses).length ↔
      free (remaining synapses round) ≠ [] := by
  rw [← not_iff_not, Nat.not_lt, not_ne_iff, ← List.getElem?_eq_none_iff,
    getElem?_peel]
  exact ite_eq_left_iff.trans (by simp)

/-- There are no more rounds than synapses. -/
theorem length_peel_le (count : Nat) (synapses : List Synapse) :
    (peel count synapses).length ≤ synapses.length := by
  fun_induction peel count synapses with
  | case1 => exact Nat.zero_le _
  | case2 synapses found ih =>
      exact Nat.succ_le_of_lt (Nat.lt_of_le_of_lt ih (length_fed_lt found))

theorem mem_readees {count : Nat} :
    neuron ∈ readees count synapses ↔
      neuron < count ∧ ∃ synapse ∈ synapses, synapse.readee = some neuron := by
  simp [readees]

/--
What a layer consists of, as long as synapses read neurons that there are.
-/
theorem mem_getElem?_peel_iff {count : Nat} {layer : List Nat}
    (found : (peel count synapses)[round]? = some layer) :
    neuron ∈ layer ↔ neuron < count ∧ Peeled synapses round neuron := by
  rw [getElem?_peel] at found
  split at found
  · cases found
  · cases found
    exact mem_readees

/-! ## When a neuron is peeled off -/

/-- As long as a synapse remains, its reader is not peeled off. -/
theorem not_peeled_reader (member : synapse ∈ remaining synapses round)
    (reads : synapse.reader = some neuron) : ¬Peeled synapses round neuron := by
  rintro ⟨taken, freely, read⟩
  have unfed := (List.mem_filter.mp freely).2
  have fed : isFed (remaining synapses round) taken :=
    List.any_eq_true.mpr
      ⟨synapse, member, by rw [reads, read]; exact beq_self_eq_true _⟩
  rw [fed] at unfed
  cases unfed

/-- A synapse remains until its readee is peeled off. -/
theorem mem_remaining (member : synapse ∈ synapses)
    (read : synapse.readee = some neuron)
    (kept : ∀ earlier < round, ¬Peeled synapses earlier neuron) :
    synapse ∈ remaining synapses round := by
  induction round with
  | zero => exact member
  | succ round ih =>
      have here :=
        ih fun earlier before => kept earlier (Nat.lt_succ_of_lt before)
      refine List.mem_filter.mpr ⟨here, ?_⟩
      by_contra unfed
      exact kept round (Nat.lt_succ_self round)
        ⟨synapse, List.mem_filter.mpr ⟨here, by simpa using unfed⟩, read⟩

/-- A neuron that is peeled off is not peeled off again. -/
theorem Peeled.not_later {earlier later : Nat}
    (first : Peeled synapses earlier neuron)
    (ordered : earlier < later) : ¬Peeled synapses later neuron := by
  rintro ⟨synapse, freely, read⟩
  have left := remaining_subset synapses ordered (List.mem_filter.mp freely).1
  obtain ⟨feeder, member, same⟩ :=
    List.any_eq_true.mp (List.mem_filter.mp left).2
  exact not_peeled_reader member ((beq_iff_eq.mp same).trans read) first

/-- The readee of a synapse is peeled off before its reader. -/
theorem exists_peeled_readee (member : synapse ∈ synapses)
    (read : synapse.readee = some neuron) (reads : synapse.reader = some other)
    (peeled : Peeled synapses round other) :
    ∃ earlier < round, Peeled synapses earlier neuron := by
  by_contra never
  have kept : ∀ earlier < round, ¬Peeled synapses earlier neuron :=
    fun earlier before first => never ⟨earlier, before, first⟩
  exact not_peeled_reader (mem_remaining member read kept) reads peeled

end Synapse

/-! ## The layers of a sketch -/

namespace Graph

variable {graph : Graph} {neuron : Nat}

theorem mem_unweighted_iff :
    neuron ∈ graph.unweighted ↔
      ∃ definition, graph.neurons[neuron]? = some definition ∧
        definition.kind ≠ .weightedSum := by
  simp [unweighted, List.mem_zipIdx_iff_getElem?]

theorem pairwise_unweighted (graph : Graph) :
    graph.unweighted.Pairwise (· < ·) := by
  have listed :
      graph.unweighted.Sublist (List.range' 0 graph.neurons.length) := by
    rw [← List.zipIdx_map_snd]
    exact List.filter_sublist.map Prod.snd
  exact List.Pairwise.sublist listed List.pairwise_lt_range'

end Graph

namespace Sketch

/-- How many rounds of peeling there are. -/
def rounds (sketch : Sketch) : Nat :=
  (Synapse.peel sketch.count sketch.synapses).length

/-- The neurons that are no weighted sums and are not peeled off. -/
def rest (sketch : Sketch) : List Nat :=
  sketch.unweighted.filter fun neuron =>
    !(Synapse.peel sketch.count sketch.synapses).any (·.contains neuron)

/-- The layers before those without neurons are dropped. -/
def strata (sketch : Sketch) : List (List Nat) :=
  Synapse.peel sketch.count sketch.synapses ++ [sketch.rest]

variable {sketch : Sketch} {graph : Graph} {place neuron : Nat}
  {layer : List Nat}

theorem rounds_le (sketch : Sketch) : sketch.rounds ≤ sketch.synapses.length :=
  Synapse.length_peel_le _ _

theorem lt_rounds_iff (sketch : Sketch) (round : Nat) :
    round < sketch.rounds ↔
      Synapse.free (Synapse.remaining sketch.synapses round) ≠ [] :=
  Synapse.lt_length_peel_iff _ _ _

/-- The layers of the rounds, and then what is left. -/
theorem strata_eq (sketch : Sketch) :
    sketch.strata =
      ((List.range sketch.rounds).map fun round =>
        Synapse.readees sketch.count
          (Synapse.free (Synapse.remaining sketch.synapses round))) ++
            [sketch.rest] := by
  refine congrArg (· ++ [sketch.rest]) (List.ext_getElem? fun round => ?_)
  rw [List.getElem?_map]
  rcases Nat.lt_or_ge round sketch.rounds with before | after
  · rw [List.getElem?_range before, Synapse.getElem?_peel,
      if_neg ((sketch.lt_rounds_iff round).mp before)]
    rfl
  · rw [List.getElem?_eq_none after,
      List.getElem?_eq_none (by rwa [List.length_range])]
    rfl

/-- A neuron that is no weighted sum is peeled off or left over. -/
theorem mem_flatten_strata (member : neuron ∈ sketch.unweighted) :
    neuron ∈ sketch.strata.flatten := by
  rw [strata, List.flatten_append, List.mem_append, List.flatten_singleton]
  by_cases peeled : (Synapse.peel sketch.count sketch.synapses).any
    (·.contains neuron) = true
  · obtain ⟨layer, listed, contains⟩ := List.any_eq_true.mp peeled
    exact .inl (List.mem_flatten.mpr
      ⟨layer, listed, List.contains_iff_mem.mp contains⟩)
  · exact .inr (List.mem_filter.mpr ⟨member, by simpa using peeled⟩)

namespace Mirrors

theorem lt_count_of_mem_unweighted (mirrors : sketch.Mirrors graph)
    (member : neuron ∈ sketch.unweighted) : neuron < sketch.count := by
  rw [mirrors.unweighted, Graph.mem_unweighted_iff] at member
  obtain ⟨definition, found, -⟩ := member
  rw [mirrors.count]
  exact (List.getElem?_eq_some_iff.mp found).1

/-- What the last layer consists of: neurons that no round peels off. -/
theorem mem_rest_iff (mirrors : sketch.Mirrors graph) :
    neuron ∈ sketch.rest ↔
      neuron ∈ sketch.unweighted ∧ ∀ round,
        ¬Synapse.Peeled sketch.synapses round neuron := by
  rw [rest, List.mem_filter, Bool.not_eq_true', Bool.eq_false_iff]
  refine and_congr_right fun member => ?_
  have inside := mirrors.lt_count_of_mem_unweighted member
  rw [Ne, List.any_eq_true, not_exists]
  constructor
  · rintro apart round ⟨synapse, freely, read⟩
    have found := Synapse.getElem?_peel sketch.count sketch.synapses round
    rw [if_neg (List.ne_nil_of_mem freely)] at found
    refine apart _ ⟨List.mem_of_getElem? found, List.contains_iff_mem.mpr ?_⟩
    exact Synapse.mem_readees.mpr ⟨inside, synapse, freely, read⟩
  · rintro kept layer ⟨member, contains⟩
    obtain ⟨round, found⟩ := List.mem_iff_getElem?.mp member
    have peeled := (Synapse.mem_getElem?_peel_iff found).mp
      (List.contains_iff_mem.mp contains)
    exact kept round peeled.2

/--
A neuron stands in the layer of its round or, if it has none, in the last one.
-/
theorem place_cases (mirrors : sketch.Mirrors graph)
    (found : sketch.strata[place]? = some layer) (member : neuron ∈ layer) :
    neuron < sketch.count ∧
      ((place < sketch.rounds ∧ Synapse.Peeled sketch.synapses place neuron) ∨
        (place = sketch.rounds ∧ ∀ round,
          ¬Synapse.Peeled sketch.synapses round neuron)) := by
  rcases Nat.lt_or_ge place sketch.rounds with before | after
  · rw [strata, List.getElem?_append_left before] at found
    obtain ⟨inside, peeled⟩ := (Synapse.mem_getElem?_peel_iff found).mp member
    exact ⟨inside, .inl ⟨before, peeled⟩⟩
  · rw [strata, List.getElem?_append_right after, List.getElem?_singleton]
      at found
    obtain ⟨last, here⟩ := Option.ite_none_right_eq_some.mp found
    cases here
    obtain ⟨listed, kept⟩ := mirrors.mem_rest_iff.mp member
    exact ⟨mirrors.lt_count_of_mem_unweighted listed,
      .inr ⟨Nat.le_antisymm (Nat.le_of_sub_eq_zero last) after, kept⟩⟩

theorem place_unique (mirrors : sketch.Mirrors graph) {other : Nat}
    {layer' : List Nat}
    (found : sketch.strata[place]? = some layer) (member : neuron ∈ layer)
    (foundToo : sketch.strata[other]? = some layer')
    (memberToo : neuron ∈ layer') : place = other := by
  obtain ⟨-, ⟨-, first⟩ | ⟨first, kept⟩⟩ := mirrors.place_cases found member <;>
    obtain ⟨-, ⟨-, second⟩ | ⟨second, keptToo⟩⟩ :=
      mirrors.place_cases foundToo memberToo
  · rcases Nat.lt_trichotomy place other with earlier | same | later
    · exact absurd second (first.not_later earlier)
    · exact same
    · exact absurd first (second.not_later later)
  · exact absurd first (keptToo place)
  · exact absurd second (kept other)
  · exact first.trans second.symm

/--
A synapse leads from one layer to a later one, unless both its ends are in the
last.
-/
theorem place_lt_place (mirrors : sketch.Mirrors graph) {synapse : Synapse}
    (listed : synapse ∈ sketch.synapses) {readee reader : Nat}
    (read : synapse.readee = some readee) (reads : synapse.reader = some reader)
    {other : Nat} {layer' : List Nat}
    (found : sketch.strata[place]? = some layer) (member : readee ∈ layer)
    (foundToo : sketch.strata[other]? = some layer')
    (memberToo : reader ∈ layer') :
    place < other ∨ (place = sketch.rounds ∧ other = sketch.rounds) := by
  obtain ⟨-, ⟨before, peeled⟩ | ⟨last, kept⟩⟩ :=
    mirrors.place_cases found member <;>
    obtain ⟨-, ⟨-, peeledToo⟩ | ⟨lastToo, -⟩⟩ :=
      mirrors.place_cases foundToo memberToo
  · obtain ⟨earlier, ordered, first⟩ :=
      Synapse.exists_peeled_readee listed read reads peeledToo
    rcases Nat.lt_or_ge place other with forward | backward
    · exact .inl forward
    · exact absurd peeled
        (first.not_later (Nat.lt_of_lt_of_le ordered backward))
  · exact .inl (lastToo ▸ before)
  · obtain ⟨earlier, -, first⟩ :=
      Synapse.exists_peeled_readee listed read reads peeledToo
    exact absurd first (kept earlier)
  · exact .inr ⟨last, lastToo⟩

theorem pairwise_of_mem_strata (mirrors : sketch.Mirrors graph)
    (member : layer ∈ sketch.strata) : layer.Pairwise (· < ·) := by
  rw [strata_eq] at member
  rcases List.mem_append.mp member with peeled | last
  · obtain ⟨round, -, rfl⟩ := List.mem_map.mp peeled
    exact List.pairwise_lt_range.filter _
  · rw [List.mem_singleton.mp last, rest, mirrors.unweighted]
    exact graph.pairwise_unweighted.filter _

/-- No neuron stands in two layers, or twice in one. -/
theorem nodup_flatten_strata (mirrors : sketch.Mirrors graph) :
    sketch.strata.flatten.Nodup := by
  refine List.nodup_flatten.mpr ⟨?_, List.pairwise_iff_getElem.mpr ?_⟩
  · intro layer member
    exact (mirrors.pairwise_of_mem_strata member).imp Nat.ne_of_lt
  · intro first second inside insideToo ordered neuron member memberToo
    exact Nat.ne_of_lt ordered
      (mirrors.place_unique (List.getElem?_eq_getElem inside) member
        (List.getElem?_eq_getElem insideToo) memberToo)

end Mirrors

/-- Dropping the layers without neurons keeps the others in their order. -/
theorem exists_strata_getElem? (sketch : Sketch) :
    ∃ places : ℕ ↪o ℕ, ∀ place : Nat, sketch.layers[place]? =
      sketch.strata[places place]? :=
  List.sublist_iff_exists_orderEmbedding_getElem?_eq.mp List.filter_sublist

end Sketch

/-! ## Descriptions -/

/-- How the layers of a description stand to the graph that is described. -/
structure Description.Layers (description : Description) (graph : Graph) :
    Prop where
  occupied : ∀ layer ∈ description.layers, layer ≠ []
  ascending : ∀ layer ∈ description.layers, layer.Pairwise (· < ·)
  inside : ∀ layer ∈ description.layers, ∀ neuron ∈ layer, neuron < graph.count
  /--
  A weighted sum may be missing from the layers, but no neuron occurs twice in
  them.
  -/
  atMostOnce : ∀ neuron : Nat, description.layers.flatten.count neuron ≤ 1
  once : ∀ (neuron : Nat) (definition : Definition Number),
    graph.neurons[neuron]? = some definition → definition.kind ≠ .weightedSum →
      description.layers.flatten.count neuron = 1
  /--
  A synapse leads to a later layer, unless both its ends stand in the last one.
  -/
  forward : ∀ synapse ∈ description.synapses, ∀ readee reader : Nat,
    synapse.readee = some readee → synapse.reader = some reader →
      ∀ (place other : Nat) (layer layer' : List Nat),
        description.layers[place]? = some layer → readee ∈ layer →
        description.layers[other]? = some layer' → reader ∈ layer' →
          place < other ∨
            (place + 1 = description.layers.length ∧
              other + 1 = description.layers.length)
  /--
  The ends of synapses exist, so that no layer leaves out a readee for its
  number.
  -/
  ends : ∀ synapse ∈ description.synapses,
    (∀ readee, synapse.readee = some readee → readee < graph.count) ∧
      ∀ reader, synapse.reader = some reader → reader < graph.count

namespace Sketch.Mirrors

variable {sketch : Sketch} {graph : Graph}

/-- A layer that is kept and was the last layer is still the last. -/
theorem succ_eq_length {places : ℕ ↪o ℕ}
    (kept : ∀ place : Nat, sketch.layers[place]? = sketch.strata[places place]?)
    {place : Nat} {layer : List Nat}
    (found : sketch.layers[place]? = some layer)
    (last : places place = sketch.rounds) :
    place + 1 = sketch.layers.length := by
  have inside := (List.getElem?_eq_some_iff.mp found).1
  refine Nat.le_antisymm inside (List.getElem?_eq_none_iff.mp ?_)
  have later : sketch.rounds < places (place + 1) := by
    rw [← last]
    exact places.lt_iff_lt.mpr (Nat.lt_succ_self place)
  have length : sketch.strata.length = sketch.rounds + 1 := List.length_append
  rw [kept, List.getElem?_eq_none (length ▸ later)]

/-- The layers of a sketch that agrees with a sound graph. -/
theorem layers (mirrors : sketch.Mirrors graph) (sound : graph.Sound) :
    sketch.describe.Layers graph := by
  have flattened : sketch.layers.flatten = sketch.strata.flatten :=
    List.flatten_filter_not_isEmpty
  have stratum {layer : List Nat} (member : layer ∈ sketch.layers) :
      layer ∈ sketch.strata :=
    (List.mem_filter.mp member).1
  have most : ∀ neuron : Nat, sketch.layers.flatten.count neuron ≤ 1 := by
    rw [flattened]
    exact List.nodup_iff_count_le_one.mp mirrors.nodup_flatten_strata
  constructor
  case occupied =>
    intro layer member empty
    have kept := (List.mem_filter.mp member).2
    rw [empty] at kept
    cases kept
  case ascending =>
    exact fun layer member => mirrors.pairwise_of_mem_strata (stratum member)
  case inside =>
    intro layer member neuron among
    obtain ⟨place, found⟩ := List.mem_iff_getElem?.mp (stratum member)
    rw [← mirrors.count]
    exact (mirrors.place_cases found among).1
  case atMostOnce => exact most
  case once =>
    intro neuron definition found unweighted
    have listed : neuron ∈ sketch.unweighted := by
      rw [mirrors.unweighted, Graph.mem_unweighted_iff]
      exact ⟨definition, found, unweighted⟩
    refine Nat.le_antisymm (most neuron) (List.one_le_count_iff.mpr ?_)
    show neuron ∈ sketch.layers.flatten
    rw [flattened]
    exact mem_flatten_strata listed
  case forward =>
    intro synapse listed readee reader read reads place other layer layer'
      found member foundToo memberToo
    obtain ⟨places, kept⟩ := sketch.exists_strata_getElem?
    have stands := (kept place).symm.trans found
    have standsToo := (kept other).symm.trans foundToo
    rcases mirrors.place_lt_place listed read reads stands member standsToo
      memberToo with earlier | ⟨last, lastToo⟩
    · exact .inl (places.lt_iff_lt.mp earlier)
    · exact .inr
        ⟨succ_eq_length kept found last, succ_eq_length kept foundToo lastToo⟩
  case ends =>
    exact fun synapse listed => mirrors.lt_count_of_mem_synapses sound listed

end Sketch.Mirrors

/--
Every program has layers, whatever its wiring is.  Peeling ends: there are no
more rounds than synapses, each takes a synapse, and after them none is free.
The layers are what the rounds take and the neurons left over, except that
layers without neurons are dropped.  Each of them ascends and holds neurons of
the graph.  All neurons but weighted sums occur in them, no neuron occurs twice,
and every synapse between them leads forward, unless both its ends have been
left over.
-/
theorem Program.layers_partition (program : Program) :
    (∃ rounds ≤ program.description.synapses.length,
      (∀ round < rounds,
        Synapse.free (Synapse.remaining program.description.synapses round) ≠
          []) ∧
      Synapse.free (Synapse.remaining program.description.synapses rounds) =
        [] ∧
      ∃ rest, program.description.layers =
        (((List.range rounds).map fun round =>
            Synapse.readees program.compiled.count
              (Synapse.free
                (Synapse.remaining program.description.synapses round))) ++
          [rest]).filter fun layer => !layer.isEmpty) ∧
      program.description.Layers program.compiled := by
  have mirrors := program.mirrors_compiled
  refine ⟨⟨(Sketch.initial.receiveAll program.calls).rounds, Sketch.rounds_le _,
    ?_, ?_, ?_⟩, mirrors.layers program.sound_compiled⟩
  · intro round before
    exact (Sketch.lt_rounds_iff _ round).mp before
  · by_contra found
    exact Nat.lt_irrefl _ ((Sketch.lt_rounds_iff _ _).mpr found)
  · refine ⟨(Sketch.initial.receiveAll program.calls).rest, ?_⟩
    rw [← mirrors.count]
    exact congrArg _ (Sketch.strata_eq _)

end NeuralGenome
