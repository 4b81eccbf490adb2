import NeuralGenome.Proofs.Layered.Records
import NeuralGenome.Proofs.Reading.Synapses

/-!
# Descriptions of layered programs

A description knows a weighted sum by the neuron that it reads and the neuron
that reads it. When every layer of children is summed once and stands in no
other layer, the reader of a child is the sum of its layer and nothing else, so
a description gives back which neurons were weighted, under which weights, and
for which sum.
-/

namespace NeuralGenome

/-! ## Weights of a description -/

namespace Description

variable {description : Description} {source target : Int} {value : Binary64}

theorem weight_eq_zero
    (apart : ∀ synapse ∈ description.synapses, ¬synapse.joins source target) :
    description.weight source target = .zero := by
  have absent := List.find?_eq_none.mpr apart
  rw [weight, absent]

/-- A weight that all synapses between two neurons agree on is found. -/
theorem weight_eq
    (joined : ∃ synapse ∈ description.synapses, synapse.joins source target)
    (agree : ∀ synapse ∈ description.synapses, synapse.joins source target →
      synapse.weight = value) :
    description.weight source target = value := by
  rw [weight]
  cases found : description.synapses.find? fun synapse =>
    synapse.joins source target with
  | some synapse =>
      have joins := List.find?_some found
      exact agree synapse (List.mem_of_find?_eq_some found) joins
  | none =>
      obtain ⟨synapse, member, joins⟩ := joined
      exact absurd joins (List.find?_eq_none.mp found synapse member)

end Description

/-! ## Branches of a graph -/

namespace Graph.Realizes

variable {graph : Graph} {blueprint : Blueprint} {output : Output → Option Nat}

theorem inputsOf_eq {origins : List Origin}
    (realizes : graph.Realizes origins output) (handle : Nat) :
    graph.inputsOf handle = (origins[handle]?.map fun origin =>
      origin.parents.map Int.ofNat).getD [] := by
  rw [Graph.inputsOf, realizes.inputs, List.getD_eq_getElem?_getD,
    List.getElem?_map]

/-- The weighted sums of a graph are the branches of its blueprint. -/
theorem weighted_eq (realizes : graph.Realizes blueprint.origins output) :
    graph.weighted =
      blueprint.branches.map fun branch =>
        (branch.child, .pattern branch.weight) := by
  rw [Graph.weighted, realizes.neurons, Blueprint.branches]
  generalize 0 = start
  induction blueprint.origins generalizing start with
  | nil => rfl
  | cons origin rest ih =>
      cases origin with
      | child parent weight =>
          exact congrArg ((start, .pattern weight) :: ·) (ih (start + 1))
      | x | y | constant _ | random | total _ => exact ih (start + 1)

end Graph.Realizes

/--
The synapses of a sketch are the branches of the blueprint that its graph
realizes.
-/
theorem Sketch.Mirrors.synapses_eq {sketch : Sketch} {graph : Graph}
    {blueprint : Blueprint}
    {output : Output → Option Nat} (mirrors : sketch.Mirrors graph)
    (realizes : graph.Realizes blueprint.origins output) :
    sketch.synapses = blueprint.branches.map fun branch =>
      ⟨sketch.lastReader branch.child, branch.weight, some branch.parent⟩ := by
  have weighted : sketch.weighted =
      blueprint.branches.map fun branch => (branch.child, branch.weight) := by
    have encoded : Function.Injective fun entry : Nat × Binary64 =>
        (entry.1, Number.pattern entry.2) := by
      rintro ⟨neuron, weight⟩ ⟨neuron', weight'⟩ same
      cases same
      rfl
    refine List.map_injective_iff.mpr encoded ?_
    rw [mirrors.weighted, realizes.weighted_eq, List.map_map]
    rfl
  rw [synapses, weighted, List.map_map]
  refine List.map_congr_left fun branch member => ?_
  have read : sketch.lastRead branch.child = some branch.parent := by
    have reads := mirrors.map_lastRead branch.child
    rw [realizes.inputsOf_eq, Blueprint.mem_branches_iff.mp member] at reads
    obtain ⟨neuron, found, same⟩ := Option.map_eq_some_iff.mp reads
    rw [found, Int.ofNat_inj.mp same]
  show Synapse.mk _ _ (sketch.lastRead branch.child) = _
  rw [read]

/-! ## Accounts from the start -/

namespace Blueprint.Accounts

variable {growths : List Growth} {summings : List Summing}
  {blueprint : Blueprint}

/-- Weighted layers that stand at one place are the same. -/
theorem growth_eq {first : Blueprint}
    (accounts : Accounts growths summings first blueprint)
    {growth other : Growth} (member : growth ∈ growths)
    (memberToo : other ∈ growths)
    (same : growth.weighting.place = other.weighting.place) :
    growth = other := by
  have places : (growths.map fun growth => growth.weighting.place).Nodup :=
    List.pairwise_map.mpr (accounts.ordered.imp Nat.ne_of_lt)
  exact List.inj_on_of_nodup_map places member memberToo same

variable (accounts : Accounts growths summings Blueprint.initial blueprint)
include accounts

theorem mem_branches {branch : Branch} :
    branch ∈ blueprint.branches ↔
      ∃ growth ∈ growths, branch ∈ growth.branches := by
  rw [accounts.branches]
  exact List.mem_flatMap

theorem mem_totals {layer : Layer} {neuron : Int} :
    (layer, neuron) ∈ blueprint.totals ↔
      ∃ summing ∈ summings, summing.layer = layer ∧
        summing.neuron = neuron := by
  have listed : (layer, neuron) ∈ blueprint.totals ↔
      (layer, neuron) ∈ summings.map fun summing =>
        (summing.layer, summing.neuron) := by
    rw [accounts.totals]
    rfl
  rw [listed, List.mem_map]
  simp only [Prod.mk.injEq]

/-- Sums that are one neuron are the same. -/
theorem summing_eq {summing other : Summing} (member : summing ∈ summings)
    (memberToo : other ∈ summings) (same : summing.neuron = other.neuron) :
    summing = other := by
  have ascending := blueprint.pairwise_totals
  rw [accounts.totals] at ascending
  have neurons : (summings.map Summing.neuron).Nodup :=
    List.pairwise_map.mpr ((List.pairwise_map.mp ascending).imp Int.ne_of_lt)
  exact List.inj_on_of_nodup_map neurons member memberToo same

end Blueprint.Accounts

/-! ## Layers that are summed once -/

namespace Session

/--
How a description expects weighted layers to be used.  They are made only over
different neurons, none of which is a child.  Each is summed once, just as it
was made, and no other layer has one of its children.
-/
structure Layered (weightings : List Weighting) (summings : List Summing)
    (layers : List Layer) : Prop where
  distinct : ∀ weighting ∈ weightings, weighting.parents.Nodup
  plain : ∀ weighting ∈ weightings, ∀ other ∈ weightings,
    ∀ parent ∈ weighting.parents, parent ∉ other.children
  summed : ∀ weighting ∈ weightings,
    (summings.filter fun summing => summing.place = weighting.place).map
      Summing.layer = [weighting.children]
  apart : ∀ weighting ∈ weightings, ∀ entry ∈ layers.zipIdx,
    entry.2 ≠ weighting.place →
    ∀ child ∈ weighting.children, child ∉ entry.1

namespace Layered

/-- The one sum of a layer of children. -/
theorem exists_summing {weightings : List Weighting} {summings : List Summing}
    {layers : List Layer} (layered : Layered weightings summings layers)
    {weighting : Weighting} (member : weighting ∈ weightings) :
    ∃ summing ∈ summings, summing.place = weighting.place ∧
      summing.layer = weighting.children ∧
      ∀ other ∈ summings, other.place = weighting.place → other = summing := by
  obtain ⟨summing, only, layer⟩ :=
    List.map_eq_singleton_iff.mp (layered.summed weighting member)
  have chosen {other : Summing} :
      other ∈ summings ∧ other.place = weighting.place ↔ other = summing := by
    rw [← List.mem_singleton (a := other), ← only, List.mem_filter,
      decide_eq_true_iff]
  obtain ⟨listed, placed⟩ := chosen.mpr rfl
  exact ⟨summing, listed, placed, layer,
    fun other there same => chosen.mp ⟨there, same⟩⟩

section Descriptions

variable {sketch : Sketch} {graph : Graph} {blueprint : Blueprint}
  {output : Output → Option Nat} {growths : List Growth}
  {summings : List Summing}
  (layered : Layered (growths.map Growth.weighting) summings
    (blueprint.layers.map (·.map Int.ofNat)))
  (accounts : Blueprint.Accounts growths summings Blueprint.initial blueprint)
  (mirrors : sketch.Mirrors graph)
  (realizes : graph.Realizes blueprint.origins output)

include layered accounts in
/-- A child stands in no layer that is summed but its own. -/
theorem place_eq_of_mem {growth : Growth} (member : growth ∈ growths)
    {branch : Branch} (inside : branch ∈ growth.branches) {summing : Summing}
    (memberToo : summing ∈ summings)
    (among : (branch.child : Int) ∈ summing.layer) :
    summing.place = growth.weighting.place := by
  by_contra elsewhere
  obtain ⟨larger, found, kept⟩ := accounts.summed summing memberToo
  have listed : (larger.map Int.ofNat, summing.place) ∈
      (blueprint.layers.map (·.map Int.ofNat)).zipIdx := by
    rw [List.mem_zipIdx_iff_getElem?, List.getElem?_map, found]
    rfl
  exact layered.apart _ (List.mem_map_of_mem member) _ listed elsewhere _
    (growth.child_mem inside) (kept among)

include layered accounts realizes in
/-- Only the sum of its layer reads a child. -/
theorem neuron_eq_of_mem_inputsOf {growth : Growth} (member : growth ∈ growths)
    {branch : Branch} (inside : branch ∈ growth.branches) {reader : Nat}
    (reads : (branch.child : Int) ∈ graph.inputsOf reader) {summing : Summing}
    (memberToo : summing ∈ summings)
    (same : summing.place = growth.weighting.place) :
    summing.neuron = reader := by
  rw [realizes.inputsOf_eq] at reads
  cases found : blueprint.origins[reader]? with
  | none =>
      rw [found] at reads
      cases reads
  | some origin =>
      rw [found] at reads
      cases origin with
      | x | y | constant _ | random => cases reads
      | child parent weight =>
          -- then the child would be a parent itself
          obtain rfl := Int.ofNat_inj.mp (List.mem_singleton.mp reads)
          have branched :
              Branch.mk reader branch.child weight ∈ blueprint.branches :=
            Blueprint.mem_branches_iff.mpr found
          obtain ⟨other, memberOther, insideOther⟩ :=
            accounts.mem_branches.mp branched
          exact absurd (growth.child_mem inside)
            (layered.plain _ (List.mem_map_of_mem memberOther) _
              (List.mem_map_of_mem member) _ (other.parent_mem insideOther))
      | total members =>
          obtain ⟨other, memberOther, layer, numbered⟩ := accounts.mem_totals.mp
            (Blueprint.mem_totals_iff.mpr ⟨members, reader, found, rfl, rfl⟩)
          have among : (branch.child : Int) ∈ other.layer := by
            rw [layer]
            exact reads
          have placed :=
            layered.place_eq_of_mem accounts member inside memberOther among
          obtain ⟨only, -, -, -, unique⟩ :=
            layered.exists_summing (List.mem_map_of_mem member)
          rw [unique summing memberToo same, ← unique other memberOther placed,
            numbered]

include layered accounts mirrors realizes in
/-- The last neuron to read a child is the sum of its layer. -/
theorem map_lastReader {growth : Growth} (member : growth ∈ growths)
    {branch : Branch} (inside : branch ∈ growth.branches) {summing : Summing}
    (memberToo : summing ∈ summings)
    (same : summing.place = growth.weighting.place) :
    (sketch.lastReader branch.child).map Int.ofNat = some summing.neuron := by
  obtain ⟨only, -, -, layer, unique⟩ :=
    layered.exists_summing (List.mem_map_of_mem member)
  rw [← unique summing memberToo same] at layer
  obtain ⟨members, reader, stands, summed, numbered⟩ :=
    Blueprint.mem_totals_iff.mp
      (accounts.mem_totals.mpr ⟨summing, memberToo, rfl, rfl⟩)
  have reads : (branch.child : Int) ∈ graph.inputsOf reader := by
    rw [realizes.inputsOf_eq, stands]
    show (branch.child : Int) ∈ members.map Int.ofNat
    rw [← summed, layer]
    exact growth.child_mem inside
  have alone (other : Nat)
    (readsToo : (branch.child : Int) ∈ graph.inputsOf other) :
      other = reader := by
    have named :=
      layered.neuron_eq_of_mem_inputsOf accounts realizes member inside readsToo
        memberToo same
    exact Int.ofNat_inj.mp (named.symm.trans numbered)
  rw [mirrors.lastReader_eq reads alone, numbered]
  rfl

include layered accounts mirrors realizes in
/-- A synapse leads from the parent of a branch to the sum of its layer. -/
theorem exists_joins {growth : Growth} (member : growth ∈ growths)
    {branch : Branch} (inside : branch ∈ growth.branches) {summing : Summing}
    (memberToo : summing ∈ summings)
    (same : summing.place = growth.weighting.place) :
    ∃ synapse ∈ sketch.synapses,
      synapse.joins branch.parent summing.neuron := by
  refine ⟨⟨sketch.lastReader branch.child, branch.weight, some branch.parent⟩,
    ?_, ?_⟩
  · rw [mirrors.synapses_eq realizes]
    exact List.mem_map_of_mem
      (accounts.mem_branches.mpr ⟨growth, member, inside⟩)
  · rw [Synapse.joins,
      layered.map_lastReader accounts mirrors realizes member inside
        memberToo same,
      Bool.and_eq_true, beq_iff_eq, beq_iff_eq]
    exact ⟨rfl, rfl⟩

include layered accounts mirrors realizes in
/-- A synapse leads nowhere else. -/
theorem exists_of_joins {synapse : Synapse} (listed : synapse ∈ sketch.synapses)
    {source target : Int} (joins : synapse.joins source target) :
    ∃ growth ∈ growths, ∃ summing ∈ summings,
      summing.place = growth.weighting.place ∧
      ∃ branch ∈ growth.branches, source = branch.parent ∧
        target = summing.neuron ∧
        synapse.weight = branch.weight := by
  rw [mirrors.synapses_eq realizes] at listed
  obtain ⟨branch, branched, rfl⟩ := List.mem_map.mp listed
  obtain ⟨growth, member, inside⟩ := accounts.mem_branches.mp branched
  obtain ⟨summing, memberToo, same, -, -⟩ :=
    layered.exists_summing (List.mem_map_of_mem member)
  rw [Synapse.joins,
    layered.map_lastReader accounts mirrors realizes member inside
      memberToo same,
    Bool.and_eq_true, beq_iff_eq, beq_iff_eq] at joins
  obtain ⟨readee, reader⟩ := joins
  exact ⟨growth, member, summing, memberToo, same, branch, inside,
    (Option.some.inj readee).symm, (Option.some.inj reader).symm, rfl⟩

include layered accounts mirrors realizes in
/-- What leads to the sum of a layer is a branch of that layer. -/
theorem exists_branch_of_joins {growth : Growth} (member : growth ∈ growths)
    {summing : Summing} (memberToo : summing ∈ summings)
    (same : summing.place = growth.weighting.place)
    {synapse : Synapse} (listed : synapse ∈ sketch.synapses) {source : Int}
    (joins : synapse.joins source summing.neuron) :
    ∃ branch ∈ growth.branches, source = branch.parent ∧
      synapse.weight = branch.weight := by
  obtain ⟨other, memberOther, total, memberTotal, sameToo, branch, inside,
    parent, neurons, weighed⟩ :=
      layered.exists_of_joins accounts mirrors realizes listed joins
  obtain rfl := accounts.summing_eq memberToo memberTotal neurons
  obtain rfl := accounts.growth_eq member memberOther (same.symm.trans sameToo)
  exact ⟨branch, inside, parent, weighed⟩

end Descriptions

end Layered

end Session

/--
A description that gives back the weights of weighted layers, and no others.
-/
structure Description.Recovers (description : Description)
    (weightings : List Weighting) (summings : List Summing) : Prop where
  /-- There is one synapse for each weight, in order. -/
  weights : (weightings.flatMap Weighting.weights).mapM Number.toBinary64 =
    .ok (description.synapses.map Synapse.weight)
  /-- Synapses come from the neurons that are weighted, in order. -/
  readees : description.synapses.map
    (fun synapse => synapse.readee.map Int.ofNat) =
    (weightings.flatMap Weighting.parents).map some
  /--
  The weight from a neuron of a weighted layer to the sum of its children.
  -/
  linked : ∀ weighting ∈ weightings, ∀ summing ∈ summings,
    summing.place = weighting.place →
    ∀ (index : Nat) (parent : Int), weighting.parents[index]? = some parent →
      ∃ weight, weighting.weights[index]? = some weight ∧
        weight.toBinary64 = .ok (description.weight parent summing.neuron)
  /-- No other neuron is linked to such a sum. -/
  unlinked : ∀ weighting ∈ weightings, ∀ summing ∈ summings,
    summing.place = weighting.place →
    ∀ source ∉ weighting.parents,
      description.weight source summing.neuron = .zero
  /-- Nothing is linked to a neuron that is no such sum. -/
  elsewhere : ∀ target, (∀ weighting ∈ weightings, ∀ summing ∈ summings,
      summing.place = weighting.place → summing.neuron ≠ target) →
    ∀ source, description.weight source target = .zero

namespace Session

/-- Layers that are summed once are recovered from the sketch of their graph. -/
theorem Layered.recovers {sketch : Sketch} {graph : Graph}
    {blueprint : Blueprint}
    {output : Output → Option Nat} {growths : List Growth}
    {summings : List Summing}
    (layered : Layered (growths.map Growth.weighting) summings
      (blueprint.layers.map (·.map Int.ofNat)))
    (accounts : Blueprint.Accounts growths summings Blueprint.initial blueprint)
    (mirrors : sketch.Mirrors graph)
    (realizes : graph.Realizes blueprint.origins output) :
    sketch.describe.Recovers (growths.map Growth.weighting) summings := by
  have branches : blueprint.branches = growths.flatMap Growth.branches :=
    accounts.branches
  constructor
  case weights =>
    rw [Growth.mapM_weights, ← branches]
    show _ = Except.ok (sketch.synapses.map _)
    rw [mirrors.synapses_eq realizes, List.map_map]
    rfl
  case readees =>
    rw [Growth.flatMap_parents, ← branches, List.map_map]
    show sketch.synapses.map _ = _
    rw [mirrors.synapses_eq realizes, List.map_map]
    rfl
  case linked =>
    intro weighting listed summing memberToo same index parent found
    obtain ⟨growth, member, rfl⟩ := List.mem_map.mp listed
    rw [growth.parents, List.getElem?_map, Option.map_eq_some_iff] at found
    obtain ⟨branch, here, rfl⟩ := found
    have inside := List.mem_of_getElem? here
    obtain ⟨weight, given, converts⟩ := growth.exists_weight here
    refine ⟨weight, given, ?_⟩
    rw [converts]
    refine congrArg Except.ok (Description.weight_eq
      (layered.exists_joins accounts mirrors realizes member inside memberToo
        same) ?_).symm
    intro synapse listed joins
    obtain ⟨other, insideToo, parents, weighed⟩ :=
      layered.exists_branch_of_joins accounts mirrors realizes member memberToo
        same listed joins
    rw [weighed,
      growth.branch_eq (layered.distinct _ (List.mem_map_of_mem member)) inside
        insideToo (Int.ofNat_inj.mp parents)]
  case unlinked =>
    intro weighting listed summing memberToo same source strange
    obtain ⟨growth, member, rfl⟩ := List.mem_map.mp listed
    refine Description.weight_eq_zero fun synapse listed joins => strange ?_
    obtain ⟨branch, inside, rfl, -⟩ :=
      layered.exists_branch_of_joins accounts mirrors realizes member memberToo
        same listed joins
    exact growth.parent_mem inside
  case elsewhere =>
    intro target strange source
    refine Description.weight_eq_zero fun synapse listed joins => ?_
    obtain ⟨growth, member, summing, memberToo, same, branch, -, -,
      neuron, -⟩ :=
      layered.exists_of_joins accounts mirrors realizes listed joins
    exact strange _ (List.mem_map_of_mem member) summing memberToo same
      neuron.symm

/--
The description of a layered program gives back what was programmed.  Take any
operations that succeed, make layers only of neurons that exist and take no
number for nothing, with fewer neurons than there are indexes.  When layers are
weighted only over different neurons that are no children, and each layer of
children is summed once and shares no child with another layer, the description
has one synapse for each weight, in order.  The weight that it knows from a
weighted neuron to the sum of its children is the one that was given, and
between any other neurons it is zero.
-/
theorem description_recovers (operations : List Operation)
    {answers : List Answer} {session : Session}
    (ran : (operations.mapM perform).run initial = (.ok answers, session))
    (admitted : initial.Admits operations)
    (few : session.programmer.nextNeuron < 0x80000000)
    (layered : Layered (weightings (initial.steps operations answers))
      (summings (initial.steps operations answers)) session.layers) :
    session.programmer.program.description.Recovers
      (weightings (initial.steps operations answers))
      (summings (initial.steps operations answers)) := by
  obtain ⟨blueprint, growths, realizes, recorded, accounts⟩ :=
    realizes_initial.exists_accounts_steps admitted ran
  have counted : blueprint.origins.length ≤ 0x80000000 := by
    rw [realizes.programmer.next] at few
    omega
  rw [← recorded, realizes.layers] at layered
  rw [← recorded]
  exact layered.recovers accounts session.programmer.program.mirrors_compiled
    (realizes.programmer.graph counted)

/--
Two perceptrons over one layer, a third over their sums, and a sum of plain
neurons.
-/
def weave : List Operation :=
  [.emptyLayer, .x 0, .y 0, .constant 0 (.integer 3), .random 0,
    .weighted 0 [.pattern .half, .integer (-1), .pattern .two,
      .pattern .negativeZero],
    .weighted 0 [.integer 1, .integer 2, .integer 1, .pattern .half],
    .sum 2, .sum 1, .newLayer [13, 12], .x (-1),
    .weighted (-1) [.pattern .half, .integer 2, .integer (-1)],
    .sum (-1), .sum 0, .assign .dx 2, .assign .dy (-1)]

/-- The weighted layers of the weave. -/
def weaveWeightings : List Weighting :=
  [⟨[0, 1, 2, 3],
    [.pattern .half, .integer (-1), .pattern .two, .pattern .negativeZero], 1,
      [4, 5, 6, 7]⟩,
    ⟨[0, 1, 2, 3], [.integer 1, .integer 2, .integer 1, .pattern .half], 2,
      [8, 9, 10, 11]⟩,
    ⟨[13, 12, 0], [.pattern .half, .integer 2, .integer (-1)], 4, [14, 15, 16]⟩]

/-- The sums of the weave. -/
def weaveSummings : List Summing :=
  [⟨2, [8, 9, 10, 11], 12⟩, ⟨1, [4, 5, 6, 7], 13⟩, ⟨4, [14, 15, 16], 17⟩,
    ⟨0, [0, 1, 2, 3], 18⟩]

theorem description_recovers_weave :
    initial.Admits weave ∧
      ∃ answers session,
        (weave.mapM perform).run initial = (.ok answers, session) ∧
        session.programmer.nextNeuron < 0x80000000 ∧
        weightings (initial.steps weave answers) = weaveWeightings ∧
        summings (initial.steps weave answers) = weaveSummings ∧
        Layered weaveWeightings weaveSummings session.layers ∧
        session.programmer.program.description.Recovers weaveWeightings
          weaveSummings ∧
        session.programmer.program.description.weight 12 17 = .two ∧
        session.programmer.program.description.weight 1 17 = .zero ∧
        session.programmer.program.description.weight 0 18 = .zero := by
  have admitted : initial.Admits weave := by decide +kernel
  have succeeds :
      ((weave.mapM perform).run initial).1.toBool = true := by decide +kernel
  have few : ((weave.mapM perform).run initial).2.programmer.nextNeuron <
      0x80000000 := by
    decide +kernel
  have weighted : weightings (initial.steps weave
      (((weave.mapM perform).run initial).1.toOption.getD [])) =
        weaveWeightings := by
    decide +kernel
  have summed : summings (initial.steps weave
      (((weave.mapM perform).run initial).1.toOption.getD [])) =
        weaveSummings := by
    decide +kernel
  have layered : Layered weaveWeightings weaveSummings
      ((weave.mapM perform).run initial).2.layers := by
    constructor <;> decide +kernel
  rcases ran : (weave.mapM perform).run initial with ⟨outcome, session⟩
  rw [ran] at succeeds few weighted summed layered
  cases outcome with
  | error fault => cases succeeds
  | ok answers =>
      have weighted :
          weightings (initial.steps weave answers) = weaveWeightings := weighted
      have summed :
          summings (initial.steps weave answers) = weaveSummings := summed
      have recovers := description_recovers weave ran admitted few
        (by rw [weighted, summed]; exact layered)
      rw [weighted, summed] at recovers
      have top : ⟨[13, 12, 0], [.pattern .half, .integer 2, .integer (-1)], 4,
          [14, 15, 16]⟩ ∈ weaveWeightings := by decide
      have total : ⟨4, [14, 15, 16], 17⟩ ∈ weaveSummings := by decide
      obtain ⟨weight, given, converts⟩ :=
        recovers.linked _ top _ total rfl 1 12 rfl
      cases given
      have two : Number.toBinary64 (.integer 2) = .ok .two := by decide +kernel
      exact ⟨admitted, answers, session, rfl, few, weighted, summed, layered,
        recovers, Except.ok.inj (converts.symm.trans two),
        recovers.unlinked _ top _ total rfl 1 (by decide),
        recovers.elsewhere 18 (by decide) 0⟩

end Session

end NeuralGenome
