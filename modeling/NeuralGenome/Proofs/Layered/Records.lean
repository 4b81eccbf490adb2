import Mathlib.Data.List.Nodup
import NeuralGenome.Proofs.Layered.Handles

/-!
# Records of a session

The weighted layers and the sums that a session makes can be read off its
operations: each step is one operation with the session before it and the
answer, and it tells over which neurons a layer was weighted, with which
weights, or which layer was summed.

A blueprint keeps children and sums by their handles.  The records of a run
account for all children and sums that its blueprint has gained, in the order in
which they were made.
-/

namespace NeuralGenome

theorem toOption_eq_some {Value : Type} {outcome : Except Fault Value}
    {value : Value} : outcome.toOption = some value ↔ outcome = .ok value := by
  cases outcome with
  | ok other => rw [Except.toOption, Option.some.injEq, Except.ok.injEq]
  | error fault => simp only [Except.toOption, reduceCtorEq]

/--
What stands at an index among results comes from what stands there among the
elements.
-/
theorem exists_getElem?_of_mapM_eq_ok {Element Value : Type}
    {convert : Element → Except Fault Value} {elements : List Element}
    {values : List Value}
    (done : elements.mapM convert = .ok values) {index : Nat} {value : Value}
    (found : values[index]? = some value) :
    ∃ element, elements[index]? = some element ∧
      convert element = .ok value := by
  induction elements generalizing values index with
  | nil =>
      cases done
      cases found
  | cons element rest ih =>
      rw [List.mapM_cons] at done
      obtain ⟨first, converted, remaining⟩ := bind_eq_ok.mp done
      obtain ⟨others, later, returned⟩ := bind_eq_ok.mp remaining
      cases returned
      cases index with
      | zero =>
          cases found
          exact ⟨element, rfl, converted⟩
      | succ index => exact ih later found

/-! ## Records -/

/--
The making of a layer of children: over which neurons, under which weights, and
where.
-/
structure Weighting where
  parents : Layer
  weights : List Number
  /-- The place of the children among the layers. -/
  place : Nat
  children : Layer
deriving DecidableEq

/-- The making of a sum: of the layer at which place, as it was then. -/
structure Summing where
  place : Nat
  layer : Layer
  neuron : Int
deriving DecidableEq

namespace Session

/--
An operation that succeeded, between the session before it and its answer.
-/
structure Step where
  before : Session
  operation : Operation
  answer : Answer

namespace Step

/-- The weighted layer that a step makes, if it makes one. -/
def weighting? : Step → Option Weighting
  | ⟨before, .weighted position weights, .layer children⟩ => do
      let parents ← ListPosition.get? before.layers position
      return ⟨parents, weights, before.layers.length, children⟩
  | _ => none

/-- The sum that a step makes, if it makes one. -/
def summing? : Step → Option Summing
  | ⟨before, .sum position, .number neuron⟩ => do
      let place ← ListPosition.place? before.layers.length position
      let layer ← before.layers[place]?
      return ⟨place, layer, neuron⟩
  | _ => none

end Step

/-- The steps of operations from a session, by their answers. -/
def steps (session : Session) : List Operation → List Answer → List Step
  | operation :: operations, answer :: answers =>
      ⟨session, operation, answer⟩ ::
        ((perform operation).run session).2.steps operations answers
  | _, _ => []

/-- The weighted layers that steps make. -/
def weightings (steps : List Step) : List Weighting :=
  steps.flatMap (·.weighting?.toList)

/-- The sums that steps make. -/
def summings (steps : List Step) : List Summing :=
  steps.flatMap (·.summing?.toList)

end Session

/-! ## Children and sums of a blueprint -/

/-- A child with its parent and its weight. -/
structure Branch where
  child : Nat
  parent : Nat
  weight : Binary64

/-- The branch that a neuron is, if it is a child. -/
def Origin.branch? : Origin × Nat → Option Branch
  | (.child parent weight, handle) => some ⟨handle, parent, weight⟩
  | _ => none

/-- The layer that a neuron sums, and its handle, if it is a sum. -/
def Origin.total? : Origin × Nat → Option (Layer × Int)
  | (.total layer, handle) => some (layer.map Int.ofNat, handle)
  | _ => none

namespace Blueprint

variable (blueprint : Blueprint)

/-- The children, in the order of their handles. -/
def branches : List Branch :=
  blueprint.origins.zipIdx.filterMap Origin.branch?

/-- The sums, in the order of their handles. -/
def totals : List (Layer × Int) :=
  blueprint.origins.zipIdx.filterMap Origin.total?

theorem branches_append (origins : List Origin) :
    (blueprint.append origins).branches = blueprint.branches ++
      (origins.zipIdx blueprint.fresh).filterMap Origin.branch? := by
  rw [branches, append, List.zipIdx_append, List.filterMap_append, Nat.zero_add]
  rfl

theorem totals_append (origins : List Origin) :
    (blueprint.append origins).totals = blueprint.totals ++
      (origins.zipIdx blueprint.fresh).filterMap Origin.total? := by
  rw [totals, append, List.zipIdx_append, List.filterMap_append, Nat.zero_add]
  rfl

variable {blueprint}

theorem mem_branches_iff {branch : Branch} :
    branch ∈ blueprint.branches ↔
      blueprint.origins[branch.child]? =
        some (.child branch.parent branch.weight) := by
  rw [branches, List.mem_filterMap]
  constructor
  · rintro ⟨⟨origin, handle⟩, listed, found⟩
    cases origin with
    | child parent weight =>
        cases found
        exact List.mem_zipIdx_iff_getElem?.mp listed
    | x | y | constant _ | random | total _ => cases found
  · intro stands
    exact ⟨(.child branch.parent branch.weight, branch.child),
      List.mem_zipIdx_iff_getElem?.mpr stands, rfl⟩

theorem mem_totals_iff {layer : Layer} {neuron : Int} :
    (layer, neuron) ∈ blueprint.totals ↔
      ∃ (members : List Nat) (handle : Nat),
        blueprint.origins[handle]? = some (.total members) ∧
          layer = members.map Int.ofNat ∧ neuron = handle := by
  rw [totals, List.mem_filterMap]
  constructor
  · rintro ⟨⟨origin, handle⟩, listed, found⟩
    cases origin with
    | total members =>
        cases found
        exact ⟨members, handle, List.mem_zipIdx_iff_getElem?.mp listed,
          rfl, rfl⟩
    | x | y | constant _ | random | child _ _ => cases found
  · rintro ⟨members, handle, stands, rfl, rfl⟩
    exact ⟨(.total members, handle),
      List.mem_zipIdx_iff_getElem?.mpr stands, rfl⟩

/-- Sums have ascending handles. -/
theorem pairwise_totals (blueprint : Blueprint) :
    blueprint.totals.Pairwise fun first second => first.2 < second.2 := by
  have ascending : blueprint.origins.zipIdx.Pairwise fun first second =>
    first.2 < second.2 := by
    rw [← List.pairwise_map (f := Prod.snd), List.zipIdx_map_snd]
    exact List.pairwise_lt_range'
  refine ascending.filterMap _ ?_
  rintro ⟨origin, handle⟩ ⟨other, handle'⟩ earlier total found total' found'
  cases origin with
  | total _ =>
      cases other with
      | total _ =>
          cases found
          cases found'
          exact Int.ofNat_lt.mpr earlier
      | x | y | constant _ | random | child _ _ => cases found'
  | x | y | constant _ | random | child _ _ => cases found

/-- Children that are made over parents take the next handles, in order. -/
theorem filterMap_branch?_children (handle : Nat) {parents : List Nat}
    {values : List Binary64} (sized : values.length = parents.length) :
    let grown :=
      ((List.zipWith Origin.child parents values).zipIdx handle).filterMap
        Origin.branch?
    grown.map Branch.child = List.range' handle parents.length ∧
      grown.map Branch.parent = parents ∧ grown.map Branch.weight = values := by
  induction parents generalizing values handle with
  | nil => exact ⟨rfl, rfl, (List.length_eq_zero_iff.mp sized).symm⟩
  | cons parent rest ih =>
      cases values with
      | nil => cases sized
      | cons value others =>
          obtain ⟨children, parents, weights⟩ :=
            ih (handle + 1) (Nat.succ.inj sized)
          exact ⟨congrArg (handle :: ·) children,
            congrArg (parent :: ·) parents, congrArg (value :: ·) weights⟩

theorem filterMap_total?_children (handle : Nat) (parents : List Nat)
    (values : List Binary64) :
    ((List.zipWith Origin.child parents values).zipIdx handle).filterMap
      Origin.total? = [] := by
  induction parents generalizing values handle with
  | nil => rfl
  | cons parent rest ih =>
      cases values with
      | nil => rfl
      | cons value others => exact ih (handle + 1) others

/-! ## Layers that grow -/

/-- Layers stay in their places, and lose no neuron. -/
def Keeps (first last : Blueprint) : Prop :=
  ∀ (place : Nat) (layer : List Nat), first.layers[place]? = some layer →
    ∃ larger, last.layers[place]? = some larger ∧ layer ⊆ larger

namespace Keeps

variable {first middle last : Blueprint}

theorem of_eq (layers : last.layers = first.layers) : first.Keeps last :=
  fun _ layer found => ⟨layer, by rwa [layers], List.Subset.refl layer⟩

theorem trans (start : first.Keeps middle) (rest : middle.Keeps last) :
    first.Keeps last := by
  intro place layer found
  obtain ⟨larger, there, kept⟩ := start place layer found
  obtain ⟨largest, thereToo, keptToo⟩ := rest place larger there
  exact ⟨largest, thereToo, List.Subset.trans kept keptToo⟩

theorem length_le (keeps : first.Keeps last) :
    first.layers.length ≤ last.layers.length := by
  by_contra fewer
  have inside : last.layers.length < first.layers.length :=
    Nat.lt_of_not_le fewer
  obtain ⟨larger, found, -⟩ :=
    keeps last.layers.length _ (List.getElem?_eq_getElem inside)
  rw [List.getElem?_eq_none (Nat.le_refl _)] at found
  cases found

end Keeps

theorem keeps_addLayer (blueprint : Blueprint) (added : List Nat) :
    blueprint.Keeps (blueprint.addLayer added) := by
  intro place layer found
  obtain ⟨inside, -⟩ := List.getElem?_eq_some_iff.mp found
  exact ⟨layer, (List.getElem?_append_left inside).trans found,
    List.Subset.refl layer⟩

/-- To extend a layer is to keep the layers, and it makes no neuron. -/
theorem keeps_extend? {blueprint next : Blueprint} {position : Int}
    {neuron : Nat} (extended : blueprint.extend? position neuron = some next) :
    blueprint.Keeps next ∧ next.origins = blueprint.origins := by
  obtain ⟨place, -, rest⟩ := Option.bind_eq_some_iff.mp extended
  obtain ⟨layer, here, returned⟩ := Option.bind_eq_some_iff.mp rest
  cases returned
  refine ⟨fun other found there => ?_, rfl⟩
  by_cases same : place = other
  · subst same
    cases here.symm.trans there
    obtain ⟨inside, -⟩ := List.getElem?_eq_some_iff.mp here
    exact ⟨_, List.getElem?_set_self inside, List.subset_append_left _ _⟩
  · exact ⟨found, (List.getElem?_set_ne same).trans there,
      List.Subset.refl found⟩

end Blueprint

/-! ## Accounting -/

/-- A weighted layer with the branches that it has become. -/
structure Growth where
  weighting : Weighting
  branches : List Branch
  children : weighting.children = branches.map fun branch =>
    (branch.child : Int)
  parents : weighting.parents = branches.map fun branch => (branch.parent : Int)
  weights : weighting.weights.mapM Number.toBinary64 =
    .ok (branches.map Branch.weight)

namespace Growth

/--
The growth of the children that are made over parents under converted weights.
-/
def ofParents (place handle : Nat) {parents : List Nat} {weights : List Number}
    {values : List Binary64} (sized : values.length = parents.length)
    (converts : weights.mapM Number.toBinary64 = .ok values) : Growth where
  weighting := ⟨parents.map Int.ofNat, weights, place,
    (List.range' handle parents.length).map Int.ofNat⟩
  branches := ((List.zipWith Origin.child parents values).zipIdx
    handle).filterMap Origin.branch?
  children := by
    rw [← (Blueprint.filterMap_branch?_children handle sized).1, List.map_map]
    rfl
  parents := by
    conv => lhs; rw [← (Blueprint.filterMap_branch?_children handle sized).2.1]
    rw [List.map_map]
    rfl
  weights := by rw [(Blueprint.filterMap_branch?_children handle sized).2.2,
    converts]

theorem child_mem (growth : Growth) {branch : Branch}
    (member : branch ∈ growth.branches) :
    (branch.child : Int) ∈ growth.weighting.children := by
  rw [growth.children]
  exact List.mem_map_of_mem member

theorem parent_mem (growth : Growth) {branch : Branch}
    (member : branch ∈ growth.branches) :
    (branch.parent : Int) ∈ growth.weighting.parents := by
  rw [growth.parents]
  exact List.mem_map_of_mem member

/-- The weight at an index has the pattern that the branch there has. -/
theorem exists_weight (growth : Growth) {index : Nat} {branch : Branch}
    (found : growth.branches[index]? = some branch) :
    ∃ weight, growth.weighting.weights[index]? = some weight ∧
      weight.toBinary64 = .ok branch.weight := by
  refine exists_getElem?_of_mapM_eq_ok growth.weights ?_
  rw [List.getElem?_map, found]
  rfl

/-- Of different parents each has one branch. -/
theorem branch_eq (growth : Growth) (distinct : growth.weighting.parents.Nodup)
    {branch other : Branch} (member : branch ∈ growth.branches)
    (memberToo : other ∈ growth.branches)
    (same : branch.parent = other.parent) : branch = other := by
  rw [growth.parents] at distinct
  exact List.inj_on_of_nodup_map distinct member memberToo
    (congrArg Int.ofNat same)

theorem mapM_weights (growths : List Growth) :
    ((growths.map weighting).flatMap Weighting.weights).mapM Number.toBinary64 =
      .ok ((growths.flatMap branches).map Branch.weight) := by
  induction growths with
  | nil => rfl
  | cons growth rest ih =>
      rw [List.map_cons, List.flatMap_cons, List.mapM_append,
        growth.weights, ih, List.flatMap_cons, List.map_append]
      rfl

theorem flatMap_parents (growths : List Growth) :
    (growths.map weighting).flatMap Weighting.parents =
      (growths.flatMap branches).map fun branch => (branch.parent : Int) := by
  rw [List.flatMap_map, List.map_flatMap]
  exact List.flatMap_congr fun growth _ => growth.parents

end Growth

/--
Weighted layers and sums that account for what a blueprint has become.  Its
branches and sums are those that there were and those that are recorded; layers
have been added, and extended by more neurons.
-/
structure Blueprint.Accounts (growths : List Growth) (summings : List Summing)
    (first last : Blueprint) : Prop where
  branches : last.branches = first.branches ++ growths.flatMap Growth.branches
  totals : last.totals =
    first.totals ++ summings.map fun summing => (summing.layer, summing.neuron)
  ordered : growths.Pairwise fun growth other => growth.weighting.place <
    other.weighting.place
  places : ∀ growth ∈ growths, first.layers.length ≤ growth.weighting.place ∧
    growth.weighting.place < last.layers.length
  keeps : first.Keeps last
  summed : ∀ summing ∈ summings, ∃ larger,
    last.layers[summing.place]? = some larger ∧
    summing.layer ⊆ larger.map Int.ofNat

namespace Blueprint.Accounts

variable {growths others : List Growth} {summings more : List Summing}
  {first middle last : Blueprint}

/-- Nothing is recorded when the children and the sums are the same. -/
theorem quiet (branches : last.branches = first.branches)
    (totals : last.totals = first.totals)
    (keeps : first.Keeps last) : Accounts [] [] first last where
  branches := branches.trans (List.append_nil _).symm
  totals := totals.trans (List.append_nil _).symm
  ordered := List.Pairwise.nil
  places := fun _ member => absurd member List.not_mem_nil
  keeps := keeps
  summed := fun _ member => absurd member List.not_mem_nil

/-- Nothing is recorded when there are no new neurons. -/
theorem idle (origins : last.origins = first.origins)
    (keeps : first.Keeps last) : Accounts [] [] first last :=
  .quiet (by rw [Blueprint.branches, origins]; rfl)
    (by rw [Blueprint.totals, origins]; rfl) keeps

/-- The records of one run after another. -/
theorem append (start : Accounts growths summings first middle)
    (rest : Accounts others more middle last) :
    Accounts (growths ++ others) (summings ++ more) first last where
  branches := by
    rw [rest.branches, start.branches, List.flatMap_append, List.append_assoc]
  totals := by
    rw [rest.totals, start.totals, List.map_append, List.append_assoc]
  ordered := by
    refine List.pairwise_append.mpr ⟨start.ordered, rest.ordered, ?_⟩
    intro growth member other memberToo
    exact Nat.lt_of_lt_of_le (start.places growth member).2
      (rest.places other memberToo).1
  places := by
    intro growth member
    rcases List.mem_append.mp member with old | new
    · obtain ⟨lower, upper⟩ := start.places growth old
      exact ⟨lower, Nat.lt_of_lt_of_le upper rest.keeps.length_le⟩
    · obtain ⟨lower, upper⟩ := rest.places growth new
      exact ⟨Nat.le_trans start.keeps.length_le lower, upper⟩
  keeps := start.keeps.trans rest.keeps
  summed := by
    intro summing member
    rcases List.mem_append.mp member with old | new
    · obtain ⟨layer, found, kept⟩ := start.summed summing old
      obtain ⟨larger, there, keptToo⟩ := rest.keeps _ layer found
      exact ⟨larger, there, List.Subset.trans kept (List.map_subset _ keptToo)⟩
    · exact rest.summed summing new

end Blueprint.Accounts

/-! ## One operation -/

/-- A neuron that is neither a child nor a sum leaves nothing to record. -/
theorem Blueprint.accounts_append (blueprint : Blueprint) {origin : Origin}
    (childless : Origin.branch? (origin, blueprint.fresh) = none)
    (sumless : Origin.total? (origin, blueprint.fresh) = none) :
    Accounts [] [] blueprint (blueprint.append [origin]) := by
  refine .quiet ?_ ?_ (.of_eq rfl)
  · rw [branches_append, List.zipIdx_singleton,
      List.filterMap_cons_none childless]
    exact List.append_nil _
  · rw [totals_append, List.zipIdx_singleton, List.filterMap_cons_none sumless]
    exact List.append_nil _

namespace Session.Realizes

variable {before after : Session} {blueprint next : Blueprint} {position : Int}
  {answer : Answer}

/--
A layer that is found in a session is the layer that its blueprint has there.
-/
theorem get?_layers (realizes : before.Realizes blueprint) (position : Int) :
    ListPosition.get? before.layers position =
      (ListPosition.get? blueprint.layers position).map (·.map Int.ofNat) := by
  rw [realizes.layers, ListPosition.get?_map]

/--
The children of a layer are recorded with their parents and their weights.
-/
theorem weighted_accounts (realizes : before.Realizes blueprint)
    {weights : List Number}
    (performed : blueprint.perform? (.weighted position weights) = some next)
    (reached : after.Realizes next)
    (ran : (Session.perform (.weighted position weights)).run before =
      (.ok answer, after)) :
    ∃ growth : Growth,
      Step.weighting? ⟨before, .weighted position weights, answer⟩ =
          some growth.weighting ∧
        Blueprint.Accounts [growth] [] blueprint next := by
  obtain ⟨neurons, located, rest⟩ := run_find_bind Session.layers ran
  obtain ⟨children, programmer, -, added⟩ := run_program_bind rest
  cases added
  obtain ⟨parents, here, rest⟩ := Option.bind_eq_some_iff.mp performed
  obtain ⟨values, converted, rest⟩ := Option.bind_eq_some_iff.mp rest
  obtain ⟨sized, returned⟩ := Option.ite_none_right_eq_some.mp rest
  cases returned
  have converts := toOption_eq_some.mp converted
  have layers : before.layers ++ [children] = (blueprint.layers ++
      [List.range' blueprint.fresh parents.length]).map (·.map Int.ofNat) :=
        reached.layers
  rw [List.map_append, ← realizes.layers] at layers
  obtain rfl :
      children = (List.range' blueprint.fresh parents.length).map Int.ofNat :=
    List.singleton_inj.mp (List.append_cancel_left layers)
  refine ⟨.ofParents before.layers.length blueprint.fresh sized
    converts, ?_, ?_⟩
  · rw [Step.weighting?, realizes.get?_layers, here]
    rfl
  · have counted : before.layers.length = blueprint.layers.length := by
      rw [realizes.layers, List.length_map]
    constructor
    case branches =>
      rw [List.flatMap_singleton]
      exact blueprint.branches_append _
    case totals =>
      refine (blueprint.totals_append _).trans (congrArg _ ?_)
      exact Blueprint.filterMap_total?_children _ _ _
    case ordered => exact List.pairwise_singleton _ _
    case places =>
      refine List.forall_mem_singleton.mpr ⟨Nat.le_of_eq counted.symm, ?_⟩
      show before.layers.length < (blueprint.layers ++ [_]).length
      rw [counted, List.length_append]
      exact Nat.lt_succ_self _
    case keeps => exact blueprint.keeps_addLayer _
    case summed => exact fun _ member => absurd member List.not_mem_nil

/-- A sum is recorded with the layer that it sums. -/
theorem sum_accounts (realizes : before.Realizes blueprint)
    (performed : blueprint.perform? (.sum position) = some next)
    (reached : after.Realizes next)
    (ran : (Session.perform (.sum position)).run before = (.ok answer, after)) :
    ∃ summing, Step.summing? ⟨before, .sum position, answer⟩ = some summing ∧
      Blueprint.Accounts [] [summing] blueprint next := by
  obtain ⟨neurons, located, rest⟩ := run_find_bind Session.layers ran
  obtain ⟨neuron, programmer, -, added⟩ := run_program_bind rest
  cases added
  obtain ⟨layer, here, returned⟩ := Option.bind_eq_some_iff.mp performed
  obtain ⟨place, found, there⟩ := Option.bind_eq_some_iff.mp here
  cases returned
  have sums : before.sums ++ [neuron] =
      (blueprint.sums ++ [blueprint.fresh]).map Int.ofNat := reached.sums
  rw [List.map_append, ← realizes.sums] at sums
  obtain rfl : neuron = (blueprint.fresh : Int) :=
    List.singleton_inj.mp (List.append_cancel_left sums)
  refine ⟨⟨place, layer.map Int.ofNat, blueprint.fresh⟩, ?_, ?_⟩
  · rw [Step.summing?, realizes.layers, List.length_map, found,
      Option.bind_eq_bind, Option.bind_some, List.getElem?_map, there]
    rfl
  · constructor
    case branches => exact blueprint.branches_append [.total layer]
    case totals => exact blueprint.totals_append [.total layer]
    case ordered => exact List.Pairwise.nil
    case places => exact fun _ member => absurd member List.not_mem_nil
    case keeps => exact .of_eq rfl
    case summed =>
      exact List.forall_mem_singleton.mpr ⟨layer, there, List.Subset.refl _⟩

/-- The records of an operation account for what its blueprint gains. -/
theorem exists_accounts {operation : Operation}
    (realizes : before.Realizes blueprint)
    (performed : blueprint.perform? operation = some next)
    (reached : after.Realizes next)
    (ran : (Session.perform operation).run before = (.ok answer, after)) :
    ∃ growths : List Growth,
      growths.map Growth.weighting =
          (Step.weighting? ⟨before, operation, answer⟩).toList ∧
        Blueprint.Accounts growths
          (Step.summing? ⟨before, operation, answer⟩).toList
          blueprint next := by
  cases operation with
  | weighted position weights =>
      obtain ⟨growth, recorded, accounts⟩ :=
        realizes.weighted_accounts performed reached ran
      exact ⟨[growth], by rw [recorded]; rfl, accounts⟩
  | sum position =>
      obtain ⟨summing, recorded, accounts⟩ :=
        realizes.sum_accounts performed reached ran
      exact ⟨[], rfl, by rw [recorded]; exact accounts⟩
  | emptyLayer =>
      cases performed
      exact ⟨[], rfl, .idle rfl (blueprint.keeps_addLayer _)⟩
  | newLayer neurons =>
      obtain ⟨-, returned⟩ := Option.ite_none_right_eq_some.mp performed
      cases returned
      exact ⟨[], rfl, .idle rfl (blueprint.keeps_addLayer _)⟩
  | x position | y position =>
      obtain ⟨keeps, origins⟩ := Blueprint.keeps_extend? performed
      exact ⟨[], rfl, .idle origins keeps⟩
  | constant position signal =>
      obtain ⟨value, -, extended⟩ := Option.bind_eq_some_iff.mp performed
      obtain ⟨keeps, origins⟩ := Blueprint.keeps_extend? extended
      exact ⟨[], rfl,
        (blueprint.accounts_append rfl rfl).append (.idle origins keeps)⟩
  | random position =>
      obtain ⟨keeps, origins⟩ := Blueprint.keeps_extend? performed
      exact ⟨[], rfl,
        (blueprint.accounts_append rfl rfl).append (.idle origins keeps)⟩
  | assign output position =>
      obtain ⟨neuron, -, returned⟩ := Option.bind_eq_some_iff.mp performed
      cases returned
      exact ⟨[], rfl, by cases output <;> exact .idle rfl (.of_eq rfl)⟩
  | count position =>
      obtain ⟨layer, -, returned⟩ := Option.bind_eq_some_iff.mp performed
      cases returned
      exact ⟨[], rfl, .idle rfl (.of_eq rfl)⟩
  | program =>
      cases performed
      exact ⟨[], rfl, .idle rfl (.of_eq rfl)⟩
  | allocate => cases performed

/-- The records of a run account for all that its blueprint has gained. -/
theorem exists_accounts_steps {operations : List Operation}
    {answers : List Answer}
    (realizes : before.Realizes blueprint) (admitted : before.Admits operations)
    (ran : (operations.mapM Session.perform).run before =
      (.ok answers, after)) :
    ∃ (last : Blueprint) (growths : List Growth), after.Realizes last ∧
      growths.map Growth.weighting =
          weightings (before.steps operations answers) ∧
        Blueprint.Accounts growths (summings (before.steps operations answers))
          blueprint last := by
  induction operations generalizing before blueprint answers with
  | nil =>
      cases ran
      exact ⟨blueprint, [], realizes, rfl, .idle rfl (.of_eq rfl)⟩
  | cons operation rest ih =>
      obtain ⟨answer, answers, middle, first, later, rfl⟩ :=
        Procedure.run_mapM_cons_eq_ok.mp ran
      obtain ⟨allowed, admitted⟩ := admitted
      rw [first] at admitted
      obtain ⟨next, performed, reached⟩ := realizes.perform allowed first
      obtain ⟨growths, recorded, accounts⟩ :=
        realizes.exists_accounts performed reached first
      obtain ⟨last, others, finished, recordedToo, accountsToo⟩ :=
        ih reached admitted later
      have steps : before.steps (operation :: rest) (answer :: answers) =
          ⟨before, operation, answer⟩ :: middle.steps rest answers := by
        rw [Session.steps, first]
      refine ⟨last, growths ++ others, finished, ?_, ?_⟩
      · rw [steps, List.map_append, recorded, recordedToo]
        rfl
      · rw [steps]
        exact accounts.append accountsToo

end Session.Realizes

end NeuralGenome
