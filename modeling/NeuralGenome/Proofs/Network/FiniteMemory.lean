import Mathlib.Data.List.Chain
import Mathlib.Data.List.Perm.Subperm
import Mathlib.Order.Lattice.Nat
import NeuralGenome.Proofs.Network.Dependence

/-!
# Networks with a finite memory

A link to an earlier neuron is read in the same firing; only a link forward
reads a signal of the firing before.  If the links form no cycle, every path
along them has at most so many forward links, and what was there before that
many firings is forgotten.  The number of firings that count is one more than
the greatest number of forward links on a path.

The invariant of a series is agreement on the *shallow* neurons, from which no
path has as many forward links as there have been firings with equal stimuli.
One firing lets it reach neurons with one more forward link.
-/

namespace NeuralGenome

namespace Network

/-! ## Paths along links -/

/-- Neurons of which each reads the next. -/
def IsPath (network : Network) (path : List Nat) : Prop :=
  path.IsChain network.Reads

/-- No neuron depends on itself. -/
def Acyclic (network : Network) : Prop :=
  ∀ neuron, ¬Relation.TransGen network.Reads neuron neuron

/-- How many steps of a path lead forward, to a neuron of a greater number. -/
def ascents : List Nat → Nat
  | neuron :: other :: rest =>
      (if neuron < other then 1 else 0) + ascents (other :: rest)
  | _ => 0

/-- How many steps forward the paths in a network have. -/
def pathAscents (network : Network) : Set Nat :=
  { count | ∃ path, network.IsPath path ∧ ascents path = count }

theorem ascents_le_length (path : List Nat) : ascents path ≤ path.length := by
  induction path with
  | nil => exact Nat.le_refl 0
  | cons neuron rest ih =>
      cases rest with
      | nil => exact Nat.zero_le 1
      | cons other rest =>
          rw [ascents, List.length_cons]
          split <;> omega

variable {network : Network}

/-- A path visits neurons of the network only, unless it is a lone number. -/
theorem IsPath.lt_size (grounded : network.Grounded) {first second : Nat}
    {rest : List Nat} (isPath : network.IsPath (first :: second :: rest)) :
    ∀ neuron ∈ first :: second :: rest, neuron < network.size := by
  induction rest generalizing first second with
  | nil =>
      have reads : network.Reads first second := isPath.rel
      simpa using And.intro reads.lt_size (reads.lt_size_of_grounded grounded)
  | cons third rest ih =>
      have reads : network.Reads first second := isPath.rel
      exact List.forall_mem_cons.mpr ⟨reads.lt_size, ih isPath.tail⟩

theorem Acyclic.nodup (acyclic : network.Acyclic) {path : List Nat}
    (isPath : network.IsPath path) : path.Nodup := by
  have reached : path.IsChain (Relation.TransGen network.Reads) :=
    isPath.imp fun _ _ reads => .single reads
  refine (List.isChain_iff_pairwise.mp reached).imp ?_
  rintro neuron _ depends rfl
  exact acyclic neuron depends

theorem Acyclic.ascents_le_size (acyclic : network.Acyclic)
    (grounded : network.Grounded) {path : List Nat}
    (isPath : network.IsPath path) : ascents path ≤ network.size := by
  match path, isPath with
  | [], _ => exact Nat.zero_le _
  | [_], _ => exact Nat.zero_le _
  | first :: second :: rest, isPath =>
      have inside : first :: second :: rest ⊆ List.range network.size :=
        fun neuron member =>
          List.mem_range.mpr (isPath.lt_size grounded neuron member)
      have short := ((acyclic.nodup isPath).subperm inside).length_le
      rw [List.length_range] at short
      exact (ascents_le_length _).trans short

theorem zero_mem_pathAscents (network : Network) : 0 ∈ network.pathAscents :=
  ⟨[], List.isChain_nil, rfl⟩

/-- Without cycles some path has the most steps forward. -/
theorem Acyclic.exists_isGreatest (acyclic : network.Acyclic)
    (grounded : network.Grounded) :
    ∃ depth, IsGreatest network.pathAscents depth := by
  have bounded : BddAbove network.pathAscents := by
    refine ⟨network.size, ?_⟩
    rintro _ ⟨path, isPath, rfl⟩
    exact acyclic.ascents_le_size grounded isPath
  exact ⟨_, Nat.sSup_mem ⟨0, network.zero_mem_pathAscents⟩ bounded,
    fun _ member => le_csSup bounded member⟩

/-! ## Numbers along which links descend -/

/-- Numbers that get less along every link leave no room for a cycle. -/
theorem acyclic_of_descends (height : Nat → Nat)
    (descends : ∀ neuron link, network.Reads neuron link →
      height link < height neuron) : network.Acyclic := by
  have less {neuron other : Nat}
      (depends : Relation.TransGen network.Reads neuron other) :
      height other < height neuron := by
    induction depends with
    | single reads => exact descends _ _ reads
    | tail _ reads ih => exact (descends _ _ reads).trans ih
  exact fun neuron cycle => Nat.lt_irrefl _ (less cycle)

/-- A path whose steps all lead backward has no step forward. -/
theorem ascents_eq_zero
    (backward : ∀ neuron link, network.Reads neuron link → link < neuron)
    {path : List Nat} (isPath : network.IsPath path) : ascents path = 0 := by
  induction path with
  | nil => rfl
  | cons neuron rest ih =>
      cases rest with
      | nil => rfl
      | cons other rest =>
          have back := backward neuron other isPath.rel
          rw [ascents, if_neg (Nat.lt_asymm back), ih isPath.tail]

/-! ## Shallow neurons -/

/--
The neurons from which every path has fewer steps forward than there are
firings.
-/
def Shallow (network : Network) (firings : Nat) : Set Nat :=
  { neuron | ∀ path, network.IsPath (neuron :: path) →
    ascents (neuron :: path) < firings }

theorem shallow_zero (network : Network) : network.Shallow 0 = ∅ := by
  apply Set.eq_empty_of_forall_notMem
  intro neuron shallow
  exact Nat.not_lt_zero _ (shallow [] (List.isChain_singleton neuron))

/-- A neuron that reads an earlier one is no less deep. -/
theorem shallow_of_reads {firings neuron link : Nat}
    (shallow : neuron ∈ network.Shallow firings)
    (reads : network.Reads neuron link) : link ∈ network.Shallow firings := by
  intro path isPath
  have longer := shallow (link :: path) (isPath.cons_cons reads)
  rw [ascents] at longer
  omega

/-- A neuron that reads a later one is deeper. -/
theorem shallow_of_reads_later {firings neuron link : Nat}
    (shallow : neuron ∈ network.Shallow (firings + 1))
    (reads : network.Reads neuron link) (later : neuron < link) :
    link ∈ network.Shallow firings := by
  intro path isPath
  have longer := shallow (link :: path) (isPath.cons_cons reads)
  rw [ascents, if_pos later] at longer
  omega

/-- A firing makes agreement reach the neurons with one more step forward. -/
theorem Settles.agree_shallow (acyclic : network.Acyclic)
    (grounded : network.Grounded) {memory other : Memory}
    {draws after after' : List Binary64} {firings : Nat}
    (first : network.Settles memory draws after)
    (second : network.Settles other draws after')
    (x : memory.x = other.x) (y : memory.y = other.y)
    (before : AgreeOn (network.Shallow firings) memory.signals other.signals) :
    AgreeOn (network.Shallow (firings + 1)) after after' := by
  refine first.agree grounded second x y (fun _ _ => rfl) (fun _ _ => rfl)
    (fun _ shallow _ reads _ => shallow_of_reads shallow reads) ?_ before
  intro neuron shallow link reads later
  -- a neuron that reads itself would be a cycle
  rcases Nat.eq_or_lt_of_le later with rfl | later
  · exact absurd (.single reads) (acyclic neuron)
  · exact shallow_of_reads_later shallow reads later

theorem Responds.agree_shallow (acyclic : network.Acyclic)
    (grounded : network.Grounded) {recent : List Stimulus}
    {before before' after after' : List Binary64} {firings : Nat}
    (first : network.Responds before recent after)
    (second : network.Responds before' recent after')
    (start : AgreeOn (network.Shallow firings) before before') :
    AgreeOn (network.Shallow (firings + recent.length)) after after' := by
  induction recent generalizing before before' firings with
  | nil =>
      cases first
      cases second
      exact start
  | cons stimulus rest ih =>
      cases first with
      | cons settles later =>
          cases second with
          | cons settles' later' =>
              have reached := ih later later'
                (settles.agree_shallow acyclic grounded settles' rfl rfl start)
              rw [List.length_cons, Nat.add_comm rest.length, ← Nat.add_assoc]
              exact reached

/-! ## What is forgotten -/

/--
After so many firings the signals depend on the stimuli of these firings alone:
they are the same in any two series, of any length and from any memories, that
end with the same stimuli.
-/
def RecallsOnly (network : Network) (firings : Nat) : Prop :=
  ∀ {Source Other : Type} [DrawSource Source] [DrawSource Other]
    (source : Source) (other : Other) (memory memory' : Memory)
    (inputs inputs' : List (Binary64 × Binary64)) (recent : List Stimulus),
    memory.signals.length = network.size →
    memory'.signals.length = network.size → recent.length = firings →
    recent <:+ network.stimuli source inputs →
    recent <:+ network.stimuli other inputs' →
      ∃ after after',
        (network.fireAll inputs).run ⟨memory, source⟩ = (.ok (), after) ∧
        (network.fireAll inputs').run ⟨memory', other⟩ = (.ok (), after') ∧
        after.memory.signals = after'.memory.signals

theorem recallsOnly (acyclic : network.Acyclic) (grounded : network.Grounded)
    {depth : Nat} (deepest : depth ∈ upperBounds network.pathAscents) :
    network.RecallsOnly (depth + 1) := by
  intro Source Other _ _ source other memory memory' inputs inputs' recent
    sized sized' counted ending ending'
  obtain ⟨after, run, response, -, -⟩ :=
    run_fireAll grounded inputs memory source sized
  obtain ⟨after', run', response', -, -⟩ :=
    run_fireAll grounded inputs' memory' other sized'
  refine ⟨after, after', run, run', ?_⟩
  obtain ⟨earlier, split⟩ := ending
  obtain ⟨earlier', split'⟩ := ending'
  rw [← split] at response
  rw [← split'] at response'
  obtain ⟨middle, -, recently⟩ := response.of_append
  obtain ⟨middle', -, recently'⟩ := response'.of_append
  have nothing : AgreeOn (network.Shallow 0) middle middle' := by
    intro neuron shallow
    rw [shallow_zero] at shallow
    exact absurd shallow (Set.notMem_empty neuron)
  have agreed := recently.agree_shallow acyclic grounded recently' nothing
  apply List.ext_getElem?
  intro neuron
  apply agreed neuron
  intro path isPath
  rw [Nat.zero_add, counted]
  exact Nat.lt_succ_of_le (deepest ⟨neuron :: path, isPath, rfl⟩)

/-- Under constant inputs a network that does not draw comes to rest. -/
theorem RecallsOnly.exists_rest {firings : Nat}
    (recalls : network.RecallsOnly firings) (quiet : network.draws = 0)
    {Source : Type} [DrawSource Source] (source : Source) (memory : Memory)
    (sized : memory.signals.length = network.size)
    (inputs : Binary64 × Binary64) :
    ∃ rest, ∀ further, ∃ after,
      (network.fireAll (List.replicate (firings + further) inputs)).run
          ⟨memory, source⟩ = (.ok (), after) ∧
        after.memory.signals = rest := by
  have recent (further : Nat) :
      List.replicate firings (⟨inputs.1, inputs.2, []⟩ : Stimulus) <:+
        network.stimuli source (List.replicate (firings + further) inputs) := by
    rw [stimuli_replicate quiet, Nat.add_comm, List.replicate_add]
    exact List.suffix_append _ _
  obtain ⟨first, -, run, -, -⟩ := recalls source source memory memory _ _ _
    sized sized List.length_replicate (recent 0) (recent 0)
  refine ⟨first.memory.signals, ?_⟩
  intro further
  obtain ⟨after, last, ended, run', same⟩ :=
    recalls source source memory memory _ _ _ sized sized
      List.length_replicate (recent further) (recent 0)
  rw [run] at run'
  cases run'
  exact ⟨after, ended, same⟩

/--
A network without cycles has a finite memory.  Some path has the most steps
forward, and after one firing more than these the signals depend on the stimuli
of these firings only; without draws and under constant inputs they have come to
rest.  Where all links lead backward a single firing determines all signals.
-/
theorem finite_memory (network : Network) (grounded : network.Grounded) :
    (network.Acyclic →
      ∃ depth, IsGreatest network.pathAscents depth ∧
        network.RecallsOnly (depth + 1) ∧
        (network.draws = 0 →
          ∀ {Source : Type} [DrawSource Source] (source : Source)
            (memory : Memory), memory.signals.length = network.size →
          ∀ inputs : Binary64 × Binary64, ∃ rest, ∀ further, ∃ after,
            (network.fireAll
                (List.replicate (depth + 1 + further) inputs)).run
              ⟨memory, source⟩ = (.ok (), after) ∧
            after.memory.signals = rest)) ∧
      ((∀ neuron link, network.Reads neuron link → link < neuron) →
        network.Acyclic ∧ IsGreatest network.pathAscents 0 ∧
          network.RecallsOnly 1) := by
  refine ⟨?_, ?_⟩
  · intro acyclic
    obtain ⟨depth, greatest⟩ := acyclic.exists_isGreatest grounded
    have recalls : network.RecallsOnly (depth + 1) :=
      recallsOnly acyclic grounded greatest.2
    refine ⟨depth, greatest, recalls, ?_⟩
    intro quiet Source _ source memory sized inputs
    exact recalls.exists_rest quiet source memory sized inputs
  · intro backward
    have acyclic : network.Acyclic := acyclic_of_descends id backward
    have greatest : IsGreatest network.pathAscents 0 := by
      refine ⟨network.zero_mem_pathAscents, ?_⟩
      rintro _ ⟨path, isPath, rfl⟩
      exact Nat.le_of_eq (ascents_eq_zero backward isPath)
    exact ⟨acyclic, greatest, recallsOnly acyclic grounded greatest.2⟩

/-- A sum that reads a later sum, which reads an input. -/
def relay : Network where
  neurons :=
    [⟨⟨.inputX, .zero⟩, []⟩,
      ⟨⟨.inputY, .zero⟩, []⟩,
      ⟨⟨.sum, .zero⟩, [3]⟩,
      ⟨⟨.sum, .zero⟩, [0]⟩]
  dx := 2
  dy := 3

theorem acyclic_relay : relay.Acyclic := by
  refine acyclic_of_descends (fun neuron => [0, 0, 2, 1].getD neuron 0) ?_
  rintro neuron link ⟨linked, found, looks, member⟩
  match neuron with
  | 0 | 1 =>
      cases found
      cases looks
  | 2 | 3 =>
      cases found
      cases List.mem_singleton.mp member
      decide
  | _ + 4 => cases found

theorem finite_memory_relay :
    relay.Grounded ∧ relay.Acyclic ∧ relay.draws = 0 ∧
      (Memory.initial 4).signals.length = relay.size ∧
      ∃ depth, IsGreatest relay.pathAscents depth ∧
        relay.RecallsOnly (depth + 1) ∧
        ∃ rest, ∀ further, ∃ after,
          (relay.fireAll
              (List.replicate (depth + 1 + further) (.one, .half))).run
            ⟨Memory.initial 4, Script.ofList []⟩ = (.ok (), after) ∧
          after.memory.signals = rest := by
  have grounded : relay.Grounded := by decide
  obtain ⟨depth, greatest, recalls, constant⟩ :=
    (finite_memory relay grounded).1 acyclic_relay
  exact ⟨grounded, acyclic_relay, rfl, rfl, depth, greatest, recalls,
    constant rfl (Script.ofList []) (Memory.initial 4) rfl (.one, .half)⟩

/--
The step forward costs a firing: one is not enough to forget the signal of the
later sum.
-/
example (signal : Binary64) :
    ((relay.fireOn (.zero, .zero)).run
        ⟨⟨.zero, .zero, [.zero, .zero, .zero, signal]⟩,
          Script.ofList []⟩).2.memory.signals[2]? =
      some (Binary64.sum [signal]) := rfl

end Network

end NeuralGenome
