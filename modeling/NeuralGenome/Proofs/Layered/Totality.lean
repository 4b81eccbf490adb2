import NeuralGenome.Proofs.Layered.Writing

/-!
# What a layered programmer can always write

A call is refused only for a number that has no finite pattern.  So every way to
add neurons succeeds when the weights have patterns and the handles fit an
index, and then the programmer realizes one neuron more, or one layer.
-/

namespace NeuralGenome

namespace Programmer

/-- A call that has a gene can be written. -/
theorem exists_run_write {call : NumericCall} {gene : Gene}
    (found : Recorder.gene call = .ok gene) (before : Programmer) :
    ∃ after, (write call).run before = (.ok (), after) :=
  ⟨_, Procedure.run_within_eq_ok.mpr ⟨_, Recorder.run_record found _, rfl⟩⟩

/-- A call of patterns with an index that operands can name can be written. -/
theorem exists_run_write_numeric {call : Call} (indexed : call.IsIndexed)
    (before : Programmer) :
    ∃ after, (write call.numeric).run before = (.ok (), after) := by
  obtain ⟨gene, found, -⟩ := Recorder.exists_gene indexed
  exact exists_run_write found before

theorem isIndexed_handle {parent : Nat} (indexed : parent < 0x80000000) :
    Call.IsIndexed (.readFrom (parent : Int)) := by
  show Binary64.leastIndex ≤ (parent : Int) ∧
    (parent : Int) ≤ Binary64.greatestIndex
  rw [Binary64.leastIndex, Binary64.greatestIndex]
  omega

/-- A neuron whose value has a pattern can be created. -/
theorem exists_run_write_create {neuron : Neuron Number}
    {converted : Neuron Binary64}
    (converts : neuron.convert Number.toBinary64 = .ok converted)
    (before : Programmer) :
    ∃ after, (write (.create neuron)).run before = (.ok (), after) := by
  have found : Recorder.gene (.create neuron) = .ok (.create converted) := by
    rw [Recorder.gene, Instruction.convert, converts]
    rfl
  exact exists_run_write found before

theorem exists_run_create {neuron : Neuron Number} {converted : Neuron Binary64}
    (converts : neuron.convert Number.toBinary64 = .ok converted)
    (before : Programmer) :
    ∃ number after, (create neuron).run before = (.ok number, after) := by
  obtain ⟨after, wrote⟩ := exists_run_write_create converts
    { before with nextNeuron := before.nextNeuron + 1 }
  exact ⟨before.nextNeuron, after, Procedure.run_bind_eq_ok.mpr
    ⟨_, _, rfl, Procedure.run_bind_eq_ok.mpr ⟨_, _, wrote, rfl⟩⟩⟩

theorem exists_run_reads {parents : List Nat}
    (indexed : ∀ parent ∈ parents, parent < 0x80000000) (before : Programmer) :
    ∃ after, ((parents.map Int.ofNat).forM fun parent =>
      write (.readFrom parent)).run before = (.ok (), after) := by
  induction parents generalizing before with
  | nil => exact ⟨before, rfl⟩
  | cons parent rest ih =>
      obtain ⟨here, others⟩ := List.forall_mem_cons.mp indexed
      obtain ⟨middle, first⟩ :=
        exists_run_write_numeric (isIndexed_handle here) before
      obtain ⟨after, later⟩ := ih others middle
      exact ⟨after, Procedure.run_forM_cons_eq_ok.mpr ⟨middle, first, later⟩⟩

theorem exists_run_weightedChild {parent : Nat} (indexed : parent < 0x80000000)
    {weight : Number}
    {value : Binary64} (converts : weight.toBinary64 = .ok value)
    (before : Programmer) :
    ∃ number after, (weightedChild parent weight).run before =
      (.ok number, after) := by
  have neuron : (Neuron.weightedSum weight).convert Number.toBinary64 =
      .ok (.weightedSum value) := by
    rw [Neuron.convert, converts]
    rfl
  obtain ⟨middle, created⟩ := exists_run_write_create neuron
    { before with nextNeuron := before.nextNeuron + 1 }
  obtain ⟨after, read⟩ :=
    exists_run_write_numeric (isIndexed_handle indexed) middle
  exact ⟨before.nextNeuron, after, Procedure.run_bind_eq_ok.mpr ⟨_, _, rfl,
    Procedure.run_bind_eq_ok.mpr ⟨_, _, created,
      Procedure.run_bind_eq_ok.mpr ⟨_, _, read, rfl⟩⟩⟩⟩

namespace Realizes

variable {before : Programmer} {origins : List Origin}
  {output : Output → Option Nat}

theorem exists_constant (realizes : before.Realizes origins output)
    {signal : Number}
    {value : Binary64} (converts : signal.toBinary64 = .ok value) :
    ∃ after, (Programmer.create (.fixed signal)).run before =
        (.ok (origins.length : Int), after) ∧
      after.Realizes (origins ++ [.constant value]) output := by
  have neuron :
      (Neuron.fixed signal).convert Number.toBinary64 = .ok (.fixed value) := by
    rw [Neuron.convert, converts]
    rfl
  obtain ⟨number, after, ran⟩ := exists_run_create neuron before
  obtain ⟨rfl, other, same, reached⟩ := realizes.constant ran
  rw [converts] at same
  cases same
  exact ⟨after, ran, reached⟩

theorem exists_random (realizes : before.Realizes origins output) :
    ∃ after, (Programmer.create .random).run before =
        (.ok (origins.length : Int), after) ∧
      after.Realizes (origins ++ [.random]) output := by
  have neuron : Neuron.convert Number.toBinary64 .random = .ok .random := rfl
  obtain ⟨number, after, ran⟩ := exists_run_create neuron before
  obtain ⟨rfl, reached⟩ := realizes.random ran
  exact ⟨after, ran, reached⟩

theorem exists_sum (realizes : before.Realizes origins output)
    {layer : List Nat} (inside : ∀ neuron ∈ layer, neuron < origins.length)
    (indexed : ∀ neuron ∈ layer, neuron < 0x80000000) :
    ∃ after, (Programmer.sum (layer.map Int.ofNat)).run before =
        (.ok (origins.length : Int), after) ∧
      after.Realizes (origins ++ [.total layer]) output := by
  have neuron : Neuron.convert Number.toBinary64 .sum = .ok .sum := rfl
  obtain ⟨number, middle, created⟩ := exists_run_create neuron before
  obtain ⟨after, read⟩ := exists_run_reads indexed middle
  have ran : (Programmer.sum (layer.map Int.ofNat)).run before =
      (.ok number, after) :=
    Procedure.run_bind_eq_ok.mpr
      ⟨_, _, created, Procedure.run_bind_eq_ok.mpr ⟨_, _, read, rfl⟩⟩
  obtain ⟨rfl, reached⟩ := realizes.sum inside ran
  exact ⟨after, ran, reached⟩

theorem exists_weighted (realizes : before.Realizes origins output)
    {parents : List Nat} (inside : ∀ parent ∈ parents, parent < origins.length)
    (indexed : ∀ parent ∈ parents, parent < 0x80000000) {weights : List Number}
    {values : List Binary64}
    (converts : weights.mapM Number.toBinary64 = .ok values)
    (enough : weights.length = parents.length) :
    values.length = parents.length ∧
      ∃ after, (Programmer.weighted (parents.map Int.ofNat) weights).run
        before =
          (.ok ((List.range' origins.length parents.length).map Int.ofNat),
            after) ∧
        after.Realizes (origins ++ List.zipWith .child parents values)
          output := by
  have succeeds : ∃ numbers after, (((parents.map Int.ofNat).zip weights).mapM
      fun pair => weightedChild pair.1 pair.2).run before =
        (.ok numbers, after) := by
    clear realizes inside
    induction parents generalizing weights values before with
    | nil => exact ⟨[], before, rfl⟩
    | cons parent rest ih =>
        cases weights with
        | nil => cases enough
        | cons weight others =>
            rw [List.mapM_cons] at converts
            obtain ⟨value, first, remaining⟩ := bind_eq_ok.mp converts
            obtain ⟨values, later, -⟩ := bind_eq_ok.mp remaining
            obtain ⟨here, indexed⟩ := List.forall_mem_cons.mp indexed
            obtain ⟨number, middle, ran⟩ :=
              exists_run_weightedChild here first before
            obtain ⟨numbers, after, ranToo⟩ :=
              @ih middle indexed _ _ later (Nat.succ.inj enough)
            exact ⟨number :: numbers, after, Procedure.run_mapM_cons_eq_ok.mpr
              ⟨number, numbers, middle, ran, ranToo, rfl⟩⟩
  obtain ⟨numbers, after, ran⟩ := succeeds
  obtain ⟨rfl, others, same, sized, reached⟩ :=
    realizes.children inside enough ran
  rw [converts] at same
  cases same
  refine ⟨sized, after, ?_, reached⟩
  rw [Programmer.weighted, List.length_map, if_pos enough]
  exact ran

theorem exists_assign (realizes : before.Realizes origins output) {neuron : Nat}
    (inside : neuron < origins.length) (indexed : neuron < 0x80000000)
    (axis : Output) :
    ∃ after, (Programmer.assign axis neuron).run before = (.ok (), after) ∧
      after.Realizes origins fun other => if other =
        axis then some neuron else output other := by
  have indexed : Call.IsIndexed (.assign axis (neuron : Int)) :=
    isIndexed_handle indexed
  obtain ⟨after, ran⟩ := exists_run_write_numeric indexed before
  exact ⟨after, ran, realizes.assign inside ran⟩

end Realizes

end Programmer

end NeuralGenome
