import NeuralGenome.Proofs.Graph.Spelling
import NeuralGenome.Proofs.Layered.Blueprint
import NeuralGenome.Proofs.Reading.Replay

/-!
# Programs that layered programmers write

A programmer numbers the neurons that it creates and names them by their
numbers; the graph builder numbers them again and wraps every index that it is
given.  Both count from the two inputs on, so a number is the handle of the
neuron that it was taken for, and no index is wrapped: it names a neuron that
exists already.

The one thing that can go wrong is the width of an operand.  What a program
hands on is what was written as long as every handle fits thirty-two signed
bits, so the graph of a programmer is spoken of only when it has at most that
many neurons.
-/

namespace NeuralGenome

/-! ## Graphs -/

/-- The calls that let a new neuron read its parents. -/
def Origin.reads (origin : Origin) : List Call :=
  origin.parents.map fun parent : Nat => .readFrom parent

namespace Graph

/-- A graph in which each neuron stands at its handle, wired to its parents. -/
structure Realizes (graph : Graph) (origins : List Origin)
    (output : Output → Option Nat) : Prop where
  neurons : graph.neurons = origins.map fun origin => origin.definition.numeric
  inputs : graph.inputs = origins.map fun origin => origin.parents.map Int.ofNat
  output : ∀ axis : Output, graph.output axis = (output axis).map Int.ofNat

/-- To realize origins is to spell the neurons that they are linked as. -/
theorem realizes_iff_spells {graph : Graph} {origins : List Origin}
    {output : Output → Option Nat} :
    graph.Realizes origins output ↔
      graph.Spells (origins.map Origin.linked) fun axis =>
        (output axis).map Int.ofNat := by
  constructor
  · intro realizes
    exact ⟨by rw [realizes.neurons, List.map_map]; rfl,
      by rw [realizes.inputs, List.map_map]; rfl, realizes.output⟩
  · intro spells
    exact ⟨by rw [spells.neurons, List.map_map]; rfl,
      by rw [spells.inputs, List.map_map]; rfl, spells.output⟩

namespace Realizes

variable {graph : Graph} {origins : List Origin} {output : Output → Option Nat}

theorem initial : Graph.initial.Realizes Blueprint.initial.origins
    Blueprint.initial.output where
  neurons := rfl
  inputs := rfl
  output := fun axis => by cases axis <;> rfl

/-- A neuron that is created and reads its parents stands at the next handle. -/
theorem create (realizes : graph.Realizes origins output) {origin : Origin}
    {neuron : Neuron Binary64}
    (made : neuron.definition .zero = origin.definition)
    (earlier : ∀ parent ∈ origin.parents, parent < origins.length) :
    (graph.receiveAll (.create neuron :: origin.reads)).Realizes
      (origins ++ [origin]) output := by
  have spelled :=
    (realizes_iff_spells.mp realizes).create ⟨neuron, origin.parents⟩
      (by rwa [List.length_map])
  rw [realizes_iff_spells, List.map_append, List.map_singleton,
    Origin.linked, ← made]
  exact spelled

/--
The neuron that is designated answers for its axis, and the other axis keeps its
own.
-/
theorem assign (realizes : graph.Realizes origins output) {neuron : Nat}
    (inside : neuron < origins.length) (designated : Output) :
    (graph.receive (.assign designated neuron)).Realizes origins
      fun axis => if axis = designated then some neuron else output axis := by
  have spelled := (realizes_iff_spells.mp realizes).assign
    (by rwa [List.length_map]) designated
  have same :
      (fun axis => Option.map Int.ofNat (if axis = designated then some neuron
      else output axis)) =
        fun axis => if axis = designated then some (neuron : Int)
          else (output axis).map Int.ofNat := by
    funext axis
    split <;> rfl
  rw [realizes_iff_spells, same]
  exact spelled

end Realizes

end Graph

/-! ## Programmers -/

namespace Programmer

/--
What a programmer writes without taking a number: genes that hand on given
calls, as long as operands can name the indexes of these calls.
-/
structure Writes (before : Programmer) (calls : List Call)
    (after : Programmer) : Prop where
  next : after.nextNeuron = before.nextNeuron
  genes : ∃ genes : Program, after.program = before.program ++ genes ∧
    ((∀ call ∈ calls, call.IsIndexed) → genes.calls = calls)

namespace Writes

variable {before middle after : Programmer} {first second : List Call}

theorem nil (programmer : Programmer) : Writes programmer [] programmer :=
  ⟨rfl, [], (List.append_nil _).symm, fun _ => rfl⟩

theorem append (start : Writes before first middle)
    (rest : Writes middle second after) :
    Writes before (first ++ second) after := by
  obtain ⟨genes, written, handed⟩ := start.genes
  obtain ⟨others, written', handed'⟩ := rest.genes
  refine ⟨rest.next.trans start.next, genes ++ others, ?_, fun indexed => ?_⟩
  · rw [written', written, List.append_assoc]
  · rw [Program.calls, List.map_append]
    exact congrArg₂ _
      (handed fun call member => indexed call (List.mem_append_left _ member))
      (handed' fun call member => indexed call (List.mem_append_right _ member))

/--
Calls that are handed on as they were written change the graph of the program by
themselves.
-/
theorem compiled (wrote : Writes before first after)
    (indexed : ∀ call ∈ first, call.IsIndexed) :
    after.program.compiled = before.program.compiled.receiveAll first := by
  obtain ⟨genes, written, handed⟩ := wrote.genes
  have calls : after.program.calls = before.program.calls ++ first := by
    rw [written, Program.calls, List.map_append, ← handed indexed]
    rfl
  rw [Program.compiled, calls, Graph.receiveAll_append]
  rfl

end Writes

/--
A call that can be written is recorded as a gene at the end of the program.
-/
theorem run_write {call : NumericCall} {before after : Programmer} {done : Unit}
    (ran : (write call).run before = (.ok done, after)) :
    ∃ gene, Recorder.gene call = .ok gene ∧
      after = { before with program := before.program ++ [gene] } := by
  obtain ⟨program, recorded, rfl⟩ := Procedure.run_within_eq_ok.mp ran
  obtain ⟨gene, middle, found, appended⟩ := Procedure.run_bind_eq_ok.mp recorded
  obtain ⟨made, rfl⟩ := Procedure.run_ofExcept_eq_ok.mp found
  cases appended
  exact ⟨gene, made, rfl⟩

/-- A call of patterns is handed on as it was written. -/
theorem writes_call {call : Call} {before after : Programmer} {done : Unit}
    (ran : (write call.numeric).run before = (.ok done, after)) :
    Writes before [call] after := by
  obtain ⟨gene, made, rfl⟩ := run_write ran
  refine ⟨rfl, [gene], rfl, fun indexed => ?_⟩
  obtain ⟨other, madeToo, same⟩ :=
    Recorder.exists_gene (indexed call List.mem_cons_self)
  rw [made] at madeToo
  cases madeToo
  exact congrArg (fun call => [call]) same

/-- A new neuron is handed on with the pattern of its value. -/
theorem writes_create {neuron : Neuron Number} {before after : Programmer}
    {done : Unit}
    (ran : (write (.create neuron)).run before = (.ok done, after)) :
    ∃ converted, neuron.convert Number.toBinary64 = .ok converted ∧
      Writes before [.create converted] after := by
  obtain ⟨gene, made, rfl⟩ := run_write ran
  obtain ⟨converted, done, returned⟩ := bind_eq_ok.mp made
  cases returned
  have kept : converted.map id = converted := by cases converted <;> rfl
  exact ⟨converted, done, rfl, [.create converted], rfl, fun _ =>
    congrArg (fun neuron => [Instruction.create neuron]) kept⟩

/-- Reads of neurons that exist are handed on in order. -/
theorem writes_reads {parents : List Nat} {before after : Programmer}
    {done : Unit}
    (ran : ((parents.map Int.ofNat).forM fun parent =>
      write (.readFrom parent)).run before = (.ok done, after)) :
    Writes before (parents.map fun parent : Nat => .readFrom parent) after := by
  induction parents generalizing before with
  | nil =>
      cases ran
      exact .nil _
  | cons parent rest ih =>
      obtain ⟨middle, first, later⟩ := Procedure.run_forM_cons_eq_ok.mp ran
      have numeric :
          Call.numeric (.readFrom parent) = .readFrom (Int.ofNat parent) := rfl
      rw [← numeric] at first
      exact (writes_call first).append (ih later)

/--
A programmer whose next number is the next handle and whose program builds given
neurons.
-/
structure Realizes (programmer : Programmer) (origins : List Origin)
    (output : Output → Option Nat) : Prop where
  next : programmer.nextNeuron = origins.length
  graph : origins.length ≤ 0x80000000 →
    programmer.program.compiled.Realizes origins output

namespace Realizes

variable {before middle after : Programmer} {origins : List Origin}
  {output : Output → Option Nat}

theorem initial :
    Programmer.initial.Realizes Blueprint.initial.origins
      Blueprint.initial.output where
  next := rfl
  graph := fun _ => Graph.Realizes.initial

/-- A handle of few neurons is an index that operands can name. -/
theorem isIndexed_readFrom {parent : Nat} (few : origins.length ≤ 0x80000000)
    (inside : parent < origins.length) :
    Call.IsIndexed (.readFrom (parent : Int)) := by
  show Binary64.leastIndex ≤ (parent : Int) ∧
    (parent : Int) ≤ Binary64.greatestIndex
  rw [Binary64.leastIndex, Binary64.greatestIndex]
  omega

/--
A number that is taken for a neuron is the handle of the neuron that is then
written.
-/
theorem create (realizes : before.Realizes origins output) {origin : Origin}
    {neuron : Neuron Binary64}
    (made : neuron.definition .zero = origin.definition)
    (earlier : ∀ parent ∈ origin.parents, parent < origins.length)
    (wrote : Writes { before with nextNeuron := before.nextNeuron + 1 }
      (.create neuron :: origin.reads) after) :
    after.Realizes (origins ++ [origin]) output where
  next := by
    show after.nextNeuron = ((origins ++ [origin]).length : Int)
    rw [wrote.next, List.length_append, Int.natCast_add, ← realizes.next]
    rfl
  graph := by
    intro few
    rw [List.length_append] at few
    have counted : origins.length ≤ 0x80000000 := Nat.le_of_succ_le few
    have indexed : ∀ call ∈ Instruction.create neuron :: origin.reads,
        Call.IsIndexed call := by
      refine List.forall_mem_cons.mpr ⟨trivial, fun call member => ?_⟩
      obtain ⟨parent, inside, rfl⟩ := List.mem_map.mp member
      exact isIndexed_readFrom counted (earlier parent inside)
    rw [wrote.compiled indexed]
    exact (realizes.graph counted).create made earlier

/-- A neuron that has been made for an axis answers for it from then on. -/
theorem assign (realizes : before.Realizes origins output) {neuron : Nat}
    (inside : neuron < origins.length) {axis : Output} {done : Unit}
    (ran : (Programmer.assign axis neuron).run before = (.ok done, after)) :
    after.Realizes origins fun other => if other =
      axis then some neuron else output other := by
  have numeric : Call.numeric (.assign axis (neuron : Int)) =
      .assign axis (neuron : Int) := rfl
  rw [Programmer.assign, ← numeric] at ran
  have wrote := writes_call ran
  refine ⟨wrote.next.trans realizes.next, fun few => ?_⟩
  have indexed := isIndexed_readFrom few inside
  rw [wrote.compiled (List.forall_mem_singleton.mpr indexed)]
  exact (realizes.graph few).assign inside axis

end Realizes

/-! ## What each way to add neurons writes -/

/-- A created neuron gets the next number. -/
theorem run_create {neuron : Neuron Number} {before after : Programmer}
    {number : Int} (ran : (create neuron).run before = (.ok number, after)) :
    number = before.nextNeuron ∧
      ∃ converted, neuron.convert Number.toBinary64 = .ok converted ∧
        Writes { before with nextNeuron := before.nextNeuron + 1 }
          [.create converted] after := by
  obtain ⟨taken, allocated, counted, rest⟩ := Procedure.run_bind_eq_ok.mp ran
  obtain ⟨_, written, wrote, returned⟩ := Procedure.run_bind_eq_ok.mp rest
  cases counted
  cases returned
  exact ⟨rfl, writes_create wrote⟩

namespace Realizes

variable {before after : Programmer} {origins : List Origin}
  {output : Output → Option Nat} {number : Int}

theorem constant (realizes : before.Realizes origins output) {signal : Number}
    (ran : (Programmer.create (.fixed signal)).run before =
      (.ok number, after)) :
    number = origins.length ∧
      ∃ value, signal.toBinary64 = .ok value ∧
        after.Realizes (origins ++ [.constant value]) output := by
  obtain ⟨numbered, converted, done, wrote⟩ := run_create ran
  obtain ⟨value, nearest, returned⟩ := bind_eq_ok.mp done
  cases returned
  have made : (Neuron.fixed value).definition .zero =
      (Origin.constant value).definition := rfl
  exact ⟨numbered.trans realizes.next, value, nearest,
    realizes.create made (fun _ member => absurd member List.not_mem_nil) wrote⟩

theorem random (realizes : before.Realizes origins output)
    (ran : (Programmer.create .random).run before = (.ok number, after)) :
    number = origins.length ∧ after.Realizes (origins ++ [.random]) output := by
  obtain ⟨numbered, converted, done, wrote⟩ := run_create ran
  cases done
  have made : (Neuron.random).definition .zero = Origin.random.definition := rfl
  exact ⟨numbered.trans realizes.next,
    realizes.create made (fun _ member => absurd member List.not_mem_nil) wrote⟩

theorem sum (realizes : before.Realizes origins output) {layer : List Nat}
    (inside : ∀ neuron ∈ layer, neuron < origins.length)
    (ran : (Programmer.sum (layer.map Int.ofNat)).run before =
      (.ok number, after)) :
    number = origins.length ∧
      after.Realizes (origins ++ [.total layer]) output := by
  obtain ⟨neuron, middle, created, rest⟩ := Procedure.run_bind_eq_ok.mp ran
  obtain ⟨_, later, read, returned⟩ := Procedure.run_bind_eq_ok.mp rest
  cases returned
  obtain ⟨numbered, converted, done, wrote⟩ := run_create created
  cases done
  have made : (Neuron.sum).definition .zero =
      (Origin.total layer).definition := rfl
  exact ⟨numbered.trans realizes.next,
    realizes.create made inside (wrote.append (writes_reads read))⟩

theorem child (realizes : before.Realizes origins output) {parent : Nat}
    (inside : parent < origins.length) {weight : Number}
    (ran : (weightedChild parent weight).run before = (.ok number, after)) :
    number = origins.length ∧
      ∃ value, weight.toBinary64 = .ok value ∧
        after.Realizes (origins ++ [.child parent value]) output := by
  obtain ⟨taken, allocated, counted, rest⟩ := Procedure.run_bind_eq_ok.mp ran
  obtain ⟨_, middle, created, rest⟩ := Procedure.run_bind_eq_ok.mp rest
  obtain ⟨_, later, read, returned⟩ := Procedure.run_bind_eq_ok.mp rest
  cases counted
  cases returned
  obtain ⟨converted, done, wrote⟩ := writes_create created
  obtain ⟨value, nearest, made⟩ := bind_eq_ok.mp done
  cases made
  have numeric :
      Call.numeric (.readFrom parent) = .readFrom (parent : Int) := rfl
  rw [← numeric] at read
  have made : (Neuron.weightedSum value).definition .zero =
      (Origin.child parent value).definition := rfl
  exact ⟨realizes.next, value, nearest,
    realizes.create made (List.forall_mem_singleton.mpr inside)
      (wrote.append (writes_call read))⟩

/--
The children of a layer get the next numbers, in the order of their parents.
-/
theorem children (realizes : before.Realizes origins output)
    {parents : List Nat} (inside : ∀ parent ∈ parents, parent < origins.length)
    {weights : List Number}
    (enough : weights.length = parents.length) {numbers : List Int}
    (ran : (((parents.map Int.ofNat).zip weights).mapM
      fun (parent, weight) => weightedChild parent weight).run before =
        (.ok numbers, after)) :
    numbers = (List.range' origins.length parents.length).map Int.ofNat ∧
      ∃ values, weights.mapM Number.toBinary64 = .ok values ∧
        values.length = parents.length ∧
        after.Realizes (origins ++ List.zipWith .child parents values)
          output := by
  induction parents generalizing weights numbers before origins with
  | nil =>
      obtain rfl := List.length_eq_zero_iff.mp enough
      cases ran
      exact ⟨rfl, [], rfl, rfl, (List.append_nil origins).symm ▸ realizes⟩
  | cons parent rest ih =>
      cases weights with
      | nil => cases enough
      | cons weight others =>
          obtain ⟨number, numbers, middle, first, later, rfl⟩ :=
            Procedure.run_mapM_cons_eq_ok.mp ran
          obtain ⟨numbered, value, nearest, grown⟩ :=
            realizes.child (inside parent List.mem_cons_self) first
          have remain : ∀ other ∈ rest,
              other < (origins ++ [Origin.child parent value]).length := by
            intro other member
            rw [List.length_append]
            exact Nat.lt_succ_of_lt
              (inside other (List.mem_cons_of_mem _ member))
          obtain ⟨rfl, values, converted, sized, reached⟩ :=
            ih grown remain (Nat.succ.inj enough) later
          refine ⟨?_, value :: values, ?_, congrArg Nat.succ sized, ?_⟩
          · rw [numbered, List.length_cons, List.range'_succ,
              List.length_append]
            rfl
          · rw [List.mapM_cons, nearest, converted]
            rfl
          · rw [List.append_assoc] at reached
            exact reached

end Realizes

end Programmer

end NeuralGenome
