import NeuralGenome.Proofs.Agent.Deciding
import NeuralGenome.Proofs.Layered.Handles

/-!
# The numbers that a programmer gives out

A programmer takes the number of a neuron before it writes the neuron, and what
it has taken or written stays when it fails.  A number that is taken for no
neuron is *spare*: one that is asked for by itself, or one whose neuron has a
value without a pattern.  No other failure leaves one, neither of a layer that
is not there or has another number of weights, nor of a read, which comes after
its neuron has been written.

So the next number is ahead of the neurons that have been written by the spare
numbers, at every time and whatever has failed before.  The handle of a neuron
is ahead of its index in the graph by as much.
-/

namespace NeuralGenome

/-! ## Neurons that programs create -/

/-- The neuron that a gene creates. -/
def Gene.created? : Gene → Option (Neuron Binary64)
  | .create neuron => some neuron
  | _ => none

namespace Program

/-- The neurons that a program creates, in order. -/
def creations (program : Program) : List (Neuron Binary64) :=
  program.filterMap Gene.created?

theorem creations_concat (program : Program) (gene : Gene) :
    (program ++ [gene]).creations =
      program.creations ++ gene.created?.toList := by
  rw [creations, List.filterMap_append]
  cases created : gene.created? with
  | none => rw [List.filterMap_cons_none created]; rfl
  | some neuron => rw [List.filterMap_cons_some created]; rfl

theorem length_creations (program : Program) :
    program.creations.length = program.opcodes.countP Opcode.creates := by
  rw [creations, List.length_filterMap_eq_countP, opcodes, List.countP_map]
  refine List.countP_congr fun gene _ => ?_
  rw [Function.comp_apply]
  cases gene with
  | create neuron => cases neuron <;> exact Iff.rfl
  | moveTo index => exact Iff.rfl
  | readFrom index => exact Iff.rfl
  | assign output index => cases output <;> exact Iff.rfl

/--
The graph of a program has the inputs and the neurons that the program creates.
-/
theorem neurons_compiled (program : Program) :
    program.compiled.neurons =
      Graph.initial.neurons ++ program.creations.map Neuron.entry := by
  have same : (Request.created? ∘ Call.request) ∘ Gene.call =
      Gene.created? := by
    funext gene
    cases gene with
    | create neuron => cases neuron <;> rfl
    | moveTo index => rfl
    | readFrom index => rfl
    | assign output index => rfl
  rw [← afterAll_requests, Graph.neurons_afterAll, requests, calls,
    List.filterMap_map, List.filterMap_map, same, creations]

end Program

/-- Whether a number has a pattern near to it. -/
def Number.hasPattern (number : Number) : Bool :=
  number.toBinary64.toOption.isSome

theorem Number.hasPattern_of_ok {number : Number} {value : Binary64}
    (converts : number.toBinary64 = .ok value) : number.hasPattern = true := by
  rw [hasPattern, converts]
  rfl

theorem Number.hasPattern_of_error {number : Number} {fault : Fault}
    (refused : number.toBinary64 = .error fault) :
    number.hasPattern = false := by
  rw [hasPattern, refused]
  rfl

/-! ## Programmers -/

/-- The numbers of so many neurons from a first one on. -/
def handlesFrom (first : Int) (count : Nat) : List Int :=
  (List.range count).map fun place : Nat => first + place

theorem length_handlesFrom (first : Int) (count : Nat) :
    (handlesFrom first count).length = count := by
  rw [handlesFrom, List.length_map, List.length_range]

theorem getElem?_handlesFrom (first : Int) {count place : Nat}
    (inside : place < count) :
    (handlesFrom first count)[place]? = some (first + place) := by
  rw [handlesFrom, List.getElem?_map, List.getElem?_range inside]
  rfl

theorem handlesFrom_succ (first : Int) (count : Nat) :
    handlesFrom first (count + 1) = first :: handlesFrom (first + 1) count := by
  rw [handlesFrom, List.range_succ_eq_map, List.map_cons, List.map_map]
  congr 1
  · exact Int.add_zero first
  · refine List.map_congr_left fun place _ => ?_
    rw [Function.comp_apply, Int.natCast_succ, Int.add_comm (place : Int),
      Int.add_assoc]

namespace Programmer

/-- A programmer has written neurons and has taken so many spare numbers. -/
structure Numbers (before : Programmer) (made : List (Neuron Binary64))
    (spare : Nat) (after : Programmer) : Prop where
  creations : after.program.creations = before.program.creations ++ made
  next : after.nextNeuron = before.nextNeuron + made.length + spare

namespace Numbers

variable {before middle after : Programmer} {made more : List (Neuron Binary64)}
  {spare others : Nat}

theorem refl (programmer : Programmer) :
    Numbers programmer [] 0 programmer where
  creations := (List.append_nil _).symm
  next := by simp

theorem trans (start : Numbers before made spare middle)
    (rest : Numbers middle more others after) :
    Numbers before (made ++ more) (spare + others) after where
  creations := by rw [rest.creations, start.creations, List.append_assoc]
  next := by
    rw [rest.next, start.next, List.length_append]
    omega

end Numbers

theorem run_allocate (before : Programmer) :
    allocate.run before =
      (.ok before.nextNeuron, { before with
        nextNeuron := before.nextNeuron + 1 }) := rfl

/-- A call that has a gene is written. -/
theorem run_write_of_ok {call : NumericCall} {gene : Gene}
    (found : Recorder.gene call = .ok gene) (before : Programmer) :
    (write call).run before =
      (.ok (), { before with program := before.program ++ [gene] }) :=
  Procedure.run_within (Recorder.run_record found before.program)

/-- A call without a gene leaves nothing. -/
theorem run_write_of_error {call : NumericCall} {fault : Fault}
    (refused : Recorder.gene call = .error fault) (before : Programmer) :
    (write call).run before = (.error fault, before) := by
  have failed : (Recorder.record call).run before.program =
      (.error fault, before.program) := by
    apply Procedure.run_bind_of_error
    rw [Procedure.run_ofExcept, refused]
  exact Procedure.run_within failed

/--
A call that creates nothing writes nothing that counts, whether or not it fails.
-/
theorem numbers_write (call : NumericCall)
    (plain : ∀ neuron, call ≠ .create neuron) (before : Programmer) :
    Numbers before [] 0 ((write call).run before).2 := by
  cases found : Recorder.gene call with
  | error fault =>
      rw [run_write_of_error found]
      exact .refl before
  | ok gene =>
      rw [run_write_of_ok found]
      have uncreated : gene.created? = none := by
        cases call with
        | create neuron => exact absurd rfl (plain neuron)
        | moveTo index =>
            obtain ⟨operand, -, returned⟩ := bind_eq_ok.mp found
            cases returned
            rfl
        | readFrom index =>
            obtain ⟨operand, -, returned⟩ := bind_eq_ok.mp found
            cases returned
            rfl
        | assign output index =>
            obtain ⟨operand, -, returned⟩ := bind_eq_ok.mp found
            cases returned
            rfl
      exact ⟨by rw [Program.creations_concat, uncreated]; rfl, by simp⟩

/-! ### Ways to add neurons -/

/-- A created neuron takes the next number. -/
theorem exists_run_create_of_ok {neuron : Neuron Number}
    {converted : Neuron Binary64}
    (converts : neuron.convert Number.toBinary64 = .ok converted)
    (before : Programmer) :
    ∃ after, (create neuron).run before = (.ok before.nextNeuron, after) ∧
      Numbers before [converted] 0 after := by
  have found : Recorder.gene (.create neuron) = .ok (.create converted) := by
    rw [Recorder.gene, Instruction.convert, converts]
    rfl
  refine ⟨⟨before.program ++ [.create converted], before.nextNeuron + 1⟩,
    ?_, ?_, ?_⟩
  · rw [create, Procedure.run_bind_of_ok (run_allocate before),
      Procedure.run_bind_of_ok (run_write_of_ok found _), Procedure.run_pure]
  · exact Program.creations_concat _ _
  · simp

/-- A neuron whose value has no pattern takes the next number all the same. -/
theorem exists_run_create_of_error {neuron : Neuron Number} {fault : Fault}
    (refused : neuron.convert Number.toBinary64 = .error fault)
    (before : Programmer) :
    ∃ after, (create neuron).run before = (.error fault, after) ∧
      Numbers before [] 1 after := by
  have failed : Recorder.gene (.create neuron) = .error fault := by
    rw [Recorder.gene, Instruction.convert, refused]
    rfl
  refine ⟨⟨before.program, before.nextNeuron + 1⟩, ?_,
    (List.append_nil _).symm, ?_⟩
  · rw [create, Procedure.run_bind_of_ok (run_allocate before),
      Procedure.run_bind_of_error (run_write_of_error failed _)]
  · simp

/--
Steps that each create nothing create nothing together, wherever they stop.
-/
theorem numbers_forM {Item : Type} (step : Item → Procedure Programmer Unit)
    (each : ∀ item before, Numbers before [] 0 ((step item).run before).2)
    (items : List Item) (before : Programmer) :
    Numbers before [] 0 ((items.forM step).run before).2 := by
  induction items generalizing before with
  | nil => exact .refl before
  | cons item rest ih =>
      have unfolded : (item :: rest).forM step = step item >>= fun _ =>
        rest.forM step := rfl
      have first := each item before
      rw [unfolded, Procedure.run_bind]
      rcases ran : (step item).run before with ⟨fault | done, middle⟩
      · rw [ran] at first
        exact first
      · rw [ran] at first
        exact first.trans (ih middle)

section Children

variable {parent : Int} {weight : Number} {value : Binary64} {fault : Fault}

theorem convert_weightedSum (converts : weight.toBinary64 = .ok value) :
    (Neuron.weightedSum weight).convert Number.toBinary64 =
      .ok (.weightedSum value) := by
  rw [Neuron.convert, converts]
  rfl

/-- A child is a created neuron that then reads its parent. -/
theorem weightedChild_eq (parent : Int) (weight : Number) :
    weightedChild parent weight = do
      let child ← create (.weightedSum weight)
      write (.readFrom parent)
      return child := by
  rw [weightedChild, create]
  simp only [bind_assoc, pure_bind]

theorem exists_run_weightedChild_of_weight_error (parent : Int)
    (refused : weight.toBinary64 = .error fault) (before : Programmer) :
    ∃ after, (weightedChild parent weight).run before = (.error fault, after) ∧
      Numbers before [] 1 after := by
  have unconverted : (Neuron.weightedSum weight).convert Number.toBinary64 =
      .error fault := by
    rw [Neuron.convert, refused]
    rfl
  obtain ⟨after, ran, numbers⟩ := exists_run_create_of_error unconverted before
  rw [weightedChild_eq]
  exact ⟨after, Procedure.run_bind_of_error ran, numbers⟩

/-- A child whose parent cannot be named has been created all the same. -/
theorem exists_run_weightedChild_of_parent_error
    (converts : weight.toBinary64 = .ok value)
    (refused : (Number.integer parent).toBinary64 = .error fault)
    (before : Programmer) :
    ∃ after, (weightedChild parent weight).run before = (.error fault, after) ∧
      Numbers before [.weightedSum value] 0 after := by
  obtain ⟨middle, ran, numbers⟩ :=
    exists_run_create_of_ok (convert_weightedSum converts) before
  have unread : Recorder.gene (.readFrom parent) = .error fault := by
    rw [Recorder.gene, Instruction.convert, refused]
    rfl
  refine ⟨middle, ?_, numbers⟩
  rw [weightedChild_eq, Procedure.run_bind_of_ok ran]
  exact Procedure.run_bind_of_error (run_write_of_error unread middle)

theorem exists_run_weightedChild_of_ok {index : Binary64}
    (converts : weight.toBinary64 = .ok value)
    (named : (Number.integer parent).toBinary64 = .ok index)
    (before : Programmer) :
    ∃ after, (weightedChild parent weight).run before =
        (.ok before.nextNeuron, after) ∧
      Numbers before [.weightedSum value] 0 after := by
  obtain ⟨middle, ran, numbers⟩ :=
    exists_run_create_of_ok (convert_weightedSum converts) before
  have read : Recorder.gene (.readFrom parent) = .ok (.readFrom index) := by
    rw [Recorder.gene, Instruction.convert, named]
    rfl
  have rest := numbers_write (.readFrom parent) nofun middle
  rw [run_write_of_ok read] at rest
  refine ⟨_, ?_, numbers.trans rest⟩
  rw [weightedChild_eq, Procedure.run_bind_of_ok ran,
    Procedure.run_bind_of_ok (run_write_of_ok read middle), Procedure.run_pure]

/--
How many numbers are spare when the children of neurons are made: one if the
first number without a pattern is a weight, and not the name of a parent.
-/
def spareChildren : Layer → List Number → Nat
  | parent :: parents, weight :: weights =>
      if weight.hasPattern then
        if (Number.integer parent).hasPattern then spareChildren parents weights
        else 0
      else 1
  | _, _ => 0

/-- Children are numbered in a row, up to the first that fails. -/
theorem exists_run_children (layer : Layer) (weights : List Number)
    (before : Programmer) :
    ∃ outcome after made,
      ((layer.zip weights).mapM fun (parent, weight) =>
        weightedChild parent weight).run before = (outcome, after) ∧
      Numbers before made (spareChildren layer weights) after ∧
      ∀ numbers, outcome = .ok numbers → weights.length = layer.length →
        (weights.map Neuron.weightedSum).mapM (·.convert Number.toBinary64) =
            .ok made ∧
          numbers = handlesFrom before.nextNeuron made.length := by
  induction layer generalizing weights before with
  | nil =>
      refine ⟨.ok [], before, [], rfl, .refl before, ?_⟩
      intro numbers done enough
      cases done
      cases List.length_eq_zero_iff.mp enough
      exact ⟨rfl, rfl⟩
  | cons parent rest ih =>
      cases weights with
      | nil => exact ⟨.ok [], before, [], rfl, .refl before, fun _ _ => nofun⟩
      | cons weight others =>
          rw [List.zip_cons_cons, List.mapM_cons, spareChildren]
          cases converts : weight.toBinary64 with
          | error fault =>
              obtain ⟨after, ran, counted⟩ :=
                exists_run_weightedChild_of_weight_error parent converts before
              rw [Number.hasPattern_of_error converts]
              exact ⟨_, after, [], Procedure.run_bind_of_error ran,
                counted, nofun⟩
          | ok value =>
              rw [if_pos (Number.hasPattern_of_ok converts)]
              cases named : (Number.integer parent).toBinary64 with
              | error fault =>
                  obtain ⟨after, ran, counted⟩ :=
                    exists_run_weightedChild_of_parent_error converts
                      named before
                  rw [Number.hasPattern_of_error named]
                  exact ⟨_, after, _, Procedure.run_bind_of_error ran,
                    counted, nofun⟩
              | ok index =>
                  obtain ⟨middle, ran, counted⟩ :=
                    exists_run_weightedChild_of_ok converts named before
                  obtain ⟨outcome, after, made, later, countedToo, handed⟩ :=
                    ih others middle
                  rw [if_pos (Number.hasPattern_of_ok named),
                    Procedure.run_bind_of_ok ran]
                  have joined := counted.trans countedToo
                  rw [Nat.zero_add] at joined
                  cases outcome with
                  | error fault =>
                      exact ⟨_, after, _, Procedure.run_bind_of_error later,
                        joined, nofun⟩
                  | ok numbers =>
                      refine ⟨.ok (before.nextNeuron :: numbers), after, _, ?_,
                        joined, ?_⟩
                      · rw [Procedure.run_bind_of_ok later, Procedure.run_pure]
                      · intro all done enough
                        cases done
                        obtain ⟨asked, rfl⟩ :=
                          handed numbers rfl (Nat.succ.inj enough)
                        have next : middle.nextNeuron =
                            before.nextNeuron + 1 := by
                          simpa using counted.next
                        refine ⟨?_, ?_⟩
                        · rw [List.map_cons, List.mapM_cons,
                            convert_weightedSum converts, asked]
                          rfl
                        · rw [next, List.singleton_append, List.length_cons,
                            handlesFrom_succ]

end Children

/--
The sum of a layer takes one number, also when it cannot name a neuron of the
layer.
-/
theorem exists_run_sum (layer : Layer) (before : Programmer) :
    ∃ outcome after, (sum layer).run before = (outcome, after) ∧
      Numbers before [.sum] 0 after ∧
      ∀ number, outcome = .ok number → number = before.nextNeuron := by
  have converted : (.sum : Neuron Number).convert Number.toBinary64 =
      .ok .sum := rfl
  obtain ⟨middle, ran, counted⟩ := exists_run_create_of_ok converted before
  have rest := numbers_forM (fun parent : Int => write (.readFrom parent))
    (fun parent => numbers_write (.readFrom parent) nofun) layer middle
  rw [sum, Procedure.run_bind_of_ok ran]
  rcases read : (layer.forM fun parent => write (.readFrom parent)).run
    middle with ⟨fault | done, after⟩
  · rw [read] at rest
    exact ⟨_, after, Procedure.run_bind_of_error read,
      counted.trans rest, nofun⟩
  · rw [read] at rest
    refine ⟨.ok before.nextNeuron, after, ?_, counted.trans rest, ?_⟩
    · rw [Procedure.run_bind_of_ok read, Procedure.run_pure]
    · intro number done
      cases done
      rfl

end Programmer

/-! ## Sessions -/

namespace Session

/-- The neurons that an operation makes. -/
def Operation.neurons : Operation → List (Neuron Number)
  | .constant _ signal => [.fixed signal]
  | .random _ => [.random]
  | .weighted _ weights => weights.map .weightedSum
  | .sum _ => [.sum]
  | _ => []

/-- The numbers of neurons that an answer tells. -/
def Answer.numbers : Answer → List Int
  | .layer neurons => neurons
  | .number value => [value]
  | _ => []

/-- How many numbers an operation takes for no neuron. -/
def spare (session : Session) : Operation → Nat
  | .allocate => 1
  | .constant position signal =>
      match ListPosition.get? session.layers position with
      | some _ => if signal.hasPattern then 0 else 1
      | none => 0
  | .weighted position weights =>
      match ListPosition.get? session.layers position with
      | some layer =>
          if weights.length = layer.length then
            Programmer.spareChildren layer weights
          else 0
      | none => 0
  | _ => 0

/--
What operations in a row leave, each performed where the one before it has left
off, also when that one has failed.
-/
def afterAll (session : Session) : List Operation → Session
  | [] => session
  | operation :: rest => ((perform operation).run session).2.afterAll rest

/-- How many numbers operations in a row take for no neuron. -/
def spareAll (session : Session) : List Operation → Nat
  | [] => 0
  | operation :: rest =>
      session.spare operation +
        ((perform operation).run session).2.spareAll rest

/--
What an operation does to the numbers, whatever its outcome is: neurons are
written, so many numbers are spare, and an answer ends with the handles of all
neurons that were asked for.
-/
def Counted (before : Session) (operation : Operation)
    (outcome : Except Fault Answer) (after : Session) : Prop :=
  ∃ made, Programmer.Numbers before.programmer made (before.spare operation)
      after.programmer ∧
    ∀ answer, outcome = .ok answer →
      operation.neurons.mapM (·.convert Number.toBinary64) = .ok made ∧
        handlesFrom before.programmer.nextNeuron made.length <:+ answer.numbers

section Parts

variable {Value Result : Type} {session : Session} {position : Int}
  {programmer : Programmer}

theorem run_layer_bind_of_none
    (missing : ListPosition.get? session.layers position = none)
    (next : Layer → Procedure Session Result) :
    (layer position >>= next).run session =
      (.error (ListPosition.absence position), session) := by
  have searched : (layer position).run session =
      (.error (ListPosition.absence position), session) := by
    rw [layer, Procedure.run_bind_of_ok (Procedure.run_get session),
      Procedure.run_ofExcept, ListPosition.find, missing]
  exact Procedure.run_bind_of_error searched

theorem run_layer_bind_of_some {found : Layer}
    (located : ListPosition.get? session.layers position = some found)
    (next : Layer → Procedure Session Result) :
    (layer position >>= next).run session = (next found).run session := by
  have searched : (layer position).run session = (.ok found, session) := by
    rw [layer, Procedure.run_bind_of_ok (Procedure.run_get session),
      Procedure.run_ofExcept, ListPosition.find_eq_ok.mpr located]
  exact Procedure.run_bind_of_ok searched

theorem run_program_bind_of_error {procedure : Procedure Programmer Value}
    {fault : Fault}
    (failed : procedure.run session.programmer = (.error fault, programmer))
    (next : Value → Procedure Session Result) :
    (program procedure >>= next).run session =
      (.error fault, { session with programmer := programmer }) :=
  Procedure.run_bind_of_error (Procedure.run_within failed)

theorem run_program_bind_of_ok {procedure : Procedure Programmer Value}
    {value : Value}
    (done : procedure.run session.programmer = (.ok value, programmer))
    (next : Value → Procedure Session Result) :
    (program procedure >>= next).run session =
      (next value).run { session with programmer := programmer } :=
  Procedure.run_bind_of_ok (Procedure.run_within done)

/--
Putting a layer in a place leaves the programmer alone and answers with the
layer.
-/
theorem exists_run_replace (position : Int) (layer : Layer)
    (session : Session) :
    ∃ outcome after, (replace position layer).run session = (outcome, after) ∧
      after.programmer = session.programmer ∧
      ∀ answer, outcome = .ok answer → answer = .layer layer := by
  rw [replace, Procedure.run_bind_of_ok (Procedure.run_get session)]
  cases located : ListPosition.locate session.layers.length position with
  | error fault =>
      exact ⟨.error fault, session,
        Procedure.run_bind_of_error (Procedure.run_ofExcept _ _), rfl, nofun⟩
  | ok place =>
      refine ⟨.ok (.layer layer),
        { session with layers := session.layers.set place layer }, ?_, rfl, ?_⟩
      · rw [Procedure.run_bind_of_ok (Procedure.run_ofExcept _ _),
          Procedure.run_bind_of_ok (Procedure.run_modify _ _),
          Procedure.run_pure]
      · intro answer done
        cases done
        rfl

end Parts

namespace Counted

variable {before : Session} {position : Int} {operation : Operation}

/-- An operation that fails before it does anything. -/
theorem of_error {fault : Fault} (unspent : before.spare operation = 0) :
    Counted before operation (.error fault) before := by
  refine ⟨[], ?_, nofun⟩
  rw [unspent]
  exact .refl _

/-- An operation that makes no neuron and takes no number. -/
theorem of_idle {outcome : Except Fault Answer} {after : Session}
    (neurons : operation.neurons = []) (unspent : before.spare operation = 0)
    (idle : Programmer.Numbers before.programmer [] 0 after.programmer) :
    Counted before operation outcome after := by
  refine ⟨[], ?_, fun answer _ => ⟨?_, List.nil_suffix⟩⟩
  · rw [unspent]
    exact idle
  · rw [neurons]
    rfl

/-- A layer that is extended by a number ends with it. -/
theorem of_replace {layer : Layer} {programmer : Programmer}
    {converted : Neuron Binary64} {neuron : Neuron Number}
    (neurons : operation.neurons = [neuron])
    (converts : neuron.convert Number.toBinary64 = .ok converted)
    (unspent : before.spare operation = 0)
    (numbers : Programmer.Numbers before.programmer [converted] 0 programmer) :
    Counted before operation
      ((replace position (layer ++ [before.programmer.nextNeuron])).run
        { before with programmer := programmer }).1
      ((replace position (layer ++ [before.programmer.nextNeuron])).run
        { before with programmer := programmer }).2 := by
  obtain ⟨outcome, after, ran, kept, answered⟩ :=
    exists_run_replace position (layer ++ [before.programmer.nextNeuron])
      { before with programmer := programmer }
  rw [ran]
  refine ⟨[converted], ?_, fun answer done => ⟨?_, ?_⟩⟩
  · rw [unspent, kept]
    exact numbers
  · rw [neurons, List.mapM_cons, converts]
    rfl
  · rw [answered answer done, List.length_singleton, handlesFrom_succ]
    exact List.suffix_append _ _

end Counted

theorem counted_constant (before : Session) (position : Int) (signal : Number) :
    Counted before (.constant position signal)
      ((perform (.constant position signal)).run before).1
      ((perform (.constant position signal)).run before).2 := by
  rw [perform]
  cases located : ListPosition.get? before.layers position with
  | none =>
      rw [run_layer_bind_of_none located]
      exact .of_error (by rw [spare, located])
  | some found =>
      rw [run_layer_bind_of_some located]
      cases converts : signal.toBinary64 with
      | error fault =>
          have refused : (Neuron.fixed signal).convert Number.toBinary64 =
              .error fault := by
            rw [Neuron.convert, converts]
            rfl
          obtain ⟨after, ran, numbers⟩ :=
            Programmer.exists_run_create_of_error refused before.programmer
          have failed :
              (Programmer.withConstant found signal).run before.programmer =
                (.error fault, after) := Procedure.run_bind_of_error ran
          rw [run_program_bind_of_error failed]
          refine ⟨[], ?_, nofun⟩
          rw [spare, located]
          simp only [Number.hasPattern_of_error converts]
          exact numbers
      | ok value =>
          have converted : (Neuron.fixed signal).convert Number.toBinary64 =
              .ok (.fixed value) := by
            rw [Neuron.convert, converts]
            rfl
          obtain ⟨after, ran, numbers⟩ :=
            Programmer.exists_run_create_of_ok converted before.programmer
          have grown :
              (Programmer.withConstant found signal).run before.programmer =
                (.ok (found ++ [before.programmer.nextNeuron]), after) := by
            rw [Programmer.withConstant, Procedure.run_bind_of_ok ran,
              Procedure.run_pure]
          rw [run_program_bind_of_ok grown]
          refine .of_replace rfl converted ?_ numbers
          rw [spare, located]
          exact if_pos (Number.hasPattern_of_ok converts)

theorem counted_random (before : Session) (position : Int) :
    Counted before (.random position)
      ((perform (.random position)).run before).1
      ((perform (.random position)).run before).2 := by
  rw [perform]
  cases located : ListPosition.get? before.layers position with
  | none =>
      rw [run_layer_bind_of_none located]
      exact .of_error rfl
  | some found =>
      rw [run_layer_bind_of_some located]
      have converted : (.random : Neuron Number).convert Number.toBinary64 =
          .ok .random := rfl
      obtain ⟨after, ran, numbers⟩ :=
        Programmer.exists_run_create_of_ok converted before.programmer
      have grown : (Programmer.withRandom found).run before.programmer =
          (.ok (found ++ [before.programmer.nextNeuron]), after) := by
        rw [Programmer.withRandom, Procedure.run_bind_of_ok ran,
          Procedure.run_pure]
      rw [run_program_bind_of_ok grown]
      exact .of_replace rfl converted rfl numbers

theorem counted_weighted (before : Session) (position : Int)
    (weights : List Number) :
    Counted before (.weighted position weights)
      ((perform (.weighted position weights)).run before).1
      ((perform (.weighted position weights)).run before).2 := by
  rw [perform]
  cases located : ListPosition.get? before.layers position with
  | none =>
      rw [run_layer_bind_of_none located]
      exact .of_error (by rw [spare, located])
  | some found =>
      rw [run_layer_bind_of_some located]
      by_cases enough : weights.length = found.length
      · obtain ⟨outcome, after, made, ran, numbers, handed⟩ :=
          Programmer.exists_run_children found weights before.programmer
        have worked :
            (Programmer.weighted found weights).run before.programmer =
              (outcome, after) := by
          rw [Programmer.weighted, if_pos enough]
          exact ran
        have unspent : before.spare (.weighted position weights) =
            Programmer.spareChildren found weights := by
          rw [spare, located]
          exact if_pos enough
        rw [← unspent] at numbers
        cases outcome with
        | error fault =>
            rw [run_program_bind_of_error worked]
            refine ⟨made, numbers, fun answer done => ?_⟩
            cases done
        | ok children =>
            rw [run_program_bind_of_ok worked]
            obtain ⟨asked, rfl⟩ := handed children rfl enough
            refine ⟨made, numbers, fun answer done => ⟨asked, ?_⟩⟩
            cases done
            exact List.suffix_rfl
      · have failed :
            (Programmer.weighted found weights).run before.programmer =
              (.error (.weightCount found.length weights.length),
                before.programmer) := by
          rw [Programmer.weighted, if_neg enough, Procedure.run_throw]
        rw [run_program_bind_of_error failed]
        refine .of_error ?_
        rw [spare, located]
        exact if_neg enough

theorem counted_sum (before : Session) (position : Int) :
    Counted before (.sum position) ((perform (.sum position)).run before).1
      ((perform (.sum position)).run before).2 := by
  rw [perform]
  cases located : ListPosition.get? before.layers position with
  | none =>
      rw [run_layer_bind_of_none located]
      exact .of_error rfl
  | some found =>
      rw [run_layer_bind_of_some located]
      obtain ⟨outcome, after, ran, numbers, handed⟩ :=
        Programmer.exists_run_sum found before.programmer
      cases outcome with
      | error fault =>
          rw [run_program_bind_of_error ran]
          exact ⟨[.sum], numbers, nofun⟩
      | ok number =>
          rw [run_program_bind_of_ok ran]
          refine ⟨[.sum], numbers, fun answer done => ⟨rfl, ?_⟩⟩
          cases done
          rw [handed number rfl, List.length_singleton, handlesFrom_succ]
          exact List.suffix_rfl

theorem counted_assign (before : Session) (output : Output) (position : Int) :
    Counted before (.assign output position)
      ((perform (.assign output position)).run before).1
      ((perform (.assign output position)).run before).2 := by
  refine .of_idle rfl rfl ?_
  rw [perform, sumNeuron, bind_assoc,
    Procedure.run_bind_of_ok (Procedure.run_get before)]
  cases located : ListPosition.find before.sums position with
  | error fault =>
      rw [Procedure.run_bind_of_error (Procedure.run_ofExcept _ _)]
      exact .refl _
  | ok neuron =>
      rw [Procedure.run_bind_of_ok (Procedure.run_ofExcept _ _)]
      have numbers :=
        Programmer.numbers_write (.assign output neuron) nofun before.programmer
      rcases ran : (Programmer.assign output neuron).run before.programmer with
        ⟨fault | done, after⟩
      · rw [Programmer.assign] at ran
        rw [ran] at numbers
        rw [← Programmer.assign] at ran
        rw [run_program_bind_of_error ran]
        exact numbers
      · rw [Programmer.assign] at ran
        rw [ran] at numbers
        rw [← Programmer.assign] at ran
        rw [run_program_bind_of_ok ran]
        exact numbers

/-- Extending a layer by an input makes no neuron. -/
theorem programmer_extend (extension : Layer → Layer) (position : Int)
    (before : Session) :
    ((layer position >>= fun found => replace position (extension found)).run
      before).2.programmer = before.programmer := by
  cases located : ListPosition.get? before.layers position with
  | none => rw [run_layer_bind_of_none located]
  | some found =>
      obtain ⟨outcome, after, ran, kept, -⟩ :=
        exists_run_replace position (extension found) before
      rw [run_layer_bind_of_some located, ran]
      exact kept

/--
Every operation, whether or not it fails, does to the numbers what it is counted
for.
-/
theorem counted_perform (before : Session) (operation : Operation) :
    Counted before operation ((perform operation).run before).1
      ((perform operation).run before).2 := by
  cases operation with
  | emptyLayer => exact .of_idle rfl rfl (.refl _)
  | newLayer neurons => exact .of_idle rfl rfl (.refl _)
  | x position =>
      refine .of_idle rfl rfl ?_
      rw [perform, programmer_extend]
      exact .refl _
  | y position =>
      refine .of_idle rfl rfl ?_
      rw [perform, programmer_extend]
      exact .refl _
  | constant position signal => exact counted_constant before position signal
  | random position => exact counted_random before position
  | weighted position weights => exact counted_weighted before position weights
  | sum position => exact counted_sum before position
  | assign output position => exact counted_assign before output position
  | count position =>
      refine .of_idle rfl rfl ?_
      rw [perform]
      cases located : ListPosition.get? before.layers position with
      | none =>
          rw [run_layer_bind_of_none located]
          exact .refl _
      | some found =>
          rw [run_layer_bind_of_some located]
          exact .refl _
  | allocate =>
      refine ⟨[], ⟨(List.append_nil _).symm, ?_⟩,
        fun answer _ => ⟨rfl, List.nil_suffix⟩⟩
      rw [List.length_nil]
      exact (congrArg (· + 1) (Int.add_zero _)).symm
  | program => exact .of_idle rfl rfl (.refl _)

theorem afterAll_append (session : Session)
    (operations others : List Operation) :
    session.afterAll (operations ++ others) =
      (session.afterAll operations).afterAll others := by
  induction operations generalizing session with
  | nil => rfl
  | cons operation rest ih => exact ih _

/--
What operations in a row have written and taken, whichever of them have failed.
-/
theorem exists_numbers_afterAll (operations : List Operation)
    (before : Session) :
    ∃ made, Programmer.Numbers before.programmer made
      (before.spareAll operations) (before.afterAll operations).programmer := by
  induction operations generalizing before with
  | nil => exact ⟨[], .refl _⟩
  | cons operation rest ih =>
      obtain ⟨made, first, -⟩ := counted_perform before operation
      obtain ⟨more, later⟩ := ih ((perform operation).run before).2
      exact ⟨made ++ more, first.trans later⟩

/--
What an operation has written stays in the graph where the operation has put it.
-/
theorem getElem?_neurons_afterAll {before after : Session}
    {made : List (Neuron Binary64)}
    {spare place : Nat} {neuron : Neuron Binary64}
    (wrote : Programmer.Numbers before.programmer made spare after.programmer)
    (found : made[place]? = some neuron) (later : List Operation) :
    (after.afterAll later).programmer.program.compiled.neurons[
      before.programmer.program.compiled.count + place]? =
        some neuron.entry := by
  obtain ⟨more, numbers⟩ := exists_numbers_afterAll later after
  have inside : place < (made.map Neuron.entry).length := by
    rw [List.length_map]
    exact (List.getElem?_eq_some_iff.mp found).1
  -- the earlier neurons, then these, and then those that came later
  rw [Program.neurons_compiled, numbers.creations, wrote.creations,
    List.map_append, List.map_append, ← List.append_assoc, ← List.append_assoc,
    ← Program.neurons_compiled, List.append_assoc, Graph.count,
    List.getElem?_append_right (Nat.le_add_right _ _), Nat.add_sub_cancel_left,
    List.getElem?_append_left inside, List.getElem?_map, found]
  rfl

/--
The numbers of a session run ahead by those that are spare.  After any
operations whatever, however many of them have failed, the next number counts
the neurons that the program has by then, and besides the numbers that have been
taken for no neuron.  When an operation succeeds from there, its answer ends
with the handles of all neurons that it was asked for, in order; and the graph
of the program, whatever is done later, has each of them at its handle less the
numbers that were spare.  So handles are indexes in the graph exactly as long as
no number has been taken for no neuron.
-/
theorem handles_run_ahead (earlier : List Operation) :
    (initial.afterAll earlier).programmer.nextNeuron =
        reservedNeurons +
          (initial.afterAll earlier).programmer.program.opcodes.countP
            Opcode.creates + initial.spareAll earlier ∧
      ∀ (operation : Operation) (answer : Answer),
        ((perform operation).run (initial.afterAll earlier)).1 = .ok answer →
          ∃ (made : List (Neuron Binary64)) (handles : List Int),
            operation.neurons.mapM (·.convert Number.toBinary64) = .ok made ∧
            handles <:+ answer.numbers ∧ handles.length = made.length ∧
            ∀ (place : Nat) (handle : Int) (neuron : Neuron Binary64),
              handles[place]? = some handle → made[place]? = some neuron →
                ∃ index, index =
                    (initial.afterAll earlier).programmer.program.compiled.count
                      + place ∧
                  handle = index + initial.spareAll earlier ∧
                  ∀ later : List Operation,
                    (initial.afterAll (earlier ++ operation :: later))
                      |>.programmer.program.compiled.neurons[index]? =
                        some neuron.entry := by
  obtain ⟨started, numbers⟩ := exists_numbers_afterAll earlier initial
  have created : (initial.afterAll earlier).programmer.program.creations =
      started :=
    numbers.creations
  have reserved : initial.programmer.nextNeuron = reservedNeurons := rfl
  have next := numbers.next
  rw [← created, Program.length_creations, reserved] at next
  refine ⟨next, fun operation answer succeeded => ?_⟩
  obtain ⟨made, wrote, answered⟩ :=
    counted_perform (initial.afterAll earlier) operation
  obtain ⟨asked, told⟩ := answered answer succeeded
  refine ⟨made, _, asked, told, length_handlesFrom _ _, ?_⟩
  intro place handle neuron there found
  have inside : place < made.length := (List.getElem?_eq_some_iff.mp found).1
  refine ⟨_, rfl, ?_, fun later => ?_⟩
  · rw [getElem?_handlesFrom _ inside] at there
    cases there
    rw [next, Program.count_compiled]
    omega
  · rw [afterAll_append]
    exact getElem?_neurons_afterAll wrote found later

/-- The least power of two that is beyond all finite patterns. -/
def excessive : Number :=
  .integer (Nat.pow 2 1024)

/--
The number of the first constant stays taken, so that the handle of the second
is no index.
-/
theorem handle_ahead_of_excessive :
    ((perform (.constant 0 excessive)).run (initial.afterAll [.emptyLayer])).1 =
        .error .integerTooLarge ∧
      ((perform (.constant 0 (.pattern .one))).run
        (initial.afterAll [.emptyLayer, .constant 0 excessive])).1 =
          .ok (.layer [3]) ∧
      ∃ session, initial.afterAll
            [.emptyLayer, .constant 0 excessive, .constant 0 (.pattern .one)] =
          session ∧
        session.programmer.nextNeuron = 4 ∧
        reservedNeurons + session.programmer.program.opcodes.countP
          Opcode.creates = 3 ∧
        session.programmer.program.compiled.neurons[3]? = none ∧
        session.programmer.program.compiled.neurons[2]? =
          some (Neuron.fixed Binary64.one).entry := by
  refine ⟨by decide +kernel, by decide +kernel, _, rfl, ?_⟩
  decide +kernel

end Session

end NeuralGenome
