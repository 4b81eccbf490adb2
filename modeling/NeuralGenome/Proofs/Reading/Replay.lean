import NeuralGenome.Graph.Building
import NeuralGenome.Proofs.Binary64.Exact
import NeuralGenome.Proofs.Genome.Codec
import NeuralGenome.Reading.Description
import NeuralGenome.Reading.Recorder
import NeuralGenome.Reading.Weights

/-!
# Recording and replaying calls

A recorder stores an index as the binary64 pattern nearest to it, and a program
hands the index on that the pattern is cut to.  Within thirty-two signed bits
the two conversions undo each other, so calls come back as they were recorded:
through the bytes of a program, and for a reader of any kind.

The operands of a program need not be patterns that a recorder writes.
Recording the program replaces them by those that are, after which recording
changes nothing.
-/

namespace NeuralGenome

/-! ## Calls in order -/

namespace Call

/--
Whether the index of a call, if it has one, is an index that operands can name.
-/
def IsIndexed : Call → Prop
  | .create _ => True
  | .moveTo index =>
      Binary64.leastIndex ≤ index ∧ index ≤ Binary64.greatestIndex
  | .readFrom index =>
      Binary64.leastIndex ≤ index ∧ index ≤ Binary64.greatestIndex
  | .assign _ index =>
      Binary64.leastIndex ≤ index ∧ index ≤ Binary64.greatestIndex

instance : DecidablePred IsIndexed
  | .create _ => inferInstanceAs (Decidable True)
  | .moveTo _ => inferInstanceAs (Decidable (_ ∧ _))
  | .readFrom _ => inferInstanceAs (Decidable (_ ∧ _))
  | .assign _ _ => inferInstanceAs (Decidable (_ ∧ _))

/-- Hand calls to a reader of any kind, in order, up to its first fault. -/
def deliverAll {State : Type} (reader : Call → Procedure State Unit) :
    List Call → Procedure State Unit
  | [] => pure ()
  | call :: rest => do
      reader call
      deliverAll reader rest

end Call

/-- A program hands on indexes that operands can name. -/
theorem Gene.isIndexed_call (gene : Gene) : gene.call.IsIndexed := by
  cases gene with
  | create neuron => trivial
  | moveTo operand => exact operand.toIndex_between
  | readFrom operand => exact operand.toIndex_between
  | assign output operand => exact operand.toIndex_between

namespace Program

/--
Hand what each gene says to a reader of any kind, in order, up to its first
fault.
-/
def deliver {State : Type} (reader : Call → Procedure State Unit) :
    Program → Procedure State Unit
  | [] => pure ()
  | gene :: rest => do
      reader gene.call
      deliver reader rest

theorem deliver_eq {State : Type} (reader : Call → Procedure State Unit)
    (program : Program) :
    program.deliver reader = Call.deliverAll reader program.calls := by
  induction program with
  | nil => rfl
  | cons gene rest ih =>
      exact congrArg (fun next => reader gene.call >>= fun _ => next) ih

/--
A program that delivers given calls: to a reader of any kind, and so to the
builder, the listing, the describer and the collector of weights.
-/
structure Delivers (program : Program) (calls : List Call) : Prop where
  handed : program.calls = calls
  reader : ∀ {State : Type} (reader : Call → Procedure State Unit)
      (state : State),
    (program.deliver reader).run state =
      (Call.deliverAll reader calls).run state
  build : program.build =
    (Graph.performAll (calls.map Call.request)).run Graph.initial
  listing : program.listing =
    (Listing.initial.receiveAll (calls.map Call.numeric)).flush
  description : program.description = (Sketch.initial.receiveAll calls).describe
  weights : program.weights = Weights.receiveAll [] calls

theorem Delivers.of_calls {program : Program} {calls : List Call}
    (same : program.calls = calls) : program.Delivers calls := by
  subst same
  exact ⟨rfl, fun reader state => by rw [deliver_eq], rfl, rfl, rfl, rfl⟩

end Program

/-! ## Recording -/

namespace Recorder

/-- The gene that a call is recorded as says what the call says. -/
theorem exists_gene {call : Call} (indexed : call.IsIndexed) :
    ∃ recorded : Gene, gene call.numeric = .ok recorded ∧
      recorded.call = call := by
  have index {number : Int}
      (bounds : Binary64.leastIndex ≤ number ∧
        number ≤ Binary64.greatestIndex) :
      ∃ operand, (Number.integer number).toBinary64 = .ok operand ∧
        operand.toIndex = number := by
    obtain ⟨operand, nearest, back⟩ :=
      Binary64.exists_ofInt?_toIndex bounds.1 bounds.2
    exact ⟨operand, Number.toBinary64_of_some nearest, back⟩
  cases call with
  | create neuron => cases neuron <;> exact ⟨_, rfl, rfl⟩
  | moveTo number =>
      obtain ⟨operand, nearest, back⟩ := index indexed
      exact ⟨.moveTo operand, bind_eq_ok.mpr ⟨operand, nearest, rfl⟩,
        congrArg _ back⟩
  | readFrom number =>
      obtain ⟨operand, nearest, back⟩ := index indexed
      exact ⟨.readFrom operand, bind_eq_ok.mpr ⟨operand, nearest, rfl⟩,
        congrArg _ back⟩
  | assign output number =>
      obtain ⟨operand, nearest, back⟩ := index indexed
      exact ⟨.assign output operand, bind_eq_ok.mpr ⟨operand, nearest, rfl⟩,
        congrArg _ back⟩

/-- Recording a call that has a gene appends the gene. -/
theorem run_record {call : NumericCall} {recorded : Gene}
    (found : gene call = .ok recorded) (before : Program) :
    (record call).run before = (.ok (), before ++ [recorded]) := by
  rw [record, Procedure.run_bind_of_ok (by rw [Procedure.run_ofExcept, found]),
    Procedure.run_modify]

/--
Calls within the bounds are recorded as a program that says what they say.
-/
theorem exists_run_recordAll {calls : List Call}
    (indexed : ∀ call ∈ calls, call.IsIndexed) (before : Program) :
    ∃ recorded : Program,
      (recordAll (calls.map Call.numeric)).run before =
        (.ok (), before ++ recorded) ∧
      recorded.calls = calls := by
  induction calls generalizing before with
  | nil => exact ⟨[], by rw [List.append_nil]; rfl, rfl⟩
  | cons call rest ih =>
      obtain ⟨first, found, same⟩ :=
        exists_gene (indexed call List.mem_cons_self)
      obtain ⟨others, ran, others_same⟩ :=
        ih (fun other member => indexed other (List.mem_cons_of_mem _ member))
          (before ++ [first])
      refine ⟨first :: others, ?_, ?_⟩
      · rw [List.map_cons, recordAll,
          Procedure.run_bind_of_ok (run_record found before), ran,
          List.append_assoc]
        rfl
      · rw [Program.calls, List.map_cons, same, ← others_same]
        rfl

end Recorder

namespace Program

/-- What is recorded of a program depends only on the calls that it hands on. -/
theorem recorded_congr {left right : Program}
    (same : left.calls = right.calls) : left.recorded = right.recorded := by
  rw [recorded, recorded, same]

/-- Programs that hand on the same calls have the same opcodes. -/
theorem opcodes_congr {left right : Program} (same : left.calls = right.calls) :
    left.opcodes = right.opcodes := by
  have spelled (program : Program) :
      program.opcodes = program.calls.map Instruction.opcode := by
    rw [opcodes, calls, List.map_map]
    exact List.map_congr_left fun gene _ =>
      (Instruction.opcode_map _ _ gene).symm
  rw [spelled left, spelled right, same]

/--
Every program can be recorded, and what is recorded hands on the same calls.
-/
theorem exists_recorded (program : Program) :
    ∃ copy : Program, program.recorded = .ok copy ∧
      copy.calls = program.calls := by
  have indexed : ∀ call ∈ program.calls, call.IsIndexed := by
    intro call member
    obtain ⟨gene, -, rfl⟩ := List.mem_map.mp member
    exact gene.isIndexed_call
  obtain ⟨copy, ran, same⟩ := Recorder.exists_run_recordAll indexed []
  refine ⟨copy, ?_, same⟩
  rw [recorded, ran]
  rfl

/--
Recording and replaying lose nothing.  Calls of any values whose indexes fit
thirty-two signed bits are recorded without a fault, and the program that is
read back from the bytes of the recording delivers exactly these calls.  Any
program whatever can be recorded as well: the copy has its opcodes and delivers
its calls, and recording the copy gives the copy itself, to the byte.
-/
theorem record_replay (calls : List Call)
    (indexed : ∀ call ∈ calls, call.IsIndexed) (program : Program) :
    (∃ written read : Program,
      (Recorder.recordAll (calls.map Call.numeric)).run [] = (.ok (), written) ∧
      decode written.encode = .ok read ∧ read.Delivers calls) ∧
    ∃ copy again : Program,
      program.recorded = .ok copy ∧ copy.opcodes = program.opcodes ∧
      copy.Delivers program.calls ∧
      copy.recorded = .ok again ∧ again.encode = copy.encode := by
  obtain ⟨written, ran, same⟩ := Recorder.exists_run_recordAll indexed []
  obtain ⟨copy, copied, copy_same⟩ := program.exists_recorded
  exact
    ⟨⟨written, written, ran, written.decode_encode, .of_calls same⟩,
      copy, copy, copied, opcodes_congr copy_same, .of_calls copy_same,
      (recorded_congr copy_same).trans copied, rfl⟩

/--
Calls at both bounds of the indexes, with a payload that is no number and a
negative zero.
-/
def extremeCalls : List Call :=
  [.create (.fixed ⟨0x7ff0000000000001⟩), .create (.weightedSum .negativeZero),
    .readFrom 2147483647, .moveTo (-2147483648), .readFrom (-1),
    .assign .dx 2147483646, .create .random, .assign .dy (-2147483647)]

theorem record_replay_extreme :
    (∀ call ∈ extremeCalls, call.IsIndexed) ∧
      ∃ written read : Program,
        (Recorder.recordAll (extremeCalls.map Call.numeric)).run [] =
          (.ok (), written) ∧
        decode written.encode = .ok read ∧ read.calls = extremeCalls := by
  have indexed : ∀ call ∈ extremeCalls, call.IsIndexed := by decide
  obtain ⟨⟨written, read, ran, decoded, delivers⟩, -⟩ :=
    record_replay extremeCalls indexed peculiar
  exact ⟨indexed, written, read, ran, decoded, delivers.handed⟩

end Program

end NeuralGenome
