import Mathlib.Data.Int.ModEq
import NeuralGenome.Proofs.Graph.Soundness

/-!
# Moving around the neurons

The neurons of a graph stand in a circle, on which a move by a distance takes
the cursor around, backwards when the distance is negative.  `Graph.advance` is
that move.  On a sound graph the cursor counts a neuron, so moves add up and the
moves that return are those by whole turns; without it the cursor would only be
known up to whole turns.

An address can be settled beforehand: `Address.settled` is the integer that it
denotes in the graph at hand, and a request with its address settled does what
it did before.  A row of requests can be settled from the first to the last,
each one in the graph that it finds.
-/

namespace NeuralGenome

open ListPosition (Within)

/-! ## Settled addresses -/

namespace Address

/-- The integer that an address denotes in a graph, as an address. -/
def settled (graph : Graph) (address : Address) : Address :=
  match address.value graph with
  | .ok value => .index value
  | .error _ => address

variable {graph : Graph} {address : Address} {value : Int}

theorem settled_of_value (denotes : address.value graph = .ok value) :
    address.settled graph = .index value := by
  rw [settled, denotes]

/-- Settling an address changes nothing, on any graph. -/
theorem resolve_settled (graph : Graph) (address : Address) :
    (address.settled graph).resolve graph = address.resolve graph := by
  cases denotes : address.value graph with
  | ok value =>
      rw [settled_of_value denotes, resolve, resolve, denotes]
      rfl
  | error fault => rw [settled, denotes]

/--
On a sound graph an address that is no bare integer already denotes a neuron.
-/
theorem value_within (sound : graph.Sound)
    (denotes : address.value graph = .ok value) :
    address = .index value ∨ Within graph.count value := by
  have positive : 0 < (graph.count : Int) := Int.natCast_pos.mpr sound.count_pos
  have reserved : (reservedNeurons : Int) ≤ graph.count :=
    Int.ofNat_le.mpr sound.reserved_le_count
  have wrapped (index : Int) (found : wrapIndex index graph.count = .ok value) :
      Within graph.count value := by
    rw [wrapIndex_of_pos index positive] at found
    cases found
    exact ListPosition.within_emod index sound.count_pos
  cases address with
  | index integer =>
      cases denotes
      exact .inl rfl
  | current =>
      cases denotes
      exact .inr sound.cursor
  | first =>
      cases denotes
      exact .inr ⟨le_refl 0, positive⟩
  | previous => exact .inr (wrapped _ denotes)
  | next => exact .inr (wrapped _ denotes)
  | last =>
      cases denotes
      exact .inr ⟨by omega, by omega⟩
  | x =>
      cases denotes
      exact .inr ⟨by decide, lt_of_lt_of_le (by decide) reserved⟩
  | y =>
      cases denotes
      exact .inr ⟨by decide, lt_of_lt_of_le (by decide) reserved⟩
  | relative offset => exact .inr (wrapped _ denotes)
  | absolute integer => exact .inr (wrapped _ denotes)

/-- To wrap a value that counts a neuron gives the value back. -/
theorem resolve_of_within (denotes : address.value graph = .ok value)
    (within : Within graph.count value) :
    address.resolve graph = .ok value := by
  have occupied : 0 < graph.count :=
    Int.natCast_pos.mp (lt_of_le_of_lt within.1 within.2)
  rw [resolve_of_value denotes occupied, Int.emod_eq_of_lt within.1 within.2]

/--
An integer that the address wraps and the builder wraps again is wrapped once.
-/
theorem resolve_absolute (index : Int) (occupied : 0 < graph.count) :
    (absolute index).resolve graph = (Address.index index).resolve graph := by
  have denotes : (absolute index).value graph = .ok (index % graph.count) :=
    wrapIndex_of_pos index (Int.natCast_pos.mpr occupied)
  rw [resolve_of_within denotes (ListPosition.within_emod index occupied),
    resolve_of_value rfl occupied]

end Address

/-- A request with its address settled in a graph. -/
def Request.settled (graph : Graph) (request : Request) : Request :=
  request.map (Address.settled graph) id

namespace Graph

theorem edit_settled (graph : Graph) (request : Request) :
    graph.edit (request.settled graph) = graph.edit request := by
  cases request with
  | create neuron => cases neuron <;> rfl
  | moveTo address =>
      simp only [Request.settled, Instruction.map, edit,
        address.resolve_settled graph]
  | readFrom address =>
      simp only [Request.settled, Instruction.map, edit,
        address.resolve_settled graph]
  | assign output address =>
      simp only [Request.settled, Instruction.map, edit,
        address.resolve_settled graph]

/--
A request does the same with its address settled, also on a malformed graph.
-/
theorem run_perform_settled (graph : Graph) (request : Request) :
    (perform (request.settled graph)).run graph =
      (perform request).run graph := by
  rw [run_perform, run_perform, edit_settled]

/-- Requests with their addresses settled, each in the graph that it finds. -/
def settledAll (graph : Graph) : List Request → List Request
  | [] => []
  | request :: rest =>
      request.settled graph :: (graph.after request).settledAll rest

/-- A row of requests does the same with all its addresses settled. -/
theorem run_performAll_settledAll (requests : List Request) (graph : Graph) :
    (performAll (graph.settledAll requests)).run graph =
      (performAll requests).run graph := by
  induction requests generalizing graph with
  | nil => rfl
  | cons request rest ih =>
      have same := run_perform_settled graph request
      simp only [settledAll, performAll, Procedure.run_bind, same]
      cases outcome : (perform request).run graph with
      | mk result reached =>
          have later : graph.after request = reached := by rw [after, outcome]
          cases result with
          | ok done =>
              rw [later]
              exact ih reached
          | error fault => rfl

/-! ## Moves by a distance -/

/-- Move the cursor around the neurons. -/
def advance (graph : Graph) (offset : Int) : Graph :=
  graph.place ((graph.cursor + offset) % graph.count)

/-- Two moves in a row are the move by the sum of their distances. -/
theorem advance_advance (graph : Graph) (first second : Int) :
    (graph.advance first).advance second = graph.advance (first + second) := by
  show graph.place
    (((graph.cursor + first) % graph.count + second) % graph.count) = _
  rw [Int.emod_add_emod, add_assoc]
  rfl

namespace Sound

variable {graph : Graph}

theorem advance (sound : graph.Sound) (offset : Int) :
    (graph.advance offset).Sound :=
  sound.place (ListPosition.within_emod _ sound.count_pos)

/-- The moves that return to the cursor are those by whole turns. -/
theorem advance_eq_self_iff (sound : graph.Sound) {offset : Int} :
    graph.advance offset = graph ↔ (graph.count : Int) ∣ offset := by
  -- the cursor is its own remainder, so that congruent cursors are the same
  have settled : graph.cursor % graph.count = graph.cursor :=
    Int.emod_eq_of_lt sound.cursor.1 sound.cursor.2
  have returns : graph.advance offset = graph ↔
      (graph.cursor + offset) % graph.count = graph.cursor :=
    ⟨congrArg Graph.cursor, fun back => by rw [Graph.advance, back]; rfl⟩
  rw [returns, ← Int.modEq_zero_iff_dvd]
  constructor
  · intro back
    have same : graph.cursor + offset ≡
        graph.cursor + 0 [ZMOD graph.count] := by
      rw [Int.ModEq, back, add_zero, settled]
    exact same.add_left_cancel' _
  · intro turns
    have same := turns.add_left graph.cursor
    rw [Int.ModEq, add_zero, settled] at same
    exact same

/-- A request to move by a distance moves the cursor around. -/
theorem run_perform_relative (sound : graph.Sound) (offset : Int) :
    (perform (.moveTo (.relative offset))).run graph =
      (.ok (), graph.advance offset) := by
  have positive : 0 < (graph.count : Int) := Int.natCast_pos.mpr sound.count_pos
  have denotes : (Address.relative offset).value graph =
      .ok ((graph.cursor + offset) % graph.count) :=
    wrapIndex_of_pos (graph.cursor + offset) positive
  have resolved := Address.resolve_of_within denotes
    (ListPosition.within_emod _ sound.count_pos)
  rw [run_perform, edit, resolved]
  rfl

/-- A row of moves by distances is one move by their sum. -/
theorem run_performAll_relative (sound : graph.Sound) (offsets : List Int) :
    (performAll (offsets.map fun offset => .moveTo (.relative offset))).run
      graph = (.ok (), graph.advance offsets.sum) := by
  induction offsets generalizing graph with
  | nil =>
      have stays : graph.advance 0 = graph :=
        sound.advance_eq_self_iff.mpr (dvd_zero _)
      rw [List.sum_nil, stays]
      rfl
  | cons offset rest ih =>
      have first := sound.run_perform_relative offset
      rw [List.map_cons, performAll, Procedure.run_bind_of_ok first,
        ih (sound.advance offset), advance_advance, List.sum_cons]

end Sound

/--
On every graph that requests reach from the two inputs, the integers of any size
act on the cursor by relative moves: two moves are the move by their sum, the
next neuron and the previous one undo each other, and the cursor comes back
exactly after whole turns.  A move to an absolute integer is the move to the
integer itself.  Every address denotes an integer there, one that wrapping gives
back unless the address is a bare integer, and each request that takes the
address does what it does with that integer.  So a whole row of further requests
does the same with all its addresses settled, each in the graph that it finds.
-/
theorem navigation_cyclic (requests : List Request) :
    let graph := initial.afterAll requests
    (∀ first second : Int,
      (performAll [.moveTo (.relative first), .moveTo (.relative second)]).run
        graph = (perform (.moveTo (.relative (first + second)))).run graph) ∧
    (performAll [.moveTo .next, .moveTo .previous]).run graph =
      (.ok (), graph) ∧
    (performAll [.moveTo .previous, .moveTo .next]).run graph =
      (.ok (), graph) ∧
    (∀ offset : Int,
      (perform (.moveTo (.relative offset))).run graph =
          (.ok (), graph.advance offset) ∧
        (graph.advance offset = graph ↔ (graph.count : Int) ∣ offset)) ∧
    (∀ index : Int,
      (perform (.moveTo (.absolute index))).run graph =
        (perform (.moveTo (.index index))).run graph) ∧
    (∀ address : Address, ∃ value, address.value graph = .ok value ∧
      (address = .index value ∨
        Within graph.count value ∧ address.resolve graph = .ok value) ∧
      (perform (.moveTo address)).run graph =
        (perform (.moveTo (.index value))).run graph ∧
      (perform (.readFrom address)).run graph =
        (perform (.readFrom (.index value))).run graph ∧
      ∀ output : Output,
        (perform (.assign output address)).run graph =
          (perform (.assign output (.index value))).run graph) ∧
    ∀ more : List Request,
      (performAll (graph.settledAll more)).run graph =
        (performAll more).run graph := by
  intro graph
  have sound : graph.Sound := sound_initial.afterAll requests
  have pair (first second : Int) :
      (performAll [.moveTo (.relative first), .moveTo (.relative second)]).run
        graph = (.ok (), graph.advance (first + second)) := by
    have row := sound.run_performAll_relative [first, second]
    rwa [List.sum_cons, List.sum_singleton] at row
  have whole : graph.advance 0 = graph :=
    sound.advance_eq_self_iff.mpr (dvd_zero _)
  refine ⟨?_, ?_, ?_, ?_, ?_, ?_, fun more => ?_⟩
  · intro first second
    rw [pair, sound.run_perform_relative]
  · have undone := pair 1 (-1)
    rw [add_neg_cancel, whole] at undone
    exact undone
  · have undone := pair (-1) 1
    rw [neg_add_cancel, whole] at undone
    exact undone
  · exact fun offset => ⟨sound.run_perform_relative offset,
      sound.advance_eq_self_iff⟩
  · intro index
    rw [run_perform, run_perform, edit, edit,
      Address.resolve_absolute index sound.count_pos]
  · intro address
    obtain ⟨value, denotes⟩ := address.exists_value sound.count_pos
    have settled := Address.settled_of_value denotes
    refine ⟨value, denotes, ?_, ?_, ?_, ?_⟩
    · rcases Address.value_within sound denotes with bare | within
      · exact .inl bare
      · exact .inr ⟨within, Address.resolve_of_within denotes within⟩
    · rw [← settled]
      exact (run_perform_settled graph (.moveTo address)).symm
    · rw [← settled]
      exact (run_perform_settled graph (.readFrom address)).symm
    · intro output
      rw [← settled]
      exact (run_perform_settled graph (.assign output address)).symm
  · exact run_performAll_settledAll more graph

end Graph

end NeuralGenome
