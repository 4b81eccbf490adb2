import NeuralGenome.Proofs.Graph.Compilation
import NeuralGenome.Proofs.Graph.Placement
import NeuralGenome.Proofs.Reading.ListingMirror
import NeuralGenome.Proofs.Reading.ListingText

/-!
# Wires under the neuron that receives them

A listing puts its wire lines below a line that names a neuron, and a reader
takes them for the inputs of that neuron.  The invariant `Listing.Attributes`
says where they really stand: under the neuron that `Graph.named` gives for the
links stored so far.

A listing therefore shows the inputs of all neurons exactly if the program is
orderly, that is, never comes back to the neuron created last to read there.
-/

namespace NeuralGenome

/-! ## Lines and the neuron above them -/

namespace Listing

/-- The neuron that a line names for the wire lines below it. -/
def Line.heading? : Line → Option Nat
  | .created neuron _ => some neuron
  | .receiver neuron _ => some neuron
  | _ => none

/-- Whether a line lists a new neuron. -/
def Line.isCreated : Line → Bool
  | .created _ _ => true
  | _ => false

/--
The neuron that is named below lines, where one may be named above them already.
-/
def heading (above : Option Nat) : List Line → Option Nat
  | [] => above
  | line :: rest => heading (line.heading?.or above) rest

/--
The neuron at which each wire line starts, after the neuron that is named above
the line.
-/
def arrows (above : Option Nat) : List Line → List (Option Nat × Nat)
  | [] => []
  | line :: rest =>
      (line.wire?.map fun neuron => (above, neuron)).toList ++
        arrows (line.heading?.or above) rest

/--
The neurons at which the wire lines start that stand under a neuron, in order.
-/
def readsUnder (listing : Listing) (neuron : Nat) : List Nat :=
  ((arrows none listing.lines).filter (·.1 == some neuron)).map Prod.snd

theorem heading_append (above : Option Nat) (first second : List Line) :
    heading above (first ++ second) = heading (heading above first) second := by
  induction first generalizing above with
  | nil => rfl
  | cons line rest ih => exact ih _

theorem arrows_append (above : Option Nat) (first second : List Line) :
    arrows above (first ++ second) =
      arrows above first ++ arrows (heading above first) second := by
  induction first generalizing above with
  | nil => rfl
  | cons line rest ih =>
      rw [List.cons_append, arrows, ih, arrows, heading, List.append_assoc]

/-- Wire lines name no neuron. -/
theorem heading_wires (above : Option Nat) (listing : Listing)
    (neurons : List Nat) :
    heading above (neurons.map fun neuron =>
      .wire neuron (listing.name neuron)) = above := by
  induction neurons with
  | nil => rfl
  | cons neuron rest ih => exact ih

/-! ## What a call writes -/

/-- The receiver line that a read needs when no other read waits with it. -/
def receiverLine (listing : Listing) : List Line :=
  if listing.waiting.isEmpty && listing.latest != listing.reader then
    [.receiver listing.reader (listing.name listing.reader)]
  else []

/-- What a call adds to the lines, once no read waits before and after it. -/
def written (listing : Listing) : NumericCall → List Line
  | .create neuron =>
      [.created listing.neurons.length
        (neuron.definition (.pattern .zero)).listingName]
  | .moveTo _ => []
  | .readFrom index =>
      listing.receiverLine ++
        [.wire (listing.resolve index) (listing.name (listing.resolve index))]
  | .assign output index =>
      [.answer output (listing.resolve index)
        (listing.name (listing.resolve index))]

theorem lines_flush_of_waiting_eq_nil {listing : Listing}
    (done : listing.waiting = []) : listing.flush.lines = listing.lines := by
  rw [flush, waitingLines, done]
  exact List.append_nil _

theorem lines_flush_receive (listing : Listing) (call : NumericCall) :
    (listing.receive call).flush.lines =
      listing.flush.lines ++ listing.written call := by
  cases call with
  | create neuron => exact lines_flush_of_waiting_eq_nil rfl
  | moveTo index =>
      exact (lines_flush_of_waiting_eq_nil rfl).trans (List.append_nil _).symm
  | assign output index => exact lines_flush_of_waiting_eq_nil rfl
  | readFrom index =>
      -- the read joins those that wait, under the receiver line of the first of
      -- them
      show listing.lines ++ waitingLines (listing.receive (.readFrom index)) =
        listing.lines ++ listing.waitingLines ++ (listing.receiverLine ++ _)
      rw [List.append_assoc]
      cases waits : listing.waiting with
      | nil =>
          by_cases same : listing.latest = listing.reader <;>
            simp [waitingLines, receiverLine, receive, waits, same, name]
      | cons first rest =>
          by_cases same : listing.latest = listing.reader <;>
            simp [waitingLines, receiverLine, receive, waits, same, name]

/--
Below a read stands its reader, or still the neuron named before if that is the
latest one.
-/
theorem heading_written_readFrom (above : Option Nat) (listing : Listing) :
    heading (heading above listing.flush.lines) listing.receiverLine =
      if listing.latest = listing.reader then heading above listing.flush.lines
      else some listing.reader := by
  unfold receiverLine
  by_cases same : listing.latest = listing.reader
  · simp [same, heading]
  · cases waits : listing.waiting with
    | nil => simp [same, heading, Line.heading?]
    | cons first rest =>
        -- the receiver line has been written for the reads that wait already
        have flushed : listing.flush.lines =
            listing.lines ++
              (.receiver listing.reader (listing.name listing.reader) ::
              listing.waiting.map fun neuron =>
                .wire neuron (listing.name neuron)) := by
          rw [flush, waitingLines, waits, if_neg same]
          rfl
        have named :
            heading above listing.flush.lines = some listing.reader := by
          rw [flushed, heading_append]
          exact heading_wires _ listing listing.waiting
        simp [same, named, heading]

theorem arrows_receiverLine (above : Option Nat) (listing : Listing) :
    arrows above listing.receiverLine = [] := by
  unfold receiverLine
  split <;> rfl

theorem countP_receiverLine (listing : Listing) :
    listing.receiverLine.countP Line.isCreated = 0 := by
  unfold receiverLine
  split <;> rfl

/-! ## Listings that put wires where they are named -/

/--
A listing that mirrors a graph and puts each wire under the neuron that is named
above it.
-/
structure Attributes (listing : Listing) (graph : Graph)
    (wires : List Graph.Wire) : Prop where
  mirrors : listing.Mirrors graph wires
  latest : listing.latest + 1 = graph.count
  created : listing.flush.lines.countP Line.isCreated = graph.count
  heading :
    heading none listing.flush.lines = some (Graph.named wires graph.count)
  arrows :
    (arrows none listing.flush.lines).map (Prod.map id Int.ofNat) =
      (Graph.placed [] wires).map fun place => (some place.1, place.2.index)
  timely : Graph.Timely wires
  past : ∀ wire ∈ wires, wire.population ≤ graph.count

theorem attributes_initial : initial.Attributes Graph.initial [] where
  mirrors := mirrors_initial
  latest := rfl
  created := rfl
  heading := rfl
  arrows := rfl
  timely := fun _ member => absurd member List.not_mem_nil
  past := fun _ member => absurd member List.not_mem_nil

namespace Attributes

variable {listing : Listing} {graph : Graph} {wires : List Graph.Wire}

/--
What a call writes below the lines changes what is named and adds wire lines.
-/
theorem create (attributes : listing.Attributes graph wires)
    (neuron : Neuron Binary64) :
    (listing.receive (Call.numeric (.create neuron))).Attributes
      (graph.receive (.create neuron)) wires where
  mirrors := attributes.mirrors.create neuron
  latest := by
    show listing.neurons.length + 1 = (graph.append _).count
    rw [Graph.count_append, attributes.mirrors.neurons, Graph.count]
  created := by
    rw [lines_flush_receive, List.countP_append, attributes.created,
      Graph.receive, Graph.count_append]
    rfl
  heading := by
    -- no link has been stored since the creation, so the new neuron is named
    rw [lines_flush_receive, heading_append, Graph.receive, Graph.count_append]
    have created : Graph.named wires (graph.count + 1) = graph.count := by
      obtain ⟨latest, -⟩ | ⟨wire, member, strays, -⟩ :=
        Graph.named_cases wires (graph.count + 1)
      · exact latest
      · have past := attributes.past wire member
        simp only [Graph.Wire.strays, Bool.and_eq_true, beq_iff_eq] at strays
        omega
    rw [created, Graph.count, ← attributes.mirrors.neurons]
    rfl
  arrows := by
    rw [lines_flush_receive, arrows_append, List.map_append, attributes.arrows]
    exact List.append_nil _
  timely := attributes.timely
  past := by
    intro wire member
    rw [Graph.receive, Graph.count_append]
    exact Nat.le_succ_of_le (attributes.past wire member)

theorem moveTo (attributes : listing.Attributes graph wires) (index : Int) :
    (listing.receive (Call.numeric (.moveTo index))).Attributes
      (graph.receive (.moveTo index)) wires where
  mirrors := attributes.mirrors.moveTo index
  latest := attributes.latest
  created := by
    rw [lines_flush_receive, List.countP_append, attributes.created]
    rfl
  heading := by
    rw [lines_flush_receive]
    exact (congrArg (Listing.heading none) (List.append_nil _)).trans
      attributes.heading
  arrows := by
    rw [lines_flush_receive, ← attributes.arrows]
    exact congrArg (fun lines => (Listing.arrows none lines).map _)
      (List.append_nil _)
  timely := attributes.timely
  past := attributes.past

theorem assign (attributes : listing.Attributes graph wires) (output : Output)
    (index : Int) :
    (listing.receive (Call.numeric (.assign output index))).Attributes
      (graph.receive (.assign output index)) wires := by
  have same : (graph.receive (.assign output index)).count = graph.count := by
    cases output <;> rfl
  constructor
  case mirrors => exact attributes.mirrors.assign output index
  case latest => exact attributes.latest.trans same.symm
  case created =>
    rw [lines_flush_receive, List.countP_append, attributes.created, same]
    rfl
  case heading =>
    rw [lines_flush_receive, heading_append, attributes.heading, same]
    rfl
  case arrows =>
    rw [lines_flush_receive, arrows_append, List.map_append, attributes.arrows]
    exact List.append_nil _
  case timely => exact attributes.timely
  case past =>
    rw [same]
    exact attributes.past

/--
What is named below the receiver line of a read is what is named for the link it
stores.
-/
theorem heading_readFrom (attributes : listing.Attributes graph wires)
    (sound : graph.Sound) (index : Int) :
    Listing.heading none (listing.flush.lines ++ listing.receiverLine) =
      some (Graph.named
        (wires ++ [⟨graph.cursor.toNat, graph.wrap index, graph.count⟩])
        graph.count) := by
  have reader : graph.cursor.toNat = listing.reader := by
    rw [← attributes.mirrors.reader, Int.toNat_natCast]
  have bounds := sound.cursor
  have latest := attributes.latest
  unfold ListPosition.Within at bounds
  rw [heading_append, heading_written_readFrom]
  -- a read at the neuron created last has no receiver line, and its link does
  -- not stray
  by_cases home : listing.latest = listing.reader
  · rw [if_pos home, attributes.heading, Graph.named_append_of_not_strays]
    simp only [Graph.Wire.strays, beq_self_eq_true, Bool.true_and,
      bne_eq_false_iff_eq]
    omega
  · have strays : Graph.Wire.strays graph.count
        ⟨graph.cursor.toNat, graph.wrap index, graph.count⟩ = true := by
      simp only [Graph.Wire.strays, beq_self_eq_true, Bool.true_and, bne_iff_ne]
      omega
    rw [if_neg home, ← reader]
    exact congrArg some (Graph.named_of_strays wires strays).symm

theorem readFrom (attributes : listing.Attributes graph wires)
    (sound : graph.Sound) (index : Int) :
    (listing.receive (Call.numeric (.readFrom index))).Attributes
      (graph.receive (.readFrom index))
      (wires ++ [⟨graph.cursor.toNat, graph.wrap index, graph.count⟩]) := by
  have named := attributes.heading_readFrom sound index
  have lines : (listing.receive (Call.numeric (.readFrom index))).flush.lines =
      listing.flush.lines ++ listing.receiverLine ++
        [.wire (listing.resolve index)
          (listing.name (listing.resolve index))] := by
    rw [List.append_assoc]
    exact listing.lines_flush_receive (.readFrom index)
  constructor
  case mirrors => exact attributes.mirrors.readFrom index
  case latest => exact attributes.latest
  case created =>
    rw [lines, List.countP_append, List.countP_append, attributes.created,
      countP_receiverLine]
    rfl
  case heading =>
    rw [lines, heading_append, named]
    rfl
  case arrows =>
    rw [lines, arrows_append, arrows_append, arrows_receiverLine,
      List.append_nil, named, List.map_append, attributes.arrows,
      Graph.placed_append, List.map_append, ← attributes.mirrors.resolve index]
    rfl
  case timely =>
    have inside : graph.cursor.toNat < graph.count := by
      have bounds := sound.cursor
      unfold ListPosition.Within at bounds
      omega
    exact List.forall_mem_append.mpr
      ⟨attributes.timely, List.forall_mem_singleton.mpr inside⟩
  case past =>
    exact List.forall_mem_append.mpr
      ⟨attributes.past, List.forall_mem_singleton.mpr (Nat.le_refl _)⟩

theorem receive (attributes : listing.Attributes graph wires)
    (sound : graph.Sound) (call : Call) :
    (listing.receive call.numeric).Attributes (graph.receive call)
      (wires ++ ((graph.ask call).wire? graph.count).toList) := by
  cases call with
  | create neuron =>
      exact (List.append_nil wires).symm ▸ attributes.create neuron
  | moveTo index => exact (List.append_nil wires).symm ▸ attributes.moveTo index
  | readFrom index => exact attributes.readFrom sound index
  | assign output index =>
      exact (List.append_nil wires).symm ▸ attributes.assign output index

theorem receiveAll (attributes : listing.Attributes graph wires)
    (sound : graph.Sound) (calls : List Call) :
    (listing.receiveAll (calls.map Call.numeric)).Attributes
      (graph.receiveAll calls)
      (wires ++ graph.wires (calls.map Call.request)) := by
  induction calls generalizing listing graph wires with
  | nil => exact (List.append_nil wires).symm ▸ attributes
  | cons call rest ih =>
      rw [List.map_cons, List.map_cons, Graph.wires, sound.wire?_request,
        sound.after_request, ← List.append_assoc]
      exact ih (attributes.receive sound call) (sound.receive call)

/-- The reads under a neuron are the links that are placed under it. -/
theorem readsUnder (attributes : listing.Attributes graph wires)
    (neuron : Nat) : (listing.flush.readsUnder neuron).map Int.ofNat =
      ((Graph.placed [] wires).filter (·.1 == neuron)).map fun place =>
        place.2.index := by
  have kept := congrArg
    (fun places : List (Option Nat × Int) =>
      (places.filter (·.1 == some neuron)).map Prod.snd) attributes.arrows
  simp only [List.filter_map, List.map_map] at kept
  rw [Listing.readsUnder, List.map_map]
  exact kept

end Attributes

/--
A listing that shows under each neuron of a graph the neurons that it reads, in
order.
-/
def Shows (listing : Listing) (graph : Graph) : Prop :=
  ∀ neuron < graph.count,
    graph.inputs[neuron]? = some ((listing.readsUnder neuron).map Int.ofNat)

end Listing

/-! ## Programs -/

namespace Program

/-- The links that a program stores, in order. -/
def wires (program : Program) : List Graph.Wire :=
  Graph.initial.wires program.requests

/--
A program that does not return to the neuron created last.  Once it has read at
another neuron, it does not read at the neuron created last before it creates
the next one.
-/
def IsOrderly (program : Program) : Prop :=
  Graph.Orderly program.wires

instance (program : Program) : Decidable program.IsOrderly :=
  inferInstanceAs (Decidable (Graph.Orderly _))

theorem exists_attributes (program : Program) :
    ∃ listing : Listing, program.listing = listing.flush ∧
      listing.Attributes program.compiled program.wires :=
  ⟨_, rfl, Listing.attributes_initial.receiveAll Graph.sound_initial
    program.calls⟩

/-- A listing has a line for each neuron that is compiled. -/
theorem countP_lines_listing (program : Program) :
    program.listing.lines.countP Listing.Line.isCreated =
      program.compiled.count := by
  obtain ⟨listing, listed, attributes⟩ := program.exists_attributes
  rw [listed]
  exact attributes.created

/--
The inputs of a compiled neuron are the links that the program stores at it.
-/
theorem inputs_compiled (program : Program) {neuron : Nat}
    (inside : neuron < program.compiled.count) :
    program.compiled.inputs[neuron]? =
      some ((program.wires.filter (·.reader == neuron)).map
        Graph.Wire.index) := by
  rw [← afterAll_requests] at inside ⊢
  exact Graph.inputs_afterAll_initial program.requests inside

/--
The listing of a program shows its wiring exactly if the program is orderly.
-/
theorem shows_compiled_iff (program : Program) :
    program.listing.Shows program.compiled ↔ program.IsOrderly := by
  obtain ⟨listing, listed, attributes⟩ := program.exists_attributes
  have timely : Graph.Timely ([] ++ program.wires) := attributes.timely
  have below := Graph.placed_le_reader timely
  have read {neuron : Nat} (inside : neuron < program.compiled.count) :
      program.compiled.inputs[neuron]? =
        some
          (((Graph.placed [] program.wires).filter (·.2.reader == neuron)).map
          fun place => place.2.index) := by
    rw [program.inputs_compiled inside, ← Graph.map_snd_placed [] program.wires,
      List.filter_map, List.map_map, Graph.map_snd_placed]
    rfl
  rw [listed, IsOrderly, ← Graph.placed_iff_orderly,
    Graph.forall_placed_iff below]
  constructor
  · intro shows neuron
    by_cases inside : neuron < program.compiled.count
    · have shown := shows neuron inside
      rw [attributes.readsUnder, read inside] at shown
      exact (Option.some.inj shown).symm
    · -- no link is placed under a neuron that does not exist, and none is read
      -- by it
      have beyond (place : Nat × Graph.Wire)
          (member : place ∈ Graph.placed [] program.wires) :
          place.1 ≠ neuron ∧ place.2.reader ≠ neuron := by
        have stored : place.2 ∈ program.wires :=
          Graph.map_snd_placed [] program.wires ▸ List.mem_map_of_mem member
        have order := below place member
        have early := attributes.timely place.2 stored
        have past := attributes.past place.2 stored
        omega
      rw [List.filter_eq_nil_iff.mpr fun place member => by
          simpa using (beyond place member).1,
        List.filter_eq_nil_iff.mpr fun place member => by
          simpa using (beyond place member).2]
  · intro same neuron inside
    rw [attributes.readsUnder, read inside, same]

/-- Graphs that two listings with the same lines show have the same inputs. -/
theorem inputs_eq_of_shows {listing : Listing} {first second : Graph}
    (firstSound : first.Sound) (secondSound : second.Sound)
    (count : first.count = second.count)
    (firstShown : listing.Shows first) (secondShown : listing.Shows second) :
    first.inputs = second.inputs := by
  refine List.ext_getElem? fun neuron => ?_
  by_cases inside : neuron < first.count
  · rw [firstShown neuron inside, secondShown neuron (count ▸ inside)]
  · rw [List.getElem?_eq_none (by rw [firstSound.inputs]; omega),
      List.getElem?_eq_none (by rw [secondSound.inputs]; omega)]

/--
A listing shows the wiring of a program exactly if the program is orderly: then
the wire lines below the last line that names a neuron are, in order, the inputs
that are compiled for it.  Of two programs whose listings have the same text,
the one orderly, the other is wired in the same way exactly if it is orderly
too.
-/
theorem listing_shows_wiring (left right : Program) :
    ∃ first second : Graph,
      left.graph = .ok first ∧ right.graph = .ok second ∧
      (left.listing.Shows first ↔ left.IsOrderly) ∧
      (left.listing.text = right.listing.text → left.IsOrderly →
        (first.inputs = second.inputs ↔ right.IsOrderly)) := by
  refine ⟨left.compiled, right.compiled, left.graph_eq, right.graph_eq,
    left.shows_compiled_iff, fun text orderly => ?_⟩
  have lines := listing_lines_eq text
  have count : left.compiled.count = right.compiled.count := by
    rw [← left.countP_lines_listing, lines, right.countP_lines_listing]
  have shown : right.listing.Shows left.compiled := by
    intro neuron inside
    rw [Listing.readsUnder, ← lines]
    exact left.shows_compiled_iff.mpr orderly neuron inside
  rw [← right.shows_compiled_iff]
  constructor
  · intro same neuron inside
    rw [← same]
    exact shown neuron (count ▸ inside)
  · exact inputs_eq_of_shows left.sound_compiled right.sound_compiled
      count shown

/-- Reads at the third neuron and then at the fourth, which was created last. -/
def returning : Program :=
  [.create .sum, .create .sum, .moveTo ⟨0x4000000000000000⟩, .readFrom .zero,
    .moveTo ⟨0x4008000000000000⟩, .readFrom ⟨0x3ff0000000000000⟩,
    .assign .dx ⟨0x4000000000000000⟩, .assign .dy ⟨0x4008000000000000⟩]

/-- Both reads at the third neuron. -/
def staying : Program :=
  [.create .sum, .create .sum, .moveTo ⟨0x4000000000000000⟩, .readFrom .zero,
    .readFrom ⟨0x3ff0000000000000⟩,
    .assign .dx ⟨0x4000000000000000⟩, .assign .dy ⟨0x4008000000000000⟩]

/-- No line tells the two programs apart. -/
theorem text_returning : returning.listing.text = staying.listing.text := by
  have lines :
      returning.listing.lines = staying.listing.lines := by decide +kernel
  rw [Listing.text, lines, Listing.text]

theorem listing_misplaces_wire :
    returning.listing.text = staying.listing.text ∧
      (∃ graph : Graph, returning.graph = .ok graph ∧
        graph.inputs = [[], [], [0], [1]] ∧ ¬returning.listing.Shows graph) ∧
      ∃ graph : Graph, staying.graph = .ok graph ∧
        graph.inputs = [[], [], [0, 1], []] := by
  refine ⟨text_returning, ⟨_, rfl, by decide +kernel, fun shows => ?_⟩,
    _, rfl, by decide +kernel⟩
  have misplaced := shows 3 (by decide +kernel)
  revert misplaced
  decide +kernel

theorem listing_shows_wiring_staying :
    staying.IsOrderly ∧ staying.listing.text = returning.listing.text ∧
      ∃ first second : Graph, staying.graph = .ok first ∧
        returning.graph = .ok second ∧
        staying.listing.Shows first ∧ first.inputs ≠ second.inputs := by
  obtain ⟨first, second, left, right, shows, same⟩ :=
    listing_shows_wiring staying returning
  have orderly : staying.IsOrderly := by decide +kernel
  have returns : ¬returning.IsOrderly := by decide +kernel
  have text : staying.listing.text = returning.listing.text :=
    text_returning.symm
  exact ⟨orderly, text, first, second, left, right, shows.mpr orderly,
    fun inputs => returns ((same text orderly).mp inputs)⟩

end Program

end NeuralGenome
