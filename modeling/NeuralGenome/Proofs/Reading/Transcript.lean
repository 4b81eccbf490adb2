import Mathlib.Logic.Relation
import NeuralGenome.Proofs.Reading.Attribution

/-!
# Listings and transcripts

A listing lets reads wait; they are written with the next creation, move or
output, or when its text is asked for.  A transcript writes each read at once,
below a receiver line if the read is the first one since the last creation,
move, output or pause.  The invariant `Transcript.Transcribes` says that a
listing and the transcript with a pause wherever the text is asked for have the
same lines.

So asking for the text on the way can do no more than repeat a receiver line
between two reads at the same neuron, and every text goes on where the text
before it ended.
-/

namespace NeuralGenome

/-! ## Sessions -/

namespace Listing

/--
What is done with a listing: it receives a call, or its text is asked for.
-/
inductive Use where
  | call (call : NumericCall)
  | finish

/--
The same calls in the same order, where the text may be asked for less often.
-/
inductive Use.Spares : List Use → List Use → Prop
  | done : Spares [] []
  | both (use : Use) {uses fewer : List Use} (rest : Spares uses fewer) :
      Spares (use :: uses) (use :: fewer)
  | leaveOut {uses fewer : List Use} (rest : Spares uses fewer) :
      Spares (.finish :: uses) fewer

def use (listing : Listing) : Use → Listing
  | .call call => listing.receive call
  | .finish => listing.finish.2

def useAll (listing : Listing) (uses : List Use) : Listing :=
  uses.foldl use listing

/-- The texts that are returned, in order. -/
def texts (listing : Listing) : List Use → List String
  | [] => []
  | .call call :: rest => (listing.receive call).texts rest
  | .finish :: rest => listing.finish.1 :: listing.finish.2.texts rest

theorem texts_append (listing : Listing) (first second : List Use) :
    listing.texts (first ++ second) =
      listing.texts first ++ (listing.useAll first).texts second := by
  induction first generalizing listing with
  | nil => rfl
  | cons use rest ih =>
      cases use with
      | call call => exact ih (listing.receive call)
      | finish => exact congrArg (listing.finish.1 :: ·) (ih listing.finish.2)

/--
The text that is asked for at the end is that of the lines once no read waits.
-/
theorem getLast?_texts (listing : Listing) (uses : List Use) :
    (listing.texts (uses ++ [.finish])).getLast? =
      some (listing.useAll uses).flush.text := by
  rw [texts_append]
  exact List.getLast?_concat

theorem lines_flush_flush (listing : Listing) :
    listing.flush.flush.lines = listing.flush.lines :=
  lines_flush_of_waiting_eq_nil rfl

/-- Lines are only ever added. -/
theorem lines_flush_use (listing : Listing) (use : Use) :
    listing.flush.lines <+: (listing.use use).flush.lines := by
  cases use with
  | call call =>
      rw [Listing.use, lines_flush_receive]
      exact List.prefix_append _ _
  | finish => exact listing.lines_flush_flush ▸ List.prefix_rfl

/-- Every text that is still to come starts with the lines of now. -/
theorem Legible.rows_prefix {listing : Listing} (legible : listing.Legible)
    {uses : List Use} {text : String} (returned : text ∈ listing.texts uses) :
    listing.flush.lines.map Line.text <+: rows text := by
  induction uses generalizing listing with
  | nil => cases returned
  | cons use rest ih =>
      have grows : listing.flush.lines.map Line.text <+:
          (listing.use use).flush.lines.map Line.text :=
        (listing.lines_flush_use use).map Line.text
      cases use with
      | call call => exact grows.trans (ih (legible.receive call) returned)
      | finish =>
          rcases List.mem_cons.mp returned with rfl | later
          · exact legible.flush.rows_text ▸ List.prefix_rfl
          · exact grows.trans (ih legible.flush later)

/-- Each text starts with the rows of every earlier one. -/
theorem Legible.pairwise_rows {listing : Listing} (legible : listing.Legible)
    (uses : List Use) :
    (listing.texts uses).Pairwise fun earlier later => rows earlier <+:
      rows later := by
  induction uses generalizing listing with
  | nil => exact List.Pairwise.nil
  | cons use rest ih =>
      cases use with
      | call call => exact ih (legible.receive call)
      | finish =>
          refine List.Pairwise.cons (fun later returned => ?_)
            (ih legible.flush)
          have begun := legible.flush.rows_prefix returned
          rw [lines_flush_flush, ← legible.flush.rows_text] at begun
          exact begun

end Listing

/-! ## Transcripts -/

/-- A line, and the neuron that receives reads where it is written. -/
structure Transcript.Entry where
  line : Listing.Line
  reader : Nat

/-- A listing in which no read waits. -/
structure Transcript where
  entries : List Transcript.Entry
  neurons : List (Definition Number)
  /-- The neuron that receives reads. -/
  reader : Nat
  /-- The neuron created last. -/
  latest : Nat
  /--
  Whether there was no read since the last creation, move, output or pause.
  -/
  fresh : Bool

namespace Transcript

def lines (transcript : Transcript) : List Listing.Line :=
  transcript.entries.map Entry.line

def text (transcript : Transcript) : String :=
  "\n".intercalate (transcript.lines.map Listing.Line.text)

def name (transcript : Transcript) (neuron : Nat) : String :=
  ((transcript.neurons[neuron]?).map Definition.listingName).getD ""

def resolve (transcript : Transcript) (index : Int) : Nat :=
  ListPosition.wrap transcript.neurons.length index

/-- Both inputs are listed, and the first receives reads. -/
def initial : Transcript where
  entries := [⟨.created 0 "X", 0⟩, ⟨.created 1 "Y", 1⟩]
  neurons := [⟨.inputX, .pattern .zero⟩, ⟨.inputY, .pattern .zero⟩]
  reader := 0
  latest := 1
  fresh := true

/-- The line that names the reader. -/
def receiver (transcript : Transcript) : Entry :=
  ⟨.receiver transcript.reader (transcript.name transcript.reader),
    transcript.reader⟩

/--
The lines above a read: the reader is named for the first one, if it was not
created last.
-/
def heading (transcript : Transcript) : List Entry :=
  if transcript.fresh && transcript.latest != transcript.reader then
    [transcript.receiver]
  else []

/-- The line of a read. -/
def read (transcript : Transcript) (index : Int) : Entry :=
  ⟨.wire (transcript.resolve index)
    (transcript.name (transcript.resolve index)), transcript.reader⟩

/-- The lines of a call. -/
def added (transcript : Transcript) : NumericCall → List Entry
  | .create neuron =>
      let created := transcript.neurons.length
      [⟨.created created (neuron.definition (.pattern .zero)).listingName,
        created⟩]
  | .moveTo _ => []
  | .readFrom index => transcript.heading ++ [transcript.read index]
  | .assign output index =>
      let assigned := transcript.resolve index
      [⟨.answer output assigned (transcript.name assigned), transcript.reader⟩]

def receive (transcript : Transcript) (call : NumericCall) : Transcript :=
  let written :=
    { transcript with entries := transcript.entries ++ transcript.added call }
  match call with
  | .create neuron =>
      { written with
        neurons := transcript.neurons ++ [neuron.definition (.pattern .zero)]
        reader := transcript.neurons.length
        latest := transcript.neurons.length
        fresh := true }
  | .moveTo index =>
      { written with reader := transcript.resolve index, fresh := true }
  | .readFrom _ => { written with fresh := false }
  | .assign _ _ => { written with fresh := true }

theorem entries_receive (transcript : Transcript) (call : NumericCall) :
    (transcript.receive call).entries =
      transcript.entries ++ transcript.added call := by
  cases call <;> rfl

def receiveAll (transcript : Transcript) (calls : List NumericCall) :
    Transcript :=
  calls.foldl receive transcript

/-- The next read is a first one again. -/
def pause (transcript : Transcript) : Transcript :=
  { transcript with fresh := true }

/-- Each call is received, with a pause where the text is asked for. -/
def use (transcript : Transcript) : Listing.Use → Transcript
  | .call call => transcript.receive call
  | .finish => transcript.pause

def useAll (transcript : Transcript) (uses : List Listing.Use) : Transcript :=
  uses.foldl use transcript

/-- Where the text is never asked for there is no pause. -/
theorem useAll_calls (transcript : Transcript) (calls : List NumericCall) :
    transcript.useAll (calls.map .call) = transcript.receiveAll calls :=
  List.foldl_map

/-! ## A listing and its transcript -/

/-- A transcript with the lines that a listing has once no read waits. -/
structure Transcribes (transcript : Transcript) (listing : Listing) : Prop where
  lines : listing.flush.lines = transcript.lines
  neurons : listing.neurons = transcript.neurons
  reader : listing.reader = transcript.reader
  latest : listing.latest = transcript.latest
  /-- The first of the reads that wait is the first one in the transcript. -/
  fresh : listing.waiting.isEmpty = transcript.fresh

theorem transcribes_initial : initial.Transcribes Listing.initial where
  lines := rfl
  neurons := rfl
  reader := rfl
  latest := rfl
  fresh := rfl

namespace Transcribes

variable {transcript : Transcript} {listing : Listing}

theorem name (transcribes : transcript.Transcribes listing) (neuron : Nat) :
    listing.name neuron = transcript.name neuron := by
  rw [Listing.name, transcribes.neurons, Transcript.name]

theorem resolve (transcribes : transcript.Transcribes listing) (index : Int) :
    listing.resolve index = transcript.resolve index := by
  rw [Listing.resolve, transcribes.neurons, Transcript.resolve]

theorem heading (transcribes : transcript.Transcribes listing) :
    listing.receiverLine = transcript.heading.map Entry.line := by
  rw [Listing.receiverLine, Transcript.heading, transcribes.fresh,
    transcribes.latest, transcribes.reader, transcribes.name]
  split <;> rfl

/-- A call adds the same lines to both. -/
theorem written (transcribes : transcript.Transcribes listing)
    (call : NumericCall) :
    listing.written call = (transcript.added call).map Entry.line := by
  cases call with
  | create neuron =>
      rw [Listing.written, transcribes.neurons]
      rfl
  | moveTo index => rfl
  | readFrom index =>
      rw [Listing.written, transcribes.heading, transcribes.resolve,
        transcribes.name, added, List.map_append]
      rfl
  | assign output index =>
      rw [Listing.written, transcribes.resolve, transcribes.name]
      rfl

theorem receive (transcribes : transcript.Transcribes listing)
    (call : NumericCall) :
    (transcript.receive call).Transcribes (listing.receive call) where
  lines := by
    rw [Listing.lines_flush_receive, transcribes.lines, transcribes.written,
      Transcript.lines, Transcript.lines, entries_receive, List.map_append]
  neurons := by
    cases call with
    | create neuron => exact congrArg (· ++ _) transcribes.neurons
    | moveTo index => exact transcribes.neurons
    | readFrom index => exact transcribes.neurons
    | assign output index => exact transcribes.neurons
  reader := by
    cases call with
    | create neuron => exact congrArg List.length transcribes.neurons
    | moveTo index => exact transcribes.resolve index
    | readFrom index => exact transcribes.reader
    | assign output index => exact transcribes.reader
  latest := by
    cases call with
    | create neuron => exact congrArg List.length transcribes.neurons
    | moveTo index => exact transcribes.latest
    | readFrom index => exact transcribes.latest
    | assign output index => exact transcribes.latest
  fresh := by
    cases call with
    | create neuron => rfl
    | moveTo index => rfl
    | readFrom index =>
        exact List.isEmpty_eq_false_iff.mpr
          (List.append_ne_nil_of_right_ne_nil _ (List.cons_ne_nil _ _))
    | assign output index => rfl

theorem finish (transcribes : transcript.Transcribes listing) :
    transcript.pause.Transcribes listing.finish.2 where
  lines := listing.lines_flush_flush.trans transcribes.lines
  neurons := transcribes.neurons
  reader := transcribes.reader
  latest := transcribes.latest
  fresh := rfl

theorem useAll (transcribes : transcript.Transcribes listing)
    (uses : List Listing.Use) :
    (transcript.useAll uses).Transcribes (listing.useAll uses) := by
  induction uses generalizing transcript listing with
  | nil => exact transcribes
  | cons use rest ih =>
      cases use with
      | call call => exact ih (transcribes.receive call)
      | finish => exact ih transcribes.finish

/-- The last text is that of the transcript. -/
theorem getLast?_texts (transcribes : transcript.Transcribes listing)
    (uses : List Listing.Use) :
    (listing.texts (uses ++ [.finish])).getLast? =
      some (transcript.useAll uses).text := by
  rw [Listing.getLast?_texts, Listing.text, (transcribes.useAll uses).lines,
    Transcript.text]

end Transcribes

/-! ## Repeated receiver lines -/

/-- An entry for a read at a neuron. -/
def Entry.IsReadAt (reader : Nat) (entry : Entry) : Prop :=
  entry.reader = reader ∧ entry.line.wire?.isSome

/--
A receiver line is deleted that stands directly between reads at the neuron that
it names, and that repeats the receiver line above those reads.
-/
inductive DropsRepeat : List Entry → List Entry → Prop
  | repeated (above reads below : List Entry) (read : Entry) (reader : Nat)
      (name : String)
      (some : reads ≠ []) (before : ∀ entry ∈ reads, entry.IsReadAt reader)
      (after : read.IsReadAt reader) :
      DropsRepeat
        (above ++ ⟨.receiver reader name, reader⟩ :: reads ++
          ⟨.receiver reader name, reader⟩ :: read :: below)
        (above ++ ⟨.receiver reader name, reader⟩ :: reads ++ read :: below)

/-- Entries that differ at most by repeated receiver lines. -/
abbrev DropsRepeats : List Entry → List Entry → Prop :=
  Relation.ReflTransGen DropsRepeat

theorem DropsRepeat.append {entries fewer : List Entry}
    (drops : DropsRepeat entries fewer)
    (more : List Entry) : DropsRepeat (entries ++ more) (fewer ++ more) := by
  cases drops with
  | repeated above reads below read reader name some before after =>
      have longer :=
        DropsRepeat.repeated above reads (below ++ more) read reader name some
          before after
      simpa only [List.append_assoc, List.cons_append] using longer

theorem DropsRepeats.append {entries fewer : List Entry}
    (drops : DropsRepeats entries fewer)
    (more : List Entry) : DropsRepeats (entries ++ more) (fewer ++ more) :=
  Relation.ReflTransGen.lift (· ++ more) (fun _ _ drop => drop.append more)
    _ _ drops

theorem isReadAt_read (transcript : Transcript) (index : Int) :
    (transcript.read index).IsReadAt transcript.reader :=
  ⟨rfl, rfl⟩

/-- The reader is named, and all lines below are reads at it. -/
def IsReading (transcript : Transcript) : Prop :=
  ∃ above reads : List Entry, reads ≠ [] ∧
    (∀ entry ∈ reads, entry.IsReadAt transcript.reader) ∧
    transcript.entries = above ++ transcript.receiver :: reads

/--
A read is a first one, whose reader is named above it, or follows other reads.
-/
theorem IsReading.readFrom {transcript : Transcript}
    (apart : transcript.latest ≠ transcript.reader)
    (reading : transcript.fresh = false → transcript.IsReading) (index : Int) :
    (transcript.receive (.readFrom index)).IsReading := by
  have named := transcript.isReadAt_read index
  rw [IsReading, entries_receive]
  cases fresh : transcript.fresh with
  | true =>
      have heading : transcript.heading = [transcript.receiver] := by
        rw [heading, fresh, Bool.true_and, bne_iff_ne.mpr apart]
        rfl
      refine ⟨transcript.entries, [transcript.read index], List.cons_ne_nil _ _,
        List.forall_mem_singleton.mpr named, ?_⟩
      rw [added, heading]
      rfl
  | false =>
      have heading : transcript.heading = [] := by
        rw [heading, fresh]
        rfl
      obtain ⟨above, reads, -, before, entries⟩ := reading fresh
      refine ⟨above, reads ++ [transcript.read index],
        List.append_ne_nil_of_right_ne_nil _ (List.cons_ne_nil _ _),
        List.forall_mem_append.mpr
          ⟨before, List.forall_mem_singleton.mpr named⟩, ?_⟩
      rw [added, heading, entries, List.append_assoc]
      rfl

/-- A transcript of the same calls with fewer pauses. -/
structure Abridges (brief full : Transcript) : Prop where
  entries : DropsRepeats full.entries brief.entries
  neurons : brief.neurons = full.neurons
  reader : brief.reader = full.reader
  latest : brief.latest = full.latest
  fresh : brief.fresh = true → full.fresh = true
  /--
  A receiver line that only the full transcript repeats is repeated below reads.
  -/
  reading : brief.latest ≠ brief.reader → brief.fresh = false → brief.IsReading

theorem abridges_initial : initial.Abridges initial where
  entries := .refl
  neurons := rfl
  reader := rfl
  latest := rfl
  fresh := id
  reading := fun _ read => by cases read

namespace Abridges

variable {brief full : Transcript}

theorem pauseFull (abridges : brief.Abridges full) :
    brief.Abridges full.pause where
  entries := abridges.entries
  neurons := abridges.neurons
  reader := abridges.reader
  latest := abridges.latest
  fresh := fun _ => rfl
  reading := abridges.reading

theorem pause (abridges : brief.Abridges full) :
    brief.pause.Abridges full.pause where
  entries := abridges.entries
  neurons := abridges.neurons
  reader := abridges.reader
  latest := abridges.latest
  fresh := id
  reading := fun _ read => by cases read

theorem name (abridges : brief.Abridges full) (neuron : Nat) :
    brief.name neuron = full.name neuron := by
  rw [Transcript.name, abridges.neurons, Transcript.name]

theorem resolve (abridges : brief.Abridges full) (index : Int) :
    brief.resolve index = full.resolve index := by
  rw [Transcript.resolve, abridges.neurons, Transcript.resolve]

theorem receiver (abridges : brief.Abridges full) :
    brief.receiver = full.receiver := by
  rw [Transcript.receiver, abridges.reader, abridges.name, Transcript.receiver]

theorem read (abridges : brief.Abridges full) (index : Int) :
    brief.read index = full.read index := by
  rw [Transcript.read, abridges.reader, abridges.resolve, abridges.name,
    Transcript.read]

/--
Both transcripts name the reader, or the full one repeats its receiver line.
-/
theorem readFrom (abridges : brief.Abridges full) (index : Int) :
    DropsRepeats (full.receive (.readFrom index)).entries
      (brief.receive (.readFrom index)).entries := by
  rw [entries_receive, entries_receive, added, added, ← abridges.read index]
  by_cases same : brief.heading = full.heading
  · rw [same]
    exact abridges.entries.append _
  · have apart : brief.latest ≠ brief.reader := by
      rintro home
      refine same ?_
      rw [heading, heading, ← abridges.latest, ← abridges.reader, home,
        bne_self_eq_false, Bool.and_false, Bool.and_false]
      rfl
    have fresh : brief.fresh = false := by
      refine Bool.eq_false_iff.mpr fun first => same ?_
      rw [heading, heading, first, abridges.fresh first, abridges.latest,
        abridges.reader, abridges.receiver]
    have briefHeading : brief.heading = [] := by
      rw [heading, fresh]
      rfl
    have fullHeading : full.heading = [brief.receiver] := by
      rw [briefHeading, heading] at same
      rw [heading, abridges.receiver]
      split at same
      case isTrue first => rw [if_pos first]
      case isFalse => exact absurd rfl same
    obtain ⟨above, reads, some, before, entries⟩ := abridges.reading apart fresh
    have drop :=
      DropsRepeat.repeated above reads [] (brief.read index) brief.reader
        (brief.name brief.reader) some before (brief.isReadAt_read index)
    have grown := abridges.entries.append [brief.receiver, brief.read index]
    rw [entries] at grown
    rw [briefHeading, fullHeading, entries]
    exact grown.tail drop

theorem receive (abridges : brief.Abridges full) (call : NumericCall) :
    (brief.receive call).Abridges (full.receive call) := by
  cases call with
  | create neuron =>
      constructor
      case entries =>
        rw [entries_receive, entries_receive, added, added, abridges.neurons]
        exact abridges.entries.append _
      case neurons => exact congrArg (· ++ _) abridges.neurons
      case reader => exact congrArg List.length abridges.neurons
      case latest => exact congrArg List.length abridges.neurons
      case fresh => exact id
      case reading => exact fun _ read => by cases read
  | moveTo index =>
      constructor
      case entries =>
        rw [entries_receive, entries_receive, added, added]
        exact abridges.entries.append _
      case neurons => exact abridges.neurons
      case reader => exact abridges.resolve index
      case latest => exact abridges.latest
      case fresh => exact id
      case reading => exact fun _ read => by cases read
  | readFrom index =>
      exact
        { entries := abridges.readFrom index
          neurons := abridges.neurons
          reader := abridges.reader
          latest := abridges.latest
          fresh := fun read => by cases read
          reading := fun (apart : brief.latest ≠ brief.reader) _ =>
            IsReading.readFrom apart (abridges.reading apart) index }
  | assign output index =>
      constructor
      case entries =>
        rw [entries_receive, entries_receive, added, added, abridges.reader,
          abridges.resolve, abridges.name]
        exact abridges.entries.append _
      case neurons => exact abridges.neurons
      case reader => exact abridges.reader
      case latest => exact abridges.latest
      case fresh => exact id
      case reading => exact fun _ read => by cases read

/-- Leaving out pauses deletes no other lines than repeated ones. -/
theorem useAll (abridges : brief.Abridges full) {uses fewer : List Listing.Use}
    (spares : Listing.Use.Spares uses fewer) :
    (brief.useAll fewer).Abridges (full.useAll uses) := by
  induction spares generalizing brief full with
  | done => exact abridges
  | both use rest ih =>
      cases use with
      | call call => exact ih (abridges.receive call)
      | finish => exact ih abridges.pause
  | leaveOut rest ih => exact ih abridges.pauseFull

end Abridges

end Transcript

namespace Listing

/--
Letting reads wait does no harm.  Each text that a listing returns starts with
the rows of every earlier one.  Where the text is asked for less often on the
way, the last text is the same but for repeated receiver lines between reads at
one neuron, which are missing.  Where it is never asked for on the way, the last
text is the one with each read written at once.
-/
theorem texts_transcribed :
    (∀ uses : List Use,
      (initial.texts uses).Pairwise fun earlier later => rows earlier <+:
        rows later) ∧
    (∀ uses fewer : List Use, Use.Spares uses fewer →
      (initial.texts (uses ++ [.finish])).getLast? =
          some (Transcript.initial.useAll uses).text ∧
        (initial.texts (fewer ++ [.finish])).getLast? =
          some (Transcript.initial.useAll fewer).text ∧
        Transcript.DropsRepeats (Transcript.initial.useAll uses).entries
          (Transcript.initial.useAll fewer).entries) ∧
    ∀ calls : List NumericCall,
      (initial.texts (calls.map .call ++ [.finish])).getLast? =
        some (Transcript.initial.receiveAll calls).text := by
  have last := Transcript.transcribes_initial.getLast?_texts
  refine ⟨Legible.initial.pairwise_rows,
    fun uses fewer spares => ?_, fun calls => ?_⟩
  · exact ⟨last uses, last fewer,
      (Transcript.abridges_initial.useAll spares).entries⟩
  · rw [last, Transcript.useAll_calls]

/-- Two reads at the first neuron, where the text is asked for between them. -/
def interrupted : List Use :=
  [.call (.create .sum), .call (.moveTo 0), .call (.readFrom 1), .finish,
    .call (.readFrom 2)]

/-- The same calls, where it is not. -/
def uninterrupted : List Use :=
  [.call (.create .sum), .call (.moveTo 0), .call (.readFrom 1),
    .call (.readFrom 2)]

theorem texts_transcribed_interrupted :
    Use.Spares interrupted uninterrupted ∧
      Transcript.DropsRepeats (Transcript.initial.useAll interrupted).entries
        (Transcript.initial.useAll uninterrupted).entries ∧
      (Transcript.initial.useAll interrupted).lines =
        [.created 0 "X", .created 1 "Y", .created 2 "SUM", .receiver 0 "X",
          .wire 1 "Y", .receiver 0 "X", .wire 2 "SUM"] ∧
      (Transcript.initial.useAll uninterrupted).lines =
        [.created 0 "X", .created 1 "Y", .created 2 "SUM", .receiver 0 "X",
          .wire 1 "Y", .wire 2 "SUM"] := by
  have spares : Use.Spares interrupted uninterrupted :=
    .both _ (.both _ (.both _ (.leaveOut (.both _ .done))))
  exact ⟨spares, (texts_transcribed.2.1 _ _ spares).2.2, by decide, by decide⟩

end Listing

end NeuralGenome
