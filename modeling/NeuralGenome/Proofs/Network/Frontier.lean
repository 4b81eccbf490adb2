import NeuralGenome.Proofs.Network.Pass

/-!
# Where a firing stops

A network that was put together from lists can have any links that fit a word.
A link below zero counts from the end of the neurons, and one that names no
neuron either way stops the firing at the first neuron that looks at it.
Neurons of other kinds keep such links without any consequence.

Signals are stored in place, so a firing that stops leaves new signals before
the neuron where it stops and old ones from there on.  The loop is cut in two at
that neuron.  Its first part is an ordinary firing of fewer neurons, which
overwrites just their signals; the second part begins with the failure.
-/

namespace NeuralGenome

open ListPosition (Within Spans)

/-! ## Reading signals -/

namespace Memory

variable {memory : Memory} {link : Int} {links : List Int}

/--
A link that names a neuron is read like the one that counts from the start.
-/
theorem signal_fromStart (spans : Spans memory.signals.length link) :
    memory.signal (ListPosition.fromStart memory.signals.length link) =
      memory.signal link := by
  have found := signal_of_within spans.within_fromStart
  have same : ListPosition.get? memory.signals
      (ListPosition.fromStart memory.signals.length link) =
        ListPosition.get? memory.signals link := by
    rw [ListPosition.get?, spans.place?_fromStart, ListPosition.get?]
  rw [signal, same] at found
  rw [signal, same, signal]
  cases read : ListPosition.get? memory.signals link with
  | some signal => rfl
  | none =>
      rw [read] at found
      cases found

theorem gather_fromStart
    (span : ∀ link ∈ links, Spans memory.signals.length link) :
    memory.gather (links.map (ListPosition.fromStart memory.signals.length)) =
      memory.gather links := by
  induction links with
  | nil => rfl
  | cons link rest ih =>
      obtain ⟨here, later⟩ := List.forall_mem_cons.mp span
      rw [List.map_cons, gather, signal_fromStart here, ih later, gather]

theorem signal_of_not_spans (outside : ¬ Spans memory.signals.length link)
    (fits : Word.holds link = true) :
    memory.signal link =
      .error (.signalPosition link memory.signals.length) := by
  rw [signal, ListPosition.get?, ListPosition.place?_of_not_spans outside,
    Option.bind_none, if_pos fits]

/-- The first link that names no neuron is the fault. -/
theorem gather_of_find?
    (stray : links.find? (¬ Spans memory.signals.length ·) = some link)
    (fits : Word.holds link = true) :
    memory.gather links =
      .error (.signalPosition link memory.signals.length) := by
  induction links with
  | nil => cases stray
  | cons first rest ih =>
      by_cases here : Spans memory.signals.length first
      · rw [List.find?_cons_of_neg (by simpa using here)] at stray
        obtain ⟨signal, found⟩ :
            ∃ signal, memory.signal first = .ok signal := by
          rw [← signal_fromStart here, signal_of_within here.within_fromStart]
          exact ⟨_, rfl⟩
        rw [gather, found, ih stray]
        rfl
      · rw [List.find?_cons_of_pos (by simpa using here)] at stray
        cases stray
        rw [gather, signal_of_not_spans here fits]
        rfl

/--
The memory with new signals from a position on, in place of as many old ones.
-/
def overwrite (memory : Memory) (position : Nat) (fresh : List Binary64) :
    Memory :=
  { memory with
    signals := memory.signals.take position ++ fresh ++
      memory.signals.drop (position + fresh.length) }

theorem overwrite_nil (memory : Memory) (position : Nat) :
    memory.overwrite position [] = memory := by
  rw [overwrite, List.append_nil, List.length_nil, Nat.add_zero,
    List.take_append_drop]

theorem length_signals_overwrite {position : Nat} {fresh : List Binary64}
    (inside : position + fresh.length ≤ memory.signals.length) :
    (memory.overwrite position fresh).signals.length =
      memory.signals.length := by
  simp only [overwrite, List.length_append, List.length_take, List.length_drop]
  omega

/-- Signals can be overwritten one after the other. -/
theorem overwrite_store {position : Nat}
    (inside : position < memory.signals.length)
    (signal : Binary64) (fresh : List Binary64) :
    (memory.store position signal).overwrite (position + 1) fresh =
      memory.overwrite position (signal :: fresh) := by
  have before : (memory.signals.set position signal).take (position + 1) =
      memory.signals.take position ++ [signal] := by
    rw [List.take_add_one, List.getElem?_set_self inside,
      List.take_set_of_le (Nat.le_refl _)]
    rfl
  have beyond :
      (memory.signals.set position signal).drop (position + 1 + fresh.length) =
        memory.signals.drop (position + (signal :: fresh).length) := by
    rw [List.drop_set_of_lt (by omega), List.length_cons, Nat.add_assoc,
      Nat.add_comm 1]
  rw [overwrite, overwrite, store, before, beyond, List.append_assoc _ [signal],
    List.singleton_append]

end Memory

/-! ## One neuron -/

namespace LinkedNeuron

variable {Source : Type} [DrawSource Source] {neuron : LinkedNeuron}
  {size : Nat}

/--
Whether every link that a neuron looks at names one of so many neurons, from
either end.
-/
def Readable (neuron : LinkedNeuron) (size : Nat) : Prop :=
  neuron.definition.kind.readsLinks → ∀ link ∈ neuron.links, Spans size link

instance (neuron : LinkedNeuron) (size : Nat) :
    Decidable (neuron.Readable size) :=
  inferInstanceAs (Decidable (_ → _))

/-- The neuron with all links that it looks at counted from the start. -/
def fromStart (size : Nat) (neuron : LinkedNeuron) : LinkedNeuron :=
  if neuron.definition.kind.readsLinks then
    { neuron with links := neuron.links.map (ListPosition.fromStart size) }
  else neuron

@[simp]
theorem definition_fromStart (size : Nat) (neuron : LinkedNeuron) :
    (neuron.fromStart size).definition = neuron.definition := by
  unfold fromStart
  split <;> rfl

theorem Readable.grounded_fromStart (readable : neuron.Readable size) :
    (neuron.fromStart size).Grounded size := by
  intro reads link member
  rw [definition_fromStart] at reads
  rw [fromStart, if_pos reads] at member
  obtain ⟨given, inside, rfl⟩ := List.mem_map.mp member
  exact (readable reads given inside).within_fromStart

/-- A neuron that gathers the same signals computes the same. -/
theorem run_compute_congr {other : LinkedNeuron}
    (same : other.definition = neuron.definition) {activity : Activity Source}
    (gathered : neuron.definition.kind.readsLinks →
      activity.memory.gather other.links =
        activity.memory.gather neuron.links) :
    other.compute.run activity = neuron.compute.run activity := by
  cases kind : neuron.definition.kind <;> rw [kind] at gathered <;>
    simp only [compute, same, kind]
  all_goals
    simp only [Procedure.run_bind, Procedure.run_get, Procedure.run_ofExcept,
      gathered rfl]

theorem isRandom_fromStart (size : Nat) (neuron : LinkedNeuron) :
    (neuron.fromStart size).isRandom = neuron.isRandom := by
  rw [isRandom, definition_fromStart, isRandom]

theorem spend_fromStart (size : Nat) (neuron : LinkedNeuron) (source : Source) :
    (neuron.fromStart size).spend source = neuron.spend source := by
  rw [spend, isRandom_fromStart, spend]

variable {memory : Memory}

/-- Counting the links from the start changes nothing. -/
theorem Readable.run_compute_fromStart
    (readable : neuron.Readable memory.signals.length) (source : Source) :
    (neuron.fromStart memory.signals.length).compute.run ⟨memory, source⟩ =
      neuron.compute.run ⟨memory, source⟩ := by
  refine run_compute_congr (neuron.definition_fromStart _) fun reads => ?_
  rw [fromStart, if_pos reads]
  exact Memory.gather_fromStart (readable reads)

/-- A neuron that can read its links finds a signal. -/
theorem Readable.exists_run_compute
    (readable : neuron.Readable memory.signals.length) (source : Source) :
    ∃ signal, neuron.compute.run ⟨memory, source⟩ =
      (.ok signal, ⟨memory, neuron.spend source⟩) := by
  have computed := run_compute source readable.grounded_fromStart
  rw [readable.run_compute_fromStart, spend_fromStart] at computed
  exact ⟨_, computed⟩

/-- A neuron changes no signal by itself, whether or not it finds one. -/
theorem memory_run_compute (neuron : LinkedNeuron)
    (activity : Activity Source) :
    (neuron.compute.run activity).2.memory = activity.memory := by
  cases kind : neuron.definition.kind <;> simp only [compute, kind]
  case inputX | inputY | fixed | random => rfl
  all_goals
    simp only [Procedure.run_bind, Procedure.run_get, Procedure.run_ofExcept]
    cases activity.memory.gather neuron.links <;> rfl

/-- The first link that a neuron cannot read. -/
def stray? (neuron : LinkedNeuron) (size : Nat) : Option Int :=
  neuron.links.find? (¬ Spans size ·)

/--
A neuron that cannot read its links fails at the first of them, and nothing has
happened.
-/
theorem exists_run_compute_of_not_readable
    (kept : ∀ link ∈ neuron.links, Network.keepsLink memory.signals.length link)
    (unreadable : ¬ neuron.Readable memory.signals.length) (source : Source) :
    ∃ link, neuron.stray? memory.signals.length = some link ∧
      neuron.compute.run ⟨memory, source⟩ =
        (.error (.signalPosition link memory.signals.length),
          ⟨memory, source⟩) := by
  obtain ⟨reads, unread⟩ := Classical.not_imp.mp unreadable
  cases found : neuron.stray? memory.signals.length with
  | none =>
      refine absurd (fun link member => ?_) unread
      simpa using List.find?_eq_none.mp found link member
  | some link =>
      have outside : ¬ Spans memory.signals.length link := by
        simpa using List.find?_some found
      have fits : Word.holds link = true := by
        have keeps := kept link (List.mem_of_find?_eq_some found)
        rwa [Network.keepsLink, ListPosition.place?_of_not_spans outside]
          at keeps
      refine ⟨link, rfl, ?_⟩
      have failed := Memory.gather_of_find? found fits
      cases kind : neuron.definition.kind <;> rw [kind] at reads <;>
        try cases reads
      all_goals
        simp only [compute, kind, Procedure.run_bind, Procedure.run_get,
          Procedure.run_ofExcept, failed]

end LinkedNeuron

/-! ## The loop in two parts -/

namespace Network

variable {Source : Type} [DrawSource Source]

theorem fireFrom_append (position : Nat) (first rest : List LinkedNeuron) :
    (fireFrom position (first ++ rest) : Procedure (Activity Source) Unit) =
      fireFrom position first >>= fun _ =>
        fireFrom (position + first.length) rest := by
  induction first generalizing position with
  | nil => rfl
  | cons neuron first ih =>
      have shifted : position + 1 + first.length =
          position + (neuron :: first).length := by
        rw [List.length_cons, Nat.add_assoc, Nat.add_comm 1]
      simp only [List.cons_append, fireFrom, ih, shifted, bind_assoc]

/--
Neurons that can read their links overwrite their signals, and draw if they are
random.
-/
theorem exists_run_fireFrom (rest : List LinkedNeuron) (position : Nat)
    (memory : Memory)
    (source : Source) (inside : position + rest.length ≤ memory.signals.length)
    (readable : ∀ neuron ∈ rest, neuron.Readable memory.signals.length) :
    ∃ fresh, fresh.length = rest.length ∧
      (fireFrom position rest).run ⟨memory, source⟩ =
        (.ok (), ⟨memory.overwrite position fresh,
          (DrawSource.take (rest.countP LinkedNeuron.isRandom) source).2⟩) := by
  induction rest generalizing position memory source with
  | nil =>
      refine ⟨[], rfl, ?_⟩
      rw [Memory.overwrite_nil]
      rfl
  | cons neuron rest ih =>
      obtain ⟨here, later⟩ := List.forall_mem_cons.mp readable
      rw [List.length_cons] at inside
      obtain ⟨signal, computed⟩ := here.exists_run_compute source
      obtain ⟨fresh, length, run⟩ :=
        ih (position + 1) (memory.store position signal) (neuron.spend source)
          (by rw [Memory.length_signals_store]; omega)
        (by rwa [Memory.length_signals_store])
      refine ⟨signal :: fresh,
        by rw [List.length_cons, length, List.length_cons], ?_⟩
      rw [Memory.overwrite_store (by omega)] at run
      rw [LinkedNeuron.take_countP_cons, fireFrom,
        Procedure.run_bind_of_ok computed]
      exact run

/--
However a loop ends, the signals before its first neuron are what they were.
-/
theorem take_signals_fireFrom (rest : List LinkedNeuron) {place position : Nat}
    (activity : Activity Source) (before : place ≤ position) :
    ((fireFrom position rest).run activity).2.memory.signals.take place =
      activity.memory.signals.take place := by
  induction rest generalizing position activity with
  | nil => rfl
  | cons neuron rest ih =>
      have kept := neuron.memory_run_compute activity
      rcases computed : neuron.compute.run activity with ⟨fault | signal, next⟩
      · rw [computed] at kept
        rw [fireFrom, Procedure.run_bind_of_error computed, kept]
      · rw [computed] at kept
        rw [fireFrom, Procedure.run_bind_of_ok computed,
          Procedure.run_bind_of_ok (Procedure.run_modify _ _),
          ih _ (by omega), kept]
        exact List.take_set_of_le before

/--
After neurons that can read their links the loop stops at one that cannot.
-/
theorem exists_run_fireFrom_append_cons (first rest : List LinkedNeuron)
    {neuron : LinkedNeuron} {memory : Memory} (source : Source)
    (inside : first.length ≤ memory.signals.length)
    (readable : ∀ earlier ∈ first, earlier.Readable memory.signals.length)
    (kept : ∀ link ∈ neuron.links, keepsLink memory.signals.length link)
    (unreadable : ¬ neuron.Readable memory.signals.length) :
    ∃ link fresh, neuron.stray? memory.signals.length = some link ∧
      fresh.length = first.length ∧
      (fireFrom 0 first).run ⟨memory, source⟩ =
        (.ok (), ⟨memory.overwrite 0 fresh,
          (DrawSource.take (first.countP LinkedNeuron.isRandom) source).2⟩) ∧
      (fireFrom 0 (first ++ neuron :: rest)).run ⟨memory, source⟩ =
        (.error (.signalPosition link memory.signals.length),
          ⟨memory.overwrite 0 fresh,
            (DrawSource.take (first.countP LinkedNeuron.isRandom)
              source).2⟩) := by
  rw [← Nat.zero_add first.length] at inside
  obtain ⟨fresh, length, run⟩ :=
    exists_run_fireFrom first 0 memory source inside readable
  have same : (memory.overwrite 0 fresh).signals.length =
      memory.signals.length :=
    Memory.length_signals_overwrite (length ▸ inside)
  rw [← same] at kept unreadable
  obtain ⟨link, stray, failed⟩ :=
    LinkedNeuron.exists_run_compute_of_not_readable kept unreadable
      (DrawSource.take (first.countP LinkedNeuron.isRandom) source).2
  rw [same] at stray failed
  refine ⟨link, fresh, stray, length, run, ?_⟩
  rw [fireFrom_append, Procedure.run_bind_of_ok run, fireFrom,
    Procedure.run_bind_of_error failed]

/-- Counting all links from the start changes nothing if they can be read. -/
theorem run_fireFrom_map_fromStart (rest : List LinkedNeuron) (position : Nat)
    (memory : Memory) (source : Source)
    (readable : ∀ neuron ∈ rest, neuron.Readable memory.signals.length) :
    (fireFrom position
          (rest.map (LinkedNeuron.fromStart memory.signals.length))).run
        ⟨memory, source⟩ =
      (fireFrom position rest).run ⟨memory, source⟩ := by
  induction rest generalizing position memory source with
  | nil => rfl
  | cons neuron rest ih =>
      obtain ⟨here, later⟩ := List.forall_mem_cons.mp readable
      obtain ⟨signal, computed⟩ := here.exists_run_compute source
      have computedToo := (here.run_compute_fromStart source).trans computed
      have rests :=
        ih (position + 1) (memory.store position signal) (neuron.spend source)
      rw [Memory.length_signals_store] at rests
      rw [List.map_cons, fireFrom, fireFrom, Procedure.run_bind_of_ok computed,
        Procedure.run_bind_of_ok computedToo]
      exact rests later

/-! ## Networks with any links -/

/-- Whether all links can be kept, as in every network that is put together. -/
def Kept (network : Network) : Prop :=
  ∀ neuron ∈ network.neurons, ∀ link ∈ neuron.links, keepsLink network.size link

/-- A network is put together only if all its links can be kept. -/
theorem kept_of_assemble {definitions : List (Definition Number)}
    {links : List (List Int)} {dx dy : Int} {network : Network}
    (made : assemble definitions links dx dy = .ok network) : network.Kept := by
  unfold assemble at made
  split at made
  case isTrue lengths =>
    obtain ⟨converted, convert, rest⟩ := bind_eq_ok.mp made
    split at rest
    case isTrue keeps =>
      cases rest
      intro neuron member link inside
      have same : converted.length = links.length := by
        rw [length_of_mapM_eq_ok convert, lengths]
      have listed : neuron.links ∈ links := by
        rw [← LinkedNeuron.map_links_zipWith same]
        exact List.mem_map_of_mem member
      have kept := List.all_eq_true.mp
        (List.all_eq_true.mp keeps neuron.links listed) link inside
      rwa [size, List.length_zipWith, ← same, Nat.min_self,
        length_of_mapM_eq_ok convert]
    case isFalse => cases rest
  case isFalse => cases made

theorem kept_of_ofLists {kinds : List Int} {parameters : List Number}
    {links : List (List Int)} {dx dy : Int} {network : Network}
    (made : ofLists kinds parameters links dx dy = .ok network) :
    network.Kept := by
  unfold ofLists at made
  split at made
  case isTrue =>
    obtain ⟨kinds, -, assembled⟩ := bind_eq_ok.mp made
    exact kept_of_assemble assembled
  case isFalse => cases made

/--
The network with all links that its neurons look at counted from the start.
-/
def fromStart (network : Network) : Network :=
  { network with
    neurons := network.neurons.map (LinkedNeuron.fromStart network.size) }

/-- The network in which the neurons from a position on read nothing. -/
def cut (network : Network) (position : Nat) : Network :=
  { network with
    neurons := network.neurons.take position ++
      (network.neurons.drop position).map fun neuron =>
        { neuron with links := [] } }

/--
Whether another network has as many neurons, and the same ones before a
position.
-/
def AgreesBefore (network : Network) (position : Nat)
    (other : Network) : Prop :=
  other.size = network.size ∧ other.neurons.take position =
    network.neurons.take position

variable {network : Network} {memory : Memory}

/--
A firing in which all links can be read succeeds, and draws once for each random
neuron.
-/
theorem exists_run_fire_of_readable
    (sized : memory.signals.length = network.size)
    (readable : ∀ neuron ∈ network.neurons, neuron.Readable network.size)
    (source : Source) :
    ∃ signals, network.fire.run ⟨memory, source⟩ =
      (.ok (), ⟨{ memory with signals := signals },
        (DrawSource.take network.draws source).2⟩) := by
  rw [← sized] at readable
  obtain ⟨fresh, -, run⟩ := exists_run_fireFrom network.neurons 0 memory source
    (by rw [sized, Nat.zero_add]; exact Nat.le_refl _) readable
  exact ⟨_, run⟩

theorem run_fire_fromStart (sized : memory.signals.length = network.size)
    (readable : ∀ neuron ∈ network.neurons, neuron.Readable network.size)
    (source : Source) :
    network.fromStart.fire.run ⟨memory, source⟩ =
      network.fire.run ⟨memory, source⟩ := by
  rw [← sized] at readable
  have same :=
    run_fireFrom_map_fromStart network.neurons 0 memory source readable
  rwa [sized] at same

/--
Unless all links can be read, there is a first neuron that cannot read its
links.
-/
theorem exists_first_unreadable (size : Nat) {neurons : List LinkedNeuron}
    (unread : ∃ neuron ∈ neurons, ¬ neuron.Readable size) :
    ∃ (position : Nat) (neuron : LinkedNeuron),
      neurons[position]? = some neuron ∧
      ¬ neuron.Readable size ∧ ∀ earlier ∈ neurons.take position,
        earlier.Readable size := by
  obtain ⟨neuron, member, unreadable⟩ := unread
  have found : (neurons.find? (¬ ·.Readable size)).isSome := by
    rw [List.find?_isSome]
    exact ⟨neuron, member, by simpa using unreadable⟩
  obtain ⟨lowest, here⟩ := Option.isSome_iff_exists.mp found
  obtain ⟨stops, first, rest, rfl, earlier⟩ :=
    List.find?_eq_some_iff_append.mp here
  refine ⟨first.length, lowest, ?_, by simpa using stops, ?_⟩
  · rw [List.getElem?_append_right (Nat.le_refl _), Nat.sub_self]
    rfl
  · rw [List.take_left]
    exact fun other before => by simpa using earlier other before

/--
A firing fails at the first neuron that cannot read its links; those before it
have fired.
-/
theorem exists_run_fire_of_not_readable (kept : network.Kept)
    (sized : memory.signals.length = network.size) {position : Nat}
    {neuron : LinkedNeuron} (found : network.neurons[position]? = some neuron)
    (unreadable : ¬ neuron.Readable network.size)
    (earlier : ∀ earlier ∈ network.neurons.take position,
      earlier.Readable network.size)
    (source : Source) :
    ∃ link below, neuron.stray? network.size = some link ∧
      below.length = position ∧
      (fireFrom 0 (network.neurons.take position)).run ⟨memory, source⟩ =
        (.ok (), ⟨memory.overwrite 0 below,
          (DrawSource.take (network.turn position) source).2⟩) ∧
      network.fire.run ⟨memory, source⟩ =
        (.error (.signalPosition link network.size), ⟨memory.overwrite 0 below,
          (DrawSource.take (network.turn position) source).2⟩) := by
  obtain ⟨inside, here⟩ := List.getElem?_eq_some_iff.mp found
  have counted : (network.neurons.take position).length = position :=
    List.length_take_of_le (Nat.le_of_lt inside)
  have split : network.neurons.take position ++
      neuron :: network.neurons.drop (position + 1) = network.neurons := by
    rw [← here, ← List.drop_eq_getElem_cons inside, List.take_append_drop]
  have keeps := kept neuron (List.mem_of_getElem? found)
  rw [← sized] at earlier unreadable keeps
  obtain ⟨link, below, stray, length, run, failed⟩ :=
    exists_run_fireFrom_append_cons _
      (network.neurons.drop (position + 1)) source
      (by rw [counted, sized]; exact Nat.le_of_lt inside) earlier keeps
        unreadable
  rw [split, sized] at failed
  rw [sized] at stray
  exact ⟨link, below, stray, length.trans counted, run, failed⟩

/--
The signals that a firing stores before a position are those of every network
with the same neurons before it.
-/
theorem take_signals_of_agrees {other : Network} {below : List Binary64}
    {position : Nat} {source drawn : Source} {after : Activity Source}
    (run : (fireFrom 0 (network.neurons.take position)).run ⟨memory, source⟩ =
      (.ok (), ⟨memory.overwrite 0 below, drawn⟩))
    (length : below.length = position)
    (agrees : network.AgreesBefore position other)
    (inside : position ≤ network.size)
    (fired : other.fire.run ⟨memory, source⟩ = (.ok (), after)) :
    after.memory.signals.take position = below := by
  have counted : (network.neurons.take position).length = position :=
    List.length_take_of_le inside
  rw [fire, ← List.take_append_drop position other.neurons, agrees.2,
    fireFrom_append, Procedure.run_bind_of_ok run, counted, Nat.zero_add]
      at fired
  have framed := take_signals_fireFrom (other.neurons.drop position)
    ⟨memory.overwrite 0 below, drawn⟩ (Nat.le_refl position)
  rw [fired] at framed
  rw [framed, Memory.overwrite, List.take_zero, List.nil_append, ← length]
  exact List.take_left

theorem agreesBefore_cut (network : Network) (position : Nat) :
    network.AgreesBefore position (network.cut position) := by
  constructor
  · rw [size, cut, List.length_append, List.length_map, ← List.length_append,
      List.take_append_drop, size]
  · rw [cut]
    by_cases inside : position ≤ network.neurons.length
    · exact List.take_left' (List.length_take_of_le inside)
    · have outside : network.neurons.length ≤ position :=
        Nat.le_of_not_le inside
      rw [List.drop_eq_nil_of_le outside, List.map_nil, List.append_nil,
        List.take_take, Nat.min_self]

/--
If the neurons before a position can read their links, all can once the others
read nothing.
-/
theorem readable_cut {position : Nat}
    (readable : ∀ earlier ∈ network.neurons.take position,
      earlier.Readable network.size) :
    ∀ neuron ∈ (network.cut position).neurons,
      neuron.Readable (network.cut position).size := by
  rw [(agreesBefore_cut network position).1]
  intro neuron member
  rcases List.mem_append.mp member with before | later
  · exact readable neuron before
  · obtain ⟨given, -, rfl⟩ := List.mem_map.mp later
    intro _ link absent
    cases absent

/--
A firing of a network with any links fails if and only if some neuron looks at a
link that names no neuron from either end.  It fails with the first such link of
the first such neuron.  The signals before that neuron are then those of every
complete firing of a network with the same neurons before it, and there are such
networks; the other signals are the old ones, and each random neuron before it
has drawn once.  Otherwise the firing is that of the network in which all links
are counted from the start.
-/
theorem fire_stops_at_frontier (network : Network) (kept : network.Kept)
    (memory : Memory)
    (sized : memory.signals.length = network.size) (source : Source) :
    ((∃ link after, network.fire.run ⟨memory, source⟩ =
          (.error (.signalPosition link network.size), after)) ↔
        ∃ neuron ∈ network.neurons, ¬ neuron.Readable network.size) ∧
      (∀ (position : Nat) (neuron : LinkedNeuron),
        network.neurons[position]? = some neuron →
        ¬ neuron.Readable network.size →
        (∀ earlier ∈ network.neurons.take position,
          earlier.Readable network.size) →
          ∃ link below, neuron.stray? network.size = some link ∧
            below.length = position ∧
            network.fire.run ⟨memory, source⟩ =
              (.error (.signalPosition link network.size),
                ⟨{ memory with
                  signals := below ++ memory.signals.drop position },
                  (DrawSource.take (network.turn position) source).2⟩) ∧
            (∃ other after, network.AgreesBefore position other ∧
              other.fire.run ⟨memory, source⟩ = (.ok (), after)) ∧
            ∀ (other : Network) (after : Activity Source),
              network.AgreesBefore position other →
              other.fire.run ⟨memory, source⟩ = (.ok (), after) →
                after.memory.signals.take position = below) ∧
      ((∀ neuron ∈ network.neurons, neuron.Readable network.size) →
        network.fire.run ⟨memory, source⟩ =
            network.fromStart.fire.run ⟨memory, source⟩ ∧
          ∃ signals, network.fire.run ⟨memory, source⟩ =
            (.ok (), ⟨{ memory with signals := signals },
              (DrawSource.take network.draws source).2⟩)) := by
  refine ⟨⟨?_, ?_⟩, ?_, ?_⟩
  · rintro ⟨link, after, failed⟩
    refine Classical.byContradiction fun none => ?_
    have readable : ∀ neuron ∈ network.neurons, neuron.Readable network.size :=
      fun neuron member => Decidable.byContradiction fun absent =>
        none ⟨neuron, member, absent⟩
    obtain ⟨signals, succeeded⟩ :=
      exists_run_fire_of_readable sized readable source
    cases failed.symm.trans succeeded
  · intro unread
    obtain ⟨position, neuron, found, unreadable, earlier⟩ :=
      exists_first_unreadable network.size unread
    obtain ⟨link, below, -, -, -, failed⟩ :=
      exists_run_fire_of_not_readable kept sized found unreadable earlier source
    exact ⟨link, _, failed⟩
  · intro position neuron found unreadable earlier
    obtain ⟨link, below, stray, length, run, failed⟩ :=
      exists_run_fire_of_not_readable kept sized found unreadable earlier source
    have inside : position ≤ network.size :=
      Nat.le_of_lt (List.getElem?_eq_some_iff.mp found).1
    obtain ⟨signals, completed⟩ := exists_run_fire_of_readable
      (sized.trans (agreesBefore_cut network position).1.symm)
        (readable_cut earlier) source
    refine ⟨link, below, stray, length, ?_,
      ⟨_, _, agreesBefore_cut network position, completed⟩,
      fun other after agrees fired =>
        take_signals_of_agrees run length agrees inside fired⟩
    rw [failed, Memory.overwrite, List.take_zero, List.nil_append,
      Nat.zero_add, length]
  · intro readable
    exact ⟨(run_fire_fromStart sized readable source).symm,
      exists_run_fire_of_readable sized readable source⟩

/--
A sum that counts one link from the end, a maximum with two links to no neuron,
and neurons that do not look at theirs.
-/
def mixed : Network where
  neurons :=
    [⟨⟨.inputX, .zero⟩, [12]⟩, ⟨⟨.random, .zero⟩, []⟩, ⟨⟨.sum, .zero⟩, [0, -5]⟩,
      ⟨⟨.fixed, .half⟩, [-77]⟩, ⟨⟨.maximum, .zero⟩, [1, -7, 50]⟩,
      ⟨⟨.random, .zero⟩, []⟩]
  dx := 2
  dy := 4

theorem fire_stops_at_frontier_mixed :
    let memory : Memory := ⟨.one, .two, [.one, .one, .one, .two, .two, .two]⟩
    let source := Script.ofList [.half, .zero]
    mixed.Kept ∧ memory.signals.length = mixed.size ∧
      (∃ below : List Binary64, below.length = 4 ∧
        mixed.fire.run ⟨memory, source⟩ =
          (.error (.signalPosition (-7) 6), ⟨{ memory with
            signals := below ++ [.two, .two] },
            (DrawSource.take 1 source).2⟩) ∧
        ∀ (other : Network) (after : Activity Script),
          mixed.AgreesBefore 4 other →
          other.fire.run ⟨memory, source⟩ = (.ok (), after) →
            after.memory.signals.take 4 = below) ∧
      (mixed.cut 4).Kept ∧ memory.signals.length = (mixed.cut 4).size ∧
      (mixed.cut 4).fire.run ⟨memory, source⟩ =
        (mixed.cut 4).fromStart.fire.run ⟨memory, source⟩ := by
  intro memory source
  have made : ofLists [0, 3, 4, 2, 7, 3]
      [.pattern .zero, .pattern .zero, .pattern .zero, .pattern .half,
        .pattern .zero, .pattern .zero]
      [[12], [], [0, -5], [-77], [1, -7, 50], []] 2 4 = .ok mixed := rfl
  have kept : mixed.Kept := kept_of_ofLists made
  have cutKept : (mixed.cut 4).Kept := by unfold Kept; decide
  obtain ⟨-, stops, -⟩ := fire_stops_at_frontier mixed kept memory rfl source
  obtain ⟨link, below, stray, length, failed, -, complete⟩ :=
    stops 4 ⟨⟨.maximum, .zero⟩, [1, -7, 50]⟩ rfl (by decide) (by decide)
  cases stray
  obtain ⟨-, -, counted⟩ :=
    fire_stops_at_frontier (mixed.cut 4) cutKept memory rfl source
  exact ⟨kept, rfl, ⟨below, length, failed, complete⟩, cutKept, rfl,
    (counted (by decide)).1⟩

/--
The sum reads the new signals of the input and, from the end, of the random
neuron.
-/
example :
    (mixed.fire.run ⟨⟨.one, .two, [.one, .one, .one, .two, .two, .two]⟩,
        Script.ofList [.half, .zero]⟩).2.memory.signals =
      [.one, .half, ⟨0x3ff8000000000000⟩, .half, .two, .two] := by
  decide +kernel

end Network

end NeuralGenome
