import Mathlib.Data.Fintype.Card
import Mathlib.Data.Set.Finite.List
import Mathlib.Logic.Relation
import NeuralGenome.Proofs.Reading.Layering

/-!
# What peeling leaves over

A round of peeling is stuck when the readee of every synapse that remains is the
reader of another.  Among finitely many synapses that takes a cycle, and the
synapses behind a cycle are exactly those that are never taken.

In a cycle like this an absent neuron counts as any other.  So it need not be a
cycle of neurons: a row of synapses that starts with one without a readee and
ends with one without a reader closes by the neurons that are absent.  Without a
cycle of neurons such rows are the only obstacle, and what they hold up are the
neurons that a synapse without a readee leads to.
-/

namespace NeuralGenome

open Relation (TransGen ReflTransGen)

namespace Synapse

/-! ## Rows of synapses -/

/-- Some synapse has these two ends, absent or not. -/
def Leads (synapses : List Synapse) (source target : Option Nat) : Prop :=
  ∃ synapse ∈ synapses, synapse.readee = source ∧ synapse.reader = target

/-- Some synapse leads from one neuron to another. -/
def Links (synapses : List Synapse) (source target : Nat) : Prop :=
  Leads synapses (some source) (some target)

/-- No row of synapses leads from a neuron back to it. -/
def Acyclic (synapses : List Synapse) : Prop :=
  ∀ neuron, ¬TransGen (Links synapses) neuron neuron

/-- A row of synapses leads to a neuron, the first of them without a readee. -/
def Rootless (synapses : List Synapse) (neuron : Nat) : Prop :=
  ∃ source, Leads synapses none (some source) ∧
    ReflTransGen (Links synapses) source neuron

/-- A row of synapses starts without a readee and ends without a reader. -/
def Loose (synapses : List Synapse) : Prop :=
  Leads synapses none none ∨ ∃ neuron, Rootless synapses neuron ∧
    Leads synapses (some neuron) none

variable {synapses : List Synapse} {synapse : Synapse}
  {source target : Option Nat} {neuron : Nat}

/-- Numbers that grow along every synapse leave no room for a cycle. -/
theorem acyclic_of_ascends
    (ascends : ∀ source target, Links synapses source target →
      source < target) : Acyclic synapses := by
  intro neuron cycle
  exact Nat.lt_irrefl neuron
    (Relation.transGen_minimal ascends neuron neuron cycle)

theorem Leads.mono {fewer : List Synapse} (subset : fewer ⊆ synapses)
    (leads : Leads fewer source target) : Leads synapses source target := by
  obtain ⟨synapse, member, read, reads⟩ := leads
  exact ⟨synapse, subset member, read, reads⟩

/-! ### Rows through absent neurons -/

/-- The part of a row after it last met an absent neuron. -/
theorem rootless_of_leads
    (path : ReflTransGen (Leads synapses) none (some neuron)) :
    Rootless synapses neuron := by
  generalize reached : some neuron = finish at path
  induction path generalizing neuron with
  | refl => cases reached
  | @tail middle finish _ last ih =>
      subst reached
      cases middle with
      | none => exact ⟨neuron, last, .refl⟩
      | some between =>
          obtain ⟨source, first, path⟩ := ih rfl
          exact ⟨source, first, path.tail last⟩

theorem Rootless.leads (rootless : Rootless synapses neuron) :
    ReflTransGen (Leads synapses) none (some neuron) := by
  obtain ⟨source, first, path⟩ := rootless
  have lifted : ReflTransGen (Leads synapses) (some source) (some neuron) :=
    path.lift some fun _ _ link => link
  exact lifted.head first

/-- Absent neurons close a cycle exactly when a row is loose at both ends. -/
theorem loose_iff : Loose synapses ↔ TransGen (Leads synapses) none none := by
  rw [TransGen.tail'_iff]
  constructor
  · rintro (single | ⟨neuron, rootless, last⟩)
    · exact ⟨none, .refl, single⟩
    · exact ⟨some neuron, rootless.leads, last⟩
  · rintro ⟨middle, path, last⟩
    cases middle with
    | none => exact .inl last
    | some neuron => exact .inr ⟨neuron, rootless_of_leads path, last⟩

/-- A row that starts at a neuron stays among neurons or meets an absent one. -/
theorem links_or_absent {start : Nat}
    (path : TransGen (Leads synapses) (some start) target) :
    (∃ neuron, target = some neuron ∧ TransGen (Links synapses) start neuron) ∨
      TransGen (Leads synapses) (some start) none ∧
        ReflTransGen (Leads synapses) none target := by
  induction path with
  | @single finish first =>
      cases finish with
      | none => exact .inr ⟨.single first, .refl⟩
      | some neuron => exact .inl ⟨neuron, rfl, .single first⟩
  | @tail middle finish path last ih =>
      rcases ih with ⟨between, rfl, links⟩ | ⟨before, after⟩
      · cases finish with
        | none => exact .inr ⟨path.tail last, .refl⟩
        | some neuron => exact .inl ⟨neuron, rfl, links.tail last⟩
      · exact .inr ⟨before, after.tail last⟩

/-- Without a cycle of neurons, every cycle goes through absent neurons. -/
theorem Acyclic.absent_of_cycle (acyclic : Acyclic synapses)
    (cycle : TransGen (Leads synapses) source source) :
    TransGen (Leads synapses) none none ∧
      ReflTransGen (Leads synapses) none source := by
  cases source with
  | none => exact ⟨cycle, .refl⟩
  | some start =>
      rcases links_or_absent cycle with ⟨neuron, same, links⟩ | ⟨before, after⟩
      · cases same
        exact absurd links (acyclic start)
      · exact ⟨TransGen.trans_right after before, after⟩

/-! ## Synapses that are never taken -/

/-- What remains after a number of rounds is peeled on as by itself. -/
theorem remaining_remaining (synapses : List Synapse) (round more : Nat) :
    remaining (remaining synapses round) more =
      remaining synapses (round + more) := by
  induction more with
  | zero => rfl
  | succ more ih => exact congrArg fed ih

/-- After as many rounds as there are synapses nothing more can be taken. -/
theorem free_remaining_length (synapses : List Synapse) :
    free (remaining synapses synapses.length) = [] := by
  by_contra found
  have early := (lt_length_peel_iff 0 synapses _).mpr found
  exact Nat.not_le_of_lt early (length_peel_le 0 synapses)

/-- What remains then remains for ever. -/
theorem mem_remaining_length_iff :
    synapse ∈ remaining synapses synapses.length ↔
      ∀ round, synapse ∈ remaining synapses round := by
  constructor
  · intro last round
    rcases Nat.le_total round synapses.length with before | after
    · exact remaining_subset synapses before last
    · obtain ⟨more, rfl⟩ := Nat.exists_eq_add_of_le after
      rw [← remaining_remaining,
        remaining_of_free_eq_nil (free_remaining_length synapses)]
      exact last
  · intro always
    exact always synapses.length

/--
Rounds that take every synapse are as many as there are synapses, or fewer.
-/
theorem exists_remaining_eq_nil_iff :
    (∃ rounds, remaining synapses rounds = []) ↔
      remaining synapses synapses.length = [] := by
  constructor
  · rintro ⟨rounds, empty⟩
    refine List.eq_nil_iff_forall_not_mem.mpr fun synapse last => ?_
    have always := mem_remaining_length_iff.mp last rounds
    rw [empty] at always
    cases always
  · exact fun empty => ⟨_, empty⟩

theorem isFed_iff : isFed synapses synapse ↔
    ∃ feeder, Leads synapses feeder synapse.readee := by
  rw [isFed, List.any_eq_true]
  constructor
  · rintro ⟨other, member, same⟩
    exact ⟨other.readee, other, member, rfl, beq_iff_eq.mp same⟩
  · rintro ⟨_, other, member, -, same⟩
    exact ⟨other, member, beq_iff_eq.mpr same⟩

/-- Where every synapse is fed, there is a cycle before every synapse. -/
theorem exists_cycle (stuck : free synapses = [])
    (member : synapse ∈ synapses) :
    ∃ source, TransGen (Leads synapses) source source ∧
      ReflTransGen (Leads synapses) source synapse.readee := by
  by_contra cycleless
  -- the synapses before this one, each after those that lead to it
  let Before := { other // other ∈ synapses ∧
    ReflTransGen (Leads synapses) other.readee synapse.readee }
  let precedes (first second : Before) : Prop :=
    TransGen (Leads synapses) first.1.readee second.1.readee
  have finite : Finite Before :=
    ((List.finite_toSet synapses).subset fun _ both => both.1).to_subtype
  have transitive : IsTrans Before precedes := ⟨fun _ _ _ => TransGen.trans⟩
  have irreflexive : Std.Irrefl precedes :=
    ⟨fun other cycle => cycleless ⟨other.1.readee, cycle, other.2.2⟩⟩
  obtain ⟨⟨least, listed, leads⟩, -, first⟩ :=
    (Finite.wellFounded_of_trans_of_irrefl precedes).has_min Set.univ
      ⟨⟨synapse, member, .refl⟩, trivial⟩
  have fed : isFed synapses least := by
    have taken := List.filter_eq_nil_iff.mp stuck least listed
    simpa using taken
  obtain ⟨feeder, other, found, rfl, reads⟩ := isFed_iff.mp fed
  have step : Leads synapses other.readee least.readee :=
    ⟨other, found, rfl, reads⟩
  exact first ⟨other, found, leads.head step⟩ trivial (.single step)

/-- A synapse whose readee has a feeder stays for the next round. -/
theorem Leads.fed (leads : Leads synapses source target)
    (feeds : ∃ feeder, Leads synapses feeder source) :
    Leads (fed synapses) source target := by
  obtain ⟨synapse, member, rfl, reads⟩ := leads
  exact ⟨synapse, List.mem_filter.mpr ⟨member, isFed_iff.mpr feeds⟩, rfl, reads⟩

/--
A row whose start has a feeder stays for the next round, and its end has a
feeder.
-/
theorem leads_fed (path : ReflTransGen (Leads synapses) source target)
    (feeds : ∃ feeder, Leads synapses feeder source) :
    ReflTransGen (Leads (fed synapses)) source target ∧
      ∃ feeder, Leads synapses feeder target := by
  induction path with
  | refl => exact ⟨.refl, feeds⟩
  | @tail middle finish _ last ih =>
      exact ⟨ih.1.tail (last.fed ih.2), middle, last⟩

/-- What stands behind a cycle stays in every round. -/
theorem mem_remaining_of_cycle (member : synapse ∈ synapses)
    (cycle : TransGen (Leads synapses) source source)
    (path : ReflTransGen (Leads synapses) source synapse.readee) (round : Nat) :
    synapse ∈ remaining synapses round := by
  induction round generalizing synapses with
  | zero => exact member
  | succ round ih =>
      obtain ⟨next, first, around⟩ := TransGen.head'_iff.mp cycle
      obtain ⟨feeder, -, last⟩ := TransGen.tail'_iff.mp cycle
      have kept := leads_fed around ⟨source, first⟩
      have reached := leads_fed path ⟨feeder, last⟩
      rw [← remaining_fed]
      exact ih (List.mem_filter.mpr ⟨member, isFed_iff.mpr reached.2⟩)
        (.head' (first.fed ⟨feeder, last⟩) kept.1) reached.1

/-- The synapses that are never taken are those behind a cycle. -/
theorem remains_iff (member : synapse ∈ synapses) :
    (∀ round, synapse ∈ remaining synapses round) ↔
      ∃ source, TransGen (Leads synapses) source source ∧
        ReflTransGen (Leads synapses) source synapse.readee := by
  constructor
  · intro always
    have subset : remaining synapses synapses.length ⊆ synapses :=
      remaining_subset synapses (Nat.zero_le _)
    obtain ⟨source, cycle, path⟩ :=
      exists_cycle (free_remaining_length synapses) (always synapses.length)
    have more : Leads (remaining synapses synapses.length) ≤ Leads synapses :=
      fun _ _ => Leads.mono subset
    exact ⟨source, TransGen.mono more _ _ cycle,
      ReflTransGen.mono more _ _ path⟩
  · rintro ⟨source, cycle, path⟩ round
    exact mem_remaining_of_cycle member cycle path round

/--
Without a cycle of neurons, what is never taken is held up by a row that is
loose.
-/
theorem Acyclic.remains_iff (acyclic : Acyclic synapses)
    (member : synapse ∈ synapses) :
    (∀ round, synapse ∈ remaining synapses round) ↔
      Loose synapses ∧ ∀ neuron, synapse.readee = some neuron →
        Rootless synapses neuron := by
  rw [Synapse.remains_iff member, loose_iff]
  constructor
  · rintro ⟨source, cycle, path⟩
    obtain ⟨closed, reached⟩ := acyclic.absent_of_cycle cycle
    refine ⟨closed, fun neuron read => rootless_of_leads ?_⟩
    rw [← read]
    exact reached.trans path
  · rintro ⟨closed, rootless⟩
    refine ⟨none, closed, ?_⟩
    cases read : synapse.readee with
    | none => exact .refl
    | some neuron => exact (rootless neuron read).leads

theorem Acyclic.exists_remaining_eq_nil_iff (acyclic : Acyclic synapses) :
    (∃ rounds, remaining synapses rounds = []) ↔ ¬Loose synapses := by
  rw [Synapse.exists_remaining_eq_nil_iff, List.eq_nil_iff_forall_not_mem]
  constructor
  · intro empty loose
    -- the synapse without a readee that the row starts with
    have start : ∃ first ∈ synapses, first.readee = none := by
      obtain ⟨_, ⟨first, member, read, -⟩, -⟩ :=
        TransGen.head'_iff.mp (loose_iff.mp loose)
      exact ⟨first, member, read⟩
    obtain ⟨first, member, read⟩ := start
    refine empty first (mem_remaining_length_iff.mpr
      ((acyclic.remains_iff member).mpr ⟨loose, ?_⟩))
    intro neuron found
    rw [read] at found
    cases found
  · intro tight synapse last
    have member := remaining_subset synapses (Nat.zero_le synapses.length) last
    exact tight ((acyclic.remains_iff member).mp
      (mem_remaining_length_iff.mp last)).1

/-- A synapse that is never taken keeps both its ends from being peeled off. -/
theorem not_peeled_of_remains
    (always : ∀ round, synapse ∈ remaining synapses round) :
    (∀ readee, synapse.readee = some readee → ∀ round,
      ¬Peeled synapses round readee) ∧
      ∀ reader, synapse.reader = some reader → ∀ round,
        ¬Peeled synapses round reader := by
  constructor
  · rintro readee read round ⟨taken, freely, same⟩
    -- its readee is the reader of a synapse that remains, also for the one that
    -- is taken
    have fed := (List.mem_filter.mp (always (round + 1))).2
    have unfed := (List.mem_filter.mp freely).2
    rw [isFed, read, ← same, ← isFed] at fed
    rw [fed] at unfed
    cases unfed
  · intro reader reads round
    exact not_peeled_reader (always round) reads

/-- The readee of a synapse that is taken is peeled off. -/
theorem exists_peeled_of_not_mem {round : Nat} (member : synapse ∈ synapses)
    (taken : synapse ∉ remaining synapses round)
    (read : synapse.readee = some neuron) :
    ∃ earlier, Peeled synapses earlier neuron := by
  by_contra never
  exact taken (mem_remaining member read fun earlier _ first =>
    never ⟨earlier, first⟩)

end Synapse

/-! ## Layers of acyclic wiring -/

namespace Sketch.Mirrors

open Synapse (Acyclic Loose Rootless)

variable {sketch : Sketch} {graph : Graph} {synapse : Synapse}
  {readee reader place other : Nat} {layer layer' : List Nat}

/--
Without a cycle, a synapse leads to a later layer unless it is held up by a
loose row.
-/
theorem place_lt_place_iff (mirrors : sketch.Mirrors graph)
    (acyclic : Acyclic sketch.synapses)
    (listed : synapse ∈ sketch.synapses) (read : synapse.readee = some readee)
    (reads : synapse.reader = some reader)
    (found : sketch.strata[place]? = some layer) (member : readee ∈ layer)
    (foundToo : sketch.strata[other]? = some layer')
    (memberToo : reader ∈ layer') :
    place < other ↔
      ¬(Loose sketch.synapses ∧ Rootless sketch.synapses readee) := by
  have remains := acyclic.remains_iff listed
  simp only [read, Option.some.injEq, forall_eq'] at remains
  rw [← remains]
  obtain ⟨-, stands⟩ := mirrors.place_cases found member
  obtain ⟨-, standsToo⟩ := mirrors.place_cases foundToo memberToo
  constructor
  · intro before always
    obtain ⟨keptReadee, keptReader⟩ := Synapse.not_peeled_of_remains always
    rcases stands with ⟨-, peeled⟩ | ⟨last, -⟩
    · exact keptReadee readee read place peeled
    · rcases standsToo with ⟨-, peeled⟩ | ⟨lastToo, -⟩
      · exact keptReader reader reads other peeled
      · exact Nat.ne_of_lt before (last.trans lastToo.symm)
  · intro taken
    obtain ⟨round, gone⟩ := not_forall.mp taken
    obtain ⟨earlier, peeled⟩ :=
      Synapse.exists_peeled_of_not_mem listed gone read
    rcases mirrors.place_lt_place listed read reads found member foundToo
      memberToo with before | ⟨last, -⟩
    · exact before
    · rcases stands with ⟨early, -⟩ | ⟨-, kept⟩
      · exact absurd last (Nat.ne_of_lt early)
      · exact absurd peeled (kept earlier)

end Sketch.Mirrors

namespace Program

open Synapse (Acyclic Loose Rootless remaining)

/--
Peeling stops early for two reasons only.  One is a cycle of neurons.  Without
it, every synapse is taken unless there is a row of synapses that starts with
one without a readee and ends with one without a reader; then the synapses that
stay are those that a synapse without a readee leads to, or that have no readee
themselves.  A synapse between two neurons that both occur in the layers leads
to a later layer exactly when it does not stay for that reason.
-/
theorem peeling_completes (program : Program)
    (acyclic : Acyclic program.description.synapses) :
    ((∃ rounds, remaining program.description.synapses rounds = []) ↔
        ¬Loose program.description.synapses) ∧
      (∀ synapse ∈ program.description.synapses,
        (∃ rounds, synapse ∉ remaining program.description.synapses rounds) ↔
          ¬(Loose program.description.synapses ∧ ∀ neuron, synapse.readee =
            some neuron →
              Rootless program.description.synapses neuron)) ∧
      ∀ synapse ∈ program.description.synapses, ∀ readee reader : Nat,
        synapse.readee = some readee → synapse.reader = some reader →
          ∀ (place other : Nat) (layer layer' : List Nat),
            program.description.layers[place]? = some layer → readee ∈ layer →
            program.description.layers[other]? = some layer' → reader ∈ layer' →
              (place < other ↔
                ¬(Loose program.description.synapses ∧
                  Rootless program.description.synapses readee)) := by
  refine ⟨acyclic.exists_remaining_eq_nil_iff, fun synapse listed => ?_, ?_⟩
  · rw [← acyclic.remains_iff listed, not_forall]
  · intro synapse listed readee reader read reads place other layer layer'
      found member foundToo memberToo
    obtain ⟨places, kept⟩ :=
      (Sketch.initial.receiveAll program.calls).exists_strata_getElem?
    rw [← places.lt_iff_lt]
    exact program.mirrors_compiled.place_lt_place_iff acyclic listed read reads
      ((kept place).symm.trans found) member ((kept other).symm.trans foundToo)
        memberToo

/--
The first input reads a weighted sum of nothing and the second a weighted sum of
the first; another weighted sum neither reads nor is read.
-/
def adrift : Program :=
  [.create (.weightedSum .one), .create (.weightedSum .two), .readFrom .zero,
    .create (.weightedSum .half), .moveTo .zero, .readFrom ⟨0x4000000000000000⟩,
    .moveTo ⟨0x3ff0000000000000⟩, .readFrom ⟨0x4008000000000000⟩]

theorem synapses_adrift :
    adrift.description.synapses =
      [⟨some 0, .one, none⟩, ⟨some 1, .two, some 0⟩, ⟨none, .half, none⟩] := by
  decide +kernel

theorem peeling_stops_adrift :
    Acyclic adrift.description.synapses ∧
      (∀ rounds, remaining adrift.description.synapses rounds ≠ []) ∧
      ⟨some 1, .two, some 0⟩ ∈ adrift.description.synapses ∧
      adrift.description.layers = [[0, 1]] := by
  have acyclic : Acyclic adrift.description.synapses := by
    apply Synapse.acyclic_of_ascends
    rw [synapses_adrift]
    simp [Synapse.Links, Synapse.Leads]
  refine ⟨acyclic, ?_, ?_, by decide +kernel⟩
  · have stuck : Synapse.free adrift.description.synapses = [] := by
      rw [synapses_adrift]
      decide
    intro rounds
    rw [Synapse.remaining_of_free_eq_nil stuck, synapses_adrift]
    exact List.cons_ne_nil _ _
  · rw [synapses_adrift]
    decide

/--
The first input reads a weighted sum of nothing, a sum reads a weighted sum of
the first input, and nobody reads a weighted sum of the second input.
-/
def moored : Program :=
  [.create .sum, .create (.weightedSum .one), .create (.weightedSum .two),
    .readFrom .zero, .create (.weightedSum .half),
    .readFrom ⟨0x3ff0000000000000⟩, .moveTo .zero,
    .readFrom ⟨0x4008000000000000⟩, .moveTo ⟨0x4000000000000000⟩,
    .readFrom ⟨0x4010000000000000⟩]

theorem synapses_moored :
    moored.description.synapses =
      [⟨some 0, .one, none⟩, ⟨some 2, .two, some 0⟩,
        ⟨none, .half, some 1⟩] := by
  decide +kernel

theorem peeling_completes_moored :
    Acyclic moored.description.synapses ∧
      moored.description.layers = [[1], [0], [2]] ∧
      ∃ rounds, remaining moored.description.synapses rounds = [] := by
  have ascends :
      ∀ source target, Synapse.Links moored.description.synapses source target →
        source < target := by
    rw [synapses_moored]
    simp [Synapse.Links, Synapse.Leads]
  have acyclic := Synapse.acyclic_of_ascends ascends
  refine ⟨acyclic,
    by decide +kernel, (peeling_completes moored acyclic).1.mpr ?_⟩
  rintro (single | ⟨neuron, ⟨source, first, path⟩, last⟩)
  · rw [synapses_moored] at single
    simp [Synapse.Leads] at single
  · -- the row would have to reach the second input, which no synapse leads to
    rw [synapses_moored] at first last
    obtain rfl : neuron = 1 := by simpa [Synapse.Leads, eq_comm] using last
    obtain rfl : source = 0 := by simpa [Synapse.Leads, eq_comm] using first
    rcases ReflTransGen.cases_tail path with same | ⟨before, -, link⟩
    · cases same
    · rw [synapses_moored] at link
      simp [Synapse.Links, Synapse.Leads] at link

end Program

end NeuralGenome
