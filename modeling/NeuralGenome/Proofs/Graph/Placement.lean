import Mathlib.Algebra.Order.BigOperators.Group.List
import Mathlib.Algebra.Order.Group.Nat
import NeuralGenome.Proofs.Graph.Edit

/-!
# The neuron that is named above a link

Whoever writes links down may leave out the name of a reader that is the neuron
created last, since that one has just been named.  This is right as long as
nothing else has been named since its creation.  Once a link that *strays* to
another neuron has put a name there, a later link to the neuron created last
stands under that name instead.

`Graph.named` says which neuron is named last, and `Graph.placed` puts each link
under it.  Links never move up: the neuron above a link is its reader or one
created earlier.  So if every neuron has as many links under it as it reads,
every link stands under its reader.
-/

namespace NeuralGenome

namespace Graph

/-! ## The neuron that is named last -/

/--
Whether a link is stored while a given number of neurons exist and not at the
last of them.
-/
def Wire.strays (population : Nat) (wire : Wire) : Bool :=
  wire.population == population && wire.reader + 1 != population

/--
The neuron that the last stray link names, and the one created last if there is
none.
-/
def named (wires : List Wire) (population : Nat) : Nat :=
  (((wires.filter (·.strays population)).getLast?).map Wire.reader).getD
    (population - 1)

/--
Each link that is stored after given ones, with the neuron that is named above
it.
-/
def placed (before : List Wire) : List Wire → List (Nat × Wire)
  | [] => []
  | wire :: rest =>
      (named (before ++ [wire]) wire.population, wire) ::
        placed (before ++ [wire]) rest

/--
The later of two links does not come back to the neuron created last, after the
earlier.
-/
def Wire.Precedes (earlier later : Wire) : Prop :=
  earlier.population = later.population → later.reader + 1 = later.population →
    earlier.reader + 1 = earlier.population

instance (earlier later : Wire) : Decidable (earlier.Precedes later) :=
  inferInstanceAs (Decidable (_ → _ → _))

/-- Links of which none comes back to the neuron created last. -/
def Orderly (wires : List Wire) : Prop :=
  wires.Pairwise Wire.Precedes

instance (wires : List Wire) : Decidable (Orderly wires) :=
  inferInstanceAs (Decidable (List.Pairwise _ _))

/-- Links to neurons that exist when they are stored. -/
def Timely (wires : List Wire) : Prop :=
  ∀ wire ∈ wires, wire.reader < wire.population

theorem placed_append (before first second : List Wire) :
    placed before (first ++ second) =
      placed before first ++ placed (before ++ first) second := by
  induction first generalizing before with
  | nil => rw [List.append_nil]; rfl
  | cons wire rest ih =>
      rw [List.cons_append, placed, ih, List.append_assoc]
      rfl

theorem map_snd_placed (before wires : List Wire) :
    (placed before wires).map Prod.snd = wires := by
  induction wires generalizing before with
  | nil => rfl
  | cons wire rest ih => rw [placed, List.map_cons, ih]

/-- A link that strays is named by its own reader. -/
theorem named_of_strays (before : List Wire) {wire : Wire}
    (stray : wire.strays wire.population = true) :
    named (before ++ [wire]) wire.population = wire.reader := by
  rw [named, List.filter_append, List.filter_cons_of_pos stray,
    List.getLast?_append]
  rfl

/-- A link that does not stray changes nothing about what is named. -/
theorem named_append_of_not_strays (before : List Wire) {wire : Wire}
    {population : Nat} (home : wire.strays population = false) :
    named (before ++ [wire]) population = named before population := by
  rw [named, List.filter_append,
    List.filter_cons_of_neg (by rw [home]; exact Bool.false_ne_true),
    List.filter_nil, List.append_nil, named]

/--
What is named is the neuron created last, or lies below it by a link that strays
there.
-/
theorem named_cases (before : List Wire) (population : Nat) :
    (named before population = population - 1 ∧
        ∀ wire ∈ before, wire.strays population = false) ∨
      ∃ wire ∈ before, wire.strays population = true ∧
        named before population = wire.reader := by
  cases last : (before.filter (·.strays population)).getLast? with
  | none =>
      have none_strays :=
        List.filter_eq_nil_iff.mp (List.getLast?_eq_none_iff.mp last)
      refine .inl ⟨by rw [named, last]; rfl, fun wire member => ?_⟩
      exact Bool.eq_false_iff.mpr (none_strays wire member)
  | some wire =>
      have found := List.mem_filter.mp (List.mem_of_getLast? last)
      exact .inr ⟨wire, found.1, found.2, by rw [named, last]; rfl⟩

/--
A link stands under its reader exactly if it does not come back to the neuron
created last.
-/
theorem named_eq_reader_iff (before : List Wire) (wire : Wire) :
    named (before ++ [wire]) wire.population = wire.reader ↔
      ∀ earlier ∈ before, earlier.Precedes wire := by
  cases stray : wire.strays wire.population with
  | true =>
      have elsewhere : wire.reader + 1 ≠ wire.population := by
        simpa [Wire.strays] using stray
      exact iff_of_true (named_of_strays before stray)
        fun _ _ _ returned => absurd returned elsewhere
  | false =>
      have home : wire.reader + 1 = wire.population := by
        simpa [Wire.strays] using stray
      rw [named_append_of_not_strays before stray]
      obtain ⟨latest, none_strays⟩ | ⟨other, member, strays, named⟩ :=
        named_cases before wire.population
      · refine iff_of_true (by omega) fun earlier member same _ => ?_
        have kept := none_strays earlier member
        simp only [Wire.strays, same, beq_self_eq_true, Bool.true_and,
          bne_eq_false_iff_eq] at kept
        exact kept.trans same.symm
      · simp only [Wire.strays, Bool.and_eq_true, beq_iff_eq, bne_iff_ne]
          at strays
        refine iff_of_false (by omega) fun precede => ?_
        have returned := precede other member strays.1 home
        omega

/-- No link stands above its reader. -/
theorem named_le_reader {before : List Wire} (timely : Timely before)
    (wire : Wire) : named (before ++ [wire]) wire.population ≤ wire.reader := by
  cases stray : wire.strays wire.population with
  | true => exact Nat.le_of_eq (named_of_strays before stray)
  | false =>
      have home : wire.reader + 1 = wire.population := by
        simpa [Wire.strays] using stray
      rw [named_append_of_not_strays before stray]
      obtain ⟨latest, -⟩ | ⟨other, member, strays, named⟩ :=
        named_cases before wire.population
      · omega
      · have earlier := timely other member
        simp only [Wire.strays, Bool.and_eq_true, beq_iff_eq] at strays
        omega

/-- All links stand under their readers exactly if they are orderly. -/
theorem placed_under_readers_iff (before wires : List Wire) :
    (∀ place ∈ placed before wires, place.1 = place.2.reader) ↔
      Orderly wires ∧ ∀ earlier ∈ before, ∀ later ∈ wires,
        earlier.Precedes later := by
  induction wires generalizing before with
  | nil => simp [placed, Orderly]
  | cons wire rest ih =>
      rw [placed, List.forall_mem_cons, named_eq_reader_iff, ih]
      simp only [List.mem_append, List.mem_cons, List.not_mem_nil, or_false,
        Orderly, List.pairwise_cons]
      constructor
      · rintro ⟨head, tail, both⟩
        refine ⟨⟨fun later member => both wire (.inr rfl) later member, tail⟩,
          ?_⟩
        rintro earlier member later (rfl | inside)
        · exact head earlier member
        · exact both earlier (.inl member) later inside
      · rintro ⟨⟨head, tail⟩, both⟩
        refine ⟨fun earlier member =>
          both earlier member wire (.inl rfl), tail, ?_⟩
        rintro earlier (member | rfl) later inside
        · exact both earlier member later (.inr inside)
        · exact head later inside

theorem placed_iff_orderly (wires : List Wire) :
    (∀ place ∈ placed [] wires, place.1 = place.2.reader) ↔ Orderly wires := by
  rw [placed_under_readers_iff]
  exact and_iff_left fun _ member => absurd member List.not_mem_nil

theorem placed_le_reader {before wires : List Wire}
    (timely : Timely (before ++ wires)) :
    ∀ place ∈ placed before wires, place.1 ≤ place.2.reader := by
  induction wires generalizing before with
  | nil => exact fun _ member => absurd member List.not_mem_nil
  | cons wire rest ih =>
      rw [placed, List.forall_mem_cons]
      refine ⟨named_le_reader
        (fun other member => timely other (List.mem_append_left _ member))
        wire, ih ?_⟩
      rw [List.append_assoc]
      exact timely

/--
Links that are placed at or below their readers are placed right exactly if each
neuron has the links placed under it that it reads.
-/
theorem forall_placed_iff {places : List (Nat × Wire)}
    (below : ∀ place ∈ places, place.1 ≤ place.2.reader) :
    (∀ place ∈ places, place.1 = place.2.reader) ↔
      ∀ neuron : Nat,
        (places.filter (·.1 == neuron)).map (fun place => place.2.index) =
          (places.filter (·.2.reader == neuron)).map fun place =>
            place.2.index := by
  constructor
  · intro right neuron
    refine congrArg _ (List.filter_congr fun place member => ?_)
    rw [right place member]
  · intro same
    -- as many links are placed under each neuron as it reads, so both sums are
    -- the same
    have sums : (places.map Prod.fst).sum =
        (places.map fun place => place.2.reader).sum := by
      refine List.Perm.sum_eq (List.perm_iff_count.mpr fun neuron => ?_)
      have sizes := congrArg List.length (same neuron)
      rw [List.length_map, List.length_map, ← List.countP_eq_length_filter,
        ← List.countP_eq_length_filter] at sizes
      rw [List.count_eq_countP, List.countP_map, List.count_eq_countP,
        List.countP_map]
      exact sizes
    intro place member
    by_contra misplaced
    have strict : place.1 < place.2.reader :=
      Nat.lt_of_le_of_ne (below place member) misplaced
    exact absurd sums
      (Nat.ne_of_lt (List.sum_lt_sum _ _ below ⟨place, member, strict⟩))

end Graph

end NeuralGenome
