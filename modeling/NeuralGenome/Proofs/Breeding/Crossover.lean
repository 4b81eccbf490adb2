import NeuralGenome.Breeding.Crossover
import NeuralGenome.Proofs.Genome.Canonical
import NeuralGenome.Proofs.Journal.Outcome
import NeuralGenome.Random.Script

/-!
# What crossover makes of two parents

Two parents are aligned at their last genes.  Where the longer one has no
counterpart its genes are inherited, whatever the draws are; everywhere else one
draw decides between the two genes that are equally far from the end.
`Crossover.inherited` states this without padding, and the child is
characterised by it gene by gene.  The rest of the theory follows: what a child
depends on, the child of a parent with itself, and the symmetry of crossover.
-/

namespace NeuralGenome

namespace Crossover

/--
The gene of a child at a position, when the coin there is known.  Only the
longer parent reaches the positions before the gap; from there on both parents
are counted from the end.
-/
def inherited (left right : Program) (coin : Bool) (position : Nat) :
    Option Gene :=
  let chosen := if coin then left else right
  -- The longer parent is counted from its own start in either case.
  if position < gap left right then
    (if right.length ≤ left.length then left else right)[position]?
  else chosen[position - (max left.length right.length - chosen.length)]?

/-- The child of two programs for given draws. -/
def child (left right : Program) (draws : List Binary64) : Program :=
  choose (draws.map favoursFirst) (align left right).1 (align left right).2

/-! ## Choosing genes -/

theorem length_choose {coins : List Bool} {lefts rights : Program}
    (tossed : coins.length = lefts.length)
    (same : lefts.length = rights.length) :
    (choose coins lefts rights).length = coins.length := by
  induction coins generalizing lefts rights with
  | nil => rfl
  | cons coin coins ih =>
      cases lefts with
      | nil => cases tossed
      | cons left lefts =>
          cases rights with
          | nil => cases same
          | cons right rights =>
              rw [choose, List.length_cons, List.length_cons,
                ih (Nat.succ.inj tossed) (Nat.succ.inj same)]

theorem getElem?_choose {coins : List Bool} {lefts rights : Program}
    (same : lefts.length = rights.length) {position : Nat} {coin : Bool}
    (tossed : coins[position]? = some coin) :
    (choose coins lefts rights)[position]? =
      if coin then lefts[position]? else rights[position]? := by
  induction coins generalizing lefts rights position with
  | nil => cases tossed
  | cons first coins ih =>
      cases lefts with
      | nil =>
          cases List.length_eq_zero_iff.mp same.symm
          cases coin <;> rfl
      | cons left lefts =>
          obtain ⟨right, rights, rfl⟩ :=
            List.exists_cons_of_length_eq_add_one same.symm
          cases position with
          | zero =>
              cases tossed
              cases coin <;> rfl
          | succ position =>
              simp only [choose, List.getElem?_cons_succ] at tossed ⊢
              exact ih (Nat.succ.inj same) tossed

/-! ## Aligned parents -/

theorem length_align_fst (left right : Program) :
    (align left right).1.length = max left.length right.length := by
  simp only [align, List.length_append, List.length_take]
  omega

theorem gap_comm (left right : Program) : gap left right = gap right left :=
  Nat.add_comm _ _

/--
Counted from the end, what a child inherits stands in a parent at the same
distance.
-/
theorem inherited_eq_reverse {left right : Program} {position : Nat}
    (inside : position < max left.length right.length) (coin : Bool) :
    ∃ parent, (parent = left ∨ parent = right) ∧
      inherited left right coin position =
        parent.reverse[max left.length right.length - 1 - position]? := by
  have behind (parent : Program) (padding : Nat) (reached : padding ≤ position)
      (total : max left.length right.length = padding + parent.length) :
      parent[position - padding]? =
        parent.reverse[max left.length right.length - 1 - position]? := by
    rw [List.getElem?_reverse (by omega)]
    congr 1
    omega
  by_cases early : position < gap left right
  · by_cases shorter : right.length ≤ left.length
    · refine ⟨left, .inl rfl, ?_⟩
      simp only [inherited, if_pos early, if_pos shorter]
      exact behind left 0 (Nat.zero_le position) (by omega)
    · refine ⟨right, .inr rfl, ?_⟩
      simp only [inherited, if_pos early, if_neg shorter]
      exact behind right 0 (Nat.zero_le position) (by omega)
  · simp only [inherited, if_neg early]
    simp only [gap] at early
    cases coin with
    | true =>
        simp only [if_true]
        exact ⟨left, .inl rfl, behind left _ (by omega) (by omega)⟩
    | false =>
        simp only [Bool.false_eq_true, if_false]
        exact ⟨right, .inr rfl, behind right _ (by omega) (by omega)⟩

/--
Exchanging the parents and turning the coin leaves a child what it inherits.
-/
theorem inherited_swap (left right : Program) (coin : Bool) (position : Nat) :
    inherited right left (!coin) position =
      inherited left right coin position := by
  have chosen :
      (if !coin then right else left) = if coin then left else right := by
    cases coin <;> rfl
  simp only [inherited, chosen, gap_comm right left, Nat.max_comm right.length]
  by_cases unequal : left.length = right.length
  · have closed : ¬position < gap left right := by
      simp only [gap]
      omega
    simp only [unequal, Nat.le_refl, if_true, if_neg closed]
  · by_cases shorter : right.length ≤ left.length
    · have longer : ¬left.length ≤ right.length := by omega
      simp only [if_pos shorter, if_neg longer]
    · have longer : left.length ≤ right.length := by omega
      simp only [if_neg shorter, if_pos longer]

/-- An aligned parent holds what a child inherits by the coin for it. -/
theorem getElem?_align_fst (left right : Program) (position : Nat) :
    (align left right).1[position]? = inherited left right true position := by
  simp only [align, inherited, gap, if_true]
  by_cases shorter : right.length ≤ left.length
  · have nothing : right.length - left.length = 0 := by omega
    simp [shorter, nothing]
  · have nothing : left.length - right.length = 0 := by omega
    have behind : max left.length right.length - left.length =
        right.length - left.length := by omega
    rw [List.getElem?_append, List.length_take, List.getElem?_take,
      Nat.min_eq_left (Nat.sub_le _ _), if_neg shorter, nothing, Nat.zero_add,
      behind]
    split <;> rfl

theorem getElem?_align_snd (left right : Program) (position : Nat) :
    (align left right).2[position]? = inherited left right false position :=
  (getElem?_align_fst right left position).trans
    (inherited_swap left right false position)

/-! ## Children -/

variable {left right : Program} {draws : List Binary64}

theorem length_child
    (drawn : draws.length = max left.length right.length) :
    (child left right draws).length = max left.length right.length := by
  rw [child, length_choose _ (length_align left right), List.length_map, drawn]
  rw [List.length_map, length_align_fst, drawn]

/--
A child holds at every position what it inherits by the draw for that position.
-/
theorem getElem?_child {position : Nat} {draw : Binary64}
    (drawn : draws[position]? = some draw) :
    (child left right draws)[position]? =
      inherited left right (favoursFirst draw) position := by
  have tossed :
      (draws.map favoursFirst)[position]? = some (favoursFirst draw) := by
    rw [List.getElem?_map, drawn]
    rfl
  rw [child, getElem?_choose (length_align left right) tossed,
    getElem?_align_fst, getElem?_align_snd]
  cases favoursFirst draw <;> rfl

/--
Counted from the end, a child holds genes that a parent holds at the same
distance.
-/
theorem getElem?_reverse_child
    (drawn : draws.length = max left.length right.length)
    {distance : Nat} {gene : Gene}
    (held : (child left right draws).reverse[distance]? = some gene) :
    left.reverse[distance]? = some gene ∨
      right.reverse[distance]? = some gene := by
  have within : distance < (child left right draws).length := by
    rw [← List.length_reverse]
    exact (List.getElem?_eq_some_iff.mp held).1
  rw [List.getElem?_reverse within] at held
  rw [length_child drawn] at held within
  have counted : max left.length right.length - 1 - distance <
      max left.length right.length := by omega
  obtain ⟨draw, tossed⟩ :
      ∃ draw, draws[max left.length right.length - 1 - distance]? = some draw :=
    ⟨_, List.getElem?_eq_getElem (drawn.symm ▸ counted)⟩
  rw [getElem?_child tossed] at held
  obtain ⟨parent, either, same⟩ :=
    inherited_eq_reverse counted (favoursFirst draw)
  rw [same, Nat.sub_sub_self (by omega)] at held
  rcases either with rfl | rfl
  · exact .inl held
  · exact .inr held

/-- Only the coins matter, and for exchanged parents they are turned. -/
theorem child_swap {others : List Binary64}
    (turned : others.map favoursFirst = (draws.map favoursFirst).map not)
    (drawn : draws.length = max left.length right.length) :
    child right left others = child left right draws := by
  have counted : others.length = draws.length := by
    simpa using congrArg List.length turned
  apply List.ext_getElem?
  intro position
  by_cases inside : position < draws.length
  · have here := List.getElem?_eq_getElem inside
    have there := List.getElem?_eq_getElem (counted.symm ▸ inside)
    have coin := congrArg (·[position]?) turned
    simp only [List.getElem?_map, here, there, Option.map_some,
      Option.some.injEq] at coin
    rw [getElem?_child here, getElem?_child there, coin, inherited_swap]
  · have drawnToo : others.length = max right.length left.length := by
      rw [counted, drawn, Nat.max_comm]
    rw [List.getElem?_eq_none, List.getElem?_eq_none]
    · rw [length_child drawn, ← drawn]
      exact Nat.le_of_not_lt inside
    · rw [length_child drawnToo, ← drawnToo, counted]
      exact Nat.le_of_not_lt inside

/-- The child of a program with itself is the program. -/
theorem child_self (program : Program)
    (drawn : draws.length = program.length) :
    child program program draws = program := by
  have counted : draws.length = max program.length program.length := by
    rw [drawn, Nat.max_self]
  apply List.ext_getElem?
  intro position
  by_cases inside : position < draws.length
  · rw [getElem?_child (List.getElem?_eq_getElem inside)]
    simp [inherited, gap]
  · rw [List.getElem?_eq_none, List.getElem?_eq_none]
    · omega
    · rw [length_child counted]
      omega

/-! ## Crossover at a bench -/

variable {Source : Type} [DrawSource Source] {first second : Chromosome}

omit [DrawSource Source] in
theorem ends_alignNoted (left right : Program) (source : Source) :
    Lab.Ends (alignNoted left right) source (.ok (align left right)) source :=
  (Lab.Ends.noteIf _ _ source).bind (.pure (align left right) source)

/-- Two parents that can be decoded have a child, for one draw a gene. -/
theorem ends_cross (decodedFirst : first.program = .ok left)
    (decodedSecond : second.program = .ok right) (source : Source) :
    Lab.Ends (cross first second) source
      (.ok (.ofProgram (child left right
        (DrawSource.take (max left.length right.length) source).1)))
      (DrawSource.take (max left.length right.length) source).2 := by
  have readFirst := Lab.Ends.decode first source
  have readSecond := Lab.Ends.decode second source
  rw [decodedFirst] at readFirst
  rw [decodedSecond] at readSecond
  refine readFirst.bind (readSecond.bind
    ((ends_alignNoted left right source).bind ?_))
  show Lab.Ends (Lab.draw (DrawSource.take (align left right).1.length) >>=
    fun draws =>
      pure (Chromosome.ofProgram (child left right draws))) source _ _
  rw [length_align_fst]
  exact (Lab.Ends.draw _ source).bind (.pure _ _)

theorem ends_cross_of_first {fault : Fault}
    (failed : first.program = .error fault) (source : Source) :
    Lab.Ends (cross first second) source (.error fault) source := by
  have read := Lab.Ends.decode first source
  rw [failed] at read
  exact read.bind_error

theorem ends_cross_of_second {fault : Fault}
    (decoded : first.program = .ok left)
    (failed : second.program = .error fault) (source : Source) :
    Lab.Ends (cross first second) source (.error fault) source := by
  have readFirst := Lab.Ends.decode first source
  have readSecond := Lab.Ends.decode second source
  rw [decoded] at readFirst
  rw [failed] at readSecond
  exact readFirst.bind readSecond.bind_error

/--
The outcome of crossover is a function of the programs that the parents carry.
-/
theorem exists_ends_cross (first second : Chromosome) (source : Source) :
    ∃ outcome after, ∀ first' second' : Chromosome,
      first'.program = first.program → second'.program = second.program →
        Lab.Ends (cross first' second') source outcome after := by
  cases decodedFirst : first.program with
  | error fault =>
      exact ⟨_, _, fun _ _ same _ => ends_cross_of_first same source⟩
  | ok left =>
      cases decodedSecond : second.program with
      | error fault =>
          exact ⟨_, _, fun _ _ same failed =>
            ends_cross_of_second same failed source⟩
      | ok right =>
          exact ⟨_, _, fun _ _ same also => ends_cross same also source⟩

/-- Parents that carry the same programs have the same outcomes. -/
theorem ends_cross_congr {first' second' : Chromosome}
    (sameFirst : first'.program = first.program)
    (sameSecond : second'.program = second.program) {source after : Source}
    {outcome : Except Fault Chromosome} :
    Lab.Ends (cross first' second') source outcome after ↔
      Lab.Ends (cross first second) source outcome after := by
  obtain ⟨common, left, ends⟩ := exists_ends_cross first second source
  have here := ends first second rfl rfl
  have there := ends first' second' sameFirst sameSecond
  constructor
  · intro given
    obtain ⟨rfl, rfl⟩ := given.unique there
    exact here
  · intro given
    obtain ⟨rfl, rfl⟩ := given.unique here
    exact there

/-- A genome crossed with itself is brought into canonical form. -/
theorem ends_cross_self {program : Program}
    (decoded : first.program = .ok program) (source : Source) :
    Lab.Ends (cross first first) source (.ok first.canonical)
      (DrawSource.take program.length source).2 := by
  have ends := ends_cross decoded decoded source
  rw [Nat.max_self,
    child_self program (DrawSource.length_take program.length source),
    Chromosome.ofProgram_of_program decoded] at ends
  exact ends

/--
Crossover is settled for all byte strings and all draws.  A parent that cannot
be decoded is reported, the first one first, before anything is drawn.
Otherwise as many numbers are drawn as the longer parent has genes, and the
child has as many frames and decodes to the genes inherited at each position.
The child depends on the programs of its parents only; that of a genome with
itself is the canonical form; and the parents can be exchanged if every coin is
turned.
-/
theorem cross_settled (first second : Chromosome) (source : Source) :
    ((∃ tag offset,
          first.program = .error (.unknownTag tag (some offset)) ∧
          Lab.Ends (cross first second) source
            (.error (.unknownTag tag (some offset))) source) ∨
        (∃ left tag offset, first.program = .ok left ∧
          second.program = .error (.unknownTag tag (some offset)) ∧
          Lab.Ends (cross first second) source
            (.error (.unknownTag tag (some offset))) source) ∨
        ∃ left right outcome genes, first.program = .ok left ∧
          second.program = .ok right ∧
          Lab.Ends (cross first second) source (.ok outcome)
            (DrawSource.take (max left.length right.length) source).2 ∧
          outcome.length = 9 * max left.length right.length ∧
          outcome.program = .ok genes ∧
          genes.length = max left.length right.length ∧
          ∀ position < max left.length right.length, ∃ draw,
            (DrawSource.take (max left.length right.length)
              source).1[position]? = some draw ∧
            genes[position]? =
              inherited left right (draw.less .half) position) ∧
      (∀ first' second' : Chromosome, first'.program = first.program →
        second'.program = second.program → ∀ outcome after,
          Lab.Ends (cross first' second') source outcome after ↔
            Lab.Ends (cross first second) source outcome after) ∧
      (∀ program, first.program = .ok program →
        Lab.Ends (cross first first) source (.ok first.canonical)
          (DrawSource.take program.length source).2) ∧
      ∀ left right, first.program = .ok left → second.program = .ok right →
        ∀ {Other : Type} [DrawSource Other] (other : Other),
          (DrawSource.take (max left.length right.length) other).1.map
              favoursFirst =
            ((DrawSource.take (max left.length right.length) source).1.map
              favoursFirst).map not →
          ∃ outcome after after',
            Lab.Ends (cross first second) source (.ok outcome) after ∧
            Lab.Ends (cross second first) other (.ok outcome) after' := by
  refine ⟨?_, ?_, ?_, ?_⟩
  · cases decodedFirst : first.program with
    | error fault =>
        obtain ⟨tag, offset, rfl⟩ := Chromosome.exists_unknownTag decodedFirst
        exact .inl ⟨tag, offset, rfl, ends_cross_of_first decodedFirst source⟩
    | ok left =>
        cases decodedSecond : second.program with
        | error fault =>
            obtain ⟨tag, offset, rfl⟩ :=
              Chromosome.exists_unknownTag decodedSecond
            exact .inr (.inl ⟨left, tag, offset, rfl, rfl,
              ends_cross_of_second decodedFirst decodedSecond source⟩)
        | ok right =>
            have drawn := DrawSource.length_take
              (max left.length right.length) source
            refine .inr (.inr ⟨left, right, _, _, rfl, rfl,
              ends_cross decodedFirst decodedSecond source, ?_,
              Chromosome.program_ofProgram _, length_child drawn, ?_⟩)
            · rw [Chromosome.length, Chromosome.bytes_ofProgram,
                Program.length_encode, length_child drawn, Nat.mul_comm]
              rfl
            · intro position inside
              have found := List.getElem?_eq_getElem (drawn.symm ▸ inside)
              exact ⟨_, found, getElem?_child found⟩
  · intro first' second' sameFirst sameSecond outcome after
    exact ends_cross_congr sameFirst sameSecond
  · intro program decoded
    exact ends_cross_self decoded source
  · intro left right decodedFirst decodedSecond Other _ other turned
    have here := ends_cross decodedFirst decodedSecond source
    have there := ends_cross decodedSecond decodedFirst other
    rw [Nat.max_comm right.length,
      child_swap turned (DrawSource.length_take _ source)] at there
    exact ⟨_, _, _, here, there⟩

/-- Turned coins come from a script of zeros and a script of halves. -/
example :
    (DrawSource.take 3 (Script.ofList [.half])).1.map favoursFirst =
      ((DrawSource.take 3 (Script.ofList [.zero])).1.map favoursFirst).map
        not := by decide

end Crossover

end NeuralGenome
