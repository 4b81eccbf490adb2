import NeuralGenome.Proofs.Layered.Writing

/-!
# Handles of a session

A session answers with numbers, and a blueprint gives out handles.  As long as
no number is taken without a neuron, and layers are made only of neurons that
exist, each operation does to the session what it means for the blueprint, so
that the two stay the same: `Session.Realizes` is the invariant, and every
operation that succeeds preserves it.
-/

namespace NeuralGenome

open ListPosition (Within)

namespace ListPosition

variable {Element Image : Type}

theorem find_eq_ok {list : List Element} {position : Int} {element : Element} :
    find list position = .ok element ↔ get? list position = some element := by
  rw [find]
  cases get? list position with
  | none => simp only [reduceCtorEq]
  | some found => rw [Except.ok.injEq, Option.some.injEq]

theorem locate_eq_ok {size place : Nat} {position : Int} :
    locate size position = .ok place ↔ place? size position = some place := by
  rw [locate]
  cases place? size position with
  | none => simp only [reduceCtorEq]
  | some found => rw [Except.ok.injEq, Option.some.injEq]

theorem get?_map (change : Element → Image) (list : List Element)
    (position : Int) :
    get? (list.map change) position = (get? list position).map change := by
  rw [get?, get?, List.length_map, Option.map_bind]
  exact congrArg _ (funext fun place => List.getElem?_map)

end ListPosition

namespace Session

/-! ## What the parts of an operation do -/

section Parts

variable {Value Result : Type} {before after : Session} {position : Int}
  {result : Result}

/--
What goes on with an element that is found in a field of a session, be it its
layers or its sums, starts from the session in which the element was found.
-/
theorem run_find_bind {Element : Type} (field : Session → List Element)
    {next : Element → Procedure Session Result}
    (ran : ((get >>= fun session => Procedure.ofExcept
        (ListPosition.find (field session) position)) >>= next).run before =
      (.ok result, after)) :
    ∃ found, ListPosition.get? (field before) position = some found ∧
      (next found).run before = (.ok result, after) := by
  obtain ⟨found, middle, searched, rest⟩ := Procedure.run_bind_eq_ok.mp ran
  obtain ⟨session, start, got, looked⟩ := Procedure.run_bind_eq_ok.mp searched
  cases got
  obtain ⟨located, rfl⟩ := Procedure.run_ofExcept_eq_ok.mp looked
  exact ⟨found, ListPosition.find_eq_ok.mp located, rest⟩

/--
What goes on after work of the programmer starts with the programmer that it
leaves.
-/
theorem run_program_bind {procedure : Procedure Programmer Value}
    {next : Value → Procedure Session Result}
    (ran : (program procedure >>= next).run before = (.ok result, after)) :
    ∃ value programmer,
      procedure.run before.programmer = (.ok value, programmer) ∧
      (next value).run { before with programmer := programmer } =
        (.ok result, after) := by
  obtain ⟨value, middle, programmed, rest⟩ := Procedure.run_bind_eq_ok.mp ran
  obtain ⟨programmer, worked, rfl⟩ := Procedure.run_within_eq_ok.mp programmed
  exact ⟨value, programmer, worked, rest⟩

theorem run_replace {layer : Layer} {answer : Answer}
    (ran : (replace position layer).run before = (.ok answer, after)) :
    ∃ place, ListPosition.place? before.layers.length position = some place ∧
      after = { before with layers := before.layers.set place layer } := by
  obtain ⟨session, start, got, rest⟩ := Procedure.run_bind_eq_ok.mp ran
  cases got
  obtain ⟨place, middle, located, written⟩ := Procedure.run_bind_eq_ok.mp rest
  obtain ⟨inside, rfl⟩ := Procedure.run_ofExcept_eq_ok.mp located
  cases written
  exact ⟨place, ListPosition.locate_eq_ok.mp inside, rfl⟩

end Parts

/-! ## The operations that have a meaning -/

/--
Operations that have a meaning: a layer is made of neurons that exist, and no
number is taken for no neuron.
-/
def Allows (session : Session) : Operation → Prop
  | .newLayer neurons =>
      ∀ neuron ∈ neurons, 0 ≤ neuron ∧ neuron < session.programmer.nextNeuron
  | .allocate => False
  | _ => True

instance (session : Session) : DecidablePred session.Allows
  | .newLayer _ => inferInstanceAs (Decidable (∀ _ ∈ _, _))
  | .allocate => inferInstanceAs (Decidable False)
  | .emptyLayer | .x _ | .y _ | .constant _ _ | .random _ | .weighted _ _
  | .sum _
  | .assign _ _ | .count _ | .program => inferInstanceAs (Decidable True)

/-- Operations that have a meaning when they are performed in order. -/
def Admits (session : Session) : List Operation → Prop
  | [] => True
  | operation :: rest =>
      session.Allows operation ∧ ((perform operation).run session).2.Admits rest

instance decidableAdmits (session : Session) :
    (operations : List Operation) → Decidable (session.Admits operations)
  | [] => inferInstanceAs (Decidable True)
  | operation :: rest =>
      have := decidableAdmits ((perform operation).run session).2 rest
      inferInstanceAs (Decidable (_ ∧ _))

/--
A session in which every number is the handle of the neuron that a blueprint has
there.
-/
structure Realizes (session : Session) (blueprint : Blueprint) : Prop where
  programmer : session.programmer.Realizes blueprint.origins blueprint.output
  layers : session.layers = blueprint.layers.map (·.map Int.ofNat)
  sums : session.sums = blueprint.sums.map Int.ofNat
  sound : blueprint.Sound

theorem realizes_initial : initial.Realizes Blueprint.initial where
  programmer := Programmer.Realizes.initial
  layers := rfl
  sums := rfl
  sound := Blueprint.sound_initial

namespace Realizes

variable {session before after : Session} {blueprint : Blueprint}
  {position : Int} {answer : Answer}

/-- A layer that is found is a layer of the blueprint, and its neurons exist. -/
theorem layer (realizes : before.Realizes blueprint)
    {next : Layer → Procedure Session Answer}
    (ran : (Session.layer position >>= next).run before = (.ok answer, after)) :
    ∃ layer, ListPosition.get? blueprint.layers position = some layer ∧
      (∀ neuron ∈ layer, neuron < blueprint.fresh) ∧
      (next (layer.map Int.ofNat)).run before = (.ok answer, after) := by
  obtain ⟨found, located, rest⟩ := run_find_bind Session.layers ran
  rw [realizes.layers, ListPosition.get?_map, Option.map_eq_some_iff] at located
  obtain ⟨layer, here, rfl⟩ := located
  obtain ⟨place, -, there⟩ := Option.bind_eq_some_iff.mp here
  exact ⟨layer, here,
    realizes.sound.layers layer (List.mem_of_getElem? there), rest⟩

theorem sumNeuron (realizes : before.Realizes blueprint)
    {next : Int → Procedure Session Answer}
    (ran : (Session.sumNeuron position >>= next).run before =
      (.ok answer, after)) :
    ∃ neuron, ListPosition.get? blueprint.sums position = some neuron ∧
      neuron < blueprint.fresh ∧ (next neuron).run before =
        (.ok answer, after) := by
  obtain ⟨found, located, rest⟩ := run_find_bind Session.sums ran
  rw [realizes.sums, ListPosition.get?_map, Option.map_eq_some_iff] at located
  obtain ⟨neuron, here, rfl⟩ := located
  obtain ⟨place, -, there⟩ := Option.bind_eq_some_iff.mp here
  exact ⟨neuron, here,
    realizes.sound.sums neuron (List.mem_of_getElem? there), rest⟩

theorem addLayer (realizes : session.Realizes blueprint) {layer : List Nat}
    (inside : ∀ neuron ∈ layer, neuron < blueprint.fresh) :
    ({ session with
        layers := session.layers ++ [layer.map Int.ofNat] } : Session).Realizes
      (blueprint.addLayer layer) where
  programmer := realizes.programmer
  layers := by
    show session.layers ++ _ = (blueprint.layers ++ [layer]).map _
    rw [realizes.layers, List.map_append]
    rfl
  sums := realizes.sums
  sound := realizes.sound.addLayer inside

theorem addSum (realizes : session.Realizes blueprint) {neuron : Nat}
    (inside : neuron < blueprint.fresh) :
    ({ session with
        sums := session.sums ++ [(neuron : Int)] } : Session).Realizes
      (blueprint.addSum neuron) where
  programmer := realizes.programmer
  layers := realizes.layers
  sums := by
    show session.sums ++ _ = (blueprint.sums ++ [neuron]).map _
    rw [realizes.sums, List.map_append]
    rfl
  sound := realizes.sound.addSum inside

/-- Neurons that are programmed are added, with the handles that there are. -/
theorem append (realizes : session.Realizes blueprint) {programmer : Programmer}
    {origins : List Origin}
    (built : programmer.Realizes (blueprint.origins ++ origins)
      blueprint.output)
    (earlier : ∀ origin ∈ origins, ∀ parent ∈ origin.parents,
      parent < blueprint.fresh) :
    ({ session with programmer := programmer } : Session).Realizes
      (blueprint.append origins) where
  programmer := built
  layers := realizes.layers
  sums := realizes.sums
  sound := realizes.sound.append earlier

theorem designate (realizes : session.Realizes blueprint)
    {programmer : Programmer} {neuron : Nat} {axis : Output}
    (built : programmer.Realizes blueprint.origins
      (blueprint.designate neuron axis).output) :
    ({ session with programmer := programmer } : Session).Realizes
      (blueprint.designate neuron axis) := by
  cases axis <;> exact ⟨built, realizes.layers, realizes.sums,
    realizes.sound.designate neuron _⟩

/-- A layer that is extended by a neuron that exists. -/
theorem extend (realizes : before.Realizes blueprint) {layer : List Nat}
    {neuron : Nat}
    (located : ListPosition.get? blueprint.layers position = some layer)
    (inside : neuron < blueprint.fresh)
    (ran : (replace position (layer.map Int.ofNat ++ [(neuron : Int)])).run
      before = (.ok answer, after)) :
    ∃ next, blueprint.extend? position neuron = some next ∧
      after.Realizes next := by
  obtain ⟨place, here, there⟩ := Option.bind_eq_some_iff.mp located
  obtain ⟨same, found, rfl⟩ := run_replace ran
  rw [realizes.layers, List.length_map, here] at found
  cases found
  have members := realizes.sound.layers layer (List.mem_of_getElem? there)
  refine ⟨blueprint.replace place (layer ++ [neuron]), ?_,
    realizes.programmer, ?_, realizes.sums, realizes.sound.replace place
      (List.forall_mem_append.mpr
        ⟨members, List.forall_mem_singleton.mpr inside⟩)⟩
  · rw [Blueprint.extend?, here, Option.bind_eq_bind, Option.bind_some, there]
    rfl
  · show before.layers.set place _ =
      (blueprint.layers.set place (layer ++ [neuron])).map _
    rw [realizes.layers, List.map_set, List.map_append]
    rfl

/-! ## One operation -/

/-- A neuron without parents that is created for a layer. -/
theorem create (realizes : before.Realizes blueprint) {layer : List Nat}
    {origin : Origin} {programmer : Programmer} {number : Int}
    (located : ListPosition.get? blueprint.layers position = some layer)
    (orphan : origin.parents = [])
    (numbered : number = blueprint.origins.length)
    (built : programmer.Realizes (blueprint.origins ++ [origin])
      blueprint.output)
    (ran : (replace position (layer.map Int.ofNat ++ [number])).run
      { before with programmer := programmer } = (.ok answer, after)) :
    ∃ next,
      (blueprint.append [origin]).extend? position blueprint.fresh = some next ∧
      after.Realizes next := by
  have earlier : ∀ other ∈ [origin], ∀ parent ∈ other.parents,
      parent < blueprint.fresh := by
    intro other member parent inside
    rw [List.mem_singleton.mp member, orphan] at inside
    cases inside
  have inside : blueprint.fresh < (blueprint.append [origin]).fresh := by
    rw [Blueprint.fresh_append]
    exact Nat.lt_succ_self _
  rw [numbered] at ran
  exact (realizes.append built earlier).extend located inside ran

/-- A layer of neurons that exist is a layer of handles. -/
theorem newLayer (realizes : before.Realizes blueprint) {neurons : List Int}
    (allowed : before.Allows (.newLayer neurons))
    (ran : (perform (.newLayer neurons)).run before = (.ok answer, after)) :
    ∃ next, blueprint.perform? (.newLayer neurons) = some next ∧
      after.Realizes next := by
  cases ran
  have within : ∀ neuron ∈ neurons, Within blueprint.fresh neuron := by
    intro neuron member
    have bounds := allowed neuron member
    rw [realizes.programmer.next] at bounds
    exact bounds
  have inside : ∀ neuron ∈ neurons.map Int.toNat, neuron < blueprint.fresh := by
    intro neuron member
    obtain ⟨number, given, rfl⟩ := List.mem_map.mp member
    have bounds := within number given
    unfold ListPosition.Within at bounds
    omega
  have same : (neurons.map Int.toNat).map Int.ofNat = neurons := by
    rw [List.map_map]
    refine (List.map_congr_left fun neuron member => ?_).trans
      (List.map_id neurons)
    exact Int.toNat_of_nonneg (within neuron member).1
  refine ⟨blueprint.addLayer (neurons.map Int.toNat), if_pos within, ?_⟩
  have added := realizes.addLayer inside
  rw [same] at added
  exact added

theorem constant (realizes : before.Realizes blueprint) {signal : Number}
    (ran : (perform (.constant position signal)).run before =
      (.ok answer, after)) :
    ∃ next, blueprint.perform? (.constant position signal) = some next ∧
      after.Realizes next := by
  obtain ⟨neurons, here, -, rest⟩ := realizes.layer ran
  obtain ⟨grown, programmer, worked, replaced⟩ := run_program_bind rest
  obtain ⟨number, later, created, returned⟩ :=
    Procedure.run_bind_eq_ok.mp worked
  cases returned
  obtain ⟨numbered, value, nearest, built⟩ :=
    realizes.programmer.constant created
  obtain ⟨next, extended, reached⟩ :=
    realizes.create here rfl numbered built replaced
  refine ⟨next, ?_, reached⟩
  rw [Blueprint.perform?, nearest]
  exact extended

theorem random (realizes : before.Realizes blueprint)
    (ran : (perform (.random position)).run before = (.ok answer, after)) :
    ∃ next, blueprint.perform? (.random position) = some next ∧
      after.Realizes next := by
  obtain ⟨neurons, here, -, rest⟩ := realizes.layer ran
  obtain ⟨grown, programmer, worked, replaced⟩ := run_program_bind rest
  obtain ⟨number, later, created, returned⟩ :=
    Procedure.run_bind_eq_ok.mp worked
  cases returned
  obtain ⟨numbered, built⟩ := realizes.programmer.random created
  exact realizes.create here rfl numbered built replaced

/-- The children of a layer are added and make the next layer. -/
theorem weighted (realizes : before.Realizes blueprint) {weights : List Number}
    (ran : (perform (.weighted position weights)).run before =
      (.ok answer, after)) :
    ∃ next, blueprint.perform? (.weighted position weights) = some next ∧
      after.Realizes next := by
  obtain ⟨parents, here, inside, rest⟩ := realizes.layer ran
  obtain ⟨numbers, programmer, worked, added⟩ := run_program_bind rest
  rw [Programmer.weighted, List.length_map] at worked
  split at worked
  case isFalse => cases worked
  case isTrue enough =>
    obtain ⟨rfl, values, nearest, sized, built⟩ :=
      realizes.programmer.children inside enough worked
    cases added
    have earlier : ∀ origin ∈ List.zipWith Origin.child parents values,
        ∀ parent ∈ origin.parents, parent < blueprint.fresh := by
      intro origin member parent needed
      rw [← List.map_uncurry_zip_eq_zipWith] at member
      obtain ⟨⟨first, weight⟩, paired, rfl⟩ := List.mem_map.mp member
      rw [List.mem_singleton.mp needed]
      exact inside first (List.of_mem_zip paired).1
    have born : ∀ neuron ∈ List.range' blueprint.fresh parents.length,
        neuron <
          (blueprint.append (List.zipWith .child parents values)).fresh := by
      intro neuron member
      rw [Blueprint.fresh_append, List.length_zipWith, sized, Nat.min_self]
      exact (List.mem_range'_1.mp member).2
    refine ⟨_, ?_, (realizes.append built earlier).addLayer born⟩
    rw [Blueprint.perform?, here, nearest]
    exact if_pos sized

/-- The sum of a layer is added, and its handle is the next among the sums. -/
theorem sum (realizes : before.Realizes blueprint)
    (ran : (perform (.sum position)).run before = (.ok answer, after)) :
    ∃ next, blueprint.perform? (.sum position) = some next ∧
      after.Realizes next := by
  obtain ⟨neurons, here, inside, rest⟩ := realizes.layer ran
  obtain ⟨number, programmer, worked, added⟩ := run_program_bind rest
  cases added
  obtain ⟨rfl, built⟩ := realizes.programmer.sum inside worked
  have born : blueprint.fresh < (blueprint.append [.total neurons]).fresh := by
    rw [Blueprint.fresh_append]
    exact Nat.lt_succ_self _
  have earlier : ∀ origin ∈ [Origin.total neurons], ∀ parent ∈ origin.parents,
      parent < blueprint.fresh := List.forall_mem_singleton.mpr inside
  refine ⟨_, ?_, (realizes.append built earlier).addSum born⟩
  rw [Blueprint.perform?, here]
  rfl

theorem assign (realizes : before.Realizes blueprint) {output : Output}
    (ran : (perform (.assign output position)).run before =
      (.ok answer, after)) :
    ∃ next, blueprint.perform? (.assign output position) = some next ∧
      after.Realizes next := by
  obtain ⟨neuron, here, inside, rest⟩ := realizes.sumNeuron ran
  obtain ⟨_, programmer, worked, returned⟩ := run_program_bind rest
  cases returned
  have built := realizes.programmer.assign inside worked
  rw [← Blueprint.output_designate] at built
  refine ⟨blueprint.designate neuron output, ?_, realizes.designate built⟩
  rw [Blueprint.perform?, here]
  rfl

/-- What an operation does to a session is what it means for its blueprint. -/
theorem perform {operation : Operation} (realizes : before.Realizes blueprint)
    (allowed : before.Allows operation)
    (ran : (Session.perform operation).run before = (.ok answer, after)) :
    ∃ next, blueprint.perform? operation = some next ∧ after.Realizes next := by
  cases operation with
  | emptyLayer =>
      cases ran
      have none_inside : ∀ neuron ∈ ([] : List Nat), neuron < blueprint.fresh :=
        fun _ member => absurd member List.not_mem_nil
      exact ⟨_, rfl, realizes.addLayer none_inside⟩
  | newLayer neurons => exact realizes.newLayer allowed ran
  | x position =>
      obtain ⟨neurons, here, -, rest⟩ := realizes.layer ran
      exact realizes.extend here
        (Nat.lt_of_lt_of_le (by decide) realizes.sound.reserved) rest
  | y position =>
      obtain ⟨neurons, here, -, rest⟩ := realizes.layer ran
      exact realizes.extend here
        (Nat.lt_of_lt_of_le (by decide) realizes.sound.reserved) rest
  | constant position signal => exact realizes.constant ran
  | random position => exact realizes.random ran
  | weighted position weights => exact realizes.weighted ran
  | sum position => exact realizes.sum ran
  | assign output position => exact realizes.assign ran
  | count position =>
      obtain ⟨neurons, here, -, returned⟩ := realizes.layer ran
      cases returned
      refine ⟨blueprint, ?_, realizes⟩
      rw [Blueprint.perform?, here]
      rfl
  | program =>
      cases ran
      exact ⟨blueprint, rfl, realizes⟩
  | allocate => exact allowed.elim

/-- Operations that succeed in order do what they mean in order. -/
theorem performAll {operations : List Operation} {answers : List Answer}
    (realizes : before.Realizes blueprint) (admitted : before.Admits operations)
    (ran : (operations.mapM Session.perform).run before =
      (.ok answers, after)) :
    ∃ last, blueprint.performAll? operations = some last ∧
      after.Realizes last := by
  induction operations generalizing before blueprint answers with
  | nil =>
      cases ran
      exact ⟨blueprint, rfl, realizes⟩
  | cons operation rest ih =>
      obtain ⟨answer, answers, middle, first, later, -⟩ :=
        Procedure.run_mapM_cons_eq_ok.mp ran
      obtain ⟨allowed, admitted⟩ := admitted
      rw [first] at admitted
      obtain ⟨next, performed, reached⟩ := realizes.perform allowed first
      obtain ⟨last, performedAll, finished⟩ := ih reached admitted later
      refine ⟨last, ?_, finished⟩
      rw [Blueprint.performAll?, performed]
      exact performedAll

end Realizes

end Session

end NeuralGenome
