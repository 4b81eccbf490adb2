import NeuralGenome.Fault

/-!
# Procedures

A procedure works on a state and ends with a value or a fault.  Either way the
state it has reached stays: a failing step undoes nothing that was done before
it.
-/

namespace NeuralGenome

/--
A computation on a state that may fail and keeps the state it has reached.
-/
def Procedure (State Value : Type) : Type :=
  State → Except Fault Value × State

/-- A sequence of values succeeds when both parts do. -/
theorem bind_eq_ok {Value Result : Type} {outcome : Except Fault Value}
    {next : Value → Except Fault Result} {result : Result} :
    outcome >>= next = .ok result ↔ ∃ value, outcome = .ok value ∧
      next value = .ok result := by
  cases outcome with
  | ok value =>
      exact ⟨fun done => ⟨value, rfl, done⟩, fun ⟨_, rfl, done⟩ => done⟩
  | error fault => exact ⟨nofun, nofun⟩

/-- A sequence of values fails when its first part does, or else its second. -/
theorem bind_eq_error {Value Result : Type} {outcome : Except Fault Value}
    {next : Value → Except Fault Result} {fault : Fault} :
    outcome >>= next = .error fault ↔
      outcome = .error fault ∨ ∃ value, outcome = .ok value ∧
        next value = .error fault := by
  cases outcome with
  | ok value =>
      constructor
      · exact fun failed => .inr ⟨value, rfl, failed⟩
      · rintro (refused | ⟨_, succeeded, failed⟩)
        · cases refused
        · cases succeeded
          exact failed
  | error first =>
      constructor
      · intro failed
        cases failed
        exact .inl rfl
      · rintro (refused | ⟨_, succeeded, _⟩)
        · cases refused
          rfl
        · cases succeeded

/-- There is one result for each item. -/
theorem length_of_mapM_eq_ok {Element Value : Type}
    {convert : Element → Except Fault Value}
    {elements : List Element} {values : List Value}
    (done : elements.mapM convert = .ok values) :
    values.length = elements.length := by
  induction elements generalizing values with
  | nil =>
      cases done
      rfl
  | cons element rest ih =>
      rw [List.mapM_cons] at done
      obtain ⟨first, -, remaining⟩ := bind_eq_ok.mp done
      obtain ⟨others, later, returned⟩ := bind_eq_ok.mp remaining
      cases returned
      rw [List.length_cons, ih later, List.length_cons]

namespace Procedure

variable {State Part Item Value Result : Type}

/-- Run a procedure from a state. -/
def run (procedure : Procedure State Value) (state : State) :
    Except Fault Value × State :=
  procedure state

instance : Monad (Procedure State) where
  pure value := fun state => (.ok value, state)
  bind procedure next := fun state =>
    match procedure state with
    | (.ok value, state) => next value state
    | (.error fault, state) => (.error fault, state)

instance : MonadStateOf State (Procedure State) where
  get := fun state => (.ok state, state)
  set state := fun _ => (.ok (), state)
  modifyGet change := fun state => ((change state).map .ok id)

instance : MonadExceptOf Fault (Procedure State) where
  throw fault := fun state => (.error fault, state)
  tryCatch procedure recover := fun state =>
    match procedure state with
    | (.error fault, state) => recover fault state
    | done => done

/-- A value that may be a fault, as a procedure that leaves the state alone. -/
def ofExcept (outcome : Except Fault Value) : Procedure State Value :=
  fun state => (outcome, state)

/-- Run a procedure and hand its fault on as a value. -/
def attempt (procedure : Procedure State Value) :
    Procedure State (Except Fault Value) :=
  fun state => ((procedure.run state).map .ok id)

/-- A function that moves a state on and never fails, as a procedure. -/
def ofStep (step : State → Value × State) : Procedure State Value :=
  fun state => (step state).map .ok id

/-- Run a procedure on a part of a larger state. -/
def within (part : State → Part) (update : Part → State → State)
    (procedure : Procedure Part Value) : Procedure State Value :=
  fun state => (procedure.run (part state)).map id (update · state)

/--
Repeat a step a number of times; the trail starts with the first place itself.
-/
def trail (step : Value → Procedure State Value) (place : Value) :
    Nat → Procedure State (List Value)
  | 0 => return [place]
  | steps + 1 => do
      let next ← step place
      return place :: (← trail step next steps)

instance : LawfulMonad (Procedure State) :=
  LawfulMonad.mk' _
    (fun procedure => by
      funext state
      show (match procedure state with
        | (.ok value, state) => (.ok value, state)
        | (.error fault, state) => (.error fault, state)) = procedure state
      rcases procedure state with ⟨_ | _, _⟩ <;> rfl)
    (fun _ _ => rfl)
    (fun procedure _ _ => by
      funext state
      simp only [bind]
      rcases procedure state with ⟨_ | _, _⟩ <;> rfl)

/-! ## What each construct does to a state -/

@[simp]
theorem run_pure (value : Value) (state : State) :
    (pure value : Procedure State Value).run state = (.ok value, state) := rfl

@[simp]
theorem run_throw (fault : Fault) (state : State) :
    (throw fault : Procedure State Value).run state =
      (.error fault, state) := rfl

@[simp]
theorem run_get (state : State) :
    (get : Procedure State State).run state = (.ok state, state) := rfl

@[simp]
theorem run_set (after before : State) :
    (set after : Procedure State Unit).run before = (.ok (), after) := rfl

@[simp]
theorem run_modify (change : State → State) (state : State) :
    (modify change : Procedure State Unit).run state =
      (.ok (), change state) := rfl

@[simp]
theorem run_ofExcept (outcome : Except Fault Value) (state : State) :
    (ofExcept outcome : Procedure State Value).run state =
      (outcome, state) := rfl

/-- A procedure that is attempted leaves the state that it has reached. -/
@[simp]
theorem run_attempt (procedure : Procedure State Value) (state : State) :
    procedure.attempt.run state =
      (.ok (procedure.run state).1, (procedure.run state).2) := rfl

/--
A sequence stops at the fault of its first part and otherwise goes on from its
state.
-/
theorem run_bind (procedure : Procedure State Value)
    (next : Value → Procedure State Result) (state : State) :
    (procedure >>= next).run state =
      match procedure.run state with
      | (.ok value, state) => (next value).run state
      | (.error fault, state) => (.error fault, state) := rfl

/--
A sequence whose first part succeeds is its second part, run from the state
reached.
-/
theorem run_bind_of_ok {procedure : Procedure State Value}
    {next : Value → Procedure State Result}
    {before after : State} {value : Value}
    (done : procedure.run before = (.ok value, after)) :
    (procedure >>= next).run before = (next value).run after := by
  rw [run_bind, done]

/--
A sequence succeeds when both parts do, the second from the state that the first
reaches.
-/
theorem run_bind_eq_ok {procedure : Procedure State Value}
    {next : Value → Procedure State Result}
    {before after : State} {result : Result} :
    (procedure >>= next).run before = (.ok result, after) ↔
      ∃ value middle, procedure.run before = (.ok value, middle) ∧
        (next value).run middle = (.ok result, after) := by
  rw [run_bind]
  constructor
  · intro done
    split at done
    case h_1 value middle first => exact ⟨value, middle, first, done⟩
    case h_2 => cases done
  · rintro ⟨value, middle, first, second⟩
    rw [first]
    exact second

/--
Steps for all items of a list succeed when each does, from the state before it.
-/
theorem run_forM_cons_eq_ok {step : Item → Procedure State Unit} {item : Item}
    {rest : List Item} {before after : State} {done : Unit} :
    ((item :: rest).forM step).run before = (.ok done, after) ↔
      ∃ middle, (step item).run before = (.ok (), middle) ∧
        (rest.forM step).run middle = (.ok (), after) :=
  run_bind_eq_ok.trans
    ⟨fun ⟨_, middle, first, later⟩ => ⟨middle, first, later⟩,
      fun ⟨middle, first, later⟩ => ⟨(), middle, first, later⟩⟩

/--
The results of a step for all items are those of each, one after the other.
-/
theorem run_mapM_cons_eq_ok {step : Item → Procedure State Value} {item : Item}
    {rest : List Item} {before after : State} {results : List Value} :
    ((item :: rest).mapM step).run before = (.ok results, after) ↔
      ∃ value values middle, (step item).run before = (.ok value, middle) ∧
        (rest.mapM step).run middle = (.ok values, after) ∧
          results = value :: values := by
  rw [List.mapM_cons, run_bind_eq_ok]
  constructor
  · rintro ⟨value, middle, first, others⟩
    obtain ⟨values, last, later, returned⟩ := run_bind_eq_ok.mp others
    cases returned
    exact ⟨value, values, middle, first, later, rfl⟩
  · rintro ⟨value, values, middle, first, later, rfl⟩
    exact ⟨value, middle, first, run_bind_eq_ok.mpr ⟨values, after, later, rfl⟩⟩

/-- A value is found when it is no fault, and the state stays. -/
theorem run_ofExcept_eq_ok {outcome : Except Fault Value} {before after : State}
    {value : Value} :
    (ofExcept outcome).run before = (.ok value, after) ↔ outcome = .ok value ∧
      after = before := by
  rw [run_ofExcept, Prod.mk.injEq, eq_comm (a := before)]

/-- A procedure on a part succeeds when it does alone. -/
theorem run_within_eq_ok {part : State → Part} {update : Part → State → State}
    {procedure : Procedure Part Value} {before after : State} {value : Value} :
    (procedure.within part update).run before = (.ok value, after) ↔
      ∃ later, procedure.run (part before) = (.ok value, later) ∧
        after = update later before := by
  show (procedure.run (part before)).map id (update · before) = _ ↔ _
  rcases procedure.run (part before) with ⟨outcome, later⟩
  rw [Prod.map, id, Prod.mk.injEq]
  constructor
  · rintro ⟨done, reached⟩
    exact ⟨later, by rw [done], reached.symm⟩
  · rintro ⟨_, done, reached⟩
    cases done
    exact ⟨rfl, reached.symm⟩

/-- A sequence whose first part fails fails with it. -/
theorem run_bind_of_error {procedure : Procedure State Value}
    {next : Value → Procedure State Result} {before after : State}
    {fault : Fault} (failed : procedure.run before = (.error fault, after)) :
    (procedure >>= next).run before = (.error fault, after) := by
  rw [run_bind, failed]

end Procedure

end NeuralGenome
