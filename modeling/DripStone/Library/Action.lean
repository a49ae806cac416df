import Mathlib

/-!
# Actions

An action moves a state and returns a value or fails; what it did before it
failed stays done.  Its effect is followed in two ways: what any run of it
leaves alone, and what it returns from a given state.
-/

namespace DripStone.Library

abbrev Action (Failure State : Type) := EStateM Failure State

namespace Action

variable {Failure State α β : Type}

/-- The state that an action leaves, whether it returns or fails. -/
def after (action : Action Failure State α) (state : State) : State :=
  match action state with
  | .ok _ left => left
  | .error _ left => left

def ofExcept : Except Failure α → Action Failure State α
  | .ok value => pure value
  | .error failure => throw failure

@[simp]
theorem ofExcept_ok_bind (value : α) (next : α → Action Failure State β) :
    ofExcept (.ok value) >>= next = next value := rfl

@[simp]
theorem ofExcept_error_bind (failure : Failure)
    (next : α → Action Failure State β) :
    ofExcept (.error failure) >>= next = throw failure := rfl

section Running

variable {action : Action Failure State α}
  {next : α → Action Failure State β} {state left : State}

theorem after_of_ok {value : α} (returned : action state = .ok value left) :
    action.after state = left := by
  rw [after, returned]

theorem after_of_error {failure : Failure}
    (failed : action state = .error failure left) :
    action.after state = left := by
  rw [after, failed]

theorem bind_of_ok {value : α} (returned : action state = .ok value left) :
    (action >>= next) state = next value left := by
  show EStateM.bind action next state = next value left
  rw [EStateM.bind, returned]

theorem get_bind (next : State → Action Failure State β) (state : State) :
    ((get : Action Failure State State) >>= next) state = next state state :=
  rfl

theorem bind_of_error {failure : Failure}
    (failed : action state = .error failure left) :
    (action >>= next) state = .error failure left := by
  show EStateM.bind action next state = .error failure left
  rw [EStateM.bind, failed]

theorem after_bind_of_ok {value : α}
    (returned : action state = .ok value left) :
    (action >>= next).after state = (next value).after left := by
  rw [after, bind_of_ok returned, after]

theorem after_bind_of_error {failure : Failure}
    (failed : action state = .error failure left) :
    (action >>= next).after state = left :=
  after_of_error (bind_of_error failed)

end Running

/-! ## What a run leaves alone -/

/-- Every run of an action relates the state before to the one after. -/
def Within (relation : State → State → Prop)
    (action : Action Failure State α) : Prop :=
  ∀ state, relation state (action.after state)

section Within

variable {relation : State → State → Prop}

theorem within_pure (reflexive : ∀ state, relation state state) (value : α) :
    Within relation (pure value : Action Failure State α) :=
  reflexive

theorem within_throw (reflexive : ∀ state, relation state state)
    (failure : Failure) :
    Within relation (throw failure : Action Failure State α) :=
  reflexive

theorem within_ofExcept (reflexive : ∀ state, relation state state)
    (outcome : Except Failure α) :
    Within relation (ofExcept outcome : Action Failure State α) := by
  cases outcome with
  | ok value => exact within_pure reflexive value
  | error failure => exact within_throw reflexive failure

theorem within_get (reflexive : ∀ state, relation state state) :
    Within relation (get : Action Failure State State) :=
  reflexive

theorem within_modify {change : State → State}
    (related : ∀ state, relation state (change state)) :
    Within relation (modify change : Action Failure State PUnit) :=
  related

theorem within_bind
    (transitive : ∀ first second third, relation first second →
      relation second third → relation first third)
    {action : Action Failure State α}
    {next : α → Action Failure State β}
    (first : Within relation action)
    (second : ∀ value, Within relation (next value)) :
    Within relation (action >>= next) := by
  intro state
  have atFirst := first state
  cases result : action state with
  | ok value left =>
      rw [after_of_ok result] at atFirst
      rw [after_bind_of_ok result]
      exact transitive state left _ atFirst (second value left)
  | error failure left =>
      rw [after_of_error result] at atFirst
      rw [after_bind_of_error result]
      exact atFirst

theorem within_forM (reflexive : ∀ state, relation state state)
    (transitive : ∀ first second third, relation first second →
      relation second third → relation first third)
    {items : List α} {body : α → Action Failure State PUnit}
    (each : ∀ item ∈ items, Within relation (body item)) :
    Within relation (forM items body) := by
  induction items with
  | nil => exact within_pure reflexive PUnit.unit
  | cons item rest inductionHypothesis =>
      rw [List.forM_cons]
      apply within_bind transitive
      · exact each item List.mem_cons_self
      · intro _
        exact inductionHypothesis fun other inRest =>
          each other (List.mem_cons_of_mem item inRest)

end Within

/-! ## What a run that returns has done -/

theorem bind_eq_ok_iff {action : Action Failure State α}
    {next : α → Action Failure State β} {state left : State} {value : β} :
    (action >>= next) state = .ok value left ↔
      ∃ result middle, action state = .ok result middle ∧
        next result middle = .ok value left := by
  cases atFirst : action state with
  | ok result middle =>
      rw [bind_of_ok atFirst]
      simp
  | error failure middle =>
      rw [bind_of_error atFirst]
      simp

/-- Every run of an action that returns relates the state before to the one
after. -/
def Returns (relation : State → State → Prop)
    (action : Action Failure State α) : Prop :=
  ∀ state value left, action state = .ok value left → relation state left

section Returns

variable {first second whole : State → State → Prop}

theorem returns_pure (reflexive : ∀ state, whole state state) (value : α) :
    Returns whole (pure value : Action Failure State α) := by
  intro state result left returned
  cases returned
  exact reflexive state

theorem returns_throw (failure : Failure) :
    Returns whole (throw failure : Action Failure State α) := by
  intro state result left returned
  cases returned

theorem returns_bind
    (compose : ∀ before middle after, first before middle →
      second middle after → whole before after)
    {action : Action Failure State α} {next : α → Action Failure State β}
    (atFirst : Returns first action)
    (atNext : ∀ value, Returns second (next value)) :
    Returns whole (action >>= next) := by
  intro state value left returned
  obtain ⟨result, middle, atAction, atRest⟩ := bind_eq_ok_iff.mp returned
  exact compose state middle left (atFirst state result middle atAction)
    (atNext result middle value left atRest)

end Returns

/-! ## Actions that return -/

/-- From every state that meets a condition the action returns, in such a
state. -/
def Stays (condition : State → Prop) (action : Action Failure State α) :
    Prop :=
  ∀ state, condition state →
    ∃ value left, action state = .ok value left ∧ condition left

section Stays

variable {condition : State → Prop}

theorem stays_pure (value : α) :
    Stays condition (pure value : Action Failure State α) :=
  fun state holds => ⟨value, state, rfl, holds⟩

theorem stays_bind {action : Action Failure State α}
    {next : α → Action Failure State β} (first : Stays condition action)
    (second : ∀ value, Stays condition (next value)) :
    Stays condition (action >>= next) := by
  intro state holds
  obtain ⟨result, middle, atFirst, holdsMiddle⟩ := first state holds
  obtain ⟨value, left, atNext, holdsLeft⟩ := second result middle holdsMiddle
  exact ⟨value, left, bind_eq_ok_iff.mpr ⟨result, middle, atFirst, atNext⟩,
    holdsLeft⟩

theorem stays_forM {items : List α} {body : α → Action Failure State PUnit}
    (each : ∀ item ∈ items, Stays condition (body item)) :
    Stays condition (forM items body) := by
  induction items with
  | nil => exact stays_pure PUnit.unit
  | cons item rest inductionHypothesis =>
      rw [List.forM_cons]
      apply stays_bind (each item List.mem_cons_self)
      intro _
      exact inductionHypothesis fun other inRest =>
        each other (List.mem_cons_of_mem item inRest)

end Stays

/-! ## Actions that fail -/

def Fails (action : Action Failure State α) (state : State) : Prop :=
  ∃ failure left, action state = .error failure left

section Fails

variable {action : Action Failure State α} {state left : State}

theorem Fails.bind (fails : Fails action state)
    (next : α → Action Failure State β) : Fails (action >>= next) state := by
  obtain ⟨failure, left, failed⟩ := fails
  exact ⟨failure, left, bind_of_error failed⟩

theorem Fails.ne_ok {value : α} (fails : Fails action state) :
    action state ≠ .ok value left := by
  obtain ⟨failure, other, failed⟩ := fails
  rw [failed]
  intro same
  cases same

theorem ok_or_fails (action : Action Failure State α) (state : State) :
    (∃ value left, action state = .ok value left) ∨ Fails action state := by
  cases result : action state with
  | ok value left => exact Or.inl ⟨value, left, rfl⟩
  | error failure left => exact Or.inr ⟨failure, left, result⟩

/-- A loop with an item whose body fails in every state. -/
theorem fails_forM {items : List α} {body : α → Action Failure State PUnit}
    {item : α} (inItems : item ∈ items)
    (fails : ∀ state, Fails (body item) state)
    (state : State) : Fails (forM items body) state := by
  induction items generalizing state with
  | nil => exact absurd inItems List.not_mem_nil
  | cons first rest inductionHypothesis =>
      rw [List.forM_cons]
      rcases List.mem_cons.mp inItems with rfl | inRest
      · exact (fails state).bind _
      · rcases ok_or_fails (body first) state with
          ⟨value, left, returned⟩ | failed
        · obtain ⟨failure, last, failedLater⟩ :=
            inductionHypothesis inRest left
          exact ⟨failure, last, (bind_of_ok returned).trans failedLater⟩
        · exact failed.bind _

end Fails

/-- From every state, the action fails in one way. -/
def Throws (failure : Failure) (action : Action Failure State α) : Prop :=
  ∀ state, ∃ left, action state = .error failure left

/-- A loop that returns from or throws at each item, and throws at one. -/
theorem throws_forM {items : List β} {body : β → Action Failure State PUnit}
    {failure : Failure} {item : β} (inItems : item ∈ items)
    (throws : Throws failure (body item))
    (others : ∀ other ∈ items, Throws failure (body other) ∨
      ∀ state, ∃ left, body other state = .ok PUnit.unit left) :
    Throws failure (forM items body) := by
  induction items with
  | nil => exact absurd inItems List.not_mem_nil
  | cons first rest inductionHypothesis =>
      intro state
      rw [List.forM_cons]
      rcases others first List.mem_cons_self with throwsFirst | returns
      · obtain ⟨left, threw⟩ := throwsFirst state
        exact ⟨left, bind_of_error threw⟩
      · obtain ⟨middle, returned⟩ := returns state
        have later : item ∈ rest := by
          rcases List.mem_cons.mp inItems with rfl | inRest
          · obtain ⟨left, threw⟩ := throws state
            rw [threw] at returned
            cases returned
          · exact inRest
        obtain ⟨left, threw⟩ := inductionHypothesis later
          (fun other inRest => others other (List.mem_cons_of_mem first inRest))
          middle
        exact ⟨left, (bind_of_ok returned).trans threw⟩

/-! ## Actions that append -/

/-- From every list, the action returns with some items behind it. -/
def Appends (action : Action Failure (List α) PUnit) (items : List α) :
    Prop :=
  ∀ list, action list = .ok PUnit.unit (list ++ items)

theorem appends_pure :
    Appends (pure PUnit.unit : Action Failure (List α) PUnit) [] := by
  intro list
  rw [List.append_nil]
  rfl

theorem appends_forM {indices : List β}
    {body : β → Action Failure (List α) PUnit} {items : β → List α}
    (each : ∀ index ∈ indices, Appends (body index) (items index)) :
    Appends (forM indices body) (indices.flatMap items) := by
  induction indices with
  | nil => exact appends_pure
  | cons index rest inductionHypothesis =>
      intro list
      have atFirst := each index List.mem_cons_self list
      have atRest := inductionHypothesis fun other inRest =>
        each other (List.mem_cons_of_mem index inRest)
      rw [List.forM_cons, bind_of_ok atFirst, atRest, List.flatMap_cons,
        List.append_assoc]

end Action

end DripStone.Library
