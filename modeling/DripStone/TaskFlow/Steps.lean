import DripStone.TaskFlow.Model

/-!
# What the methods of a flow do

Field lemmas for the state updates, one equation for every method that
succeeds, and the inversion lemma `step_moves`: every action of the machine is
one of eight moves.  Later modules argue about moves and never unfold a
method.
-/

namespace DripStone.TaskFlow

open DripStone.Library

namespace State

variable {state : State}

/-! ## Field lemmas -/

/-- The node objects the array holds. -/
def stored (state : State) : List NodeRef :=
  match state.flowNodes with
  | some flowNodes => flowNodes.values
  | none => []

theorem stored_eq {flowNodes : SparseArray NodeRef}
    (present : state.flowNodes = some flowNodes) :
    state.stored = flowNodes.values := by
  simp [stored, present]

theorem mem_stored_of_getElem? {flowNodes : SparseArray NodeRef} {i : Nat}
    {entry : Int × NodeRef}
    (present : state.flowNodes = some flowNodes)
    (atIndex : flowNodes.entries[i]? = some entry) :
    entry.2 ∈ state.stored := by
  rw [stored_eq present, SortedAssoc.values]
  exact List.mem_map_of_mem (List.mem_of_getElem? atIndex)

private theorem foldl_removeCallBack (nodes : List NodeRef) :
    nodes.foldl removeCallBack state =
      { state with
        nodes := fun node =>
          if node ∈ nodes then { state.nodes node with callBack := none }
          else state.nodes node } := by
  induction nodes generalizing state with
  | nil => simp
  | cons head rest inductionHypothesis =>
      rw [List.foldl_cons, inductionHypothesis]
      unfold removeCallBack setNodeCallBack
      congr 1
      funext node
      by_cases same : node = head
      · subst same
        by_cases later : node ∈ rest <;> simp [later]
      · simp [same]

theorem reset_eq :
    state.reset =
      { state with
        nodes := fun node =>
          if node ∈ state.stored then
            { state.nodes node with callBack := none }
          else state.nodes node } := by
  have unfolded : state.reset = state.stored.foldl removeCallBack state := by
    unfold reset stored
    cases state.flowNodes <;> rfl
  rw [unfolded, foldl_removeCallBack]

@[simp] theorem reset_flowNodes :
    state.reset.flowNodes = state.flowNodes := by simp [reset_eq]

@[simp] theorem reset_callBack :
    state.reset.callBack = state.callBack := by simp [reset_eq]

@[simp] theorem reset_running :
    state.reset.running = state.running := by simp [reset_eq]

@[simp] theorem reset_isDisposed :
    state.reset.isDisposed = state.isDisposed := by simp [reset_eq]

theorem reset_armed (node : NodeRef) :
    state.reset.armed node =
      if node ∈ state.stored then none else state.armed node := by
  rw [reset_eq]
  unfold armed
  by_cases member : node ∈ state.stored <;> simp [member]

@[simp] theorem reset_getId (node : NodeRef) :
    state.reset.getId node = state.getId node := by
  rw [reset_eq]
  unfold getId
  by_cases member : node ∈ state.stored <;> simp [member]

section DoWork

variable {node : NodeRef} {callBack : Nat}

@[simp] theorem doWork_snd :
    (doWork state node callBack).2 = [.doWork node] := rfl

@[simp] theorem doWork_flowNodes :
    (doWork state node callBack).1.flowNodes = state.flowNodes := rfl

@[simp] theorem doWork_recentNode :
    (doWork state node callBack).1.recentNode = state.recentNode := rfl

@[simp] theorem doWork_isDisposed :
    (doWork state node callBack).1.isDisposed = state.isDisposed := rfl

@[simp] theorem doWork_callBack :
    (doWork state node callBack).1.callBack = state.callBack := rfl

@[simp] theorem doWork_running :
    (doWork state node callBack).1.running = node :: state.running := rfl

theorem doWork_armed (other : NodeRef) :
    (doWork state node callBack).1.armed other =
      if other = node then some callBack else state.armed other := by
  unfold doWork setNodeCallBack armed
  by_cases same : other = node <;> simp [Function.update, same]

@[simp] theorem doWork_getId (other : NodeRef) :
    (doWork state node callBack).1.getId other = state.getId other := by
  unfold doWork setNodeCallBack getId
  by_cases same : other = node <;> simp [Function.update, same]

end DoWork

/-! ## Methods that succeed -/

section Methods

variable {flowNodes : SparseArray NodeRef} {i : Nat}
  {entry : Int × NodeRef}

theorem startWithNode_eq
    (alive : state.isDisposed = false)
    (present : state.flowNodes = some flowNodes)
    (atIndex : flowNodes.entries[i]? = some entry) :
    state.startWithNode entry.1 =
      .ok (doWork { state.reset with recentNode := some entry.2 }
        entry.2 i) := by
  have found : flowNodes.indexOfKey? entry.1 = some i :=
    SortedAssoc.indexOfKey?_eq_some.mpr ⟨entry.2, atIndex⟩
  have value : flowNodes.valueAt? i = some entry.2 := by
    rw [SortedAssoc.valueAt?, atIndex, Option.map_some]
  simp [startWithNode, alive, present, found, value]

theorem findAndExecute_eq_of_next
    (present : state.flowNodes = some flowNodes)
    (atNext : flowNodes.entries[i + 1]? = some entry) :
    state.findAndExecuteNextNodeIfExist i =
      .ok (doWork { state with recentNode := some entry.2 }
        entry.2 (i + 1)) := by
  have value : flowNodes.valueAt? (i + 1) = some entry.2 := by
    rw [SortedAssoc.valueAt?, atNext, Option.map_some]
  simp [findAndExecuteNextNodeIfExist, present, value]

theorem findAndExecute_eq_of_last
    (present : state.flowNodes = some flowNodes)
    (noNext : flowNodes.entries[i + 1]? = none) :
    state.findAndExecuteNextNodeIfExist i =
      .ok (state, if state.callBack then [.onFlowFinish] else []) := by
  have value : flowNodes.valueAt? (i + 1) = none := by
    rw [SortedAssoc.valueAt?, noNext, Option.map_none]
  simp [findAndExecuteNextNodeIfExist, present, value]

theorem findAndExecute_eq_of_cleared
    (cleared : state.flowNodes = none) :
    state.findAndExecuteNextNodeIfExist i =
      .error .nullPointerException := by
  simp [findAndExecuteNextNodeIfExist, cleared]

end Methods

end State

/-! ## Steps on one action -/

section Actions

variable {state : State} {node : NodeRef}

theorem step_onCompleted_of_unarmed (unarmed : state.armed node = none) :
    step state (.onCompleted node) = (state, []) := by
  simp [step, perform, settle, State.onCompleted, unarmed]

theorem step_onCompleted_of_armed {i : Nat}
    (isArmed : state.armed node = some i) :
    step state (.onCompleted node) =
      settle state (state.findAndExecuteNextNodeIfExist i) := by
  simp [step, perform, State.onCompleted, isArmed]

theorem step_continueWork (alive : state.isDisposed = false)
    (recent : state.recentNode = some node) :
    step state .continueWork = step state (.onCompleted node) := by
  simp [step, perform, State.continueWork, alive, recent]

theorem step_addNode {flowNodes : SparseArray NodeRef}
    (alive : state.isDisposed = false)
    (present : state.flowNodes = some flowNodes) :
    step state (.addNode node) =
      ({ state with
          flowNodes := some (flowNodes.put (state.getId node) node) },
        []) := by
  simp [step, perform, settle, State.addNode, alive, present,
    SparseArray.append]

theorem step_startWithNode {flowNodes : SparseArray NodeRef} {i : Nat}
    {entry : Int × NodeRef}
    (alive : state.isDisposed = false)
    (present : state.flowNodes = some flowNodes)
    (atIndex : flowNodes.entries[i]? = some entry) :
    step state (.startWithNode entry.1) =
      State.doWork { state.reset with recentNode := some entry.2 }
        entry.2 i := by
  simp [step, perform, settle,
    State.startWithNode_eq alive present atIndex]

theorem step_start {flowNodes : SparseArray NodeRef}
    {entry : Int × NodeRef}
    (alive : state.isDisposed = false)
    (present : state.flowNodes = some flowNodes)
    (atZero : flowNodes.entries[0]? = some entry) :
    step state .start = step state (.startWithNode entry.1) := by
  have firstId : flowNodes.keyAt? 0 = some entry.1 := by
    rw [SortedAssoc.keyAt?, atZero, Option.map_some]
  simp only [step, perform, State.start, alive, present, State.keyAt,
    Bool.false_eq_true, if_false, Int.toNat_zero, lt_irrefl, firstId,
    Option.getD_some]
  rfl

/-- A tasker returns or throws: only the call stack moves, and at most
`onNodeChanged` is delivered. -/
theorem step_unwinding (state : State) {action : Action}
    (unwinding : action = .doWorkReturned ∨ action = .doWorkThrew) :
    ∃ outer events,
      step state action = ({ state with running := outer }, events) ∧
        executed events = [] ∧ .onFlowFinish ∉ events := by
  rcases unwinding with rfl | rfl
  · cases running : state.running with
    | nil =>
        refine ⟨[], [], ?_, rfl, by simp⟩
        simp only [step, perform, settle, State.doWorkReturned, running]
        rw [← running]
    | cons node outer =>
        refine ⟨outer,
          if state.callBack then [.onNodeChanged (state.getId node)]
          else [], ?_, ?_, ?_⟩
        · simp [step, perform, settle, State.doWorkReturned, running]
        · by_cases listening : state.callBack <;>
            simp [listening, executed]
        · by_cases listening : state.callBack <;> simp [listening]
  · exact ⟨state.running.tail, [], rfl, rfl, by simp⟩

end Actions

/-! ## Every step is a move -/

/-- The moves an action may cause.  Only `addNode` changes the array of a live
flow. -/
inductive Move (state : State) (action : Action) :
    State → List Event → Prop where
  /-- Nothing changes; at most an exception is seen. -/
  | stays (events : List Event) (quiet : executed events = []) :
      Move state action state events
  | listens (present : Bool) :
      Move state action { state with callBack := present } []
  | grows {flowNodes : SparseArray NodeRef} (node : NodeRef)
      (alive : state.isDisposed = false)
      (present : state.flowNodes = some flowNodes)
      (isAdded : action = .addNode node) :
      Move state action
        { state with
          flowNodes := some (flowNodes.put (state.getId node) node) } []
  | starts {flowNodes : SparseArray NodeRef} {i : Nat}
      {entry : Int × NodeRef}
      (alive : state.isDisposed = false)
      (present : state.flowNodes = some flowNodes)
      (atIndex : flowNodes.entries[i]? = some entry) :
      Move state action
        (State.doWork { state.reset with recentNode := some entry.2 }
          entry.2 i).1 [.doWork entry.2]
  | advances {flowNodes : SparseArray NodeRef} {i : Nat}
      {entry : Int × NodeRef} {completed : NodeRef}
      (isArmed : state.armed completed = some i)
      (present : state.flowNodes = some flowNodes)
      (atNext : flowNodes.entries[i + 1]? = some entry) :
      Move state action
        (State.doWork { state with recentNode := some entry.2 }
          entry.2 (i + 1)).1 [.doWork entry.2]
  | finishes {flowNodes : SparseArray NodeRef} {i : Nat}
      {completed : NodeRef}
      (isArmed : state.armed completed = some i)
      (present : state.flowNodes = some flowNodes)
      (noNext : flowNodes.entries[i + 1]? = none) :
      Move state action state
        (if state.callBack then [.onFlowFinish] else [])
  | disposes : Move state action state.dispose []
  | unwinds (outer : List NodeRef) (events : List Event)
      (quiet : executed events = []) :
      Move state action { state with running := outer } events

section Moves

variable {state : State} {action : Action}

private theorem move_failure (failure : Failure) :
    Move state action state [.thrown failure] := .stays _ rfl

private theorem move_startWithNode (startNodeId : Int) :
    Move state action (settle state (state.startWithNode startNodeId)).1
      (settle state (state.startWithNode startNodeId)).2 := by
  cases disposed : state.isDisposed with
  | true =>
      simp only [State.startWithNode, disposed, if_true, settle]
      exact move_failure _
  | false =>
      cases present : state.flowNodes with
      | none =>
          simp only [State.startWithNode, disposed, present, settle,
            Bool.false_eq_true, if_false]
          exact move_failure _
      | some flowNodes =>
          cases found : flowNodes.indexOfKey? startNodeId with
          | none =>
              simp only [State.startWithNode, disposed, present, found,
                settle, Bool.false_eq_true, if_false]
              exact move_failure _
          | some i =>
              obtain ⟨value, atIndex⟩ :=
                SortedAssoc.indexOfKey?_eq_some.mp found
              rw [State.startWithNode_eq disposed present atIndex]
              exact .starts disposed present atIndex

private theorem move_onCompleted (node : NodeRef) :
    Move state action (settle state (state.onCompleted node)).1
      (settle state (state.onCompleted node)).2 := by
  cases isArmed : state.armed node with
  | none =>
      simp only [State.onCompleted, isArmed, settle]
      exact .stays [] rfl
  | some i =>
      simp only [State.onCompleted, isArmed]
      cases present : state.flowNodes with
      | none =>
          rw [State.findAndExecute_eq_of_cleared present]
          exact move_failure _
      | some flowNodes =>
          cases next : flowNodes.entries[i + 1]? with
          | none =>
              rw [State.findAndExecute_eq_of_last present next]
              exact .finishes isArmed present next
          | some entry =>
              rw [State.findAndExecute_eq_of_next present next]
              exact .advances isArmed present next

private theorem move_start :
    Move state action (settle state state.start).1
      (settle state state.start).2 := by
  cases disposed : state.isDisposed with
  | true =>
      simp only [State.start, disposed, if_true, settle]
      exact move_failure _
  | false =>
      cases present : state.flowNodes with
      | none =>
          simp only [State.start, disposed, present, settle,
            Bool.false_eq_true, if_false]
          exact move_failure _
      | some flowNodes =>
          have unfolded :
              state.start =
                state.startWithNode ((flowNodes.keyAt? 0).getD 0) := by
            simp only [State.start, disposed, present, State.keyAt,
              Bool.false_eq_true, if_false, Int.toNat_zero, lt_irrefl]
            rfl
          rw [unfolded]
          exact move_startWithNode _

private theorem move_revert :
    Move state action (settle state state.revert).1
      (settle state state.revert).2 := by
  cases disposed : state.isDisposed with
  | true =>
      simp only [State.revert, disposed, if_true, settle]
      exact move_failure _
  | false =>
      simp only [State.revert, disposed, Bool.false_eq_true, if_false]
      split
      · next recentNode flowNodes _ present =>
          cases State.keyAt flowNodes
              (SparseArray.indexOfValue flowNodes recentNode - 1) with
          | error failure => exact move_failure failure
          | ok targetId =>
              simp only [bind, Except.bind]
              split_ifs
              · exact move_startWithNode targetId
              · exact .stays [] rfl
      · exact .stays [] rfl

/-- Inversion: whatever the action, the step is one of the moves. -/
theorem step_moves (state : State) (action : Action) :
    Move state action (step state action).1 (step state action).2 := by
  cases action with
  | setCallBack present => exact .listens present
  | addNode node =>
      cases disposed : state.isDisposed with
      | true =>
          simp only [step, perform, State.addNode, disposed, if_true, settle]
          exact move_failure _
      | false =>
          cases present : state.flowNodes with
          | none =>
              simp only [step, perform, State.addNode, disposed, present,
                settle, Bool.false_eq_true, if_false]
              exact move_failure _
          | some flowNodes =>
              rw [step_addNode disposed present]
              exact .grows node disposed present rfl
  | start => exact move_start
  | startWithNode startNodeId => exact move_startWithNode startNodeId
  | continueWork =>
      cases disposed : state.isDisposed with
      | true =>
          simp only [step, perform, State.continueWork, disposed, if_true,
            settle]
          exact move_failure _
      | false =>
          cases recent : state.recentNode with
          | none =>
              simp only [step, perform, State.continueWork, disposed, recent,
                settle, Bool.false_eq_true, if_false]
              exact .stays [] rfl
          | some node =>
              rw [step_continueWork disposed recent]
              exact move_onCompleted node
  | revert => exact move_revert
  | dispose => exact .disposes
  | onCompleted node => exact move_onCompleted node
  | doWorkReturned =>
      obtain ⟨outer, events, same, quiet, _⟩ :=
        step_unwinding state (Or.inl rfl)
      rw [same]
      exact .unwinds outer events quiet
  | doWorkThrew => exact .unwinds _ [] rfl

end Moves

end DripStone.TaskFlow
