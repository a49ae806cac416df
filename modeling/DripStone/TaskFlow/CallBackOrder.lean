import DripStone.TaskFlow.Advance

/-!
# The order of the callbacks of a run

`onNodeChanged` is delivered after `Tasker.doWork` has returned.  A tasker
that completes its node inside `doWork` starts the next node, or finishes the
flow, before its own `onNodeChanged` is out.  In a complete run the callbacks
come in ascending id order with `onFlowFinish` at the end exactly when every
tasker completes after it has returned.

The argument follows one list: the callbacks delivered so far, followed by the
`onNodeChanged`s still owed by the taskers that have not returned.  A return
leaves the list as it is, and a completion inserts one callback between the
two parts.
-/

namespace DripStone.TaskFlow

open DripStone.Library

/-- What the `FlowCallBack` has received. -/
def callBacks (events : List Event) : List Event :=
  events.filter Event.isCallBack

@[simp]
theorem callBacks_append (left right : List Event) :
    callBacks (left ++ right) = callBacks left ++ callBacks right :=
  List.filter_append left right

@[simp]
theorem callBacks_onNodeChanged (nodeId : Int) :
    callBacks [.onNodeChanged nodeId] = [.onNodeChanged nodeId] := rfl

@[simp]
theorem callBacks_onFlowFinish :
    callBacks [.onFlowFinish] = [.onFlowFinish] := rfl

@[simp]
theorem callBacks_doWork (node : NodeRef) :
    callBacks [.doWork node] = [] := rfl

/-- Every node in ascending id order, then the end of the flow. -/
def ascendingOrder (ids : NodeRef → Int) (withNodes : List NodeRef) :
    List Event :=
  ((withNodes.map ids).insertionSort (· ≤ ·)).map .onNodeChanged ++
    [.onFlowFinish]

/-- A tasker returns, or a node whose tasker was invoked completes for the
first time. -/
def TaskerCall (start : State) (before : List Action) : Action → Prop
  | .doWorkReturned => True
  | .onCompleted node =>
      node ∈ executed (flow.trace start (.start :: before)) ∧
        .onCompleted node ∉ before
  | _ => False

instance (start : State) (before : List Action) :
    DecidablePred (TaskerCall start before)
  | .doWorkReturned => isTrue trivial
  | .onCompleted node => inferInstanceAs
      (Decidable (node ∈ executed (flow.trace start (.start :: before)) ∧
        .onCompleted node ∉ before))
  | .setCallBack _ | .addNode _ | .start | .startWithNode _ | .continueWork
  | .revert | .dispose | .doWorkThrew => isFalse id

/-- A run of `start()` in which every tasker that is invoked returns and
completes its node exactly once, inside `doWork` or later. -/
structure CompleteRun (start : State) (actions : List Action) : Prop where
  calls : AtEvery (TaskerCall start) actions
  returned : (flow.run start (.start :: actions)).running = []
  completed :
    ∀ node ∈ executed (flow.trace start (.start :: actions)),
      .onCompleted node ∈ actions

/-- Every completion happens after the tasker of its node has returned. -/
def AllAsynchronous (start : State) (actions : List Action) : Prop :=
  AtEvery (fun before action =>
    ∀ node ∈ (flow.run start (.start :: before)).running,
      action ≠ .onCompleted node) actions

instance (start : State) : DecidablePred (AllAsynchronous start) :=
  fun actions => AtEvery.decidable _ actions

/-! ## The order of the callbacks -/

/-- The order in which the callbacks are meant to come. -/
def Precedes : Event → Event → Prop
  | .onNodeChanged left, .onNodeChanged right => left < right
  | .onNodeChanged _, .onFlowFinish => True
  | _, _ => False

theorem ordered_keys (flowNodes : SparseArray NodeRef) :
    (flowNodes.keys.map Event.onNodeChanged ++
      [Event.onFlowFinish]).Pairwise Precedes := by
  refine List.pairwise_append.mpr
    ⟨?_, List.pairwise_singleton _ _, ?_⟩
  · exact List.pairwise_map.mpr (List.pairwise_map.mpr flowNodes.sorted)
  · intro left inKeys right isFinish
    obtain ⟨key, _, rfl⟩ := List.mem_map.mp inKeys
    rw [List.mem_singleton.mp isFinish]
    trivial

/-! ## Stages of a run -/

/-- The run stands at index `last`, and exactly the nodes below it have
completed, the last one when the flow has finished. -/
structure Stage (flowNodes : SparseArray NodeRef) (last : Nat)
    (state : State) (seen : List Event) (before : List Action) :
    Prop where
  progress : Progress flowNodes 0 last state seen
  completed : ∀ j entry, flowNodes.entries[j]? = some entry →
    (.onCompleted entry.2 ∈ before ↔
      j < last ∨ (j = last ∧ .onFlowFinish ∈ seen))
  listening : state.callBack = true

/-- Callbacks delivered, and behind them the ones still owed. -/
def settled (ids : NodeRef → Int) (state : State) (seen : List Event) :
    List Event :=
  callBacks seen ++
    state.running.map fun node => .onNodeChanged (ids node)

section Stage

variable {ids : NodeRef → Int} {flowNodes : SparseArray NodeRef}
  {last : Nat} {state : State} {seen : List Event} {before : List Action}

theorem Stage.recent_of_call
    (stage : Stage flowNodes last state seen before)
    {node : NodeRef} (invoked : node ∈ executed seen)
    (first : .onCompleted node ∉ before) :
    state.recentNode = some node ∧ .onFlowFinish ∉ seen := by
  rw [stage.progress.ran, List.drop_zero] at invoked
  obtain ⟨j, atIndex⟩ := List.mem_iff_getElem?.mp invoked
  rw [List.getElem?_take] at atIndex
  split_ifs at atIndex with below
  rw [SortedAssoc.values, List.getElem?_map] at atIndex
  obtain ⟨entry, atEntry, rfl⟩ := Option.map_eq_some_iff.mp atIndex
  have pending := (stage.completed j entry atEntry).not.mp first
  simp only [not_or, not_lt, not_and] at pending
  obtain rfl : j = last := by omega
  obtain ⟨recentEntry, atLast, recent⟩ := stage.progress.recent
  obtain rfl := Option.some.inj (atEntry.symm.trans atLast)
  exact ⟨recent, pending.2 rfl⟩

/-- The innermost tasker returns. -/
theorem Stage.returns (wellFormed : WellFormed ids state)
    (stage : Stage flowNodes last state seen before) :
    Stage flowNodes last (step state .doWorkReturned).1
        (seen ++ (step state .doWorkReturned).2)
        (before ++ [.doWorkReturned]) ∧
      settled ids (step state .doWorkReturned).1
          (seen ++ (step state .doWorkReturned).2) =
        settled ids state seen ∧
      (step state .doWorkReturned).1.recentNode = state.recentNode ∧
      (step state .doWorkReturned).1.running = state.running.tail := by
  have progress := stage.progress.unwind (Or.inl rfl)
  obtain ⟨outer, events, same, _, unfinished⟩ :=
    step_unwinding state (Or.inl rfl)
  refine ⟨⟨progress, ?_, ?_⟩, ?_, ?_, ?_⟩
  · intro j entry atIndex
    rw [same]
    simpa [unfinished] using stage.completed j entry atIndex
  · rw [same]
    exact stage.listening
  · simp only [step, perform, settle, State.doWorkReturned]
    cases running : state.running with
    | nil => simp [settled, running]
    | cons node outer =>
        simp [settled, running, stage.listening, wellFormed.getId]
  · rw [same]
  · simp only [step, perform, settle, State.doWorkReturned]
    cases running : state.running with
    | nil => exact running
    | cons node outer => rfl

/-- The completion of the running node: the next node starts, or the flow
finishes. -/
theorem Stage.completes (wellFormed : WellFormed ids state)
    (stage : Stage flowNodes last state seen before)
    {node : NodeRef} (recent : state.recentNode = some node)
    (unfinished : .onFlowFinish ∉ seen) :
    (∃ entry, flowNodes.entries[last + 1]? = some entry ∧
        Stage flowNodes (last + 1) (step state (.onCompleted node)).1
          (seen ++ (step state (.onCompleted node)).2)
          (before ++ [.onCompleted node]) ∧
        (step state (.onCompleted node)).2 = [.doWork entry.2] ∧
        (step state (.onCompleted node)).1.recentNode = some entry.2 ∧
        (step state (.onCompleted node)).1.running =
          entry.2 :: state.running) ∨
      (flowNodes.entries[last + 1]? = none ∧
        Stage flowNodes last (step state (.onCompleted node)).1
          (seen ++ (step state (.onCompleted node)).2)
          (before ++ [.onCompleted node]) ∧
        step state (.onCompleted node) = (state, [.onFlowFinish])) := by
  obtain ⟨recentEntry, atLast, isRecent⟩ := stage.progress.recent
  obtain rfl := Option.some.inj (isRecent.symm.trans recent)
  have onlyLast : ∀ j entry, flowNodes.entries[j]? = some entry →
      (entry.2 = recentEntry.2 ↔ j = last) := by
    intro j entry atIndex
    constructor
    · exact wellFormed.index_eq stage.progress.present atIndex atLast
    · rintro rfl
      rw [Option.some.inj (atIndex.symm.trans atLast)]
  have isArmed := stage.progress.recent_armed isRecent
  cases next : flowNodes.entries[last + 1]? with
  | some entry =>
      left
      refine ⟨entry, rfl, ?_⟩
      rw [step_onCompleted_of_armed isArmed,
        State.findAndExecute_eq_of_next stage.progress.present next]
      refine ⟨⟨stage.progress.advance wellFormed unfinished next, ?_,
        stage.listening⟩, rfl, rfl, rfl⟩
      intro j other atIndex
      have atLastOnly := onlyLast j other atIndex
      have completed := stage.completed j other atIndex
      simp only [unfinished, and_false, or_false] at completed
      simp only [List.mem_append, List.mem_singleton, completed,
        Action.onCompleted.injEq, atLastOnly, settle, State.doWork_snd,
        unfinished, reduceCtorEq, or_self, and_false, or_false]
      omega
  | none =>
      right
      have equation :
          step state (.onCompleted recentEntry.2) =
            (state, [.onFlowFinish]) := by
        rw [step_onCompleted_of_armed isArmed,
          State.findAndExecute_eq_of_last stage.progress.present next,
          stage.listening]
        rfl
      rw [equation]
      have progress := stage.progress.finishes unfinished next
      rw [stage.listening, if_pos rfl] at progress
      refine ⟨rfl, ⟨progress, ?_, stage.listening⟩, rfl⟩
      intro j other atIndex
      have atLastOnly := onlyLast j other atIndex
      have completed := stage.completed j other atIndex
      simp only [unfinished, and_false, or_false] at completed
      simp only [List.mem_append, List.mem_singleton, completed,
        Action.onCompleted.injEq, atLastOnly, or_true, and_true]

/-- A completion inserts a callback between the delivered and the owed ones;
it is never meant to come before the `onNodeChanged` of the completed node. -/
theorem Stage.inserts (wellFormed : WellFormed ids state)
    (stage : Stage flowNodes last state seen before)
    {node : NodeRef} (recent : state.recentNode = some node)
    (unfinished : .onFlowFinish ∉ seen) :
    ∃ inserted,
      settled ids (step state (.onCompleted node)).1
          (seen ++ (step state (.onCompleted node)).2) =
        callBacks seen ++ inserted ::
          state.running.map (fun node => .onNodeChanged (ids node)) ∧
      ¬ Precedes inserted (.onNodeChanged (ids node)) := by
  obtain ⟨recentEntry, atLast, isRecent⟩ := stage.progress.recent
  obtain rfl := Option.some.inj (isRecent.symm.trans recent)
  have keyed := wellFormed.keyed flowNodes stage.progress.present
  rcases stage.completes wellFormed recent unfinished with
    ⟨entry, atNext, _, emitted, _, running⟩ | ⟨_, _, same⟩
  · refine ⟨.onNodeChanged (ids entry.2), ?_, ?_⟩
    · simp [settled, emitted, running]
    · have later :=
        (SortedAssoc.lt_iff_of_getElem? atLast atNext).mpr (by omega)
      rw [keyed _ (List.mem_of_getElem? atLast),
        keyed _ (List.mem_of_getElem? atNext)] at later
      exact later.not_gt
  · refine ⟨.onFlowFinish, ?_, fun wrong => wrong⟩
    simp [settled, same]

end Stage

/-! ## Runs -/

section Runs

variable {ids : NodeRef → Int} {start : State}
  {flowNodes : SparseArray NodeRef} {entry : Int × NodeRef}

private theorem step_start_eq (wellFormed : WellFormed ids start)
    (present : start.flowNodes = some flowNodes)
    (atZero : flowNodes.entries[0]? = some entry) :
    step start .start =
      State.doWork { start.reset with recentNode := some entry.2 }
        entry.2 0 :=
  (step_start (wellFormed.alive present) present atZero).trans
    (step_startWithNode (wellFormed.alive present) present atZero)

theorem stage_start (wellFormed : WellFormed ids start)
    (present : start.flowNodes = some flowNodes)
    (listening : start.callBack = true)
    (atZero : flowNodes.entries[0]? = some entry) :
    Stage flowNodes 0 (flow.run start [.start])
      (flow.trace start [.start]) [] := by
  rw [Mealy.run_cons, Mealy.run_nil, Mealy.trace_cons, Mealy.trace_nil,
    List.append_nil, flow_step]
  refine ⟨?_, ?_, ?_⟩
  · rw [step_start (wellFormed.alive present) present atZero]
    exact progress_start wellFormed present atZero
  · intro j other _
    rw [step_start_eq wellFormed present atZero]
    simp
  · rw [step_start_eq wellFormed present atZero]
    simpa using listening

/-- Run lemma: every run of tasker calls is at some stage. -/
theorem stage_run (wellFormed : WellFormed ids start)
    (present : start.flowNodes = some flowNodes)
    (listening : start.callBack = true)
    (atZero : flowNodes.entries[0]? = some entry)
    {actions : List Action} (calls : AtEvery (TaskerCall start) actions) :
    ∃ last, Stage flowNodes last (flow.run start (.start :: actions))
      (flow.trace start (.start :: actions)) actions := by
  refine calls.induction
    (motive := fun actions => ∃ last,
      Stage flowNodes last (flow.run start (.start :: actions))
        (flow.trace start (.start :: actions)) actions) ?_ ?_
  · exact ⟨0, stage_start wellFormed present listening atZero⟩
  · rintro before action ⟨last, stage⟩ call
    rw [← List.cons_append, Mealy.run_concat, Mealy.trace_concat, flow_step]
    have wellFormedHere := wellFormed.run (.start :: before)
    cases action with
    | doWorkReturned => exact ⟨last, (stage.returns wellFormedHere).1⟩
    | onCompleted node =>
        obtain ⟨recent, unfinished⟩ := stage.recent_of_call call.1 call.2
        rcases stage.completes wellFormedHere recent unfinished with
          ⟨_, _, after, _⟩ | ⟨_, after, _⟩
        · exact ⟨last + 1, after⟩
        · exact ⟨last, after⟩
    | setCallBack | addNode | start | startWithNode | continueWork
    | revert | dispose | doWorkThrew => exact call.elim

/-- The callbacks delivered and owed after the actions `before`. -/
def settledAfter (ids : NodeRef → Int) (start : State)
    (before : List Action) : List Event :=
  settled ids (flow.run start (.start :: before))
    (flow.trace start (.start :: before))

theorem settledAfter_concat (before : List Action) (action : Action) :
    settledAfter ids start (before ++ [action]) =
      settled ids
        (step (flow.run start (.start :: before)) action).1
        (flow.trace start (.start :: before) ++
          (step (flow.run start (.start :: before)) action).2) := by
  rw [settledAfter, ← List.cons_append, Mealy.run_concat,
    Mealy.trace_concat, flow_step]

/-- The order of two callbacks, once settled, never changes. -/
theorem settledAfter_sublist (wellFormed : WellFormed ids start)
    (present : start.flowNodes = some flowNodes)
    (listening : start.callBack = true)
    (atZero : flowNodes.entries[0]? = some entry)
    (before after : List Action)
    (calls : AtEvery (TaskerCall start) (before ++ after)) :
    (settledAfter ids start before).Sublist
      (settledAfter ids start (before ++ after)) := by
  induction after using List.reverseRecOn with
  | nil => rw [List.append_nil]
  | append_singleton middle action inductionHypothesis =>
      rw [← List.append_assoc] at calls ⊢
      obtain ⟨callsBefore, call⟩ := atEvery_concat.mp calls
      refine (inductionHypothesis callsBefore).trans ?_
      obtain ⟨last, stage⟩ :=
        stage_run wellFormed present listening atZero callsBefore
      have wellFormedHere := wellFormed.run (.start :: (before ++ middle))
      rw [settledAfter_concat]
      cases action with
      | doWorkReturned =>
          rw [(stage.returns wellFormedHere).2.1]
          exact List.Sublist.refl _
      | onCompleted node =>
          obtain ⟨recent, unfinished⟩ := stage.recent_of_call call.1 call.2
          obtain ⟨inserted, after, _⟩ :=
            stage.inserts wellFormedHere recent unfinished
          rw [after]
          exact (List.sublist_cons_self _ _).append_left _
      | setCallBack | addNode | start | startWithNode | continueWork
      | revert | dispose | doWorkThrew => exact call.elim

/-- In the order of an asynchronous run a tasker owes at most its own
`onNodeChanged`, and the callbacks follow the array. -/
structure InOrder (ids : NodeRef → Int) (flowNodes : SparseArray NodeRef)
    (last : Nat) (state : State) (seen : List Event) : Prop where
  owed : state.running = [] ∨
    ∃ node, state.recentNode = some node ∧ state.running = [node]
  order : settled ids state seen =
    (flowNodes.keys.take (last + 1)).map .onNodeChanged ++
      if .onFlowFinish ∈ seen then [.onFlowFinish] else []

private theorem take_keys_next {last : Nat} {next : Int × NodeRef}
    (atNext : flowNodes.entries[last + 1]? = some next) :
    flowNodes.keys.take (last + 1 + 1) =
      flowNodes.keys.take (last + 1) ++ [next.1] := by
  rw [List.take_add_one, SortedAssoc.keys, List.getElem?_map, atNext]
  rfl

/-- A completion after the return of its own tasker appends a callback. -/
theorem InOrder.completes {last : Nat} {state : State} {seen : List Event}
    {before : List Action} (wellFormed : WellFormed ids state)
    (stage : Stage flowNodes last state seen before)
    (inOrder : InOrder ids flowNodes last state seen)
    {node : NodeRef} (recent : state.recentNode = some node)
    (unfinished : .onFlowFinish ∉ seen)
    (hasReturned : node ∉ state.running) :
    ∃ last',
      Stage flowNodes last' (step state (.onCompleted node)).1
          (seen ++ (step state (.onCompleted node)).2)
          (before ++ [.onCompleted node]) ∧
        InOrder ids flowNodes last' (step state (.onCompleted node)).1
          (seen ++ (step state (.onCompleted node)).2) := by
  have idle : state.running = [] := by
    rcases inOrder.owed with idle | ⟨other, isRecent, only⟩
    · exact idle
    · obtain rfl := Option.some.inj (isRecent.symm.trans recent)
      exact absurd (only ▸ List.mem_cons_self) hasReturned
  have delivered := inOrder.order
  simp only [settled, idle, List.map_nil, List.append_nil, unfinished,
    if_false] at delivered
  have keyed := wellFormed.keyed flowNodes stage.progress.present
  rcases stage.completes wellFormed recent unfinished with
    ⟨entry, atNext, after, emitted, isRecent, running⟩ |
    ⟨_, after, same⟩
  · refine ⟨last + 1, after, ?_, ?_⟩
    · exact Or.inr ⟨entry.2, isRecent, by rw [running, idle]⟩
    · rw [settled, running, emitted, idle, callBacks_append, delivered,
        take_keys_next atNext, keyed entry (List.mem_of_getElem? atNext)]
      simp [unfinished]
  · refine ⟨last, after, ?_, ?_⟩
    · rw [same]
      exact Or.inl idle
    · rw [settled, same, idle, callBacks_append, delivered]
      simp

theorem inOrder_run (wellFormed : WellFormed ids start)
    (present : start.flowNodes = some flowNodes)
    (listening : start.callBack = true) (idle : start.running = [])
    (atZero : flowNodes.entries[0]? = some entry)
    {actions : List Action} (calls : AtEvery (TaskerCall start) actions)
    (asynchronous : AllAsynchronous start actions) :
    ∃ last, Stage flowNodes last (flow.run start (.start :: actions))
        (flow.trace start (.start :: actions)) actions ∧
      InOrder ids flowNodes last (flow.run start (.start :: actions))
        (flow.trace start (.start :: actions)) := by
  have every : AtEvery (fun before action =>
      TaskerCall start before action ∧
        ∀ node ∈ (flow.run start (.start :: before)).running,
          action ≠ .onCompleted node) actions :=
    fun before action after equality =>
      ⟨calls before action after equality,
        asynchronous before action after equality⟩
  refine every.induction
    (motive := fun actions => ∃ last,
      Stage flowNodes last (flow.run start (.start :: actions))
          (flow.trace start (.start :: actions)) actions ∧
        InOrder ids flowNodes last (flow.run start (.start :: actions))
          (flow.trace start (.start :: actions))) ?_ ?_
  · refine ⟨0, stage_start wellFormed present listening atZero, ?_⟩
    have keyed := wellFormed.keyed flowNodes present entry
      (List.mem_of_getElem? atZero)
    have firstKey : flowNodes.keys[0]? = some (ids entry.2) := by
      rw [SortedAssoc.keys, List.getElem?_map, atZero, ← keyed]
      rfl
    rw [Mealy.run_cons, Mealy.run_nil, Mealy.trace_cons, Mealy.trace_nil,
      List.append_nil, flow_step, step_start_eq wellFormed present atZero]
    refine ⟨Or.inr ⟨entry.2, rfl, by simp [idle]⟩, ?_⟩
    simp [settled, idle, List.take_add_one, firstKey]
  · rintro before action ⟨last, stage, inOrder⟩ ⟨call, hasReturned⟩
    rw [← List.cons_append, Mealy.run_concat, Mealy.trace_concat, flow_step]
    have wellFormedHere := wellFormed.run (.start :: before)
    cases action with
    | doWorkReturned =>
        obtain ⟨after, same, recent, running⟩ := stage.returns wellFormedHere
        refine ⟨last, after, ?_, ?_⟩
        · left
          rw [running]
          rcases inOrder.owed with idle | ⟨node, _, only⟩
          · rw [idle, List.tail_nil]
          · rw [only, List.tail_cons]
        · have unfinished :
              .onFlowFinish ∉
                (step (flow.run start (.start :: before))
                  .doWorkReturned).2 := by
            obtain ⟨_, _, equation, _, quiet⟩ :=
              step_unwinding (flow.run start (.start :: before))
                (Or.inl rfl)
            rw [equation]
            exact quiet
          rw [same, inOrder.order]
          simp only [List.mem_append, unfinished, or_false]
    | onCompleted node =>
        obtain ⟨recent, unfinished⟩ := stage.recent_of_call call.1 call.2
        exact inOrder.completes wellFormedHere stage recent unfinished
          (fun member => hasReturned node member rfl)
    | setCallBack | addNode | start | startWithNode | continueWork
    | revert | dispose | doWorkThrew => exact call.elim

/-- The callbacks of a complete run come in ascending id order, with the end
of the flow at the end, exactly when every tasker completes after it has
returned. -/
theorem callBack_order_iff_asynchronous (ids : NodeRef → Int)
    {withNodes : List NodeRef} (nonempty : withNodes ≠ [])
    (distinct : (withNodes.map ids).Nodup) {actions : List Action}
    (complete : CompleteRun (create ids withNodes true) actions) :
    callBacks
          (flow.trace (create ids withNodes true) (.start :: actions)) =
        ascendingOrder ids withNodes ↔
      AllAsynchronous (create ids withNodes true) actions := by
  obtain ⟨flowNodes, present, stored, keys⟩ :=
    create_entries ids distinct true
  have wellFormed := wellFormed_create ids withNodes true
  have listening : (create ids withNodes true).callBack = true := rfl
  have idle : (create ids withNodes true).running = [] := rfl
  generalize create ids withNodes true = start
    at complete present wellFormed listening idle ⊢
  have positive : 0 < flowNodes.entries.length := by
    rw [stored.length_eq, List.length_map]
    exact List.length_pos_iff.mpr nonempty
  have atZero := List.getElem?_eq_getElem positive
  have atEnd :
      settledAfter ids start actions =
        callBacks (flow.trace start (.start :: actions)) := by
    rw [settledAfter, settled, complete.returned, List.map_nil,
      List.append_nil]
  rw [ascendingOrder, ← keys]
  constructor
  · intro ordered before action after equality node stillRunning completes
    subst completes
    have calls :
        AtEvery (TaskerCall start)
          ((before ++ [.onCompleted node]) ++ after) := by
      simpa [equality] using complete.calls
    have callsHere := atEvery_concat.mp calls.of_append
    obtain ⟨last, stage⟩ :=
      stage_run wellFormed present listening atZero callsHere.1
    have wellFormedHere := wellFormed.run (.start :: before)
    obtain ⟨recent, unfinished⟩ :=
      stage.recent_of_call callsHere.2.1 callsHere.2.2
    obtain ⟨inserted, settledHere, wrongOrder⟩ :=
      stage.inserts wellFormedHere recent unfinished
    have final := settledAfter_sublist wellFormed present listening atZero
      (before ++ [.onCompleted node]) after calls
    rw [← List.append_cons, ← equality, atEnd, ordered,
      settledAfter_concat, settledHere] at final
    have pair :
        [inserted, Event.onNodeChanged (ids node)].Sublist
          (callBacks (flow.trace start (.start :: before)) ++ inserted ::
            (flow.run start (.start :: before)).running.map
              fun node => .onNodeChanged (ids node)) := by
      refine List.Sublist.trans (List.Sublist.cons_cons inserted ?_)
        (List.sublist_append_right _ _)
      exact List.singleton_sublist.mpr (List.mem_map_of_mem stillRunning)
    have inOrder := (ordered_keys flowNodes).sublist (pair.trans final)
    exact wrongOrder (List.rel_of_pairwise_cons inOrder (by simp))
  · intro asynchronous
    obtain ⟨last, stage, inOrder⟩ :=
      inOrder_run wellFormed present listening idle atZero
        complete.calls asynchronous
    obtain ⟨entry, atLast, _⟩ := stage.progress.recent
    have executedLast :
        entry.2 ∈ executed (flow.trace start (.start :: actions)) := by
      rw [stage.progress.ran, List.drop_zero]
      apply List.mem_iff_getElem?.mpr
      refine ⟨last, ?_⟩
      rw [List.getElem?_take_of_lt (by omega), SortedAssoc.values,
        List.getElem?_map, atLast]
      rfl
    have finished : .onFlowFinish ∈ flow.trace start (.start :: actions) := by
      have completed :=
        (stage.completed last entry atLast).mp
          (complete.completed entry.2 executedLast)
      simpa using completed
    have noNext := (stage.progress.finished finished).1
    have all : flowNodes.keys.take (last + 1) = flowNodes.keys := by
      apply List.take_of_length_le
      rw [SortedAssoc.keys, List.length_map]
      exact List.getElem?_eq_none_iff.mp noNext
    rw [← atEnd, settledAfter, inOrder.order, all, if_pos finished]

end Runs

/-! ## Inside and after `doWork` -/

/-- One node completing inside `doWork`: the flow finishes before the node
is announced. -/
theorem finish_before_node_changed :
    CompleteRun (create (fun _ => 7) [0] true)
        [.onCompleted 0, .doWorkReturned] ∧
      callBacks (flow.trace (create (fun _ => 7) [0] true)
          [.start, .onCompleted 0, .doWorkReturned]) ≠
        ascendingOrder (fun _ => 7) [0] :=
  ⟨⟨by decide, by decide, by decide⟩, by decide⟩

/-- Two nodes completing after `doWork` has returned. -/
theorem ascending_order_of_two :
    callBacks (flow.trace (create (fun node => node) [2, 1] true)
        [.start, .doWorkReturned, .onCompleted 1, .doWorkReturned,
          .onCompleted 2]) =
      ascendingOrder (fun node => node) [2, 1] :=
  (callBack_order_iff_asynchronous (fun node => node) (by decide)
    (by decide) ⟨by decide, by decide, by decide⟩).mpr (by decide)

end DripStone.TaskFlow
