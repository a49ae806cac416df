import DripStone.TaskFlow.Invariant

/-!
# The successor of a node while the flow grows

The callback of a running node holds the index the node had when it was
started, and `addNode` shifts the array: a smaller id moves the running node up
by one, and the captured index then names a node in front of it.  The node
executed next is the least greater one exactly as long as the captured index
is still the index of the node, that is, as long as no smaller id has been
added since it was started.
-/

namespace DripStone.TaskFlow

open DripStone.Library

/-- The node an action completes. -/
def completedNode (state : State) : Action → Option NodeRef
  | .onCompleted node => some node
  | .continueWork => state.recentNode
  | _ => none

/-- The calls of a growing run: nodes with new ids are added, nodes complete,
taskers return. -/
def GrowthCall (state : State) : Action → Prop
  | .addNode node =>
      match state.flowNodes with
      | some flowNodes => state.getId node ∉ flowNodes.keys
      | none => True
  | .onCompleted _ => True
  | .continueWork => True
  | .doWorkReturned => True
  | .doWorkThrew => True
  | _ => False

/-- The index captured by the node's callback is the index of the node. -/
def CapturedIndexCurrent (state : State) (node : NodeRef) : Prop :=
  match state.flowNodes with
  | some flowNodes =>
      state.armed node = flowNodes.indexOfKey? (state.getId node)
  | none => False

/-- A completed node is the recent one or holds no callback. -/
def NotStale (state : State) (action : Action) : Prop :=
  match completedNode state action with
  | some node => state.armed node = none ∨ state.recentNode = some node
  | none => True

/-- When the recent node completes, its captured index is current. -/
def RecentCurrent (state : State) (action : Action) : Prop :=
  match completedNode state action with
  | some node =>
      state.recentNode = some node → CapturedIndexCurrent state node
  | none => True

instance (state : State) : DecidablePred (GrowthCall state)
  | .addNode node => by
      unfold GrowthCall
      exact match state.flowNodes with
        | some flowNodes =>
            inferInstanceAs (Decidable (state.getId node ∉ flowNodes.keys))
        | none => isTrue trivial
  | .onCompleted _ | .continueWork | .doWorkReturned | .doWorkThrew =>
      isTrue trivial
  | .setCallBack _ | .start | .startWithNode _ | .revert | .dispose =>
      isFalse id

instance (state : State) (node : NodeRef) :
    Decidable (CapturedIndexCurrent state node) := by
  unfold CapturedIndexCurrent
  exact match state.flowNodes with
    | some flowNodes => inferInstanceAs (Decidable
        (state.armed node = flowNodes.indexOfKey? (state.getId node)))
    | none => isFalse id

instance (state : State) : DecidablePred (NotStale state) := by
  intro action
  unfold NotStale
  exact match completedNode state action with
    | some node => inferInstanceAs
        (Decidable (state.armed node = none ∨ state.recentNode = some node))
    | none => isTrue trivial

instance (state : State) : DecidablePred (RecentCurrent state) := by
  intro action
  unfold RecentCurrent
  exact match completedNode state action with
    | some node => inferInstanceAs (Decidable
        (state.recentNode = some node → CapturedIndexCurrent state node))
    | none => isTrue trivial

/-- What the completion of `node` emits: the node with the least greater id is
executed, and the flow finishes when there is none. -/
structure SuccessorLaw (flowNodes : SparseArray NodeRef) (callBack : Bool)
    (id : Int) (events : List Event) : Prop where
  next : ∀ next, flowNodes.IsSuccessor id next → events = [.doWork next.2]
  last : (∀ entry ∈ flowNodes.entries, entry.1 ≤ id) →
    events = if callBack then [.onFlowFinish] else []

/-- The law of a growing run that starts at node `s`. -/
structure GrowthLaw (before : State) (s : Int) (actions : List Action) :
    Prop where
  successor :
    AtEvery (fun earlier action =>
      let state := flow.run before (.startWithNode s :: earlier)
      ∀ node flowNodes, completedNode state action = some node →
        state.recentNode = some node → state.flowNodes = some flowNodes →
          SuccessorLaw flowNodes state.callBack (state.getId node)
            (step state action).2) actions
  once :
    (executed (flow.trace before (.startWithNode s :: actions))).Nodup

/-- A condition on the state before each action of the run. -/
def Along (condition : State → Action → Prop) (before : State) (s : Int)
    (actions : List Action) : Prop :=
  AtEvery (fun earlier =>
    condition (flow.run before (.startWithNode s :: earlier))) actions

instance (condition : State → Action → Prop)
    [∀ state, DecidablePred (condition state)] (before : State) (s : Int) :
    DecidablePred (Along condition before s) :=
  fun actions => AtEvery.decidable _ actions

/-! ## The recent node of a growing run -/

/-- The recent node is stored, and its captured index is not above its
index. -/
structure Growing (state : State) : Prop where
  recent : ∃ flowNodes i j entry,
    state.flowNodes = some flowNodes ∧
      flowNodes.entries[j]? = some entry ∧
        state.recentNode = some entry.2 ∧
          state.armed entry.2 = some i ∧ i ≤ j

section Steps

variable {ids : NodeRef → Int} {state : State}
  {flowNodes : SparseArray NodeRef} {i : Nat}

theorem growing_doWork {entry : Int × NodeRef}
    (present : state.flowNodes = some flowNodes)
    (atIndex : flowNodes.entries[i]? = some entry) :
    Growing
      (State.doWork { state with recentNode := some entry.2 }
        entry.2 i).1 :=
  ⟨flowNodes, i, i, entry, present, atIndex, rfl,
    by rw [State.doWork_armed, if_pos rfl], le_rfl⟩

theorem Growing.onCompleted (growing : Growing state) (node : NodeRef) :
    Growing (step state (.onCompleted node)).1 := by
  obtain ⟨flowNodes, _, _, _, present, _⟩ := growing.recent
  cases isArmed : state.armed node with
  | none => rwa [step_onCompleted_of_unarmed isArmed]
  | some i =>
      rw [step_onCompleted_of_armed isArmed]
      cases next : flowNodes.entries[i + 1]? with
      | some entry =>
          rw [State.findAndExecute_eq_of_next present next]
          exact growing_doWork present next
      | none =>
          rw [State.findAndExecute_eq_of_last present next]
          exact growing

/-- Step lemma: a call of a growing run keeps the recent node stored, at or
above its captured index. -/
theorem Growing.keeps (wellFormed : WellFormed ids state)
    (growing : Growing state) {action : Action}
    (call : GrowthCall state action) :
    Growing (step state action).1 := by
  obtain ⟨flowNodes, i, j, entry, present, atIndex, recent, armed, le⟩ :=
    growing.recent
  have alive := wellFormed.alive present
  cases action with
  | addNode node =>
      rw [step_addNode alive present]
      simp only [GrowthCall, present] at call
      have different : entry.1 ≠ state.getId node := by
        intro same
        exact call (same ▸ List.mem_map_of_mem (List.mem_of_getElem? atIndex))
      rcases lt_or_gt_of_ne different with below | above
      · exact ⟨_, i, j, entry, rfl,
          SortedAssoc.getElem?_put_of_lt atIndex below, recent, armed, le⟩
      · exact ⟨_, i, j + 1, entry, rfl,
          SortedAssoc.getElem?_put_of_gt call atIndex above, recent, armed,
          Nat.le_succ_of_le le⟩
  | onCompleted node => exact growing.onCompleted node
  | continueWork =>
      rw [step_continueWork alive recent]
      exact growing.onCompleted entry.2
  | doWorkReturned =>
      obtain ⟨outer, events, same, _⟩ :=
        step_unwinding state (Or.inl rfl)
      rw [same]
      exact ⟨flowNodes, i, j, entry, present, atIndex, recent, armed, le⟩
  | doWorkThrew =>
      exact ⟨flowNodes, i, j, entry, present, atIndex, recent, armed, le⟩
  | setCallBack | start | startWithNode | revert | dispose =>
      exact call.elim

/-- With a current index the completion of a node obeys the law. -/
theorem successorLaw_of_current (wellFormed : WellFormed ids state)
    (present : state.flowNodes = some flowNodes) {node : NodeRef}
    {entry : Int × NodeRef}
    (atIndex : flowNodes.entries[i]? = some entry)
    (same : entry.2 = node) (isArmed : state.armed node = some i) :
    SuccessorLaw flowNodes state.callBack (state.getId node)
      (step state (.onCompleted node)).2 := by
  subst same
  have key : entry.1 = state.getId entry.2 := by
    rw [wellFormed.getId]
    exact wellFormed.keyed flowNodes present entry
      (List.mem_of_getElem? atIndex)
  rw [← key, step_onCompleted_of_armed isArmed]
  cases atNext : flowNodes.entries[i + 1]? with
  | some next =>
      rw [State.findAndExecute_eq_of_next present atNext]
      have isNext := SortedAssoc.isSuccessor_of_getElem? atIndex atNext
      refine ⟨?_, ?_⟩
      · intro other isOther
        rw [isOther.unique isNext]
        rfl
      · intro noGreater
        exact absurd isNext.2.1 (noGreater next isNext.1).not_gt
  | none =>
      rw [State.findAndExecute_eq_of_last present atNext]
      refine ⟨?_, fun _ => rfl⟩
      intro other isOther
      have atMost :=
        SortedAssoc.le_of_getElem?_succ_eq_none atIndex atNext isOther.1
      exact absurd isOther.2.1 atMost.not_gt

/-- With an index that is no longer current it does not. -/
theorem not_successorLaw_of_shifted (wellFormed : WellFormed ids state)
    (present : state.flowNodes = some flowNodes) {node : NodeRef}
    {j : Nat} {entry : Int × NodeRef}
    (atIndex : flowNodes.entries[j]? = some entry)
    (same : entry.2 = node) (isArmed : state.armed node = some i)
    (shifted : i < j) :
    ¬ SuccessorLaw flowNodes state.callBack (state.getId node)
      (step state (.onCompleted node)).2 := by
  subst same
  have keyOf : ∀ other ∈ flowNodes.entries,
      other.1 = state.getId other.2 := by
    intro other member
    rw [wellFormed.getId]
    exact wellFormed.keyed flowNodes present other member
  have key := keyOf entry (List.mem_of_getElem? atIndex)
  obtain ⟨bound, _⟩ := List.getElem?_eq_some_iff.mp atIndex
  have nextBound : i + 1 < flowNodes.entries.length := by omega
  have atNext := List.getElem?_eq_getElem nextBound
  generalize flowNodes.entries[i + 1] = wrong at atNext
  have notAbove : ¬ entry.1 < wrong.1 :=
    (SortedAssoc.lt_iff_of_getElem? atIndex atNext).not.mpr (by omega)
  rw [← key, step_onCompleted_of_armed isArmed,
    State.findAndExecute_eq_of_next present atNext]
  intro law
  have executedWrong :
      ∀ events : List Event, (settle state (.ok
        (State.doWork { state with recentNode := some wrong.2 }
          wrong.2 (i + 1)))).2 = events → events = [.doWork wrong.2] :=
    fun _ equal => equal.symm
  cases afterEntry : flowNodes.entries[j + 1]? with
  | some next =>
      have isNext := SortedAssoc.isSuccessor_of_getElem? atIndex afterEntry
      have equal := executedWrong _ (law.next next isNext)
      have sameNode : next.2 = wrong.2 := by simpa using equal
      have sameKey : next.1 = wrong.1 := by
        rw [keyOf next isNext.1, keyOf wrong (List.mem_of_getElem? atNext),
          sameNode]
      exact notAbove (sameKey ▸ isNext.2.1)
  | none =>
      have equal := executedWrong _ (law.last fun other member =>
        SortedAssoc.le_of_getElem?_succ_eq_none atIndex afterEntry member)
      by_cases listening : state.callBack <;> simp [listening] at equal

theorem step_completedNode (alive : state.isDisposed = false)
    {action : Action} {node : NodeRef}
    (completes : completedNode state action = some node) :
    step state action = step state (.onCompleted node) := by
  cases action with
  | onCompleted other =>
      rw [Option.some.inj completes]
  | continueWork => exact step_continueWork alive completes
  | setCallBack | addNode | start | startWithNode | revert | dispose
  | doWorkReturned | doWorkThrew => simp [completedNode] at completes

/-- The nodes executed so far have strictly ascending ids and end with the
recent node. -/
structure Ascending (ids : NodeRef → Int) (state : State)
    (seen : List Event) : Prop where
  sorted : ((executed seen).map ids).Pairwise (· < ·)
  last : (executed seen).getLast? = state.recentNode

theorem Ascending.quiet {seen : List Event}
    (ascending : Ascending ids state seen) {after : State}
    {events : List Event} (recent : after.recentNode = state.recentNode)
    (nothing : executed events = []) :
    Ascending ids after (seen ++ events) := by
  constructor
  · rw [executed_append, nothing, List.append_nil]
    exact ascending.sorted
  · rw [executed_append, nothing, List.append_nil, recent]
    exact ascending.last

/-- A node with a greater id than the recent one is executed. -/
theorem Ascending.climb {seen : List Event}
    (ascending : Ascending ids state seen) {after : State}
    {recentNode next : NodeRef}
    (recent : state.recentNode = some recentNode)
    (greater : ids recentNode < ids next)
    (moved : after.recentNode = some next) :
    Ascending ids after (seen ++ [.doWork next]) := by
  have last := ascending.last
  rw [recent] at last
  obtain ⟨earlier, split⟩ := List.getLast?_eq_some_iff.mp last
  have sorted := ascending.sorted
  rw [split, List.map_append] at sorted
  constructor
  · rw [executed_append, List.map_append, split, List.map_append]
    refine List.pairwise_append.mpr
      ⟨sorted, List.pairwise_singleton _ _, ?_⟩
    intro id inRan nextId isNext
    obtain rfl := List.mem_singleton.mp isNext
    rcases List.mem_append.mp inRan with inEarlier | isLast
    · have below := (List.pairwise_append.mp sorted).2.2 id inEarlier
        (ids recentNode) (List.mem_singleton_self _)
      exact below.trans greater
    · rw [List.mem_singleton.mp isLast]
      exact greater
  · rw [executed_append, moved]
    simp [executed]

/-- The completion of a node that is not stale, its index current, keeps the
executed ids ascending. -/
theorem Ascending.onCompleted (wellFormed : WellFormed ids state)
    (growing : Growing state) {seen : List Event}
    (ascending : Ascending ids state seen) {node : NodeRef}
    (notStale : NotStale state (.onCompleted node))
    (current : RecentCurrent state (.onCompleted node)) :
    Ascending ids (step state (.onCompleted node)).1
      (seen ++ (step state (.onCompleted node)).2) := by
  rcases notStale with unarmed | recent
  · rw [step_onCompleted_of_unarmed unarmed]
    exact ascending.quiet rfl rfl
  · obtain ⟨flowNodes, i, _, recentEntry, present, _, isRecent, isArmed, _⟩ :=
      growing.recent
    obtain rfl := Option.some.inj (isRecent.symm.trans recent)
    have keyed := wellFormed.keyed flowNodes present
    have isCurrent := current recent
    simp only [CapturedIndexCurrent, present] at isCurrent
    rw [isArmed, eq_comm, wellFormed.getId] at isCurrent
    obtain ⟨value, atIndex⟩ := SortedAssoc.indexOfKey?_eq_some.mp isCurrent
    rw [step_onCompleted_of_armed isArmed]
    cases atNext : flowNodes.entries[i + 1]? with
    | some next =>
        rw [State.findAndExecute_eq_of_next present atNext]
        refine ascending.climb recent ?_ rfl
        have above :=
          (SortedAssoc.isSuccessor_of_getElem? atIndex atNext).2.1
        rwa [keyed next (List.mem_of_getElem? atNext)] at above
    | none =>
        rw [State.findAndExecute_eq_of_last present atNext]
        refine ascending.quiet rfl ?_
        by_cases listening : state.callBack <;>
          simp [listening, executed, settle]

/-- Step lemma: the executed ids stay ascending. -/
theorem Ascending.keeps (wellFormed : WellFormed ids state)
    (growing : Growing state) {seen : List Event}
    (ascending : Ascending ids state seen) {action : Action}
    (call : GrowthCall state action) (notStale : NotStale state action)
    (current : RecentCurrent state action) :
    Ascending ids (step state action).1
      (seen ++ (step state action).2) := by
  obtain ⟨flowNodes, _, _, entry, present, _, recent, _⟩ := growing.recent
  have alive := wellFormed.alive present
  cases action with
  | addNode node =>
      rw [step_addNode alive present]
      exact ascending.quiet rfl rfl
  | onCompleted node =>
      exact ascending.onCompleted wellFormed growing notStale current
  | continueWork =>
      rw [step_continueWork alive recent]
      refine ascending.onCompleted wellFormed growing (Or.inr recent) ?_
      simpa only [RecentCurrent, completedNode, recent] using current
  | doWorkReturned =>
      obtain ⟨outer, events, same, nothing, _⟩ :=
        step_unwinding state (Or.inl rfl)
      rw [same]
      exact ascending.quiet rfl nothing
  | doWorkThrew => exact ascending.quiet rfl rfl
  | setCallBack | start | startWithNode | revert | dispose =>
      exact call.elim

/-- The law at one completion of the recent node says that its captured index
is current. -/
theorem Growing.successorLaw_iff (wellFormed : WellFormed ids state)
    (growing : Growing state)
    (present : state.flowNodes = some flowNodes) {node : NodeRef}
    (recent : state.recentNode = some node) :
    SuccessorLaw flowNodes state.callBack (state.getId node)
        (step state (.onCompleted node)).2 ↔
      CapturedIndexCurrent state node := by
  obtain ⟨_, i, j, entry, isPresent, atIndex, isRecent, isArmed, le⟩ :=
    growing.recent
  obtain rfl := Option.some.inj (isPresent.symm.trans present)
  obtain rfl := Option.some.inj (isRecent.symm.trans recent)
  have key := wellFormed.keyed _ present entry (List.mem_of_getElem? atIndex)
  rw [← wellFormed.getId] at key
  simp only [CapturedIndexCurrent, present]
  rw [isArmed, eq_comm, ← key, SortedAssoc.indexOfKey?_eq_some]
  constructor
  · intro law
    refine ⟨entry.2, ?_⟩
    rcases Nat.lt_or_eq_of_le le with shifted | rfl
    · rw [key] at law
      exact absurd law
        (not_successorLaw_of_shifted wellFormed present atIndex rfl isArmed
          shifted)
    · exact atIndex
  · rintro ⟨value, stillAt⟩
    obtain rfl := SortedAssoc.index_eq_of_key_eq stillAt atIndex rfl
    rw [key]
    exact successorLaw_of_current wellFormed present atIndex rfl isArmed

end Steps

/-! ## Runs -/

section Runs

variable {ids : NodeRef → Int} {before : State}
  {flowNodes : SparseArray NodeRef} {first : Nat} {entry : Int × NodeRef}

theorem growing_start (wellFormed : WellFormed ids before)
    (present : before.flowNodes = some flowNodes)
    (atFirst : flowNodes.entries[first]? = some entry) :
    Growing (flow.run before [.startWithNode entry.1]) ∧
      Ascending ids (flow.run before [.startWithNode entry.1])
        (flow.trace before [.startWithNode entry.1]) := by
  rw [Mealy.run_cons, Mealy.run_nil, Mealy.trace_cons, Mealy.trace_nil,
    List.append_nil, flow_step,
    step_startWithNode (wellFormed.alive present) present atFirst]
  refine ⟨growing_doWork ?_ atFirst, ?_, rfl⟩
  · rw [State.reset_flowNodes, present]
  · exact List.pairwise_singleton _ _

/-- Run lemma: the recent node of a growing run is stored, at or above its
captured index. -/
theorem growing_run (wellFormed : WellFormed ids before)
    (present : before.flowNodes = some flowNodes)
    (atFirst : flowNodes.entries[first]? = some entry)
    {actions : List Action}
    (calls : Along GrowthCall before entry.1 actions) :
    Growing (flow.run before (.startWithNode entry.1 :: actions)) := by
  refine AtEvery.induction
    (motive := fun actions =>
      Growing (flow.run before (.startWithNode entry.1 :: actions)))
    calls (growing_start wellFormed present atFirst).1 ?_
  intro earlier action growing call
  rw [← List.cons_append, Mealy.run_concat, flow_step]
  exact growing.keeps (wellFormed.run _) call

/-- Run lemma: without stale completions, and with current indices, the ids
executed ascend. -/
theorem ascending_run (wellFormed : WellFormed ids before)
    (present : before.flowNodes = some flowNodes)
    (atFirst : flowNodes.entries[first]? = some entry)
    {actions : List Action}
    (calls : Along GrowthCall before entry.1 actions)
    (notStale : Along NotStale before entry.1 actions)
    (current : Along RecentCurrent before entry.1 actions) :
    Ascending ids (flow.run before (.startWithNode entry.1 :: actions))
      (flow.trace before (.startWithNode entry.1 :: actions)) := by
  induction actions using List.reverseRecOn with
  | nil => exact (growing_start wellFormed present atFirst).2
  | append_singleton earlier action inductionHypothesis =>
      obtain ⟨callsBefore, call⟩ := atEvery_concat.mp calls
      obtain ⟨notStaleBefore, isNotStale⟩ := atEvery_concat.mp notStale
      obtain ⟨currentBefore, isCurrent⟩ := atEvery_concat.mp current
      have ascending :=
        inductionHypothesis callsBefore notStaleBefore currentBefore
      have growing := growing_run wellFormed present atFirst callsBefore
      rw [← List.cons_append, Mealy.run_concat, Mealy.trace_concat,
        flow_step]
      exact ascending.keeps (wellFormed.run _) growing call isNotStale
        isCurrent

/-- The law holds in a run whose completions are not stale and find the
captured index of the recent node current, and only when they find it
current. -/
theorem growth_law_of_current (ids : NodeRef → Int)
    (withNodes : List NodeRef) (callBack : Bool) (history : List Action)
    {flowNodes : SparseArray NodeRef}
    (present :
      (flow.run (create ids withNodes callBack) history).flowNodes =
        some flowNodes)
    {s : Int} (member : s ∈ flowNodes.keys) {actions : List Action}
    (calls : Along GrowthCall
      (flow.run (create ids withNodes callBack) history) s actions) :
    (Along NotStale (flow.run (create ids withNodes callBack) history)
          s actions ∧
        Along RecentCurrent
          (flow.run (create ids withNodes callBack) history) s actions →
      GrowthLaw (flow.run (create ids withNodes callBack) history)
        s actions) ∧
    (GrowthLaw (flow.run (create ids withNodes callBack) history)
        s actions →
      Along RecentCurrent
        (flow.run (create ids withNodes callBack) history) s actions) := by
  have wellFormed := wellFormed_run ids withNodes callBack history
  generalize flow.run (create ids withNodes callBack) history = before
    at present wellFormed calls ⊢
  obtain ⟨entry, inEntries, rfl⟩ := List.mem_map.mp member
  obtain ⟨first, atFirst⟩ := List.mem_iff_getElem?.mp inEntries
  have growingAt : ∀ earlier action after,
      actions = earlier ++ action :: after →
        Growing (flow.run before (.startWithNode entry.1 :: earlier)) := by
    rintro earlier action after rfl
    exact growing_run wellFormed present atFirst (AtEvery.of_append calls)
  constructor
  · rintro ⟨notStale, current⟩
    constructor
    · intro earlier action after split state node flowNodesHere completes
        recent isPresent
      have wellFormedHere := wellFormed.run (.startWithNode entry.1 :: earlier)
      have isCurrent : RecentCurrent state action :=
        current earlier action after split
      simp only [RecentCurrent, completes] at isCurrent
      rw [step_completedNode (wellFormedHere.alive isPresent) completes]
      exact ((growingAt earlier action after split).successorLaw_iff
        wellFormedHere isPresent recent).mpr (isCurrent recent)
    · have ascending :=
        ascending_run wellFormed present atFirst calls notStale current
      have distinct : ((executed (flow.trace before
          (.startWithNode entry.1 :: actions))).map ids).Nodup :=
        ascending.sorted.imp ne_of_lt
      exact distinct.of_map ids
  · intro law earlier action after split
    have growing := growingAt earlier action after split
    have wellFormedHere := wellFormed.run (.startWithNode entry.1 :: earlier)
    simp only [RecentCurrent]
    cases completes : completedNode
      (flow.run before (.startWithNode entry.1 :: earlier)) action with
    | none => trivial
    | some node =>
        intro recent
        obtain ⟨flowNodesHere, _, _, _, isPresent, _⟩ := growing.recent
        have obeyed := law.successor earlier action after split node
          flowNodesHere completes recent isPresent
        rw [step_completedNode (wellFormedHere.alive isPresent) completes]
          at obeyed
        exact (growing.successorLaw_iff wellFormedHere isPresent recent).mp
          obeyed

end Runs

/-! ## A shifted index -/

/-- Node `3` joins while node `5` is running: the completion of node `5`
executes node `5` again. -/
theorem shifted_index_executes_again :
    ∃ flowNodes,
      (create (fun node => node) [1, 5] true).flowNodes = some flowNodes ∧
      (1 : Int) ∈ flowNodes.keys ∧
      Along GrowthCall (create (fun node => node) [1, 5] true) 1
        [.doWorkReturned, .onCompleted 1, .doWorkReturned, .addNode 3,
          .onCompleted 5] ∧
      ¬ GrowthLaw (create (fun node => node) [1, 5] true) 1
        [.doWorkReturned, .onCompleted 1, .doWorkReturned, .addNode 3,
          .onCompleted 5] := by
  refine ⟨_, rfl, by decide, by decide, fun law => ?_⟩
  exact absurd law.once (by decide)

/-- Node `2` joins while node `1` is running, and is executed next. -/
theorem grown_run_of_three :
    ∃ flowNodes,
      (create (fun node => node) [1, 3] true).flowNodes = some flowNodes ∧
      GrowthLaw (create (fun node => node) [1, 3] true) 1
        [.doWorkReturned, .addNode 2, .onCompleted 1, .onCompleted 2,
          .continueWork] := by
  refine ⟨_, rfl, ?_⟩
  exact (growth_law_of_current (fun node => node) [1, 3] true []
    rfl (by decide) (by decide)).1 (by decide)

end DripStone.TaskFlow
