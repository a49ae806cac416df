import DripStone.TaskFlow.Invariant

/-!
# Single advance over a fixed node set

After `startWithNode` the node set stays fixed and nodes complete in any
order, any number of times.  The run obeys the single-advance law exactly when
every completion is fresh: the completed node holds no callback, or it is the
recent node of a flow that has not finished.

`findAndExecuteNextNodeIfExist` leaves the callback of the completed node in
place, whereas `reset`, on a restart and on disposal, removes it.  A second
completion of a node that ran therefore executes the next node again.
-/

namespace DripStone.TaskFlow

open DripStone.Library

/-- The calls of a run over the nodes in `flowNodes`: completions, and returns
of taskers. -/
def CompletionOf (flowNodes : SparseArray NodeRef) : Action → Prop
  | .onCompleted node => node ∈ flowNodes.values
  | .continueWork => True
  | .doWorkReturned => True
  | .doWorkThrew => True
  | _ => False

/-- The completed node is not armed, or it is the recent node and the flow has
not finished yet. -/
def Fresh (state : State) (seen : List Event) : Action → Prop
  | .onCompleted node =>
      state.armed node = none ∨
        (state.recentNode = some node ∧ .onFlowFinish ∉ seen)
  | .continueWork => .onFlowFinish ∉ seen
  | _ => True

instance (flowNodes : SparseArray NodeRef) :
    DecidablePred (CompletionOf flowNodes)
  | .onCompleted node => inferInstanceAs (Decidable (node ∈ flowNodes.values))
  | .continueWork | .doWorkReturned | .doWorkThrew => isTrue trivial
  | .setCallBack _ | .addNode _ | .start | .startWithNode _ | .revert
  | .dispose => isFalse id

instance (state : State) (seen : List Event) :
    DecidablePred (Fresh state seen)
  | .onCompleted node => inferInstanceAs
      (Decidable (state.armed node = none ∨
        (state.recentNode = some node ∧ .onFlowFinish ∉ seen)))
  | .continueWork => inferInstanceAs (Decidable (.onFlowFinish ∉ seen))
  | .setCallBack _ | .addNode _ | .start | .startWithNode _ | .revert
  | .dispose | .doWorkReturned | .doWorkThrew => isTrue trivial

/-- The single-advance law of a run that starts at node `s`. -/
structure SingleAdvance (ids : NodeRef → Int)
    (flowNodes : SparseArray NodeRef) (before : State) (s : Int)
    (actions : List Action) : Prop where
  ascending :
    (executed (flow.trace before (.startWithNode s :: actions))).map ids <+:
      flowNodes.keys.filter (fun id => s ≤ id)
  once :
    (executed (flow.trace before (.startWithNode s :: actions))).Nodup
  stale :
    AtEvery (fun earlier action =>
      ∀ node, action = .onCompleted node →
        (flow.run before (.startWithNode s :: earlier)).recentNode ≠
            some node →
          step (flow.run before (.startWithNode s :: earlier)) action =
            (flow.run before (.startWithNode s :: earlier), [])) actions
  finish :
    (flow.trace before (.startWithNode s :: actions)).count .onFlowFinish ≤ 1

/-! ## The nodes that hold a callback -/

/-- The run stands at index `last`: the nodes from `first` to `last` have been
executed once, in order, and exactly they are armed, each with its own
index. -/
structure Progress (flowNodes : SparseArray NodeRef) (first last : Nat)
    (state : State) (seen : List Event) : Prop where
  present : state.flowNodes = some flowNodes
  alive : state.isDisposed = false
  le : first ≤ last
  recent : ∃ entry, flowNodes.entries[last]? = some entry ∧
    state.recentNode = some entry.2
  armed : ∀ j entry, flowNodes.entries[j]? = some entry →
    state.armed entry.2 = if first ≤ j ∧ j ≤ last then some j else none
  ran : executed seen =
    (flowNodes.values.drop first).take (last + 1 - first)
  finish : seen.count .onFlowFinish ≤ 1
  finished : .onFlowFinish ∈ seen →
    flowNodes.entries[last + 1]? = none ∧ state.callBack = true

section Progress

variable {ids : NodeRef → Int} {flowNodes : SparseArray NodeRef}
  {first last : Nat} {state : State} {seen : List Event}

private theorem take_next {entry : Int × NodeRef}
    (le : first ≤ last) (atNext : flowNodes.entries[last + 1]? = some entry) :
    (flowNodes.values.drop first).take (last + 1 + 1 - first) =
      (flowNodes.values.drop first).take (last + 1 - first) ++ [entry.2] := by
  have count : last + 1 + 1 - first = (last + 1 - first) + 1 := by omega
  have position : first + (last + 1 - first) = last + 1 := by omega
  rw [count, List.take_add_one, List.getElem?_drop, position,
    SortedAssoc.values, List.getElem?_map, atNext]
  rfl

/-- A run that has just started at index `first`. -/
theorem progress_start (wellFormed : WellFormed ids state)
    (present : state.flowNodes = some flowNodes)
    {entry : Int × NodeRef}
    (atFirst : flowNodes.entries[first]? = some entry) :
    Progress flowNodes first first
      (step state (.startWithNode entry.1)).1
      (step state (.startWithNode entry.1)).2 := by
  rw [step_startWithNode (wellFormed.alive present) present atFirst]
  refine
    { present := by simpa using present
      alive := by simpa using wellFormed.alive present
      le := le_rfl
      recent := ⟨entry, atFirst, rfl⟩
      armed := ?_
      ran := ?_
      finish := by simp
      finished := by simp }
  · intro j other atOther
    rw [State.doWork_armed]
    by_cases same : other.2 = entry.2
    · obtain rfl := wellFormed.index_eq present atOther atFirst same
      simp [same]
    · have different : ¬ (first ≤ j ∧ j ≤ first) := by
        rintro ⟨below, above⟩
        obtain rfl : j = first := by omega
        obtain rfl := Option.some.inj (atOther.symm.trans atFirst)
        exact same rfl
      rw [if_neg same, if_neg different]
      have member := State.mem_stored_of_getElem? present atOther
      exact (State.reset_armed other.2).trans (if_pos member)
  · have value : flowNodes.values[first]? = some entry.2 := by
      rw [SortedAssoc.values, List.getElem?_map, atFirst, Option.map_some]
    have one : first + 1 - first = 0 + 1 := by omega
    rw [one, List.take_add_one, List.getElem?_drop, Nat.add_zero, value]
    rfl

/-- The index of a node of the array that holds a callback. -/
theorem Progress.index_of_armed
    (progress : Progress flowNodes first last state seen)
    {node : NodeRef} (member : node ∈ flowNodes.values)
    (isArmed : state.armed node ≠ none) :
    ∃ j entry, flowNodes.entries[j]? = some entry ∧ entry.2 = node ∧
      first ≤ j ∧ j ≤ last ∧ state.armed node = some j := by
  obtain ⟨entry, inEntries, rfl⟩ := List.mem_map.mp member
  obtain ⟨j, atIndex⟩ := List.mem_iff_getElem?.mp inEntries
  have armed := progress.armed j entry atIndex
  by_cases inside : first ≤ j ∧ j ≤ last
  · rw [if_pos inside] at armed
    exact ⟨j, entry, atIndex, rfl, inside.1, inside.2, armed⟩
  · rw [if_neg inside] at armed
    exact absurd armed isArmed

theorem Progress.recent_armed
    (progress : Progress flowNodes first last state seen)
    {node : NodeRef} (recent : state.recentNode = some node) :
    state.armed node = some last := by
  obtain ⟨entry, atLast, isRecent⟩ := progress.recent
  obtain rfl := Option.some.inj (isRecent.symm.trans recent)
  rw [progress.armed last entry atLast, if_pos ⟨progress.le, le_rfl⟩]

/-- The recent node completes and has a successor. -/
theorem Progress.advance
    (wellFormed : WellFormed ids state)
    (progress : Progress flowNodes first last state seen)
    (unfinished : .onFlowFinish ∉ seen)
    {entry : Int × NodeRef}
    (atNext : flowNodes.entries[last + 1]? = some entry) :
    Progress flowNodes first (last + 1)
      (State.doWork { state with recentNode := some entry.2 }
        entry.2 (last + 1)).1
      (seen ++ [.doWork entry.2]) := by
  refine
    { present := progress.present
      alive := progress.alive
      le := Nat.le_succ_of_le progress.le
      recent := ⟨entry, atNext, rfl⟩
      armed := ?_
      ran := ?_
      finish := ?_
      finished := ?_ }
  · intro j other atOther
    rw [State.doWork_armed]
    by_cases same : other.2 = entry.2
    · obtain rfl :=
        wellFormed.index_eq progress.present atOther atNext same
      have inside : first ≤ last + 1 := Nat.le_succ_of_le progress.le
      rw [if_pos same, if_pos ⟨inside, le_rfl⟩]
    · have different : j ≠ last + 1 := by
        rintro rfl
        obtain rfl := Option.some.inj (atOther.symm.trans atNext)
        exact same rfl
      rw [if_neg same]
      refine (progress.armed j other atOther).trans ?_
      congr 1
      exact propext ⟨fun inside => ⟨inside.1, by omega⟩,
        fun inside => ⟨inside.1, by omega⟩⟩
  · rw [executed_append, progress.ran, take_next progress.le atNext]
    rfl
  · rw [List.count_append, List.count_eq_zero.mpr unfinished]
    simp
  · intro member
    rcases List.mem_append.mp member with old | new
    · exact absurd old unfinished
    · simp at new

/-- The recent node completes and is the last one. -/
theorem Progress.finishes
    (progress : Progress flowNodes first last state seen)
    (unfinished : .onFlowFinish ∉ seen)
    (noNext : flowNodes.entries[last + 1]? = none) :
    Progress flowNodes first last state
      (seen ++ if state.callBack then [.onFlowFinish] else []) := by
  refine
    { present := progress.present
      alive := progress.alive
      le := progress.le
      recent := progress.recent
      armed := progress.armed
      ran := ?_
      finish := ?_
      finished := ?_ }
  · rw [executed_append, progress.ran]
    by_cases listening : state.callBack <;> simp [listening, executed]
  · rw [List.count_append, List.count_eq_zero.mpr unfinished]
    by_cases listening : state.callBack <;> simp [listening]
  · intro member
    rcases List.mem_append.mp member with old | new
    · exact absurd old unfinished
    · exact ⟨noNext, by simpa using new⟩

/-- The recent node completes: the run moves on by one node, or finishes. -/
theorem Progress.complete_recent
    (wellFormed : WellFormed ids state)
    (progress : Progress flowNodes first last state seen)
    {node : NodeRef} (recent : state.recentNode = some node)
    (unfinished : .onFlowFinish ∉ seen) :
    ∃ last', Progress flowNodes first last'
      (step state (.onCompleted node)).1
      (seen ++ (step state (.onCompleted node)).2) := by
  rw [step_onCompleted_of_armed (progress.recent_armed recent)]
  cases next : flowNodes.entries[last + 1]? with
  | some entry =>
      rw [State.findAndExecute_eq_of_next progress.present next]
      exact ⟨last + 1, progress.advance wellFormed unfinished next⟩
  | none =>
      rw [State.findAndExecute_eq_of_last progress.present next]
      exact ⟨last, progress.finishes unfinished next⟩

theorem Progress.unwind
    (progress : Progress flowNodes first last state seen)
    {action : Action}
    (unwinding : action = .doWorkReturned ∨ action = .doWorkThrew) :
    Progress flowNodes first last
      (step state action).1 (seen ++ (step state action).2) := by
  obtain ⟨outer, events, same, quiet, unfinished⟩ :=
    step_unwinding state unwinding
  rw [same]
  refine { progress with ran := ?_, finish := ?_, finished := ?_ }
  · rw [executed_append, quiet, List.append_nil]
    exact progress.ran
  · rw [List.count_append, List.count_eq_zero.mpr unfinished]
    exact progress.finish
  · intro member
    rcases List.mem_append.mp member with old | new
    · exact progress.finished old
    · exact absurd new unfinished

/-- Step lemma: a fresh completion keeps the progress. -/
theorem Progress.keeps
    (wellFormed : WellFormed ids state)
    (progress : Progress flowNodes first last state seen)
    {action : Action} (completion : CompletionOf flowNodes action)
    (fresh : Fresh state seen action) :
    ∃ last', Progress flowNodes first last'
      (step state action).1 (seen ++ (step state action).2) := by
  cases action with
  | onCompleted node =>
      rcases fresh with unarmed | ⟨recent, unfinished⟩
      · rw [step_onCompleted_of_unarmed unarmed, List.append_nil]
        exact ⟨last, progress⟩
      · exact progress.complete_recent wellFormed recent unfinished
  | continueWork =>
      obtain ⟨entry, _, recent⟩ := progress.recent
      rw [step_continueWork progress.alive recent]
      exact progress.complete_recent wellFormed recent fresh
  | doWorkReturned =>
      exact ⟨last, progress.unwind (Or.inl rfl)⟩
  | doWorkThrew =>
      exact ⟨last, progress.unwind (Or.inr rfl)⟩
  | setCallBack | addNode | start | startWithNode | revert | dispose =>
      exact completion.elim

/-- A completion that is not fresh executes a node again, or delivers
`onFlowFinish` again. -/
theorem Progress.breaks
    (progress : Progress flowNodes first last state seen)
    {action : Action} (completion : CompletionOf flowNodes action)
    (notFresh : ¬ Fresh state seen action) :
    (∃ node, node ∈ executed seen ∧
        (step state action).2 = [.doWork node]) ∨
      (.onFlowFinish ∈ seen ∧
        (step state action).2 = [.onFlowFinish]) := by
  have again : ∀ node, state.recentNode = some node →
      .onFlowFinish ∈ seen →
      (step state (.onCompleted node)).2 = [.onFlowFinish] := by
    intro node recent finished
    obtain ⟨noNext, listening⟩ := progress.finished finished
    rw [step_onCompleted_of_armed (progress.recent_armed recent),
      State.findAndExecute_eq_of_last progress.present noNext]
    simp [settle, listening]
  cases action with
  | onCompleted node =>
      simp only [Fresh, not_or, not_and, not_not] at notFresh
      obtain ⟨j, entry, atIndex, rfl, lower, upper, isArmed⟩ :=
        progress.index_of_armed completion notFresh.1
      rcases Nat.lt_or_eq_of_le upper with before | rfl
      · left
        obtain ⟨lastEntry, atLast, _⟩ := progress.recent
        obtain ⟨bound, _⟩ := List.getElem?_eq_some_iff.mp atLast
        have nextBound : j + 1 < flowNodes.entries.length := by omega
        have next := List.getElem?_eq_getElem nextBound
        refine ⟨flowNodes.entries[j + 1].2, ?_, ?_⟩
        · rw [progress.ran]
          apply List.mem_iff_getElem?.mpr
          refine ⟨j + 1 - first, ?_⟩
          have position : first + (j + 1 - first) = j + 1 := by omega
          rw [List.getElem?_take_of_lt (by omega), List.getElem?_drop,
            position, SortedAssoc.values, List.getElem?_map, next]
          rfl
        · rw [step_onCompleted_of_armed isArmed,
            State.findAndExecute_eq_of_next progress.present next]
          rfl
      · right
        obtain ⟨lastEntry, atLast, recent⟩ := progress.recent
        obtain rfl := Option.some.inj (atIndex.symm.trans atLast)
        have finished := notFresh.2 recent
        exact ⟨finished, again _ recent finished⟩
  | continueWork =>
      right
      have finished : Event.onFlowFinish ∈ seen := not_not.mp notFresh
      obtain ⟨entry, _, recent⟩ := progress.recent
      refine ⟨finished, ?_⟩
      rw [step_continueWork progress.alive recent]
      exact again _ recent finished
  | doWorkReturned => exact absurd trivial notFresh
  | doWorkThrew => exact absurd trivial notFresh
  | setCallBack | addNode | start | startWithNode | revert | dispose =>
      exact completion.elim

end Progress

/-! ## Runs -/

section Runs

variable {ids : NodeRef → Int} {before : State}
  {flowNodes : SparseArray NodeRef} {first : Nat} {entry : Int × NodeRef}

/-- Every completion of a run that starts at node `s` is fresh. -/
def FreshRun (before : State) (s : Int) (actions : List Action) : Prop :=
  AtEvery (fun earlier action =>
    Fresh (flow.run before (.startWithNode s :: earlier))
      (flow.trace before (.startWithNode s :: earlier)) action) actions

instance (before : State) (s : Int) :
    DecidablePred (FreshRun before s) :=
  fun actions => AtEvery.decidable _ actions

/-- Run lemma: a run of fresh completions makes progress. -/
theorem progress_run (wellFormed : WellFormed ids before)
    (present : before.flowNodes = some flowNodes)
    (atFirst : flowNodes.entries[first]? = some entry)
    {actions : List Action}
    (completions : ∀ action ∈ actions, CompletionOf flowNodes action)
    (fresh : FreshRun before entry.1 actions) :
    ∃ last, Progress flowNodes first last
      (flow.run before (.startWithNode entry.1 :: actions))
      (flow.trace before (.startWithNode entry.1 :: actions)) := by
  have every :
      AtEvery (fun earlier action =>
        CompletionOf flowNodes action ∧
          Fresh (flow.run before (.startWithNode entry.1 :: earlier))
            (flow.trace before (.startWithNode entry.1 :: earlier))
            action) actions := by
    intro earlier action after equality
    exact ⟨completions action (by simp [equality]),
      fresh earlier action after equality⟩
  refine every.induction
    (motive := fun actions => ∃ last, Progress flowNodes first last
      (flow.run before (.startWithNode entry.1 :: actions))
      (flow.trace before (.startWithNode entry.1 :: actions))) ?_ ?_
  · refine ⟨first, ?_⟩
    rw [Mealy.run_cons, Mealy.run_nil, Mealy.trace_cons, Mealy.trace_nil,
      List.append_nil]
    exact progress_start wellFormed present atFirst
  · rintro earlier action ⟨last, progress⟩ ⟨completion, isFresh⟩
    have kept :=
      progress.keeps (wellFormed.run (.startWithNode entry.1 :: earlier))
        completion isFresh
    rw [← List.cons_append, Mealy.run_concat, Mealy.trace_concat]
    exact kept

theorem Progress.ids_prefix {last : Nat} {state : State}
    {seen : List Event}
    (progress : Progress flowNodes first last state seen)
    (wellFormed : WellFormed ids state)
    (atFirst : flowNodes.entries[first]? = some entry) :
    (executed seen).map ids <+:
      flowNodes.keys.filter (fun id => entry.1 ≤ id) := by
  rw [SortedAssoc.filter_le_keys_eq_drop atFirst, progress.ran,
    List.map_take, List.map_drop, wellFormed.map_values progress.present]
  exact List.take_prefix _ _

/-- A flow built by `TaskFlow.Builder`, with any history, starts at a node of
the array and then sees completions only.  The single-advance law holds of
the run exactly when every completion is fresh. -/
theorem single_advance_iff_fresh (ids : NodeRef → Int)
    (withNodes : List NodeRef) (callBack : Bool) (history : List Action)
    {flowNodes : SparseArray NodeRef}
    (present :
      (flow.run (create ids withNodes callBack) history).flowNodes =
        some flowNodes)
    {s : Int} (member : s ∈ flowNodes.keys) {actions : List Action}
    (completions : ∀ action ∈ actions, CompletionOf flowNodes action) :
    SingleAdvance ids flowNodes
        (flow.run (create ids withNodes callBack) history) s actions ↔
      FreshRun (flow.run (create ids withNodes callBack) history)
        s actions := by
  have wellFormed := wellFormed_run ids withNodes callBack history
  generalize flow.run (create ids withNodes callBack) history = before
    at present wellFormed ⊢
  obtain ⟨entry, inEntries, rfl⟩ := List.mem_map.mp member
  obtain ⟨first, atFirst⟩ := List.mem_iff_getElem?.mp inEntries
  constructor
  · intro law
    by_contra stale
    obtain ⟨earlier, action, after, rfl, freshBefore, notFresh⟩ :=
      exists_first_failure stale
    obtain ⟨last, progress⟩ :=
      progress_run wellFormed present atFirst
        (fun other inEarlier =>
          completions other (List.mem_append_left _ inEarlier))
        freshBefore
    have whole :=
      flow.trace_split before (.startWithNode entry.1 :: earlier) after action
    rcases progress.breaks (completions action (by simp)) notFresh with
      ⟨node, ranBefore, again⟩ | ⟨finished, again⟩
    · have once := law.once
      rw [← List.cons_append, whole, flow_step, again, executed_append,
        executed_append] at once
      have disjoint := (List.nodup_append.mp once.of_append_left).2.2
      exact disjoint node ranBefore node (by simp [executed]) rfl
    · have finish := law.finish
      rw [← List.cons_append, whole, flow_step, again,
        List.count_append, List.count_append] at finish
      have positive := List.count_pos_iff.mpr finished
      simp only [List.count_singleton_self] at finish
      omega
  · intro fresh
    obtain ⟨last, progress⟩ :=
      progress_run wellFormed present atFirst completions fresh
    have afterRun :=
      wellFormed.run (.startWithNode entry.1 :: actions)
    have ascending := progress.ids_prefix afterRun atFirst
    refine
      { ascending := ascending
        once := ?_
        stale := ?_
        finish := progress.finish }
    · have idsNodup :=
        (SortedAssoc.nodup_keys.filter _).sublist ascending.sublist
      exact idsNodup.of_map ids
    · refine fresh.mono ?_
      rintro earlier _ isFresh node rfl notRecent
      rcases isFresh with unarmed | ⟨recent, _⟩
      · exact step_onCompleted_of_unarmed unarmed
      · exact absurd recent notRecent

end Runs

/-! ## A stale completion -/

/-- Two nodes: node `1` completes twice, and node `2` is executed twice. -/
theorem stale_completion_executes_again :
    ∃ flowNodes,
      (create (fun node => node) [1, 2] true).flowNodes = some flowNodes ∧
      ¬ SingleAdvance (fun node => node) flowNodes
          (create (fun node => node) [1, 2] true) 1
          [.doWorkReturned, .onCompleted 1, .doWorkReturned,
            .onCompleted 1] := by
  refine ⟨_, rfl, fun law => ?_⟩
  exact absurd law.once (by decide)

/-- Each of three nodes completes once, in order. -/
theorem single_advance_of_three :
    ∃ flowNodes,
      (create (fun node => node) [3, 1, 2] true).flowNodes =
          some flowNodes ∧
        SingleAdvance (fun node => node) flowNodes
          (create (fun node => node) [3, 1, 2] true) 1
          [.doWorkReturned, .onCompleted 1, .doWorkReturned,
            .continueWork, .doWorkReturned, .onCompleted 3] := by
  refine ⟨_, rfl, ?_⟩
  exact (single_advance_iff_fresh (fun node => node) [3, 1, 2] true []
    rfl (by decide) (by decide)).mpr (by decide)

end DripStone.TaskFlow
