import DripStone.TaskFlow.Steps

/-!
# Invariants of every flow

What holds of a flow built by `TaskFlow.Builder` after any actions: node ids
never change, the array is keyed by them, and the array is gone exactly when
the flow is disposed.  Since ids are keys, a node object stands at one
position only.
-/

namespace DripStone.TaskFlow

open DripStone.Library

variable {ids : NodeRef → Int} {state : State}

/-- The shape of every reachable flow; `ids` are the ids the node objects
were constructed with. -/
structure WellFormed (ids : NodeRef → Int) (state : State) : Prop where
  getId : ∀ node, state.getId node = ids node
  keyed : ∀ flowNodes, state.flowNodes = some flowNodes →
    ∀ entry ∈ flowNodes.entries, entry.1 = ids entry.2
  disposed : state.isDisposed = state.flowNodes.isNone

theorem dispose_eq (state : State) :
    state.dispose =
      { state.reset with
        flowNodes := none
        recentNode :=
          if state.flowNodes = none then state.recentNode else none
        isDisposed := true
        callBack := false } := by
  have recent : state.reset.recentNode = state.recentNode := by
    simp [State.reset_eq]
  unfold State.dispose
  cases present : state.flowNodes with
  | none =>
      simp [State.reset_flowNodes, present, recent]
  | some flowNodes =>
      simp [State.reset_flowNodes, present]

theorem WellFormed.alive (wellFormed : WellFormed ids state)
    {flowNodes : SparseArray NodeRef}
    (present : state.flowNodes = some flowNodes) :
    state.isDisposed = false := by
  rw [wellFormed.disposed, present, Option.isNone_some]

private theorem keyed_put {flowNodes : SparseArray NodeRef}
    (keyed : ∀ entry ∈ flowNodes.entries, entry.1 = ids entry.2)
    (node : NodeRef) :
    ∀ entry ∈ (flowNodes.put (ids node) node).entries,
      entry.1 = ids entry.2 := by
  intro entry member
  rcases SortedAssoc.mem_of_mem_insertEntry member with rfl | old
  · rfl
  · exact keyed entry old

theorem WellFormed.move {action : Action} {after : State}
    {events : List Event} (wellFormed : WellFormed ids state)
    (move : Move state action after events) :
    WellFormed ids after := by
  cases move with
  | stays => exact wellFormed
  | listens => exact ⟨wellFormed.getId, wellFormed.keyed, wellFormed.disposed⟩
  | @grows flowNodes node alive present =>
      refine ⟨wellFormed.getId, ?_, ?_⟩
      · intro grown same
        cases same
        rw [wellFormed.getId]
        exact keyed_put (wellFormed.keyed flowNodes present) node
      · simpa using alive
  | starts alive present atIndex =>
      refine ⟨?_, ?_, ?_⟩
      · intro node
        rw [State.doWork_getId]
        exact (State.reset_getId node).trans (wellFormed.getId node)
      · simpa using wellFormed.keyed
      · simpa using wellFormed.disposed
  | advances isArmed present atNext =>
      refine ⟨?_, wellFormed.keyed, wellFormed.disposed⟩
      intro node
      rw [State.doWork_getId]
      exact wellFormed.getId node
  | finishes => exact wellFormed
  | disposes =>
      rw [dispose_eq]
      refine ⟨?_, ?_, rfl⟩
      · intro node
        exact (State.reset_getId node).trans (wellFormed.getId node)
      · intro flowNodes absent
        cases absent
  | unwinds => exact ⟨wellFormed.getId, wellFormed.keyed, wellFormed.disposed⟩

private theorem keyed_foldl (withNodes : List NodeRef)
    (flowNodes : SparseArray NodeRef)
    (keyed : ∀ entry ∈ flowNodes.entries, entry.1 = ids entry.2) :
    ∀ entry ∈
      (withNodes.foldl
        (fun f node => SparseArray.append f (ids node) node)
        flowNodes).entries,
      entry.1 = ids entry.2 := by
  induction withNodes generalizing flowNodes with
  | nil => exact keyed
  | cons node rest inductionHypothesis =>
      exact inductionHypothesis _ (keyed_put keyed node)

theorem wellFormed_create (ids : NodeRef → Int) (withNodes : List NodeRef)
    (callBack : Bool) :
    WellFormed ids (create ids withNodes callBack) := by
  refine ⟨fun _ => rfl, ?_, rfl⟩
  intro flowNodes same
  cases same
  exact keyed_foldl withNodes SortedAssoc.empty (by simp [SortedAssoc.empty])

private theorem foldl_append_perm (withNodes : List NodeRef)
    (flowNodes : SparseArray NodeRef)
    (distinct : (withNodes.map ids).Nodup)
    (fresh : ∀ node ∈ withNodes, ids node ∉ flowNodes.keys) :
    (withNodes.foldl
        (fun f node => SparseArray.append f (ids node) node)
        flowNodes).entries.Perm
      (withNodes.map (fun node => (ids node, node)) ++
        flowNodes.entries) := by
  induction withNodes generalizing flowNodes with
  | nil => exact List.Perm.refl _
  | cons node rest inductionHypothesis =>
      obtain ⟨notInRest, restDistinct⟩ := List.nodup_cons.mp distinct
      have inserted :
          (SparseArray.append flowNodes (ids node) node).entries.Perm
            ((ids node, node) :: flowNodes.entries) :=
        SortedAssoc.insertEntry_perm (fresh node List.mem_cons_self)
      have restFresh : ∀ other ∈ rest, ids other ∉
          (SparseArray.append flowNodes (ids node) node).keys := by
        intro other member inKeys
        have keys := (inserted.map Prod.fst).mem_iff.mp inKeys
        rcases List.mem_cons.mp keys with same | old
        · exact notInRest (List.mem_map.mpr ⟨other, member, same⟩)
        · exact fresh other (List.mem_cons_of_mem node member) old
      refine (inductionHypothesis _ restDistinct restFresh).trans ?_
      exact (inserted.append_left _).trans List.perm_middle

/-- A builder given nodes with distinct ids stores exactly these nodes, in
ascending id order. -/
theorem create_entries (ids : NodeRef → Int) {withNodes : List NodeRef}
    (distinct : (withNodes.map ids).Nodup) (callBack : Bool) :
    ∃ flowNodes,
      (create ids withNodes callBack).flowNodes = some flowNodes ∧
        flowNodes.entries.Perm
          (withNodes.map fun node => (ids node, node)) ∧
        flowNodes.keys = (withNodes.map ids).insertionSort (· ≤ ·) := by
  have stored :=
    foldl_append_perm withNodes SortedAssoc.empty distinct
      (by simp [SortedAssoc.empty, SortedAssoc.keys])
  refine ⟨_, rfl, by simpa [SortedAssoc.empty] using stored, ?_⟩
  refine @List.Perm.eq_of_pairwise _ (· ≤ ·) _ _ ?_ ?_ ?_ ?_
  · exact fun left right _ _ => le_antisymm
  · exact (List.pairwise_map.mpr (SortedAssoc.sorted _)).imp
      fun below => below.le
  · exact List.pairwise_insertionSort (· ≤ ·) _
  · have keys := stored.map Prod.fst
    refine keys.trans ?_
    simpa [SortedAssoc.empty, Function.comp_def] using
      (List.perm_insertionSort (· ≤ ·) (withNodes.map ids)).symm

theorem WellFormed.run (wellFormed : WellFormed ids state)
    (actions : List Action) : WellFormed ids (flow.run state actions) :=
  flow.run_invariant state
    (fun current action wellFormed =>
      wellFormed.move (step_moves current action))
    wellFormed actions

/-- Every run of a flow from its builder is well formed. -/
theorem wellFormed_run (ids : NodeRef → Int) (withNodes : List NodeRef)
    (callBack : Bool) (actions : List Action) :
    WellFormed ids (flow.run (create ids withNodes callBack) actions) :=
  (wellFormed_create ids withNodes callBack).run actions

theorem WellFormed.map_values (wellFormed : WellFormed ids state)
    {flowNodes : SparseArray NodeRef}
    (present : state.flowNodes = some flowNodes) :
    flowNodes.values.map ids = flowNodes.keys := by
  rw [SortedAssoc.values, SortedAssoc.keys, List.map_map]
  apply List.map_congr_left
  intro entry member
  exact (wellFormed.keyed flowNodes present entry member).symm

/-- A node object stands at one position of the array. -/
theorem WellFormed.index_eq (wellFormed : WellFormed ids state)
    {flowNodes : SparseArray NodeRef} {i j : Nat}
    {left right : Int × NodeRef}
    (present : state.flowNodes = some flowNodes)
    (atLeft : flowNodes.entries[i]? = some left)
    (atRight : flowNodes.entries[j]? = some right)
    (same : left.2 = right.2) : i = j := by
  have leftKey :=
    wellFormed.keyed flowNodes present left (List.mem_of_getElem? atLeft)
  have rightKey :=
    wellFormed.keyed flowNodes present right (List.mem_of_getElem? atRight)
  exact SortedAssoc.index_eq_of_key_eq atLeft atRight
    (by rw [leftKey, rightKey, same])

end DripStone.TaskFlow
