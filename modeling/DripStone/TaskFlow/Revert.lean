import DripStone.TaskFlow.Invariant

/-!
# `revert`

`revert` looks for the recent node in the array and reads the key in front of
it, whether the node was found and whether there is one in front.  It starts
there only if the key is not negative.
-/

namespace DripStone.TaskFlow

open DripStone.Library

variable {ids : NodeRef → Int} {state : State} {recent : NodeRef}

/-! ## The law -/

/-- The node in front of a stored one, in ascending id order. -/
def Predecessor (state : State) (recent previous : NodeRef) : Prop :=
  ∃ flowNodes, state.flowNodes = some flowNodes ∧
    (state.getId recent, recent) ∈ flowNodes.entries ∧
    flowNodes.IsPredecessor (state.getId recent)
      (state.getId previous, previous)

/-- `revert` goes back to the predecessor of the recent node, or does
nothing. -/
structure Reverts (state : State) (recent : NodeRef) : Prop where
  noThrow : ∀ failure, .thrown failure ∉ (step state .revert).2
  restarts : ∀ previous, Predecessor state recent previous →
    step state .revert =
        step state (.startWithNode (state.getId previous)) ∧
      (step state .revert).1.recentNode = some previous ∧
      (step state .revert).2 = [.doWork previous]
  stays : (¬ ∃ previous, Predecessor state recent previous) →
    (step state .revert).1.recentNode = state.recentNode ∧
      (step state .revert).1.nodes = state.nodes ∧
      (step state .revert).2 = []

/-! ## The position of the recent node -/

theorem indexOfValue_eq (wellFormed : WellFormed ids state)
    {flowNodes : SparseArray NodeRef} {i : Nat} {entry : Int × NodeRef}
    (present : state.flowNodes = some flowNodes)
    (atIndex : flowNodes.entries[i]? = some entry) :
    SparseArray.indexOfValue flowNodes entry.2 = i := by
  have found : flowNodes.indexOfValue? entry.2 = some i := by
    obtain ⟨bound, equal⟩ := List.getElem?_eq_some_iff.mp atIndex
    refine List.findIdx?_eq_some_iff_getElem.mpr
      ⟨bound, by simp [equal], ?_⟩
    intro j before
    have atEarlier := List.getElem?_eq_getElem
      (before.trans bound : j < flowNodes.entries.length)
    have different := mt (wellFormed.index_eq present atEarlier atIndex)
      (Nat.ne_of_lt before)
    simpa using different
  rw [SparseArray.indexOfValue, found]

theorem indexOfValue_eq_neg_one {flowNodes : SparseArray NodeRef}
    (absent : recent ∉ flowNodes.values) :
    SparseArray.indexOfValue flowNodes recent = -1 := by
  have found : flowNodes.indexOfValue? recent = none := by
    rw [SortedAssoc.indexOfValue?, List.findIdx?_eq_none_iff]
    intro entry member
    rw [decide_eq_false_iff_not]
    rintro rfl
    exact absent (List.mem_map_of_mem member)
  rw [SparseArray.indexOfValue, found]

section Steps

variable {flowNodes : SparseArray NodeRef}

/-- No key stands in front of the first node, or of a node that is not
stored. -/
theorem step_revert_of_not_found (alive : state.isDisposed = false)
    (isRecent : state.recentNode = some recent)
    (present : state.flowNodes = some flowNodes)
    (front : SparseArray.indexOfValue flowNodes recent ≤ 0) :
    step state .revert =
      (state, [.thrown .arrayIndexOutOfBoundsException]) := by
  have outside : SparseArray.indexOfValue flowNodes recent - 1 < 0 := by
    omega
  simp only [step, perform, State.revert, alive, isRecent, present,
    State.keyAt, if_pos outside, Bool.false_eq_true, if_false]
  rfl

/-- The key in front of the recent node decides. -/
theorem step_revert_of_previous (alive : state.isDisposed = false)
    (isRecent : state.recentNode = some recent)
    (present : state.flowNodes = some flowNodes) {j : Nat}
    (found : SparseArray.indexOfValue flowNodes recent = j + 1)
    {entry : Int × NodeRef}
    (atPrevious : flowNodes.entries[j]? = some entry) :
    step state .revert =
      if 0 ≤ entry.1 then step state (.startWithNode entry.1)
      else (state, []) := by
  have key : State.keyAt flowNodes
      (SparseArray.indexOfValue flowNodes recent - 1) = .ok entry.1 := by
    rw [found, State.keyAt, if_neg (by omega)]
    have position : ((j : Int) + 1 - 1).toNat = j := by omega
    rw [position, SortedAssoc.keyAt?, atPrevious]
    rfl
  have unfolded : state.revert =
      if entry.1 ≥ 0 then state.startWithNode entry.1
      else .ok (state, []) := by
    simp only [State.revert, alive, isRecent, present, key,
      Bool.false_eq_true, if_false]
    rfl
  rw [step, perform, unfolded]
  split_ifs <;> rfl

end Steps

theorem getId_eq (wellFormed : WellFormed ids state)
    {flowNodes : SparseArray NodeRef}
    (present : state.flowNodes = some flowNodes) {entry : Int × NodeRef}
    (member : entry ∈ flowNodes.entries) :
    (state.getId entry.2, entry.2) = entry := by
  rw [wellFormed.getId, ← wellFormed.keyed flowNodes present entry member]

/-- The predecessor stands one position in front. -/
theorem predecessor_iff (wellFormed : WellFormed ids state)
    {flowNodes : SparseArray NodeRef} {i : Nat} {entry : Int × NodeRef}
    (present : state.flowNodes = some flowNodes)
    (atIndex : flowNodes.entries[i]? = some entry) {previous : NodeRef} :
    Predecessor state entry.2 previous ↔
      ∃ j, i = j + 1 ∧ flowNodes.entries[j]? =
        some (state.getId previous, previous) := by
  have member := List.mem_of_getElem? atIndex
  have key : state.getId entry.2 = entry.1 :=
    congrArg Prod.fst (getId_eq wellFormed present member)
  rw [← SortedAssoc.isPredecessor_iff atIndex]
  constructor
  · rintro ⟨array, same, _, isPredecessor⟩
    obtain rfl := Option.some.inj (present.symm.trans same)
    rwa [key] at isPredecessor
  · intro isPredecessor
    refine ⟨flowNodes, present, ?_, ?_⟩
    · rwa [key]
    · rwa [key]

/-- Without a predecessor `revert` throws. -/
theorem not_reverts_of_front {flowNodes : SparseArray NodeRef}
    (alive : state.isDisposed = false)
    (isRecent : state.recentNode = some recent)
    (present : state.flowNodes = some flowNodes)
    (front : SparseArray.indexOfValue flowNodes recent ≤ 0) :
    ¬ Reverts state recent := by
  intro reverts
  have throws := reverts.noThrow .arrayIndexOutOfBoundsException
  rw [step_revert_of_not_found alive isRecent present front] at throws
  exact throws List.mem_cons_self

/-- With a predecessor `revert` is right if and only if its id is not
negative. -/
theorem reverts_iff_of_previous (wellFormed : WellFormed ids state)
    (alive : state.isDisposed = false)
    {flowNodes : SparseArray NodeRef} {entry before : Int × NodeRef}
    {j : Nat} (isRecent : state.recentNode = some entry.2)
    (present : state.flowNodes = some flowNodes)
    (atIndex : flowNodes.entries[j + 1]? = some entry)
    (atPrevious : flowNodes.entries[j]? = some before) :
    Reverts state entry.2 ↔ 0 ≤ before.1 := by
  have found := indexOfValue_eq wellFormed present atIndex
  have reverted := step_revert_of_previous alive isRecent present
    (by rw [found]; rfl) atPrevious
  have named := getId_eq wellFormed present (List.mem_of_getElem? atPrevious)
  have isPredecessor : Predecessor state entry.2 before.2 :=
    (predecessor_iff wellFormed present atIndex).mpr
      ⟨j, rfl, by rw [named]; exact atPrevious⟩
  constructor
  · intro reverts
    by_contra negative
    have delivers := (reverts.restarts before.2 isPredecessor).2.2
    rw [reverted, if_neg negative] at delivers
    exact absurd delivers (by simp)
  · intro notNegative
    rw [if_pos notNegative] at reverted
    have started := step_startWithNode alive present atPrevious
    refine ⟨?_, ?_, fun none_ => absurd ⟨_, isPredecessor⟩ none_⟩
    · intro failure
      rw [reverted, started, State.doWork_snd]
      simp
    · intro previous isPrevious
      obtain ⟨k, sameIndex, atOther⟩ :=
        (predecessor_iff wellFormed present atIndex).mp isPrevious
      obtain rfl : j = k := by omega
      obtain rfl := Option.some.inj (atPrevious.symm.trans atOther)
      exact ⟨reverted, by rw [reverted, started]; rfl, by
        rw [reverted, started]; rfl⟩

/-- `revert` does what it is to do if and only if the recent node has a
predecessor with an id that is not negative. -/
theorem reverts_iff (wellFormed : WellFormed ids state)
    (alive : state.isDisposed = false)
    (isRecent : state.recentNode = some recent) :
    Reverts state recent ↔
      ∃ previous, Predecessor state recent previous ∧
        0 ≤ state.getId previous := by
  obtain ⟨flowNodes, present⟩ : ∃ flowNodes,
      state.flowNodes = some flowNodes := by
    have kept := wellFormed.disposed
    rw [alive] at kept
    exact Option.isSome_iff_exists.mp
      (by simpa [Option.isNone_eq_false_iff] using kept.symm)
  by_cases stored : recent ∈ flowNodes.values
  · obtain ⟨entry, member, rfl⟩ := List.mem_map.mp stored
    obtain ⟨i, atIndex⟩ := List.mem_iff_getElem?.mp member
    cases i with
    | zero =>
        have found := indexOfValue_eq wellFormed present atIndex
        refine iff_of_false (not_reverts_of_front alive isRecent present
          (by rw [found]; rfl)) ?_
        rintro ⟨previous, isPredecessor, _⟩
        obtain ⟨j, impossible, _⟩ :=
          (predecessor_iff wellFormed present atIndex).mp isPredecessor
        omega
    | succ j =>
        obtain ⟨bound, _⟩ := List.getElem?_eq_some_iff.mp atIndex
        have atPrevious := List.getElem?_eq_getElem
          (by omega : j < flowNodes.entries.length)
        have named := getId_eq wellFormed present
          (List.mem_of_getElem? atPrevious)
        rw [reverts_iff_of_previous wellFormed alive isRecent present atIndex
          atPrevious]
        constructor
        · intro notNegative
          refine ⟨_, (predecessor_iff wellFormed present atIndex).mpr
            ⟨j, rfl, by rw [named]; exact atPrevious⟩, ?_⟩
          exact notNegative.trans_eq (congrArg Prod.fst named).symm
        · rintro ⟨previous, isPredecessor, notNegative⟩
          obtain ⟨k, sameIndex, atOther⟩ :=
            (predecessor_iff wellFormed present atIndex).mp isPredecessor
          obtain rfl : j = k := by omega
          rw [Option.some.inj (atPrevious.symm.trans atOther)]
          exact notNegative
  · refine iff_of_false (not_reverts_of_front alive isRecent present
      (by rw [indexOfValue_eq_neg_one stored]; omega)) ?_
    rintro ⟨previous, ⟨array, same, inArray, _⟩, _⟩
    obtain rfl := Option.some.inj (present.symm.trans same)
    exact stored (List.mem_map_of_mem inArray)

/-- In every flow that is not disposed, after any actions. -/
theorem run_reverts_iff (ids : NodeRef → Int) (withNodes : List NodeRef)
    (callBack : Bool) (actions : List Action) {recent : NodeRef}
    (alive : (flow.run (create ids withNodes callBack)
      actions).isDisposed = false)
    (isRecent : (flow.run (create ids withNodes callBack)
      actions).recentNode = some recent) :
    Reverts (flow.run (create ids withNodes callBack) actions) recent ↔
      ∃ previous,
        Predecessor (flow.run (create ids withNodes callBack) actions)
          recent previous ∧ 0 ≤ ids previous := by
  have wellFormed := wellFormed_run ids withNodes callBack actions
  rw [reverts_iff wellFormed alive isRecent]
  simp only [wellFormed.getId]

/-- Two nodes, of which the second runs. -/
theorem run_reverts_second :
    Reverts (flow.run (create (fun node => node) [1, 2] false)
        [.startWithNode 2]) 2 ↔
      ∃ previous,
        Predecessor (flow.run (create (fun node => node) [1, 2] false)
          [.startWithNode 2]) 2 previous ∧
          0 ≤ (fun node : NodeRef => (node : Int)) previous :=
  run_reverts_iff (fun node => node) [1, 2] false [.startWithNode 2]
    (by decide) (by decide)

/-- The first node runs, and `revert` throws. -/
theorem run_first_throws :
    (flow.run (create (fun node => node) [1, 2] false)
        [.start]).isDisposed = false ∧
      (flow.run (create (fun node => node) [1, 2] false)
        [.start]).recentNode = some 1 ∧
      ¬ Reverts (flow.run (create (fun node => node) [1, 2] false)
        [.start]) 1 := by
  refine ⟨by decide, by decide, ?_⟩
  intro reverts
  exact absurd (reverts.noThrow .arrayIndexOutOfBoundsException) (by decide)

end DripStone.TaskFlow
