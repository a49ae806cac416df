import DripStone.TaskFlow.Invariant

/-!
# Completions after `dispose`

`dispose` takes the callback from the nodes in the array.  A node object that
`addNode` has replaced under its own id is no longer in the array; when it was
running it keeps its callback, and its completion then reads the cleared
array.  After `dispose` every completion is silent exactly when every node
that holds a callback is in the array.
-/

namespace DripStone.TaskFlow

open DripStone.Library

/-- No completion has an effect, whatever is called after `dispose`. -/
def SilentAfterDispose (state : State) : Prop :=
  ∀ later node,
    step (flow.run state.dispose later) (.onCompleted node) =
      (flow.run state.dispose later, [])

/-- Every node that holds a callback is in the array. -/
def ArmedStored (state : State) : Prop :=
  ∀ node, state.armed node ≠ none → node ∈ state.stored

/-- `addNode` does not replace another node that holds a callback. -/
def KeepsArmed (state : State) : Action → Prop
  | .addNode taskNode =>
      ∀ node ∈ state.stored, state.getId node = state.getId taskNode →
        state.armed node ≠ none → node = taskNode
  | _ => True

instance (state : State) : DecidablePred (KeepsArmed state)
  | .addNode taskNode => inferInstanceAs
      (Decidable (∀ node ∈ state.stored,
        state.getId node = state.getId taskNode →
          state.armed node ≠ none → node = taskNode))
  | .setCallBack _ | .start | .startWithNode _ | .continueWork | .revert
  | .dispose | .onCompleted _ | .doWorkReturned | .doWorkThrew =>
      isTrue trivial

section Steps

variable {ids : NodeRef → Int} {state : State}

private theorem armedStored_doWork (stored : ArmedStored state)
    {node : NodeRef} {callBack : Nat} (member : node ∈ state.stored) :
    ArmedStored (State.doWork { state with recentNode := some node }
      node callBack).1 := by
  intro other isArmed
  rw [State.doWork_armed] at isArmed
  change other ∈ state.stored
  split_ifs at isArmed with same
  · exact same ▸ member
  · exact stored other isArmed

/-- Starting over disarms every node of the array. -/
theorem ArmedStored.reset (stored : ArmedStored state) (node : NodeRef) :
    state.reset.armed node = none := by
  rw [State.reset_armed]
  split_ifs with member
  · rfl
  · by_contra isArmed
    exact member (stored node isArmed)

/-- Step lemma: unless `addNode` replaces an armed node, every armed node
stays in the array. -/
theorem ArmedStored.keeps (wellFormed : WellFormed ids state)
    (stored : ArmedStored state) {action : Action}
    (kept : KeepsArmed state action) :
    ArmedStored (step state action).1 := by
  have move := step_moves state action
  generalize (step state action).1 = after at move ⊢
  generalize (step state action).2 = events at move
  cases move with
  | stays | finishes => exact stored
  | listens | unwinds => exact stored
  | @grows flowNodes added alive present isAdded =>
      subst isAdded
      intro node isArmed
      have member := stored node isArmed
      rw [State.stored_eq rfl]
      by_cases same : state.getId node = state.getId added
      · rw [kept node member same isArmed]
        exact List.mem_map_of_mem SortedAssoc.mem_put_self
      · rw [State.stored_eq present] at member
        obtain ⟨entry, inEntries, rfl⟩ := List.mem_map.mp member
        have key := wellFormed.keyed flowNodes present entry inEntries
        rw [wellFormed.getId, ← key] at same
        exact List.mem_map_of_mem
          (SortedAssoc.mem_put_of_ne same inEntries)
  | starts alive present atIndex =>
      refine @armedStored_doWork state.reset ?_ _ _ ?_
      · intro node isArmed
        exact absurd (stored.reset node) isArmed
      · exact State.mem_stored_of_getElem?
          (by rw [State.reset_flowNodes, present]) atIndex
  | advances isArmed present atNext =>
      exact armedStored_doWork stored
        (State.mem_stored_of_getElem? present atNext)
  | disposes =>
      intro node isArmed
      rw [dispose_eq] at isArmed
      exact absurd (stored.reset node) isArmed

/-- After `dispose` no call gives a node a callback. -/
theorem disposed_move (cleared : state.flowNodes = none) {action : Action}
    {after : State} {events : List Event}
    (move : Move state action after events) :
    after.flowNodes = none ∧
      ∀ node, after.armed node = state.armed node := by
  cases move with
  | stays | finishes => exact ⟨cleared, fun _ => rfl⟩
  | listens | unwinds => exact ⟨cleared, fun _ => rfl⟩
  | grows _ _ present => simp [cleared] at present
  | starts _ present => simp [cleared] at present
  | advances _ present => simp [cleared] at present
  | disposes =>
      rw [dispose_eq]
      refine ⟨rfl, fun node => ?_⟩
      change state.reset.armed node = _
      simp [State.reset_armed, State.stored, cleared]

/-- What `dispose` leaves for the calls after it: no array, and the callbacks
of the nodes it has not reached. -/
structure LeftByDispose (state current : State) : Prop where
  cleared : current.flowNodes = none
  armed : ∀ node, current.armed node =
    if node ∈ state.stored then none else state.armed node

/-- Run lemma: no call after `dispose` changes what it leaves. -/
theorem leftByDispose_run (state : State) (later : List Action) :
    LeftByDispose state (flow.run state.dispose later) := by
  refine flow.run_invariant state.dispose ?_ ?_ later
  · intro current action left
    obtain ⟨cleared, same⟩ :=
      disposed_move left.cleared (step_moves current action)
    exact ⟨cleared, fun node => (same node).trans (left.armed node)⟩
  · rw [dispose_eq]
    exact ⟨rfl, State.reset_armed⟩

/-- Completions are silent exactly when `dispose` reaches every callback. -/
theorem silent_iff_armedStored (state : State) :
    SilentAfterDispose state ↔ ArmedStored state := by
  constructor
  · intro silent node isArmed
    by_contra outside
    have notThrown := silent [] node
    obtain ⟨cleared, armed⟩ := leftByDispose_run state []
    rw [Mealy.run_nil] at notThrown cleared armed
    have kept := armed node
    rw [if_neg outside] at kept
    obtain ⟨i, holds⟩ := Option.ne_none_iff_exists'.mp isArmed
    rw [holds] at kept
    rw [step_onCompleted_of_armed kept,
      State.findAndExecute_eq_of_cleared cleared] at notThrown
    simp [settle] at notThrown
  · intro stored later node
    refine step_onCompleted_of_unarmed ?_
    rw [(leftByDispose_run state later).armed node]
    split_ifs with member
    · rfl
    · by_contra isArmed
      exact member (stored node isArmed)

end Steps

/-! ## Histories -/

/-- Run lemma: in a history that never replaces an armed node, every armed
node is in the array. -/
theorem armedStored_run (ids : NodeRef → Int) (withNodes : List NodeRef)
    (callBack : Bool) {history : List Action}
    (kept : AtEvery (fun before =>
      KeepsArmed (flow.run (create ids withNodes callBack) before))
        history) :
    ArmedStored (flow.run (create ids withNodes callBack) history) := by
  refine kept.induction
    (motive := fun history =>
      ArmedStored (flow.run (create ids withNodes callBack) history)) ?_ ?_
  · intro node isArmed
    exact absurd rfl isArmed
  · intro before action stored keeps
    rw [Mealy.run_concat, flow_step]
    exact stored.keeps (wellFormed_run ids withNodes callBack before) keeps

/-- `dispose` is final exactly when every node that holds a callback is in
the array, and it is after every history that never replaces such a node by
another one. -/
theorem dispose_final_iff_armed_stored (ids : NodeRef → Int)
    (withNodes : List NodeRef) (callBack : Bool) (history : List Action) :
    (SilentAfterDispose
        (flow.run (create ids withNodes callBack) history) ↔
      ArmedStored (flow.run (create ids withNodes callBack) history)) ∧
    (AtEvery (fun before =>
        KeepsArmed (flow.run (create ids withNodes callBack) before))
          history →
      SilentAfterDispose
        (flow.run (create ids withNodes callBack) history)) := by
  refine ⟨silent_iff_armedStored _, fun kept => ?_⟩
  exact (silent_iff_armedStored _).mpr
    (armedStored_run ids withNodes callBack kept)

/-- A node is added while another one is running. -/
theorem dispose_final_of_added :
    SilentAfterDispose
      (flow.run (create (fun node => node) [1, 2] true)
        [.start, .addNode 3, .onCompleted 1]) :=
  (dispose_final_iff_armed_stored (fun node => node) [1, 2] true
    [.start, .addNode 3, .onCompleted 1]).2 (by decide)

/-- Node object `1` replaces the running node object `0` of the same id; the
completion of node object `0` then throws. -/
theorem replaced_node_throws_after_dispose :
    ¬ SilentAfterDispose
      (flow.run (create (fun _ => 7) [0] true) [.start, .addNode 1]) := by
  intro silent
  have noEvent := congrArg Prod.snd (silent [] 0)
  exact absurd noEvent (by decide)

end DripStone.TaskFlow
