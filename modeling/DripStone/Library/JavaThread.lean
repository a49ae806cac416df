import DripStone.Library.Mealy

/-!
# `java.lang.Thread`

What can be observed of the threads of a program, as the histories that a state
for each thread accepts; and the same read off the history itself.
-/

namespace DripStone.Library

/-- What a program sees of its threads. -/
inductive ThreadEvent (Object : Type) where
  -- `start()` returned, or threw `IllegalThreadStateException`
  | started (object : Object)
  | startThrew (object : Object)
  | joinReturned (object : Object)
  | answeredAlive (object : Object) (alive : Bool)
  | runBegan (object : Object)
  | runEnded (object : Object)
deriving DecidableEq, Repr

inductive ThreadState where
  | new
  -- started, and `run()` has yet to begin
  | runnable
  | running
  | terminated
deriving DecidableEq, Repr

def ThreadState.isAlive : ThreadState → Bool
  | .new => false
  | .runnable => true
  | .running => true
  | .terminated => false

section Threads

variable {Object : Type}

def ThreadEvent.object : ThreadEvent Object → Object
  | .started object => object
  | .startThrew object => object
  | .joinReturned object => object
  | .answeredAlive object _ => object
  | .runBegan object => object
  | .runEnded object => object

/-- The state of its thread after an event, if the thread allows it. -/
def ThreadState.accept (state : ThreadState) :
    ThreadEvent Object → Option ThreadState
  | .started _ => if state = .new then some .runnable else none
  | .startThrew _ => if state = .new then none else some state
  -- `join()` waits while the thread is alive
  | .joinReturned _ => if state.isAlive then none else some state
  | .answeredAlive _ alive =>
      if alive = state.isAlive then some state else none
  | .runBegan _ => if state = .runnable then some .running else none
  | .runEnded _ => if state = .running then some .terminated else none

variable [DecidableEq Object]

def acceptEvent (states : Object → ThreadState)
    (event : ThreadEvent Object) : Option (Object → ThreadState) :=
  ((states event.object).accept event).map
    (Function.update states event.object)

/-- The states of all threads after a history, if they allow it. -/
def statesAfter (history : List (ThreadEvent Object)) :
    Option (Object → ThreadState) :=
  history.foldlM acceptEvent fun _ => .new

/-- The threads allow a history. -/
def Accepts (history : List (ThreadEvent Object)) : Prop :=
  (statesAfter history).isSome = true

instance (history : List (ThreadEvent Object)) :
    Decidable (Accepts history) :=
  inferInstanceAs (Decidable (_ = true))

theorem statesAfter_concat (history : List (ThreadEvent Object))
    (event : ThreadEvent Object) :
    statesAfter (history ++ [event]) =
      (statesAfter history).bind fun states =>
        acceptEvent states event := by
  rw [statesAfter, List.foldlM_append]
  simp [statesAfter]

/-! ## The laws of a thread -/

/-- What a thread allows after a history. -/
def Allowed (before : List (ThreadEvent Object)) :
    ThreadEvent Object → Prop
  | .started object => .started object ∉ before
  | .startThrew object => .started object ∈ before
  | .joinReturned object =>
      .started object ∈ before → .runEnded object ∈ before
  | .answeredAlive object alive =>
      alive = true ↔
        .started object ∈ before ∧ .runEnded object ∉ before
  | .runBegan object =>
      .started object ∈ before ∧ .runBegan object ∉ before
  | .runEnded object =>
      .runBegan object ∈ before ∧ .runEnded object ∉ before

/-- The history of one thread that is in a state. -/
def Describes (history : List (ThreadEvent Object)) (object : Object) :
    ThreadState → Prop
  | .new => .started object ∉ history ∧ .runBegan object ∉ history ∧
      .runEnded object ∉ history
  | .runnable => .started object ∈ history ∧ .runBegan object ∉ history ∧
      .runEnded object ∉ history
  | .running => .started object ∈ history ∧ .runBegan object ∈ history ∧
      .runEnded object ∉ history
  | .terminated => .started object ∈ history ∧ .runBegan object ∈ history ∧
      .runEnded object ∈ history

omit [DecidableEq Object] in
theorem Describes.accept_isSome_iff {history : List (ThreadEvent Object)}
    {event : ThreadEvent Object} {state : ThreadState}
    (describes : Describes history event.object state) :
    (state.accept event).isSome = true ↔ Allowed history event := by
  cases event with
  | answeredAlive object alive =>
      cases state <;> cases alive <;>
        simp_all [Describes, ThreadEvent.object, ThreadState.accept,
          ThreadState.isAlive, Allowed]
  | _ =>
      cases state <;>
        simp_all [Describes, ThreadEvent.object, ThreadState.accept,
          ThreadState.isAlive, Allowed]

omit [DecidableEq Object] in
theorem Describes.concat_self {history : List (ThreadEvent Object)}
    {event : ThreadEvent Object} {state next : ThreadState}
    (describes : Describes history event.object state)
    (accepted : state.accept event = some next) :
    Describes (history ++ [event]) event.object next := by
  cases event with
  | answeredAlive object alive =>
      cases state <;> cases alive <;>
        simp_all [Describes, ThreadEvent.object, ThreadState.accept,
          ThreadState.isAlive] <;> subst accepted <;> simp_all
  | _ =>
      cases state <;>
        simp_all [Describes, ThreadEvent.object, ThreadState.accept,
          ThreadState.isAlive] <;> subst accepted <;> simp_all

omit [DecidableEq Object] in
theorem Describes.concat_of_ne {history : List (ThreadEvent Object)}
    {event : ThreadEvent Object} {object : Object} {state : ThreadState}
    (describes : Describes history object state)
    (distinct : object ≠ event.object) :
    Describes (history ++ [event]) object state := by
  have others : ∀ other : ThreadEvent Object, other.object = object →
      (other ∈ history ++ [event] ↔ other ∈ history) := by
    intro other same
    rw [List.mem_append, List.mem_singleton]
    apply or_iff_left
    rintro rfl
    exact distinct same.symm
  have started := others (.started object) rfl
  have began := others (.runBegan object) rfl
  have ended := others (.runEnded object) rfl
  cases state <;> simp only [Describes, started, began, ended] <;>
    exact describes

/-- The states that a history leads to describe it. -/
theorem describes_of_statesAfter {history : List (ThreadEvent Object)}
    {states : Object → ThreadState}
    (after : statesAfter history = some states) (object : Object) :
    Describes history object (states object) := by
  induction history using List.reverseRecOn generalizing states with
  | nil =>
      obtain rfl := Option.some.inj after
      simp [Describes]
  | append_singleton before event inductionHypothesis =>
      rw [statesAfter_concat, Option.bind_eq_some_iff] at after
      obtain ⟨earlier, atEarlier, accepted⟩ := after
      obtain ⟨next, moves, rfl⟩ := Option.map_eq_some_iff.mp accepted
      have describes := inductionHypothesis atEarlier
      by_cases own : object = event.object
      · subst own
        rw [Function.update_self]
        exact describes.concat_self moves
      · rw [Function.update_of_ne own]
        exact describes.concat_of_ne own

/-- The threads allow a history when they allow each of its events. -/
theorem accepts_iff_allowed (history : List (ThreadEvent Object)) :
    Accepts history ↔ AtEvery Allowed history := by
  induction history using List.reverseRecOn with
  | nil => exact iff_of_true rfl (atEvery_nil _)
  | append_singleton before event inductionHypothesis =>
      rw [atEvery_concat, ← inductionHypothesis, Accepts, Accepts,
        statesAfter_concat]
      cases after : statesAfter before with
      | none => simp
      | some states =>
          have describes :=
            describes_of_statesAfter after event.object
          rw [Option.bind_some, acceptEvent, Option.isSome_map,
            describes.accept_isSome_iff]
          simp

end Threads

end DripStone.Library
