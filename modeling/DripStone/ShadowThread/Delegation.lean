import DripStone.Library.JavaThread

/-!
# `ShadowThread`

`start()` hands `run()` to a new pool and leaves the `Thread` it inherits from
alone, so that `join()` and `isAlive()` ask a thread that was never started.
-/

namespace DripStone.ShadowThread

open DripStone.Library

/-- The shadow threads of a program: the threads they inherit from, and the
tasks of the pools. -/
structure ShadowThreads (Object : Type) where
  inherited : Object → ThreadState
  -- a pool of its own for every `start()`, with one task
  submitted : List Object
  running : List Object

inductive Action (Object : Type) where
  | start (object : Object)
  | join (object : Object)
  | isAlive (object : Object)
  -- a pool takes up its task, and is through with it
  | beginTask (place : Nat)
  | endTask (place : Nat)
deriving DecidableEq, Repr

section Shadow

variable {Object : Type}

namespace ShadowThreads

def new : ShadowThreads Object := ⟨fun _ => .new, [], []⟩

/-- `newFixedThreadPool(5, "ShadowThread").execute(..)`. -/
def start (shadows : ShadowThreads Object) (object : Object) :
    ShadowThreads Object :=
  { shadows with submitted := shadows.submitted ++ [object] }

/-- `Thread.isAlive()`, which is not overridden. -/
def isAlive (shadows : ShadowThreads Object) (object : Object) : Bool :=
  (shadows.inherited object).isAlive

def perform (shadows : ShadowThreads Object) :
    Action Object → ShadowThreads Object × List (ThreadEvent Object)
  | .start object => (shadows.start object, [.started object])
  -- `Thread.join()` waits while `isAlive()`
  | .join object =>
      (shadows,
        if shadows.isAlive object then [] else [.joinReturned object])
  | .isAlive object =>
      (shadows, [.answeredAlive object (shadows.isAlive object)])
  | .beginTask place =>
      match shadows.submitted[place]? with
      | some object =>
          ({ shadows with
              submitted := shadows.submitted.eraseIdx place
              running := shadows.running ++ [object] },
            [.runBegan object])
      | none => (shadows, [])
  -- whether `run()` returned or threw
  | .endTask place =>
      match shadows.running[place]? with
      | some object =>
          ({ shadows with running := shadows.running.eraseIdx place },
            [.runEnded object])
      | none => (shadows, [])

end ShadowThreads

/-- The shadow threads under the calls of a program and the steps of the
pools; the trace is what can be observed. -/
def machine :
    Mealy (ShadowThreads Object) (Action Object) (ThreadEvent Object) :=
  ⟨ShadowThreads.perform⟩

def shadowsAfter (actions : List (Action Object)) : ShadowThreads Object :=
  machine.run .new actions

def historyOf (actions : List (Action Object)) :
    List (ThreadEvent Object) :=
  machine.trace .new actions

/-! ## The condition -/

/-- No thread is started twice, and none is asked or joined between its start
and the end of its `run()`. -/
def Proper (before : List (Action Object)) : Action Object → Prop
  | .start object => .started object ∉ historyOf before
  | .join object =>
      .started object ∈ historyOf before →
        .runEnded object ∈ historyOf before
  | .isAlive object =>
      .started object ∈ historyOf before →
        .runEnded object ∈ historyOf before
  | _ => True

/-! ## Tasks and history -/

/-- Where the task of a thread is, by its history. -/
structure Followed (shadows : ShadowThreads Object)
    (history : List (ThreadEvent Object)) : Prop where
  inherited : ∀ object, shadows.inherited object = .new
  submittedOnce : shadows.submitted.Nodup
  runningOnce : shadows.running.Nodup
  submitted : ∀ object, object ∈ shadows.submitted →
    .started object ∈ history ∧ .runBegan object ∉ history
  running : ∀ object, object ∈ shadows.running →
    .runBegan object ∈ history ∧ .runEnded object ∉ history
  begun : ∀ object, .runBegan object ∈ history → .started object ∈ history
  ended : ∀ object, .runEnded object ∈ history → .runBegan object ∈ history

theorem followed_new : Followed (.new : ShadowThreads Object) [] := by
  constructor <;> simp [ShadowThreads.new]

/-- A task taken out of a list that it stands in once is in it no more. -/
theorem not_mem_eraseIdx {objects : List Object} {place : Nat}
    {object : Object} (once : objects.Nodup)
    (found : objects[place]? = some object) :
    object ∉ objects.eraseIdx place := by
  obtain ⟨inBounds, isObject⟩ := List.getElem?_eq_some_iff.mp found
  have whole := List.take_append_drop place objects
  rw [List.drop_eq_getElem_cons inBounds, isObject] at whole
  rw [← whole, List.nodup_append, List.nodup_cons] at once
  rw [List.eraseIdx_eq_take_drop_succ, List.mem_append, not_or]
  refine ⟨?_, once.2.1.1⟩
  intro inFront
  exact once.2.2 object inFront object List.mem_cons_self rfl

/-- An answer says nothing about the tasks. -/
theorem Followed.answer {shadows : ShadowThreads Object}
    {history : List (ThreadEvent Object)} (followed : Followed shadows history)
    {event : ThreadEvent Object}
    (isAnswer : ∀ object, event ≠ .started object ∧
      event ≠ .runBegan object ∧ event ≠ .runEnded object) :
    Followed shadows (history ++ [event]) := by
  have started : ∀ object, .started object ∈ history ++ [event] ↔
      .started object ∈ history := by
    intro object
    simp [(isAnswer object).1.symm]
  have began : ∀ object, .runBegan object ∈ history ++ [event] ↔
      .runBegan object ∈ history := by
    intro object
    simp [(isAnswer object).2.1.symm]
  have ended : ∀ object, .runEnded object ∈ history ++ [event] ↔
      .runEnded object ∈ history := by
    intro object
    simp [(isAnswer object).2.2.symm]
  constructor
  · exact followed.inherited
  · exact followed.submittedOnce
  · exact followed.runningOnce
  · simpa only [started, began] using followed.submitted
  · simpa only [began, ended] using followed.running
  · simpa only [started, began] using followed.begun
  · simpa only [began, ended] using followed.ended

theorem Followed.start {shadows : ShadowThreads Object}
    {history : List (ThreadEvent Object)} (followed : Followed shadows history)
    {object : Object} (fresh : .started object ∉ history) :
    Followed (shadows.start object) (history ++ [.started object]) := by
  have unbegun : .runBegan object ∉ history :=
    fun began => fresh (followed.begun object began)
  constructor
  · exact followed.inherited
  · apply List.nodup_append.mpr
    refine ⟨followed.submittedOnce, by simp, ?_⟩
    intro other waits last isLast
    rw [List.mem_singleton.mp isLast]
    rintro rfl
    exact fresh (followed.submitted other waits).1
  · exact followed.runningOnce
  · intro other waits
    simp only [List.mem_append, List.mem_singleton, reduceCtorEq, or_false,
      ThreadEvent.started.injEq]
    rcases List.mem_append.mp waits with earlier | last
    · obtain ⟨started, stillUnbegun⟩ := followed.submitted other earlier
      exact ⟨Or.inl started, stillUnbegun⟩
    · obtain rfl := List.mem_singleton.mp last
      exact ⟨Or.inr rfl, unbegun⟩
  · simpa [ShadowThreads.start] using followed.running
  · intro other began
    apply List.mem_append_left
    exact followed.begun other (by simpa using began)
  · simpa using followed.ended

theorem Followed.beginTask {shadows : ShadowThreads Object}
    {history : List (ThreadEvent Object)} (followed : Followed shadows history)
    {place : Nat} {object : Object}
    (found : shadows.submitted[place]? = some object) :
    Followed
      { shadows with
        submitted := shadows.submitted.eraseIdx place
        running := shadows.running ++ [object] }
      (history ++ [.runBegan object]) := by
  obtain ⟨started, unbegun⟩ :=
    followed.submitted object (List.mem_of_getElem? found)
  have unended : .runEnded object ∉ history :=
    fun ended => unbegun (followed.ended object ended)
  have gone := not_mem_eraseIdx followed.submittedOnce found
  constructor
  · exact followed.inherited
  · exact followed.submittedOnce.sublist (List.eraseIdx_sublist _ _)
  · apply List.nodup_append.mpr
    refine ⟨followed.runningOnce, by simp, ?_⟩
    intro other runs last isLast
    rw [List.mem_singleton.mp isLast]
    rintro rfl
    exact unbegun (followed.running other runs).1
  · intro other waits
    have distinct : other ≠ object := fun same => gone (same ▸ waits)
    obtain ⟨startedOther, stillUnbegun⟩ :=
      followed.submitted other (List.mem_of_mem_eraseIdx waits)
    refine ⟨List.mem_append_left _ startedOther, ?_⟩
    simpa [distinct] using stillUnbegun
  · intro other runs
    rcases List.mem_append.mp runs with earlier | last
    · obtain ⟨began, stillUnended⟩ := followed.running other earlier
      exact ⟨List.mem_append_left _ began, by simpa using stillUnended⟩
    · obtain rfl := List.mem_singleton.mp last
      exact ⟨by simp, by simpa using unended⟩
  · intro other began
    apply List.mem_append_left
    rcases List.mem_append.mp began with earlier | last
    · exact followed.begun other earlier
    · obtain rfl := ThreadEvent.runBegan.inj (List.mem_singleton.mp last)
      exact started
  · intro other ended
    apply List.mem_append_left
    exact followed.ended other (by simpa using ended)

theorem Followed.endTask {shadows : ShadowThreads Object}
    {history : List (ThreadEvent Object)} (followed : Followed shadows history)
    {place : Nat} {object : Object}
    (found : shadows.running[place]? = some object) :
    Followed { shadows with running := shadows.running.eraseIdx place }
      (history ++ [.runEnded object]) := by
  obtain ⟨began, _⟩ := followed.running object (List.mem_of_getElem? found)
  have gone := not_mem_eraseIdx followed.runningOnce found
  constructor
  · exact followed.inherited
  · exact followed.submittedOnce
  · exact followed.runningOnce.sublist (List.eraseIdx_sublist _ _)
  · simpa using followed.submitted
  · intro other runs
    have distinct : other ≠ object := fun same => gone (same ▸ runs)
    obtain ⟨beganOther, unended⟩ :=
      followed.running other (List.mem_of_mem_eraseIdx runs)
    refine ⟨List.mem_append_left _ beganOther, ?_⟩
    simpa [distinct] using unended
  · simpa using followed.begun
  · intro other ended
    apply List.mem_append_left
    rcases List.mem_append.mp ended with earlier | last
    · exact followed.ended other earlier
    · obtain rfl := ThreadEvent.runEnded.inj (List.mem_singleton.mp last)
      exact began

/-- What a step makes known is allowed if and only if the step is proper, and
then the tasks are followed. -/
theorem Followed.perform {actions : List (Action Object)}
    {shadows : ShadowThreads Object}
    (followed : Followed shadows (historyOf actions))
    (action : Action Object) :
    (AtEvery Allowed (historyOf actions) →
      (AtEvery Allowed (historyOf actions ++ (shadows.perform action).2) ↔
        Proper actions action)) ∧
      (Proper actions action →
        Followed (shadows.perform action).1
          (historyOf actions ++ (shadows.perform action).2)) := by
  have dead : ∀ object, shadows.isAlive object = false := by
    intro object
    rw [ShadowThreads.isAlive, followed.inherited]
    rfl
  have one : ∀ {event : ThreadEvent Object} {output},
      output = [event] → AtEvery Allowed (historyOf actions) →
      (AtEvery Allowed (historyOf actions ++ output) ↔
        Allowed (historyOf actions) event) := by
    rintro event _ rfl allowed
    rw [atEvery_concat]
    exact and_iff_right allowed
  cases action with
  | start object =>
      exact ⟨fun allowed => one rfl allowed,
        fun proper => followed.start proper⟩
  | join object =>
      have output : (shadows.perform (.join object)).2 =
          [.joinReturned object] := by
        simp [ShadowThreads.perform, dead]
      rw [output]
      exact ⟨fun allowed => one rfl allowed,
        fun _ => followed.answer (by simp)⟩
  | isAlive object =>
      have output : (shadows.perform (.isAlive object)).2 =
          [.answeredAlive object false] := by
        simp [ShadowThreads.perform, dead]
      rw [output]
      refine ⟨fun allowed => (one rfl allowed).trans ?_,
        fun _ => followed.answer (by simp)⟩
      simp [Allowed, Proper]
  | beginTask place =>
      dsimp only [ShadowThreads.perform]
      cases found : shadows.submitted[place]? with
      | none =>
          simp only [List.append_nil]
          exact ⟨fun allowed => iff_of_true allowed trivial,
            fun _ => followed⟩
      | some object =>
          refine ⟨fun allowed => (one rfl allowed).trans ?_,
            fun _ => followed.beginTask found⟩
          exact iff_of_true
            (followed.submitted object (List.mem_of_getElem? found)) trivial
  | endTask place =>
      dsimp only [ShadowThreads.perform]
      cases found : shadows.running[place]? with
      | none =>
          simp only [List.append_nil]
          exact ⟨fun allowed => iff_of_true allowed trivial,
            fun _ => followed⟩
      | some object =>
          refine ⟨fun allowed => (one rfl allowed).trans ?_,
            fun _ => followed.endTask found⟩
          exact iff_of_true
            (followed.running object (List.mem_of_getElem? found)) trivial

theorem allowed_iff_proper (actions : List (Action Object)) :
    (AtEvery Allowed (historyOf actions) ↔ AtEvery Proper actions) ∧
      (AtEvery Proper actions →
        Followed (shadowsAfter actions) (historyOf actions)) := by
  induction actions using List.reverseRecOn with
  | nil =>
      exact ⟨iff_of_true (atEvery_nil _) (atEvery_nil _),
        fun _ => followed_new⟩
  | append_singleton before action inductionHypothesis =>
      obtain ⟨same, follow⟩ := inductionHypothesis
      have after : shadowsAfter (before ++ [action]) =
          ((shadowsAfter before).perform action).1 :=
        machine.run_concat _ _ _
      have history : historyOf (before ++ [action]) = historyOf before ++
          ((shadowsAfter before).perform action).2 :=
        machine.trace_concat _ _ _
      rw [after, history, atEvery_concat]
      constructor
      · constructor
        · intro allowed
          have allowedBefore := allowed.of_append
          have properBefore := same.mp allowedBefore
          have moves := (follow properBefore).perform action
          exact ⟨properBefore, (moves.1 allowedBefore).mp allowed⟩
        · rintro ⟨properBefore, proper⟩
          have moves := (follow properBefore).perform action
          exact (moves.1 (same.mpr properBefore)).mpr proper
      · rintro ⟨properBefore, proper⟩
        exact ((follow properBefore).perform action).2 proper

variable [DecidableEq Object]

/-- Threads allow what is observed of shadow threads if and only if every
action is proper. -/
theorem accepts_iff_proper (actions : List (Action Object)) :
    Accepts (historyOf actions) ↔ AtEvery Proper actions := by
  rw [accepts_iff_allowed]
  exact (allowed_iff_proper actions).1

end Shadow

/-- A thread is started and joined, and its `run()` has not begun. -/
theorem join_returns_early :
    ¬ Accepts (historyOf [.start (), .join (), .beginTask 0, .endTask 0]) := by
  decide

end DripStone.ShadowThread
