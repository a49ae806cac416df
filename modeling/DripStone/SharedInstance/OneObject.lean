import DripStone.SharedInstance.Model

/-!
# One object for every caller

A slot is looked at and filled in two steps, so that several threads can find
it empty and each store an object of its own.  All callers get one object when
the last of these stores comes before the first answer.
-/

namespace DripStone.SharedInstance

open DripStone.Library

section

variable {Thread Key : Type} [DecidableEq Thread] [DecidableEq Key]
  (services : List Command)

/-! ## What the accesses say about the slots -/

/-- The slots hold what was stored last, and object identities are not used
twice. -/
structure Recorded (actions : List (Action Thread Key)) : Prop where
  current : ∀ slot, (processAfter services actions).slots slot =
    latest (accesses services actions) slot
  used : ∀ slot object, .store slot object ∈ accesses services actions →
    object < (processAfter services actions).next
  faithful : AtEvery Faithful (accesses services actions)
  fresh : AtEvery Fresh (accesses services actions)

theorem recorded (actions : List (Action Thread Key)) :
    Recorded services actions := by
  induction actions using List.reverseRecOn with
  | nil =>
      exact ⟨fun _ => rfl, fun _ _ stored => absurd stored (by
        simp [accesses]), atEvery_nil _, atEvery_nil _⟩
  | append_singleton before action inductionHypothesis =>
      rcases Process.perform_cases services (processAfter services before)
        action with
        ⟨thread, slot, isStep, atStore, output, slots, next⟩ |
        ⟨thread, slot, object, isStep, atRead, found, output, slots, next⟩ |
        ⟨other, output, slots, next⟩
      · constructor
        · intro read
          rw [processAfter_concat, accesses_concat, output, slots,
            latest_concat_store, ← inductionHypothesis.current]
          by_cases here : slot = read
          · rw [if_pos here, here, Function.update_self]
          · rw [if_neg here, Function.update_of_ne (Ne.symm here)]
        · intro stored object isStored
          rw [processAfter_concat, next]
          rw [accesses_concat, output] at isStored
          rcases List.mem_append.mp isStored with earlier | last
          · have below := inductionHypothesis.used stored object earlier
            exact Nat.lt_succ_of_lt below
          · obtain ⟨_, same⟩ :=
              Access.store.inj (List.mem_singleton.mp last)
            rw [same]
            exact Nat.lt_succ_self _
        · rw [accesses_concat, output, atEvery_concat]
          exact ⟨inductionHypothesis.faithful, trivial⟩
        · rw [accesses_concat, output, atEvery_concat]
          refine ⟨inductionHypothesis.fresh, ?_⟩
          intro earlier
          have below := inductionHypothesis.used slot _ earlier
          exact Nat.lt_irrefl _ below
      · constructor
        · intro read
          rw [processAfter_concat, accesses_concat, output, slots,
            latest_concat_answer]
          exact inductionHypothesis.current read
        · intro stored new isStored
          rw [processAfter_concat, next]
          rw [accesses_concat, output] at isStored
          exact inductionHypothesis.used stored new (by simpa using isStored)
        · rw [accesses_concat, output, atEvery_concat]
          refine ⟨inductionHypothesis.faithful, ?_⟩
          rw [Faithful, ← inductionHypothesis.current]
          exact found
        · rw [accesses_concat, output, atEvery_concat]
          exact ⟨inductionHypothesis.fresh, trivial⟩
      · have same : accesses services (before ++ [action]) =
            accesses services before := by
          rw [accesses_concat, output, List.append_nil]
        constructor
        · intro read
          rw [processAfter_concat, same, slots]
          exact inductionHypothesis.current read
        · rw [processAfter_concat, same, next]
          exact inductionHypothesis.used
        · rw [same]
          exact inductionHypothesis.faithful
        · rw [same]
          exact inductionHypothesis.fresh

/-- An object that a call returned was made before. -/
theorem answered_lt_next {actions : List (Action Thread Key)}
    {slot : Slot Key} {object : ObjectId}
    (answered : .answer slot object ∈ accesses services actions) :
    object < (processAfter services actions).next := by
  obtain ⟨before, after, whole⟩ := List.append_of_mem answered
  have known := recorded services actions
  apply known.used slot
  have isFaithful := known.faithful before (.answer slot object) after whole
  rw [whole]
  exact List.mem_append_left _ (mem_of_latest isFaithful)

/-! ## The condition -/

/-- A thread stores in a slot only while no call has returned its object. -/
def Prompt (before : List (Action Thread Key)) :
    Action Thread Key → Prop
  | .step thread => ∀ slot,
      (processAfter services before).pc thread = .store slot →
      ∀ object, .answer slot object ∉ accesses services before
  | _ => True

theorem prompt_iff_timely (actions : List (Action Thread Key)) :
    AtEvery (Prompt services) actions ↔
      AtEvery Timely (accesses services actions) := by
  induction actions using List.reverseRecOn with
  | nil => exact ⟨fun _ => atEvery_nil _, fun _ => atEvery_nil _⟩
  | append_singleton before action inductionHypothesis =>
      rw [atEvery_concat, inductionHypothesis, accesses_concat]
      rcases Process.perform_cases services (processAfter services before)
        action with
        ⟨thread, slot, rfl, atStore, output, -⟩ |
        ⟨thread, slot, object, rfl, atRead, found, output, -⟩ |
        ⟨other, output, -⟩
      · rw [output, atEvery_concat]
        apply and_congr_right
        intro _
        constructor
        · exact fun prompt => prompt slot atStore
        · intro timely stored atStored
          obtain rfl := Pc.store.inj (atStore.symm.trans atStored)
          exact timely
      · rw [output, atEvery_concat]
        apply and_congr_right
        intro _
        constructor
        · exact fun _ => trivial
        · intro _ stored atStored
          rw [atRead] at atStored
          exact absurd atStored (by simp)
      · rw [output, List.append_nil]
        apply and_iff_left_of_imp
        intro _
        cases action with
        | step thread =>
            intro slot atStore
            exact absurd atStore (other thread slot rfl)
        | _ => trivial

/-! ## Threads that have yet to answer -/

/-- A thread past its store, or past the check that found an object. -/
def Pc.returns (slot : Slot Key) : Pc Key → Prop
  | .exitMonitor => slot = .managerInstance
  | .log => slot = .managerInstance
  | .read reading => reading = slot
  | _ => False

/-- Such a thread goes on until it answers. -/
theorem Process.returns_kept (process : Process Thread Key)
    (action : Action Thread Key) {thread : Thread} {slot : Slot Key}
    (returns : (process.pc thread).returns slot)
    (filled : process.slots slot ≠ none) :
    ((process.perform services action).1.pc thread).returns slot ∨
      ∃ object, (process.perform services action).2 =
        [.answer slot object] := by
  have started : ∀ starting asked,
      ((process.startCall starting asked).pc thread).returns slot := by
    intro starting asked
    rw [Process.startCall]
    cases atStarting : process.pc starting with
    | idle =>
        by_cases same : thread = starting
        · rw [same, atStarting] at returns
          exact absurd returns id
        · simp only [Process.goto, Function.update_of_ne same]
          exact returns
    | _ => exact returns
  cases action with
  | getInstance starting => exact Or.inl (started starting _)
  | withEvent starting objectKey => exact Or.inl (started starting _)
  | withSticky starting objectKey => exact Or.inl (started starting _)
  | registerCommand manager command => exact Or.inl returns
  | emit flow event => exact Or.inl returns
  | step stepping =>
      rw [Process.perform, Process.advance]
      by_cases same : thread = stepping
      · subst same
        cases atThread : process.pc thread with
        | exitMonitor =>
            rw [atThread] at returns
            left
            simp only [Process.goto, Function.update_self]
            exact returns
        | log =>
            rw [atThread] at returns
            left
            simp only [Process.goto, Function.update_self]
            exact returns.symm
        | read reading =>
            rw [atThread] at returns
            obtain rfl : reading = slot := returns
            obtain ⟨object, found⟩ := Option.ne_none_iff_exists'.mp filled
            right
            exact ⟨object, by simp only [found]⟩
        | _ =>
            rw [atThread] at returns
            exact absurd returns id
      · left
        cases process.pc stepping with
        | idle => exact returns
        | check checked =>
            dsimp only
            split
            · simp only [Process.goto, Function.update_of_ne same]
              exact returns
            · simp only [Process.goto, Function.update_of_ne same]
              exact returns
        | enterMonitor =>
            dsimp only
            split
            · simp only [Process.goto, Function.update_of_ne same]
              exact returns
            · exact returns
        | _ =>
            simp only [Process.goto, Process.storeNew,
              Function.update_of_ne same]
            exact returns

/-- Every store is followed by an answer, or a thread has yet to give it. -/
theorem followed_or_returns (actions : List (Action Thread Key)) :
    ∀ before slot object after,
      accesses services actions = before ++ .store slot object :: after →
      (∃ answered, .answer slot answered ∈ after) ∨
        ∃ thread,
          ((processAfter services actions).pc thread).returns slot := by
  induction actions using List.reverseRecOn with
  | nil =>
      intro before slot object after whole
      exact absurd whole (by simp [accesses])
  | append_singleton initial action inductionHypothesis =>
      intro before slot object after whole
      rw [processAfter_concat]
      have older : ∀ middle,
          accesses services initial =
            before ++ .store slot object :: middle →
          after = middle ++
            ((processAfter services initial).perform services action).2 →
          (∃ answered, .answer slot answered ∈ after) ∨
            ∃ thread, (((processAfter services initial).perform services
              action).1.pc thread).returns slot := by
        rintro middle shorter rfl
        rcases inductionHypothesis before slot object middle shorter with
          ⟨answered, inMiddle⟩ | ⟨thread, returns⟩
        · exact Or.inl ⟨answered, List.mem_append_left _ inMiddle⟩
        · have filled : (processAfter services initial).slots slot ≠
              none := by
            rw [(recorded services initial).current, shorter]
            exact latest_append_store_ne_none _ _ _ _
          rcases Process.returns_kept services _ action returns filled with
            still | ⟨answered, output⟩
          · exact Or.inr ⟨thread, still⟩
          · refine Or.inl ⟨answered, ?_⟩
            rw [output]
            simp
      rw [accesses_concat] at whole
      rcases Process.perform_cases services (processAfter services initial)
        action with
        ⟨thread, stored, rfl, atStore, output, -⟩ |
        ⟨thread, read, answered, rfl, atRead, found, output, -⟩ |
        ⟨other, output, -⟩
      · rcases List.eq_nil_or_concat' after with rfl | ⟨middle, last, rfl⟩
        · rw [output] at whole
          obtain ⟨_, same⟩ := List.append_inj' whole rfl
          obtain ⟨rfl, -⟩ := Access.store.inj (List.singleton_inj.mp same)
          refine Or.inr ⟨thread, ?_⟩
          rw [Process.perform, Process.advance, atStore]
          simp only [Process.goto, Function.update_self]
          cases stored with
          | managerInstance => exact rfl
          | event objectKey => exact rfl
          | stickyEvent objectKey => exact rfl
        · rw [output, ← List.cons_append, ← List.append_assoc] at whole
          obtain ⟨shorter, same⟩ := List.append_inj' whole rfl
          exact older middle shorter (by rw [output, ← same])
      · rcases List.eq_nil_or_concat' after with rfl | ⟨middle, last, rfl⟩
        · rw [output] at whole
          obtain ⟨_, same⟩ := List.append_inj' whole rfl
          exact absurd (List.singleton_inj.mp same) (by simp)
        · rw [output, ← List.cons_append, ← List.append_assoc] at whole
          obtain ⟨shorter, same⟩ := List.append_inj' whole rfl
          exact older middle shorter (by rw [output, ← same])
      · rw [output, List.append_nil] at whole
        exact older after whole (by rw [output, List.append_nil])

/-! ## What is visible -/

/-- All callers get one object for a slot; a command registered through it is
found through what any caller gets, until another takes its name, and so is an
event emitted through it. -/
structure Shared (actions : List (Action Thread Key)) : Prop where
  one : OneObject (accesses services actions)
  registered : ∀ before manager command after,
    actions = before ++ .registerCommand manager command :: after →
    .answer .managerInstance manager ∈ accesses services before →
    (∀ another newer, .registerCommand another newer ∈ after →
      newer.name ≠ command.name) →
    ∀ other, .answer .managerInstance other ∈ accesses services actions →
      ((processAfter services actions).commands other).get command.name =
        some command
  emitted : ∀ before flow event after,
    actions = before ++ .emit flow event :: after →
    ∀ slot, .answer slot flow ∈ accesses services before →
    ∀ other, .answer slot other ∈ accesses services actions →
      event ∈ (processAfter services actions).emitted other

theorem get_after {before : List (Action Thread Key)} {manager : ObjectId}
    {command : Command} {after : List (Action Thread Key)}
    (made : manager < (processAfter services before).next)
    (last : ∀ another newer, .registerCommand another newer ∈ after →
      newer.name ≠ command.name) :
    manager < (processAfter services
        (before ++ .registerCommand manager command :: after)).next ∧
      ((processAfter services
        (before ++ .registerCommand manager command :: after)).commands
          manager).get command.name = some command := by
  induction after using List.reverseRecOn with
  | nil =>
      rw [processAfter_concat]
      refine ⟨made, ?_⟩
      simp only [Process.perform, Function.update_self]
      exact Commands.get_put_self _ _ _
  | append_singleton after action inductionHypothesis =>
      obtain ⟨below, found⟩ := inductionHypothesis (by
        intro another newer registered
        exact last another newer (List.mem_append_left _ registered))
      rw [← List.cons_append, ← List.append_assoc, processAfter_concat]
      constructor
      · exact Nat.lt_of_lt_of_le below
          (Process.next_le_perform services _ action)
      · rw [Process.perform_get services _ action below]
        · exact found
        · rintro newer rfl
          exact last manager newer (by simp)

theorem mem_emitted_after {before : List (Action Thread Key)}
    {flow : ObjectId} {event : Text} {after : List (Action Thread Key)}
    (made : flow < (processAfter services before).next) :
    flow < (processAfter services
        (before ++ .emit flow event :: after)).next ∧
      event ∈ (processAfter services
        (before ++ .emit flow event :: after)).emitted flow := by
  induction after using List.reverseRecOn with
  | nil =>
      rw [processAfter_concat]
      refine ⟨made, ?_⟩
      simp [Process.perform]
  | append_singleton after action inductionHypothesis =>
      obtain ⟨below, found⟩ := inductionHypothesis
      rw [← List.cons_append, ← List.append_assoc, processAfter_concat]
      constructor
      · exact Nat.lt_of_lt_of_le below
          (Process.next_le_perform services _ action)
      · exact Process.mem_emitted_perform services _ action below found

theorem shared_of_oneObject {actions : List (Action Thread Key)}
    (one : OneObject (accesses services actions)) :
    Shared services actions := by
  have earlier : ∀ {before action after},
      actions = before ++ action :: after →
      ∀ {access}, access ∈ accesses services before →
        access ∈ accesses services actions := by
    rintro before action after rfl access inBefore
    rw [accesses, Mealy.trace_append]
    exact List.mem_append_left _ inBefore
  constructor
  · exact one
  · intro before manager command after whole answered last other isOther
    have same := one _ manager other (earlier whole answered) isOther
    rw [← same, whole]
    exact (get_after services (answered_lt_next services answered) last).2
  · intro before flow event after whole slot answered other isOther
    have same := one _ flow other (earlier whole answered) isOther
    rw [← same, whole]
    exact (mem_emitted_after services
      (answered_lt_next services answered)).2

/-- The callers share one object for each slot in every run in which nothing
is stored in a slot after a call returned its object; and in every run at
whose end no call is under way, only then. -/
theorem shared_iff_prompt (actions : List (Action Thread Key)) :
    (AtEvery (Prompt services) actions → Shared services actions) ∧
      ((∀ thread, (processAfter services actions).pc thread = .idle) →
        Shared services actions → AtEvery (Prompt services) actions) := by
  have known := recorded services actions
  constructor
  · intro prompt
    apply shared_of_oneObject
    apply oneObject_of_timely known.faithful
    exact (prompt_iff_timely services actions).mp prompt
  · intro finished shared
    rw [prompt_iff_timely]
    apply timely_of_oneObject known.faithful known.fresh
    · intro before slot object after whole
      rcases followed_or_returns services actions before slot object after
        whole with answered | ⟨thread, returns⟩
      · exact answered
      · rw [finished thread] at returns
        exact absurd returns id
    · exact shared.one

end

/-- Two threads that find no manager: each gets one of its own, and a command
registered through the first is not found through the second. -/
def twoManagers : List (Action Bool Unit) :=
  [.getInstance true, .getInstance false, .step true, .step false] ++
    List.replicate 5 (.step true) ++ [.registerCommand 0 ⟨[], 1⟩] ++
    List.replicate 5 (.step false)

theorem two_managers : ¬ Shared [] twoManagers := by
  intro shared
  have first : .answer .managerInstance 0 ∈ accesses [] twoManagers := by
    decide
  have second : .answer .managerInstance 1 ∈ accesses [] twoManagers := by
    decide
  exact absurd (shared.one .managerInstance 0 1 first second) (by decide)

end DripStone.SharedInstance
