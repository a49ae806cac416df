import DripStone.BlockCanary.SyncBarrierRounds

/-!
# What a round detects

A round sends three probes and asks for more than three, so that it calls
`removeSyncBarrier` only with the help of probes that earlier rounds left.
-/

namespace DripStone.BlockCanary.SyncBarrier

open DripStone.Library

/-! ## The counter -/

/-- What an action other than the start of a round does to the counter. -/
theorem Canary.perform_barrierCount {canary : Canary} {token : Token}
    (inLoop : canary.pc.inLoop token) {action : Action}
    (noSync : ∀ round iteration,
      .handledSync round iteration ∉ (canary.perform action).2) :
    (canary.perform action).1.barrierCount = canary.barrierCount +
      (canary.perform action).2.countP Event.isHandledAsync := by
  cases action with
  | postSyncBarrier => rfl
  | removeSyncBarrier removed => rfl
  | post isAsynchronous place => rfl
  | onCheck timedOut =>
      have busy : canary.pc ≠ .idle := by
        intro atIdle
        rw [atIdle] at inLoop
        exact inLoop
      rw [perform, onCheck_of_ne_idle busy]
      rfl
  | handle place =>
      rw [perform, handle] at noSync ⊢
      split
      · rename_i message found
        rw [found] at noSync
        by_cases may : mayHandle canary.mMessages place message = true
        · simp only [may, ↓reduceIte] at noSync ⊢
          cases message with
          | asyncProbe round iteration => rfl
          | syncProbe round iteration =>
              exact absurd List.mem_cons_self (noSync round iteration)
          | barrier token => rfl
          | other isAsynchronous => rfl
        · rw [if_neg may]
          rfl
      · rfl
  | step =>
      have unheard : (canary.advance.2).countP Event.isHandledAsync = 0 := by
        rw [advance_output]
        cases canary.pc with
        | removeSyncBarrier asked =>
            dsimp only
            split
            · rfl
            · rfl
        | _ => rfl
      rw [perform, unheard, advance]
      cases atPc : canary.pc with
      | startCheckLeaking asked =>
          rw [atPc] at inLoop
          exact inLoop.elim
      | getSyncBarrierToken asked checkCount =>
          dsimp only
          split
          · split
            · rfl
            · rfl
          · rfl
      | compare asked checkCount =>
          dsimp only
          split
          · rfl
          · rfl
      | _ => rfl

/-- What a round has found so far: it is about to call `removeSyncBarrier`, or
has called it. -/
def Found (before actions : List Action) (token : Token) : Prop :=
  (during before actions).pc = .removeSyncBarrier token ∨
    .called token ∈ eventsOf before actions

/-- One more action: the round finds enough when it compares, and what it
found stays found. -/
theorem found_concat {before initial : List Action} {token : Token}
    {action : Action}
    (inLoop : (during before initial).pc.inLoop token) :
    Found before (initial ++ [action]) token ↔
      Found before initial token ∨
        (action = .step ∧ (during before initial).pc.isCompare = true ∧
          3 < (during before initial).barrierCount) := by
  rw [Found, Found, during_concat, eventsOf_concat, List.mem_append]
  generalize during before initial = canary at *
  have busy : canary.pc ≠ .idle := by
    intro atIdle
    rw [atIdle] at inLoop
    exact inLoop
  have kept : (canary.perform action).1.pc = canary.pc →
      .called token ∉ (canary.perform action).2 → action ≠ .step →
      ((canary.perform action).1.pc = .removeSyncBarrier token ∨
          .called token ∈ eventsOf before initial ∨
          .called token ∈ (canary.perform action).2 ↔
        (canary.pc = .removeSyncBarrier token ∨
          .called token ∈ eventsOf before initial) ∨
        (action = .step ∧ canary.pc.isCompare = true ∧
          3 < canary.barrierCount)) := by
    intro same silent other
    rw [same]
    tauto
  cases action with
  | postSyncBarrier => exact kept rfl List.not_mem_nil (by simp)
  | removeSyncBarrier removed => exact kept rfl List.not_mem_nil (by simp)
  | post isAsynchronous place => exact kept rfl List.not_mem_nil (by simp)
  | onCheck timedOut =>
      apply kept _ List.not_mem_nil (by simp)
      rw [Canary.perform, Canary.onCheck_of_ne_idle busy]
  | handle place =>
      apply kept (canary.handle_same place).1 _ (by simp)
      rw [Canary.perform, Canary.handle]
      split
      · split
        · rename_i message _ _
          cases message <;> simp [Canary.handleMessage]
        · exact List.not_mem_nil
      · exact List.not_mem_nil
  | step =>
      rw [Canary.perform, Canary.advance_output, Canary.advance]
      cases atPc : canary.pc with
      | idle => exact absurd atPc busy
      | startCheckLeaking asked =>
          rw [atPc] at inLoop
          exact inLoop.elim
      | getSyncBarrierToken asked checkCount =>
          dsimp only
          split
          · split
            · simp [Pc.isCompare]
            · simp [Pc.isCompare]
          · simp [Pc.isCompare]
      | compare asked checkCount =>
          rw [atPc] at inLoop
          obtain rfl : asked = token := inLoop
          by_cases enough : canary.barrierCount > 3
          · simp [enough, Pc.isCompare]
          · simp [enough]
      | removeSyncBarrier asked =>
          rw [atPc] at inLoop
          obtain rfl : asked = token := inLoop
          simp only [true_or, iff_true]
          right
          right
          split
          · exact List.mem_cons_self
          · exact List.mem_cons_self
      | sendAsync asked checkCount => simp [Pc.isCompare]
      | sendSync asked checkCount => simp [Pc.isCompare]
      | sleep asked checkCount => simp [Pc.isCompare]

variable {before actions : List Action} {token : Token}

/-- While no synchronous probe is handled the counter counts, and the round
finds the barrier when one of its comparisons finds enough. -/
theorem found_iff_enough
    (begins : (canaryAfter before).pc = .startCheckLeaking token)
    (goesOn : AtEvery (fun initial _ =>
      (during before initial).pc ≠ .idle) actions)
    (noSync : ∀ round iteration,
      .handledSync round iteration ∉ eventsOf before actions) :
    (during before actions).barrierCount =
        (eventsOf before actions).countP Event.isHandledAsync ∧
      (Found before actions token ↔ Enough before actions) := by
  induction actions using List.reverseRecOn with
  | nil =>
      have start := roundStart_pc begins
      refine ⟨start.2, iff_of_false ?_ ?_⟩
      · rintro (atRemove | called)
        · rw [during, Mealy.run_nil, start.1] at atRemove
          exact absurd atRemove (by simp)
        · exact absurd called List.not_mem_nil
      · exact fun enough => enough (atEvery_nil _)
  | append_singleton initial action inductionHypothesis =>
      obtain ⟨earlier, busy⟩ := atEvery_concat.mp goesOn
      simp only [eventsOf_concat, List.mem_append, not_or] at noSync
      obtain ⟨counted, found⟩ := inductionHypothesis earlier
        fun round iteration => (noSync round iteration).1
      have inLoop := (inLoop_of_goesOn begins earlier).1.resolve_left busy
      constructor
      · rw [during_concat, eventsOf_concat, List.countP_append,
          Canary.perform_barrierCount inLoop
            fun round iteration => (noSync round iteration).2, counted]
      · rw [found_concat inLoop, found, Enough, Enough, atEvery_concat,
          not_and_or]
        apply or_congr_right
        rw [counted]
        constructor
        · rintro ⟨rfl, atCompare, enough⟩ few
          have atMost := few rfl atCompare
          omega
        · intro many
          push Not at many
          exact many

/-- A round is sound and complete if and only if more than three probes were
handled at one of its comparisons, when the barrier blocks it all the time. -/
theorem sound_and_complete_iff (round : IsRound before actions token) :
    Complete before actions token ∧ Sound before actions token ↔
      (Blocked before actions token → Enough before actions) := by
  have detects : Blocked before actions token →
      (.called token ∈ eventsOf before actions ↔ Enough before actions) := by
    intro blocked
    rw [← (found_iff_enough round.begins round.goesOn blocked.noSync).2,
      Found, round.ends]
    simp
  constructor
  · rintro ⟨complete, _⟩ blocked
    exact (detects blocked).mp (complete blocked)
  · intro enough
    exact ⟨fun blocked => (detects blocked).mpr (enough blocked),
      sound_of_isRound round⟩

/-- A leaked barrier, and the canary that has just seen it. -/
def leaked : List Action :=
  [.postSyncBarrier, .onCheck true]

/-- A round in which every asynchronous probe is handled at once and no
synchronous one is. -/
def threeProbes : List Action :=
  List.replicate 3 Action.step ++ [Action.handle 1] ++
    List.replicate 5 Action.step ++ [Action.handle 2] ++
    List.replicate 5 Action.step ++ [Action.handle 3] ++
    List.replicate 3 Action.step

theorem threeProbes_fell_short :
    IsRound leaked threeProbes 0 ∧
      ¬ (Complete leaked threeProbes 0 ∧ Sound leaked threeProbes 0) := by
  refine ⟨⟨by decide, by decide, by decide⟩, ?_⟩
  rintro ⟨complete, _⟩
  have blocked : Blocked leaked threeProbes 0 := by
    constructor
    · decide
    · decide
    · have silent : (eventsOf leaked threeProbes).all
          Event.isHandledAsync = true := by decide
      intro round iteration handled
      exact absurd (List.all_eq_true.mp silent _ handled) (by
        simp [Event.isHandledAsync])
  exact absurd (complete blocked) (by decide)

/-- The second round of a canary whose first one left its three probes. -/
theorem sound_and_complete_of_leftovers :
    Complete
        (leaked ++ List.replicate 17 Action.step ++ [Action.onCheck true])
        ([Action.handle 1, Action.handle 2, Action.handle 3] ++
          List.replicate 3 Action.step ++
          [Action.handle 4, Action.step, Action.step]) 0 ∧
      Sound
        (leaked ++ List.replicate 17 Action.step ++ [Action.onCheck true])
        ([Action.handle 1, Action.handle 2, Action.handle 3] ++
          List.replicate 3 Action.step ++
          [Action.handle 4, Action.step, Action.step]) 0 := by
  refine (sound_and_complete_iff ⟨by decide, by decide, by decide⟩).mpr ?_
  intro _
  rw [Enough]
  decide

end DripStone.BlockCanary.SyncBarrier
