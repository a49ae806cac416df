import DripStone.BlockCanary.BarrierOrder

/-!
# Rounds

What a round is to do, and that it never removes the barrier once one of its
synchronous probes was handled or the token has changed.
-/

namespace DripStone.BlockCanary.SyncBarrier

open DripStone.Library

/-- The canary when a round that was called after some actions has reset the
counter. -/
def roundStart (before : List Action) : Canary :=
  canaryAfter (before ++ [.step])

/-- The canary after some more actions. -/
def during (before actions : List Action) : Canary :=
  machine.run (roundStart before) actions

/-- What happened since the counter was reset. -/
def eventsOf (before actions : List Action) : List Event :=
  machine.trace (roundStart before) actions

theorem during_concat (before actions : List Action) (action : Action) :
    during before (actions ++ [action]) =
      ((during before actions).perform action).1 :=
  machine.run_concat _ _ _

theorem eventsOf_concat (before actions : List Action) (action : Action) :
    eventsOf before (actions ++ [action]) =
      eventsOf before actions ++
        ((during before actions).perform action).2 :=
  machine.trace_concat _ _ _

theorem ordered_during (before actions : List Action) :
    Ordered (during before actions) := by
  have reached : during before actions =
      canaryAfter (before ++ [.step] ++ actions) :=
    (machine.run_append _ _ _).symm
  rw [reached]
  exact ordered_after _

/-- The actions between the reset and the end of a round. -/
structure IsRound (before actions : List Action) (token : Token) :
    Prop where
  begins : (canaryAfter before).pc = .startCheckLeaking token
  goesOn : AtEvery (fun initial _ => (during before initial).pc ≠ .idle)
    actions
  ends : (during before actions).pc = .idle

/-! ## The law -/

def Event.isHandledAsync : Event → Bool
  | .handledAsync _ _ => true
  | _ => false

/-- At the beginning of an iteration, the iterations before it. -/
def Pc.checkCount? : Pc → Option Nat
  | .getSyncBarrierToken _ checkCount =>
      if checkCount < CHECK_STRICTLY_MAX_COUNT then some checkCount else none
  | _ => none

def Pc.isCompare : Pc → Bool
  | .compare _ _ => true
  | _ => false

/-- The token stays the same in every iteration, the asynchronous message of
each probe is handled before the next iteration, and no synchronous probe is
handled. -/
structure Blocked (before actions : List Action) (token : Token) :
    Prop where
  sameToken : AtEvery (fun initial action => action = .step →
    ∀ checkCount ∈ (during before initial).pc.checkCount?,
      (during before initial).getSyncBarrierToken = token) actions
  handled : AtEvery (fun initial action => action = .step →
    ∀ checkCount ∈ (during before initial).pc.checkCount?, 0 < checkCount →
      .handledAsync (roundStart before).round checkCount ∈
        eventsOf before initial) actions
  noSync : ∀ round iteration,
    .handledSync round iteration ∉ eventsOf before actions

/-- A synchronous probe of the round is handled after the last asynchronous
one. -/
def SyncLast (before actions : List Action) : Prop :=
  ∃ earlier later iteration, eventsOf before actions =
      earlier ++ .handledSync (roundStart before).round iteration :: later ∧
    ∀ event ∈ later, event.isHandledAsync = false

/-- The first barrier is not the one of the round, at some time in it. -/
def TokenChanges (before actions : List Action) (token : Token) : Prop :=
  ¬ AtEvery (fun initial _ =>
    Canary.firstBarrier (during before initial).mMessages = some token)
    actions

def Complete (before actions : List Action) (token : Token) : Prop :=
  Blocked before actions token → .called token ∈ eventsOf before actions

def Sound (before actions : List Action) (token : Token) : Prop :=
  SyncLast before actions ∨ TokenChanges before actions token →
    ∀ removed, .removed removed ∉ eventsOf before actions

/-- At one of its comparisons more than three asynchronous probes were handled
since the counter was reset, the ones of earlier rounds counted. -/
def Enough (before actions : List Action) : Prop :=
  ¬ AtEvery (fun initial action => action = .step →
    (during before initial).pc.isCompare = true →
    (eventsOf before initial).countP Event.isHandledAsync ≤ 3) actions

/-! ## The steps of a round -/

/-- A place in the loop of a round. -/
def Pc.inLoop (token : Token) : Pc → Prop
  | .idle => False
  | .startCheckLeaking _ => False
  | .getSyncBarrierToken asked _ => asked = token
  | .sendAsync asked _ => asked = token
  | .sendSync asked _ => asked = token
  | .compare asked _ => asked = token
  | .removeSyncBarrier asked => asked = token
  | .sleep asked _ => asked = token

theorem Pc.token_of_inLoop {pc : Pc} {token : Token}
    (inLoop : pc.inLoop token) : pc.token = some token := by
  cases pc with
  | idle => exact inLoop.elim
  | startCheckLeaking asked => exact inLoop.elim
  | _ => exact congrArg some inLoop

theorem Canary.handle_same (canary : Canary) (place : Nat) :
    (canary.handle place).1.pc = canary.pc ∧
      (canary.handle place).1.round = canary.round := by
  rw [handle]
  split
  · rename_i message _
    by_cases may : mayHandle canary.mMessages place message = true
    · rw [if_pos may]
      cases message <;> exact ⟨rfl, rfl⟩
    · rw [if_neg may]
      exact ⟨rfl, rfl⟩
  · exact ⟨rfl, rfl⟩

theorem Canary.onCheck_of_ne_idle {canary : Canary}
    (busy : canary.pc ≠ .idle) (timedOut : Bool) :
    canary.onCheck timedOut = canary := by
  rw [onCheck]
  split
  · rename_i _ atIdle _
    exact absurd atIdle busy
  · rfl

/-- A round goes on asking for its token, or ends. -/
theorem Canary.perform_inLoop {canary : Canary} {token : Token}
    (inLoop : canary.pc.inLoop token) (action : Action) :
    ((canary.perform action).1.pc = .idle ∨
        (canary.perform action).1.pc.inLoop token) ∧
      (canary.perform action).1.round = canary.round := by
  have busy : canary.pc ≠ .idle := by
    intro atIdle
    rw [atIdle] at inLoop
    exact inLoop
  cases action with
  | postSyncBarrier => exact ⟨Or.inr inLoop, rfl⟩
  | removeSyncBarrier removed => exact ⟨Or.inr inLoop, rfl⟩
  | post isAsynchronous place => exact ⟨Or.inr inLoop, rfl⟩
  | handle place =>
      obtain ⟨samePc, sameRound⟩ := canary.handle_same place
      refine ⟨Or.inr ?_, sameRound⟩
      rw [perform, samePc]
      exact inLoop
  | onCheck timedOut =>
      rw [perform, onCheck_of_ne_idle busy]
      exact ⟨Or.inr inLoop, rfl⟩
  | step =>
      rw [perform, advance]
      cases atPc : canary.pc with
      | idle => exact absurd atPc busy
      | startCheckLeaking asked =>
          rw [atPc] at inLoop
          exact inLoop.elim
      | getSyncBarrierToken asked checkCount =>
          rw [atPc] at inLoop
          dsimp only
          split
          · split
            · exact ⟨Or.inl rfl, rfl⟩
            · exact ⟨Or.inr inLoop, rfl⟩
          · exact ⟨Or.inl rfl, rfl⟩
      | compare asked checkCount =>
          rw [atPc] at inLoop
          dsimp only
          split
          · exact ⟨Or.inr inLoop, rfl⟩
          · exact ⟨Or.inr inLoop, rfl⟩
      | removeSyncBarrier asked => exact ⟨Or.inl rfl, rfl⟩
      | _ =>
          rw [atPc] at inLoop
          exact ⟨Or.inr inLoop, rfl⟩

variable {before actions : List Action} {token : Token}

theorem roundStart_pc
    (begins : (canaryAfter before).pc = .startCheckLeaking token) :
    (roundStart before).pc = .getSyncBarrierToken token 0 ∧
      (roundStart before).barrierCount = 0 := by
  rw [roundStart, canaryAfter_concat, Canary.perform, Canary.advance, begins]
  exact ⟨rfl, rfl⟩

/-- The round asks for its token until it ends. -/
theorem inLoop_of_goesOn
    (begins : (canaryAfter before).pc = .startCheckLeaking token)
    (goesOn : AtEvery (fun initial _ =>
      (during before initial).pc ≠ .idle) actions) :
    ((during before actions).pc = .idle ∨
        (during before actions).pc.inLoop token) ∧
      (during before actions).round = (roundStart before).round := by
  apply goesOn.induction
  · refine ⟨Or.inr ?_, rfl⟩
    have start := (roundStart_pc begins).1
    rw [during, Mealy.run_nil, start]
    exact rfl
  · rintro initial action ⟨atInitial, sameRound⟩ busy
    obtain ⟨further, stillSame⟩ :=
      Canary.perform_inLoop (atInitial.resolve_left busy) action
    rw [during_concat]
    exact ⟨further, stillSame.trans sameRound⟩

/-- Only the last step of a round that found enough is heard of. -/
theorem Canary.advance_output (canary : Canary) :
    canary.advance.2 =
      match canary.pc with
      | .removeSyncBarrier token =>
          if .barrier token ∈ canary.mMessages then
            [.called token, .removed token]
          else [.called token]
      | _ => [] := by
  rw [advance]
  cases canary.pc with
  | getSyncBarrierToken asked checkCount =>
      dsimp only
      split
      · split
        · rfl
        · rfl
      · rfl
  | compare asked checkCount =>
      dsimp only
      split
      · rfl
      · rfl
  | _ => rfl

/-! ## Soundness -/

/-- A barrier that is not in the queue is not put there again. -/
theorem Canary.absent_perform {canary : Canary} {token : Token}
    (old : token < canary.mNextBarrierToken)
    (absent : .barrier token ∉ canary.mMessages) (action : Action) :
    .barrier token ∉ (canary.perform action).1.mMessages := by
  cases action with
  | postSyncBarrier =>
      intro inAfter
      rcases List.mem_append.mp inAfter with inBefore | new
      · exact absent inBefore
      · rw [Message.barrier.inj (List.mem_singleton.mp new)] at old
        exact absurd old (lt_irrefl _)
  | removeSyncBarrier removed =>
      exact fun inAfter => absent (List.mem_of_mem_erase inAfter)
  | post isAsynchronous place =>
      intro inAfter
      apply absent
      rw [← List.take_append_drop place canary.mMessages, List.mem_append]
      simpa [perform] using inAfter
  | handle place =>
      rw [perform, handle]
      split
      · rename_i message _
        by_cases may : mayHandle canary.mMessages place message = true
        · rw [if_pos may]
          have gone : .barrier token ∉ canary.mMessages.eraseIdx place :=
            fun inAfter => absent (List.mem_of_mem_eraseIdx inAfter)
          cases message <;> exact gone
        · rw [if_neg may]
          exact absent
      · exact absent
  | onCheck timedOut =>
      rw [perform, onCheck]
      split
      · split
        · exact absent
        · exact absent
      · exact absent
  | step =>
      rw [perform, advance]
      cases canary.pc with
      | getSyncBarrierToken asked checkCount =>
          dsimp only
          split
          · split
            · exact absent
            · exact absent
          · exact absent
      | compare asked checkCount =>
          dsimp only
          split
          · exact absent
          · exact absent
      | sendAsync asked checkCount =>
          intro inAfter
          rcases List.mem_append.mp inAfter with inBefore | new
          · exact absent inBefore
          · exact absurd (List.mem_singleton.mp new) (by simp)
      | sendSync asked checkCount =>
          intro inAfter
          rcases List.mem_append.mp inAfter with inBefore | new
          · exact absent inBefore
          · exact absurd (List.mem_singleton.mp new) (by simp)
      | removeSyncBarrier asked =>
          exact fun inAfter => absent (List.mem_of_mem_erase inAfter)
      | _ => exact absent

/-- What an action does to a synchronous probe: it was in the queue, and could
be handled. -/
theorem Canary.handled_of_mem {canary : Canary} {action : Action}
    {round iteration : Nat}
    (handled : .handledSync round iteration ∈ (canary.perform action).2) :
    ∃ place, canary.mMessages[place]? =
        some (.syncProbe round iteration) ∧
      mayHandle canary.mMessages place (.syncProbe round iteration) =
        true := by
  cases action with
  | postSyncBarrier => exact absurd handled List.not_mem_nil
  | removeSyncBarrier removed => exact absurd handled List.not_mem_nil
  | post isAsynchronous place => exact absurd handled List.not_mem_nil
  | onCheck timedOut => exact absurd handled List.not_mem_nil
  | handle place =>
      rw [perform, handle] at handled
      refine ⟨place, ?_⟩
      split at handled
      · rename_i message found
        by_cases may : mayHandle canary.mMessages place message = true
        · rw [if_pos may] at handled
          cases message with
          | syncProbe sentBy sent =>
              obtain ⟨rfl, rfl⟩ :=
                Event.handledSync.inj (List.mem_singleton.mp handled)
              exact ⟨found, may⟩
          | _ => exact absurd handled (by simp [handleMessage])
        · rw [if_neg may] at handled
          exact absurd handled List.not_mem_nil
      · exact absurd handled List.not_mem_nil
  | step =>
      rw [perform, advance_output] at handled
      cases atPc : canary.pc with
      | removeSyncBarrier asked =>
          rw [atPc] at handled
          dsimp only at handled
          split at handled
          · exact absurd handled (by simp)
          · exact absurd handled (by simp)
      | _ =>
          rw [atPc] at handled
          exact absurd handled List.not_mem_nil

/-- A round takes no barrier out of the queue but its own, with its last
step. -/
theorem Canary.removed_of_mem {canary : Canary} {action : Action}
    {token : Token}
    (removed : .removed token ∈ (canary.perform action).2) :
    action = .step ∧ canary.pc = .removeSyncBarrier token ∧
      .barrier token ∈ canary.mMessages := by
  cases action with
  | postSyncBarrier => exact absurd removed List.not_mem_nil
  | removeSyncBarrier other => exact absurd removed List.not_mem_nil
  | post isAsynchronous place => exact absurd removed List.not_mem_nil
  | onCheck timedOut => exact absurd removed List.not_mem_nil
  | handle place =>
      rw [perform, handle] at removed
      split at removed
      · rename_i message _
        split at removed
        · cases message <;> exact absurd removed (by simp [handleMessage])
        · exact absurd removed List.not_mem_nil
      · exact absurd removed List.not_mem_nil
  | step =>
      rw [perform, advance_output] at removed
      cases atPc : canary.pc with
      | removeSyncBarrier asked =>
          rw [atPc] at removed
          dsimp only at removed
          split at removed
          · rename_i present
            obtain rfl : token = asked := by simpa using removed
            exact ⟨rfl, rfl, present⟩
          · exact absurd removed (by simp)
      | _ =>
          rw [atPc] at removed
          exact absurd removed List.not_mem_nil

/-- As long as the barrier is in the queue it is the first one, and no
synchronous probe of the round is handled. -/
theorem blocked_of_present
    (begins : (canaryAfter before).pc = .startCheckLeaking token)
    (goesOn : AtEvery (fun initial _ =>
      (during before initial).pc ≠ .idle) actions)
    (present : .barrier token ∈ (during before actions).mMessages) :
    (∀ iteration, .handledSync (roundStart before).round iteration ∉
        eventsOf before actions) ∧
      AtEvery (fun initial _ => Canary.firstBarrier
        (during before initial).mMessages = some token) actions := by
  induction actions using List.reverseRecOn with
  | nil =>
      exact ⟨fun _ handled => absurd handled List.not_mem_nil, atEvery_nil _⟩
  | append_singleton initial action inductionHypothesis =>
      obtain ⟨earlier, busy⟩ := atEvery_concat.mp goesOn
      obtain ⟨atInitial, sameRound⟩ := inLoop_of_goesOn begins earlier
      have ordered := ordered_during before initial
      have asks := Pc.token_of_inLoop (atInitial.resolve_left busy)
      rw [during_concat] at present
      have presentBefore :
          .barrier token ∈ (during before initial).mMessages := by
        by_contra absent
        exact Canary.absent_perform (ordered.posted token asks) absent
          action present
      obtain ⟨unhandled, first⟩ := inductionHypothesis earlier presentBefore
      constructor
      · intro iteration handled
        rw [eventsOf_concat] at handled
        rcases List.mem_append.mp handled with before_ | now
        · exact unhandled iteration before_
        · obtain ⟨place, found, may⟩ := Canary.handled_of_mem now
          rw [← sameRound] at found may
          rw [ordered.not_mayHandle asks presentBefore found] at may
          exact absurd may (by decide)
      · exact atEvery_concat.mpr
          ⟨first, ordered.firstBarrier asks presentBefore⟩

theorem sound_of_isRound (round : IsRound before actions token) :
    Sound before actions token := by
  intro disturbed removed isRemoved
  -- the removal is the last step
  have split : ¬ AtEvery (fun initial action => ∀ event ∈
      ((during before initial).perform action).2, event ≠ .removed removed)
      actions := by
    intro every
    exact (Mealy.forall_mem_trace_iff machine (roundStart before) _ _).mpr
      every _ isRemoved rfl
  obtain ⟨initial, action, rest, rfl, _, removes⟩ :=
    exists_first_failure split
  push Not at removes
  obtain ⟨event, here, rfl⟩ := removes
  obtain ⟨rfl, atRemove, present⟩ := Canary.removed_of_mem here
  have earlier := round.goesOn.of_append
  have asks := (inLoop_of_goesOn round.begins earlier).1
  rw [atRemove] at asks
  obtain rfl : removed = token := asks.resolve_left (by simp)
  have output : ((during before initial).perform .step).2 =
      [.called removed, .removed removed] := by
    rw [Canary.perform, Canary.advance_output, atRemove]
    simp only [present, ↓reduceIte]
  have finished : (during before (initial ++ [.step])).pc = .idle := by
    rw [during_concat, Canary.perform, Canary.advance, atRemove]
  have last : rest = [] := by
    cases rest with
    | nil => rfl
    | cons next rest =>
        exact absurd finished
          (round.goesOn (initial ++ [.step]) next rest (by simp))
  subst last
  obtain ⟨unhandled, first⟩ :=
    blocked_of_present round.begins earlier present
  rcases disturbed with ⟨front, later, iteration, whole, _⟩ | changes
  · have handled : .handledSync (roundStart before).round iteration ∈
        eventsOf before (initial ++ [.step]) := by
      rw [whole]
      simp
    rw [eventsOf_concat, output] at handled
    rcases List.mem_append.mp handled with before_ | now
    · exact unhandled iteration before_
    · exact absurd now (by simp)
  · apply changes
    refine atEvery_concat.mpr ⟨first, ?_⟩
    apply (ordered_during before initial).firstBarrier _ present
    rw [atRemove]
    rfl

end DripStone.BlockCanary.SyncBarrier
