import DripStone.Library.Guarded

/-!
# `orderRun` and `stop`

The threads of `orderRun` wait for one another with `join`, which returns at
once for a thread that has not been started; they are started in their order.
The threads of `stop` end when they are interrupted, whatever statement the
interrupt finds them at.
-/

namespace DripStone.ThreadAction

open DripStone.Library

/-! ## `orderRun` -/

inductive OrderPc where
  | join
  | log
  | ended
deriving DecidableEq, Repr

/-- The threads are counted from zero: `orderThread_1` is thread zero. -/
structure OrderState where
  started : Nat
  pc : Nat → OrderPc
  executed : List Nat

inductive OrderEvent where
  -- the next `start()` of `orderRun`
  | start
  | step (thread : Nat)
deriving DecidableEq, Repr

namespace OrderState

/-- The first thread joins none. -/
def new : OrderState where
  started := 0
  pc thread := if thread = 0 then .log else .join
  executed := []

def isAlive (state : OrderState) (thread : Nat) : Bool :=
  thread < state.started && state.pc thread ≠ .ended

def goto (state : OrderState) (thread : Nat) (pc : OrderPc) : OrderState :=
  { state with pc := Function.update state.pc thread pc }

/-- A start or a statement of a thread, where so many threads are started in
all. -/
def step (threads : Nat) (state : OrderState) : OrderEvent → Option OrderState
  | .start =>
      if state.started < threads then
        some { state with started := state.started + 1 }
      else none
  | .step thread =>
      if thread < state.started then
        match state.pc thread with
        | .join =>
            if state.isAlive (thread - 1) then none
            else some (state.goto thread .log)
        | .log =>
            some (goto { state with executed := state.executed ++ [thread] }
              thread .ended)
        | .ended => none
      else none

theorem goto_pc_self (state : OrderState) (thread : Nat) (pc : OrderPc) :
    (state.goto thread pc).pc thread = pc :=
  Function.update_self ..

theorem goto_pc_of_ne (state : OrderState) {thread other : Nat} (pc : OrderPc)
    (different : other ≠ thread) :
    (state.goto thread pc).pc other = state.pc other :=
  Function.update_of_ne different ..

end OrderState

open OrderState

/-- `orderRun`, which has three threads. -/
def orderRun (threads : Nat) : Guarded OrderState OrderEvent :=
  ⟨.new, OrderState.step threads⟩

/-- The threads in front of one have ended, it has not, and those behind it
wait. -/
structure InOrder (threads : Nat) (state : OrderState) (current : Nat) :
    Prop where
  executed : state.executed = List.range current
  started : state.started ≤ threads
  current_le : current ≤ state.started
  before : ∀ thread < current, state.pc thread = .ended
  here : state.pc current ≠ .ended
  first : current = 0 → state.pc 0 = .log
  behind : ∀ thread, current < thread → state.pc thread = .join

section OrderState

variable {threads current thread : Nat} {state next : OrderState}

theorem inOrder_new (threads : Nat) : InOrder threads .new 0 where
  executed := rfl
  started := Nat.zero_le _
  current_le := Nat.le_refl _
  before := fun _ impossible => absurd impossible (Nat.not_lt_zero _)
  here := fun impossible => by cases impossible
  first := fun _ => rfl
  behind := by
    intro thread isBehind
    exact if_neg (Nat.ne_of_gt isBehind)

theorem InOrder.eq_current (inOrder : InOrder threads state current)
    (logs : state.pc thread = .log) : thread = current := by
  rcases Nat.lt_trichotomy thread current with isBefore | same | isBehind
  · rw [inOrder.before thread isBefore] at logs
    cases logs
  · exact same
  · rw [inOrder.behind thread isBehind] at logs
    cases logs

/-- A thread whose `join` returns is the one whose turn it is: the thread
that it waits for was started before it. -/
theorem InOrder.eq_current_of_join (inOrder : InOrder threads state current)
    (joins : state.pc thread = .join) (isStarted : thread < state.started)
    (dead : state.isAlive (thread - 1) = false) :
    thread = current ∧ 0 < current := by
  have notBefore : current ≤ thread := by
    by_contra isBefore
    rw [inOrder.before thread (Nat.not_le.mp isBefore)] at joins
    cases joins
  have positive : 0 < thread := by
    apply Nat.pos_of_ne_zero
    intro isFirst
    have zero : current = 0 := by omega
    rw [isFirst, inOrder.first zero] at joins
    cases joins
  have hasEnded : state.pc (thread - 1) = .ended := by
    rw [OrderState.isAlive, Bool.and_eq_false_iff, decide_eq_false_iff_not,
      decide_eq_false_iff_not, not_not] at dead
    exact dead.resolve_left (by omega)
  have notLater : thread ≤ current := by
    by_contra isLater
    rcases Nat.lt_or_ge current (thread - 1) with isBehind | isHere
    · rw [inOrder.behind _ isBehind] at hasEnded
      cases hasEnded
    · have same : thread - 1 = current := by omega
      rw [same] at hasEnded
      exact inOrder.here hasEnded
  exact ⟨Nat.le_antisymm notLater notBefore, by omega⟩

theorem InOrder.joined (inOrder : InOrder threads state current)
    (positive : 0 < current) :
    InOrder threads (state.goto current .log) current where
  executed := inOrder.executed
  started := inOrder.started
  current_le := inOrder.current_le
  before := by
    intro thread isBefore
    rw [goto_pc_of_ne state _ (Nat.ne_of_lt isBefore)]
    exact inOrder.before thread isBefore
  here := by
    rw [goto_pc_self]
    exact fun impossible => by cases impossible
  first := fun zero => absurd zero (Nat.ne_of_gt positive)
  behind := by
    intro thread isBehind
    rw [goto_pc_of_ne state _ (Nat.ne_of_gt isBehind)]
    exact inOrder.behind thread isBehind

theorem InOrder.logged (inOrder : InOrder threads state current)
    (isStarted : current < state.started) :
    InOrder threads
      (OrderState.goto { state with executed := state.executed ++ [current] }
        current .ended) (current + 1) where
  executed := by
    rw [OrderState.goto, inOrder.executed, List.range_succ]
  started := inOrder.started
  current_le := isStarted
  before := by
    intro thread isBefore
    by_cases same : thread = current
    · rw [same, goto_pc_self]
    · rw [goto_pc_of_ne _ _ same]
      exact inOrder.before thread (by omega)
  here := by
    rw [goto_pc_of_ne _ _ (Nat.succ_ne_self current),
      inOrder.behind (current + 1) (Nat.lt_succ_self _)]
    exact fun impossible => by cases impossible
  first := fun impossible => absurd impossible (Nat.succ_ne_zero _)
  behind := by
    intro thread isBehind
    rw [goto_pc_of_ne _ _ (by omega)]
    exact inOrder.behind thread (by omega)

theorem InOrder.step (inOrder : InOrder threads state current)
    {event : OrderEvent} (stepped : state.step threads event = some next) :
    ∃ later, InOrder threads next later := by
  cases event with
  | start =>
      rw [OrderState.step] at stepped
      by_cases more : state.started < threads
      · rw [if_pos more, Option.some_inj] at stepped
        rw [← stepped]
        exact ⟨current, inOrder.executed, more,
          Nat.le_succ_of_le inOrder.current_le, inOrder.before, inOrder.here,
          inOrder.first, inOrder.behind⟩
      · rw [if_neg more] at stepped
        cases stepped
  | step thread =>
      rw [OrderState.step] at stepped
      by_cases isStarted : thread < state.started
      · rw [if_pos isStarted] at stepped
        cases here : state.pc thread with
        | join =>
            simp only [here] at stepped
            cases alive : state.isAlive (thread - 1) with
            | true =>
                rw [alive, if_pos rfl] at stepped
                cases stepped
            | false =>
                have turn :=
                  inOrder.eq_current_of_join here isStarted alive
                rw [alive, if_neg Bool.false_ne_true, Option.some_inj,
                  turn.1] at stepped
                rw [← stepped]
                exact ⟨current, inOrder.joined turn.2⟩
        | log =>
            have turn := inOrder.eq_current here
            simp only [here, Option.some_inj] at stepped
            rw [turn] at stepped isStarted
            rw [← stepped]
            exact ⟨current + 1, inOrder.logged isStarted⟩
        | ended =>
            simp only [here] at stepped
            cases stepped
      · rw [if_neg isStarted] at stepped
        cases stepped

/-- Where nothing can go on, all threads have ended. -/
theorem InOrder.current_of_stuck (inOrder : InOrder threads state current)
    (stuck : ∀ event, state.step threads event = none) :
    current = threads := by
  have allStarted : state.started = threads := by
    have last := stuck .start
    rw [OrderState.step] at last
    by_contra fewer
    have more : state.started < threads :=
      lt_of_le_of_ne inOrder.started fewer
    rw [if_pos more] at last
    cases last
  have notBehind := inOrder.current_le
  by_contra other
  have isStarted : current < state.started := by omega
  have last := stuck (.step current)
  rw [OrderState.step, if_pos isStarted] at last
  cases here : state.pc current with
  | ended => exact inOrder.here here
  | log =>
      simp only [here] at last
      cases last
  | join =>
      have positive : 0 < current := by
        apply Nat.pos_of_ne_zero
        intro zero
        rw [zero, inOrder.first zero] at here
        cases here
      have hasEnded := inOrder.before (current - 1) (by omega)
      have dead : state.isAlive (current - 1) = false := by
        simp [OrderState.isAlive, hasEnded]
      simp only [here, dead] at last
      cases last

/-- How far a thread has come. -/
def OrderPc.done : OrderPc → Nat
  | .join => 0
  | .log => 1
  | .ended => 2

/-- How far all have come. -/
def OrderState.done (threads : Nat) (state : OrderState) : Nat :=
  state.started + ∑ thread ∈ Finset.range threads, (state.pc thread).done

theorem OrderState.done_goto (isThread : thread < threads) (pc : OrderPc) :
    (state.goto thread pc).done threads + (state.pc thread).done =
      state.done threads + pc.done := by
  have mem := Finset.mem_range.mpr isThread
  have before := Finset.add_sum_erase (Finset.range threads)
    (fun each => (state.pc each).done) mem
  have after := Finset.add_sum_erase (Finset.range threads)
    (fun each => ((state.goto thread pc).pc each).done) mem
  have same : ∑ each ∈ (Finset.range threads).erase thread,
        ((state.goto thread pc).pc each).done =
      ∑ each ∈ (Finset.range threads).erase thread,
        (state.pc each).done := by
    apply Finset.sum_congr rfl
    intro each inRest
    rw [goto_pc_of_ne state pc (Finset.ne_of_mem_erase inRest)]
  have started : (state.goto thread pc).started = state.started := rfl
  rw [OrderState.done, OrderState.done, started, ← before, ← after, same,
    goto_pc_self]
  omega

theorem InOrder.done_step (inOrder : InOrder threads state current)
    {event : OrderEvent} (stepped : state.step threads event = some next) :
    next.done threads = state.done threads + 1 := by
  cases event with
  | start =>
      rw [OrderState.step] at stepped
      split at stepped
      · rw [← Option.some.inj stepped]
        exact Nat.add_right_comm ..
      · cases stepped
  | step thread =>
      rw [OrderState.step] at stepped
      split at stepped
      · next isStarted =>
          have isThread := isStarted.trans_le inOrder.started
          cases here : state.pc thread with
          | join =>
              simp only [here] at stepped
              split at stepped
              · cases stepped
              · have moved := @OrderState.done_goto threads thread state
                  isThread .log
                rw [here] at moved
                rw [← Option.some.inj stepped]
                exact moved
          | log =>
              simp only [here, Option.some_inj] at stepped
              have moved := @OrderState.done_goto threads thread
                { state with executed := state.executed ++ [thread] }
                isThread .ended
              rw [here] at moved
              rw [← stepped]
              exact Nat.add_right_cancel moved
          | ended =>
              simp only [here] at stepped
              cases stepped
      · cases stepped

/-- A `join` that returns was for a thread that had been started and has
ended. -/
theorem InOrder.ended_of_join (inOrder : InOrder threads state current)
    (joins : state.pc thread = .join)
    (stepped : state.step threads (.step thread) = some next) :
    thread - 1 < state.started ∧ state.pc (thread - 1) = .ended := by
  rw [OrderState.step] at stepped
  split at stepped
  · next isStarted =>
      simp only [joins] at stepped
      split at stepped
      · cases stepped
      · next dead =>
          obtain ⟨turn, positive⟩ := inOrder.eq_current_of_join joins
            isStarted (Bool.not_eq_true _ ▸ dead)
          exact ⟨by omega, inOrder.before (thread - 1) (by omega)⟩
  · cases stepped

/-- However the starts and the threads are interleaved, the threads execute
in their order; there is an end to it, and where nothing can go on they have
all done so.  No `join` returns for a thread that is not started yet. -/
theorem orderRun_in_order {history : List OrderEvent}
    (reached : (orderRun threads).after history = some state) :
    (∃ count, count ≤ threads ∧ state.executed = List.range count) ∧
      history.length ≤ 3 * threads ∧
      ((∀ event, state.step threads event = none) →
        state.executed = List.range threads) ∧
      (∀ thread next, state.pc thread = .join →
        state.step threads (.step thread) = some next →
          thread - 1 < state.started ∧ state.pc (thread - 1) = .ended) := by
  have kept : (∃ current, InOrder threads state current) ∧
      history.length + OrderState.done threads .new = state.done threads := by
    apply Guarded.after_induction
      (fun history state => (∃ current, InOrder threads state current) ∧
        history.length + OrderState.done threads .new = state.done threads)
      _ _ reached
    · exact ⟨⟨0, inOrder_new threads⟩, Nat.zero_add _⟩
    · intro before earlier event after holds stepped
      obtain ⟨⟨current, inOrder⟩, length⟩ := holds
      refine ⟨inOrder.step stepped, ?_⟩
      rw [inOrder.done_step stepped, ← length, List.length_append,
        List.length_singleton]
      omega
  obtain ⟨⟨current, inOrder⟩, length⟩ := kept
  refine ⟨⟨current, inOrder.current_le.trans inOrder.started,
    inOrder.executed⟩, ?_, ?_, ?_⟩
  · have most : ∑ thread ∈ Finset.range threads, (state.pc thread).done ≤
        threads * 2 := by
      have each := Finset.sum_le_card_nsmul (Finset.range threads)
        (fun thread => (state.pc thread).done) 2
        fun thread _ => (by cases state.pc thread <;> decide)
      rwa [Finset.card_range, smul_eq_mul] at each
    have fewStarted := inOrder.started
    rw [OrderState.done, OrderState.done] at length
    omega
  · intro stuck
    rw [inOrder.executed, inOrder.current_of_stuck stuck]
  · exact fun thread next joins stepped =>
      inOrder.ended_of_join joins stepped

/-- The second thread waits although it could begin. -/
theorem orderRun_of_three :
    ∃ state, (orderRun 3).after [.start, .start, .step 0, .start, .step 1] =
        some state ∧
      (∃ count, count ≤ 3 ∧ state.executed = List.range count) ∧
      [OrderEvent.start, .start, .step 0, .start, .step 1].length ≤ 3 * 3 ∧
      ((∀ event, state.step 3 event = none) →
        state.executed = List.range 3) ∧
      (∀ thread next, state.pc thread = .join →
        state.step 3 (.step thread) = some next →
          thread - 1 < state.started ∧ state.pc (thread - 1) = .ended) :=
  ⟨_, rfl, @orderRun_in_order 3 _
    [.start, .start, .step 0, .start, .step 1] rfl⟩

end OrderState

/-! ## `stop` -/

/-- The statement of the loop of `run()` that a thread comes to. -/
inductive StopPc where
  -- the condition of the loop
  | check
  | log
  | sleep
  -- `sleep` has thrown, and the flag is down
  | caught
  | ended
deriving DecidableEq, Repr

structure Stopping where
  interrupted : Bool
  pc : StopPc
  -- how often the thread has logged
  logged : Nat

inductive StopEvent where
  | step
  | interrupt
deriving DecidableEq, Repr

/-- `isInterrupted` leaves the flag, and `Thread.interrupted` takes it
down. -/
def stopStep (clears : Bool) (state : Stopping) :
    StopEvent → Option Stopping
  | .interrupt => some { state with interrupted := true }
  | .step =>
      match state.pc with
      | .check =>
          if state.interrupted then
            some { state with pc := .ended, interrupted := !clears }
          else some { state with pc := .log }
      | .log => some { state with pc := .sleep, logged := state.logged + 1 }
      | .sleep =>
          if state.interrupted then
            some { state with pc := .caught, interrupted := false }
          else some { state with pc := .check }
      | .caught => some { state with pc := .check, interrupted := true }
      | .ended => none

/-- The loop of `StopThread`, or of `StopRunnable` where the check takes the
flag down. -/
def stopLoop (clears : Bool) : Guarded Stopping StopEvent :=
  ⟨⟨false, .check, 0⟩, stopStep clears⟩

section Stop

variable {clears : Bool} {state next : Stopping}

/-- The interrupt is not lost. -/
def Doomed (state : Stopping) : Prop :=
  state.interrupted = true ∨ state.pc = .caught ∨ state.pc = .ended

/-- The statements that an interrupted thread has before its end. -/
def StopPc.left : StopPc → Nat
  | .log => 4
  | .sleep => 3
  | .caught => 2
  | .check => 1
  | .ended => 0

/-- How often it still logs. -/
def StopPc.logs : StopPc → Nat
  | .log => 1
  | _ => 0

/-- What a statement of an interrupted thread does. -/
structure Nearer (state next : Stopping) : Prop where
  doomed : Doomed next
  left : next.pc.left + 1 = state.pc.left
  logs : next.logged + next.pc.logs = state.logged + state.pc.logs

theorem Doomed.step (doomed : Doomed state)
    (stepped : stopStep clears state .step = some next) :
    Nearer state next := by
  obtain ⟨interrupted, pc, logged⟩ := state
  cases pc with
  | check =>
      have isUp : interrupted = true := by simpa [Doomed] using doomed
      rw [stopStep, isUp] at stepped
      rw [← Option.some.inj stepped]
      exact ⟨Or.inr (Or.inr rfl), rfl, rfl⟩
  | log =>
      have isUp : interrupted = true := by simpa [Doomed] using doomed
      rw [stopStep] at stepped
      rw [← Option.some.inj stepped]
      exact ⟨Or.inl isUp, rfl, rfl⟩
  | sleep =>
      have isUp : interrupted = true := by simpa [Doomed] using doomed
      rw [stopStep, isUp] at stepped
      rw [← Option.some.inj stepped]
      exact ⟨Or.inr (Or.inl rfl), rfl, rfl⟩
  | caught =>
      rw [stopStep] at stepped
      rw [← Option.some.inj stepped]
      exact ⟨Or.inl rfl, rfl, rfl⟩
  | ended => cases stepped

/-- Behind an interrupt every statement brings the thread nearer to its
end. -/
theorem Doomed.run (doomed : Doomed state) {events : List StopEvent}
    (reached : (⟨state, stopStep clears⟩ :
      Guarded Stopping StopEvent).after events = some next) :
    Doomed next ∧
      events.count .step + next.pc.left = state.pc.left ∧
      next.logged + next.pc.logs = state.logged + state.pc.logs := by
  induction events generalizing state with
  | nil =>
      rw [← Option.some.inj reached]
      exact ⟨doomed, Nat.zero_add _, rfl⟩
  | cons event events inductionHypothesis =>
      rw [Guarded.after_cons] at reached
      obtain ⟨between, stepped, further⟩ :=
        Option.bind_eq_some_iff.mp reached
      cases event with
      | interrupt =>
          have isBetween := Option.some.inj stepped
          have later := @inductionHypothesis between
            (by rw [← isBetween]; exact Or.inl rfl) further
          rw [← isBetween] at later
          simpa using later
      | step =>
          have nearer := doomed.step stepped
          have later := inductionHypothesis nearer.doomed further
          refine ⟨later.1, ?_, later.2.2.trans nearer.logs⟩
          rw [List.count_cons_self]
          have left := nearer.left
          have counted := later.2.1
          omega

/-- Without an interrupt the loop goes on. -/
theorem not_doomed_of_no_interrupt {history : List StopEvent}
    (reached : (stopLoop clears).after history = some state)
    (quiet : .interrupt ∉ history) : ¬Doomed state := by
  induction history using List.reverseRecOn generalizing state with
  | nil =>
      rw [← Option.some.inj reached]
      simp [Doomed, stopLoop]
  | append_singleton history event inductionHypothesis =>
      obtain ⟨between, isBetween, stepped⟩ :=
        Guarded.after_concat_eq_some.mp reached
      rw [List.mem_append, List.mem_singleton, not_or] at quiet
      have before := inductionHypothesis isBetween quiet.1
      cases event with
      | interrupt => exact absurd rfl quiet.2
      | step =>
          obtain ⟨interrupted, pc, logged⟩ := between
          have isDown : interrupted = false := by
            rw [Doomed, not_or] at before
            exact Bool.not_eq_true _ ▸ before.1
          cases pc with
          | caught => exact absurd (Or.inr (Or.inl rfl)) before
          | ended => cases stepped
          | check =>
              rw [isDown] at stepped
              rw [← Option.some.inj stepped]
              simp [Doomed]
          | log =>
              rw [isDown] at stepped
              rw [← Option.some.inj stepped]
              simp [Doomed]
          | sleep =>
              rw [isDown] at stepped
              rw [← Option.some.inj stepped]
              simp [Doomed]

/-- A thread of `stop` ends only when it was interrupted.  Wherever the
interrupt finds it, it logs at most once more and has ended after four
statements. -/
theorem stop_is_cooperative {history : List StopEvent}
    (reached : (stopLoop clears).after history = some state) :
    (state.pc = .ended → .interrupt ∈ history) ∧
      ∀ before rest found, history = before ++ .interrupt :: rest →
        (stopLoop clears).after before = some found →
        state.logged ≤ found.logged + 1 ∧
          (state.pc = .ended ∨ rest.count .step < 4) := by
  constructor
  · intro hasEnded
    by_contra quiet
    exact not_doomed_of_no_interrupt reached quiet (Or.inr (Or.inr hasEnded))
  · intro before rest found split isFound
    rw [split, Guarded.after_append, isFound, Option.bind_some,
      Guarded.after_cons] at reached
    have later := @Doomed.run clears { found with interrupted := true } state
      (Or.inl rfl) rest reached
    have counted : rest.count .step + state.pc.left = found.pc.left :=
      later.2.1
    have logged : state.logged + state.pc.logs =
        found.logged + found.pc.logs := later.2.2
    have most : found.pc.left ≤ 4 ∧ found.pc.logs ≤ 1 := by
      cases found.pc <;> decide
    constructor
    · omega
    · by_cases fewer : rest.count .step < 4
      · exact Or.inr fewer
      · refine Or.inl ?_
        have none : state.pc.left = 0 := by omega
        revert none
        cases state.pc <;> decide

/-- Interrupted in front of its `sleep`. -/
def interruptedOnce : List StopEvent :=
  [.step, .step, .interrupt, .step, .step, .step]

theorem stop_is_cooperative_once :
    ∃ state, (stopLoop true).after interruptedOnce = some state ∧
      (state.pc = .ended → .interrupt ∈ interruptedOnce) ∧
      ∀ before rest found,
        interruptedOnce = before ++ .interrupt :: rest →
        (stopLoop true).after before = some found →
        state.logged ≤ found.logged + 1 ∧
          (state.pc = .ended ∨ rest.count .step < 4) :=
  ⟨_, rfl, @stop_is_cooperative true _ interruptedOnce rfl⟩

end Stop

end DripStone.ThreadAction
