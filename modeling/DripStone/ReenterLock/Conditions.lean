import DripStone.ReenterLock.Exclusion

/-!
# The conditions of `CustomReenterLock`

`await` calls `release(getState())` once and, when it is woken up, makes
attempts of `tryAcquire(saved)` until one of them succeeds.  `tryRelease` and
`tryAcquire` ignore their arguments: one acquisition is taken out of the state
word, and one is put back.
-/

namespace DripStone.ReenterLock

open DripStone.Library

variable {Thread : Type}

def Action.thread : Action Thread → Thread
  | .tryAcquire thread => thread
  | .tryRelease thread => thread
  | .step thread => thread

def Event.thread : Event Thread → Thread
  | .acquired thread => thread
  | .refused thread => thread
  | .released thread => thread
  | .illegalMonitorState thread => thread

/-- `isHeldExclusively` -/
def Sync.isHeldExclusively (sync : Sync Thread) : Bool :=
  0 < sync.state.toInt

/-- `signal`, on the queue of a condition: the first waiter and the others;
`none` when it throws. -/
def Sync.signal (sync : Sync Thread) (waiters : List Thread) :
    Option (Option Thread × List Thread) :=
  if sync.isHeldExclusively then some (waiters.head?, waiters.tail) else none

variable [DecidableEq Thread]

/-! ## The law -/

def UndisturbedFrom (sync : Sync Thread) (actions : List (Action Thread)) :
    Prop :=
  AtEvery (fun before action =>
    Undisturbed ((customReenterLock Thread).run sync before) action) actions

/-- The actions of all threads while `thread` is in `await`. -/
def awaiting (thread : Thread) (during : List (Action Thread)) :
    List (Action Thread) :=
  .tryRelease thread :: during

/-- The thread has called `await` and has not come back from it. -/
structure Waits (sync : Sync Thread) (thread : Thread)
    (during : List (Action Thread)) : Prop where
  undisturbed : UndisturbedFrom sync (awaiting thread during)
  once : .tryRelease thread ∉ during
  inside : .acquired thread ∉
    (customReenterLock Thread).trace sync (awaiting thread during)

structure HoldsWith (sync : Sync Thread) (thread : Thread) (count : Nat) :
    Prop where
  holds : sync.holds thread = count
  state : sync.state = BitVec.ofNat 32 count
  owner : sync.exclusiveOwnerThread = some thread

/-- The attempt that succeeds brings the thread back with its count. -/
def ReturnsWith (sync : Sync Thread) (thread : Thread) (count : Nat) : Prop :=
  ∀ during last, Waits sync thread during → last ≠ .tryRelease thread →
    let inside :=
      (customReenterLock Thread).run sync (awaiting thread during)
    Undisturbed inside last →
      .acquired thread ∈ (inside.perform last).2 →
        HoldsWith (inside.perform last).1 thread count

/-- Another thread can acquire the lock while `thread` is in `await`. -/
def Admits (sync : Sync Thread) (thread other : Thread) : Prop :=
  ∃ during, Waits sync thread during ∧
    .acquired other ∈
      (customReenterLock Thread).trace sync (awaiting thread during)

structure SameLock (sync next : Sync Thread) : Prop where
  state : next.state = sync.state
  owner : next.exclusiveOwnerThread = sync.exclusiveOwnerThread
  holds : next.holds = sync.holds

/-- The thread changes nothing and throws, at its fourth step at the
latest. -/
structure Throws (sync : Sync Thread) (thread : Thread)
    (during : List (Action Thread)) : Prop where
  notReleased : .released thread ∉
    (customReenterLock Thread).trace sync (awaiting thread during)
  quiet : AtEvery (fun before action => action.thread = thread →
    SameLock ((customReenterLock Thread).run sync before)
      ((customReenterLock Thread).run sync (before ++ [action])))
    (awaiting thread during)
  throws : 3 < during.count (.step thread) →
    .illegalMonitorState thread ∈
      (customReenterLock Thread).trace sync (awaiting thread during)

/-- `await` in a thread that does not hold the lock. -/
def StrangerThrows (sync : Sync Thread) (thread : Thread) : Prop :=
  ∀ during, UndisturbedFrom sync (awaiting thread during) →
    .tryRelease thread ∉ during → .tryAcquire thread ∉ during →
      Throws sync thread during

/-! ## The steps of other threads -/

section Others

variable {sync : Sync Thread} {thread : Thread} {action : Action Thread}

theorem perform_of_ne (isOther : action.thread ≠ thread) :
    (sync.perform action).1.pc thread = sync.pc thread ∧
      (sync.perform action).1.holds thread = sync.holds thread := by
  have differs : thread ≠ action.thread := isOther.symm
  cases action with
  | tryAcquire other =>
      have same : thread ≠ other := differs
      by_cases idle : sync.pc other = .idle
      · simp [Sync.perform, idle, Sync.goto, same]
      · simp [Sync.perform, idle]
  | tryRelease other =>
      have same : thread ≠ other := differs
      by_cases idle : sync.pc other = .idle
      · simp [Sync.perform, idle, Sync.goto, same]
      · simp [Sync.perform, idle]
  | step other =>
      have same : thread ≠ other := differs
      change (sync.advance other).1.pc thread = _ ∧
        (sync.advance other).1.holds thread = _
      unfold Sync.advance
      split
      all_goals try split
      all_goals simp [Sync.goto, same]

theorem thread_of_mem_perform {event : Event Thread}
    (emitted : event ∈ (sync.perform action).2) :
    event.thread = action.thread := by
  cases action with
  | tryAcquire other =>
      by_cases idle : sync.pc other = .idle <;>
        simp [Sync.perform, idle] at emitted
  | tryRelease other =>
      by_cases idle : sync.pc other = .idle <;>
        simp [Sync.perform, idle] at emitted
  | step other =>
      change event ∈ (sync.advance other).2 at emitted
      unfold Sync.advance at emitted
      split at emitted
      all_goals try split at emitted
      all_goals simp at emitted
      all_goals rw [emitted]; rfl

theorem Inv.run_from {actions : List (Action Thread)} (inv : Inv sync)
    (undisturbed : UndisturbedFrom sync actions) :
    Inv ((customReenterLock Thread).run sync actions) :=
  @AtEvery.induction _ _
    (fun actions => Inv ((customReenterLock Thread).run sync actions)) _
    undisturbed inv fun before action here atAction => by
      rw [Mealy.run_concat, customReenterLock_step]
      exact here.perform action atAction

end Others

/-! ## A holder in `await` -/

section Holder

variable {sync : Sync Thread} {thread : Thread} {count : Nat}

/-- The acquisitions that a thread with `count` of them has in `await`: all in
front of the write of its release and behind the one of its acquisition, one
less between them. -/
def Stage (count held : Nat) : Pc → Prop
  | .releaseGetOwner => held = count
  | .releaseCheckState => held = count
  | .releaseGetState => held = count
  | .releaseSetState _ => held = count
  | .setExclusiveOwnerThread => held = count
  | _ => held + 1 = count

/-- What is known behind a step of a thread in `await`. -/
structure StageAfter (thread : Thread) (count : Nat)
    (next : Sync Thread × List (Event Thread)) : Prop where
  inside : .acquired thread ∉ next.2 →
    Stage count (next.1.holds thread) (next.1.pc thread)
  returned : .acquired thread ∈ next.2 →
    next.1.holds thread = count ∧ next.1.pc thread = .idle

theorem stageAfter_goto {pc : Pc} {events : List (Event Thread)}
    (stage : Stage count (sync.holds thread) pc)
    (silent : .acquired thread ∉ events) :
    StageAfter thread count (sync.goto thread pc, events) := by
  refine ⟨fun _ => ?_, fun acquired => absurd acquired silent⟩
  rw [Sync.goto_pc_self, Sync.goto_holds]
  exact stage

theorem stageAfter_acquired (all : sync.holds thread = count) :
    StageAfter thread count (sync.goto thread .idle, [.acquired thread]) :=
  ⟨fun inside => absurd List.mem_cons_self inside,
    fun _ => ⟨all, Sync.goto_pc_self ..⟩⟩

/-- Step lemma: the steps of the thread itself. -/
theorem stageAfter_advance (inv : Inv sync) (positive : 0 < count)
    (stage : Stage count (sync.holds thread) (sync.pc thread)) :
    StageAfter thread count (sync.advance thread) := by
  have silent : .acquired thread ∉ ([] : List (Event Thread)) :=
    List.not_mem_nil
  have released : .acquired thread ∉ [Event.released thread] := by simp
  have refused : .acquired thread ∉ [Event.refused thread] := by simp
  rw [Sync.advance]
  split
  · exact ⟨fun _ => stage, fun acquired =>
      absurd acquired List.not_mem_nil⟩
  · next place =>
      rw [place] at stage
      split
      · exact stageAfter_goto ((Function.update_self ..).trans stage) silent
      · exact stageAfter_goto stage silent
  · next place =>
      rw [place] at stage
      exact stageAfter_acquired stage
  · next place =>
      rw [place] at stage
      split
      · exact stageAfter_goto stage silent
      · exact stageAfter_goto stage refused
  · next place =>
      rw [place] at stage
      exact stageAfter_goto stage silent
  · next read place =>
      rw [place] at stage
      exact stageAfter_acquired ((Function.update_self ..).trans stage)
  · next place =>
      rw [place] at stage
      have held : 0 < sync.holds thread := lt_of_lt_of_eq positive stage.symm
      have mine : sync.exclusiveOwnerThread = some thread := by
        apply (inv.owner thread held).resolve_right
        rw [place]
        exact Pc.noConfusion
      rw [if_neg (not_not.mpr mine)]
      exact stageAfter_goto stage silent
  · next place =>
      rw [place] at stage
      have held : 0 < sync.holds thread := lt_of_lt_of_eq positive stage.symm
      rw [if_neg (inv.state_ne_zero held)]
      exact stageAfter_goto stage silent
  · next place =>
      rw [place] at stage
      exact stageAfter_goto stage silent
  · next read place =>
      rw [place] at stage
      have all : sync.holds thread = count := stage
      have less : sync.holds thread - 1 + 1 = count := by omega
      refine stageAfter_goto ?_ silent
      exact (congrArg (· + 1) (Function.update_self ..)).trans less
  · next place =>
      rw [place] at stage
      split
      · exact stageAfter_goto stage silent
      · exact stageAfter_goto stage released
  · next place =>
      rw [place] at stage
      exact stageAfter_goto stage released

/-- Step lemma: any action but another `tryRelease` of the thread. -/
theorem stageAfter_perform {action : Action Thread} (inv : Inv sync)
    (positive : 0 < count) (once : action ≠ .tryRelease thread)
    (stage : Stage count (sync.holds thread) (sync.pc thread)) :
    StageAfter thread count (sync.perform action) := by
  by_cases isOther : action.thread ≠ thread
  · obtain ⟨samePc, sameHolds⟩ := @perform_of_ne _ _ sync _ _ isOther
    constructor
    · intro _
      rw [samePc, sameHolds]
      exact stage
    · intro acquired
      exact absurd (thread_of_mem_perform acquired).symm isOther
  · have mine : action.thread = thread := not_not.mp isOther
    cases action with
    | tryAcquire other =>
        obtain rfl : other = thread := mine
        rw [Sync.perform]
        split
        · next idle =>
            rw [idle] at stage
            exact stageAfter_goto stage List.not_mem_nil
        · exact ⟨fun _ => stage, fun acquired =>
            absurd acquired List.not_mem_nil⟩
    | tryRelease other => exact absurd (congrArg _ mine) once
    | step other =>
        obtain rfl : other = thread := mine
        exact stageAfter_advance inv positive stage

theorem trace_concat (sync : Sync Thread) (actions : List (Action Thread))
    (last : Action Thread) :
    (customReenterLock Thread).trace sync (actions ++ [last]) =
      (customReenterLock Thread).trace sync actions ++
        (((customReenterLock Thread).run sync actions).perform last).2 := by
  rw [Mealy.trace_append, Mealy.trace_cons, Mealy.trace_nil, List.append_nil,
    customReenterLock_step]

/-- The last action of a wait. -/
structure Waits.Last (sync : Sync Thread) (thread : Thread)
    (during : List (Action Thread)) (last : Action Thread) : Prop where
  before : Waits sync thread during
  once : last ≠ .tryRelease thread
  undisturbed : Undisturbed
    ((customReenterLock Thread).run sync (awaiting thread during)) last
  inside : .acquired thread ∉ (((customReenterLock Thread).run sync
    (awaiting thread during)).perform last).2

theorem Waits.last {during : List (Action Thread)} {last : Action Thread}
    (waits : Waits sync thread (during ++ [last])) :
    Waits.Last sync thread during last := by
  have whole : awaiting thread (during ++ [last]) =
      awaiting thread during ++ [last] := rfl
  have undisturbed := waits.undisturbed
  have inside := waits.inside
  rw [UndisturbedFrom, whole, atEvery_concat] at undisturbed
  rw [whole, trace_concat, List.mem_append, not_or] at inside
  have once := waits.once
  rw [List.mem_append, not_or, List.mem_singleton] at once
  exact ⟨⟨undisturbed.1, once.1, inside.1⟩, fun same => once.2 same.symm,
    undisturbed.2, inside.2⟩

/-- Run lemma: the thread keeps all its acquisitions but one. -/
theorem Waits.stage {during : List (Action Thread)} (inv : Inv sync)
    (idle : sync.pc thread = .idle) (held : 0 < sync.holds thread)
    (waits : Waits sync thread during) :
    let inside := (customReenterLock Thread).run sync (awaiting thread during)
    Inv inside ∧
      Stage (sync.holds thread) (inside.holds thread) (inside.pc thread) := by
  refine ⟨inv.run_from waits.undisturbed, ?_⟩
  induction during using List.reverseRecOn with
  | nil =>
      have started : sync.perform (.tryRelease thread) =
          (sync.goto thread .releaseGetOwner, []) := if_pos idle
      rw [awaiting, Mealy.run_cons, customReenterLock_step, started,
        Mealy.run_nil, Sync.goto_pc_self, Sync.goto_holds]
      rfl
  | append_singleton during last inductionHypothesis =>
      have atLast := waits.last
      have whole : awaiting thread (during ++ [last]) =
          awaiting thread during ++ [last] := rfl
      rw [whole, Mealy.run_concat, customReenterLock_step]
      exact (stageAfter_perform
        (inv.run_from atLast.before.undisturbed) held atLast.once
        (inductionHypothesis atLast.before)).inside atLast.inside

theorem Inv.returnsWith (inv : Inv sync) (idle : sync.pc thread = .idle)
    (held : 0 < sync.holds thread) :
    ReturnsWith sync thread (sync.holds thread) := by
  intro during last waits once inside undisturbed acquired
  obtain ⟨invInside, stage⟩ := waits.stage inv idle held
  have after := stageAfter_perform invInside held once stage
  obtain ⟨all, isIdle⟩ := after.returned acquired
  have owned := (invInside.perform last undisturbed).owned isIdle
  rw [all] at owned
  exact ⟨all, owned.word held, owned.owner held⟩

/-! ## Whether another thread comes in -/

theorem Stage.one_le {held : Nat} {pc : Pc} (stage : Stage count held pc)
    (more : 1 < count) : 0 < held := by
  cases pc with
  | releaseGetOwner => exact lt_of_lt_of_eq (by omega) stage.symm
  | releaseCheckState => exact lt_of_lt_of_eq (by omega) stage.symm
  | releaseGetState => exact lt_of_lt_of_eq (by omega) stage.symm
  | releaseSetState read => exact lt_of_lt_of_eq (by omega) stage.symm
  | setExclusiveOwnerThread => exact lt_of_lt_of_eq (by omega) stage.symm
  | _ =>
      have less : held + 1 = count := stage
      omega

/-- An attempt that succeeds leaves an acquisition. -/
theorem Inv.holds_of_acquired {action : Action Thread} (inv : Inv sync)
    (acquired : .acquired thread ∈ (sync.perform action).2) :
    0 < (sync.perform action).1.holds thread := by
  have mine := thread_of_mem_perform acquired
  cases action with
  | tryAcquire other =>
      by_cases idle : sync.pc other = .idle <;>
        simp [Sync.perform, idle] at acquired
  | tryRelease other =>
      by_cases idle : sync.pc other = .idle <;>
        simp [Sync.perform, idle] at acquired
  | step other =>
      obtain rfl : thread = other := mine
      have placed := inv.placed thread
      change .acquired thread ∈ (sync.advance thread).2 at acquired
      change 0 < (sync.advance thread).1.holds thread
      cases place : sync.pc thread with
      | setExclusiveOwnerThread =>
          rw [place] at placed
          simp only [Sync.advance, place, Sync.goto_holds]
          exact lt_of_lt_of_eq Nat.one_pos placed.symm
      | acquireSetState read =>
          simp only [Sync.advance, place, Sync.goto_holds,
            Function.update_self]
          exact Nat.succ_pos _
      | _ =>
          simp only [Sync.advance, place] at acquired
          first
            | split at acquired <;> simp at acquired
            | simp at acquired

/-- A thread that holds more than one acquisition lets no other one in. -/
theorem Waits.alone {during : List (Action Thread)} {other : Thread}
    (inv : Inv sync) (idle : sync.pc thread = .idle)
    (more : 1 < sync.holds thread) (differs : other ≠ thread)
    (waits : Waits sync thread during) :
    .acquired other ∉
      (customReenterLock Thread).trace sync (awaiting thread during) := by
  have held : 0 < sync.holds thread := Nat.zero_lt_of_lt more
  induction during using List.reverseRecOn with
  | nil =>
      have started : sync.perform (.tryRelease thread) =
          (sync.goto thread .releaseGetOwner, []) := if_pos idle
      rw [awaiting, Mealy.trace_cons, customReenterLock_step, started]
      exact List.not_mem_nil
  | append_singleton during last inductionHypothesis =>
      have atLast := waits.last
      have whole : awaiting thread (during ++ [last]) =
          awaiting thread during ++ [last] := rfl
      rw [whole, trace_concat, List.mem_append]
      rintro (earlier | now)
      · exact inductionHypothesis atLast.before earlier
      · obtain ⟨invNext, stage⟩ := waits.stage inv idle held
        rw [whole, Mealy.run_concat, customReenterLock_step] at invNext stage
        have holding := (atLast.before.stage inv idle held).1.holds_of_acquired
          now
        exact differs (invNext.one other thread holding (stage.one_le more))

theorem run_of_thread {actions : List (Action Thread)} {other : Thread}
    (mine : ∀ action ∈ actions, action.thread = thread)
    (differs : other ≠ thread) :
    ((customReenterLock Thread).run sync actions).pc other = sync.pc other ∧
      ((customReenterLock Thread).run sync actions).holds other =
        sync.holds other := by
  induction actions using List.reverseRecOn with
  | nil => exact ⟨rfl, rfl⟩
  | append_singleton before action inductionHypothesis =>
      obtain ⟨samePc, sameHolds⟩ := inductionHypothesis fun action inBefore =>
        mine action (List.mem_append_left _ inBefore)
      have isThread : action.thread = thread := mine action (by simp)
      have kept := @perform_of_ne _ _
        ((customReenterLock Thread).run sync before) other action
        (by rw [isThread]; exact differs.symm)
      rw [Mealy.run_concat, customReenterLock_step, kept.1, kept.2]
      exact ⟨samePc, sameHolds⟩

theorem undisturbedFrom_cons {action : Action Thread}
    {rest : List (Action Thread)} :
    UndisturbedFrom sync (action :: rest) ↔
      Undisturbed sync action ∧
        UndisturbedFrom (sync.perform action).1 rest := by
  rw [UndisturbedFrom, atEvery_cons]
  rfl

theorem undisturbedFrom_append {first rest : List (Action Thread)} :
    UndisturbedFrom sync (first ++ rest) ↔
      UndisturbedFrom sync first ∧
        UndisturbedFrom ((customReenterLock Thread).run sync first) rest := by
  induction first generalizing sync with
  | nil => simp [UndisturbedFrom, atEvery_nil]
  | cons action first inductionHypothesis =>
      rw [List.cons_append, undisturbedFrom_cons, undisturbedFrom_cons,
        inductionHypothesis, and_assoc]
      rfl

/-- A thread releases while the owner field names it. -/
def Releasing (thread : Thread) (owner : Option Thread) (held : Nat) :
    Pc → Prop
  | .idle => True
  | .releaseGetOwner => owner = some thread ∧ 0 < held
  | .releaseCheckState => owner = some thread ∧ 0 < held
  | .releaseGetState => owner = some thread ∧ 0 < held
  | .releaseSetState _ => owner = some thread ∧ 0 < held
  | .releaseRecheckState => owner = some thread
  | .clearExclusiveOwnerThread => owner = some thread
  | _ => False

/-- Step lemma: as long as no other thread takes a step. -/
theorem releasing_advance
    (releasing : Releasing thread sync.exclusiveOwnerThread
      (sync.holds thread) (sync.pc thread)) :
    Undisturbed sync (.step thread) ∧
      Releasing thread (sync.advance thread).1.exclusiveOwnerThread
        ((sync.advance thread).1.holds thread)
        ((sync.advance thread).1.pc thread) := by
  rw [Undisturbed, Sync.advance]
  cases place : sync.pc thread with
  | idle =>
      refine ⟨trivial, ?_⟩
      simp only [place]
      trivial
  | releaseGetOwner =>
      rw [place] at releasing
      refine ⟨trivial, ?_⟩
      simp only [releasing.1, ne_eq, not_true_eq_false, if_false,
        Sync.goto_pc_self]
      exact releasing
  | releaseCheckState =>
      rw [place] at releasing
      refine ⟨trivial, ?_⟩
      by_cases free : sync.state = 0
      · simp only [if_pos free, Sync.goto_pc_self]
        trivial
      · simp only [if_neg free, Sync.goto_pc_self]
        exact releasing
  | releaseGetState =>
      rw [place] at releasing
      refine ⟨trivial, ?_⟩
      simp only [Sync.goto_pc_self]
      exact releasing
  | releaseSetState read =>
      rw [place] at releasing
      refine ⟨releasing.2, ?_⟩
      simp only [Sync.goto_pc_self]
      exact releasing.1
  | releaseRecheckState =>
      rw [place] at releasing
      refine ⟨trivial, ?_⟩
      by_cases free : sync.state = 0
      · simp only [if_pos free, Sync.goto_pc_self]
        exact releasing
      · simp only [if_neg free, Sync.goto_pc_self]
        trivial
  | clearExclusiveOwnerThread =>
      rw [place] at releasing
      refine ⟨fun other differs named => ?_, ?_⟩
      · have same : some thread = some other := releasing.symm.trans named
        exact absurd (Option.some.inj same).symm differs
      · simp only [Sync.goto_pc_self]
        trivial
  | _ =>
      rw [place] at releasing
      exact releasing.elim

theorem undisturbedFrom_steps (steps : Nat)
    (releasing : Releasing thread sync.exclusiveOwnerThread
      (sync.holds thread) (sync.pc thread)) :
    UndisturbedFrom sync (List.replicate steps (.step thread)) := by
  induction steps generalizing sync with
  | zero => exact atEvery_nil _
  | succ steps inductionHypothesis =>
      obtain ⟨undisturbed, next⟩ := releasing_advance releasing
      rw [List.replicate_succ, undisturbedFrom_cons]
      exact ⟨undisturbed, inductionHypothesis next⟩

theorem Owned.undisturbed_unlock {count : Nat}
    (owned : Owned sync thread (count + 1)) :
    UndisturbedFrom sync (ReenterLock.unlock thread) := by
  have started : sync.perform (.tryRelease thread) =
      (sync.goto thread .releaseGetOwner, []) := if_pos owned.idle
  rw [ReenterLock.unlock, undisturbedFrom_cons, started]
  refine ⟨trivial, undisturbedFrom_steps 6 ?_⟩
  rw [Sync.goto_pc_self, Sync.goto_owner, Sync.goto_holds, owned.held]
  exact ⟨owned.owner (Nat.succ_pos _), Nat.succ_pos _⟩

/-- A thread in no call takes the free lock. -/
theorem takes_free {other : Thread} (free : sync.state = 0)
    (idle : sync.pc other = .idle) :
    let actions : List (Action Thread) :=
      [.tryAcquire other, .step other, .step other]
    UndisturbedFrom sync actions ∧
      (customReenterLock Thread).trace sync actions = [.acquired other] := by
  have started : sync.perform (.tryAcquire other) =
      (sync.goto other .compareAndSetState, []) := if_pos idle
  have taken : (sync.goto other .compareAndSetState).perform (.step other) =
      (Sync.goto
        { sync.goto other .compareAndSetState with
          state := 1
          holds := Function.update sync.holds other (sync.holds other + 1) }
        other .setExclusiveOwnerThread, []) := by
    rw [Sync.perform, Sync.advance, Sync.goto_pc_self]
    exact if_pos free
  constructor
  · rw [undisturbedFrom_cons, started, undisturbedFrom_cons, taken,
      undisturbedFrom_cons]
    refine ⟨trivial, ?_, ?_, atEvery_nil _⟩
    · rw [Undisturbed, Sync.goto_pc_self]
      trivial
    · rw [Undisturbed, Sync.goto_pc_self]
      trivial
  · rw [Mealy.trace_cons, customReenterLock_step, started, Mealy.trace_cons,
      customReenterLock_step, taken, Mealy.trace_cons,
      customReenterLock_step, Sync.perform, Sync.advance, Sync.goto_pc_self]
    rfl

/-- The calls with which another thread takes the lock after the release. -/
def takeOver (thread other : Thread) : List (Action Thread) :=
  List.replicate 6 (.step thread) ++
    [.tryAcquire other, .step other, .step other]

theorem Inv.admits (inv : Inv sync) {other : Thread}
    (idle : sync.pc thread = .idle) (single : sync.holds thread = 1)
    (differs : other ≠ thread) (otherIdle : sync.pc other = .idle) :
    Admits sync thread other := by
  have owned := inv.owned idle
  rw [single] at owned
  obtain ⟨released, after⟩ := owned.unlock
  have undisturbed := owned.undisturbed_unlock
  have invAfter := inv.run_from undisturbed
  have mine : ∀ action ∈ unlock thread, action.thread = thread := by
    intro action inUnlock
    rcases List.mem_cons.mp inUnlock with rfl | isStep
    · rfl
    · rw [List.eq_of_mem_replicate isStep]
      rfl
  have kept : ∀ some, some ≠ thread → _ := fun some isOther =>
    @run_of_thread _ _ sync thread (unlock thread) some mine isOther
  have free : ((customReenterLock Thread).run sync (unlock thread)).state =
      0 := by
    apply invAfter.free
    intro some
    by_cases isThread : some = thread
    · rw [isThread]
      exact after.held
    · rw [(kept some isThread).2]
      exact inv.alone (by omega) some isThread
  obtain ⟨quiet, acquired⟩ :=
    takes_free free ((kept other differs).1.trans otherIdle)
  have whole : awaiting thread (takeOver thread other) =
      unlock thread ++ [.tryAcquire other, .step other, .step other] := rfl
  have traced : (customReenterLock Thread).trace sync
      (awaiting thread (takeOver thread other)) =
        [.released thread, .acquired other] := by
    rw [whole, Mealy.trace_append, released, acquired]
    rfl
  refine ⟨takeOver thread other, ⟨?_, ?_, ?_⟩, ?_⟩
  · rw [whole, undisturbedFrom_append]
    exact ⟨undisturbed, quiet⟩
  · simp [takeOver]
  · rw [traced]
    simp [differs.symm]
  · rw [traced]
    simp

theorem Inv.admits_iff (inv : Inv sync) {other : Thread}
    (idle : sync.pc thread = .idle) (held : 0 < sync.holds thread)
    (differs : other ≠ thread) (otherIdle : sync.pc other = .idle) :
    Admits sync thread other ↔ sync.holds thread = 1 := by
  constructor
  · intro ⟨during, waits, acquired⟩
    by_contra notOne
    exact waits.alone inv idle (by omega) differs acquired
  · intro single
    exact inv.admits idle single differs otherIdle

/-! ## `signal` -/

omit [DecidableEq Thread] in
/-- `signal` looks at the state word only. -/
theorem Inv.signal_eq_none_iff (inv : Inv sync) (waiters : List Thread) :
    sync.signal waiters = none ↔
      ∀ holder, 0 < sync.holds holder → 2 ^ 31 ≤ sync.holds holder := by
  have thrown : sync.signal waiters = none ↔ ¬0 < sync.state.toInt := by
    simp [Sync.signal, Sync.isHeldExclusively]
  rw [thrown]
  by_cases isHeld : ∃ holder, 0 < sync.holds holder
  · obtain ⟨holder, held⟩ := isHeld
    have bound := inv.bound holder
    have word := inv.word holder held
    have value : sync.state.toNat = sync.holds holder := by
      rw [word, BitVec.toNat_ofNat, Nat.mod_eq_of_lt bound]
    have signed := BitVec.toInt_eq_toNat_cond sync.state
    rw [value] at signed
    constructor
    · intro notPositive other otherHeld
      rw [inv.one other holder otherHeld held]
      split at signed
      all_goals omega
    · intro large
      have isLarge := large holder held
      split at signed
      all_goals omega
  · have none : ∀ holder, sync.holds holder = 0 := by
      intro holder
      by_contra held
      exact isHeld ⟨holder, Nat.pos_of_ne_zero held⟩
    rw [inv.free none]
    constructor
    · intro _ holder held
      exact absurd (none holder) held.ne'
    · intro _
      decide

end Holder

/-! ## A stranger in `await` -/

section Stranger

variable {sync : Sync Thread} {thread : Thread}

/-- Where a thread that holds nothing is after some of its steps. -/
def StrangerAt (steps : Nat) (thrown : Prop) : Pc → Prop
  | .releaseGetOwner => steps = 0
  | .releaseCheckState => steps = 1
  | .releaseGetState => steps = 2
  | .releaseSetState _ => steps = 3
  | .idle => thrown
  | _ => False

/-- Step lemma: the thread writes nothing. -/
theorem strangerAt_advance {steps : Nat} {thrown : Prop}
    (undisturbed : Undisturbed sync (.step thread))
    (none : sync.holds thread = 0)
    (place : StrangerAt steps thrown (sync.pc thread)) :
    SameLock sync (sync.advance thread).1 ∧
      .released thread ∉ (sync.advance thread).2 ∧
      StrangerAt (steps + 1)
        (thrown ∨ .illegalMonitorState thread ∈ (sync.advance thread).2)
        ((sync.advance thread).1.pc thread) := by
  rw [Undisturbed] at undisturbed
  rw [Sync.advance]
  cases here : sync.pc thread with
  | idle =>
      rw [here] at place
      refine ⟨⟨rfl, rfl, rfl⟩, List.not_mem_nil, ?_⟩
      simp only [here]
      exact Or.inl place
  | releaseGetOwner =>
      rw [here] at place
      by_cases stranger : sync.exclusiveOwnerThread ≠ some thread
      · simp only [if_pos stranger, Sync.goto_pc_self]
        exact ⟨⟨rfl, rfl, rfl⟩, by simp, Or.inr List.mem_cons_self⟩
      · simp only [if_neg stranger, Sync.goto_pc_self]
        exact ⟨⟨rfl, rfl, rfl⟩, List.not_mem_nil, congrArg (· + 1) place⟩
  | releaseCheckState =>
      rw [here] at place
      by_cases free : sync.state = 0
      · simp only [if_pos free, Sync.goto_pc_self]
        exact ⟨⟨rfl, rfl, rfl⟩, by simp, Or.inr List.mem_cons_self⟩
      · simp only [if_neg free, Sync.goto_pc_self]
        exact ⟨⟨rfl, rfl, rfl⟩, List.not_mem_nil, congrArg (· + 1) place⟩
  | releaseGetState =>
      rw [here] at place
      simp only [Sync.goto_pc_self]
      exact ⟨⟨rfl, rfl, rfl⟩, List.not_mem_nil, congrArg (· + 1) place⟩
  | releaseSetState read =>
      rw [here] at undisturbed
      have held : 0 < sync.holds thread := undisturbed
      exact absurd none held.ne'
  | _ =>
      rw [here] at place
      exact place.elim

theorem StrangerAt.mono {steps : Nat} {thrown later : Prop} {pc : Pc}
    (place : StrangerAt steps thrown pc) (weaken : thrown → later) :
    StrangerAt steps later pc := by
  cases pc with
  | idle => exact weaken place
  | _ => exact place

/-- What one action of any thread leaves of it. -/
structure StrangerAfter (sync : Sync Thread) (thread : Thread)
    (action : Action Thread) (steps : Nat) (thrown : Prop) : Prop where
  none : (sync.perform action).1.holds thread = 0
  same : action.thread = thread → SameLock sync (sync.perform action).1
  notReleased : .released thread ∉ (sync.perform action).2
  place : StrangerAt (steps + if action = .step thread then 1 else 0)
    (thrown ∨ .illegalMonitorState thread ∈ (sync.perform action).2)
    ((sync.perform action).1.pc thread)

/-- Step lemma: any action but another call of the thread. -/
theorem strangerAfter {action : Action Thread} {steps : Nat} {thrown : Prop}
    (undisturbed : Undisturbed sync action)
    (noRelease : action ≠ .tryRelease thread)
    (noAcquire : action ≠ .tryAcquire thread)
    (none : sync.holds thread = 0)
    (place : StrangerAt steps thrown (sync.pc thread)) :
    StrangerAfter sync thread action steps thrown := by
  by_cases isOther : action.thread ≠ thread
  · obtain ⟨samePc, sameHolds⟩ := @perform_of_ne _ _ sync _ _ isOther
    have notStep : action ≠ .step thread := by
      rintro rfl
      exact isOther rfl
    refine ⟨sameHolds.trans none, fun same => absurd same isOther,
      fun released => ?_, ?_⟩
    · exact isOther (thread_of_mem_perform released).symm
    · rw [if_neg notStep, samePc]
      exact place.mono Or.inl
  · have mine : action.thread = thread := not_not.mp isOther
    cases action with
    | tryAcquire other => exact absurd (congrArg _ mine) noAcquire
    | tryRelease other => exact absurd (congrArg _ mine) noRelease
    | step other =>
        obtain rfl : other = thread := mine
        obtain ⟨same, notReleased, next⟩ :=
          strangerAt_advance undisturbed none place
        refine ⟨?_, fun _ => same, notReleased, ?_⟩
        · exact (congrFun same.holds other).trans none
        · rw [if_pos rfl]
          exact next

/-- What is known of a stranger in `await`. -/
structure StrangerStage (sync : Sync Thread) (thread : Thread)
    (during : List (Action Thread)) : Prop where
  none : ((customReenterLock Thread).run sync
    (awaiting thread during)).holds thread = 0
  place : StrangerAt (during.count (.step thread))
    (.illegalMonitorState thread ∈
      (customReenterLock Thread).trace sync (awaiting thread during))
    (((customReenterLock Thread).run sync (awaiting thread during)).pc thread)
  notReleased : .released thread ∉
    (customReenterLock Thread).trace sync (awaiting thread during)
  quiet : AtEvery (fun before action => action.thread = thread →
    SameLock ((customReenterLock Thread).run sync before)
      ((customReenterLock Thread).run sync (before ++ [action])))
    (awaiting thread during)

theorem StrangerStage.throws {during : List (Action Thread)}
    (stage : StrangerStage sync thread during) :
    Throws sync thread during := by
  refine ⟨stage.notReleased, stage.quiet, fun many => ?_⟩
  have place := stage.place
  revert place
  cases ((customReenterLock Thread).run sync
    (awaiting thread during)).pc thread with
  | idle => exact id
  | releaseGetOwner => exact fun few => absurd many (by rw [few]; decide)
  | releaseCheckState => exact fun few => absurd many (by rw [few]; decide)
  | releaseGetState => exact fun few => absurd many (by rw [few]; decide)
  | releaseSetState read => exact fun few => absurd many (by rw [few]; decide)
  | _ => exact False.elim

/-- Run lemma. -/
theorem strangerStage {during : List (Action Thread)}
    (idle : sync.pc thread = .idle) (none : sync.holds thread = 0)
    (undisturbed : UndisturbedFrom sync (awaiting thread during))
    (noRelease : .tryRelease thread ∉ during)
    (noAcquire : .tryAcquire thread ∉ during) :
    StrangerStage sync thread during := by
  induction during using List.reverseRecOn with
  | nil =>
      have started : sync.perform (.tryRelease thread) =
          (sync.goto thread .releaseGetOwner, []) := if_pos idle
      have run : (customReenterLock Thread).run sync (awaiting thread []) =
          sync.goto thread .releaseGetOwner := congrArg Prod.fst started
      have trace : (customReenterLock Thread).trace sync
          (awaiting thread []) = [] := congrArg (·.2 ++ []) started
      refine ⟨?_, ?_, ?_, ?_⟩
      · rw [run, Sync.goto_holds, none]
      · rw [run, Sync.goto_pc_self]
        exact List.count_nil
      · rw [trace]
        exact List.not_mem_nil
      · rw [awaiting, atEvery_cons]
        refine ⟨fun _ => ?_, atEvery_nil _⟩
        rw [List.nil_append, Mealy.run_nil]
        rw [awaiting] at run
        rw [run]
        exact ⟨rfl, rfl, rfl⟩
  | append_singleton during last inductionHypothesis =>
      have whole : awaiting thread (during ++ [last]) =
          awaiting thread during ++ [last] := rfl
      rw [List.mem_append, not_or, List.mem_singleton] at noRelease noAcquire
      rw [UndisturbedFrom, whole, atEvery_concat] at undisturbed
      have stage := inductionHypothesis undisturbed.1 noRelease.1 noAcquire.1
      have after := strangerAfter undisturbed.2
        (fun same => noRelease.2 same.symm)
        (fun same => noAcquire.2 same.symm) stage.none stage.place
      have run := (customReenterLock Thread).run_concat sync
        (awaiting thread during) last
      rw [customReenterLock_step] at run
      refine ⟨?_, ?_, ?_, ?_⟩
      · rw [whole, run]
        exact after.none
      · rw [whole, run, trace_concat, List.count_append, List.count_singleton]
        simp only [List.mem_append, beq_iff_eq]
        exact after.place
      · rw [whole, trace_concat, List.mem_append, not_or]
        exact ⟨stage.notReleased, after.notReleased⟩
      · rw [whole, atEvery_concat]
        refine ⟨stage.quiet, fun isThread => ?_⟩
        rw [run]
        exact after.same isThread

theorem strangerThrows (idle : sync.pc thread = .idle)
    (none : sync.holds thread = 0) : StrangerThrows sync thread :=
  fun _ undisturbed noRelease noAcquire =>
    (strangerStage idle none undisturbed noRelease noAcquire).throws

end Stranger

/-! ## The conditions -/

/-- In every undisturbed history, interleaved in any way: a thread comes back
from `await` with all its acquisitions; another thread can acquire the lock
meanwhile exactly if there was one of them; `signal` throws exactly if no
thread holds the lock (with a positive state word); and `await` throws and
changes nothing in a thread that does not hold the lock. -/
theorem conditions_of_undisturbed (actions : List (Action Thread))
    (undisturbed : UndisturbedFrom .new actions) :
    let sync := (customReenterLock Thread).run .new actions
    (∀ thread, sync.pc thread = .idle → 0 < sync.holds thread →
      ReturnsWith sync thread (sync.holds thread) ∧
        ∀ other, other ≠ thread → sync.pc other = .idle →
          (Admits sync thread other ↔ sync.holds thread = 1)) ∧
    (∀ waiters, sync.signal waiters = none ↔
      ∀ holder, 0 < sync.holds holder → 2 ^ 31 ≤ sync.holds holder) ∧
    ∀ thread, sync.pc thread = .idle → sync.holds thread = 0 →
      StrangerThrows sync thread := by
  have inv : Inv ((customReenterLock Thread).run .new actions) :=
    inv_new.run_from undisturbed
  refine ⟨fun thread idle held => ⟨?_, fun other differs otherIdle => ?_⟩,
    inv.signal_eq_none_iff, fun thread idle none => strangerThrows idle none⟩
  · exact inv.returnsWith idle held
  · exact inv.admits_iff idle held differs otherIdle

/-- The calls of a thread that takes the lock twice. -/
def takesTwice : List (Action Bool) :=
  [.tryAcquire false, .step false, .step false, .tryAcquire false,
    .step false, .step false, .step false, .step false]

private theorem undisturbed_takesTwice :
    UndisturbedFrom .new takesTwice := by
  rw [UndisturbedFrom]
  decide

private theorem holds_takesTwice :
    ((customReenterLock Bool).run .new takesTwice).holds false = 2 := by
  decide

theorem conditions_takesTwice :
    let sync := (customReenterLock Bool).run .new takesTwice
    ReturnsWith sync false 2 ∧ StrangerThrows sync true := by
  obtain ⟨holder, _, stranger⟩ :=
    conditions_of_undisturbed takesTwice undisturbed_takesTwice
  have returns := (holder false (by decide) (by decide)).1
  rw [holds_takesTwice] at returns
  exact ⟨returns, stranger true (by decide) (by decide)⟩

/-- No other thread comes in while the one that took the lock twice waits,
and another thread may call `signal`. -/
theorem takesTwice_lets_none_in :
    let sync := (customReenterLock Bool).run .new takesTwice
    ¬Admits sync false true ∧
      sync.holds true = 0 ∧ sync.signal [false] ≠ none := by
  have inv : Inv ((customReenterLock Bool).run .new takesTwice) :=
    inv_new.run_from undisturbed_takesTwice
  refine ⟨fun admits => ?_, by decide, by decide⟩
  have single := (inv.admits_iff (by decide) (by decide) (by decide)
    (by decide)).mp admits
  rw [holds_takesTwice] at single
  exact absurd single (by decide)

end DripStone.ReenterLock
