import DripStone.Library.Mealy

/-!
# `CustomReenterLock`

The lock keeps the state word and the owner field of its synchroniser.  A call
of `tryAcquire` or `tryRelease` is a sequence of atomic steps, and between two
of them any other thread may take its own.  `lock` and `tryLock` are attempts
of `tryAcquire`, which a waiting thread may repeat at any time; `unlock` is
`tryRelease`.
-/

namespace DripStone.ReenterLock

open DripStone.Library

/-- The next atomic step of a thread. -/
inductive Pc where
  | idle
  -- `tryAcquire`
  | compareAndSetState
  | setExclusiveOwnerThread
  | acquireGetOwner
  | acquireGetState
  | acquireSetState (read : BitVec 32)
  -- `tryRelease`
  | releaseGetOwner
  | releaseCheckState
  | releaseGetState
  | releaseSetState (read : BitVec 32)
  | releaseRecheckState
  | clearExclusiveOwnerThread
deriving DecidableEq, Repr

/-- The synchroniser, where each thread is, and how many acquisitions it has
not released.  An acquisition counts from the step that takes it in the state
word to the step that takes it out. -/
structure Sync (Thread : Type) where
  state : BitVec 32
  exclusiveOwnerThread : Option Thread
  pc : Thread → Pc
  holds : Thread → Nat

inductive Action (Thread : Type) where
  | tryAcquire (thread : Thread)
  | tryRelease (thread : Thread)
  | step (thread : Thread)
deriving DecidableEq, Repr

/-- How a call ends. -/
inductive Event (Thread : Type) where
  | acquired (thread : Thread)
  | refused (thread : Thread)
  | released (thread : Thread)
  | illegalMonitorState (thread : Thread)
deriving DecidableEq, Repr

namespace Sync

variable {Thread : Type}

def new : Sync Thread :=
  { state := 0
    exclusiveOwnerThread := none
    pc := fun _ => .idle
    holds := fun _ => 0 }

variable [DecidableEq Thread]

def goto (sync : Sync Thread) (thread : Thread) (pc : Pc) : Sync Thread :=
  { sync with pc := Function.update sync.pc thread pc }

/-- The next atomic step of `thread`. -/
def advance (sync : Sync Thread) (thread : Thread) :
    Sync Thread × List (Event Thread) :=
  match sync.pc thread with
  | .idle => (sync, [])
  | .compareAndSetState =>
      if sync.state = 0 then
        (goto
          { sync with
            state := 1
            holds := Function.update sync.holds thread
              (sync.holds thread + 1) }
          thread .setExclusiveOwnerThread, [])
      else
        (sync.goto thread .acquireGetOwner, [])
  | .setExclusiveOwnerThread =>
      (goto { sync with exclusiveOwnerThread := some thread } thread .idle,
        [.acquired thread])
  | .acquireGetOwner =>
      if sync.exclusiveOwnerThread = some thread then
        (sync.goto thread .acquireGetState, [])
      else
        (sync.goto thread .idle, [.refused thread])
  | .acquireGetState =>
      (sync.goto thread (.acquireSetState sync.state), [])
  | .acquireSetState read =>
      (goto
        { sync with
          state := read + 1
          holds := Function.update sync.holds thread
            (sync.holds thread + 1) }
        thread .idle, [.acquired thread])
  | .releaseGetOwner =>
      if sync.exclusiveOwnerThread ≠ some thread then
        (sync.goto thread .idle, [.illegalMonitorState thread])
      else
        (sync.goto thread .releaseCheckState, [])
  | .releaseCheckState =>
      if sync.state = 0 then
        (sync.goto thread .idle, [.illegalMonitorState thread])
      else
        (sync.goto thread .releaseGetState, [])
  | .releaseGetState =>
      (sync.goto thread (.releaseSetState sync.state), [])
  | .releaseSetState read =>
      (goto
        { sync with
          state := read - 1
          holds := Function.update sync.holds thread
            (sync.holds thread - 1) }
        thread .releaseRecheckState, [])
  | .releaseRecheckState =>
      if sync.state = 0 then
        (sync.goto thread .clearExclusiveOwnerThread, [])
      else
        (sync.goto thread .idle, [.released thread])
  | .clearExclusiveOwnerThread =>
      (goto { sync with exclusiveOwnerThread := none } thread .idle,
        [.released thread])

/-- A thread starts a call when it is in none. -/
def perform (sync : Sync Thread) :
    Action Thread → Sync Thread × List (Event Thread)
  | .tryAcquire thread =>
      if sync.pc thread = .idle then
        (sync.goto thread .compareAndSetState, [])
      else (sync, [])
  | .tryRelease thread =>
      if sync.pc thread = .idle then
        (sync.goto thread .releaseGetOwner, [])
      else (sync, [])
  | .step thread => sync.advance thread

@[simp]
theorem goto_pc_self (sync : Sync Thread) (thread : Thread) (pc : Pc) :
    (sync.goto thread pc).pc thread = pc := by
  simp [goto]

theorem goto_pc_of_ne (sync : Sync Thread) {thread other : Thread} (pc : Pc)
    (different : other ≠ thread) :
    (sync.goto thread pc).pc other = sync.pc other := by
  simp [goto, different]

@[simp]
theorem goto_state (sync : Sync Thread) (thread : Thread) (pc : Pc) :
    (sync.goto thread pc).state = sync.state := rfl

@[simp]
theorem goto_owner (sync : Sync Thread) (thread : Thread) (pc : Pc) :
    (sync.goto thread pc).exclusiveOwnerThread =
      sync.exclusiveOwnerThread := rfl

@[simp]
theorem goto_holds (sync : Sync Thread) (thread : Thread) (pc : Pc) :
    (sync.goto thread pc).holds = sync.holds := rfl

end Sync

/-- All interleavings of the calls are the runs of this machine. -/
def customReenterLock (Thread : Type) [DecidableEq Thread] :
    Mealy (Sync Thread) (Action Thread) (Event Thread) :=
  ⟨Sync.perform⟩

@[simp]
theorem customReenterLock_step {Thread : Type} [DecidableEq Thread]
    (sync : Sync Thread) (action : Action Thread) :
    (customReenterLock Thread).step sync action = sync.perform action := rfl

/-- One `unlock` call of a thread, from its start to its return. -/
def unlock {Thread : Type} (thread : Thread) : List (Action Thread) :=
  .tryRelease thread :: List.replicate 6 (.step thread)

end DripStone.ReenterLock
