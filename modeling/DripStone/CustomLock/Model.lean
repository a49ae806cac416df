import DripStone.Library.Mealy

/-!
# `CustomLock`

An exclusive lock over one state word.  Every call is atomic.  A waiting
`lock` is a call that does not come through yet; a thread in `await` has
released the lock, and takes it again when it was signalled and wakes up.
-/

namespace DripStone.CustomLock

open DripStone.Library

/-- The state word and the owner of the synchroniser, the queues of its
conditions, and the threads that were signalled and have not come back. -/
structure Sync (Thread : Type) where
  state : Int
  exclusiveOwnerThread : Option Thread
  conditionQueue : Nat → List Thread
  signalled : List Thread

inductive Call (Thread : Type) where
  | tryLock (thread : Thread)
  | lock (thread : Thread)
  | unlock (thread : Thread)
  | await (condition : Nat) (thread : Thread)
  | signal (condition : Nat) (thread : Thread)
  -- the end of an `await`
  | wakeUp (thread : Thread)
deriving DecidableEq, Repr

inductive Result where
  | acquired
  | refused
  | blocked
  | released
  | signalled
  | illegalMonitorState
deriving DecidableEq, Repr

structure Event (Thread : Type) where
  call : Call Thread
  result : Result
deriving DecidableEq, Repr

variable {Thread : Type}

def Call.thread : Call Thread → Thread
  | .tryLock thread => thread
  | .lock thread => thread
  | .unlock thread => thread
  | .await _ thread => thread
  | .signal _ thread => thread
  | .wakeUp thread => thread

/-- The calls with which a thread gives the lock up. -/
def Call.isReleasing : Call Thread → Bool
  | .unlock _ => true
  | .await _ _ => true
  | _ => false

/-- The calls that only the holder of the lock may make. -/
def Call.isGuarded : Call Thread → Bool
  | .unlock _ => true
  | .await _ _ => true
  | .signal _ _ => true
  | _ => false

namespace Sync

def new : Sync Thread :=
  { state := 0
    exclusiveOwnerThread := none
    conditionQueue := fun _ => []
    signalled := [] }

def isHeldExclusively (sync : Sync Thread) : Bool :=
  sync.state = 1

/-- `tryAcquire`, in `thread`. -/
def tryAcquire (sync : Sync Thread) (thread : Thread) :
    Sync Thread × Bool :=
  if sync.state = 0 then
    ({ sync with state := 1, exclusiveOwnerThread := some thread }, true)
  else (sync, false)

/-- `tryRelease`; `none` when it throws. -/
def tryRelease (sync : Sync Thread) : Option (Sync Thread) :=
  if sync.state = 0 then none
  else some { sync with state := 0, exclusiveOwnerThread := none }

variable [DecidableEq Thread]

def call (sync : Sync Thread) : Call Thread → Sync Thread × Result
  | .tryLock thread =>
      match sync.tryAcquire thread with
      | (acquired, true) => (acquired, .acquired)
      | (unchanged, false) => (unchanged, .refused)
  | .lock thread =>
      match sync.tryAcquire thread with
      | (acquired, true) => (acquired, .acquired)
      | (unchanged, false) => (unchanged, .blocked)
  | .unlock _ =>
      match sync.tryRelease with
      | some released => (released, .released)
      | none => (sync, .illegalMonitorState)
  | .await condition thread =>
      -- all that the thread holds is released with `tryRelease` again
      match sync.tryRelease with
      | some released =>
          ({ released with
              conditionQueue := Function.update sync.conditionQueue condition
                (sync.conditionQueue condition ++ [thread]) }, .released)
      | none => (sync, .illegalMonitorState)
  | .signal condition _ =>
      if sync.isHeldExclusively then
        match sync.conditionQueue condition with
        | [] => (sync, .signalled)
        | first :: rest =>
            ({ sync with
                conditionQueue :=
                  Function.update sync.conditionQueue condition rest
                signalled := sync.signalled ++ [first] }, .signalled)
      else (sync, .illegalMonitorState)
  | .wakeUp thread =>
      if thread ∈ sync.signalled then
        match sync.tryAcquire thread with
        | (acquired, true) =>
            ({ acquired with signalled := sync.signalled.erase thread },
              .acquired)
        | (unchanged, false) => (unchanged, .blocked)
      else (sync, .blocked)

end Sync

/-- The lock under calls of any threads; its trace is what became of each. -/
def machine [DecidableEq Thread] :
    Mealy (Sync Thread) (Call Thread) (Event Thread) where
  step sync call := ((sync.call call).1, [⟨call, (sync.call call).2⟩])

/-! ## What a call can do -/

/-- A call takes the free lock, gives up a lock that is not free, or leaves
the state and the owner as they were. -/
theorem Sync.call_cases [DecidableEq Thread] (sync : Sync Thread)
    (call : Call Thread) :
    (sync.state = 0 ∧ call.isGuarded = false ∧
      (sync.call call).2 = .acquired ∧ (sync.call call).1.state = 1 ∧
      (sync.call call).1.exclusiveOwnerThread = some call.thread) ∨
    (sync.state ≠ 0 ∧ call.isReleasing = true ∧
      (sync.call call).2 = .released ∧ (sync.call call).1.state = 0 ∧
      (sync.call call).1.exclusiveOwnerThread = none) ∨
    ((call.isReleasing = true → sync.state = 0) ∧
      (sync.call call).2 ≠ .acquired ∧
      (sync.call call).1.state = sync.state ∧
      (sync.call call).1.exclusiveOwnerThread =
        sync.exclusiveOwnerThread) := by
  cases call with
  | tryLock thread =>
      by_cases free : sync.state = 0
      · simp [Sync.call, tryAcquire, free, Call.isGuarded, Call.thread]
      · simp [Sync.call, tryAcquire, free, Call.isReleasing]
  | lock thread =>
      by_cases free : sync.state = 0
      · simp [Sync.call, tryAcquire, free, Call.isGuarded, Call.thread]
      · simp [Sync.call, tryAcquire, free, Call.isReleasing]
  | unlock thread =>
      by_cases free : sync.state = 0
      · simp [Sync.call, tryRelease, free, Call.isGuarded]
      · simp [Sync.call, tryRelease, free, Call.isReleasing]
  | await condition thread =>
      by_cases free : sync.state = 0
      · simp [Sync.call, tryRelease, free, Call.isGuarded]
      · simp [Sync.call, tryRelease, free, Call.isReleasing]
  | signal condition thread =>
      by_cases held : sync.isHeldExclusively = true
      · cases queue : sync.conditionQueue condition with
        | nil => simp [Sync.call, held, queue, Call.isReleasing]
        | cons first rest => simp [Sync.call, held, queue, Call.isReleasing]
      · simp [Sync.call, held, Call.isReleasing]
  | wakeUp thread =>
      by_cases waiting : thread ∈ sync.signalled
      · by_cases free : sync.state = 0
        · simp [Sync.call, tryAcquire, waiting, free, Call.isGuarded,
            Call.thread]
        · simp [Sync.call, tryAcquire, waiting, free, Call.isReleasing]
      · simp [Sync.call, waiting, Call.isReleasing]

/-- On a free lock the calls that only a holder may make throw. -/
theorem Sync.call_of_free [DecidableEq Thread] {sync : Sync Thread}
    {call : Call Thread} (free : sync.state = 0)
    (guarded : call.isGuarded = true) :
    sync.call call = (sync, .illegalMonitorState) := by
  cases call with
  | tryLock thread => simp [Call.isGuarded] at guarded
  | lock thread => simp [Call.isGuarded] at guarded
  | unlock thread => simp [Sync.call, tryRelease, free]
  | await condition thread => simp [Sync.call, tryRelease, free]
  | signal condition thread => simp [Sync.call, isHeldExclusively, free]
  | wakeUp thread => simp [Call.isGuarded] at guarded

/-- On a lock that is held they come through, whoever makes them. -/
theorem Sync.result_of_held [DecidableEq Thread] {sync : Sync Thread}
    {call : Call Thread} (held : sync.state = 1)
    (guarded : call.isGuarded = true) :
    (sync.call call).2 ≠ .illegalMonitorState := by
  cases call with
  | tryLock thread => simp [Call.isGuarded] at guarded
  | lock thread => simp [Call.isGuarded] at guarded
  | unlock thread => simp [Sync.call, tryRelease, held]
  | await condition thread => simp [Sync.call, tryRelease, held]
  | signal condition thread =>
      cases queue : sync.conditionQueue condition with
      | nil => simp [Sync.call, isHeldExclusively, held, queue]
      | cons first rest => simp [Sync.call, isHeldExclusively, held, queue]
  | wakeUp thread => simp [Call.isGuarded] at guarded

end DripStone.CustomLock
