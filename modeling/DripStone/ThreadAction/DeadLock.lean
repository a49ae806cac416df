import DripStone.Library.Guarded
import DripStone.Library.Locks

/-!
# `genDeadLock` and `solveDeadLock`

Two threads take two locks, each its own lock first.  With `synchronized` they
can block each other for ever; with `tryLock` each gives its lock back when it
does not get the other one.  All interleavings of their statements are the
histories of a machine.
-/

namespace DripStone.ThreadAction

open DripStone.Library
open DripStone.Library.Locking

/-- `DeadLock-Thread-1` and `DeadLock-Thread-2`, or the two that follow. -/
inductive Runner where
  | one
  | two
deriving DecidableEq, Repr

/-- The locks are called by the threads that take them first: `lock_1` and
`lock_3` are that of the first thread. -/
abbrev LockOf := Runner

def Runner.other : Runner → Runner
  | .one => .two
  | .two => .one

theorem Runner.forall_iff {holds : Runner → Prop} :
    (∀ runner, holds runner) ↔ holds .one ∧ holds .two := by
  constructor
  · intro all
    exact ⟨all .one, all .two⟩
  · intro both runner
    cases runner with
    | one => exact both.1
    | two => exact both.2

instance {holds : Runner → Prop} [DecidablePred holds] :
    Decidable (∀ runner, holds runner) :=
  decidable_of_iff _ Runner.forall_iff.symm

/-! ## `genDeadLock` -/

/-- The statement of `run()` that a thread comes to. -/
inductive MonitorPc where
  | enterOuter
  | enterInner
  -- in both blocks
  | eat
  | exitOuter
  | ended
deriving DecidableEq, Repr

def MonitorPc.holds (runner : Runner) : MonitorPc → LockOf → Bool
  | .enterOuter, _ => false
  | .enterInner, lock => lock = runner
  | .eat, _ => true
  | .exitOuter, lock => lock = runner
  | .ended, _ => false

abbrev Monitors := Locking Runner LockOf MonitorPc

/-- The next statement of a thread; none while it is blocked or has ended. -/
def genStep (state : Monitors) (runner : Runner) : Option Monitors :=
  match state.pc runner with
  | .enterOuter =>
      (state.take runner runner).map fun taken =>
        taken.goto runner .enterInner
  | .enterInner =>
      (state.take runner runner.other).map fun taken =>
        taken.goto runner .eat
  | .eat =>
      (state.give runner runner.other).map fun given =>
        given.goto runner .exitOuter
  | .exitOuter =>
      (state.give runner runner).map fun given => given.goto runner .ended
  | .ended => none

def genDeadLock : Guarded Monitors Runner :=
  ⟨⟨fun _ => .enterOuter, fun _ => none⟩, genStep⟩

/-! ## `solveDeadLock` -/

inductive TryPc where
  | tryOuter
  | tryInner
  -- with both locks, before the inner `finally`
  | eat
  -- the outer `finally` on the way out of the loop, and on the way round
  | unlockOuter
  | giveUp
  | sleep
  | ended
  -- `unlock` has thrown
  | threw
deriving DecidableEq, Repr

def TryPc.holds (runner : Runner) : TryPc → LockOf → Bool
  | .tryInner, lock => lock = runner
  | .eat, _ => true
  | .unlockOuter, lock => lock = runner
  | .giveUp, lock => lock = runner
  | _, _ => false

abbrev Tries := Locking Runner LockOf TryPc

/-- A thread goes on at one statement or the other, as the lock is taken or
given back, or not. -/
def orElse (state : Tries) (runner : Runner) (attempt : Option Tries)
    (done failed : TryPc) : Tries :=
  match attempt with
  | some next => next.goto runner done
  | none => state.goto runner failed

def solveStep (state : Tries) (runner : Runner) : Option Tries :=
  match state.pc runner with
  | .tryOuter =>
      some (orElse state runner (state.take runner runner) .tryInner .sleep)
  | .tryInner =>
      some (orElse state runner (state.take runner runner.other) .eat .giveUp)
  | .eat =>
      some (orElse state runner (state.give runner runner.other)
        .unlockOuter .threw)
  | .unlockOuter =>
      some (orElse state runner (state.give runner runner) .ended .threw)
  | .giveUp =>
      some (orElse state runner (state.give runner runner) .sleep .threw)
  | .sleep => some (state.goto runner .tryOuter)
  | .ended => none
  | .threw => none

def solveDeadLock : Guarded Tries Runner :=
  ⟨⟨fun _ => .tryOuter, fun _ => none⟩, solveStep⟩

/-! ## Who holds what -/

section Standing

variable {Pc : Type} {holds : Runner → Pc → LockOf → Bool}

/-- The locks are held as the statements of the threads say. -/
abbrev InPlace (holds : Runner → Pc → LockOf → Bool)
    (state : Locking Runner LockOf Pc) : Prop :=
  Placed (fun runner pc lock => holds runner pc lock = true) state

/-- The threads at two statements, with the locks that they hold there. -/
def standing (holds : Runner → Pc → LockOf → Bool) (one two : Pc) :
    Locking Runner LockOf Pc where
  pc
    | .one => one
    | .two => two
  lock lock :=
    if holds .one one lock then some (.one, 1)
    else if holds .two two lock then some (.two, 1)
    else none

theorem standing_lock (one two : Pc) (lock : LockOf) :
    (standing holds one two).lock lock =
      if holds .one one lock then some (.one, 1)
      else if holds .two two lock then some (.two, 1)
      else none := rfl

/-- The statements of the threads are the whole state. -/
theorem eq_standing {state : Locking Runner LockOf Pc}
    (inPlace : InPlace holds state) :
    state = standing holds (state.pc .one) (state.pc .two) := by
  have pcs : state.pc =
      (standing holds (state.pc .one) (state.pc .two)).pc := by
    funext runner
    cases runner with
    | one => rfl
    | two => rfl
  have locks : state.lock =
      (standing holds (state.pc .one) (state.pc .two)).lock := by
    funext lock
    rw [standing_lock]
    by_cases byOne : holds .one (state.pc .one) lock = true
    · rw [if_pos byOne, inPlace.held .one lock byOne]
    · rw [if_neg byOne]
      by_cases byTwo : holds .two (state.pc .two) lock = true
      · rw [if_pos byTwo, inPlace.held .two lock byTwo]
      · rw [if_neg byTwo]
        apply inPlace.free_iff.mpr
        intro runner
        cases runner with
        | one => exact byOne
        | two => exact byTwo
  exact congrArg₂ Locking.mk pcs locks

/-- No lock is held at both statements. -/
def Apart (holds : Runner → Pc → LockOf → Bool) (one two : Pc) : Prop :=
  ∀ lock, ¬(holds .one one lock = true ∧ holds .two two lock = true)

instance (one two : Pc) : Decidable (Apart holds one two) :=
  inferInstanceAs (Decidable (∀ _, ¬_))

theorem apart_of_inPlace {state : Locking Runner LockOf Pc}
    (inPlace : InPlace holds state) :
    Apart holds (state.pc .one) (state.pc .two) := by
  intro lock both
  have same := inPlace.eq_of_holds both.1 both.2
  cases same

end Standing

section Monitors

variable {state next : Monitors} {runner : Runner}

/-- A statement of `genDeadLock` takes a free lock or gives one back. -/
theorem inPlace_genStep (inPlace : InPlace MonitorPc.holds state)
    (stepped : genStep state runner = some next) :
    InPlace MonitorPc.holds next := by
  cases here : state.pc runner with
  | enterOuter =>
      simp only [genStep, here] at stepped
      apply inPlace.enter _ _ stepped
      · simp [here, MonitorPc.holds]
      · simp [here, MonitorPc.holds]
  | enterInner =>
      simp only [genStep, here] at stepped
      apply inPlace.enter _ _ stepped
      · cases runner <;> simp [here, MonitorPc.holds, Runner.other]
      · intro each
        cases runner <;> cases each <;>
          simp [here, MonitorPc.holds, Runner.other]
  | eat =>
      simp only [genStep, here] at stepped
      apply inPlace.leave _ _ stepped
      · simp [here, MonitorPc.holds]
      · intro each
        cases runner <;> cases each <;>
          simp [here, MonitorPc.holds, Runner.other]
  | exitOuter =>
      simp only [genStep, here] at stepped
      apply inPlace.leave _ _ stepped
      · simp [here, MonitorPc.holds]
      · simp [here, MonitorPc.holds]
  | ended =>
      simp only [genStep, here] at stepped
      cases stepped

theorem inPlace_genDeadLock {history : List Runner}
    (reached : genDeadLock.after history = some state) :
    InPlace MonitorPc.holds state := by
  apply Guarded.after_induction (fun _ => InPlace MonitorPc.holds) _ _ reached
  · constructor
    · intro runner lock isHeld
      cases isHeld
    · intro runner lock count owner
      cases owner
  · intro _ before runner after inPlace stepped
    exact inPlace_genStep inPlace stepped

/-- How many statements a thread has before its end. -/
def MonitorPc.left : MonitorPc → Nat
  | .enterOuter => 4
  | .enterInner => 3
  | .eat => 2
  | .exitOuter => 1
  | .ended => 0

/-- A thread that is past its two locks goes first, and so does one whose
rival has not begun. -/
def finishing (one two : MonitorPc) : List Runner :=
  let allOne := List.replicate one.left .one
  let allTwo := List.replicate two.left .two
  if one = .enterOuter ∨ two = .eat ∨ two = .exitOuter then allTwo ++ allOne
  else allOne ++ allTwo

/-- The machine from a state on. -/
def genFrom (state : Monitors) : Guarded Monitors Runner :=
  ⟨state, genStep⟩

/-- The statements of the threads behind a history. -/
def pcsAfter (one two : MonitorPc) (history : List Runner) :
    Option (MonitorPc × MonitorPc) :=
  ((genFrom (standing MonitorPc.holds one two)).after history).map
    fun state => (state.pc .one, state.pc .two)

theorem pcsAfter_finishing {one two : MonitorPc}
    (apart : Apart MonitorPc.holds one two)
    (someOutside : ¬(one = .enterInner ∧ two = .enterInner)) :
    pcsAfter one two (finishing one two) = some (.ended, .ended) := by
  revert apart someOutside
  cases one <;> cases two <;> decide

theorem blocked_iff {one two : MonitorPc}
    (apart : Apart MonitorPc.holds one two) :
    (∀ runner, (genStep (standing MonitorPc.holds one two)
        runner).isNone = true) ↔
      (one = .ended ∧ two = .ended) ∨
        (one = .enterInner ∧ two = .enterInner) := by
  revert apart
  cases one <;> cases two <;> decide

/-- In every state that the threads of `genDeadLock` reach they can both come
to their end, unless each is inside its outer block and asks for the lock of
the other one; and only there is no thread able to go on before its end. -/
theorem genDeadLock_dead_iff {history : List Runner}
    (reached : genDeadLock.after history = some state) :
    ((∃ rest ended, genDeadLock.after (history ++ rest) = some ended ∧
        ∀ runner, ended.pc runner = .ended) ↔
      ¬ ∀ runner, state.pc runner = .enterInner) ∧
    ((∀ runner, genStep state runner = none) ↔
      (∀ runner, state.pc runner = .ended) ∨
        ∀ runner, state.pc runner = .enterInner) := by
  have inPlace := inPlace_genDeadLock reached
  have apart := apart_of_inPlace inPlace
  have whole := eq_standing inPlace
  have blocked := blocked_iff apart
  rw [← whole] at blocked
  simp only [Option.isNone_iff_eq_none] at blocked
  simp only [@Runner.forall_iff fun runner => state.pc runner = _]
  refine ⟨⟨?_, ?_⟩, blocked⟩
  · intro canEnd bothInside
    obtain ⟨rest, ended, isEnd, atEnd⟩ := canEnd
    rw [Guarded.after_append, reached, Option.bind_some] at isEnd
    cases rest with
    | nil =>
        have same : state = ended := Option.some.inj isEnd
        have inside := bothInside.1
        rw [same, atEnd .one] at inside
        cases inside
    | cons runner rest =>
        have stuck := blocked.mpr (Or.inr bothInside) runner
        rw [Guarded.after_cons] at isEnd
        have impossible := (congrArg (Option.bind · _) stuck).symm.trans isEnd
        cases impossible
  · intro someOutside
    have finished := pcsAfter_finishing apart someOutside
    rw [pcsAfter, ← whole] at finished
    obtain ⟨ended, isEnd, pcs⟩ := Option.map_eq_some_iff.mp finished
    refine ⟨finishing (state.pc .one) (state.pc .two), ended, ?_, ?_⟩
    · rw [Guarded.after_append, reached]
      exact isEnd
    · rw [Runner.forall_iff]
      exact Prod.mk.inj pcs

/-- Each thread takes its own lock. -/
theorem genDeadLock_dead_after_two :
    ∃ state, genDeadLock.after [.one, .two] = some state ∧
      ((∃ rest ended, genDeadLock.after ([.one, .two] ++ rest) = some ended ∧
          ∀ runner, ended.pc runner = .ended) ↔
        ¬ ∀ runner, state.pc runner = .enterInner) ∧
      ((∀ runner, genStep state runner = none) ↔
        (∀ runner, state.pc runner = .ended) ∨
          ∀ runner, state.pc runner = .enterInner) :=
  ⟨_, rfl, genDeadLock_dead_iff rfl⟩

end Monitors

section Tries

variable {state next : Tries} {runner : Runner} {lock : LockOf}
variable {done failed : TryPc}

theorem orElse_take (inPlace : InPlace TryPc.holds state)
    (without : ¬TryPc.holds runner (state.pc runner) lock = true) :
    orElse state runner (state.take runner lock) done failed =
      if state.lock lock = none then
        (state.set lock (some (runner, 1))).goto runner done
      else state.goto runner failed := by
  rw [inPlace.take_eq without]
  by_cases free : state.lock lock = none
  · rw [if_pos free, if_pos free, orElse]
  · rw [if_neg free, if_neg free, orElse]

/-- An `unlock` does not throw at a lock that the thread holds. -/
theorem orElse_give (inPlace : InPlace TryPc.holds state)
    (isHeld : TryPc.holds runner (state.pc runner) lock = true) :
    orElse state runner (state.give runner lock) done failed =
      (state.set lock none).goto runner done := by
  rw [inPlace.give_eq isHeld, orElse]

/-- What every state of `solveDeadLock` keeps. -/
structure Sane (state : Tries) : Prop where
  inPlace : InPlace TryPc.holds state
  noThrow : ∀ runner, state.pc runner ≠ .threw

theorem Sane.noThrow_goto (sane : Sane state) {pc : TryPc} (fine : pc ≠ .threw)
    {changed : Tries} (same : changed.pc = state.pc) (each : Runner) :
    (changed.goto runner pc).pc each ≠ .threw := by
  by_cases own : each = runner
  · rw [own, goto_pc_self]
    exact fine
  · rw [goto_pc_of_ne changed pc own, same]
    exact sane.noThrow each

theorem Sane.attempted (sane : Sane state)
    (without : ¬TryPc.holds runner (state.pc runner) lock = true)
    (more : ∀ each, TryPc.holds runner done each = true ↔
      TryPc.holds runner (state.pc runner) each = true ∨ each = lock)
    (same : ∀ each, TryPc.holds runner failed each = true ↔
      TryPc.holds runner (state.pc runner) each = true)
    (fine : done ≠ .threw ∧ failed ≠ .threw) :
    Sane (orElse state runner (state.take runner lock) done failed) := by
  rw [orElse_take sane.inPlace without]
  by_cases free : state.lock lock = none
  · rw [if_pos free]
    exact ⟨sane.inPlace.taken free more, sane.noThrow_goto fine.1 rfl⟩
  · rw [if_neg free]
    exact ⟨sane.inPlace.goto same, sane.noThrow_goto fine.2 rfl⟩

theorem Sane.unlocked (sane : Sane state)
    (isHeld : TryPc.holds runner (state.pc runner) lock = true)
    (less : ∀ each, TryPc.holds runner done each = true ↔
      TryPc.holds runner (state.pc runner) each = true ∧ each ≠ lock)
    (fine : done ≠ .threw) :
    Sane (orElse state runner (state.give runner lock) done failed) := by
  rw [orElse_give sane.inPlace isHeld]
  exact ⟨sane.inPlace.given isHeld less, sane.noThrow_goto fine rfl⟩

theorem Sane.step (sane : Sane state)
    (stepped : solveStep state runner = some next) : Sane next := by
  cases here : state.pc runner with
  | tryOuter =>
      simp only [solveStep, here, Option.some_inj] at stepped
      rw [← stepped]
      apply sane.attempted
      · simp [here, TryPc.holds]
      · simp [here, TryPc.holds]
      · simp [here, TryPc.holds]
      · decide
  | tryInner =>
      simp only [solveStep, here, Option.some_inj] at stepped
      rw [← stepped]
      apply sane.attempted
      · cases runner <;> simp [here, TryPc.holds, Runner.other]
      · intro each
        cases runner <;> cases each <;>
          simp [here, TryPc.holds, Runner.other]
      · simp [here, TryPc.holds]
      · decide
  | eat =>
      simp only [solveStep, here, Option.some_inj] at stepped
      rw [← stepped]
      apply sane.unlocked
      · simp [here, TryPc.holds]
      · intro each
        cases runner <;> cases each <;>
          simp [here, TryPc.holds, Runner.other]
      · decide
  | unlockOuter =>
      simp only [solveStep, here, Option.some_inj] at stepped
      rw [← stepped]
      apply sane.unlocked
      · simp [here, TryPc.holds]
      · simp [here, TryPc.holds]
      · decide
  | giveUp =>
      simp only [solveStep, here, Option.some_inj] at stepped
      rw [← stepped]
      apply sane.unlocked
      · simp [here, TryPc.holds]
      · simp [here, TryPc.holds]
      · decide
  | sleep =>
      simp only [solveStep, here, Option.some_inj] at stepped
      rw [← stepped]
      refine ⟨sane.inPlace.goto ?_, sane.noThrow_goto (by decide) rfl⟩
      simp [here, TryPc.holds]
  | ended =>
      simp only [solveStep, here] at stepped
      cases stepped
  | threw => exact absurd here (sane.noThrow runner)

theorem sane_solveDeadLock {history : List Runner}
    (reached : solveDeadLock.after history = some state) : Sane state := by
  apply Guarded.after_induction (fun _ => Sane) _ _ reached
  · refine ⟨⟨?_, ?_⟩, ?_⟩
    · intro runner lock isHeld
      cases isHeld
    · intro runner lock count owner
      cases owner
    · intro runner threw
      cases threw
  · intro _ before runner after sane stepped
    exact sane.step stepped

/-- In every interleaving of `solveDeadLock` only one thread at a time has
both locks, every lock is held exactly by the thread that its statement says,
so that none is left behind, and no `unlock` throws. -/
theorem solveDeadLock_safe {history : List Runner}
    (reached : solveDeadLock.after history = some state) :
    ¬(state.pc .one = .eat ∧ state.pc .two = .eat) ∧
      (∀ runner, state.pc runner ≠ .threw) ∧
      (∀ runner lock, state.lock lock = some (runner, 1) ↔
        TryPc.holds runner (state.pc runner) lock = true) ∧
      (∀ lock, state.lock lock = none ↔
        ∀ runner, TryPc.holds runner (state.pc runner) lock = false) := by
  have sane := sane_solveDeadLock reached
  refine ⟨?_, sane.noThrow, ?_, ?_⟩
  · intro both
    apply apart_of_inPlace sane.inPlace .one
    rw [both.1, both.2]
    exact ⟨rfl, rfl⟩
  · intro runner lock
    exact ⟨sane.inPlace.owned runner lock 1, sane.inPlace.held runner lock⟩
  · intro lock
    rw [sane.inPlace.free_iff]
    simp only [Bool.not_eq_true]

/-- The first thread has both locks, and the second one does not get its
own. -/
theorem solveDeadLock_safe_while_eating :
    ∃ state, solveDeadLock.after [.one, .one, .two] = some state ∧
      ¬(state.pc .one = .eat ∧ state.pc .two = .eat) ∧
      (∀ runner, state.pc runner ≠ .threw) ∧
      (∀ runner lock, state.lock lock = some (runner, 1) ↔
        TryPc.holds runner (state.pc runner) lock = true) ∧
      (∀ lock, state.lock lock = none ↔
        ∀ runner, TryPc.holds runner (state.pc runner) lock = false) :=
  ⟨_, rfl, @solveDeadLock_safe _ [.one, .one, .two] rfl⟩

/-- How many statements a thread has before its end while nobody is in its
way. -/
def TryPc.left : TryPc → Nat
  | .giveUp => 6
  | .sleep => 5
  | .tryOuter => 4
  | .tryInner => 3
  | .eat => 2
  | .unlockOuter => 1
  | .ended => 0
  | .threw => 0

def TryPc.outside : TryPc → Bool
  | .tryOuter => true
  | .sleep => true
  | .ended => true
  | _ => false

/-- The machine from a state on. -/
def solveFrom (state : Tries) : Guarded Tries Runner :=
  ⟨state, solveStep⟩

/-- The statements of the threads behind a history. -/
def triesAfter (one two : TryPc) (history : List Runner) :
    Option (TryPc × TryPc) :=
  ((solveFrom (standing TryPc.holds one two)).after history).map
    fun state => (state.pc .one, state.pc .two)

theorem outside_of_holds_none {pc : TryPc} (fine : pc ≠ .threw)
    (without : ∀ lock, TryPc.holds runner pc lock = false) :
    pc.outside = true := by
  revert fine without
  cases runner <;> cases pc <;> decide

/-- A thread alone, beside one that has no lock. -/
theorem one_alone {one two : TryPc} (fine : one ≠ .threw)
    (outside : two.outside = true) :
    triesAfter one two (List.replicate one.left .one) =
      some (.ended, two) := by
  revert fine outside
  cases one <;> cases two <;> decide

theorem two_alone {one two : TryPc} (fine : two ≠ .threw)
    (outside : one.outside = true) :
    triesAfter one two (List.replicate two.left .two) =
      some (one, .ended) := by
  revert fine outside
  cases one <;> cases two <;> decide

/-- The first thread goes on until it has no lock, whatever the second one
holds. -/
theorem one_lets_go {one two : TryPc} (fine : one ≠ .threw)
    (apart : Apart TryPc.holds one two) :
    ∃ count, count ≤ 3 ∧
      (triesAfter one two (List.replicate count .one) = some (.ended, two) ∨
        triesAfter one two (List.replicate count .one) = some (.sleep, two) ∨
        triesAfter one two (List.replicate count .one) =
          some (.tryOuter, two)) := by
  revert fine apart
  cases one <;> cases two <;> decide

/-- What the statements of the threads tell of a history goes for the machine
in every state that it reaches. -/
theorem exists_after_of_triesAfter {history rest : List Runner}
    {one two : TryPc} (reached : solveDeadLock.after history = some state)
    (told : triesAfter (state.pc .one) (state.pc .two) rest =
      some (one, two)) :
    ∃ next, solveDeadLock.after (history ++ rest) = some next ∧
      next.pc .one = one ∧ next.pc .two = two := by
  have whole := eq_standing (sane_solveDeadLock reached).inPlace
  rw [triesAfter, ← whole] at told
  obtain ⟨next, isNext, pcs⟩ := Option.map_eq_some_iff.mp told
  refine ⟨next, ?_, Prod.mk.inj pcs⟩
  rw [Guarded.after_append, reached]
  exact isNext

/-- A thread of `solveDeadLock` that is left alone beside one without a lock
comes to its end within six statements. -/
theorem solveDeadLock_alone {history : List Runner}
    (reached : solveDeadLock.after history = some state)
    (without : ∀ lock, TryPc.holds runner.other (state.pc runner.other) lock =
      false) :
    ∃ count ended, count ≤ 6 ∧
      solveDeadLock.after (history ++ List.replicate count runner) =
        some ended ∧
      ended.pc runner = .ended := by
  have sane := sane_solveDeadLock reached
  have outside := outside_of_holds_none (sane.noThrow runner.other) without
  have few : (state.pc runner).left ≤ 6 := by
    cases state.pc runner <;> decide
  cases runner with
  | one =>
      obtain ⟨ended, isEnd, atEnd, _⟩ := exists_after_of_triesAfter reached
        (one_alone (sane.noThrow .one) outside)
      exact ⟨_, ended, few, isEnd, atEnd⟩
  | two =>
      obtain ⟨ended, isEnd, _, atEnd⟩ := exists_after_of_triesAfter reached
        (two_alone (sane.noThrow .two) outside)
      exact ⟨_, ended, few, isEnd, atEnd⟩

/-- The first thread has its own lock. -/
theorem solveDeadLock_alone_after_one :
    ∃ state, solveDeadLock.after [.one] = some state ∧
      ∃ count ended, count ≤ 6 ∧
        solveDeadLock.after ([.one] ++ List.replicate count .one) =
          some ended ∧
        ended.pc .one = .ended :=
  ⟨_, rfl, @solveDeadLock_alone _ .one [.one] rfl (by decide)⟩

/-- From every state that the threads of `solveDeadLock` reach they can both
come to their end, in no more than fourteen statements. -/
theorem solveDeadLock_can_end {history : List Runner}
    (reached : solveDeadLock.after history = some state) :
    ∃ rest ended, rest.length ≤ 14 ∧
      solveDeadLock.after (history ++ rest) = some ended ∧
      ∀ runner, ended.pc runner = .ended := by
  have sane := sane_solveDeadLock reached
  obtain ⟨count, few, letsGo⟩ := one_lets_go (sane.noThrow .one)
    (apart_of_inPlace sane.inPlace)
  have outside : ∃ one, TryPc.outside one = true ∧ one.left ≤ 5 ∧
      triesAfter (state.pc .one) (state.pc .two)
        (List.replicate count .one) = some (one, state.pc .two) := by
    rcases letsGo with atEnd | asleep | again
    · exact ⟨.ended, rfl, by decide, atEnd⟩
    · exact ⟨.sleep, rfl, by decide, asleep⟩
    · exact ⟨.tryOuter, rfl, by decide, again⟩
  obtain ⟨one, isOutside, leftOne, told⟩ := outside
  -- the first thread has let go, and the second one comes to its end
  obtain ⟨next, isNext, oneNext, twoNext⟩ :=
    exists_after_of_triesAfter reached told
  rw [← oneNext] at isOutside leftOne
  have saneNext := sane_solveDeadLock isNext
  obtain ⟨later, isLater, oneLater, twoLater⟩ :=
    exists_after_of_triesAfter isNext
      (two_alone (saneNext.noThrow .two) isOutside)
  have saneLater := sane_solveDeadLock isLater
  obtain ⟨ended, isEnd, oneEnded, twoEnded⟩ :=
    exists_after_of_triesAfter isLater
      (one_alone (saneLater.noThrow .one) (by rw [twoLater]; rfl))
  rw [List.append_assoc, List.append_assoc] at isEnd
  refine ⟨_, ended, ?_, isEnd, ?_⟩
  · have leftTwo : (next.pc .two).left ≤ 6 := by
      cases next.pc .two <;> decide
    rw [← oneLater] at leftOne
    simp only [List.length_append, List.length_replicate]
    omega
  · rw [Runner.forall_iff]
    exact ⟨oneEnded, twoEnded.trans twoLater⟩

/-- Where `genDeadLock` is dead. -/
theorem solveDeadLock_can_end_after_two :
    ∃ state, solveDeadLock.after [.one, .two] = some state ∧
      ∃ rest ended, rest.length ≤ 14 ∧
        solveDeadLock.after ([.one, .two] ++ rest) = some ended ∧
        ∀ runner, ended.pc runner = .ended :=
  ⟨_, rfl, @solveDeadLock_can_end _ [.one, .two] rfl⟩

/-- Both threads take their own lock, give it back and try again. -/
def round : List Runner :=
  [.one, .two, .one, .two, .one, .two, .one, .two]

/-- They need not come to their end: turn by turn they can go round for
ever. -/
theorem after_rounds (rounds : Nat) :
    solveDeadLock.after (List.replicate rounds round).flatten =
      some solveDeadLock.start := by
  induction rounds with
  | zero => rfl
  | succ rounds inductionHypothesis =>
      obtain ⟨next, isNext, one, two⟩ :=
        @exists_after_of_triesAfter solveDeadLock.start [] round .tryOuter
          .tryOuter rfl (by decide)
      have start := eq_standing (@sane_solveDeadLock _ [] rfl).inPlace
      have whole := eq_standing (sane_solveDeadLock isNext).inPlace
      rw [one, two] at whole
      rw [List.replicate_succ, List.flatten_cons, Guarded.after_append,
        ← List.nil_append round, isNext, whole]
      exact (congrArg (fun state => (solveFrom state).after _) start).symm.trans
        inductionHypothesis

end Tries

end DripStone.ThreadAction
