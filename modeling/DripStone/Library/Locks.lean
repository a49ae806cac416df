import Mathlib

/-!
# Threads and locks

Every thread stands at a statement, and every lock says which thread holds it
and how often.  Where the statement of a thread tells which locks it holds,
three lemmas keep it so: for a statement that takes a lock, for one that gives
it back, and for one that does neither.
-/

namespace DripStone.Library

/-- Threads at their statements, and reentrant locks with their holders. -/
structure Locking (Thread Lock Pc : Type) where
  pc : Thread → Pc
  lock : Lock → Option (Thread × Nat)

namespace Locking

variable {Thread Lock Pc : Type} [DecidableEq Thread] [DecidableEq Lock]

def goto (state : Locking Thread Lock Pc) (thread : Thread) (pc : Pc) :
    Locking Thread Lock Pc :=
  { state with pc := Function.update state.pc thread pc }

def set (state : Locking Thread Lock Pc) (lock : Lock)
    (held : Option (Thread × Nat)) : Locking Thread Lock Pc :=
  { state with lock := Function.update state.lock lock held }

/-- A lock is taken when it is free or the thread's own. -/
def take (state : Locking Thread Lock Pc) (thread : Thread) (lock : Lock) :
    Option (Locking Thread Lock Pc) :=
  match state.lock lock with
  | none => some (state.set lock (some (thread, 1)))
  | some (owner, count) =>
      if owner = thread then some (state.set lock (some (owner, count + 1)))
      else none

/-- A lock is given back by the thread that holds it, and by no other. -/
def give (state : Locking Thread Lock Pc) (thread : Thread) (lock : Lock) :
    Option (Locking Thread Lock Pc) :=
  match state.lock lock with
  | none => none
  | some (owner, count) =>
      if owner = thread then
        some (state.set lock
          (if count = 1 then none else some (owner, count - 1)))
      else none

section Equations

variable (state : Locking Thread Lock Pc) {thread other : Thread}
variable {lock each : Lock} (pc : Pc) (held : Option (Thread × Nat))

omit [DecidableEq Lock] in
@[simp]
theorem goto_pc_self : (state.goto thread pc).pc thread = pc :=
  Function.update_self ..

omit [DecidableEq Lock] in
theorem goto_pc_of_ne (different : other ≠ thread) :
    (state.goto thread pc).pc other = state.pc other :=
  Function.update_of_ne different ..

omit [DecidableEq Lock] in
@[simp]
theorem goto_lock : (state.goto thread pc).lock = state.lock := rfl

omit [DecidableEq Thread] in
@[simp]
theorem set_pc : (state.set lock held).pc = state.pc := rfl

omit [DecidableEq Thread] in
@[simp]
theorem set_lock_self : (state.set lock held).lock lock = held :=
  Function.update_self ..

omit [DecidableEq Thread] in
theorem set_lock_of_ne (different : each ≠ lock) :
    (state.set lock held).lock each = state.lock each :=
  Function.update_of_ne different ..

end Equations

/-- The locks are held, once each, by the threads whose statements say so. -/
structure Placed (holds : Thread → Pc → Lock → Prop)
    (state : Locking Thread Lock Pc) : Prop where
  held : ∀ thread lock, holds thread (state.pc thread) lock →
    state.lock lock = some (thread, 1)
  owned : ∀ thread lock count, state.lock lock = some (thread, count) →
    holds thread (state.pc thread) lock

variable {holds : Thread → Pc → Lock → Prop}
variable {state : Locking Thread Lock Pc} {thread other : Thread}
variable {lock : Lock} {pc : Pc}

omit [DecidableEq Thread] [DecidableEq Lock] in
/-- No two threads hold a lock. -/
theorem Placed.eq_of_holds (placed : Placed holds state)
    (first : holds thread (state.pc thread) lock)
    (second : holds other (state.pc other) lock) : thread = other := by
  have same := placed.held thread lock first
  rw [placed.held other lock second] at same
  exact (Prod.mk.inj (Option.some.inj same)).1.symm

omit [DecidableEq Thread] [DecidableEq Lock] in
theorem Placed.free_iff (placed : Placed holds state) :
    state.lock lock = none ↔
      ∀ thread, ¬holds thread (state.pc thread) lock := by
  constructor
  · intro free thread isHeld
    rw [placed.held thread lock isHeld] at free
    cases free
  · intro unheld
    cases owner : state.lock lock with
    | none => rfl
    | some owned =>
        exact absurd (placed.owned owned.1 lock owned.2 owner)
          (unheld owned.1)

theorem take_of_free (free : state.lock lock = none) :
    state.take thread lock = some (state.set lock (some (thread, 1))) := by
  rw [take, free]

/-- A thread takes a lock that it does not hold when no other one does. -/
theorem Placed.take_eq (placed : Placed holds state)
    (without : ¬holds thread (state.pc thread) lock) :
    state.take thread lock =
      if state.lock lock = none then
        some (state.set lock (some (thread, 1)))
      else none := by
  cases owner : state.lock lock with
  | none => rw [take_of_free owner, if_pos rfl]
  | some owned =>
      have isHeld := placed.owned owned.1 lock owned.2 owner
      have different : owned.1 ≠ thread := by
        intro same
        rw [same] at isHeld
        exact without isHeld
      rw [take, owner, if_neg (Option.some_ne_none _)]
      exact if_neg different

theorem Placed.give_eq (placed : Placed holds state)
    (isHeld : holds thread (state.pc thread) lock) :
    state.give thread lock = some (state.set lock none) := by
  rw [give, placed.held thread lock isHeld]
  simp

omit [DecidableEq Lock] in
theorem Placed.goto (placed : Placed holds state)
    (same : ∀ lock, holds thread pc lock ↔
      holds thread (state.pc thread) lock) :
    Placed holds (state.goto thread pc) where
  held := by
    intro other lock isHeld
    by_cases own : other = thread
    · rw [own, goto_pc_self] at isHeld
      rw [own]
      exact placed.held thread lock ((same lock).mp isHeld)
    · rw [goto_pc_of_ne state pc own] at isHeld
      exact placed.held other lock isHeld
  owned := by
    intro other lock count owner
    have before := placed.owned other lock count owner
    by_cases own : other = thread
    · rw [own] at before ⊢
      rw [goto_pc_self]
      exact (same lock).mpr before
    · rw [goto_pc_of_ne state pc own]
      exact before

theorem Placed.taken (placed : Placed holds state)
    (free : state.lock lock = none)
    (more : ∀ each, holds thread pc each ↔
      holds thread (state.pc thread) each ∨ each = lock) :
    Placed holds ((state.set lock (some (thread, 1))).goto thread pc) where
  held := by
    intro other each isHeld
    rw [goto_lock]
    by_cases own : other = thread
    · rw [own, goto_pc_self] at isHeld
      rw [own]
      by_cases same : each = lock
      · rw [same, set_lock_self]
      · rw [set_lock_of_ne state _ same]
        exact placed.held thread each
          (((more each).mp isHeld).resolve_right same)
    · rw [goto_pc_of_ne _ pc own, set_pc] at isHeld
      have before := placed.held other each isHeld
      have different : each ≠ lock := by
        intro same
        rw [same, free] at before
        cases before
      rw [set_lock_of_ne state _ different]
      exact before
  owned := by
    intro other each count owner
    rw [goto_lock] at owner
    by_cases same : each = lock
    · rw [same, set_lock_self] at owner
      have own := (Prod.mk.inj (Option.some.inj owner)).1
      rw [← own, goto_pc_self, same]
      exact (more lock).mpr (Or.inr rfl)
    · rw [set_lock_of_ne state _ same] at owner
      have before := placed.owned other each count owner
      by_cases own : other = thread
      · rw [own] at before ⊢
        rw [goto_pc_self]
        exact (more each).mpr (Or.inl before)
      · rw [goto_pc_of_ne _ pc own]
        exact before

theorem Placed.given (placed : Placed holds state)
    (isHeld : holds thread (state.pc thread) lock)
    (less : ∀ each, holds thread pc each ↔
      holds thread (state.pc thread) each ∧ each ≠ lock) :
    Placed holds ((state.set lock none).goto thread pc) where
  held := by
    intro other each heldAfter
    rw [goto_lock]
    by_cases own : other = thread
    · rw [own, goto_pc_self] at heldAfter
      have before := (less each).mp heldAfter
      rw [own, set_lock_of_ne state _ before.2]
      exact placed.held thread each before.1
    · rw [goto_pc_of_ne _ pc own, set_pc] at heldAfter
      have different : each ≠ lock := by
        intro same
        rw [same] at heldAfter
        exact own (placed.eq_of_holds heldAfter isHeld)
      rw [set_lock_of_ne state _ different]
      exact placed.held other each heldAfter
  owned := by
    intro other each count owner
    rw [goto_lock] at owner
    by_cases same : each = lock
    · rw [same, set_lock_self] at owner
      cases owner
    · rw [set_lock_of_ne state _ same] at owner
      have before := placed.owned other each count owner
      by_cases own : other = thread
      · rw [own] at before ⊢
        rw [goto_pc_self]
        exact (less each).mpr ⟨before, same⟩
      · rw [goto_pc_of_ne _ pc own]
        exact before

/-- A statement that a thread reaches when it has taken a lock. -/
theorem Placed.enter (placed : Placed holds state)
    (without : ¬holds thread (state.pc thread) lock)
    (more : ∀ each, holds thread pc each ↔
      holds thread (state.pc thread) each ∨ each = lock)
    {next : Locking Thread Lock Pc}
    (entered : (state.take thread lock).map
      (fun taken => taken.goto thread pc) = some next) :
    Placed holds next := by
  rw [placed.take_eq without] at entered
  by_cases free : state.lock lock = none
  · rw [if_pos free, Option.map_some, Option.some_inj] at entered
    rw [← entered]
    exact placed.taken free more
  · rw [if_neg free] at entered
    cases entered

/-- A statement that a thread reaches when it has given a lock back. -/
theorem Placed.leave (placed : Placed holds state)
    (isHeld : holds thread (state.pc thread) lock)
    (less : ∀ each, holds thread pc each ↔
      holds thread (state.pc thread) each ∧ each ≠ lock)
    {next : Locking Thread Lock Pc}
    (left : (state.give thread lock).map
      (fun given => given.goto thread pc) = some next) :
    Placed holds next := by
  rw [placed.give_eq isHeld, Option.map_some, Option.some_inj] at left
  rw [← left]
  exact placed.given isHeld less

end Locking

end DripStone.Library
