import DripStone.ReenterLock.Model

/-!
# Who holds the lock

`tryRelease` publishes the state word before it clears the owner field, and
`tryAcquire` sets the owner field after it has taken the state word.  As long
as no thread writes the state word on the strength of an owner field that is
out of date, and no thread clears the name of a holder, the state word counts
the acquisitions of the only holder and the owner field names it.
-/

namespace DripStone.ReenterLock

open DripStone.Library

variable {Thread : Type} [DecidableEq Thread]

/-! ## The law -/

/-- At most one thread has acquisitions it has not released. -/
def OneHolder (sync : Sync Thread) : Prop :=
  ∀ thread other, 0 < sync.holds thread → 0 < sync.holds other →
    thread = other

/-- Every `unlock` that a thread in no call can make for its acquisitions
returns. -/
def CanUnlock (sync : Sync Thread) : Prop :=
  ∀ thread, sync.pc thread = .idle →
    (customReenterLock Thread).trace sync
        (List.replicate (sync.holds thread) (unlock thread)).flatten =
      List.replicate (sync.holds thread) (.released thread)

/-- No `unlock` of a holder throws. -/
def ThrowsAtStrangers (sync : Sync Thread) (action : Action Thread) : Prop :=
  ∀ thread, .illegalMonitorState thread ∈ (sync.perform action).2 →
    sync.holds thread = 0

/-- What an atomic step must respect: the state word is written by a holder,
which stays below the range of an `int`, and the name of another holder is
not cleared. -/
def Respects (sync : Sync Thread) (thread : Thread) : Pc → Prop
  | .acquireSetState _ =>
      0 < sync.holds thread ∧ sync.holds thread + 1 < 2 ^ 32
  | .releaseSetState _ => 0 < sync.holds thread
  | .clearExclusiveOwnerThread =>
      ∀ other, other ≠ thread →
        sync.exclusiveOwnerThread = some other → sync.holds other = 0
  | _ => True

def Undisturbed (sync : Sync Thread) : Action Thread → Prop
  | .step thread => Respects sync thread (sync.pc thread)
  | _ => True

instance [Fintype Thread] (sync : Sync Thread) (thread : Thread) :
    ∀ pc, Decidable (Respects sync thread pc)
  | .acquireSetState _ => inferInstanceAs (Decidable (_ ∧ _))
  | .releaseSetState _ => inferInstanceAs (Decidable (_ < _))
  | .clearExclusiveOwnerThread => inferInstanceAs (Decidable (∀ _, _ → _))
  | .idle | .compareAndSetState | .setExclusiveOwnerThread
  | .acquireGetOwner | .acquireGetState | .releaseGetOwner
  | .releaseCheckState | .releaseGetState | .releaseRecheckState =>
      .isTrue trivial

instance [Fintype Thread] (sync : Sync Thread) :
    ∀ action, Decidable (Undisturbed sync action)
  | .step thread =>
      inferInstanceAs (Decidable (Respects sync thread (sync.pc thread)))
  | .tryAcquire _ | .tryRelease _ => .isTrue trivial

/-! ## The invariant -/

theorem ofNat_eq_zero {count : Nat} (small : count < 2 ^ 32) :
    BitVec.ofNat 32 count = 0#32 ↔ count = 0 := by
  constructor
  · intro zero
    have value := congrArg BitVec.toNat zero
    rw [BitVec.toNat_ofNat, Nat.mod_eq_of_lt small] at value
    simpa using value
  · intro zero
    rw [zero]

/-- What is known of a thread in the middle of a call. -/
def Placed (state : BitVec 32) (held : Nat) : Pc → Prop
  | .setExclusiveOwnerThread => held = 1
  | .acquireSetState read => 0 < held → read = state
  | .releaseSetState read => 0 < held → read = state
  | .clearExclusiveOwnerThread => held = 0
  | _ => True

/-- A thread that holds nothing is bound to no value of the word. -/
theorem Placed.of_none {state other : BitVec 32} {pc : Pc}
    (placed : Placed state 0 pc) : Placed other 0 pc := by
  cases pc with
  | acquireSetState read => exact fun held => absurd held (lt_irrefl 0)
  | releaseSetState read => exact fun held => absurd held (lt_irrefl 0)
  | _ => exact placed

structure Inv (sync : Sync Thread) : Prop where
  one : OneHolder sync
  word : ∀ thread, 0 < sync.holds thread →
    sync.state = BitVec.ofNat 32 (sync.holds thread)
  free : (∀ thread, sync.holds thread = 0) → sync.state = 0
  bound : ∀ thread, sync.holds thread < 2 ^ 32
  owner : ∀ thread, 0 < sync.holds thread →
    sync.exclusiveOwnerThread = some thread ∨
      sync.pc thread = .setExclusiveOwnerThread
  placed : ∀ thread,
    Placed sync.state (sync.holds thread) (sync.pc thread)

omit [DecidableEq Thread] in
theorem inv_new : Inv (Sync.new : Sync Thread) where
  one := by intro thread other held; exact absurd held (lt_irrefl 0)
  word := by intro thread held; exact absurd held (lt_irrefl 0)
  free := fun _ => rfl
  bound := by intro thread; exact Nat.two_pow_pos 32
  owner := by intro thread held; exact absurd held (lt_irrefl 0)
  placed := fun _ => trivial

namespace Inv

variable {sync : Sync Thread} {thread : Thread}

omit [DecidableEq Thread] in
/-- A holder finds the state word taken. -/
theorem state_ne_zero (inv : Inv sync) (held : 0 < sync.holds thread) :
    sync.state ≠ 0 := by
  rw [inv.word thread held]
  intro zero
  have none := (ofNat_eq_zero (inv.bound thread)).mp zero
  omega

omit [DecidableEq Thread] in
theorem free_of_state (inv : Inv sync) (zero : sync.state = 0)
    (other : Thread) : sync.holds other = 0 := by
  by_contra held
  exact inv.state_ne_zero (Nat.pos_of_ne_zero held) zero

omit [DecidableEq Thread] in
theorem alone (inv : Inv sync) (held : 0 < sync.holds thread)
    (other : Thread) (different : other ≠ thread) :
    sync.holds other = 0 := by
  by_contra holding
  exact different
    (inv.one other thread (Nat.pos_of_ne_zero holding) held)

/-- A step that writes neither word nor owner field. -/
theorem goto (inv : Inv sync) {pc : Pc}
    (left : sync.pc thread ≠ .setExclusiveOwnerThread)
    (placed : Placed sync.state (sync.holds thread) pc) :
    Inv (sync.goto thread pc) where
  one := inv.one
  word := inv.word
  free := inv.free
  bound := inv.bound
  owner := by
    intro other held
    by_cases same : other = thread
    · subst same
      exact (inv.owner other held).imp_right fun atSetting =>
        absurd atSetting left
    · rw [Sync.goto_pc_of_ne _ _ same]
      exact inv.owner other held
  placed := by
    intro other
    by_cases same : other = thread
    · subst same
      simpa using placed
    · rw [Sync.goto_pc_of_ne _ _ same]
      exact inv.placed other

/-- A thread writes its number of acquisitions while no other holds any. -/
theorem write (inv : Inv sync) {pc : Pc} {count : Nat}
    (alone : ∀ other, other ≠ thread → sync.holds other = 0)
    (small : count < 2 ^ 32)
    (owner : 0 < count → sync.exclusiveOwnerThread = some thread ∨
      pc = .setExclusiveOwnerThread)
    (placed : Placed (BitVec.ofNat 32 count) count pc) :
    Inv (Sync.goto
      { sync with
        state := BitVec.ofNat 32 count
        holds := Function.update sync.holds thread count } thread pc) where
  one := by
    intro first second heldFirst heldSecond
    have only : ∀ other, 0 < Function.update sync.holds thread count other →
        other = thread := by
      intro other held
      by_contra different
      rw [Function.update_of_ne different, alone other different] at held
      exact absurd held (lt_irrefl 0)
    rw [only first heldFirst, only second heldSecond]
  word := by
    intro other held
    by_cases same : other = thread
    · subst same
      simp
    · simp [same, alone other same] at held
  free := by
    intro none
    have zero : count = 0 := by simpa using none thread
    simp [zero]
  bound := by
    intro other
    by_cases same : other = thread
    · subst same
      simpa using small
    · simp [same, alone other same]
  owner := by
    intro other held
    by_cases same : other = thread
    · subst same
      simpa using owner (by simpa using held)
    · simp [same, alone other same] at held
  placed := by
    intro other
    by_cases same : other = thread
    · subst same
      simpa using placed
    · have before := inv.placed other
      rw [alone other same] at before
      rw [Sync.goto_pc_of_ne _ _ same, Sync.goto_holds, Sync.goto_state]
      have none : Function.update sync.holds thread count other = 0 := by
        rw [Function.update_of_ne same, alone other same]
      show Placed _ (Function.update sync.holds thread count other)
        (sync.pc other)
      rw [none]
      exact before.of_none

/-- The owner field names the thread that took the state word. -/
theorem setOwner (inv : Inv sync)
    (atSetting : sync.pc thread = .setExclusiveOwnerThread) :
    Inv (Sync.goto { sync with exclusiveOwnerThread := some thread } thread
      .idle) where
  one := inv.one
  word := inv.word
  free := inv.free
  bound := inv.bound
  owner := by
    intro other held
    have one : sync.holds thread = 1 := by
      have placed := inv.placed thread
      rwa [atSetting] at placed
    have same : other = thread := inv.one other thread held (by omega)
    exact Or.inl (congrArg some same.symm)
  placed := by
    intro other
    by_cases same : other = thread
    · subst same
      rw [Sync.goto_pc_self]
      trivial
    · rw [Sync.goto_pc_of_ne _ _ same]
      exact inv.placed other

/-- The owner field is cleared while it names no holder. -/
theorem clearOwner (inv : Inv sync)
    (atClear : sync.pc thread = .clearExclusiveOwnerThread)
    (stranger : ∀ other, other ≠ thread →
      sync.exclusiveOwnerThread = some other → sync.holds other = 0) :
    Inv (Sync.goto { sync with exclusiveOwnerThread := none } thread
      .idle) where
  one := inv.one
  word := inv.word
  free := inv.free
  bound := inv.bound
  owner := by
    intro other held
    have holding : 0 < sync.holds other := held
    have none : sync.holds thread = 0 := by
      have placed := inv.placed thread
      rwa [atClear] at placed
    have different : other ≠ thread := by
      intro same
      rw [same, none] at holding
      exact absurd holding (lt_irrefl 0)
    rcases inv.owner other holding with named | atSetting
    · have released := stranger other different named
      omega
    · exact Or.inr (by rwa [Sync.goto_pc_of_ne _ _ different])
  placed := by
    intro other
    by_cases same : other = thread
    · subst same
      rw [Sync.goto_pc_self]
      trivial
    · rw [Sync.goto_pc_of_ne _ _ same]
      exact inv.placed other

end Inv

/-! ## Steps and runs -/

namespace Inv

variable {sync : Sync Thread}

/-- Step lemma, one case for each place of the thread. -/
theorem advance (inv : Inv sync) (thread : Thread)
    (undisturbed : Undisturbed sync (.step thread)) :
    Inv (sync.advance thread).1 := by
  unfold Sync.advance
  cases place : sync.pc thread with
  | idle => exact inv
  | compareAndSetState =>
      have left : sync.pc thread ≠ .setExclusiveOwnerThread := by
        simp [place]
      by_cases zero : sync.state = 0
      · simp only [if_pos zero]
        have none := inv.free_of_state zero
        rw [none thread]
        apply inv.write (fun other _ => none other)
        · norm_num
        · exact fun _ => Or.inr rfl
        · rfl
      · simp only [if_neg zero]
        exact inv.goto left trivial
  | setExclusiveOwnerThread => exact inv.setOwner place
  | acquireGetOwner =>
      have left : sync.pc thread ≠ .setExclusiveOwnerThread := by
        simp [place]
      by_cases mine : sync.exclusiveOwnerThread = some thread
      · simp only [if_pos mine]
        exact inv.goto left trivial
      · simp only [if_neg mine]
        exact inv.goto left trivial
  | acquireGetState =>
      apply inv.goto
      · simp [place]
      · exact fun _ => rfl
  | acquireSetState read =>
      rw [Undisturbed, place] at undisturbed
      obtain ⟨held, room⟩ := undisturbed
      have current : read = sync.state := by
        have placed := inv.placed thread
        rw [place] at placed
        exact placed held
      have word : read + 1 = BitVec.ofNat 32 (sync.holds thread + 1) := by
        rw [current, inv.word thread held, BitVec.ofNat_add]
        rfl
      dsimp only
      rw [word]
      apply inv.write (inv.alone held) room
      · intro _
        exact Or.inl ((inv.owner thread held).resolve_right (by simp [place]))
      · trivial
  | releaseGetOwner =>
      have left : sync.pc thread ≠ .setExclusiveOwnerThread := by
        simp [place]
      by_cases mine : sync.exclusiveOwnerThread = some thread
      · simp only [mine, ne_eq, not_true_eq_false, if_false]
        exact inv.goto left trivial
      · simp only [ne_eq, mine, not_false_eq_true, if_true]
        exact inv.goto left trivial
  | releaseCheckState =>
      have left : sync.pc thread ≠ .setExclusiveOwnerThread := by
        simp [place]
      by_cases zero : sync.state = 0
      · simp only [if_pos zero]
        exact inv.goto left trivial
      · simp only [if_neg zero]
        exact inv.goto left trivial
  | releaseGetState =>
      apply inv.goto
      · simp [place]
      · exact fun _ => rfl
  | releaseSetState read =>
      rw [Undisturbed, place] at undisturbed
      have held : 0 < sync.holds thread := undisturbed
      have current : read = sync.state := by
        have placed := inv.placed thread
        rw [place] at placed
        exact placed held
      have word : read - 1 = BitVec.ofNat 32 (sync.holds thread - 1) := by
        have count : sync.holds thread = sync.holds thread - 1 + 1 := by
          omega
        rw [current, inv.word thread held, count, BitVec.ofNat_add]
        exact BitVec.add_sub_cancel _ 1
      dsimp only
      rw [word]
      apply inv.write (inv.alone held)
      · have bound := inv.bound thread
        omega
      · intro _
        exact Or.inl ((inv.owner thread held).resolve_right (by simp [place]))
      · trivial
  | releaseRecheckState =>
      have left : sync.pc thread ≠ .setExclusiveOwnerThread := by
        simp [place]
      by_cases zero : sync.state = 0
      · simp only [if_pos zero]
        exact inv.goto left (inv.free_of_state zero thread)
      · simp only [if_neg zero]
        exact inv.goto left trivial
  | clearExclusiveOwnerThread =>
      rw [Undisturbed, place] at undisturbed
      exact inv.clearOwner place undisturbed

/-- Step lemma of the whole lock. -/
theorem perform (inv : Inv sync) (action : Action Thread)
    (undisturbed : Undisturbed sync action) :
    Inv (sync.perform action).1 := by
  cases action with
  | tryAcquire thread =>
      unfold Sync.perform
      by_cases idle : sync.pc thread = .idle
      · simp only [if_pos idle]
        exact inv.goto (by simp [idle]) trivial
      · simp only [if_neg idle]
        exact inv
  | tryRelease thread =>
      unfold Sync.perform
      by_cases idle : sync.pc thread = .idle
      · simp only [if_pos idle]
        exact inv.goto (by simp [idle]) trivial
      · simp only [if_neg idle]
        exact inv
  | step thread => exact inv.advance thread undisturbed

/-- Run lemma: an undisturbed history keeps the invariant. -/
theorem run {actions : List (Action Thread)}
    (undisturbed : AtEvery (fun before action =>
      Undisturbed ((customReenterLock Thread).run .new before) action)
      actions) :
    Inv ((customReenterLock Thread).run .new actions) := by
  apply undisturbed.induction
  · exact inv_new
  · intro before action inv atAction
    rw [Mealy.run_concat, customReenterLock_step]
    exact inv.perform action atAction

/-- The owner check and the state check fail for strangers only. -/
theorem throwsAtStrangers (inv : Inv sync) (action : Action Thread) :
    ThrowsAtStrangers sync action := by
  intro thread thrown
  by_contra holding
  have held : 0 < sync.holds thread := Nat.pos_of_ne_zero holding
  have taken : sync.state ≠ 0 := inv.state_ne_zero held
  cases action with
  | tryAcquire other =>
      unfold Sync.perform at thrown
      by_cases idle : sync.pc other = .idle <;> simp [idle] at thrown
  | tryRelease other =>
      unfold Sync.perform at thrown
      by_cases idle : sync.pc other = .idle <;> simp [idle] at thrown
  | step other =>
      change _ ∈ (sync.advance other).2 at thrown
      unfold Sync.advance at thrown
      cases place : sync.pc other with
      | releaseGetOwner =>
          by_cases mine : sync.exclusiveOwnerThread = some other
          · simp [place, mine] at thrown
          · have same : thread = other := by
              simpa [place, mine] using thrown
            subst same
            have named := inv.owner thread held
            rw [place] at named
            simp [mine] at named
      | _ =>
          simp only [place] at thrown
          first
            | split at thrown <;> simp_all
            | simp at thrown

end Inv

/-! ## Unlocking undisturbed -/

/-- A thread in no call that holds `count` acquisitions alone. -/
structure Owned (sync : Sync Thread) (thread : Thread) (count : Nat) :
    Prop where
  idle : sync.pc thread = .idle
  held : sync.holds thread = count
  small : count < 2 ^ 32
  word : 0 < count → sync.state = BitVec.ofNat 32 count
  owner : 0 < count → sync.exclusiveOwnerThread = some thread

omit [DecidableEq Thread] in
theorem Inv.owned {sync : Sync Thread} (inv : Inv sync) {thread : Thread}
    (idle : sync.pc thread = .idle) :
    Owned sync thread (sync.holds thread) where
  idle := idle
  held := rfl
  small := inv.bound thread
  word := inv.word thread
  owner := by
    intro held
    apply (inv.owner thread held).resolve_right
    simp [idle]

section Unlock

variable {sync : Sync Thread} {thread : Thread} {count : Nat}

/-- The first five steps of an `unlock` write the word. -/
theorem Owned.written (owned : Owned sync thread (count + 1)) :
    let steps := .tryRelease thread :: List.replicate 4 (.step thread)
    (customReenterLock Thread).trace sync steps = [] ∧
      (customReenterLock Thread).run sync steps =
        Sync.goto
          { sync with
            state := BitVec.ofNat 32 count
            holds := Function.update sync.holds thread count }
          thread .releaseRecheckState := by
  have word := owned.word (Nat.succ_pos count)
  have owner := owned.owner (Nat.succ_pos count)
  have taken : BitVec.ofNat 32 (count + 1) ≠ 0#32 := by
    intro zero
    exact absurd ((ofNat_eq_zero owned.small).mp zero)
      (Nat.succ_ne_zero count)
  have left : BitVec.ofNat 32 (count + 1) - 1#32 =
      BitVec.ofNat 32 count := by
    rw [BitVec.ofNat_add]
    exact BitVec.add_sub_cancel _ 1
  constructor
  · simp [List.replicate, Sync.perform, Sync.advance, Sync.goto, owned.idle,
      word, owner, taken]
  · simp [List.replicate, Sync.perform, Sync.advance, Sync.goto, owned.idle,
      owned.held, word, owner, taken, left]

/-- Its last steps clear the owner field if the word is back at zero. -/
theorem unlock_finished (small : count < 2 ^ 32)
    (owner : sync.exclusiveOwnerThread = some thread)
    (word : sync.state = BitVec.ofNat 32 count)
    (place : sync.pc thread = .releaseRecheckState) :
    let steps : List (Action Thread) := [.step thread, .step thread]
    (customReenterLock Thread).trace sync steps = [.released thread] ∧
      (customReenterLock Thread).run sync steps =
        Sync.goto
          { sync with
            exclusiveOwnerThread := if count = 0 then none else some thread }
          thread .idle := by
  have zero : BitVec.ofNat 32 count = 0#32 ↔ count = 0 := ofNat_eq_zero small
  by_cases last : count = 0
  · constructor
    · simp [Sync.perform, Sync.advance, Sync.goto, place, word, last]
    · simp [Sync.perform, Sync.advance, Sync.goto, place, word, last]
  · constructor
    · simp [Sync.perform, Sync.advance, Sync.goto, place, word, zero, last]
    · simp [Sync.perform, Sync.advance, Sync.goto, place, word, zero, last,
        owner]

/-- An `unlock` takes one acquisition out. -/
theorem Owned.unlock (owned : Owned sync thread (count + 1)) :
    (customReenterLock Thread).trace sync (unlock thread) =
        [.released thread] ∧
      Owned ((customReenterLock Thread).run sync (unlock thread)) thread
        count := by
  have parts : ReenterLock.unlock thread =
      (.tryRelease thread :: List.replicate 4 (.step thread)) ++
        [.step thread, .step thread] := rfl
  have small : count < 2 ^ 32 := by
    have larger := owned.small
    omega
  obtain ⟨silent, written⟩ := owned.written
  rw [parts, Mealy.trace_append, Mealy.run_append, silent, written]
  have owner : (Sync.goto
      { sync with
        state := BitVec.ofNat 32 count
        holds := Function.update sync.holds thread count }
      thread .releaseRecheckState).exclusiveOwnerThread = some thread :=
    owned.owner (Nat.succ_pos count)
  obtain ⟨released, returned⟩ :=
    unlock_finished small owner rfl (Sync.goto_pc_self ..)
  rw [released, returned]
  refine ⟨rfl, ?_⟩
  constructor
  · exact Sync.goto_pc_self ..
  · simp
  · exact small
  · exact fun _ => rfl
  · intro held
    have more : count ≠ 0 := by omega
    simp [more]

theorem Owned.canUnlock (owned : Owned sync thread count) :
    (customReenterLock Thread).trace sync
        (List.replicate count (ReenterLock.unlock thread)).flatten =
      List.replicate count (.released thread) := by
  induction count generalizing sync with
  | zero => rfl
  | succ count inductionHypothesis =>
      obtain ⟨first, rest⟩ := owned.unlock
      rw [List.replicate_succ, List.flatten_cons, Mealy.trace_append, first,
        inductionHypothesis rest]
      rfl

theorem Inv.canUnlock (inv : Inv sync) : CanUnlock sync := by
  intro thread idle
  exact (inv.owned idle).canUnlock

end Unlock

/-! ## The lock -/

/-- In every undisturbed history of calls, interleaved in any way, at most
one thread holds the lock at any moment, none of its `unlock` calls throws,
and it can always release all it holds. -/
theorem exclusive_of_undisturbed (actions : List (Action Thread))
    (undisturbed : AtEvery (fun before action =>
      Undisturbed ((customReenterLock Thread).run .new before) action)
      actions) :
    (∀ before after, actions = before ++ after →
      OneHolder ((customReenterLock Thread).run .new before) ∧
        CanUnlock ((customReenterLock Thread).run .new before)) ∧
    AtEvery (fun before action =>
      ThrowsAtStrangers ((customReenterLock Thread).run .new before) action)
      actions := by
  have reached : ∀ before after, actions = before ++ after →
      Inv ((customReenterLock Thread).run .new before) := by
    intro before after parts
    subst parts
    exact Inv.run undisturbed.of_append
  constructor
  · intro before after parts
    have inv := reached before after parts
    exact ⟨inv.one, inv.canUnlock⟩
  · intro before action after parts
    have inv := reached before (action :: after) parts
    exact inv.throwsAtStrangers action

/-- Thread `false` takes the lock twice and releases it twice, while thread
`true` is refused and at last takes it before the owner field is cleared. -/
def handOver : List (Action Bool) :=
  [.tryAcquire false, .step false, .tryAcquire true, .step true, .step false,
    .step true, .tryAcquire false, .step false, .tryAcquire true, .step false,
    .step false, .step true, .step false, .step true] ++ unlock false ++
    .tryRelease false :: List.replicate 5 (.step false) ++
    [.tryAcquire true, .step true, .step false, .step true]

theorem handOver_exclusive :
    AtEvery (fun before action =>
      Undisturbed ((customReenterLock Bool).run .new before) action)
      handOver ∧
    OneHolder ((customReenterLock Bool).run .new handOver) ∧
    (customReenterLock Bool).trace .new handOver =
      [.acquired false, .refused true, .acquired false, .refused true,
        .released false, .released false, .acquired true] := by
  have undisturbed : AtEvery (fun before action =>
      Undisturbed ((customReenterLock Bool).run .new before) action)
      handOver := by
    decide
  exact ⟨undisturbed,
    ((exclusive_of_undisturbed handOver undisturbed).1 handOver []
      (List.append_nil _).symm).1, by decide⟩

/-- Thread `false` has released the word and is about to clear the owner
field when thread `true` takes the lock. -/
def lostOwner : List (Action Bool) :=
  .tryAcquire false :: List.replicate 2 (.step false) ++
    .tryRelease false :: List.replicate 5 (.step false) ++
    .tryAcquire true :: List.replicate 2 (.step true) ++
    [.step false]

/-- Thread `false` has released the word, finds it taken again and takes the
lock as its owner before thread `true` has written its name. -/
def staleOwner : List (Action Bool) :=
  .tryAcquire false :: List.replicate 2 (.step false) ++
    .tryRelease false :: List.replicate 4 (.step false) ++
    [.tryAcquire true, .step true] ++
    [.step false, .tryAcquire false] ++ List.replicate 4 (.step false)

/-- The holder whose name was cleared cannot release, and a former owner
comes in beside the holder. -/
theorem lost_and_stale_owner :
    ((customReenterLock Bool).run .new lostOwner).holds true = 1 ∧
    (customReenterLock Bool).trace
        ((customReenterLock Bool).run .new lostOwner) (unlock true) =
      [.illegalMonitorState true] ∧
    ¬ CanUnlock ((customReenterLock Bool).run .new lostOwner) ∧
    ¬ OneHolder ((customReenterLock Bool).run .new staleOwner) := by
  have held : ((customReenterLock Bool).run .new lostOwner).holds true = 1 :=
    by decide
  have thrown : (customReenterLock Bool).trace
        ((customReenterLock Bool).run .new lostOwner) (unlock true) =
      [.illegalMonitorState true] := by
    decide
  refine ⟨held, thrown, ?_, ?_⟩
  · intro canUnlock
    have idle : ((customReenterLock Bool).run .new lostOwner).pc true =
        .idle := by
      decide
    have released := canUnlock true idle
    rw [held] at released
    simp only [List.replicate_one, List.flatten_cons, List.flatten_nil,
      List.append_nil] at released
    rw [thrown] at released
    simp at released
  · intro oneHolder
    have same := oneHolder false true (by decide) (by decide)
    simp at same

end DripStone.ReenterLock
