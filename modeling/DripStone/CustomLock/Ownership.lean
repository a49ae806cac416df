import DripStone.CustomLock.Model

/-!
# Who holds the lock

Whoever acquired the lock holds it until that same thread calls `unlock` or
`await`.  The release and the test of the conditions look at the state word
only, so that this is so as long as no other thread makes such a call while
the lock is held.
-/

namespace DripStone.CustomLock

open DripStone.Library

variable {Thread : Type}

/-- A thread acquired the lock and has called neither `unlock` nor `await`
since. -/
def Holds (history : List (Event Thread)) (thread : Thread) : Prop :=
  ∃ before call after, history = before ++ ⟨call, .acquired⟩ :: after ∧
    call.thread = thread ∧
    ∀ event ∈ after, event.call.thread = thread →
      event.call.isReleasing = false

theorem not_holds_nil (thread : Thread) : ¬ Holds [] thread := by
  rintro ⟨before, call, after, whole, _⟩
  simp at whole

theorem holds_concat {history : List (Event Thread)} {event : Event Thread}
    {thread : Thread} :
    Holds (history ++ [event]) thread ↔
      (event.result = .acquired ∧ event.call.thread = thread) ∨
        (Holds history thread ∧ (event.call.thread = thread →
          event.call.isReleasing = false)) := by
  constructor
  · rintro ⟨before, call, after, whole, isThread, kept⟩
    rcases List.eq_nil_or_concat after with rfl | ⟨middle, last, rfl⟩
    · obtain ⟨_, same⟩ := List.append_inj' whole rfl
      obtain rfl := List.singleton_inj.mp same
      exact Or.inl ⟨rfl, isThread⟩
    · have regrouped : history ++ [event] =
          (before ++ ⟨call, .acquired⟩ :: middle) ++ [last] := by
        rw [whole]
        simp
      obtain ⟨same, sameLast⟩ := List.append_inj' regrouped rfl
      obtain rfl := List.singleton_inj.mp sameLast
      refine Or.inr ⟨⟨before, call, middle, same, isThread, ?_⟩, ?_⟩
      · intro other inMiddle
        exact kept other (by simp [inMiddle])
      · exact kept event (by simp)
  · rintro (⟨acquired, isThread⟩ | ⟨held, kept⟩)
    · obtain ⟨call, result⟩ := event
      obtain rfl : result = .acquired := acquired
      exact ⟨history, call, [], rfl, isThread, by simp⟩
    · obtain ⟨before, call, after, rfl, isThread, keptBefore⟩ := held
      refine ⟨before, call, after ++ [event], by simp, isThread, ?_⟩
      intro other inAfter
      rcases List.mem_append.mp inAfter with earlier | last
      · exact keptBefore other earlier
      · rw [List.mem_singleton.mp last]
        exact kept

variable [DecidableEq Thread]

/-- What became of some calls on a new lock. -/
def historyOf (calls : List (Call Thread)) : List (Event Thread) :=
  machine.trace .new calls

def syncAfter (calls : List (Call Thread)) : Sync Thread :=
  machine.run .new calls

/-- The law of one call after some others: while a thread holds the lock no
other acquires it, and the calls of the holder throw, and change neither the
state nor the owner, in any other thread. -/
structure Lawful (before : List (Call Thread)) (call : Call Thread) :
    Prop where
  exclusive : ((syncAfter before).call call).2 = .acquired →
    ∀ other, other ≠ call.thread → ¬ Holds (historyOf before) other
  guarded : call.isGuarded = true →
    ¬ Holds (historyOf before) call.thread →
      ((syncAfter before).call call).2 = .illegalMonitorState ∧
      ((syncAfter before).call call).1.state = (syncAfter before).state ∧
      ((syncAfter before).call call).1.exclusiveOwnerThread =
        (syncAfter before).exclusiveOwnerThread

/-- A call of the holder is made by the holder, or while the lock is free. -/
def Permitted (before : List (Call Thread)) (call : Call Thread) : Prop :=
  call.isGuarded = true →
    Holds (historyOf before) call.thread ∨ (syncAfter before).state = 0

omit [DecidableEq Thread] in
theorem isGuarded_of_isReleasing {call : Call Thread}
    (releasing : call.isReleasing = true) : call.isGuarded = true := by
  cases call <;> simp_all [Call.isReleasing, Call.isGuarded]

/-- The state word and the owner say who holds the lock. -/
structure Recorded (calls : List (Call Thread)) : Prop where
  word : (syncAfter calls).state = 0 ∨ (syncAfter calls).state = 1
  holder : ∀ thread, Holds (historyOf calls) thread ↔
    (syncAfter calls).state = 1 ∧
      (syncAfter calls).exclusiveOwnerThread = some thread

theorem recorded_nil : Recorded ([] : List (Call Thread)) where
  word := Or.inl rfl
  holder := by
    intro thread
    constructor
    · intro holds
      exact absurd holds (not_holds_nil thread)
    · rintro ⟨held, _⟩
      have free : (syncAfter ([] : List (Call Thread))).state = 0 := rfl
      rw [free] at held
      exact absurd held (by decide)

theorem Recorded.concat {before : List (Call Thread)} {call : Call Thread}
    (recorded : Recorded before) (permitted : Permitted before call) :
    Recorded (before ++ [call]) := by
  have after : syncAfter (before ++ [call]) =
      ((syncAfter before).call call).1 := machine.run_concat _ _ _
  have history : historyOf (before ++ [call]) = historyOf before ++
      [⟨call, ((syncAfter before).call call).2⟩] :=
    machine.trace_concat _ _ _
  rcases (syncAfter before).call_cases call with
    ⟨free, unguarded, result, state, owner⟩ |
    ⟨held, releasing, result, state, owner⟩ |
    ⟨released, result, state, owner⟩
  · constructor
    · rw [after, state]
      exact Or.inr rfl
    · intro thread
      have nobody : ¬ Holds (historyOf before) thread := by
        rw [recorded.holder, free]
        simp
      rw [history, holds_concat, after, state, owner, result]
      simp [nobody]
  · constructor
    · rw [after, state]
      exact Or.inl rfl
    · intro thread
      -- only the holder may release a lock that is not free
      have isHolder := (permitted (isGuarded_of_isReleasing releasing)
        ).resolve_right held
      have owned := ((recorded.holder call.thread).mp isHolder).2
      have sole : Holds (historyOf before) thread →
          call.thread = thread := by
        intro holds
        have other := ((recorded.holder thread).mp holds).2
        exact Option.some.inj (owned.symm.trans other)
      rw [history, holds_concat, after, state, result]
      simp only [reduceCtorEq, false_and, false_or, zero_ne_one, iff_false,
        not_and]
      intro holds kept
      rw [kept (sole holds)] at releasing
      exact absurd releasing (by simp)
  · constructor
    · rw [after, state]
      exact recorded.word
    · intro thread
      rw [history, holds_concat, after, state, owner,
        ← recorded.holder thread]
      constructor
      · rintro (⟨acquired, _⟩ | ⟨holds, _⟩)
        · exact absurd acquired result
        · exact holds
      · intro holds
        refine Or.inr ⟨holds, fun _ => ?_⟩
        by_contra releasing
        have free := released (by simpa using releasing)
        have held := ((recorded.holder thread).mp holds).1
        rw [free] at held
        exact absurd held (by decide)

theorem recorded_of_permitted {calls : List (Call Thread)}
    (permitted : AtEvery Permitted calls) : Recorded calls :=
  permitted.induction recorded_nil fun _ _ recorded atCall =>
    recorded.concat atCall

theorem Recorded.lawful {before : List (Call Thread)} {call : Call Thread}
    (recorded : Recorded before) (permitted : Permitted before call) :
    Lawful before call where
  exclusive := by
    intro acquired other _ holds
    have held := ((recorded.holder other).mp holds).1
    rcases (syncAfter before).call_cases call with
      ⟨free, _⟩ | ⟨_, _, result, _⟩ | ⟨_, result, _⟩
    · rw [free] at held
      exact absurd held (by decide)
    · rw [result] at acquired
      exact absurd acquired (by decide)
    · exact result acquired
  guarded := by
    intro guarded stranger
    have free := (permitted guarded).resolve_left stranger
    rw [Sync.call_of_free free guarded]
    exact ⟨rfl, rfl, rfl⟩

theorem Lawful.permitted {before : List (Call Thread)} {call : Call Thread}
    (recorded : Recorded before) (lawful : Lawful before call) :
    Permitted before call := by
  intro guarded
  by_cases holds : Holds (historyOf before) call.thread
  · exact Or.inl holds
  · have threw := (lawful.guarded guarded holds).1
    rcases recorded.word with free | held
    · exact Or.inr free
    · exact absurd threw (Sync.result_of_held held guarded)

/-- The law of ownership holds of all calls if and only if no thread but the
holder calls `unlock`, `await` or `signal` while the lock is held. -/
theorem lawful_iff_permitted (calls : List (Call Thread)) :
    AtEvery Lawful calls ↔ AtEvery Permitted calls := by
  constructor
  · intro lawful
    have both : AtEvery Permitted calls ∧ Recorded calls := by
      apply lawful.induction ⟨atEvery_nil _, recorded_nil⟩
      rintro before call ⟨permitted, recorded⟩ atCall
      have mayCall := atCall.permitted recorded
      exact ⟨atEvery_concat.mpr ⟨permitted, mayCall⟩,
        recorded.concat mayCall⟩
    exact both.1
  · intro permitted before call after whole
    have initial : AtEvery Permitted before := by
      rw [whole] at permitted
      exact permitted.of_append
    exact (recorded_of_permitted initial).lawful
      (permitted before call after whole)

/-- A second thread unlocks what the first one holds and takes it. -/
theorem stranger_unlocks :
    ¬ AtEvery Lawful
      [Call.tryLock false, Call.unlock true, Call.tryLock true] := by
  intro lawful
  have atUnlock := lawful [.tryLock false] (.unlock true) [.tryLock true] rfl
  have stranger : ¬ Holds (historyOf [Call.tryLock false]) true := by
    have permitted : Permitted [] (Call.tryLock false) := by
      intro guarded
      simp [Call.isGuarded] at guarded
    have recorded := recorded_nil.concat permitted
    rw [show [Call.tryLock false] = [] ++ [Call.tryLock false] from rfl,
      recorded.holder]
    decide
  have threw := (atUnlock.guarded rfl stranger).1
  exact absurd threw (by decide)

end DripStone.CustomLock
