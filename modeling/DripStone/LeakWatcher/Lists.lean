import DripStone.LeakWatcher.Model

/-!
# The watch list and the retained list

What a key's own process has done says in which list the key can be; where a
collected reference waits is followed from the queue, through the hands of a
cleaning, to the end of its processing.
-/

namespace DripStone.LeakWatcher

open DripStone.Library

/-! ## Places in a process -/

namespace Pc

variable {Key : Type}

/-- The key was put in the watch list and is not yet taken out of it. -/
def isEarly : Pc Key → Bool
  | .execute => true
  | .enterMonitor => true
  | .cleaning .moveToRetained _ => true
  | .removeKey => true
  | _ => false

/-- `moveToRetained` is through with the key. -/
def isLate : Pc Key → Bool
  | .exitMonitor => true
  | .getRetainedRefCount => true
  | .cleaning .afterGc _ => true
  | .countAgain => true
  | .getRetained => true
  | .finished => true
  | _ => false

/-- The key is about to be put in a list. -/
def isPutting : Pc Key → Bool
  | .putWatched _ => true
  | .putRetained _ => true
  | _ => false

/-- The key of a reference that was polled and is not yet processed. -/
def inHand : Pc Key → Option Key
  | .cleaning _ (.removeWatched findRef) => some findRef.key
  | .cleaning _ (.removeRetained findRef) => some findRef.key
  | _ => none

theorem not_isLate_of_isEarly {pc : Pc Key} (early : pc.isEarly = true) :
    pc.isLate = false := by
  cases pc with
  | cleaning phase step =>
      cases phase with
      | watch => rfl
      | moveToRetained => rfl
      | afterGc => exact absurd early (by simp [isEarly])
  | _ => simp_all [isEarly, isLate]

theorem not_isPutting_of_isEarly {pc : Pc Key} (early : pc.isEarly = true) :
    pc.isPutting = false := by
  cases pc with
  | putWatched reference => exact absurd early (by simp [isEarly])
  | putRetained retainedRef => exact absurd early (by simp [isEarly])
  | _ => rfl

end Pc

variable {Key : Type} [DecidableEq Key]

/-! ## What a step can do -/

/-- The next step of a process that leaves the lists and the queue alone. -/
structure Follows (watcher : Watcher Key) (key : Key) (pc : Pc Key) :
    Prop where
  hand : pc.inHand = (watcher.pc key).inHand
  early : (watcher.pc key).isEarly = true →
    key ∈ watcher.watchedReferences → pc.isEarly = true
  late : (watcher.pc key).isLate = true → pc.isLate = true
  created : (watcher.pc key).isCreated = true → pc.isCreated = true
  putting : pc.isPutting = true → (watcher.pc key).isCreated = false

namespace Watcher

theorem goto_self (watcher : Watcher Key) (key : Key) :
    watcher.goto key (watcher.pc key) = watcher := by
  simp [goto]

/-- The steps of one process. -/
inductive Advances (watcher : Watcher Key) (key : Key) :
    Watcher Key → List (Event Key) → Prop where
  | pass (monitor : Option Key) (pc : Pc Key)
      (follows : Follows watcher key pc) :
      Advances watcher key (goto { watcher with monitor := monitor } key pc)
        []
  | poll (phase : Phase) (findRef : KeyWeakReference Key)
      (rest : List (KeyWeakReference Key))
      (atPoll : watcher.pc key = .cleaning phase .poll)
      (queued : watcher.queue = findRef :: rest) :
      Advances watcher key
        (goto { watcher with queue := rest } key
          (.cleaning phase (.removeWatched findRef))) []
  | removeWatched (phase : Phase) (findRef : KeyWeakReference Key)
      (atRemove : watcher.pc key = .cleaning phase (.removeWatched findRef))
      (watched : findRef.key ∈ watcher.watchedReferences) :
      Advances watcher key
        (goto { watcher with
            watchedReferences :=
              watcher.watchedReferences.erase findRef.key } key
          (.cleaning phase .poll)) [.processed findRef.key]
  | removeRetained (phase : Phase) (findRef : KeyWeakReference Key)
      (atRemove :
        watcher.pc key = .cleaning phase (.removeRetained findRef)) :
      Advances watcher key
        (goto { watcher with
            retainedReferences :=
              watcher.retainedReferences.erase findRef.key } key
          (.cleaning phase .poll)) [.processed findRef.key]
  | putWatched (reference : KeyWeakReference Key)
      (atPut : watcher.pc key = .putWatched reference) :
      Advances watcher key
        (goto { watcher with
            watchedReferences :=
              watcher.watchedReferences.insert key reference } key .execute)
        []
  | removeKey (retainedRef : KeyWeakReference Key)
      (atRemove : watcher.pc key = .removeKey)
      (watched : key ∈ watcher.watchedReferences) :
      Advances watcher key
        (goto { watcher with
            watchedReferences := watcher.watchedReferences.erase key } key
          (.putRetained retainedRef)) []
  | putRetained (retainedRef : KeyWeakReference Key)
      (atPut : watcher.pc key = .putRetained retainedRef) :
      Advances watcher key
        (goto { watcher with
            retainedReferences :=
              watcher.retainedReferences.insert key retainedRef } key
          .exitMonitor) []
  | report (atGet : watcher.pc key = .getRetained)
      (retained : key ∈ watcher.retainedReferences) :
      Advances watcher key (watcher.goto key .finished) [.reported key]

/-- A process that only goes on. -/
private theorem advances_goto {watcher : Watcher Key} {key : Key}
    {pc : Pc Key} (follows : Follows watcher key pc) :
    Advances watcher key (watcher.goto key pc) [] :=
  .pass watcher.monitor pc follows

private theorem advances_stay {watcher : Watcher Key} {key : Key}
    (still : (watcher.pc key).isPutting = false) :
    Advances watcher key watcher [] := by
  have follows : Follows watcher key (watcher.pc key) :=
    ⟨rfl, fun early _ => early, id, id, fun putting => by
      rw [still] at putting
      exact absurd putting (by decide)⟩
  have stays := advances_goto follows
  rwa [goto_self] at stays

theorem advances (watcher : Watcher Key) (key : Key) :
    Advances watcher key (watcher.advance key).1 (watcher.advance key).2 := by
  rw [advance]
  cases atKey : watcher.pc key with
  | notCalled => exact advances_stay (by rw [atKey]; rfl)
  | finished => exact advances_stay (by rw [atKey]; rfl)
  | newReference =>
      apply advances_goto
      constructor <;> simp [atKey, Pc.inHand, Pc.isEarly, Pc.isLate,
        Pc.isCreated]
  | putWatched reference => exact .putWatched reference atKey
  | putRetained retainedRef => exact .putRetained retainedRef atKey
  | execute =>
      apply advances_goto
      constructor <;> simp [atKey, Pc.inHand, Pc.isEarly, Pc.isLate,
        Pc.isCreated, Pc.isPutting]
  | exitMonitor =>
      apply Advances.pass
      constructor <;> simp [atKey, Pc.inHand, Pc.isEarly, Pc.isLate,
        Pc.isCreated, Pc.isPutting]
  | enterMonitor =>
      dsimp only
      by_cases free : watcher.monitor = none
      · rw [if_pos free]
        apply Advances.pass
        constructor <;> simp [atKey, Pc.inHand, Pc.isEarly, Pc.isLate,
          Pc.isCreated, Pc.isPutting]
      · rw [if_neg free]
        exact advances_stay (by rw [atKey]; rfl)
  | getRetainedRefCount =>
      dsimp only
      by_cases some_ : 0 < watcher.retainedRefCount
      · rw [if_pos some_]
        apply advances_goto
        constructor <;> simp [atKey, Pc.inHand, Pc.isEarly, Pc.isLate,
          Pc.isCreated, Pc.isPutting]
      · rw [if_neg some_]
        apply advances_goto
        constructor <;> simp [atKey, Pc.inHand, Pc.isEarly, Pc.isLate,
          Pc.isCreated, Pc.isPutting]
  | countAgain =>
      dsimp only
      by_cases some_ : 0 < watcher.retainedRefCount
      · rw [if_pos some_]
        apply advances_goto
        constructor <;> simp [atKey, Pc.inHand, Pc.isEarly, Pc.isLate,
          Pc.isCreated, Pc.isPutting]
      · rw [if_neg some_]
        apply advances_goto
        constructor <;> simp [atKey, Pc.inHand, Pc.isEarly, Pc.isLate,
          Pc.isCreated, Pc.isPutting]
  | getRetained =>
      dsimp only
      cases found : watcher.retainedReferences.lookup key with
      | none =>
          apply advances_goto
          constructor <;> simp [atKey, Pc.inHand, Pc.isEarly, Pc.isLate,
            Pc.isCreated, Pc.isPutting]
      | some keyWeakReference =>
          exact .report atKey (AList.lookup_isSome.mp (by simp [found]))
  | removeKey =>
      dsimp only
      cases found : watcher.watchedReferences.lookup key with
      | none =>
          have absent := AList.lookup_eq_none.mp found
          apply advances_goto
          constructor <;> simp [atKey, absent, Pc.inHand, Pc.isLate,
            Pc.isCreated, Pc.isPutting]
      | some retainedRef =>
          exact .removeKey retainedRef atKey
            (AList.lookup_isSome.mp (by simp [found]))
  | cleaning phase step =>
      dsimp only
      cases step with
      | poll =>
          rw [clean]
          cases queued : watcher.queue with
          | nil =>
              apply advances_goto
              cases phase <;> constructor <;> simp [atKey, Phase.next,
                Pc.inHand, Pc.isEarly, Pc.isLate, Pc.isCreated, Pc.isPutting]
          | cons findRef rest => exact .poll phase findRef rest atKey queued
      | removeWatched findRef =>
          rw [clean]
          cases found :
              watcher.watchedReferences.lookup findRef.key with
          | none =>
              apply advances_goto
              cases phase <;> constructor <;> simp [atKey, Pc.inHand,
                Pc.isEarly, Pc.isLate, Pc.isCreated, Pc.isPutting]
          | some removedRef =>
              exact .removeWatched phase findRef atKey
                (AList.lookup_isSome.mp (by simp [found]))
      | removeRetained findRef => exact .removeRetained phase findRef atKey

/-- The step of a process moves that process only. -/
theorem Advances.pc_of_ne {watcher after : Watcher Key} {key other : Key}
    {events : List (Event Key)}
    (advances : watcher.Advances key after events)
    (distinct : other ≠ key) : after.pc other = watcher.pc other := by
  cases advances with
  | _ => exact Function.update_of_ne distinct _ _

end Watcher

end DripStone.LeakWatcher
