import DripStone.LeakWatcher.Lists

/-!
# The way of a reference

A key is in one list at most in every run, and the reference of a collected
object waits in the queue, or in the hands of a cleaning, until it is
processed.
-/

namespace DripStone.LeakWatcher

open DripStone.Library

variable {Key : Type}

/-! ## Where a collected reference waits -/

def Queued (watcher : Watcher Key) (key : Key) : Prop :=
  ∃ findRef ∈ watcher.queue, findRef.key = key

/-- A cleaning polled the reference of the key and is not through with it. -/
def InHand (watcher : Watcher Key) (key : Key) : Prop :=
  ∃ cleaner, (watcher.pc cleaner).inHand = some key

variable [DecidableEq Key]

/-- In the hands of another process than one. -/
private def InOtherHands (watcher : Watcher Key) (process key : Key) :
    Prop :=
  ∃ cleaner, cleaner ≠ process ∧ (watcher.pc cleaner).inHand = some key

omit [DecidableEq Key] in
private theorem inHand_iff (watcher : Watcher Key) (process key : Key) :
    InHand watcher key ↔
      (watcher.pc process).inHand = some key ∨
        InOtherHands watcher process key := by
  constructor
  · rintro ⟨cleaner, hand⟩
    by_cases same : cleaner = process
    · exact Or.inl (same ▸ hand)
    · exact Or.inr ⟨cleaner, same, hand⟩
  · rintro (hand | ⟨cleaner, _, hand⟩)
    · exact ⟨process, hand⟩
    · exact ⟨cleaner, hand⟩

private theorem inHand_goto {watcher after : Watcher Key} {process : Key}
    {pc : Pc Key} (pcs : after.pc = Function.update watcher.pc process pc)
    (key : Key) :
    InHand after key ↔
      pc.inHand = some key ∨ InOtherHands watcher process key := by
  rw [inHand_iff after process key, pcs, Function.update_self]
  apply or_congr Iff.rfl
  constructor
  · rintro ⟨cleaner, distinct, hand⟩
    rw [pcs, Function.update_of_ne distinct] at hand
    exact ⟨cleaner, distinct, hand⟩
  · rintro ⟨cleaner, distinct, hand⟩
    refine ⟨cleaner, distinct, ?_⟩
    rw [pcs, Function.update_of_ne distinct]
    exact hand

/-! ## What holds in every run -/

/-- What the processes and the events say about the lists and the queue. -/
structure Tracked (watcher : Watcher Key) (events : List (Event Key)) :
    Prop where
  early : ∀ key ∈ watcher.watchedReferences,
    (watcher.pc key).isEarly = true
  late : ∀ key ∈ watcher.retainedReferences, (watcher.pc key).isLate = true
  known : ∀ key, .collected key ∈ events ↔ key ∈ watcher.collected
  waiting : ∀ key, key ∈ watcher.collected ↔
    Queued watcher key ∨ InHand watcher key ∨ .processed key ∈ events
  created : ∀ key ∈ watcher.collected, (watcher.pc key).isCreated = true

private theorem regroup {queued hand other done queued' hand' more : Prop}
    (same : queued' ∨ hand' ∨ more ↔ queued ∨ hand) :
    queued ∨ (hand ∨ other) ∨ done ↔
      queued' ∨ (hand' ∨ other) ∨ done ∨ more := by
  tauto

/-- The step of one process that puts in the lists no key but its own. -/
private theorem Tracked.moved {watcher after : Watcher Key}
    {events more : List (Event Key)} {process : Key} {pc : Pc Key}
    (tracked : Tracked watcher events)
    (pcs : after.pc = Function.update watcher.pc process pc)
    (same : after.collected = watcher.collected)
    (quiet : ∀ key, .collected key ∉ more)
    (fewerWatched : ∀ key, key ≠ process →
      key ∈ after.watchedReferences → key ∈ watcher.watchedReferences)
    (fewerRetained : ∀ key, key ≠ process →
      key ∈ after.retainedReferences → key ∈ watcher.retainedReferences)
    (early : process ∈ after.watchedReferences → pc.isEarly = true)
    (late : process ∈ after.retainedReferences → pc.isLate = true)
    (created : (watcher.pc process).isCreated = true →
      pc.isCreated = true)
    (waits : ∀ key,
      Queued after key ∨ pc.inHand = some key ∨ .processed key ∈ more ↔
        Queued watcher key ∨
          (watcher.pc process).inHand = some key) :
    Tracked after (events ++ more) := by
  constructor
  · intro key watched
    rw [pcs]
    by_cases own : key = process
    · rw [own, Function.update_self]
      exact early (own ▸ watched)
    · rw [Function.update_of_ne own]
      exact tracked.early key (fewerWatched key own watched)
  · intro key retained
    rw [pcs]
    by_cases own : key = process
    · rw [own, Function.update_self]
      exact late (own ▸ retained)
    · rw [Function.update_of_ne own]
      exact tracked.late key (fewerRetained key own retained)
  · intro key
    rw [List.mem_append, same, ← tracked.known]
    exact or_iff_left (quiet key)
  · intro key
    have before := tracked.waiting key
    have waitsKey := waits key
    rw [inHand_iff watcher process key] at before
    rw [same, before, inHand_goto pcs, List.mem_append]
    exact regroup waitsKey
  · intro key isCollected
    rw [same] at isCollected
    rw [pcs]
    by_cases own : key = process
    · rw [own, Function.update_self]
      exact created (own ▸ tracked.created key isCollected)
    · rw [Function.update_of_ne own]
      exact tracked.created key isCollected

theorem Tracked.advance {watcher after : Watcher Key}
    {events more : List (Event Key)} {process : Key}
    (tracked : Tracked watcher events)
    (advances : watcher.Advances process after more) :
    Tracked after (events ++ more) := by
  cases advances with
  | pass monitor pc follows =>
      refine tracked.moved rfl rfl ?_ ?_ ?_ ?_ ?_ ?_ ?_
      · simp
      · exact fun _ _ => id
      · exact fun _ _ => id
      · exact fun watched => follows.early (tracked.early _ watched) watched
      · exact fun retained => follows.late (tracked.late _ retained)
      · exact follows.created
      · intro key
        rw [follows.hand]
        simp [Queued, Watcher.goto]
  | poll phase findRef rest atPoll queued =>
      refine tracked.moved rfl rfl ?_ ?_ ?_ ?_ ?_ ?_ ?_
      · simp
      · exact fun _ _ => id
      · exact fun _ _ => id
      · intro watched
        have early := tracked.early _ watched
        rw [atPoll] at early
        cases phase with
        | moveToRetained => rfl
        | _ => exact absurd early (by simp [Pc.isEarly])
      · intro retained
        have late := tracked.late _ retained
        rw [atPoll] at late
        cases phase with
        | afterGc => rfl
        | _ => exact absurd late (by simp [Pc.isLate])
      · rw [atPoll]
        cases phase <;> exact id
      · intro key
        rw [atPoll]
        simp [Queued, Watcher.goto, queued, Pc.inHand, or_comm]
  | removeWatched phase findRef atRemove watched =>
      refine tracked.moved rfl rfl ?_ ?_ ?_ ?_ ?_ ?_ ?_
      · simp
      · exact fun key _ inErased => (AList.mem_erase.mp inErased).2
      · exact fun _ _ => id
      · intro inErased
        have early := tracked.early _ (AList.mem_erase.mp inErased).2
        rw [atRemove] at early
        cases phase with
        | moveToRetained => rfl
        | _ => exact absurd early (by simp [Pc.isEarly])
      · intro retained
        have late := tracked.late _ retained
        rw [atRemove] at late
        cases phase with
        | afterGc => rfl
        | _ => exact absurd late (by simp [Pc.isLate])
      · rw [atRemove]
        cases phase <;> exact id
      · intro key
        rw [atRemove]
        simp [Queued, Watcher.goto, Pc.inHand, eq_comm]
  | removeRetained phase findRef atRemove =>
      refine tracked.moved rfl rfl ?_ ?_ ?_ ?_ ?_ ?_ ?_
      · simp
      · exact fun _ _ => id
      · exact fun key _ inErased => (AList.mem_erase.mp inErased).2
      · intro watched
        have early := tracked.early _ watched
        rw [atRemove] at early
        cases phase with
        | moveToRetained => rfl
        | _ => exact absurd early (by simp [Pc.isEarly])
      · intro inErased
        have late := tracked.late _ (AList.mem_erase.mp inErased).2
        rw [atRemove] at late
        cases phase with
        | afterGc => rfl
        | _ => exact absurd late (by simp [Pc.isLate])
      · rw [atRemove]
        cases phase <;> exact id
      · intro key
        rw [atRemove]
        simp [Queued, Watcher.goto, Pc.inHand, eq_comm]
  | putWatched reference atPut =>
      refine tracked.moved rfl rfl ?_ ?_ ?_ ?_ ?_ ?_ ?_
      · simp
      · intro key own inserted
        exact ((AList.mem_insert _).mp inserted).resolve_left own
      · exact fun _ _ => id
      · exact fun _ => rfl
      · intro retained
        have late := tracked.late _ retained
        rw [atPut] at late
        exact absurd late (by simp [Pc.isLate])
      · exact fun _ => rfl
      · intro key
        rw [atPut]
        simp [Queued, Watcher.goto, Pc.inHand]
  | removeKey retainedRef atRemove watched =>
      refine tracked.moved rfl rfl ?_ ?_ ?_ ?_ ?_ ?_ ?_
      · simp
      · exact fun key _ inErased => (AList.mem_erase.mp inErased).2
      · exact fun _ _ => id
      · exact fun inErased => absurd rfl (AList.mem_erase.mp inErased).1
      · intro retained
        have late := tracked.late _ retained
        rw [atRemove] at late
        exact absurd late (by simp [Pc.isLate])
      · exact fun _ => rfl
      · intro key
        rw [atRemove]
        simp [Queued, Watcher.goto, Pc.inHand]
  | putRetained retainedRef atPut =>
      refine tracked.moved rfl rfl ?_ ?_ ?_ ?_ ?_ ?_ ?_
      · simp
      · exact fun _ _ => id
      · intro key own inserted
        exact ((AList.mem_insert _).mp inserted).resolve_left own
      · intro watched
        have early := tracked.early _ watched
        rw [atPut] at early
        exact absurd early (by simp [Pc.isEarly])
      · exact fun _ => rfl
      · exact fun _ => rfl
      · intro key
        rw [atPut]
        simp [Queued, Watcher.goto, Pc.inHand]
  | report atGet retained =>
      refine tracked.moved rfl rfl ?_ ?_ ?_ ?_ ?_ ?_ ?_
      · simp
      · exact fun _ _ => id
      · exact fun _ _ => id
      · intro watched
        have early := tracked.early _ watched
        rw [atGet] at early
        exact absurd early (by simp [Pc.isEarly])
      · exact fun _ => rfl
      · exact fun _ => rfl
      · intro key
        rw [atGet]
        simp [Queued, Watcher.goto, Pc.inHand]

theorem tracked (actions : List (Action Key)) :
    Tracked (watcherAfter actions) (eventsOf actions) := by
  induction actions using List.reverseRecOn with
  | nil =>
      constructor
      · intro key watched
        exact absurd watched (AList.notMem_empty key)
      · intro key retained
        exact absurd retained (AList.notMem_empty key)
      · simp [eventsOf, watcherAfter, Watcher.new]
      · simp [eventsOf, watcherAfter, Watcher.new, Queued, InHand, Pc.inHand]
      · simp [watcherAfter, Watcher.new]
  | append_singleton before action inductionHypothesis =>
      rw [watcherAfter_concat, eventsOf_concat]
      generalize watcherAfter before = watcher at *
      generalize eventsOf before = events at *
      cases action with
      | watch key =>
          dsimp only [Watcher.perform]
          by_cases first : watcher.pc key = .notCalled
          · rw [if_pos first]
            apply inductionHypothesis.advance
            apply Watcher.Advances.pass watcher.monitor
            constructor <;> simp [first, Pc.inHand, Pc.isEarly, Pc.isLate,
              Pc.isCreated, Pc.isPutting]
          · rw [if_neg first, List.append_nil]
            exact inductionHypothesis
      | step key => exact inductionHypothesis.advance (watcher.advances key)
      | collect key =>
          dsimp only [Watcher.perform]
          by_cases collectable :
              (watcher.pc key).isCreated = true ∧ key ∉ watcher.collected
          · rw [if_pos collectable]
            constructor
            · exact inductionHypothesis.early
            · exact inductionHypothesis.late
            · intro other
              have known := inductionHypothesis.known other
              simp [known, or_comm]
            · intro other
              have waiting := inductionHypothesis.waiting other
              simp only [List.mem_cons, waiting, Queued, InHand,
                List.mem_append, List.not_mem_nil, or_false,
                reduceCtorEq]
              constructor
              · rintro (rfl | ⟨findRef, queued, isKey⟩ | later)
                · exact Or.inl ⟨_, Or.inr rfl, rfl⟩
                · exact Or.inl ⟨findRef, Or.inl queued, isKey⟩
                · exact Or.inr later
              · rintro (⟨findRef, queued | rfl, isKey⟩ | later)
                · exact Or.inr (Or.inl ⟨findRef, queued, isKey⟩)
                · exact Or.inl isKey.symm
                · exact Or.inr (Or.inr later)
            · intro other isCollected
              rcases List.mem_cons.mp isCollected with rfl | earlier
              · exact collectable.1
              · exact inductionHypothesis.created other earlier
          · rw [if_neg collectable, List.append_nil]
            exact inductionHypothesis

omit [DecidableEq Key] in
theorem Tracked.disjoint {watcher : Watcher Key} {events : List (Event Key)}
    (tracked : Tracked watcher events) (key : Key) :
    ¬ (key ∈ watcher.watchedReferences ∧
      key ∈ watcher.retainedReferences) := by
  rintro ⟨watched, retained⟩
  have late := tracked.late key retained
  rw [Pc.not_isLate_of_isEarly (tracked.early key watched)] at late
  exact absurd late (by decide)

end DripStone.LeakWatcher
