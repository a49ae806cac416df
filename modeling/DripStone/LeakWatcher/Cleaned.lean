import DripStone.LeakWatcher.Tracking

/-!
# Collected objects stay out of the lists

A reference that a cleaning is through with is in neither list as long as no
cleaning looks in the retained list for a key that another process has yet to
put in a list, or that came into the watch list since it was looked for there.
-/

namespace DripStone.LeakWatcher

open DripStone.Library

variable {Key : Type} [DecidableEq Key]

/-! ## The condition -/

/-- A cleaning looks in the retained list for no key that is in the watch list
or about to be put in a list; and a worker reports no key whose reference
waits in the queue or in the hands of a cleaning. -/
def Alone (before : List (Action Key)) : Action Key → Prop
  | .step key =>
      (∀ phase findRef, (watcherAfter before).pc key =
          .cleaning phase (.removeRetained findRef) →
        findRef.key ∉ (watcherAfter before).watchedReferences ∧
          ((watcherAfter before).pc findRef.key).isPutting = false) ∧
      ((watcherAfter before).pc key = .getRetained →
        key ∈ (watcherAfter before).retainedReferences →
        ¬ Queued (watcherAfter before) key ∧
          ¬ InHand (watcherAfter before) key)
  | _ => True

/-- A reference that was processed is in no list, and on its way to none. -/
def Cleaned (watcher : Watcher Key) (events : List (Event Key)) : Prop :=
  ∀ key, .processed key ∈ events →
    key ∉ watcher.watchedReferences ∧ key ∉ watcher.retainedReferences ∧
      (watcher.pc key).isPutting = false

/-- No object is reported that was collected. -/
def Spared (earlier : List (Event Key)) : Event Key → Prop
  | .reported key => .collected key ∉ earlier
  | _ => True

/-- What the steps of a run are to keep. -/
structure Sound (actions : List (Action Key)) : Prop where
  disjoint : ∀ key, ¬ (key ∈ (watcherAfter actions).watchedReferences ∧
    key ∈ (watcherAfter actions).retainedReferences)
  removed : ∀ key, .processed key ∈ eventsOf actions →
    key ∉ (watcherAfter actions).watchedReferences ∧
      key ∉ (watcherAfter actions).retainedReferences
  spared : AtEvery Spared (eventsOf actions)

/-- A process that puts no key but its own, and its own only when that key is
not processed, keeps what was cleaned. -/
private theorem Cleaned.moved {watcher after : Watcher Key}
    {events : List (Event Key)} {process : Key} {pc : Pc Key}
    (cleaned : Cleaned watcher events)
    (pcs : after.pc = Function.update watcher.pc process pc)
    (fewerWatched : ∀ key, key ∈ after.watchedReferences →
      key ∈ watcher.watchedReferences ∨
        (key = process ∧ (watcher.pc process).isPutting = true))
    (fewerRetained : ∀ key, key ∈ after.retainedReferences →
      key ∈ watcher.retainedReferences ∨
        (key = process ∧ (watcher.pc process).isPutting = true))
    (putting : pc.isPutting = true → .processed process ∉ events) :
    Cleaned after events := by
  intro key processed
  obtain ⟨unwatched, unretained, still⟩ := cleaned key processed
  refine ⟨?_, ?_, ?_⟩
  · intro watched
    rcases fewerWatched key watched with old | ⟨rfl, puts⟩
    · exact unwatched old
    · rw [still] at puts
      exact absurd puts (by decide)
  · intro retained
    rcases fewerRetained key retained with old | ⟨rfl, puts⟩
    · exact unretained old
    · rw [still] at puts
      exact absurd puts (by decide)
  · rw [pcs]
    by_cases own : key = process
    · subst own
      rw [Function.update_self]
      by_contra puts
      exact putting (by simpa using puts) processed
    · rw [Function.update_of_ne own]
      exact still

omit [DecidableEq Key] in
private theorem Cleaned.processed {watcher : Watcher Key}
    {events : List (Event Key)} {key : Key} (cleaned : Cleaned watcher events)
    (gone : key ∉ watcher.watchedReferences ∧
      key ∉ watcher.retainedReferences ∧
        (watcher.pc key).isPutting = false) :
    Cleaned watcher (events ++ [.processed key]) := by
  intro other processed
  rcases List.mem_append.mp processed with earlier | last
  · exact cleaned other earlier
  · obtain rfl : other = key := by simpa using last
    exact gone

theorem Cleaned.advance {watcher after : Watcher Key}
    {events more : List (Event Key)} {process : Key}
    (tracked : Tracked watcher events) (cleaned : Cleaned watcher events)
    (advances : watcher.Advances process after more)
    (alone : ∀ phase findRef,
      watcher.pc process = .cleaning phase (.removeRetained findRef) →
      findRef.key ∉ watcher.watchedReferences ∧
        (watcher.pc findRef.key).isPutting = false) :
    Cleaned after (events ++ more) := by
  cases advances with
  | pass monitor pc follows =>
      rw [List.append_nil]
      refine cleaned.moved rfl (fun _ => Or.inl) (fun _ => Or.inl) ?_
      intro puts processed
      have isCollected := (tracked.waiting process).mpr
        (Or.inr (Or.inr processed))
      have created := tracked.created process isCollected
      rw [follows.putting puts] at created
      exact absurd created (by decide)
  | poll phase findRef rest atPoll queued =>
      rw [List.append_nil]
      refine cleaned.moved rfl (fun _ => Or.inl) (fun _ => Or.inl) ?_
      exact fun puts => absurd puts (by simp [Pc.isPutting])
  | removeWatched phase findRef atRemove watched =>
      apply Cleaned.processed
      · refine cleaned.moved rfl ?_ (fun _ => Or.inl) ?_
        · exact fun key inErased => Or.inl (AList.mem_erase.mp inErased).2
        · exact fun puts => absurd puts (by simp [Pc.isPutting])
      · have early := tracked.early _ watched
        refine ⟨fun inErased => (AList.mem_erase.mp inErased).1 rfl, ?_, ?_⟩
        · exact fun retained => tracked.disjoint _ ⟨watched, retained⟩
        · simp only [Watcher.goto]
          by_cases own : findRef.key = process
          · rw [own, Function.update_self]
            rfl
          · rw [Function.update_of_ne own]
            exact Pc.not_isPutting_of_isEarly early
  | removeRetained phase findRef atRemove =>
      obtain ⟨unwatched, still⟩ := alone phase findRef atRemove
      apply Cleaned.processed
      · refine cleaned.moved rfl (fun _ => Or.inl) ?_ ?_
        · exact fun key inErased => Or.inl (AList.mem_erase.mp inErased).2
        · exact fun puts => absurd puts (by simp [Pc.isPutting])
      · refine ⟨unwatched,
          fun inErased => (AList.mem_erase.mp inErased).1 rfl, ?_⟩
        simp only [Watcher.goto]
        by_cases own : findRef.key = process
        · rw [own, Function.update_self]
          rfl
        · rw [Function.update_of_ne own]
          exact still
  | putWatched reference atPut =>
      rw [List.append_nil]
      refine cleaned.moved rfl ?_ (fun _ => Or.inl) ?_
      · intro key inserted
        rcases (AList.mem_insert _).mp inserted with own | old
        · exact Or.inr ⟨own, by rw [atPut]; rfl⟩
        · exact Or.inl old
      · exact fun puts => absurd puts (by simp [Pc.isPutting])
  | removeKey retainedRef atRemove watched =>
      rw [List.append_nil]
      refine cleaned.moved rfl ?_ (fun _ => Or.inl) ?_
      · exact fun key inErased => Or.inl (AList.mem_erase.mp inErased).2
      · exact fun _ processed => (cleaned process processed).1 watched
  | putRetained retainedRef atPut =>
      rw [List.append_nil]
      refine cleaned.moved rfl (fun _ => Or.inl) ?_ ?_
      · intro key inserted
        rcases (AList.mem_insert _).mp inserted with own | old
        · exact Or.inr ⟨own, by rw [atPut]; rfl⟩
        · exact Or.inl old
      · exact fun puts => absurd puts (by simp [Pc.isPutting])
  | report atGet retained =>
      have kept : Cleaned (watcher.goto process .finished) events :=
        cleaned.moved rfl (fun _ => Or.inl) (fun _ => Or.inl)
          (fun puts => absurd puts (by simp [Pc.isPutting]))
      intro key processed
      exact kept key (by simpa using processed)

/-! ## Whole runs -/

/-- What a step reports is its own key, which is in the retained list. -/
private theorem spared_advance {watcher after : Watcher Key}
    {events more : List (Event Key)} {process : Key}
    (spared : AtEvery Spared events)
    (advances : watcher.Advances process after more)
    (alone : watcher.pc process = .getRetained →
      process ∈ watcher.retainedReferences → .collected process ∉ events) :
    AtEvery Spared (events ++ more) := by
  cases advances with
  | report atGet retained =>
      exact atEvery_concat.mpr ⟨spared, alone atGet retained⟩
  | removeWatched phase findRef atRemove watched =>
      exact atEvery_concat.mpr ⟨spared, trivial⟩
  | removeRetained phase findRef atRemove =>
      exact atEvery_concat.mpr ⟨spared, trivial⟩
  | _ =>
      rw [List.append_nil]
      exact spared

theorem cleaned_of_alone {actions : List (Action Key)}
    (every : AtEvery Alone actions) :
    Cleaned (watcherAfter actions) (eventsOf actions) ∧
      Sound actions := by
  suffices kept : Cleaned (watcherAfter actions) (eventsOf actions) ∧
      AtEvery Spared (eventsOf actions) by
    refine ⟨kept.1, (tracked actions).disjoint, ?_, kept.2⟩
    intro key processed
    obtain ⟨unwatched, unretained, _⟩ := kept.1 key processed
    exact ⟨unwatched, unretained⟩
  apply every.induction
  · exact ⟨fun key processed => absurd processed (by simp [eventsOf]),
      atEvery_nil _⟩
  · rintro before action ⟨cleaned, spared⟩ alone
    have tracks := tracked before
    rw [watcherAfter_concat, eventsOf_concat]
    cases action with
    | watch key =>
        dsimp only [Watcher.perform]
        by_cases first : (watcherAfter before).pc key = .notCalled
        · rw [if_pos first, List.append_nil]
          refine ⟨?_, spared⟩
          refine cleaned.moved rfl (fun _ => Or.inl) (fun _ => Or.inl) ?_
          exact fun puts => absurd puts (by simp [Pc.isPutting])
        · rw [if_neg first, List.append_nil]
          exact ⟨cleaned, spared⟩
    | step key =>
        obtain ⟨looksAlone, reportsAlone⟩ := alone
        have advances := (watcherAfter before).advances key
        refine ⟨cleaned.advance tracks advances looksAlone,
          spared_advance spared advances ?_⟩
        intro atGet retained isCollected
        obtain ⟨unqueued, unheld⟩ := reportsAlone atGet retained
        rcases (tracks.waiting key).mp ((tracks.known key).mp isCollected)
          with queued | held | processed
        · exact unqueued queued
        · exact unheld held
        · exact (cleaned key processed).2.1 retained
    | collect key =>
        dsimp only [Watcher.perform]
        by_cases collectable :
            ((watcherAfter before).pc key).isCreated = true ∧
              key ∉ (watcherAfter before).collected
        · rw [if_pos collectable]
          refine ⟨?_, atEvery_concat.mpr ⟨spared, trivial⟩⟩
          intro other processed
          exact cleaned other (by simpa using processed)
        · rw [if_neg collectable, List.append_nil]
          exact ⟨cleaned, spared⟩

/-- A process that is about to put a processed key stays so, for its next step
would put the key in a list. -/
private theorem putting_until {actions : List (Action Key)} {key : Key}
    (processed : .processed key ∈ eventsOf actions)
    (puts : ((watcherAfter actions).pc key).isPutting = true)
    (later : List (Action Key))
    (sound : ∀ initial, initial <+: actions ++ later → Sound initial) :
    .processed key ∈ eventsOf (actions ++ later) ∧
      ((watcherAfter (actions ++ later)).pc key).isPutting = true := by
  induction later using List.reverseRecOn with
  | nil =>
      rw [List.append_nil]
      exact ⟨processed, puts⟩
  | append_singleton middle action inductionHypothesis =>
      rw [← List.append_assoc] at sound ⊢
      obtain ⟨still, stillPuts⟩ := inductionHypothesis fun initial shorter =>
        sound initial (shorter.trans (List.prefix_append _ _))
      have last := (sound _ List.prefix_rfl).removed key
      rw [eventsOf_concat, watcherAfter_concat] at last ⊢
      have inEvents := List.mem_append_left
        ((watcherAfter (actions ++ middle)).perform action).2 still
      refine ⟨inEvents, ?_⟩
      have gone := last inEvents
      generalize watcherAfter (actions ++ middle) = watcher at *
      cases action with
      | watch other =>
          dsimp only [Watcher.perform]
          by_cases first : watcher.pc other = .notCalled
          · rw [if_pos first]
            have distinct : key ≠ other := by
              rintro rfl
              rw [first] at stillPuts
              exact absurd stillPuts (by simp [Pc.isPutting])
            simp only [Watcher.goto, Function.update_of_ne distinct]
            exact stillPuts
          · rw [if_neg first]
            exact stillPuts
      | collect other =>
          dsimp only [Watcher.perform]
          split
          · exact stillPuts
          · exact stillPuts
      | step other =>
          dsimp only [Watcher.perform] at gone ⊢
          by_cases own : key = other
          · subst own
            rw [Watcher.advance] at gone
            cases atKey : watcher.pc key with
            | putWatched reference =>
                rw [atKey] at gone
                exact absurd ((AList.mem_insert _).mpr (Or.inl rfl)) gone.1
            | putRetained retainedRef =>
                rw [atKey] at gone
                exact absurd ((AList.mem_insert _).mpr (Or.inl rfl)) gone.2
            | _ =>
                rw [atKey] at stillPuts
                exact absurd stillPuts (by simp [Pc.isPutting])
          · rw [(watcher.advances other).pc_of_ne own]
            exact stillPuts

/-- The lists are sound throughout every run in which cleanings and reports
are alone; and throughout a run at whose end no process is about to put its
key in a list, only then. -/
theorem sound_iff_alone (actions : List (Action Key)) :
    (AtEvery Alone actions →
        ∀ initial, initial <+: actions → Sound initial) ∧
      ((∀ key, ((watcherAfter actions).pc key).isPutting = false) →
        (∀ initial, initial <+: actions → Sound initial) →
          AtEvery Alone actions) := by
  constructor
  · rintro every initial ⟨rest, rfl⟩
    exact (cleaned_of_alone every.of_append).2
  · intro finished sound
    by_contra broken
    obtain ⟨before, action, after, rfl, every, fails⟩ :=
      exists_first_failure broken
    have tracks := tracked before
    have whole : before ++ action :: after = before ++ [action] ++ after := by
      simp
    have here : Sound (before ++ [action]) :=
      sound _ (whole ▸ List.prefix_append _ _)
    cases action with
    | watch key => exact fails trivial
    | collect key => exact fails trivial
    | step key =>
        apply fails
        constructor
        · intro phase findRef atRemove
          have output : ((watcherAfter before).perform (.step key)).2 =
              [.processed findRef.key] := by
            rw [Watcher.perform, Watcher.advance, atRemove]
            rfl
          have processed : .processed findRef.key ∈
              eventsOf (before ++ [.step key]) := by
            rw [eventsOf_concat, output]
            simp
          constructor
          · have unwatched := (here.removed _ processed).1
            rw [watcherAfter_concat, Watcher.perform, Watcher.advance,
              atRemove] at unwatched
            exact unwatched
          · by_contra puts
            have distinct : findRef.key ≠ key := by
              intro own
              rw [own, atRemove] at puts
              exact puts rfl
            have stays := (putting_until processed (by
                rw [watcherAfter_concat, Watcher.perform,
                  (Watcher.advances _ key).pc_of_ne distinct]
                simpa using puts) after (whole ▸ sound)).2
            rw [← whole, finished] at stays
            exact absurd stays (by decide)
        · intro atGet retained
          have output : ((watcherAfter before).perform (.step key)).2 =
              [.reported key] := by
            obtain ⟨found, isFound⟩ :=
              Option.isSome_iff_exists.mp (AList.lookup_isSome.mpr retained)
            rw [Watcher.perform, Watcher.advance, atGet]
            simp only [isFound]
          have spared := here.spared
          rw [eventsOf_concat, output, atEvery_concat] at spared
          have uncollected : .collected key ∉ eventsOf before := spared.2
          rw [tracks.known, tracks.waiting] at uncollected
          exact ⟨fun queued => uncollected (Or.inl queued),
            fun held => uncollected (Or.inr (Or.inl held))⟩

/-- While the worker of one key moves it, another call cleans: the collected
object comes into the retained list after that, and is reported. -/
def movedWhileCleaning : List (Action Bool) :=
  [.watch true] ++ List.replicate 7 (.step true) ++ [.collect true] ++
    [.watch false] ++ List.replicate 3 (.step false) ++
    List.replicate 6 (.step true)

theorem collected_reported :
    ¬ ∀ initial, initial <+: movedWhileCleaning → Sound initial := by
  intro sound
  have last := sound movedWhileCleaning List.prefix_rfl
  have processed : .processed true ∈ eventsOf movedWhileCleaning := by
    decide
  exact absurd (last.removed true processed).2 (by decide)

end DripStone.LeakWatcher
