import DripStone.Banner.Looping

/-!
# Banners that play by themselves

A runnable turns the page and posts itself again.  A flag says whether it is
posted, and touches, layouts, reloads and the lifecycle of the banner go by the
flag when they take the runnable away or post it anew.
-/

namespace DripStone.Banner

open DripStone.Library

variable {T : Type}

/-- `currentPosition++`. -/
def MultiBanner.counted (banner : MultiBanner T) : MultiBanner T :=
  { banner with currentPosition := banner.currentPosition + 1 }

/-- In the state `SCROLL_STATE_IDLE`. -/
def MultiBanner.onPageScrollStateChanged (banner : MultiBanner T) :
    Except Failure (MultiBanner T) :=
  banner.setCurrentItem banner.currentPosition

/-- A banner, and what its handler has in the queue. -/
structure AutoPlay (T : Type) where
  banner : MultiBanner T
  isLooping : Bool
  isAutoPlay : Bool
  -- how often `mRunnable` is posted
  posted : Nat
deriving DecidableEq, Repr

namespace AutoPlay

def new : AutoPlay T := ⟨.new, false, true, 0⟩

variable (play : AutoPlay T)

def startLoop : AutoPlay T :=
  if !play.isLooping && play.isAutoPlay then
    { play with posted := play.posted + 1, isLooping := true }
  else play

def stopLoop : AutoPlay T :=
  if play.isLooping then { play with posted := 0, isLooping := false }
  else play

/-- `onTouch`, with `ACTION_DOWN` or `ACTION_MOVE`. -/
def touched : AutoPlay T :=
  { play with isLooping := true }.stopLoop

/-- `onTouch`, with `ACTION_UP` or `ACTION_CANCEL`. -/
def released : AutoPlay T :=
  { play with isLooping := false }.startLoop

/-- `mRunnable`, which the handler took from its queue, with the number of
views that the `ViewPager` holds. -/
def run (childCount : Nat) : Except Failure (AutoPlay T) :=
  if childCount > 1 then
    -- the runnable is posted again
    let counted := play.banner.counted
    (counted.setCurrentItem counted.currentPosition).map fun banner =>
      { play with banner := banner }
  else .ok { play with posted := play.posted - 1 }

/-- All listeners are told that a scroll ended. -/
def scrolled : Except Failure (AutoPlay T) :=
  let listeners := play.banner.mViewPager.mOnPageChangeListeners
  ((List.replicate listeners ()).foldlM
    (fun (banner : MultiBanner T) _ => banner.onPageScrollStateChanged)
      play.banner).map fun banner => { play with banner := banner }

/-- What happens to the runnable where the banner became another one. -/
def changed (event : Event T) (banner : MultiBanner T) : AutoPlay T :=
  match event with
  | .layout => { play with banner := banner }.startLoop
  | .reload _ _ => { play.stopLoop with banner := banner }.startLoop
  | _ => { play with banner := banner }

end AutoPlay

inductive PlayEvent (T : Type) where
  | banner (event : Event T)
  | scrolled
  -- also when the lifecycle resumes
  | startLoop
  -- also when the lifecycle pauses
  | stopLoop
  | setAutoPlay (isAutoPlay : Bool)
  | touched
  | released
  | run (childCount : Nat)

/-- What can happen to a banner that plays.  An exception ends its run.
Touches are listened to from the first layout on. -/
def plays : Guarded (Except Failure (AutoPlay T)) (PlayEvent T) where
  start := .ok .new
  step
    | .error _, _ => none
    | .ok play, .banner event =>
        (runs.step (.ok play.banner) event).map fun outcome =>
          outcome.map (play.changed event)
    | .ok play, .scrolled => some play.scrolled
    | .ok play, .startLoop => some (.ok play.startLoop)
    | .ok play, .stopLoop => some (.ok play.stopLoop)
    | .ok play, .setAutoPlay isAutoPlay =>
        some (.ok { play with isAutoPlay := isAutoPlay })
    | .ok play, .touched =>
        if play.banner.adapter.isSome then some (.ok play.touched) else none
    | .ok play, .released =>
        if play.banner.adapter.isSome then some (.ok play.released) else none
    | .ok play, .run childCount =>
        if play.posted ≠ 0 then some (play.run childCount) else none

/-! ## The queue -/

/-- The runnable is posted once at most, and only while the flag is set. -/
def PostedOnce : Except Failure (AutoPlay T) → Prop
  | .error _ => True
  | .ok play => play.posted ≤ if play.isLooping then 1 else 0

/-- Where the runnable is posted the flag is set, so that it can be stopped. -/
def Stoppable : Except Failure (AutoPlay T) → Prop
  | .error _ => True
  | .ok play => play.posted ≠ 0 → play.isLooping = true

/-- A finger that leaves the pages had touched them, so that the runnable was
taken away. -/
def ReleasedUnposted : Except Failure (AutoPlay T) → PlayEvent T → Prop
  | .ok play, .released => play.banner.adapter.isSome → play.posted = 0
  | _, _ => True

/-- Or else the runnable is posted once more. -/
def ReleasedPlaying : Except Failure (AutoPlay T) → PlayEvent T → Prop
  | .ok play, .released =>
      play.banner.adapter.isSome → play.posted ≠ 0 → play.isAutoPlay = true
  | _, _ => True

/-- What posts the runnable that is not posted. -/
def PlayEvent.starts : PlayEvent T → Bool
  | .banner .layout => true
  | .banner (.reload _ _) => true
  | .startLoop => true
  | .released => true
  | _ => false

section Queue

variable {play after : AutoPlay T} {state next : Except Failure (AutoPlay T)}
variable {event : PlayEvent T} {history : List (PlayEvent T)}

/-- What becomes of the queue and of the flag, unless a finger leaves. -/
inductive QueueMoves (mayStart : Bool) (posted : Nat) (isLooping : Bool)
    (after : AutoPlay T) : Prop where
  | stays (fewer : after.posted ≤ posted) (same : after.isLooping = isLooping)
  | stops (isNone : after.posted = 0)
  | starts (isStart : mayStart = true) (wasStopped : isLooping = false)
      (oneMore : after.posted = posted + 1) (loops : after.isLooping = true)
  | restarts (isStart : mayStart = true) (isOne : after.posted = 1)
      (loops : after.isLooping = true)

theorem queueMoves_startLoop (play : AutoPlay T) :
    QueueMoves true play.posted play.isLooping play.startLoop := by
  rw [AutoPlay.startLoop]
  split
  · next starts =>
      refine .starts rfl ?_ rfl rfl
      simpa using (Bool.and_eq_true_iff.mp starts).1
  · exact .stays le_rfl rfl

theorem queueMoves_stopLoop (play : AutoPlay T) :
    QueueMoves false play.posted play.isLooping play.stopLoop := by
  rw [AutoPlay.stopLoop]
  split
  · exact .stops rfl
  · exact .stays le_rfl rfl

theorem queueMoves_changed (play : AutoPlay T) (event : Event T)
    (banner : MultiBanner T) :
    QueueMoves (PlayEvent.banner event).starts play.posted play.isLooping
      (play.changed event banner) := by
  cases event with
  | setPages => exact .stays le_rfl rfl
  | layout => exact queueMoves_startLoop { play with banner := banner }
  | select | instantiate | destroy => exact .stays le_rfl rfl
  | reload list populates =>
      rw [AutoPlay.changed, AutoPlay.stopLoop]
      split
      · rw [AutoPlay.startLoop]
        split
        · exact .restarts rfl rfl rfl
        · exact .stops rfl
      · exact queueMoves_startLoop { play with banner := banner }

/-- Inversion lemma: every event but one. -/
theorem queueMoves_step (stays : event ≠ .released)
    (stepped : plays.step (.ok play) event = some (.ok after)) :
    QueueMoves event.starts play.posted play.isLooping after := by
  cases event with
  | banner event =>
      obtain ⟨outcome, _, isNext⟩ := Option.map_eq_some_iff.mp stepped
      obtain ⟨banner, _, isAfter⟩ := except_map_eq_ok.mp isNext
      rw [← isAfter]
      exact queueMoves_changed play event banner
  | scrolled =>
      obtain ⟨banner, _, isAfter⟩ :=
        except_map_eq_ok.mp (Option.some_inj.mp stepped)
      rw [← isAfter]
      exact .stays le_rfl rfl
  | startLoop =>
      rw [← Except.ok.inj (Option.some_inj.mp stepped)]
      exact queueMoves_startLoop play
  | stopLoop =>
      rw [← Except.ok.inj (Option.some_inj.mp stepped)]
      exact queueMoves_stopLoop play
  | setAutoPlay isAutoPlay =>
      rw [← Except.ok.inj (Option.some_inj.mp stepped)]
      exact .stays le_rfl rfl
  | touched =>
      obtain ⟨_, isNext⟩ := Option.ite_none_right_eq_some.mp stepped
      rw [← Except.ok.inj (Option.some_inj.mp isNext)]
      exact .stops rfl
  | released => exact absurd rfl stays
  | run childCount =>
      obtain ⟨_, isNext⟩ := Option.ite_none_right_eq_some.mp stepped
      replace isNext := Option.some_inj.mp isNext
      rw [AutoPlay.run] at isNext
      split at isNext
      · obtain ⟨banner, _, isAfter⟩ := except_map_eq_ok.mp isNext
        rw [← isAfter]
        exact .stays le_rfl rfl
      · rw [← Except.ok.inj isNext]
        exact .stays (Nat.sub_le _ _) rfl

theorem step_released (stepped : plays.step (.ok play) .released = some next) :
    play.banner.adapter.isSome ∧ next = .ok play.released := by
  obtain ⟨listened, isNext⟩ := Option.ite_none_right_eq_some.mp stepped
  exact ⟨listened, (Option.some_inj.mp isNext).symm⟩

theorem released_of_isAutoPlay (isAutoPlay : play.isAutoPlay = true) :
    play.released =
      { play with posted := play.posted + 1, isLooping := true } := by
  rw [AutoPlay.released, AutoPlay.startLoop, isAutoPlay]
  rfl

theorem released_of_not_isAutoPlay (stops : play.isAutoPlay = false) :
    play.released = { play with isLooping := false } := by
  rw [AutoPlay.released, AutoPlay.startLoop, stops]
  rfl

/-- Step lemma: the runnable is posted twice, or against the flag, by a finger
that leaves only. -/
theorem postedOnce_exact (once : PostedOnce state)
    (stepped : plays.step state event = some next) :
    PostedOnce next ↔ ReleasedUnposted state event := by
  cases state with
  | error failure => cases stepped
  | ok play =>
      by_cases isReleased : event = .released
      · rw [isReleased] at stepped ⊢
        obtain ⟨listened, isNext⟩ := step_released stepped
        rw [isNext]
        cases isAutoPlay : play.isAutoPlay with
        | true =>
            rw [released_of_isAutoPlay isAutoPlay]
            simp [PostedOnce, ReleasedUnposted, listened]
        | false =>
            rw [released_of_not_isAutoPlay isAutoPlay]
            simp [PostedOnce, ReleasedUnposted, listened]
      · refine iff_of_true ?_ ?_
        · cases next with
          | error failure => trivial
          | ok after =>
              cases queueMoves_step isReleased stepped with
              | stays fewer same =>
                  exact fewer.trans (same.symm ▸ once)
              | stops isNone => exact isNone.le.trans (Nat.zero_le _)
              | starts _ wasStopped oneMore loops =>
                  have none : play.posted ≤ 0 := by
                    simpa [PostedOnce, wasStopped] using once
                  simp only [PostedOnce, loops, if_true]
                  omega
              | restarts _ isOne loops => simp [PostedOnce, loops, isOne]
        · cases event with
          | released => exact absurd rfl isReleased
          | _ => trivial

/-- Step lemma: what is posted can be stopped. -/
theorem stoppable_step (stoppable : Stoppable state)
    (playing : ReleasedPlaying state event)
    (stepped : plays.step state event = some next) : Stoppable next := by
  cases state with
  | error failure => cases stepped
  | ok play =>
      by_cases isReleased : event = .released
      · rw [isReleased] at stepped playing
        obtain ⟨listened, isNext⟩ := step_released stepped
        rw [isNext]
        cases isAutoPlay : play.isAutoPlay with
        | true =>
            rw [released_of_isAutoPlay isAutoPlay]
            exact fun _ => rfl
        | false =>
            rw [released_of_not_isAutoPlay isAutoPlay]
            intro isPosted
            rw [playing listened isPosted] at isAutoPlay
            cases isAutoPlay
      · cases next with
        | error failure => trivial
        | ok after =>
            cases queueMoves_step isReleased stepped with
            | stays fewer same =>
                intro isPosted
                rw [same]
                exact stoppable (by omega)
            | stops isNone => exact fun isPosted => absurd isNone isPosted
            | starts _ _ _ loops => exact fun _ => loops
            | restarts _ _ loops => exact fun _ => loops

/-- There is nothing in the queue. -/
def Quiet : Except Failure (AutoPlay T) → Prop
  | .error _ => True
  | .ok play => play.posted = 0

theorem quiet_stopLoop (stoppable : Stoppable state)
    (stepped : plays.step state .stopLoop = some next) : Quiet next := by
  cases state with
  | error failure => cases stepped
  | ok play =>
      rw [← Option.some_inj.mp stepped]
      show play.stopLoop.posted = 0
      rw [AutoPlay.stopLoop]
      split
      · rfl
      · next stopped =>
          by_contra isPosted
          exact stopped (stoppable isPosted)

/-- Step lemma: only some events post what was not posted. -/
theorem quiet_step (quiet : Quiet state) (paused : event.starts = false)
    (stepped : plays.step state event = some next) :
    Quiet next ∧ ∀ childCount, event ≠ .run childCount := by
  cases state with
  | error failure => cases stepped
  | ok play =>
      refine ⟨?_, fun childCount isRun => ?_⟩
      · cases next with
        | error failure => trivial
        | ok after =>
            have isReleased : event ≠ .released := fun isReleased => by
              rw [isReleased] at paused
              cases paused
            cases queueMoves_step isReleased stepped with
            | stays fewer same =>
                exact Nat.le_zero.mp (fewer.trans_eq quiet)
            | stops isNone => exact isNone
            | starts isStart => exact absurd isStart (by simp [paused])
            | restarts isStart => exact absurd isStart (by simp [paused])
      · rw [isRun] at stepped
        exact (Option.ite_none_right_eq_some.mp stepped).1 quiet

/-- Run lemma: what is not posted does not run. -/
theorem not_mem_of_quiet {start : Except Failure (AutoPlay T)}
    {rest : List (PlayEvent T)} (quiet : Quiet start)
    (paused : ∀ event ∈ rest, event.starts = false)
    (isHistory : (⟨start, plays.step⟩ : Guarded _ _).after rest = some state)
    (childCount : Nat) : .run childCount ∉ rest := by
  induction rest generalizing start with
  | nil => exact List.not_mem_nil
  | cons event rest inductionHypothesis =>
      rw [Guarded.after_cons] at isHistory
      obtain ⟨next, stepped, isRest⟩ := Option.bind_eq_some_iff.mp isHistory
      obtain ⟨stillQuiet, noRun⟩ :=
        quiet_step quiet (paused event List.mem_cons_self) stepped
      intro inHistory
      rcases List.mem_cons.mp inHistory with isFirst | inRest
      · exact noRun childCount isFirst.symm
      · exact inductionHypothesis stillQuiet
          (fun later inRest => paused later (List.mem_cons_of_mem _ inRest))
          isRest inRest

end Queue

/-- The runnable of a banner is posted once at most, and only while the flag
is set, exactly when no finger leaves the pages while it is posted. -/
theorem postedOnce_iff_released (history : List (PlayEvent T)) :
    plays.Along (plays.Leads PostedOnce) history ↔
      plays.Along ReleasedUnposted history :=
  Guarded.along_leads_iff PostedOnce (Nat.zero_le _)
    (fun _ _ _ once released stepped =>
      (postedOnce_exact once stepped).mpr released)
    (fun _ _ _ once stepped => postedOnce_exact once stepped)
    fun state event impossible => by
      cases state with
      | error failure => cases event <;> trivial
      | ok play =>
          cases event with
          | released =>
              intro listened
              simp [plays, listened] at impossible
          | _ => trivial

/-- Behind a stop no page is turned by the runnable, until something starts it
again. -/
theorem stopped_stays {before rest : List (PlayEvent T)}
    {state : Except Failure (AutoPlay T)}
    (isHistory : plays.after (before ++ .stopLoop :: rest) = some state)
    (released : plays.Along ReleasedPlaying before)
    (paused : ∀ event ∈ rest, event.starts = false) (childCount : Nat) :
    .run childCount ∉ rest := by
  rw [Guarded.after_append] at isHistory
  obtain ⟨between, isBetween, isRest⟩ := Option.bind_eq_some_iff.mp isHistory
  rw [Guarded.after_cons] at isRest
  obtain ⟨stopped, stepped, isRest⟩ := Option.bind_eq_some_iff.mp isRest
  have atStart : Stoppable (.ok .new : Except Failure (AutoPlay T)) :=
    fun isPosted => absurd rfl isPosted
  have stoppable : Stoppable between := Guarded.along_induction atStart
    (fun _ _ _ => stoppable_step) isBetween released
  exact not_mem_of_quiet (quiet_stopLoop stoppable stepped) paused isRest
    childCount

/-- A banner that was laid out and is stopped can be touched and scrolled. -/
def paused : List (PlayEvent Char) :=
  [.banner (.setPages ['a', 'b', 'c'] true), .banner .layout]

theorem stopped_stays_paused :
    .run 2 ∉ ([.touched, .scrolled] : List (PlayEvent Char)) := by
  have isHistory : ∃ state,
      plays.after (paused ++ .stopLoop :: [.touched, .scrolled]) =
        some state := ⟨_, rfl⟩
  obtain ⟨state, isHistory⟩ := isHistory
  refine stopped_stays isHistory ?_ (by decide) 2
  refine Guarded.along_cons.mpr ⟨trivial, fun next isNext => ?_⟩
  refine Guarded.along_cons.mpr ⟨?_, fun next isNext => Guarded.along_nil _ _⟩
  rw [← Option.some_inj.mp isNext]
  trivial

/-! ## The ring -/

/-- Items in a ring, one of which is presented. -/
structure ItemRing where
  count : Nat
  index : Nat
deriving DecidableEq, Repr

/-- By itself the banner goes on to the next item, and from the last one to
the first. -/
def ItemRing.turn (ring : ItemRing) : PlayEvent T → ItemRing
  | .banner (.setPages list holderCreator) =>
      if holderCreator then { ring with count := ring.count + list.length }
      else ring
  | .banner .layout => { ring with index := 0 }
  | .banner (.select position) =>
      { ring with index := shownAt ring.count position }
  | .banner (.reload list _) => ⟨list.length, 0⟩
  | .run childCount =>
      if childCount > 1 then
        { ring with index := (ring.index + 1) % ring.count }
      else ring
  | _ => ring

def ringAfter (history : List (PlayEvent T)) : ItemRing :=
  history.foldl ItemRing.turn ⟨0, 0⟩

/-- The selected page shows the item, and its dot is the one that is
checked. -/
structure MultiBanner.Presents (banner : MultiBanner T) (index : Nat) :
    Prop where
  inside : index < banner.mList.length
  item : banner.mListAdd[banner.mViewPager.mCurItem]? = banner.mList[index]?
  dot : ∀ other, banner.mDotList[other]? = some true ↔ other = index

/-- What is done to the banner fits it, and the runnable does not find several
views, which were held before a reload, where there is one page now. -/
def ProperPlay : Except Failure (AutoPlay T) → PlayEvent T → Prop
  | .ok play, .banner event => Fits (.ok play.banner) event
  | .ok play, .run childCount =>
      1 < childCount → 2 ≤ play.banner.mListAdd.length
  | _, _ => True

instance ProperPlay.decidable (state : Except Failure (AutoPlay T)) :
    ∀ event : PlayEvent T, Decidable (ProperPlay state event) :=
  match state with
  | .error _ => fun _ => inferInstanceAs (Decidable True)
  | .ok play => fun event =>
      match event with
      | .banner event => Fits.decidable (.ok play.banner) event
      | .run _ => inferInstanceAs (Decidable (_ → _))
      | .scrolled | .startLoop | .stopLoop | .setAutoPlay _ | .touched
      | .released => inferInstanceAs (Decidable True)

/-- The invariant of proper runs: where the banner goes on from. -/
structure Placed (banner : MultiBanner T) : Prop where
  steady : Steady banner
  inside : banner.adapter ≠ none → 2 ≤ banner.mList.length →
    banner.mViewPager.mCurItem < banner.mList.length + 2
  current : banner.adapter ≠ none → 2 ≤ banner.mList.length →
    banner.currentPosition =
      MultiBanner.currentAt banner.mList.length banner.mViewPager.mCurItem
  first : banner.adapter ≠ none → banner.mViewPager.mCurItem = 1 →
    banner.currentPosition = 1

/-- And which item of the ring it presents. -/
structure Turning (ring : ItemRing) (banner : MultiBanner T) : Prop where
  placed : Placed banner
  count : ring.count = banner.mList.length
  index : banner.adapter ≠ none → 2 ≤ banner.mList.length →
    shownAt banner.mList.length banner.mViewPager.mCurItem = ring.index

section Turns

variable {banner next : MultiBanner T} {adapter : MultiPagerAdapter}
variable {ring : ItemRing} {target : Nat}

theorem currentAt_eq {count page : Nat} (several : 2 ≤ count)
    (isPage : page < count + 2) :
    MultiBanner.currentAt count page = shownAt count page + 1 := by
  have some : 0 < count := by omega
  rw [MultiBanner.currentAt]
  by_cases isZero : page = 0
  · rw [if_pos isZero, isZero, shownAt_zero some]
    omega
  · rw [if_neg isZero]
    by_cases isEnd : page = count + 1
    · rw [if_pos isEnd, isEnd, shownAt_end some]
      rfl
    · obtain ⟨index, isNext⟩ := Nat.exists_eq_succ_of_ne_zero isZero
      rw [if_neg isEnd, isNext, Nat.succ_eq_add_one, shownAt_succ (by omega)]
      rfl

theorem shownAt_next {count index : Nat} (inside : index < count) :
    shownAt count (index + 2) = (index + 1) % count := by
  rw [shownAt, show index + 2 + count - 1 = index + 1 + count by omega,
    Nat.add_mod_right]

theorem Steady.counted (steady : Steady banner) : Steady banner.counted := by
  refine ⟨steady.loops, steady.created, steady.dot, steady.unlaid,
    fun adapter isAdapter => ?_⟩
  have laid := steady.laid adapter isAdapter
  refine ⟨laid.loops, laid.created, laid.listened, laid.padded,
    fun several => ?_, laid.single, laid.empty, laid.atFirst, laid.creator⟩
  have dotted := laid.several several
  exact ⟨dotted.isDot, dotted.isPrevious, dotted.isList, dotted.inside⟩

/-- Step lemma: the banner goes to a page of several. -/
theorem Steady.goTo (steady : Steady banner) (isLaid : banner.adapter ≠ none)
    (several : 2 ≤ banner.mList.length)
    (isPage : target < banner.mList.length + 2)
    (current : target = banner.mViewPager.mCurItem → banner.currentPosition =
      MultiBanner.currentAt banner.mList.length target) :
    ∃ next, banner.setCurrentItem target = .ok next ∧ Placed next ∧
      next.adapter ≠ none ∧ next.mList = banner.mList ∧
      next.mViewPager.mCurItem = target := by
  obtain ⟨adapter, isAdapter⟩ := Option.ne_none_iff_exists'.mp isLaid
  have laid := steady.laid adapter isAdapter
  have prepared := laid.prepared steady isAdapter several
  obtain ⟨next, isNext, selected⟩ := prepared.setCurrentItem
    (fun isFirst => laid.atFirst (isFirst.resolve_right laid.listened)) isPage
  have stillLaid : next.adapter ≠ none := by
    simp [selected.prepared.isAdapter]
  have isCurrent : next.currentPosition =
      MultiBanner.currentAt banner.mList.length target := by
    rcases MultiBanner.setCurrentItem_cases steady.loops isAdapter isNext with
      ⟨_, stays⟩ | went
    · have isThere := selected.isTarget
      rw [stays] at isThere ⊢
      exact current isThere.symm
    · have pages := prepared.length
      have isTarget : (min (target : Int) (banner.mListAdd.length - 1)).toNat =
          target := by omega
      rw [isTarget] at went
      refine went.current.trans ?_
      split
      · next stays => exact current (stays.resolve_right laid.listened)
      · rfl
  have isSteady : Steady next := by
    by_cases isThere : banner.mViewPager.mCurItem = target
    · have stays : banner.setCurrentItem target = .ok banner := by
        rw [MultiBanner.setCurrentItem, isAdapter]
        exact if_pos (Or.inr (congrArg _ isThere.symm))
      rw [isNext] at stays
      rw [Except.ok.inj stays]
      exact steady
    · refine selected.prepared.steady
        (selected.sameListeners ▸ laid.listened) ?_
      rw [selected.moved laid.listened isThere, selected.sameList,
        selected.isTarget]
  refine ⟨next, isNext, ⟨isSteady, fun _ _ => ?_, fun _ _ => ?_,
    fun _ isFirst => ?_⟩, stillLaid, selected.sameList, selected.isTarget⟩
  · rw [selected.isTarget, selected.sameList]
    exact isPage
  · rw [selected.isTarget, selected.sameList]
    exact isCurrent
  · rw [isCurrent, ← selected.isTarget, isFirst,
      MultiBanner.currentAt_one several]

theorem Turning.presents (turning : Turning ring banner)
    (isLaid : banner.adapter ≠ none) (several : 2 ≤ banner.mList.length) :
    banner.Presents ring.index := by
  obtain ⟨adapter, isAdapter⟩ := Option.ne_none_iff_exists'.mp isLaid
  have laid := turning.placed.steady.laid adapter isAdapter
  have isShown := turning.index isLaid several
  have dotted := laid.several several
  rw [isShown] at dotted
  refine ⟨dotted.inside, ?_, fun other => ?_⟩
  · rw [laid.padded, getElem?_looped, isShown]
    rw [length_looped, if_neg (not_lt.mpr several)]
    exact turning.placed.inside isLaid several
  · rw [dotted.isList]
    exact getElem?_oneAt dotted.inside other

end Turns

section Turns

variable {banner : MultiBanner T} {outcome : Except Failure (MultiBanner T)}
variable {ring : ItemRing} {event : Event T}

theorem turning_setPages (turning : Turning ring banner) {list : List T}
    (some : list ≠ []) {holderCreator : Bool}
    (proper : Fits (.ok banner) (.setPages list holderCreator)) :
    Turning (ring.turn (.banner (.setPages list holderCreator)))
      (banner.setPages list holderCreator) := by
  cases holderCreator with
  | false => exact turning
  | true =>
      have unlaid := proper some rfl
      have steady : Steady (banner.setPages list true) := by
        obtain ⟨noPages, noDot⟩ := turning.placed.steady.unlaid unlaid
        refine ⟨turning.placed.steady.loops, fun _ => rfl,
          turning.placed.steady.dot, fun _ => ⟨noPages, noDot⟩,
          fun adapter isAdapter => ?_⟩
        replace isAdapter : banner.adapter = Option.some adapter := isAdapter
        rw [unlaid] at isAdapter
        cases isAdapter
      refine ⟨⟨steady, fun isLaid => absurd unlaid isLaid,
        fun isLaid => absurd unlaid isLaid,
        fun isLaid => absurd unlaid isLaid⟩, ?_,
        fun isLaid => absurd unlaid isLaid⟩
      show ring.count + list.length = (banner.mList ++ list).length
      rw [turning.count, List.length_append]

theorem turning_layout (turning : Turning ring banner)
    (proper : Fits (.ok banner) .layout) :
    ∃ next, banner.onLayout = .ok next ∧
      Turning (ring.turn (.banner (.layout : Event T))) next := by
  have steady := turning.placed.steady
  by_cases several : 2 ≤ banner.mList.length
  · obtain ⟨next, isNext, isSteady, _, sameList, _⟩ :=
      steady.onLayout_of_several several
    obtain ⟨isFirst, isCurrent⟩ :=
      MultiBanner.onLayout_page_of_several steady.loops several isNext
    refine ⟨next, isNext, ⟨isSteady, fun _ _ => ?_, fun _ stillSeveral => ?_,
      fun _ _ => isCurrent⟩, ?_, fun _ _ => ?_⟩
    · omega
    · rw [isCurrent, isFirst, MultiBanner.currentAt_one stillSeveral]
    · exact turning.count.trans (congrArg List.length sameList.symm)
    · rw [isFirst]
      exact shownAt_succ (by omega)
  · obtain ⟨next, isNext, isSteady, isLaid, sameList, _⟩ :=
      steady.onLayout_of_few several proper
    have stillFew : ¬2 ≤ next.mList.length := sameList ▸ several
    have onePage : next.mListAdd.length ≤ 1 := by
      obtain ⟨adapter, isAdapter⟩ := Option.ne_none_iff_exists'.mp isLaid
      rw [(isSteady.laid adapter isAdapter).padded, looped_of_lt (by omega)]
      omega
    have isFirst := MultiBanner.onLayout_page_of_few steady.loops several
      isNext onePage
    refine ⟨next, isNext, ⟨isSteady, fun _ more => absurd more stillFew,
      fun _ more => absurd more stillFew, fun _ isOne => ?_⟩, ?_,
      fun _ more => absurd more stillFew⟩
    · rw [isFirst] at isOne
      cases isOne
    · exact turning.count.trans (congrArg List.length sameList.symm)

theorem turning_select (turning : Turning ring banner) {position : Nat}
    (isPage : position < banner.mListAdd.length)
    (proper : Fits (.ok banner) (.select position)) :
    ∃ next, banner.setCurrentItem position = .ok next ∧
      Turning (ring.turn (.banner (.select position : Event T))) next := by
  have steady := turning.placed.steady
  cases isAdapter : banner.adapter with
  | none =>
      rw [(steady.unlaid isAdapter).1] at isPage
      cases isPage
  | some adapter =>
      have isLaid : banner.adapter ≠ none := by simp [isAdapter]
      by_cases several : 2 ≤ banner.mList.length
      · rw [(steady.laid adapter isAdapter).padded, length_looped,
          if_neg (not_lt.mpr several)] at isPage
        obtain ⟨next, isNext, placed, _, sameList, isTarget⟩ :=
          steady.goTo isLaid several isPage fun isThere =>
            isThere ▸ turning.placed.current isLaid several
        refine ⟨next, isNext, placed, ?_, fun _ _ => ?_⟩
        · exact turning.count.trans (congrArg List.length sameList.symm)
        · rw [isTarget, sameList, ← turning.count]
          rfl
      · have isThere := (proper isPage).resolve_left several
        refine ⟨banner, ?_, turning.placed, turning.count,
          fun _ more => absurd more several⟩
        rw [MultiBanner.setCurrentItem, isAdapter]
        exact if_pos (Or.inr (congrArg _ isThere))

theorem turning_reload (turning : Turning ring banner) {list : List T}
    (some : list ≠ []) {populates : Bool}
    (mayPopulate : populates = true → banner.mViewPager.mCurItem = 0 ∨
      2 ≤ list.length)
    (proper : Fits (.ok banner) (.reload list populates)) :
    ∃ next, banner.onReload list populates = .ok next ∧
      Turning (ring.turn (.banner (.reload list populates : Event T)))
        next := by
  have steady := turning.placed.steady
  obtain ⟨⟨adapter, isAdapter, created⟩, hasDot, isNear⟩ :=
    proper some mayPopulate
  have laid := steady.laid adapter isAdapter
  have isLaid : banner.adapter ≠ none := by simp [isAdapter]
  obtain ⟨dot, isDot, isPrevious⟩ := steady.dot
  rcases MultiBanner.onReload_cases steady.loops some isDot populates with
    ⟨several, outside, _⟩ | ⟨several, inside, reloads⟩ | ⟨single, reloads⟩
  · exact absurd (hasDot several) outside
  · obtain ⟨next, isNext, isSteady, _, sameList, _⟩ := laid.reload_several
      steady isAdapter created several isDot isPrevious inside populates
    have sameAdapter : ((banner.filled list).dotted dot).adapter =
        Option.some adapter := isAdapter
    have loops : ((banner.filled list).dotted dot).isCanLoop = true :=
      steady.loops
    obtain ⟨isFirst, isCurrent⟩ := MultiBanner.reshown_page loops sameAdapter
      several rfl rfl isNext
    rw [reloads]
    refine ⟨next, isNext, ⟨isSteady, fun _ _ => ?_, fun _ _ => ?_,
      fun _ _ => isCurrent⟩, ?_, fun _ _ => ?_⟩
    · omega
    · rw [isCurrent, isFirst, sameList, MultiBanner.currentAt_one several]
    · exact (congrArg List.length sameList).symm
    · rw [isFirst, sameList]
      exact shownAt_succ (by omega)
  · have few : ¬2 ≤ list.length := by omega
    have sameAdapter : ((banner.filled list).undotted list).adapter =
        Option.some adapter := isAdapter
    have shows_ := MultiBanner.reshown_of_single sameAdapter laid.loops
      created single rfl laid.listened fun populated : populates = true =>
        (mayPopulate populated).resolve_right few
    have near : ((banner.filled list).undotted list).mViewPager.mCurItem ≤ 1 :=
      isNear single
    rw [reloads, shows_, if_pos near]
    refine ⟨_, rfl, ⟨laid.reload_single steady isAdapter created single
      near, fun _ more => absurd more few, fun _ more => absurd more few,
      fun _ => turning.placed.first isLaid⟩, rfl,
      fun _ more => absurd more few⟩

/-- Step lemma: a scroll ends at the page to go on from, which shows the same
item. -/
theorem turning_onPageScrollStateChanged (turning : Turning ring banner) :
    ∃ next, banner.onPageScrollStateChanged = .ok next ∧ Turning ring next := by
  have steady := turning.placed.steady
  rw [MultiBanner.onPageScrollStateChanged]
  cases isAdapter : banner.adapter with
  | none =>
      refine ⟨banner, ?_, turning⟩
      rw [MultiBanner.setCurrentItem, isAdapter]
  | some adapter =>
      have isLaid : banner.adapter ≠ none := by simp [isAdapter]
      have laid := steady.laid adapter isAdapter
      by_cases several : 2 ≤ banner.mList.length
      · have isPage := turning.placed.inside isLaid several
        have isCurrent := turning.placed.current isLaid several
        have inside := shownAt_lt (Nat.zero_lt_of_lt several)
          banner.mViewPager.mCurItem
        have isTarget : banner.currentPosition =
            ((shownAt banner.mList.length banner.mViewPager.mCurItem + 1 :
              Nat) : Int) := by
          rw [isCurrent, currentAt_eq several isPage]
          rfl
        obtain ⟨next, isNext, placed, _, sameList, isThere⟩ :=
          steady.goTo isLaid several (Nat.lt_succ_of_lt
            (Nat.succ_lt_succ inside)) fun isThere => by
              rw [isThere]
              exact isCurrent
        rw [isTarget]
        refine ⟨next, isNext, placed, ?_, fun _ _ => ?_⟩
        · exact turning.count.trans (congrArg List.length sameList.symm)
        · rw [isThere, sameList, shownAt_succ inside]
          exact turning.index isLaid several
      · refine ⟨banner, ?_, turning⟩
        by_cases isEmpty : banner.mList = []
        · have noPages : banner.mListAdd = [] := by
            rw [laid.padded, isEmpty]
            rfl
          rw [MultiBanner.setCurrentItem, isAdapter]
          exact if_pos (Or.inl (List.isEmpty_iff.mpr noPages))
        · have single : banner.mList.length = 1 := by
            have longer := List.length_pos_iff.mpr isEmpty
            omega
          have onePage : banner.mListAdd.length = 1 := by
            rw [laid.padded, looped_of_lt (by omega), single]
          by_cases atFirst : banner.mViewPager.mCurItem = 0
          · exact MultiBanner.setCurrentItem_of_first isAdapter laid.loops
              (laid.created isEmpty) onePage atFirst _
          · have isOne : banner.mViewPager.mCurItem = 1 := by
              have near := (laid.single single).2
              omega
            rw [turning.placed.first isLaid isOne, MultiBanner.setCurrentItem,
              isAdapter]
            refine if_pos (Or.inr ?_)
            rw [isOne]
            rfl

/-- The pages that are held are no part of it. -/
theorem Turning.holding (turning : Turning ring banner)
    (items : List (Nat × Page T)) : Turning ring (banner.holding items) :=
  ⟨⟨turning.placed.steady.holding items, turning.placed.inside,
    turning.placed.current, turning.placed.first⟩, turning.count,
    turning.index⟩

/-- Step lemma: what is done to the banner. -/
theorem turning_banner (turning : Turning ring banner)
    (proper : Fits (.ok banner) event)
    (stepped : runs.step (.ok banner) event = some outcome) :
    ∃ next, outcome = .ok next ∧
      Turning (ring.turn (.banner event)) next := by
  cases event with
  | setPages list holderCreator =>
      obtain ⟨some, isNext⟩ := Option.ite_none_right_eq_some.mp stepped
      exact ⟨_, (Option.some_inj.mp isNext).symm,
        turning_setPages turning some proper⟩
  | layout =>
      rw [← Option.some_inj.mp stepped]
      exact turning_layout turning proper
  | select position =>
      obtain ⟨isPage, isNext⟩ := Option.ite_none_right_eq_some.mp stepped
      rw [← Option.some_inj.mp isNext]
      exact turning_select turning isPage proper
  | reload list populates =>
      obtain ⟨⟨some, mayPopulate⟩, isNext⟩ :=
        Option.ite_none_right_eq_some.mp stepped
      rw [← Option.some_inj.mp isNext]
      exact turning_reload turning some mayPopulate proper
  | instantiate position =>
      obtain ⟨adapter, isAdapter, isStep⟩ := Option.bind_eq_some_iff.mp stepped
      obtain ⟨⟨isPage, _⟩, isNext⟩ := Option.ite_none_right_eq_some.mp isStep
      obtain ⟨_, _, _, isOk⟩ :=
        turning.placed.steady.instantiateItem_eq isAdapter isPage
      rw [← Option.some_inj.mp isNext, isOk]
      exact ⟨_, rfl, turning.holding _⟩
  | destroy position =>
      rw [← Option.some_inj.mp stepped]
      exact ⟨_, rfl, turning.holding _⟩

/-- Step lemma: the runnable goes on to the page of the next item. -/
theorem turning_counted (turning : Turning ring banner)
    (pages : 2 ≤ banner.mListAdd.length) :
    ∃ next, banner.counted.setCurrentItem banner.counted.currentPosition =
        .ok next ∧
      Turning { ring with index := (ring.index + 1) % ring.count } next := by
  have steady := turning.placed.steady
  have isLaid : banner.adapter ≠ none := fun unlaid => by
    rw [(steady.unlaid unlaid).1] at pages
    cases pages
  obtain ⟨adapter, isAdapter⟩ := Option.ne_none_iff_exists'.mp isLaid
  have several : 2 ≤ banner.mList.length := by
    rw [(steady.laid adapter isAdapter).padded, length_looped] at pages
    split at pages
    · exact pages
    · next several => exact not_lt.mp several
  have isPage := turning.placed.inside isLaid several
  have isShown := turning.index isLaid several
  have inside := shownAt_lt (Nat.zero_lt_of_lt several)
    banner.mViewPager.mCurItem
  have isCurrent := currentAt_eq several isPage
  rw [isShown] at inside isCurrent
  have isTarget : banner.counted.currentPosition =
      ((ring.index + 2 : Nat) : Int) := by
    show banner.currentPosition + 1 = _
    rw [turning.placed.current isLaid several, isCurrent]
    rfl
  have another : ring.index + 2 ≠ banner.mViewPager.mCurItem := by
    intro isThere
    rw [MultiBanner.currentAt, if_neg (by omega)] at isCurrent
    split at isCurrent
    · omega
    · omega
  obtain ⟨next, isNext, placed, _, sameList, isThere⟩ :=
    steady.counted.goTo isLaid several (Nat.succ_lt_succ (Nat.succ_lt_succ
      inside)) fun isThere => absurd isThere another
  rw [isTarget]
  replace sameList : next.mList = banner.mList := sameList
  refine ⟨next, isNext, placed, ?_, fun _ _ => ?_⟩
  · exact turning.count.trans (congrArg List.length sameList.symm)
  · rw [isThere, sameList, shownAt_next inside, ← turning.count]

end Turns

/-! ## Any history -/

section History

variable {play : AutoPlay T} {state : Except Failure (AutoPlay T)}
variable {ring : ItemRing} {event : PlayEvent T}

namespace AutoPlay

theorem banner_startLoop (play : AutoPlay T) :
    play.startLoop.banner = play.banner := by
  rw [startLoop]
  split
  · rfl
  · rfl

theorem banner_stopLoop (play : AutoPlay T) :
    play.stopLoop.banner = play.banner := by
  rw [stopLoop]
  split
  · rfl
  · rfl

theorem banner_changed (play : AutoPlay T) (event : Event T)
    (banner : MultiBanner T) : (play.changed event banner).banner = banner := by
  cases event with
  | setPages => rfl
  | layout => exact banner_startLoop _
  | select | instantiate | destroy => rfl
  | reload => exact banner_startLoop _

/-- Run lemma: each listener is told of the end of a scroll. -/
theorem turning_scrolled (turning : Turning ring play.banner) :
    ∃ after, play.scrolled = .ok after ∧ Turning ring after.banner := by
  have told : ∀ (times : Nat) (banner : MultiBanner T), Turning ring banner →
      ∃ next, (List.replicate times ()).foldlM
          (fun (banner : MultiBanner T) _ => banner.onPageScrollStateChanged)
            banner = .ok next ∧ Turning ring next := by
    intro times
    induction times with
    | zero => exact fun banner turning => ⟨banner, rfl, turning⟩
    | succ times inductionHypothesis =>
        intro banner turning
        obtain ⟨next, isNext, stillTurning⟩ :=
          turning_onPageScrollStateChanged turning
        rw [List.replicate_succ, List.foldlM_cons, isNext]
        exact inductionHypothesis next stillTurning
  obtain ⟨next, isNext, stillTurning⟩ := told _ play.banner turning
  refine ⟨{ play with banner := next }, ?_, stillTurning⟩
  rw [scrolled, isNext]
  rfl

end AutoPlay

/-- Step lemma: every event. -/
theorem turning_step (turning : Turning ring play.banner)
    (proper : ProperPlay (.ok play) event)
    (stepped : plays.step (.ok play) event = some state) :
    ∃ after, state = .ok after ∧ Turning (ring.turn event) after.banner := by
  cases event with
  | banner event =>
      obtain ⟨outcome, isOutcome, isNext⟩ :=
        Option.map_eq_some_iff.mp stepped
      obtain ⟨next, isOk, stillTurning⟩ :=
        turning_banner turning proper isOutcome
      rw [← isNext, isOk]
      refine ⟨play.changed event next, rfl, ?_⟩
      rw [AutoPlay.banner_changed]
      exact stillTurning
  | scrolled =>
      rw [← Option.some_inj.mp stepped]
      exact AutoPlay.turning_scrolled turning
  | startLoop =>
      rw [← Option.some_inj.mp stepped]
      exact ⟨_, rfl, play.banner_startLoop ▸ turning⟩
  | stopLoop =>
      rw [← Option.some_inj.mp stepped]
      exact ⟨_, rfl, play.banner_stopLoop ▸ turning⟩
  | setAutoPlay isAutoPlay =>
      rw [← Option.some_inj.mp stepped]
      exact ⟨_, rfl, turning⟩
  | touched =>
      obtain ⟨_, isNext⟩ := Option.ite_none_right_eq_some.mp stepped
      rw [← Option.some_inj.mp isNext]
      refine ⟨play.touched, rfl, ?_⟩
      rw [AutoPlay.touched, AutoPlay.banner_stopLoop]
      exact turning
  | released =>
      obtain ⟨_, isNext⟩ := Option.ite_none_right_eq_some.mp stepped
      rw [← Option.some_inj.mp isNext]
      refine ⟨play.released, rfl, ?_⟩
      rw [AutoPlay.released, AutoPlay.banner_startLoop]
      exact turning
  | run childCount =>
      obtain ⟨_, isNext⟩ := Option.ite_none_right_eq_some.mp stepped
      rw [← Option.some_inj.mp isNext, AutoPlay.run, ItemRing.turn]
      split
      · next several =>
          obtain ⟨next, isNext, stillTurning⟩ :=
            turning_counted turning (proper several)
          simp only [isNext]
          exact ⟨{ play with banner := next }, rfl, stillTurning⟩
      · exact ⟨_, rfl, turning⟩

theorem turning_new :
    Turning ⟨0, 0⟩ (AutoPlay.new : AutoPlay T).banner := by
  have unlaid : (AutoPlay.new : AutoPlay T).banner.adapter = none := rfl
  refine ⟨⟨(inv_new 1).1, fun isLaid => absurd unlaid isLaid,
    fun isLaid => absurd unlaid isLaid, fun isLaid => absurd unlaid isLaid⟩,
    rfl, fun isLaid => absurd unlaid isLaid⟩

end History

/-- A banner with several items that is used properly never throws, and it
presents the item that the ring has come to: whatever touches, pauses and
scrolls come between them, each run of the runnable goes on by one. -/
theorem presents_ring {history : List (PlayEvent T)}
    {state : Except Failure (AutoPlay T)}
    (isHistory : plays.after history = some state)
    (proper : plays.Along ProperPlay history) :
    ∃ play, state = .ok play ∧
      (ringAfter history).count = play.banner.mList.length ∧
      (play.banner.adapter ≠ none → 2 ≤ play.banner.mList.length →
        play.banner.Presents (ringAfter history).index) := by
  have turns : ∃ play, state = .ok play ∧
      Turning (ringAfter history) play.banner := by
    induction history using List.reverseRecOn generalizing state with
    | nil => exact ⟨.new, (Option.some_inj.mp isHistory).symm, turning_new⟩
    | append_singleton history event inductionHypothesis =>
        obtain ⟨between, isBetween, stepped⟩ :=
          Guarded.after_concat_eq_some.mp isHistory
        obtain ⟨play, isPlay, turning⟩ :=
          inductionHypothesis isBetween proper.of_append
        rw [isPlay] at isBetween stepped
        rw [ringAfter, List.foldl_concat]
        exact turning_step turning
          ((Guarded.along_concat.mp proper).2 _ isBetween) stepped
  obtain ⟨play, isPlay, turning⟩ := turns
  exact ⟨play, isPlay, turning.count, turning.presents⟩

/-- Three items, of which the second one is touched. -/
def carousel : List (PlayEvent Char) :=
  [.run 2, .touched, .released, .run 2, .scrolled, .run 2]

theorem presents_ring_carousel :
    ∃ play, plays.after (paused ++ carousel) = some (.ok play) ∧
      play.banner.Presents 0 := by
  have isHistory : ∃ play,
      plays.after (paused ++ carousel) = some (.ok play) ∧
        play.banner.adapter ≠ none ∧ play.banner.mList.length = 3 :=
    ⟨_, rfl, Option.some_ne_none _, rfl⟩
  obtain ⟨play, isHistory, isLaid, three⟩ := isHistory
  have proper : plays.Along ProperPlay (paused ++ carousel) := by decide
  obtain ⟨_, isPlay, _, presents⟩ := presents_ring isHistory proper
  rw [← Except.ok.inj isPlay] at presents
  exact ⟨play, isHistory, presents isLaid (by omega)⟩

end DripStone.Banner
