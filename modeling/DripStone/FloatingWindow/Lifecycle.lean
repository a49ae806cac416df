import DripStone.Library.Guarded

/-!
# `FloatingActivityLifecycle`

The callbacks of all activities of an application arrive in one object, which
keeps the activities, and the hash code of one that is in landscape.
-/

namespace DripStone.FloatingWindow

open DripStone.Library

variable {Activity : Type} [DecidableEq Activity]

structure FloatingActivityLifecycle (Activity : Type) where
  mActivities : List Activity
  currentLandSpaceActivityHash : Int
  -- what `setLandSpaceChange` was last given
  delivered : Option Bool

/-! ## The callbacks -/

namespace FloatingActivityLifecycle

variable (hashCode : Activity → Int)
  (lifecycle : FloatingActivityLifecycle Activity) (activity : Activity)

omit [DecidableEq Activity] in
def onActivityCreated : FloatingActivityLifecycle Activity :=
  { lifecycle with mActivities := lifecycle.mActivities ++ [activity] }

def onActivityStarted (landscape : Bool) :
    FloatingActivityLifecycle Activity :=
  if landscape then
    { lifecycle with
      currentLandSpaceActivityHash := hashCode activity
      delivered := some true }
  else lifecycle

def onActivityStopped : FloatingActivityLifecycle Activity :=
  if lifecycle.currentLandSpaceActivityHash = hashCode activity then
    { lifecycle with
      currentLandSpaceActivityHash := 0
      delivered := some false }
  else lifecycle

def onActivityDestroyed : FloatingActivityLifecycle Activity :=
  { lifecycle with mActivities := lifecycle.mActivities.erase activity }

end FloatingActivityLifecycle

/-! ## Activities -/

/-- Where an activity is in its life. -/
inductive Stage where
  | unborn
  | stopped
  | started (landscape : Bool)
  | destroyed
deriving DecidableEq, Repr

inductive Callback (Activity : Type) where
  | created (activity : Activity)
  | started (activity : Activity) (landscape : Bool)
  | stopped (activity : Activity)
  | destroyed (activity : Activity)

/-- An application: its activities, in the order of their creation, and what
was told of them. -/
structure Application (Activity : Type) where
  stage : Activity → Stage
  created : List Activity
  lifecycle : FloatingActivityLifecycle Activity

def Application.enter (application : Application Activity)
    (activity : Activity) (stage : Stage)
    (lifecycle : FloatingActivityLifecycle Activity) : Application Activity :=
  { application with
    stage := Function.update application.stage activity stage
    lifecycle := lifecycle }

/-- The callbacks that Android can deliver. -/
def application (hashCode : Activity → Int) :
    Guarded (Application Activity) (Callback Activity) where
  start := ⟨fun _ => .unborn, [], ⟨[], 0, none⟩⟩
  step before callback :=
    match callback with
    | .created activity =>
        if before.stage activity = .unborn then
          some { before.enter activity .stopped
              (before.lifecycle.onActivityCreated activity) with
            created := before.created ++ [activity] }
        else none
    | .started activity landscape =>
        if before.stage activity = .stopped then
          some (before.enter activity (.started landscape)
            (before.lifecycle.onActivityStarted hashCode activity landscape))
        else none
    | .stopped activity =>
        match before.stage activity with
        | .started _ =>
            some (before.enter activity .stopped
              (before.lifecycle.onActivityStopped hashCode activity))
        | _ => none
    | .destroyed activity =>
        if before.stage activity = .stopped then
          some (before.enter activity .destroyed
            (before.lifecycle.onActivityDestroyed activity))
        else none

/-! ## The law -/

/-- The last value that was delivered tells whether a started activity is in
landscape, and the activities are those that are not destroyed, in order. -/
structure Tracks (application : Application Activity) : Prop where
  landscape : application.lifecycle.delivered = some true ↔
    ∃ activity, application.stage activity = .started true
  activities : application.lifecycle.mActivities =
    application.created.filter fun activity =>
      application.stage activity ≠ .destroyed

/-- When an activity stops that has the hash code kept, no other one is in
landscape. -/
def Exclusive (hashCode : Activity → Int)
    (application : Application Activity) : Callback Activity → Prop
  | .stopped activity =>
      (∃ landscape, application.stage activity = .started landscape) →
        application.lifecycle.currentLandSpaceActivityHash =
            hashCode activity →
          ∀ other, other ≠ activity →
            application.stage other ≠ .started true
  | _ => True

/-! ## The activities -/

section Activities

variable {hashCode : Activity → Int} {before next : Application Activity}
  {callback : Callback Activity}

/-- The list of the activities, and what it rests on. -/
structure Lists (application : Application Activity) : Prop where
  activities : application.lifecycle.mActivities =
    application.created.filter fun activity =>
      application.stage activity ≠ .destroyed
  distinct : application.created.Nodup
  born : ∀ activity, activity ∈ application.created ↔
    application.stage activity ≠ .unborn

omit [DecidableEq Activity] in
theorem mActivities_started (lifecycle : FloatingActivityLifecycle Activity)
    (activity : Activity) (landscape : Bool) :
    (lifecycle.onActivityStarted hashCode activity
      landscape).mActivities = lifecycle.mActivities := by
  rw [FloatingActivityLifecycle.onActivityStarted]
  split
  · rfl
  · rfl

omit [DecidableEq Activity] in
theorem mActivities_stopped (lifecycle : FloatingActivityLifecycle Activity)
    (activity : Activity) :
    (lifecycle.onActivityStopped hashCode activity).mActivities =
      lifecycle.mActivities := by
  rw [FloatingActivityLifecycle.onActivityStopped]
  split
  · rfl
  · rfl

/-- An activity that is alive and stays so changes no list. -/
theorem Lists.enter {activity : Activity} {stage : Stage}
    {lifecycle : FloatingActivityLifecycle Activity} (lists : Lists before)
    (wasAlive : before.stage activity ≠ .unborn ∧
      before.stage activity ≠ .destroyed)
    (isAlive : stage ≠ .unborn ∧ stage ≠ .destroyed)
    (same : lifecycle.mActivities = before.lifecycle.mActivities) :
    Lists (before.enter activity stage lifecycle) := by
  refine ⟨?_, lists.distinct, fun other => ?_⟩
  · show lifecycle.mActivities = _
    rw [same, lists.activities]
    refine List.filter_congr fun other _ => ?_
    simp only [Application.enter, Function.update_apply]
    split
    · next isIt => simp [isIt, wasAlive.2, isAlive.2]
    · rfl
  · simp only [Application.enter, Function.update_apply]
    rw [lists.born]
    split
    · next isIt => simp [isIt, wasAlive.1, isAlive.1]
    · rfl

theorem lists_step (lists : Lists before)
    (stepped : (application hashCode).step before callback = some next) :
    Lists next := by
  cases callback with
  | created activity =>
      obtain ⟨unborn, isNext⟩ := Option.ite_none_right_eq_some.mp stepped
      have isNew : activity ∉ before.created := fun isCreated =>
        (lists.born activity).mp isCreated unborn
      rw [← Option.some_inj.mp isNext]
      refine ⟨?_, ?_, fun other => ?_⟩
      · show before.lifecycle.mActivities ++ [activity] = _
        rw [lists.activities, List.filter_append]
        congr 1
        · refine List.filter_congr fun other isCreated => ?_
          have another : other ≠ activity := fun same =>
            isNew (same ▸ isCreated)
          simp [Application.enter, Function.update_of_ne another]
        · simp [Application.enter]
      · exact List.nodup_append'.mpr ⟨lists.distinct,
          List.nodup_singleton activity, by simpa using isNew⟩
      · simp only [Application.enter, Function.update_apply, List.mem_append,
          List.mem_singleton, lists.born]
        split
        · next isIt => simp [isIt]
        · next another => simp [another]
  | started activity landscape =>
      obtain ⟨isStopped, isNext⟩ := Option.ite_none_right_eq_some.mp stepped
      rw [← Option.some_inj.mp isNext]
      exact lists.enter (by simp [isStopped]) (by simp)
        (mActivities_started _ _ _)
  | stopped activity =>
      simp only [application] at stepped
      split at stepped
      · next landscape isStarted =>
          rw [← Option.some_inj.mp stepped]
          exact lists.enter (by simp [isStarted]) (by simp)
            (mActivities_stopped _ _)
      · cases stepped
  | destroyed activity =>
      obtain ⟨isStopped, isNext⟩ := Option.ite_none_right_eq_some.mp stepped
      rw [← Option.some_inj.mp isNext]
      refine ⟨?_, lists.distinct, fun other => ?_⟩
      · show before.lifecycle.mActivities.erase activity = _
        rw [lists.activities, (lists.distinct.filter _).erase_eq_filter,
          List.filter_filter]
        refine List.filter_congr fun other _ => ?_
        simp only [Application.enter, Function.update_apply]
        split
        · next isIt => simp [isIt]
        · next another => simp [another]
      · simp only [Application.enter, Function.update_apply, lists.born]
        split
        · next isIt => simp [isIt, isStopped]
        · rfl

end Activities

/-! ## Landscape -/

section Landscape

variable {hashCode : Activity → Int} {before next : Application Activity}
  {callback : Callback Activity}

def InLandscape (application : Application Activity) (activity : Activity) :
    Prop :=
  application.stage activity = .started true

/-- The value that was delivered, and an activity whose hash code is kept. -/
structure Kept (hashCode : Activity → Int)
    (application : Application Activity) : Prop where
  told : application.lifecycle.delivered = some true ↔
    ∃ activity, InLandscape application activity
  kept : (∃ activity, InLandscape application activity) →
    ∃ activity, InLandscape application activity ∧
      hashCode activity = application.lifecycle.currentLandSpaceActivityHash

theorem inLandscape_enter {activity other : Activity} {stage : Stage}
    {lifecycle : FloatingActivityLifecycle Activity}
    (notNow : stage ≠ .started true) :
    InLandscape (before.enter activity stage lifecycle) other ↔
      other ≠ activity ∧ InLandscape before other := by
  simp only [InLandscape, Application.enter, Function.update_apply]
  split
  · next isIt => simp [isIt, notNow]
  · next another => simp [another]

omit [DecidableEq Activity] in
/-- A callback that leaves the activities in landscape, and what was told of
them, alone. -/
theorem Kept.congr (kept : Kept hashCode before)
    (sameStages : ∀ activity,
      InLandscape next activity ↔ InLandscape before activity)
    (sameTold : next.lifecycle.delivered = before.lifecycle.delivered)
    (sameHash : next.lifecycle.currentLandSpaceActivityHash =
      before.lifecycle.currentLandSpaceActivityHash) :
    Kept hashCode next := by
  constructor
  · rw [sameTold]
    simp only [sameStages]
    exact kept.told
  · rw [sameHash]
    simp only [sameStages]
    exact kept.kept

theorem inLandscape_enter_of_not {activity other : Activity} {stage : Stage}
    {lifecycle : FloatingActivityLifecycle Activity}
    (notNow : stage ≠ .started true)
    (notBefore : ¬InLandscape before activity) :
    InLandscape (before.enter activity stage lifecycle) other ↔
      InLandscape before other := by
  rw [inLandscape_enter notNow]
  exact and_iff_right_of_imp fun isLandscape same =>
    notBefore (same ▸ isLandscape)

theorem kept_started {activity : Activity} {landscape : Bool}
    (kept : Kept hashCode before)
    (isStopped : before.stage activity = .stopped) :
    Kept hashCode (before.enter activity (.started landscape)
      (before.lifecycle.onActivityStarted hashCode activity landscape)) := by
  cases landscape with
  | false =>
      refine kept.congr (fun other => inLandscape_enter_of_not (by simp) ?_)
        rfl rfl
      simp [InLandscape, isStopped]
  | true =>
      have isLandscape : InLandscape (before.enter activity (.started true)
          (before.lifecycle.onActivityStarted hashCode activity true))
          activity := by
        simp [InLandscape, Application.enter]
      exact ⟨iff_of_true rfl ⟨activity, isLandscape⟩,
        fun _ => ⟨activity, isLandscape, rfl⟩⟩

omit [DecidableEq Activity] in
/-- Spec lemma: what a stopped activity has told. -/
theorem told_stopped_iff {activity : Activity} (kept : Kept hashCode before)
    (isStarted : ∃ landscape, before.stage activity = .started landscape) :
    ((before.lifecycle.onActivityStopped hashCode activity).delivered =
        some true ↔
      ∃ other, other ≠ activity ∧ InLandscape before other) ↔
      Exclusive hashCode before (.stopped activity) := by
  rw [FloatingActivityLifecycle.onActivityStopped]
  by_cases isKept : before.lifecycle.currentLandSpaceActivityHash =
      hashCode activity
  · rw [if_pos isKept]
    simp only [Exclusive, Option.some_inj, Bool.false_eq_true, false_iff,
      not_exists, not_and, InLandscape, isKept, isStarted, forall_const]
  · rw [if_neg isKept]
    refine iff_of_true (kept.told.trans ⟨fun exists_ => ?_, ?_⟩)
      (fun _ same => absurd same isKept)
    · obtain ⟨other, isLandscape, isHash⟩ := kept.kept exists_
      refine ⟨other, fun same => isKept ?_, isLandscape⟩
      rw [← isHash, same]
    · rintro ⟨other, _, isLandscape⟩
      exact ⟨other, isLandscape⟩

theorem kept_stopped {activity : Activity} (kept : Kept hashCode before)
    (told : (before.lifecycle.onActivityStopped hashCode
        activity).delivered = some true ↔
      ∃ other, other ≠ activity ∧ InLandscape before other) :
    Kept hashCode (before.enter activity .stopped
      (before.lifecycle.onActivityStopped hashCode activity)) := by
  have stages (other : Activity) : InLandscape (before.enter activity .stopped
      (before.lifecycle.onActivityStopped hashCode activity)) other ↔
        other ≠ activity ∧ InLandscape before other :=
    inLandscape_enter (by simp)
  refine ⟨?_, fun exists_ => ?_⟩
  · simp only [stages]
    exact told
  · simp only [stages] at exists_ ⊢
    have delivered := told.mpr exists_
    rw [FloatingActivityLifecycle.onActivityStopped] at delivered ⊢
    split at delivered
    · cases delivered
    · next notKept =>
        obtain ⟨_, _, isOther⟩ := exists_
        obtain ⟨other, isLandscape, isHash⟩ := kept.kept ⟨_, isOther⟩
        refine ⟨other, ⟨fun same => notKept ?_, isLandscape⟩, ?_⟩
        · rw [← isHash, same]
        · rw [if_neg notKept]
          exact isHash

/-- Step lemma: a callback leaves the right value exactly when it does not
take a landscape back that another activity has. -/
theorem told_step_iff (kept : Kept hashCode before)
    (stepped : (application hashCode).step before callback = some next) :
    ((next.lifecycle.delivered = some true ↔
        ∃ activity, InLandscape next activity) ↔
      Exclusive hashCode before callback) ∧
      (Exclusive hashCode before callback → Kept hashCode next) := by
  have both (keptNext : Kept hashCode next)
      (exclusive : Exclusive hashCode before callback) :
      ((next.lifecycle.delivered = some true ↔
        ∃ activity, InLandscape next activity) ↔
      Exclusive hashCode before callback) ∧
      (Exclusive hashCode before callback → Kept hashCode next) :=
    ⟨iff_of_true keptNext.told exclusive, fun _ => keptNext⟩
  cases callback with
  | created activity =>
      obtain ⟨unborn, isNext⟩ := Option.ite_none_right_eq_some.mp stepped
      refine both ?_ trivial
      rw [← Option.some_inj.mp isNext]
      refine kept.congr (fun other => ?_) rfl rfl
      have entered : InLandscape (before.enter activity .stopped
          (before.lifecycle.onActivityCreated activity)) other ↔
            InLandscape before other :=
        inLandscape_enter_of_not (by simp) (by simp [InLandscape, unborn])
      exact entered
  | started activity landscape =>
      obtain ⟨isStopped, isNext⟩ := Option.ite_none_right_eq_some.mp stepped
      refine both ?_ trivial
      rw [← Option.some_inj.mp isNext]
      exact kept_started kept isStopped
  | stopped activity =>
      simp only [application] at stepped
      split at stepped
      · next landscape isStarted =>
          rw [← Option.some_inj.mp stepped]
          have told := told_stopped_iff kept ⟨landscape, isStarted⟩
          refine ⟨?_, fun exclusive =>
            kept_stopped kept (told.mpr exclusive)⟩
          simp only [inLandscape_enter (show Stage.stopped ≠ .started true by
            simp)]
          exact told
      · cases stepped
  | destroyed activity =>
      obtain ⟨isStopped, isNext⟩ := Option.ite_none_right_eq_some.mp stepped
      refine both ?_ trivial
      rw [← Option.some_inj.mp isNext]
      refine kept.congr (fun other => ?_) rfl rfl
      exact inLandscape_enter_of_not (by simp)
        (by simp [InLandscape, isStopped])

theorem exclusive_of_none
    (impossible : (application hashCode).step before callback = none) :
    Exclusive hashCode before callback := by
  cases callback with
  | stopped activity =>
      rintro ⟨landscape, isStarted⟩
      simp [application, isStarted] at impossible
  | _ => trivial

end Landscape

/-! ## Any history -/

/-- The listener and the list are right behind every callback exactly when no
activity takes back, by its hash code, the landscape of another. -/
theorem tracks_iff_exclusive (hashCode : Activity → Int)
    (history : List (Callback Activity)) :
    (application hashCode).Along ((application hashCode).Leads Tracks)
        history ↔
      (application hashCode).Along (Exclusive hashCode) history := by
  refine Guarded.along_leads_iff (fun before =>
    Lists before ∧ Kept hashCode before) ⟨?_, ?_⟩ ?_ ?_ ?_
  · refine ⟨rfl, List.nodup_nil, fun activity => ?_⟩
    simp [application]
  · constructor
    · simp [application, InLandscape]
    · rintro ⟨activity, isLandscape⟩
      cases isLandscape
  · rintro before callback next ⟨lists, kept⟩ exclusive stepped
    exact ⟨lists_step lists stepped,
      (told_step_iff kept stepped).2 exclusive⟩
  · rintro before callback next ⟨lists, kept⟩ stepped
    rw [← (told_step_iff kept stepped).1]
    exact ⟨fun tracks => tracks.landscape,
      fun told => ⟨told, (lists_step lists stepped).activities⟩⟩
  · exact fun before callback => exclusive_of_none

/-- A landscape activity stops that covered another one. -/
theorem coveringActivity_not_tracked :
    ¬(application fun activity : Bool => activity.toNat + 1).Along
      ((application fun activity : Bool => activity.toNat + 1).Leads Tracks)
      [.created false, .started false true, .created true,
        .started true true, .stopped true] := by
  intro along
  have leads := along [.created false, .started false true, .created true,
    .started true true] (.stopped true) [] _ rfl rfl
  have told := (leads _ rfl).landscape
  have delivered := told.mpr ⟨false, rfl⟩
  revert delivered
  decide

end DripStone.FloatingWindow
