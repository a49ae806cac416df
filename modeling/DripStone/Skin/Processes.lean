import DripStone.Skin.LiveViews

/-!
# Processes

A process starts with the skin of the preference and keeps the preference in
step with the skin that is in use, so that the next process starts with that
one.
-/

namespace DripStone.Skin

open DripStone.Library

namespace SkinManager

variable {Drawable ColorStateList : Type}
variable {device : Device Drawable}
variable {manager : SkinManager Drawable ColorStateList}

/-! ## A whole process -/

section Process

variable {preference : Option Text}
variable {mAppResources : Resources Drawable ColorStateList}
variable {packages : Packages Drawable ColorStateList}
variable {windows : Nat → Window}

theorem init_ok (device : Device Drawable) (preference : Option Text)
    (mAppResources : Resources Drawable ColorStateList)
    (packages : Packages Drawable ColorStateList)
    (windows : Nat → Window) :
    ∃ manager, init device preference mAppResources packages windows =
        .ok manager ∧
      manager.Live device ∧
      Keeps ((bare preference mAppResources packages windows).choose
        preference) manager := by
  have sound : (bare preference mAppResources packages windows).Sound
      device := by
    intro factory inNil
    cases inNil
  exact sound.loadSkin_ok preference

theorem run_eq_ok_iff {events : List (Event Drawable ColorStateList)} :
    run device preference mAppResources packages windows events =
        .ok manager ↔
      ∃ first, init device preference mAppResources packages windows =
          .ok first ∧
        events.foldlM (step device) first = .ok manager := by
  rw [run]
  cases init device preference mAppResources packages windows with
  | error failure => simp [bind, Except.bind]
  | ok first => simp [bind, Except.bind]

/-- Run lemma: what every event keeps holds after all of them. -/
theorem invariant_of_foldlM
    {invariant : SkinManager Drawable ColorStateList → Prop}
    {events : List (Event Drawable ColorStateList)}
    (kept : ∀ event ∈ events, ∀ current next, invariant current →
      step device current event = .ok next → invariant next)
    {first last : SkinManager Drawable ColorStateList}
    (initial : invariant first)
    (ran : events.foldlM (step device) first = .ok last) :
    invariant last := by
  induction events generalizing first with
  | nil =>
      cases ran
      exact initial
  | cons event rest inductionHypothesis =>
      rw [List.foldlM_cons] at ran
      cases stepped : step device first event with
      | error failure =>
          rw [stepped] at ran
          cases ran
      | ok next =>
          rw [stepped] at ran
          apply inductionHypothesis _ _ ran
          · intro later inRest
            exact kept later (List.mem_cons_of_mem event inRest)
          · exact kept event List.mem_cons_self first next initial stepped

theorem live_of_run {events : List (Event Drawable ColorStateList)}
    (ran : run device preference mAppResources packages windows events =
      .ok manager) : manager.Live device ∧ manager.Registered := by
  obtain ⟨first, started, further⟩ := run_eq_ok_iff.mp ran
  obtain ⟨manager, isFirst, live, kept⟩ := init_ok device preference
    mAppResources packages windows
  obtain rfl := Except.ok.inj (isFirst.symm.trans started)
  have registered : manager.Registered := by
    intro activity factory isRegistered
    have none := (bare preference mAppResources packages
      windows).choose_kept preference
    rw [kept.registered, none.2.2.2] at isRegistered
    cases isRegistered
  apply @invariant_of_foldlM _ _ device
    (fun manager => manager.Live device ∧ manager.Registered) events _ _ _
    ⟨live, registered⟩ further
  intro event _ current next isCurrent stepped
  exact ⟨isCurrent.1.step stepped,
    isCurrent.2.step isCurrent.1.sound stepped⟩

/-- In any process the views of each activity that is there, unless they were
collected, and its bars show the skin that is in use; and no skin that is
loaded then makes a view throw. -/
theorem views_show_skin {events : List (Event Drawable ColorStateList)}
    (ran : run device preference mAppResources packages windows events =
      .ok manager) :
    manager.Displays device ∧
      ∀ skinPath, ∃ next, manager.loadSkin device skinPath = .ok next ∧
        next.Displays device := by
  have live := live_of_run ran
  refine ⟨live.1.displays live.2, fun skinPath => ?_⟩
  obtain ⟨next, returned, isLive, kept⟩ := live.1.sound.loadSkin_ok skinPath
  have stepped : manager.step device (.loadSkin skinPath) = .ok next :=
    returned
  exact ⟨next, returned,
    isLive.displays (live.2.step live.1.sound stepped)⟩

/-! ## The next process -/

/-- The skin that a preference stands for. -/
def skinOf (mAppResources : Resources Drawable ColorStateList)
    (packages : Packages Drawable ColorStateList) :
    Option Text → SkinResources Drawable ColorStateList
  | none | some [] => ⟨mAppResources, none⟩
  | some skinPath =>
      match packages skinPath with
      | none => ⟨mAppResources, none⟩
      | some (skinResource, packageName) =>
          SkinResources.applySkin mAppResources (some skinResource)
            packageName

/-- The preference names the skin that is in use. -/
structure Remembers (mAppResources : Resources Drawable ColorStateList)
    (packages : Packages Drawable ColorStateList)
    (manager : SkinManager Drawable ColorStateList) : Prop where
  opens : manager.packages = packages
  app : manager.skinResources.mAppResources = mAppResources
  skin : manager.skinResources =
    skinOf mAppResources packages manager.preference
  named : manager.preference ≠ some []

theorem Remembers.of_keeps {left : SkinManager Drawable ColorStateList}
    (remembers : manager.Remembers mAppResources packages)
    (kept : Keeps manager left) : left.Remembers mAppResources packages where
  opens := kept.packages.trans remembers.opens
  app := by rw [kept.skinResources, remembers.app]
  skin := by rw [kept.skinResources, kept.preference, remembers.skin]
  named := by rw [kept.preference]; exact remembers.named

/-- Whatever skin is chosen, the preference names it; a package that cannot be
opened leaves both as they are. -/
theorem Remembers.choose
    (remembers : manager.Remembers mAppResources packages)
    (skinPath : Option Text) :
    (manager.choose skinPath).Remembers mAppResources packages := by
  have default : ({ manager with
      preference := none
      skinResources := ⟨manager.skinResources.mAppResources, none⟩ } :
        SkinManager Drawable ColorStateList).Remembers mAppResources
          packages :=
    ⟨remembers.opens, remembers.app, by rw [remembers.app]; rfl, by simp⟩
  rcases skinPath with _ | _ | ⟨first, rest⟩
  · exact default
  · exact default
  · rw [choose_cons, useSkin]
    cases found : manager.packages (first :: rest) with
    | none => exact remembers
    | some package =>
        refine ⟨remembers.opens, remembers.app, ?_, by simp⟩
        rw [remembers.opens] at found
        simp only [skinOf, found, remembers.app]

theorem Remembers.step (remembers : manager.Remembers mAppResources packages)
    (sound : manager.Sound device) {event : Event Drawable ColorStateList}
    (unchanged : ∀ others, event ≠ .replacePackages others)
    {next : SkinManager Drawable ColorStateList}
    (stepped : manager.step device event = .ok next) :
    next.Remembers mAppResources packages := by
  have same : ∀ left : SkinManager Drawable ColorStateList,
      left.preference = manager.preference →
      left.skinResources = manager.skinResources →
      left.packages = manager.packages →
        left.Remembers mAppResources packages := by
    intro left preference skin others
    refine ⟨others.trans remembers.opens, ?_, ?_, ?_⟩
    · rw [skin, remembers.app]
    · rw [skin, preference, remembers.skin]
    · rw [preference]
      exact remembers.named
  cases event with
  | onActivityCreated activity hooked =>
      cases stepped
      cases hooked with
      | false => exact same _ rfl rfl rfl
      | true => exact same _ rfl rfl rfl
  | onCreateView factory constructors getResId name attrs =>
      simp only [SkinManager.step] at stepped
      cases found : manager.factories[factory]? with
      | none =>
          rw [found] at stepped
          cases stepped
          exact remembers
      | some owner =>
          rw [found] at stepped
          cases created : owner.onCreateView device manager.skinResources
              constructors getResId name attrs with
          | error failure =>
              simp only [created] at stepped
              cases stepped
          | ok left =>
              simp only [created] at stepped
              cases stepped
              exact same _ rfl rfl rfl
  | collect factory index =>
      cases stepped
      exact same _ rfl rfl rfl
  | onActivityDestroyed activity =>
      cases stepped
      exact same _ rfl rfl rfl
  | replacePackages others => exact absurd rfl (unchanged others)
  | loadSkin skinPath =>
      obtain ⟨left, returned, _, kept⟩ := sound.loadSkin_ok skinPath
      obtain rfl := Except.ok.inj (returned.symm.trans stepped)
      exact (remembers.choose skinPath).of_keeps kept

/-- A preference, chosen in a new process. -/
theorem choose_bare (preference : Option Text)
    (mAppResources : Resources Drawable ColorStateList)
    (packages : Packages Drawable ColorStateList)
    (windows : Nat → Window) {chosen : SkinManager Drawable ColorStateList}
    (isChosen : chosen = (bare preference mAppResources packages
      windows).choose preference) :
    chosen.Remembers mAppResources packages ∧
      chosen.skinResources = skinOf mAppResources packages preference ∧
      (preference ≠ some [] → chosen.preference = preference) := by
  rw [isChosen]
  rcases preference with _ | _ | ⟨first, rest⟩
  · exact ⟨⟨rfl, rfl, rfl, by simp [choose]⟩, rfl, fun _ => rfl⟩
  · exact ⟨⟨rfl, rfl, rfl, by simp [choose]⟩, rfl, fun wrong =>
      absurd rfl wrong⟩
  · have skin : skinOf mAppResources packages (some (first :: rest)) =
        match packages (first :: rest) with
        | none => ⟨mAppResources, none⟩
        | some (skinResource, packageName) =>
            SkinResources.applySkin mAppResources (some skinResource)
              packageName := rfl
    have packagesOf : (bare (some (first :: rest)) mAppResources packages
        windows).packages = packages := rfl
    rw [choose_cons, useSkin, packagesOf, skin]
    cases found : packages (first :: rest) with
    | none =>
        rw [found] at skin
        exact ⟨⟨rfl, rfl, skin.symm, by simp [bare]⟩, rfl, fun _ => rfl⟩
    | some package =>
        rw [found] at skin
        exact ⟨⟨rfl, rfl, skin.symm, by simp⟩, rfl, fun _ => rfl⟩

/-- As long as the packages stay, the next process starts with the skin that
this one used last. -/
theorem next_process_same_skin
    {events : List (Event Drawable ColorStateList)}
    (unchanged : ∀ others, Event.replacePackages others ∉ events)
    (ran : run device preference mAppResources packages windows events =
      .ok manager) (nextWindows : Nat → Window) :
    ∃ next, init device manager.preference mAppResources packages
        nextWindows = .ok next ∧
      next.skinResources = manager.skinResources ∧
      next.preference = manager.preference := by
  obtain ⟨first, started, further⟩ := run_eq_ok_iff.mp ran
  obtain ⟨begun, isFirst, live, kept⟩ := init_ok device preference
    mAppResources packages windows
  obtain rfl := Except.ok.inj (isFirst.symm.trans started)
  have atFirst := (choose_bare preference mAppResources packages windows
    rfl).1.of_keeps kept
  obtain ⟨_, remembers⟩ := @invariant_of_foldlM _ _ device
    (fun manager => manager.Live device ∧
      manager.Remembers mAppResources packages) events (by
        intro event inEvents current next isCurrent stepped
        refine ⟨isCurrent.1.step stepped, isCurrent.2.step
          isCurrent.1.sound ?_ stepped⟩
        rintro others rfl
        exact unchanged others inEvents) _ _ ⟨live, atFirst⟩ further
  obtain ⟨next, restarted, _, keptNext⟩ := init_ok device
    manager.preference mAppResources packages nextWindows
  obtain ⟨_, skin, same⟩ := choose_bare manager.preference mAppResources
    packages nextWindows rfl
  refine ⟨next, restarted, ?_, ?_⟩
  · rw [keptNext.skinResources, skin, remembers.skin]
  · rw [keptNext.preference, same remembers.named]

end Process

/-! ## A bar and two skins -/

/-- A bar that sets its own background. -/
def appBar : View Int Int := ⟨.skinAppBarLayout, fun _ => .null⟩

def barDevice : Device Int where
  colorDrawable := id
  colorPrimary := 1
  theme := fun _ => ⟨4, 0, 5⟩

/-- Packages of which one can be opened. -/
def onePackage : Packages Int Int := fun skinPath =>
  if skinPath = "night".toList then some (numbered, "skin".toList) else none

/-- An activity with the bar; then the package, and one that cannot be
opened. -/
def barEvents : List (Event Int Int) :=
  [.onActivityCreated 0 true,
    .onCreateView 0 ⟨⟨.imageView, fun _ => .null⟩, fun _ => some appBar⟩ id
      "skin.SkinAppBarLayout".toList [],
    .loadSkin (some "night".toList),
    .loadSkin (some "day".toList)]

def BarRun (manager : SkinManager Int Int) : Prop :=
  run barDevice none numbered onePackage (fun _ => ⟨0, 0⟩) barEvents =
    .ok manager

theorem exists_barRun : ∃ manager, BarRun manager := by
  have returns : (run barDevice none numbered onePackage (fun _ => ⟨0, 0⟩)
      barEvents).toBool = true := by decide
  cases ran : run barDevice none numbered onePackage (fun _ => ⟨0, 0⟩)
      barEvents with
  | error failure =>
      rw [ran] at returns
      cases returns
  | ok manager => exact ⟨manager, ran⟩

theorem bar_shows_skin : ∃ manager, BarRun manager ∧
    manager.Displays barDevice ∧
    ∀ skinPath, ∃ next, manager.loadSkin barDevice skinPath = .ok next ∧
      next.Displays barDevice := by
  obtain ⟨manager, ran⟩ := exists_barRun
  exact ⟨manager, ran, views_show_skin ran⟩

theorem bar_same_skin : ∃ manager, BarRun manager ∧
    ∃ next, init barDevice manager.preference numbered onePackage
        (fun _ => ⟨0, 0⟩) = .ok next ∧
      next.skinResources = manager.skinResources ∧
      next.preference = manager.preference := by
  obtain ⟨manager, ran⟩ := exists_barRun
  exact ⟨manager, ran,
    next_process_same_skin (by simp [barEvents]) ran fun _ => ⟨0, 0⟩⟩

end SkinManager

end DripStone.Skin
