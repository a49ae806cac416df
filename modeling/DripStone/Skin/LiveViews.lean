import DripStone.Skin.Overlaying

/-!
# Views of live activities

Whatever happens in a process, the views that the observers recorded look as
if they were inflated with the skin that is in use.
-/

namespace DripStone.Skin

open DripStone.Library
open DripStone.Library.Action

variable {Drawable ColorStateList : Type}

/-! ## The manager -/

namespace SkinManager

variable {device : Device Drawable}
variable {manager : SkinManager Drawable ColorStateList}

/-- What holds of every factory, observer or not. -/
def Sound (device : Device Drawable)
    (manager : SkinManager Drawable ColorStateList) : Prop :=
  ∀ factory ∈ manager.factories, ∀ skinView ∈ factory.mSkinViews,
    skinView.Recorded device

/-- The views of a factory and the bars of its activity show the skin. -/
structure UpToDate (device : Device Drawable)
    (manager : SkinManager Drawable ColorStateList) (factory : Nat) :
    Prop where
  views : ∀ owner, manager.factories[factory]? = some owner →
    ∀ skinView ∈ owner.mSkinViews,
      skinView.Shows device manager.skinResources
  bars : ∀ owner, manager.factories[factory]? = some owner →
    updateStatusBarColor manager.skinResources (device.theme owner.activity)
        (manager.windows owner.activity) =
      manager.windows owner.activity

theorem updateStatusBarColor_idem
    (skinResources : SkinResources Drawable ColorStateList) (theme : Theme)
    (window : Window) :
    updateStatusBarColor skinResources theme
        (updateStatusBarColor skinResources theme window) =
      updateStatusBarColor skinResources theme window := by
  rw [updateStatusBarColor, Window.mk.injEq]
  constructor
  · by_cases named : theme.statusBarColor ≠ 0
    · rw [if_pos named, updateStatusBarColor, if_pos named]
    · rw [if_neg named]
      by_cases dark : theme.colorPrimaryDark ≠ 0
      · rw [if_pos dark, updateStatusBarColor, if_neg named, if_pos dark]
      · rw [if_neg dark]
  · by_cases named : theme.navigationBarColor ≠ 0
    · rw [if_pos named, updateStatusBarColor, if_pos named]
    · rw [if_neg named]

/-- Bars that show the skin do so after any update of bars with it. -/
theorem bars_update {windows : Nat → Window} (activity : Nat)
    {other : Nat}
    (bars : updateStatusBarColor manager.skinResources (device.theme other)
      (windows other) = windows other) :
    updateStatusBarColor manager.skinResources (device.theme other)
        (Function.update windows activity
          (updateStatusBarColor manager.skinResources (device.theme activity)
            (windows activity)) other) =
      Function.update windows activity
        (updateStatusBarColor manager.skinResources (device.theme activity)
          (windows activity)) other := by
  by_cases same : other = activity
  · rw [same, Function.update_self, updateStatusBarColor_idem]
  · rw [Function.update_of_ne same, bars]

theorem bars_update_self {windows : Nat → Window} (activity : Nat) :
    updateStatusBarColor manager.skinResources (device.theme activity)
        (Function.update windows activity
          (updateStatusBarColor manager.skinResources (device.theme activity)
            (windows activity)) activity) =
      Function.update windows activity
        (updateStatusBarColor manager.skinResources (device.theme activity)
          (windows activity)) activity := by
  rw [Function.update_self, updateStatusBarColor_idem]

/-- The activities of the factories. -/
def activities (manager : SkinManager Drawable ColorStateList) : List Nat :=
  manager.factories.map SkinLayoutInflaterFactory.activity

/-- What telling the observers does not change. -/
structure Keeps (manager left : SkinManager Drawable ColorStateList) :
    Prop where
  preference : left.preference = manager.preference
  skinResources : left.skinResources = manager.skinResources
  packages : left.packages = manager.packages
  observers : left.observers = manager.observers
  registered :
    left.mLayoutInflaterFactories = manager.mLayoutInflaterFactories
  activities : left.activities = manager.activities

theorem Keeps.refl (manager : SkinManager Drawable ColorStateList) :
    Keeps manager manager :=
  ⟨rfl, rfl, rfl, rfl, rfl, rfl⟩

theorem Keeps.trans {first second third : SkinManager Drawable ColorStateList}
    (before : Keeps first second) (after : Keeps second third) :
    Keeps first third where
  preference := after.preference.trans before.preference
  skinResources := after.skinResources.trans before.skinResources
  packages := after.packages.trans before.packages
  observers := after.observers.trans before.observers
  registered := after.registered.trans before.registered
  activities := after.activities.trans before.activities

/-- A factory replaced by one for the same activity. -/
theorem map_activity_set
    {factories : List (SkinLayoutInflaterFactory Drawable ColorStateList)}
    {factory : Nat}
    {owner left : SkinLayoutInflaterFactory Drawable ColorStateList}
    (isOwner : factories[factory]? = some owner)
    (same : left.activity = owner.activity) :
    (factories.set factory left).map SkinLayoutInflaterFactory.activity =
      factories.map SkinLayoutInflaterFactory.activity := by
  have isActivity :
      (factories.map SkinLayoutInflaterFactory.activity)[factory]? =
        some left.activity := by
    rw [List.getElem?_map, isOwner, same]
    rfl
  rw [List.map_set]
  apply List.ext_getElem?
  intro place
  rw [List.getElem?_set]
  by_cases here : factory = place
  · rw [if_pos here, ← here, isActivity]
    have short := (List.getElem?_eq_some_iff.mp isActivity).1
    rw [if_pos short]
  · rw [if_neg here]

/-- What an update does: it returns, keeps what is up to date and brings its
own factory up to date. -/
structure Updated (device : Device Drawable)
    (manager left : SkinManager Drawable ColorStateList) (factory : Nat) :
    Prop where
  sound : left.Sound device
  kept : Keeps manager left
  own : left.UpToDate device factory
  others : ∀ other, manager.UpToDate device other → left.UpToDate device other

theorem Sound.update_ok (sound : manager.Sound device) (factory : Nat) :
    ∃ left, manager.update device factory = .ok left ∧
      Updated device manager left factory := by
  rw [update]
  cases found : manager.factories[factory]? with
  | none =>
      refine ⟨manager, rfl, sound, Keeps.refl manager, ⟨?_, ?_⟩,
        fun _ upToDate => upToDate⟩
      · intro owner isOwner
        rw [found] at isOwner
        cases isOwner
      · intro owner isOwner
        rw [found] at isOwner
        cases isOwner
  | some observer =>
      have inFactories := List.mem_of_getElem? found
      obtain ⟨mSkinViews, applied, shown⟩ := mapM_applySkin_ok
        (sound observer inFactories) manager.skinResources
      have short : factory < manager.factories.length :=
        (List.getElem?_eq_some_iff.mp found).1
      simp only [applied]
      refine ⟨_, rfl, ?_, ⟨rfl, rfl, rfl, rfl, rfl,
        map_activity_set found rfl⟩, ⟨?_, ?_⟩, ?_⟩
      · intro owner inOwners skinView inViews
        rcases List.mem_or_eq_of_mem_set inOwners with isOld | rfl
        · exact sound owner isOld skinView inViews
        · exact (shown skinView inViews).1
      · intro owner isOwner skinView inViews
        rw [List.getElem?_set_self short] at isOwner
        obtain rfl := Option.some.inj isOwner
        exact (shown skinView inViews).2
      · intro owner isOwner
        rw [List.getElem?_set_self short] at isOwner
        obtain rfl := Option.some.inj isOwner
        simp only [Function.update_self, updateStatusBarColor_idem]
      · intro other upToDate
        constructor
        · intro owner isOwner skinView inViews
          by_cases same : factory = other
          · subst same
            rw [List.getElem?_set_self short] at isOwner
            obtain rfl := Option.some.inj isOwner
            exact (shown skinView inViews).2
          · rw [List.getElem?_set_ne same] at isOwner
            exact upToDate.views owner isOwner skinView inViews
        · intro owner isOwner
          by_cases same : factory = other
          · subst same
            rw [List.getElem?_set_self short] at isOwner
            obtain rfl := Option.some.inj isOwner
            exact bars_update observer.activity (upToDate.bars observer found)
          · rw [List.getElem?_set_ne same] at isOwner
            exact bars_update observer.activity (upToDate.bars owner isOwner)

/-- What notifying some factories does. -/
theorem Sound.foldlM_update (sound : manager.Sound device)
    (factories : List Nat) :
    ∃ left, factories.foldlM (update device) manager = .ok left ∧
      left.Sound device ∧ Keeps manager left ∧
      (∀ factory ∈ factories, left.UpToDate device factory) ∧
      ∀ other, manager.UpToDate device other →
        left.UpToDate device other := by
  induction factories generalizing manager with
  | nil =>
      refine ⟨manager, rfl, sound, Keeps.refl manager, ?_,
        fun _ upToDate => upToDate⟩
      intro factory inNil
      cases inNil
  | cons factory rest inductionHypothesis =>
      obtain ⟨middle, returned, updated⟩ := sound.update_ok factory
      obtain ⟨left, further, atLeft, kept, brought, others⟩ :=
        inductionHypothesis updated.sound
      refine ⟨left, ?_, atLeft, updated.kept.trans kept, ?_, ?_⟩
      · rw [List.foldlM_cons, returned]
        exact further
      · intro other inFactories
        rcases List.mem_cons.mp inFactories with rfl | inRest
        · exact others other updated.own
        · exact brought other inRest
      · intro other upToDate
        exact others other (updated.others other upToDate)

/-- What holds of a manager at any time. -/
structure Live (device : Device Drawable)
    (manager : SkinManager Drawable ColorStateList) : Prop where
  sound : manager.Sound device
  upToDate : ∀ factory ∈ manager.observers, manager.UpToDate device factory


theorem choose_cons (manager : SkinManager Drawable ColorStateList)
    (first : Char) (rest : Text) :
    manager.choose (some (first :: rest)) =
      manager.useSkin (first :: rest) := rfl

theorem choose_kept (manager : SkinManager Drawable ColorStateList)
    (skinPath : Option Text) :
    (manager.choose skinPath).factories = manager.factories ∧
      (manager.choose skinPath).observers = manager.observers ∧
      (manager.choose skinPath).packages = manager.packages ∧
      (manager.choose skinPath).mLayoutInflaterFactories =
        manager.mLayoutInflaterFactories := by
  rcases skinPath with _ | _ | ⟨first, rest⟩
  · exact ⟨rfl, rfl, rfl, rfl⟩
  · exact ⟨rfl, rfl, rfl, rfl⟩
  · rw [choose_cons, useSkin]
    cases manager.packages (first :: rest) with
    | none => exact ⟨rfl, rfl, rfl, rfl⟩
    | some package => exact ⟨rfl, rfl, rfl, rfl⟩

/-- A skin is loaded without an exception, whatever is recorded, and all
observers show it. -/
theorem Sound.loadSkin_ok (sound : manager.Sound device)
    (skinPath : Option Text) :
    ∃ left, manager.loadSkin device skinPath = .ok left ∧
      left.Live device ∧ Keeps (manager.choose skinPath) left := by
  obtain ⟨factories, _⟩ := manager.choose_kept skinPath
  have soundChosen : (manager.choose skinPath).Sound device := by
    intro factory inFactories
    rw [factories] at inFactories
    exact sound factory inFactories
  obtain ⟨left, returned, atLeft, kept, brought, _⟩ :=
    soundChosen.foldlM_update (manager.choose skinPath).observers.reverse
  refine ⟨left, returned, ⟨atLeft, ?_⟩, kept⟩
  intro factory isObserver
  apply brought
  rw [List.mem_reverse, ← kept.observers]
  exact isObserver

/-! ## One event -/

theorem Live.onActivityCreated (live : manager.Live device)
    (activity : Nat) (hooked : Bool) :
    (manager.onActivityCreated device activity hooked).Live device := by
  have colored : ∀ factory, manager.UpToDate device factory →
      ∀ owner, manager.factories[factory]? = some owner →
        updateStatusBarColor manager.skinResources
            (device.theme owner.activity)
            (Function.update manager.windows activity
              (updateStatusBarColor manager.skinResources
                (device.theme activity) (manager.windows activity))
              owner.activity) =
          Function.update manager.windows activity
            (updateStatusBarColor manager.skinResources
              (device.theme activity) (manager.windows activity))
            owner.activity :=
    fun factory upToDate owner isOwner =>
      bars_update activity (upToDate.bars owner isOwner)
  cases hooked with
  | false =>
      refine ⟨live.sound, fun factory isObserver => ?_⟩
      have before := live.upToDate factory isObserver
      exact ⟨before.views, colored factory before⟩
  | true =>
      constructor
      · intro factory inFactories
        rcases List.mem_append.mp inFactories with isOld | isNew
        · exact live.sound factory isOld
        · rw [List.mem_singleton.mp isNew]
          intro skinView inNil
          cases inNil
      · intro factory isObserver
        -- the factory just made has no views yet
        have isFresh : ∀ owner,
            (manager.factories ++ [⟨activity, []⟩])[factory]? = some owner →
              manager.factories[factory]? = some owner ∨
                factory = manager.factories.length ∧
                  owner = ⟨activity, []⟩ := by
          intro owner isOwner
          rcases Nat.lt_or_ge factory manager.factories.length with
            isOld | beyond
          · rw [List.getElem?_append_left isOld] at isOwner
            exact Or.inl isOwner
          · rw [List.getElem?_append_right beyond] at isOwner
            obtain ⟨short, isSole⟩ := List.getElem?_eq_some_iff.mp isOwner
            have here : factory - manager.factories.length = 0 := by
              simpa using short
            refine Or.inr ⟨by omega, ?_⟩
            rw [← isSole]
            simp [here]
        have known : factory = manager.factories.length ∨
            manager.UpToDate device factory := by
          rcases List.mem_append.mp isObserver with isOld | isNew
          · exact Or.inr (live.upToDate factory isOld)
          · exact Or.inl (List.mem_singleton.mp isNew)
        have beyondNone : ∀ owner, factory = manager.factories.length →
            manager.factories[factory]? ≠ some owner := by
          rintro owner rfl isOwner
          rw [List.getElem?_eq_none le_rfl] at isOwner
          cases isOwner
        constructor
        · intro owner isOwner
          rcases isFresh owner isOwner with isOld | ⟨_, rfl⟩
          · rcases known with isNew | upToDate
            · exact absurd isOld (beyondNone owner isNew)
            · exact upToDate.views owner isOld
          · intro skinView inNil
            cases inNil
        · intro owner isOwner
          rcases isFresh owner isOwner with isOld | ⟨_, rfl⟩
          · rcases known with isNew | upToDate
            · exact absurd isOld (beyondNone owner isNew)
            · exact colored factory upToDate owner isOld
          · exact bars_update_self activity

/-- A view is recorded as the current skin shows it. -/
theorem mem_onCreateView
    {owner left : SkinLayoutInflaterFactory Drawable ColorStateList}
    {skinResources : SkinResources Drawable ColorStateList}
    {constructors : Constructors Drawable ColorStateList}
    {getResId : Int → Int} {name : Text} {attrs : List (Text × Text)}
    (returned : owner.onCreateView device skinResources constructors getResId
      name attrs = .ok left) :
    left.activity = owner.activity ∧
      ∀ skinView ∈ left.mSkinViews, skinView ∈ owner.mSkinViews ∨
        skinView.Recorded device ∧ skinView.Shows device skinResources := by
  rw [SkinLayoutInflaterFactory.onCreateView] at returned
  cases created : createView constructors name with
  | none =>
      rw [created] at returned
      cases returned
      exact ⟨rfl, fun skinView inViews => Or.inl inViews⟩
  | some view =>
      rw [created] at returned
      simp only [lookAt] at returned
      cases looked : look getResId attrs with
      | error failure =>
          rw [looked] at returned
          cases returned
      | ok mSkinPars =>
          simp only [looked, bind, Except.bind] at returned
          by_cases some : mSkinPars ≠ [] ∨
              view.viewClass.isSkinViewSupport = true
          · rw [if_pos some] at returned
            simp only [SkinView.applySkin, Bool.false_eq_true,
              ↓reduceIte] at returned
            cases applied : Skin.applySkin device.colorDrawable
                device.colorPrimary skinResources view.viewClass mSkinPars
                view.attributes with
            | error failure middle =>
                rw [applied] at returned
                cases returned
            | ok value attributes =>
                rw [applied] at returned
                cases returned
                refine ⟨rfl, fun skinView inViews => ?_⟩
                rcases List.mem_append.mp inViews with isOld | isNew
                · exact Or.inl isOld
                · rw [List.mem_singleton.mp isNew]
                  exact Or.inr ⟨⟨fits_of_applySkin applied, skinResources,
                    applied⟩, fun _ => applied⟩
          · rw [if_neg some] at returned
            cases returned
            exact ⟨rfl, fun skinView inViews => Or.inl inViews⟩

/-- A factory replaced by one for the same activity whose views are recorded
and shown. -/
theorem Live.set (live : manager.Live device) {factory : Nat}
    {owner left : SkinLayoutInflaterFactory Drawable ColorStateList}
    (isOwner : manager.factories[factory]? = some owner)
    (same : left.activity = owner.activity)
    (recorded : ∀ skinView ∈ left.mSkinViews, skinView.Recorded device)
    (shown : manager.UpToDate device factory → ∀ skinView ∈ left.mSkinViews,
      skinView.Shows device manager.skinResources) :
    ({ manager with
      factories := manager.factories.set factory left } :
        SkinManager Drawable ColorStateList).Live device := by
  have short : factory < manager.factories.length :=
    (List.getElem?_eq_some_iff.mp isOwner).1
  constructor
  · intro other inOthers
    rcases List.mem_or_eq_of_mem_set inOthers with isOld | rfl
    · exact live.sound other isOld
    · exact recorded
  · intro other isObserver
    have before := live.upToDate other isObserver
    by_cases here : factory = other
    · subst here
      constructor
      · intro found isFound
        rw [List.getElem?_set_self short] at isFound
        obtain rfl := Option.some.inj isFound
        exact shown before
      · intro found isFound
        rw [List.getElem?_set_self short] at isFound
        obtain rfl := Option.some.inj isFound
        rw [same]
        exact before.bars owner isOwner
    · constructor
      · intro found isFound
        rw [List.getElem?_set_ne here] at isFound
        exact before.views found isFound
      · intro found isFound
        rw [List.getElem?_set_ne here] at isFound
        exact before.bars found isFound

theorem Live.collect (live : manager.Live device) (factory index : Nat) :
    (manager.collect factory index).Live device := by
  rw [SkinManager.collect]
  cases found : manager.factories[factory]? with
  | none =>
      have beyond := List.getElem?_eq_none_iff.mp found
      rw [List.modify_eq_self beyond]
      exact live
  | some owner =>
      have marked : ∀ skinView ∈ (owner.collect index).mSkinViews,
          ∃ before ∈ owner.mSkinViews,
            skinView = before ∨ skinView = before.collect := by
        intro skinView inViews
        obtain ⟨place, isPlace⟩ := List.mem_iff_getElem?.mp inViews
        rw [SkinLayoutInflaterFactory.collect,
          List.getElem?_modify] at isPlace
        obtain ⟨before, isBefore, isAfter⟩ :=
          Option.map_eq_some_iff.mp isPlace
        refine ⟨before, List.mem_of_getElem? isBefore, ?_⟩
        by_cases here : index = place
        · rw [if_pos here] at isAfter
          exact Or.inr isAfter.symm
        · rw [if_neg here] at isAfter
          exact Or.inl isAfter.symm
      have inFactories := List.mem_of_getElem? found
      rw [List.modify_eq_set_getElem?, found]
      refine @Live.set _ _ _ _ live _ _ (owner.collect index) found rfl ?_ ?_
      · intro skinView inViews
        obtain ⟨before, inOwner, rfl | rfl⟩ := marked skinView inViews
        · exact live.sound owner inFactories _ inOwner
        · have recorded := live.sound owner inFactories before inOwner
          exact ⟨recorded.fits, recorded.applied⟩
      · intro upToDate skinView inViews
        obtain ⟨before, inOwner, rfl | rfl⟩ := marked skinView inViews
        · exact upToDate.views owner found _ inOwner
        · intro alive
          cases alive

/-- Every event that does not end the app keeps the views up to date. -/
theorem Live.step (live : manager.Live device)
    {event : Event Drawable ColorStateList}
    {next : SkinManager Drawable ColorStateList}
    (stepped : manager.step device event = .ok next) : next.Live device := by
  cases event with
  | onActivityCreated activity hooked =>
      cases stepped
      exact live.onActivityCreated activity hooked
  | onCreateView factory constructors getResId name attrs =>
      simp only [SkinManager.step] at stepped
      cases found : manager.factories[factory]? with
      | none =>
          rw [found] at stepped
          cases stepped
          exact live
      | some owner =>
          rw [found] at stepped
          cases created : owner.onCreateView device manager.skinResources
              constructors getResId name attrs with
          | error failure =>
              simp only [created] at stepped
              cases stepped
          | ok left =>
              simp only [created] at stepped
              cases stepped
              obtain ⟨same, views⟩ := mem_onCreateView created
              have inFactories := List.mem_of_getElem? found
              apply live.set found same
              · intro skinView inViews
                rcases views skinView inViews with isOld | isNew
                · exact live.sound owner inFactories skinView isOld
                · exact isNew.1
              · intro upToDate skinView inViews
                rcases views skinView inViews with isOld | isNew
                · exact upToDate.views owner found skinView isOld
                · exact isNew.2
  | collect factory index =>
      cases stepped
      exact live.collect factory index
  | onActivityDestroyed activity =>
      cases stepped
      refine ⟨live.sound, fun factory isObserver => ?_⟩
      have wasObserver : factory ∈ manager.observers := by
        simp only [onActivityDestroyed] at isObserver
        split at isObserver
        · exact isObserver
        · exact List.mem_of_mem_erase isObserver
      have before := live.upToDate factory wasObserver
      exact ⟨before.views, before.bars⟩
  | replacePackages packages =>
      cases stepped
      refine ⟨live.sound, fun factory isObserver => ?_⟩
      have before := live.upToDate factory isObserver
      exact ⟨before.views, before.bars⟩
  | loadSkin skinPath =>
      obtain ⟨left, returned, isLive, _⟩ := live.sound.loadSkin_ok skinPath
      have same : left = next := Except.ok.inj (returned.symm.trans stepped)
      exact same ▸ isLive

/-! ## Who is told -/

/-- The factory of an activity that was hooked, and not destroyed since,
observes the manager. -/
def Registered (manager : SkinManager Drawable ColorStateList) : Prop :=
  ∀ activity factory,
    manager.mLayoutInflaterFactories activity = some factory →
      factory ∈ manager.observers ∧
        manager.activities[factory]? = some activity

theorem Registered.of_keeps {left : SkinManager Drawable ColorStateList}
    (registered : manager.Registered) (kept : Keeps manager left) :
    left.Registered := by
  intro activity factory isRegistered
  rw [kept.registered] at isRegistered
  rw [kept.observers, kept.activities]
  exact registered activity factory isRegistered

theorem Registered.step (registered : manager.Registered)
    (sound : manager.Sound device) {event : Event Drawable ColorStateList}
    {next : SkinManager Drawable ColorStateList}
    (stepped : manager.step device event = .ok next) : next.Registered := by
  cases event with
  | onActivityCreated activity hooked =>
      cases stepped
      cases hooked with
      | false => exact registered
      | true =>
          intro other factory isRegistered
          have isEither : Function.update manager.mLayoutInflaterFactories
              activity (some manager.factories.length) other =
                some factory := isRegistered
          have grown : (manager.onActivityCreated device activity
              true).activities = manager.activities ++ [activity] :=
            List.map_append
          show factory ∈ manager.observers ++ [manager.factories.length] ∧ _
          rw [grown]
          have length : manager.activities.length =
              manager.factories.length := List.length_map _
          by_cases same : other = activity
          · rw [same, Function.update_self] at isEither
            obtain rfl := Option.some.inj isEither
            refine ⟨by simp, ?_⟩
            rw [← length, List.getElem?_append_right le_rfl, same]
            simp
          · rw [Function.update_of_ne same] at isEither
            obtain ⟨isObserver, isOwner⟩ := registered other factory isEither
            refine ⟨List.mem_append_left _ isObserver, ?_⟩
            rw [List.getElem?_append_left]
            · exact isOwner
            · exact (List.getElem?_eq_some_iff.mp isOwner).1
  | onCreateView factory constructors getResId name attrs =>
      simp only [SkinManager.step] at stepped
      cases found : manager.factories[factory]? with
      | none =>
          rw [found] at stepped
          cases stepped
          exact registered
      | some owner =>
          rw [found] at stepped
          cases created : owner.onCreateView device manager.skinResources
              constructors getResId name attrs with
          | error failure =>
              simp only [created] at stepped
              cases stepped
          | ok left =>
              simp only [created] at stepped
              cases stepped
              exact registered.of_keeps ⟨rfl, rfl, rfl, rfl, rfl,
                map_activity_set found (mem_onCreateView created).1⟩
  | collect factory index =>
      cases stepped
      apply registered.of_keeps
      refine ⟨rfl, rfl, rfl, rfl, rfl, ?_⟩
      rw [activities, SkinManager.collect]
      cases found : manager.factories[factory]? with
      | none =>
          rw [List.modify_eq_self (List.getElem?_eq_none_iff.mp found)]
          rfl
      | some owner =>
          rw [List.modify_eq_set_getElem?, found]
          exact map_activity_set found rfl
  | onActivityDestroyed activity =>
      cases stepped
      intro other factory isRegistered
      have isEither : Function.update manager.mLayoutInflaterFactories
          activity none other = some factory := isRegistered
      have different : other ≠ activity := by
        rintro rfl
        rw [Function.update_self] at isEither
        cases isEither
      rw [Function.update_of_ne different] at isEither
      obtain ⟨isObserver, isOwner⟩ := registered other factory isEither
      refine ⟨?_, isOwner⟩
      simp only [onActivityDestroyed]
      cases found : manager.mLayoutInflaterFactories activity with
      | none => exact isObserver
      | some gone =>
          -- the factory that goes belongs to another activity
          have apart : factory ≠ gone := by
            rintro rfl
            have isGone := (registered activity factory found).2
            rw [isOwner] at isGone
            exact different (Option.some.inj isGone)
          exact (List.mem_erase_of_ne apart).mpr isObserver
  | replacePackages packages =>
      cases stepped
      exact registered
  | loadSkin skinPath =>
      obtain ⟨left, returned, _, kept⟩ := sound.loadSkin_ok skinPath
      obtain rfl := Except.ok.inj (returned.symm.trans stepped)
      have chosen : (manager.choose skinPath).Registered := by
        obtain ⟨factories, observers, _, same⟩ :=
          manager.choose_kept skinPath
        intro activity factory isRegistered
        rw [same] at isRegistered
        rw [observers, activities, factories]
        exact registered activity factory isRegistered
      exact chosen.of_keeps kept

/-- All that the activities show is in the skin that is in use. -/
def Displays (device : Device Drawable)
    (manager : SkinManager Drawable ColorStateList) : Prop :=
  ∀ activity factory,
    manager.mLayoutInflaterFactories activity = some factory →
      ∃ owner, manager.factories[factory]? = some owner ∧
        (∀ skinView ∈ owner.mSkinViews,
          skinView.Shows device manager.skinResources) ∧
        updateStatusBarColor manager.skinResources (device.theme activity)
            (manager.windows activity) =
          manager.windows activity

theorem Live.displays (live : manager.Live device)
    (registered : manager.Registered) : manager.Displays device := by
  intro activity factory isRegistered
  obtain ⟨isObserver, isActivity⟩ :=
    registered activity factory isRegistered
  rw [activities, List.getElem?_map] at isActivity
  obtain ⟨owner, isOwner, rfl⟩ := Option.map_eq_some_iff.mp isActivity
  have upToDate := live.upToDate factory isObserver
  exact ⟨owner, isOwner, upToDate.views owner isOwner,
    upToDate.bars owner isOwner⟩

end SkinManager

end DripStone.Skin
