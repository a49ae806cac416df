import DripStone.Skin.Applying

/-!
# `SkinManager`

The manager observes no view itself.  Every activity gets an inflater factory
that records the views it creates, and each factory is an observer that is
told when a skin was loaded.
-/

namespace DripStone.Skin

open DripStone.Library

/-! ## What the manager works with -/

/-- The resources that the theme of an activity names; zero for none. -/
structure Theme where
  statusBarColor : Int
  navigationBarColor : Int
  colorPrimaryDark : Int

/-- The colors of the bars of an activity. -/
structure Window where
  statusBarColor : Int
  navigationBarColor : Int

structure Device (Drawable : Type) where
  colorDrawable : Int → Drawable
  colorPrimary : Int
  theme : Nat → Theme

section Manager

variable (Drawable ColorStateList : Type)

/-- A view that was recorded, as it was constructed and as it is now. -/
structure SkinView where
  view : View Drawable ColorStateList
  attributes : Attributes Drawable ColorStateList
  skinPairs : List SkinPair
  isCollected : Bool

structure SkinLayoutInflaterFactory where
  activity : Nat
  mSkinViews : List (SkinView Drawable ColorStateList)

/-- The skin packages that can be opened, with their package names. -/
abbrev Packages :=
  Text → Option (Resources Drawable ColorStateList × Text)

/-- The manager, the preference, the activities and the factories, which are
numbered as they are created. -/
structure SkinManager where
  preference : Option Text
  skinResources : SkinResources Drawable ColorStateList
  packages : Packages Drawable ColorStateList
  windows : Nat → Window
  factories : List (SkinLayoutInflaterFactory Drawable ColorStateList)
  mLayoutInflaterFactories : Nat → Option Nat
  observers : List Nat

/-- What the constructors of the views make of a tag; a class that cannot be
found or constructed gives nothing. -/
structure Constructors where
  createImageView : View Drawable ColorStateList
  newInstance : Text → Option (View Drawable ColorStateList)

end Manager

variable {Drawable ColorStateList : Type}

/-! ## The bars -/

def updateStatusBarColor
    (skinResources : SkinResources Drawable ColorStateList) (theme : Theme)
    (window : Window) : Window where
  statusBarColor :=
    if theme.statusBarColor ≠ 0 then
      skinResources.getColor theme.statusBarColor
    else if theme.colorPrimaryDark ≠ 0 then
      skinResources.getColor theme.colorPrimaryDark
    else window.statusBarColor
  navigationBarColor :=
    if theme.navigationBarColor ≠ 0 then
      skinResources.getColor theme.navigationBarColor
    else window.navigationBarColor

/-! ## The views -/

def ViewClass.isSkinViewSupport : ViewClass → Bool
  | .skinAppBarLayout | .skinCollapsingToolbarLayout
  | .skinBottomNavigationView | .skinToolbar => true
  | .imageView | .textView | .other => false

def mClassPrefixList : List Text :=
  ["android.widget.".toList, "android.webkit.".toList,
    "android.app.".toList, "android.view.".toList]

/-- `createSDKView` -/
def createSDKView (constructors : Constructors Drawable ColorStateList)
    (name : Text) : Option (View Drawable ColorStateList) :=
  if '.' ∈ name then none
  else if name = "ImageView".toList then some constructors.createImageView
  else mClassPrefixList.findSome? fun classPrefix =>
    constructors.newInstance (classPrefix ++ name)

def createView (constructors : Constructors Drawable ColorStateList)
    (name : Text) : Option (View Drawable ColorStateList) :=
  (createSDKView constructors name).or (constructors.newInstance name)

section Calls

variable (device : Device Drawable)

/-- `SkinView.applySkin` -/
def SkinView.applySkin
    (skinResources : SkinResources Drawable ColorStateList)
    (skinView : SkinView Drawable ColorStateList) :
    Except Failure (SkinView Drawable ColorStateList) :=
  if skinView.isCollected then return skinView
  else
    match Skin.applySkin device.colorDrawable device.colorPrimary
        skinResources skinView.view.viewClass skinView.skinPairs
        skinView.attributes with
    | .ok () attributes => return { skinView with attributes := attributes }
    | .error failure _ => throw failure

/-- `SkinAttribute.look` of a view that was just constructed. -/
def lookAt (skinResources : SkinResources Drawable ColorStateList)
    (getResId : Int → Int) (attrs : List (Text × Text))
    (view : View Drawable ColorStateList)
    (mSkinViews : List (SkinView Drawable ColorStateList)) :
    Except Failure (List (SkinView Drawable ColorStateList)) := do
  let mSkinPars ← look getResId attrs
  if mSkinPars ≠ [] ∨ view.viewClass.isSkinViewSupport then
    let skinView ← SkinView.applySkin device skinResources
      ⟨view, view.attributes, mSkinPars, false⟩
    return mSkinViews ++ [skinView]
  else return mSkinViews

/-- `onCreateView`: the view is recorded, if there is one. -/
def SkinLayoutInflaterFactory.onCreateView
    (factory : SkinLayoutInflaterFactory Drawable ColorStateList)
    (skinResources : SkinResources Drawable ColorStateList)
    (constructors : Constructors Drawable ColorStateList)
    (getResId : Int → Int) (name : Text) (attrs : List (Text × Text)) :
    Except Failure (SkinLayoutInflaterFactory Drawable ColorStateList) :=
  match createView constructors name with
  | none => return factory
  | some view => do
      let mSkinViews ← lookAt device skinResources getResId attrs view
        factory.mSkinViews
      return { factory with mSkinViews := mSkinViews }

namespace SkinManager

/-- `update` of a factory. -/
def update (manager : SkinManager Drawable ColorStateList) (factory : Nat) :
    Except Failure (SkinManager Drawable ColorStateList) :=
  match manager.factories[factory]? with
  | none => return manager
  | some observer => do
      let window := updateStatusBarColor manager.skinResources
        (device.theme observer.activity) (manager.windows observer.activity)
      let mSkinViews ← observer.mSkinViews.mapM
        (SkinView.applySkin device manager.skinResources)
      return { manager with
        windows := Function.update manager.windows observer.activity window
        factories := manager.factories.set factory
          { observer with mSkinViews := mSkinViews } }

/-- `notifyObservers` starts with the last one. -/
def notifyObservers (manager : SkinManager Drawable ColorStateList) :
    Except Failure (SkinManager Drawable ColorStateList) :=
  manager.observers.reverse.foldlM (update device) manager

/-- The skin that a path stands for, if it can be loaded. -/
def useSkin (manager : SkinManager Drawable ColorStateList)
    (skinPath : Text) : SkinManager Drawable ColorStateList :=
  match manager.packages skinPath with
  -- the exception is caught before anything was changed
  | none => manager
  | some (skinResource, packageName) => { manager with
      skinResources := SkinResources.applySkin
        manager.skinResources.mAppResources (some skinResource) packageName
      preference := some skinPath }

/-- The manager with a skin chosen, before anyone is told. -/
def choose (manager : SkinManager Drawable ColorStateList) :
    Option Text → SkinManager Drawable ColorStateList
  | none | some [] => { manager with
      preference := none
      skinResources := ⟨manager.skinResources.mAppResources, none⟩ }
  | some skinPath => manager.useSkin skinPath

def loadSkin (manager : SkinManager Drawable ColorStateList)
    (skinPath : Option Text) :
    Except Failure (SkinManager Drawable ColorStateList) :=
  (manager.choose skinPath).notifyObservers device

/-- The manager of a new process before its first skin is loaded. -/
def bare (preference : Option Text)
    (mAppResources : Resources Drawable ColorStateList)
    (packages : Packages Drawable ColorStateList) (windows : Nat → Window) :
    SkinManager Drawable ColorStateList where
  preference := preference
  skinResources := ⟨mAppResources, none⟩
  packages := packages
  windows := windows
  factories := []
  mLayoutInflaterFactories := fun _ => none
  observers := []

/-- The constructor: the skin of the preference is loaded. -/
def init (preference : Option Text)
    (mAppResources : Resources Drawable ColorStateList)
    (packages : Packages Drawable ColorStateList) (windows : Nat → Window) :
    Except Failure (SkinManager Drawable ColorStateList) :=
  (bare preference mAppResources packages windows).loadSkin device preference

/-! ## The activities -/

/-- `hookAndSetFactory`, unless the reflection fails. -/
def hookAndSetFactory (manager : SkinManager Drawable ColorStateList)
    (activity : Nat) : SkinManager Drawable ColorStateList :=
  { manager with
    factories := manager.factories ++ [⟨activity, []⟩]
    mLayoutInflaterFactories := Function.update
      manager.mLayoutInflaterFactories activity manager.factories.length
    observers := manager.observers ++ [manager.factories.length] }

def onActivityCreated (manager : SkinManager Drawable ColorStateList)
    (activity : Nat) (hooked : Bool) : SkinManager Drawable ColorStateList :=
  let window := updateStatusBarColor manager.skinResources
    (device.theme activity) (manager.windows activity)
  let manager := { manager with
    windows := Function.update manager.windows activity window }
  if hooked then manager.hookAndSetFactory activity else manager

/-- Deleting no observer changes nothing. -/
def onActivityDestroyed (manager : SkinManager Drawable ColorStateList)
    (activity : Nat) : SkinManager Drawable ColorStateList :=
  { manager with
    mLayoutInflaterFactories :=
      Function.update manager.mLayoutInflaterFactories activity none
    observers := match manager.mLayoutInflaterFactories activity with
      | none => manager.observers
      | some observer => manager.observers.erase observer }

end SkinManager

/-! ## Runs -/

/-- What happens to the app. -/
inductive Event (Drawable ColorStateList : Type) where
  | onActivityCreated (activity : Nat) (hooked : Bool)
  | onCreateView (factory : Nat)
      (constructors : Constructors Drawable ColorStateList)
      (getResId : Int → Int) (name : Text) (attrs : List (Text × Text))
  | collect (factory index : Nat)
  | onActivityDestroyed (activity : Nat)
  | replacePackages (packages : Packages Drawable ColorStateList)
  | loadSkin (skinPath : Option Text)

def SkinView.collect (skinView : SkinView Drawable ColorStateList) :
    SkinView Drawable ColorStateList :=
  { skinView with isCollected := true }

def SkinLayoutInflaterFactory.collect
    (factory : SkinLayoutInflaterFactory Drawable ColorStateList)
    (index : Nat) : SkinLayoutInflaterFactory Drawable ColorStateList :=
  { factory with
    mSkinViews := factory.mSkinViews.modify index SkinView.collect }

namespace SkinManager

/-- A view that nothing else refers to is collected. -/
def collect (manager : SkinManager Drawable ColorStateList)
    (factory index : Nat) : SkinManager Drawable ColorStateList :=
  { manager with
    factories := manager.factories.modify factory fun owner =>
      owner.collect index }

/-- One event; an exception ends the app. -/
def step (manager : SkinManager Drawable ColorStateList) :
    Event Drawable ColorStateList →
      Except Failure (SkinManager Drawable ColorStateList)
  | .onActivityCreated activity hooked =>
      return manager.onActivityCreated device activity hooked
  | .onCreateView factory constructors getResId name attrs =>
      match manager.factories[factory]? with
      | none => return manager
      | some owner => do
          let owner ← owner.onCreateView device manager.skinResources
            constructors getResId name attrs
          return { manager with
            factories := manager.factories.set factory owner }
  | .collect factory index => return manager.collect factory index
  | .onActivityDestroyed activity =>
      return manager.onActivityDestroyed activity
  | .replacePackages packages => return { manager with packages := packages }
  | .loadSkin skinPath => manager.loadSkin device skinPath

/-- A process from its start, with what happens in it. -/
def run (preference : Option Text)
    (mAppResources : Resources Drawable ColorStateList)
    (packages : Packages Drawable ColorStateList) (windows : Nat → Window)
    (events : List (Event Drawable ColorStateList)) :
    Except Failure (SkinManager Drawable ColorStateList) := do
  let manager ← init device preference mAppResources packages windows
  events.foldlM (step device) manager

end SkinManager

end Calls

end DripStone.Skin
