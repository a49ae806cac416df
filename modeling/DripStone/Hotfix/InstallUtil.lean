import DripStone.Library.Action

/-!
# `InstallUtil`

A patch is installed by reflection: the elements made of its files are put in
front of those of the class loader.  The exceptions that were suppressed while
the elements were made are looked at afterwards.
-/

namespace DripStone.Hotfix

open DripStone.Library
open DripStone.Library.Action

inductive Failure where
  | noSuchFieldException
  | noSuchMethodException
  | invocationTargetException
  | nullPointerException
  | ioException (message : String)
deriving DecidableEq, Repr

/-! ## Reflection -/

structure Method where
  name : String
  parameterTypes : List String
deriving DecidableEq, Repr

/-- What a class declares itself. -/
structure JavaClass where
  fields : List String
  methods : List Method

/-- The class of an instance and its superclasses. -/
abbrev ClassChain := List JavaClass

/-- `findField`: the first class that declares the field. -/
def findField : ClassChain → String → Except Failure JavaClass
  | [], _ => .error .noSuchFieldException
  | clazz :: superclasses, name =>
      if name ∈ clazz.fields then .ok clazz else findField superclasses name

/-- `findMethod` -/
def findMethod : ClassChain → Method → Except Failure JavaClass
  | [], _ => .error .noSuchMethodException
  | clazz :: superclasses, method =>
      if method ∈ clazz.methods then .ok clazz
      else findMethod superclasses method

theorem findField_eq_ok_iff {chain : ClassChain} {name : String} :
    (∃ clazz, findField chain name = .ok clazz) ↔
      ∃ clazz ∈ chain, name ∈ clazz.fields := by
  induction chain with
  | nil => simp [findField]
  | cons clazz superclasses inductionHypothesis =>
      rw [findField]
      split
      · next declares => simp [declares]
      · next inherits => simp [inherits, inductionHypothesis]

theorem findMethod_eq_ok_iff {chain : ClassChain} {method : Method} :
    (∃ clazz, findMethod chain method = .ok clazz) ↔
      ∃ clazz ∈ chain, method ∈ clazz.methods := by
  induction chain with
  | nil => simp [findMethod]
  | cons clazz superclasses inductionHypothesis =>
      rw [findMethod]
      split
      · next declares => simp [declares]
      · next inherits => simp [inherits, inductionHypothesis]

/-! ## The class loader -/

/-- The classes of a loader and of its `pathList`. -/
structure Loader where
  loaderClass : ClassChain
  pathListClass : ClassChain

section Install

variable {Element : Type}

/-- The `pathList` of a class loader. -/
structure DexPathList (Element : Type) where
  dexElements : List (Option Element)

/-- How the method that makes the elements ends: with an array, which may be
null, and the exceptions it has added to the list, or by throwing. -/
inductive Made (Element : Type) where
  | returned (objects : Option (List (Option Element)))
      (suppressedExceptions : List String)
  | threw

/-- `System.arraycopy` of a whole array. -/
def arraycopy (src dest : List (Option Element)) (destPos : Nat) :
    List (Option Element) :=
  dest.take destPos ++ src ++ dest.drop (destPos + src.length)

/-- `expandFieldArray`, for the field `dexElements`. -/
def expandFieldArray (chain : ClassChain)
    (fixs : Option (List (Option Element))) :
    Action Failure (DexPathList Element) Unit := do
  let _ ← Action.ofExcept (findField chain "dexElements")
  let pathList ← get
  let old := pathList.dexElements
  match fixs with
  | none => throw .nullPointerException
  | some fixs =>
      let newElements := List.replicate (old.length + fixs.length) none
      let newElements := arraycopy fixs newElements 0
      let newElements := arraycopy old newElements fixs.length
      set (⟨newElements⟩ : DexPathList Element)

/-- `makePathElements` and `makeDexElements` of the tool. -/
def makeElements (chain : ClassChain) (method : Method)
    (make : Made Element) :
    Except Failure (Option (List (Option Element)) × List String) :=
  match findMethod chain method with
  | .error failure => .error failure
  | .ok _ =>
      match make with
      | .threw => .error .invocationTargetException
      | .returned objects suppressedExceptions =>
          .ok (objects, suppressedExceptions)

/-- The loop over the suppressed exceptions throws the first. -/
def throwSuppressed :
    List String → Action Failure (DexPathList Element) Unit
  | [] => pure ()
  | e :: _ => throw (.ioException e)

/-- `install` of `V23` and `V19`, with the method that each calls. -/
def installBy (method : Method) (loader : Loader)
    (make : List String → String → Made Element)
    (additionalClassPathEntries : List String)
    (optimizedDirectory : String) :
    Action Failure (DexPathList Element) Unit := do
  let _ ← Action.ofExcept (findField loader.loaderClass "pathList")
  let made ← Action.ofExcept (makeElements loader.pathListClass method
    (make additionalClassPathEntries optimizedDirectory))
  expandFieldArray loader.pathListClass made.1
  throwSuppressed made.2

def V23.makePathElements : Method :=
  ⟨"makePathElements", ["List", "File", "List"]⟩

def V23.install (loader : Loader) (make : List String → String → Made Element)
    (additionalClassPathEntries : List String)
    (optimizedDirectory : String) :
    Action Failure (DexPathList Element) Unit :=
  installBy V23.makePathElements loader make additionalClassPathEntries
    optimizedDirectory

def V19.makeDexElements : Method :=
  ⟨"makeDexElements", ["ArrayList", "File", "ArrayList"]⟩

def V19.install (loader : Loader) (make : List String → String → Made Element)
    (additionalClassPathEntries : List String)
    (optimizedDirectory : String) :
    Action Failure (DexPathList Element) Unit :=
  installBy V19.makeDexElements loader make additionalClassPathEntries
    optimizedDirectory

/-! ## The law and the condition -/

/-- An installation returns with the elements of the patch in front, or throws
and leaves the elements as they were. -/
structure Atomic (made : Made Element)
    (install : Action Failure (DexPathList Element) Unit)
    (pathList : DexPathList Element) : Prop where
  returns : ∀ left, install pathList = .ok () left →
    ∃ objects suppressedExceptions,
      made = .returned (some objects) suppressedExceptions ∧
      left.dexElements = objects ++ pathList.dexElements
  throws : ∀ failure left, install pathList = .error failure left →
    left.dexElements = pathList.dexElements

/-- The classes have what is looked for. -/
structure Loader.Supports (loader : Loader) (method : Method) : Prop where
  pathList : ∃ clazz ∈ loader.loaderClass, "pathList" ∈ clazz.fields
  dexElements : ∃ clazz ∈ loader.pathListClass, "dexElements" ∈ clazz.fields
  method : ∃ clazz ∈ loader.pathListClass, method ∈ clazz.methods

/-- An array with elements comes without suppressed exceptions. -/
def Made.Clean : Made Element → Prop
  | .returned (some objects) suppressedExceptions =>
      objects = [] ∨ suppressedExceptions = []
  | _ => True

/-! ## One installation -/

theorem arraycopy_both (fixs old : List (Option Element)) :
    arraycopy old
        (arraycopy fixs (List.replicate (old.length + fixs.length) none) 0)
        fixs.length = fixs ++ old := by
  simp [arraycopy]

/-- Spec lemma: the field is set to both arrays, the new one in front. -/
theorem expandFieldArray_of_field {chain : ClassChain}
    (declared : ∃ clazz ∈ chain, "dexElements" ∈ clazz.fields)
    (fixs : Option (List (Option Element))) (pathList : DexPathList Element) :
    expandFieldArray chain fixs pathList =
      match fixs with
      | none => .error .nullPointerException pathList
      | some fixs => .ok () ⟨fixs ++ pathList.dexElements⟩ := by
  obtain ⟨clazz, found⟩ := findField_eq_ok_iff.mpr declared
  rw [expandFieldArray, found, Action.ofExcept_ok_bind, get_bind]
  cases fixs with
  | none => rfl
  | some fixs =>
      show EStateM.Result.ok () (DexPathList.mk _) = _
      rw [arraycopy_both]

/-- What an installation does where the classes have what is looked for. -/
theorem installBy_of_supports {method : Method} {loader : Loader}
    (supports : loader.Supports method)
    (make : List String → String → Made Element) (files : List String)
    (optimizedDirectory : String) (pathList : DexPathList Element) :
    installBy method loader make files optimizedDirectory pathList =
      match make files optimizedDirectory with
      | .threw => .error .invocationTargetException pathList
      | .returned none _ => .error .nullPointerException pathList
      | .returned (some objects) [] =>
          .ok () ⟨objects ++ pathList.dexElements⟩
      | .returned (some objects) (e :: _) =>
          .error (.ioException e) ⟨objects ++ pathList.dexElements⟩ := by
  obtain ⟨loaderClass, foundList⟩ := findField_eq_ok_iff.mpr supports.pathList
  obtain ⟨listClass, foundMethod⟩ := findMethod_eq_ok_iff.mpr supports.method
  rw [installBy, foundList, Action.ofExcept_ok_bind]
  simp only [makeElements, foundMethod]
  cases make files optimizedDirectory with
  | threw => rfl
  | returned objects suppressedExceptions =>
      rw [Action.ofExcept_ok_bind]
      have expanded := expandFieldArray_of_field supports.dexElements objects
        pathList
      cases objects with
      | none => exact bind_of_error expanded
      | some objects =>
          rw [bind_of_ok expanded]
          cases suppressedExceptions with
          | nil => rfl
          | cons e rest => rfl

/-- Where something is missing nothing is changed. -/
theorem installBy_of_not_supports {method : Method} {loader : Loader}
    (lacks : ¬loader.Supports method)
    (make : List String → String → Made Element) (files : List String)
    (optimizedDirectory : String) (pathList : DexPathList Element) :
    ∃ failure, installBy method loader make files optimizedDirectory
      pathList = .error failure pathList := by
  rw [installBy]
  cases foundList : findField loader.loaderClass "pathList" with
  | error failure => exact ⟨failure, rfl⟩
  | ok loaderClass =>
      rw [Action.ofExcept_ok_bind]
      simp only [makeElements]
      cases foundMethod : findMethod loader.pathListClass method with
      | error failure => exact ⟨failure, rfl⟩
      | ok listClass =>
          simp only
          cases make files optimizedDirectory with
          | threw => exact ⟨_, rfl⟩
          | returned objects suppressedExceptions =>
              rw [Action.ofExcept_ok_bind]
              cases foundField : findField loader.pathListClass
                  "dexElements" with
              | error failure =>
                  refine ⟨failure, bind_of_error ?_⟩
                  rw [expandFieldArray, foundField]
                  rfl
              | ok fieldClass =>
                  exact absurd
                    ⟨findField_eq_ok_iff.mp ⟨_, foundList⟩,
                      findField_eq_ok_iff.mp ⟨_, foundField⟩,
                      findMethod_eq_ok_iff.mp ⟨_, foundMethod⟩⟩ lacks

theorem atomic_of_unchanged {made : Made Element}
    {install : Action Failure (DexPathList Element) Unit}
    {pathList : DexPathList Element} {failure : Failure}
    (threw : install pathList = .error failure pathList) :
    Atomic made install pathList where
  returns := by
    intro left returned
    rw [threw] at returned
    cases returned
  throws := by
    intro other left threwOther
    rw [threw] at threwOther
    cases threwOther
    rfl

/-- An installation that throws a suppressed exception has changed the
elements, unless there are no new ones. -/
theorem atomic_of_suppressed_iff {made : Made Element}
    {install : Action Failure (DexPathList Element) Unit}
    {pathList : DexPathList Element} {failure : Failure}
    {objects : List (Option Element)}
    (threw : install pathList =
      .error failure ⟨objects ++ pathList.dexElements⟩) :
    Atomic made install pathList ↔ objects = [] := by
  constructor
  · intro atomic
    exact List.append_left_eq_self.mp (atomic.throws _ _ threw)
  · intro nothing
    rw [nothing] at threw
    exact atomic_of_unchanged threw

theorem installBy_atomic_iff (method : Method) (loader : Loader)
    (make : List String → String → Made Element) (files : List String)
    (optimizedDirectory : String) (pathList : DexPathList Element) :
    Atomic (make files optimizedDirectory)
        (installBy method loader make files optimizedDirectory) pathList ↔
      (loader.Supports method → (make files optimizedDirectory).Clean) := by
  by_cases supports : loader.Supports method
  · have installed := installBy_of_supports supports make files
      optimizedDirectory pathList
    rw [imp_iff_right supports]
    cases made : make files optimizedDirectory with
    | threw =>
        rw [made] at installed
        exact iff_of_true (atomic_of_unchanged installed) trivial
    | returned objects suppressedExceptions =>
        rw [made] at installed
        cases objects with
        | none => exact iff_of_true (atomic_of_unchanged installed) trivial
        | some objects =>
            cases suppressedExceptions with
            | nil =>
                refine iff_of_true ⟨fun left returned => ?_,
                  fun failure left threw => ?_⟩ (Or.inr rfl)
                · rw [installed] at returned
                  cases returned
                  exact ⟨objects, [], rfl, rfl⟩
                · rw [installed] at threw
                  cases threw
            | cons e rest =>
                rw [atomic_of_suppressed_iff installed]
                simp [Made.Clean]
  · obtain ⟨failure, threw⟩ := installBy_of_not_supports supports make files
      optimizedDirectory pathList
    exact iff_of_true (atomic_of_unchanged threw)
      fun has => absurd has supports

end Install

/-- Both installers are atomic exactly if no suppressed exception comes with
new elements, wherever the classes have what is looked for. -/
theorem install_atomic_iff {Element : Type} (loader : Loader)
    (make : List String → String → Made Element)
    (additionalClassPathEntries : List String) (optimizedDirectory : String)
    (pathList : DexPathList Element) :
    let made := make additionalClassPathEntries optimizedDirectory
    (Atomic made
        (V23.install loader make additionalClassPathEntries
          optimizedDirectory) pathList ↔
      (loader.Supports V23.makePathElements → made.Clean)) ∧
    (Atomic made
        (V19.install loader make additionalClassPathEntries
          optimizedDirectory) pathList ↔
      (loader.Supports V19.makeDexElements → made.Clean)) :=
  ⟨installBy_atomic_iff _ loader make additionalClassPathEntries
      optimizedDirectory pathList,
    installBy_atomic_iff _ loader make additionalClassPathEntries
      optimizedDirectory pathList⟩

/-- A loader that both versions support. -/
def bothVersions : Loader where
  loaderClass := [⟨[], []⟩, ⟨["pathList"], []⟩]
  pathListClass :=
    [⟨["dexElements"], [V23.makePathElements, V19.makeDexElements]⟩]

/-- Of two patch files one is read and one is not. -/
def oneOfTwo : List String → String → Made Nat :=
  fun _ _ => .returned (some [some 1]) ["broken.dex"]

/-- The exception is thrown with the first file installed. -/
theorem half_installed :
    ¬Atomic (oneOfTwo [] "")
        (V23.install bothVersions oneOfTwo ["patch.dex", "broken.dex"] "odex")
        ⟨[some 0]⟩ ∧
      ¬Atomic (oneOfTwo [] "")
        (V19.install bothVersions oneOfTwo ["patch.dex", "broken.dex"] "odex")
        ⟨[some 0]⟩ := by
  constructor
  · intro atomic
    have unchanged := atomic.throws (.ioException "broken.dex") _ rfl
    exact absurd unchanged (by decide)
  · intro atomic
    have unchanged := atomic.throws (.ioException "broken.dex") _ rfl
    exact absurd unchanged (by decide)

end DripStone.Hotfix
