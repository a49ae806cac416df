import DripStone.Hotfix.InstallUtil
import DripStone.Library.Paths

/-!
# `HotfixHelper`

A patch is installed in one of two ways.  Up to Android 6 the elements made of
its files are put in front of those of the class loader.  From Android 7 on the
loader is replaced by one with a class path of its own, in which the dex files
of the application follow those of the patch.  A class is then found in the
newest patch that has it, and both ways agree as long as every file lies under
the name of the package and can still be read when a later patch is installed.

How the system reads files is left to `Device`.
-/

namespace DripStone.Hotfix

open DripStone.Library

/-- An element of `dexElements`, with the name of its `dexFile`. -/
structure DexElement where
  dexFile : Option Text

namespace DexPathList

/-- The names of the dex files, in the order of the elements. -/
def dexPaths (pathList : DexPathList DexElement) : List Text :=
  pathList.dexElements.filterMap fun element =>
    element.bind DexElement.dexFile

/-- `findClass`: the first element that defines the class. -/
def findClass {Class : Type} (defines : Text → String → Option Class)
    (pathList : DexPathList DexElement) (name : String) : Option Class :=
  pathList.dexElements.findSome? fun element =>
    (element.bind DexElement.dexFile).bind fun path => defines path name

end DexPathList

/-! ## The system -/

/-- The system while a patch is installed: the element that it makes of a file,
if that is there and can be opened, the methods that the installers look for,
and the elements of a new `PathClassLoader`. -/
structure Device where
  elementOf : Text → Option DexElement
  make : Method → List String → String → Made DexElement
  pathClassLoader : Text → List (Option DexElement)

/-- Whether a file gives an element with its dex file. -/
def Device.opens (device : Device) (path : Text) : Bool :=
  (device.elementOf path).bind DexElement.dexFile = some path

/-! ## `ClassLoaderInjector` -/

/-- The `StringBuilder` of a path, and `isFirstItem`. -/
structure PathBuilder where
  isFirstItem : Bool
  text : Text

/-- A path, with `File.pathSeparator` in front of it. -/
def PathBuilder.append (builder : PathBuilder) (path : Text) : PathBuilder :=
  if builder.isFirstItem then ⟨false, builder.text ++ path⟩
  else ⟨false, builder.text ++ ':' :: path⟩

def inPackage (packageName path : Text) : Bool :=
  '/' :: packageName <:+: path

/-- The body of the loop over the old elements; on null it throws. -/
def appendElement (packageName : Text) (builder : PathBuilder) :
    Option DexElement → Option PathBuilder
  | none => none
  | some ⟨none⟩ => some builder
  | some ⟨some dexPath⟩ =>
      if dexPath.isEmpty then some builder
      else if ¬inPackage packageName dexPath then some builder
      else some (builder.append dexPath)

/-- `combinedDexPath`; the first element is asked for its class. -/
def combinedDexPath (packageName : Text)
    (oldDexElements : List (Option DexElement)) (patchs : List Text) :
    Option Text :=
  match oldDexElements with
  | some _ :: _ =>
      (oldDexElements.foldlM (appendElement packageName)
        (patchs.foldl PathBuilder.append ⟨true, []⟩)).map PathBuilder.text
  | _ => none

/-- `inject`: the application has a loader with a path list of its own.  What
is thrown is caught by the caller and leaves the old one. -/
def inject (packageName : Text) (device : Device)
    (pathList : DexPathList DexElement) (patchs : List Text) :
    DexPathList DexElement :=
  match combinedDexPath packageName pathList.dexElements patchs with
  | some dexPath => ⟨device.pathClassLoader dexPath⟩
  | none => pathList

/-! ## `HotfixHelper` -/

def V14.makeDexElements : Method :=
  ⟨"makeDexElements", ["ArrayList", "File"]⟩

/-- `V14.install`, for which no exception is suppressed. -/
def V14.install {Element : Type} (loader : Loader)
    (make : List String → String → Made Element)
    (additionalClassPathEntries : List String)
    (optimizedDirectory : String) :
    Action Failure (DexPathList Element) Unit :=
  installBy V14.makeDexElements loader make additionalClassPathEntries
    optimizedDirectory

/-- What an installation finds in its application: the classes of the class
loader, and two files. -/
structure Application where
  packageName : Text
  loader : Loader
  -- what `initHack` returns
  hackFile : Text
  cacheDir : String

structure Patch where
  path : Text
  present : Bool
deriving DecidableEq, Repr

/-- A call of `installPatch`, with the system as it is then. -/
structure Installation where
  patch : Patch
  device : Device

namespace Application

def files (application : Application) (patch : Patch) : List Text :=
  (if patch.present then [patch.path] else []) ++ [application.hackFile]

/-- The method that a version of Android before the seventh has. -/
def methodOf (sdkInt : Nat) : Method :=
  if 23 ≤ sdkInt then V23.makePathElements
  else if 19 ≤ sdkInt then V19.makeDexElements
  else V14.makeDexElements

def installPatch (application : Application) (sdkInt : Nat)
    (pathList : DexPathList DexElement) (installation : Installation) :
    DexPathList DexElement :=
  let files := application.files installation.patch
  let device := installation.device
  if 24 ≤ sdkInt then inject application.packageName device pathList files
  else
    let entries := files.map String.ofList
    -- what an installer throws is caught
    if 23 ≤ sdkInt then
      (V23.install application.loader
        (device.make V23.makePathElements) entries
        application.cacheDir).after pathList
    else if 19 ≤ sdkInt then
      (V19.install application.loader
        (device.make V19.makeDexElements) entries
        application.cacheDir).after pathList
    else
      (V14.install application.loader
        (device.make V14.makeDexElements) entries
        application.cacheDir).after pathList

/-- One patch after the other. -/
def installAll (application : Application) (sdkInt : Nat)
    (pathList : DexPathList DexElement) (history : List Installation) :
    DexPathList DexElement :=
  history.foldl (application.installPatch sdkInt) pathList

end Application

/-! ## The class path as text -/

section Text

variable {packageName : Text} {builder : PathBuilder} {text : Text}

theorem foldl_append_of_some (paths : List Text) :
    paths.foldl PathBuilder.append ⟨false, text⟩ =
      ⟨false, text ++ paths.flatMap (':' :: ·)⟩ := by
  induction paths generalizing text with
  | nil => simp
  | cons path paths inductionHypothesis =>
      rw [List.foldl_cons, PathBuilder.append, if_neg (by simp),
        inductionHypothesis]
      simp

theorem intercalate_cons_eq (path : Text) (paths : List Text) :
    [':'].intercalate (path :: paths) =
      path ++ paths.flatMap (':' :: ·) := by
  induction paths generalizing path with
  | nil => simp
  | cons next rest inductionHypothesis =>
      rw [List.intercalate_cons_cons, inductionHypothesis]
      simp

/-- The builder joins the paths. -/
theorem foldl_append_text (paths : List Text) :
    (paths.foldl PathBuilder.append ⟨true, []⟩).text =
      [':'].intercalate paths := by
  cases paths with
  | nil => rfl
  | cons path paths =>
      rw [List.foldl_cons, PathBuilder.append, if_pos rfl,
        foldl_append_of_some, intercalate_cons_eq]
      rfl

/-- No element is null. -/
def Whole (elements : List (Option DexElement)) : Prop :=
  ∀ element ∈ elements, element.isSome

/-- The loop over the old elements appends the paths in the package. -/
theorem foldlM_appendElement {elements : List (Option DexElement)}
    (whole : Whole elements) :
    elements.foldlM (appendElement packageName) builder =
      some (((elements.filterMap fun element =>
          element.bind DexElement.dexFile).filter
        (inPackage packageName)).foldl PathBuilder.append builder) := by
  induction elements generalizing builder with
  | nil => rfl
  | cons element elements inductionHypothesis =>
      have further := fun {next : PathBuilder} =>
        @inductionHypothesis next
          fun other inRest => whole other (List.mem_cons_of_mem _ inRest)
      rw [List.foldlM_cons]
      match element with
      | none => exact absurd (whole none List.mem_cons_self) (by simp)
      | some ⟨none⟩ => exact further
      | some ⟨some dexPath⟩ =>
          by_cases isIn : inPackage packageName dexPath = true
          · have nonempty : dexPath.isEmpty = false := by
              cases dexPath with
              | nil => simp [inPackage] at isIn
              | cons letter rest => rfl
            simp [appendElement, nonempty, isIn, further]
          · have skipped :
                appendElement packageName builder (some ⟨some dexPath⟩) =
                  some builder := by
              simp [appendElement, isIn]
            simp [skipped, isIn, further]

end Text

/-! ## One installation -/

section Installation

variable {application : Application} {sdkInt : Nat} {device : Device}
variable {pathList : DexPathList DexElement} {patch : Patch}

/-- There are elements, none is null, and no path has a separator in it. -/
structure Intact (pathList : DexPathList DexElement) : Prop where
  nonempty : pathList.dexElements ≠ []
  whole : Whole pathList.dexElements
  single : ∀ path ∈ pathList.dexPaths, ':' ∉ path

/-- The system makes the elements of the files that can be opened, in their
order: before Android 7 by the method that is looked for, whatever it
suppresses, and from then on in a `PathClassLoader`.  The file `hack.jar` of the
application is one of them. -/
structure Application.Supported (application : Application) (sdkInt : Nat)
    (device : Device) : Prop where
  dexFile : ∀ path element name, device.elementOf path = some element →
    element.dexFile = some name → name = path
  hackFile : (device.elementOf application.hackFile).isSome
  declared : sdkInt < 24 → application.loader.Supports (methodOf sdkInt)
  makes : sdkInt < 24 → ∀ files : List Text, ∃ suppressedExceptions,
    device.make (methodOf sdkInt) (files.map String.ofList)
        application.cacheDir =
      .returned (some ((files.filterMap device.elementOf).map some))
        suppressedExceptions
  loads : 24 ≤ sdkInt → ∀ paths : List Text, paths ≠ [] →
    (∀ path ∈ paths, ':' ∉ path) →
      device.pathClassLoader ([':'].intercalate paths) =
        (paths.filterMap device.elementOf).map some

/-- The paths that stay on the class path when a patch is installed. -/
def Application.keeps (application : Application) (sdkInt : Nat)
    (device : Device) (path : Text) : Bool :=
  sdkInt < 24 ||
    inPackage application.packageName path && device.opens path

theorem findClass_eq {Class : Type} (defines : Text → String → Option Class)
    (pathList : DexPathList DexElement) (name : String) :
    pathList.findClass defines name =
      pathList.dexPaths.findSome? fun path => defines path name := by
  rw [DexPathList.findClass, DexPathList.dexPaths]
  induction pathList.dexElements with
  | nil => rfl
  | cons element elements inductionHypothesis =>
      rw [List.findSome?_cons, List.filterMap_cons, inductionHypothesis]
      cases element.bind DexElement.dexFile with
      | none => rfl
      | some path => rfl

/-- The dex files of the elements made of files are those that open. -/
theorem dexPaths_made (supported : application.Supported sdkInt device)
    (files : List Text) (elements : List (Option DexElement)) :
    (⟨(files.filterMap device.elementOf).map some ++ elements⟩ :
        DexPathList DexElement).dexPaths =
      files.filter device.opens ++
        (⟨elements⟩ : DexPathList DexElement).dexPaths := by
  rw [DexPathList.dexPaths, List.filterMap_append, DexPathList.dexPaths]
  apply congrArg (· ++ _)
  rw [List.filterMap_map, List.filterMap_filterMap, ← List.filterMap_eq_filter]
  refine List.filterMap_congr fun path _ => ?_
  cases made : device.elementOf path with
  | none => simp [Device.opens, made, Option.guard]
  | some element =>
      cases file : element.dexFile with
      | none => simp [Device.opens, made, file, Option.guard]
      | some name =>
          obtain rfl := supported.dexFile path element name made file
          simp [Device.opens, made, file, Option.guard]

theorem whole_made (elements : List DexElement) :
    Whole (elements.map some) := by
  intro element inElements
  obtain ⟨made, _, rfl⟩ := List.mem_map.mp inElements
  rfl

theorem Application.hackFile_mem_files (application : Application)
    (patch : Patch) : application.hackFile ∈ application.files patch :=
  List.mem_append_right _ (List.mem_singleton_self _)

/-- With `hack.jar` among the paths there is an element. -/
theorem made_ne_nil (supported : application.Supported sdkInt device)
    {paths : List Text} (hack : application.hackFile ∈ paths) :
    (paths.filterMap device.elementOf).map some ≠ [] := by
  obtain ⟨element, made⟩ := Option.isSome_iff_exists.mp supported.hackFile
  have inMade : element ∈ paths.filterMap device.elementOf :=
    List.mem_filterMap.mpr ⟨_, hack, made⟩
  exact List.ne_nil_of_mem (List.mem_map_of_mem inMade)

/-- Spec lemma of `inject`. -/
theorem inject_eq (new : 24 ≤ sdkInt)
    (supported : application.Supported sdkInt device)
    (intact : Intact pathList) {files : List Text} (some_ : files ≠ [])
    (single : ∀ file ∈ files, ':' ∉ file) :
    inject application.packageName device pathList files =
      ⟨((files ++ pathList.dexPaths.filter
        (inPackage application.packageName)).filterMap
          device.elementOf).map some⟩ := by
  have joined : combinedDexPath application.packageName pathList.dexElements
      files = some ([':'].intercalate (files ++ pathList.dexPaths.filter
        (inPackage application.packageName))) := by
    have appended := @foldlM_appendElement application.packageName
      (files.foldl PathBuilder.append ⟨true, []⟩) _ intact.whole
    rw [← foldl_append_text, List.foldl_append]
    match first : pathList.dexElements with
    | [] => exact absurd first intact.nonempty
    | none :: rest =>
        have isSome := intact.whole none (by simp [first])
        cases isSome
    | some element :: rest =>
        rw [combinedDexPath, ← first, appended]
        rfl
  rw [inject, joined]
  apply congrArg DexPathList.mk
  apply supported.loads new
  · exact List.append_ne_nil_of_left_ne_nil some_ _
  · intro path inPaths
    rcases List.mem_append.mp inPaths with inFiles | isOld
    · exact single path inFiles
    · exact intact.single path (List.mem_of_mem_filter isOld)

/-- Spec lemma of the installers before Android 7: also if an exception was
suppressed the elements are there. -/
theorem after_installBy (old : sdkInt < 24)
    (supported : application.Supported sdkInt device) (files : List Text) :
    (installBy (Application.methodOf sdkInt) application.loader
      (device.make (Application.methodOf sdkInt))
      (files.map String.ofList) application.cacheDir).after pathList =
      ⟨(files.filterMap device.elementOf).map some ++
        pathList.dexElements⟩ := by
  have installed := installBy_of_supports (supported.declared old)
    (device.make (Application.methodOf sdkInt))
    (files.map String.ofList) application.cacheDir pathList
  obtain ⟨suppressedExceptions, made⟩ := supported.makes old files
  rw [made] at installed
  cases suppressedExceptions with
  | nil => exact Action.after_of_ok installed
  | cons e rest => exact Action.after_of_error installed

theorem installPatch_of_old (old : sdkInt < 24)
    (supported : application.Supported sdkInt device) :
    application.installPatch sdkInt pathList ⟨patch, device⟩ =
      ⟨((application.files patch).filterMap device.elementOf).map some ++
        pathList.dexElements⟩ := by
  rw [Application.installPatch, if_neg (Nat.not_le.mpr old),
    ← after_installBy old supported, Application.methodOf]
  split
  · rfl
  · split
    · rfl
    · rfl

/-- What an installation makes of the class path. -/
structure Installed (application : Application) (sdkInt : Nat)
    (pathList next : DexPathList DexElement) (installation : Installation) :
    Prop where
  intact : Intact next
  dexPaths : next.dexPaths =
    (application.files installation.patch).filter installation.device.opens ++
      pathList.dexPaths.filter
        (application.keeps sdkInt installation.device)

/-- Spec lemma: before Android 7 the new elements are put in front. -/
theorem installed_of_old (old : sdkInt < 24) (intact : Intact pathList)
    (supported : application.Supported sdkInt device)
    (single : ∀ file ∈ application.files patch, ':' ∉ file) :
    Installed application sdkInt pathList
      (application.installPatch sdkInt pathList ⟨patch, device⟩)
      ⟨patch, device⟩ := by
  have all : pathList.dexPaths.filter (application.keeps sdkInt device) =
      pathList.dexPaths := by
    apply List.filter_eq_self.mpr
    intro path _
    simp [Application.keeps, old]
  rw [installPatch_of_old old supported]
  have paths := dexPaths_made supported (application.files patch)
    pathList.dexElements
  refine ⟨⟨?_, ?_, ?_⟩, by rw [paths, all]⟩
  · apply List.append_ne_nil_of_right_ne_nil
    exact intact.nonempty
  · intro element inElements
    rcases List.mem_append.mp inElements with isNew | isOld
    · exact whole_made _ element isNew
    · exact intact.whole element isOld
  · intro path inPaths
    rw [paths] at inPaths
    rcases List.mem_append.mp inPaths with inFiles | isOld
    · exact single path (List.mem_of_mem_filter inFiles)
    · exact intact.single path isOld

/-- Spec lemma: from Android 7 on all elements are made anew. -/
theorem installed_of_new (new : 24 ≤ sdkInt) (intact : Intact pathList)
    (supported : application.Supported sdkInt device)
    (single : ∀ file ∈ application.files patch, ':' ∉ file) :
    Installed application sdkInt pathList
      (application.installPatch sdkInt pathList ⟨patch, device⟩)
      ⟨patch, device⟩ := by
  have hack := application.hackFile_mem_files patch
  have kept : pathList.dexPaths.filter (application.keeps sdkInt device) =
      (pathList.dexPaths.filter
        (inPackage application.packageName)).filter device.opens := by
    rw [List.filter_filter]
    apply List.filter_congr
    intro path _
    simp [Application.keeps, Nat.not_lt.mpr new, Bool.and_comm]
  rw [Application.installPatch, if_pos new,
    inject_eq new supported intact (List.ne_nil_of_mem hack) single]
  have paths := dexPaths_made supported (application.files patch ++
    pathList.dexPaths.filter (inPackage application.packageName)) []
  rw [List.append_nil, List.filter_append, ← kept] at paths
  refine ⟨⟨?_, whole_made _, ?_⟩, ?_⟩
  · exact made_ne_nil supported (List.mem_append_left _ hack)
  · intro path inPaths
    rw [paths] at inPaths
    rcases List.mem_append.mp inPaths with inFiles | none
    · rcases List.mem_append.mp inFiles with inFiles | isOld
      · exact single path (List.mem_of_mem_filter inFiles)
      · exact intact.single path (List.mem_of_mem_filter isOld)
    · cases none
  · rw [paths]
    exact List.append_nil _

theorem installed (intact : Intact pathList)
    (supported : application.Supported sdkInt device)
    (single : ∀ file ∈ application.files patch, ':' ∉ file) :
    Installed application sdkInt pathList
      (application.installPatch sdkInt pathList ⟨patch, device⟩)
      ⟨patch, device⟩ := by
  rcases Nat.lt_or_ge sdkInt 24 with old | new
  · exact installed_of_old old intact supported single
  · exact installed_of_new new intact supported single

end Installation

/-! ## Histories of installations -/

section Histories

variable {application : Application} {sdkInt : Nat}
variable {pathList : DexPathList DexElement} {history : List Installation}

/-- The class path, patch after patch. -/
def pathsAfter (application : Application) (sdkInt : Nat)
    (paths : List Text) (history : List Installation) : List Text :=
  history.foldl (fun paths installation =>
    (application.files installation.patch).filter installation.device.opens ++
      paths.filter (application.keeps sdkInt installation.device)) paths

theorem installed_all (intact : Intact pathList)
    (supported : ∀ installation ∈ history,
      application.Supported sdkInt installation.device)
    (single : ∀ installation ∈ history,
      ∀ file ∈ application.files installation.patch, ':' ∉ file) :
    (application.installAll sdkInt pathList history).dexPaths =
      pathsAfter application sdkInt pathList.dexPaths history := by
  induction history generalizing pathList with
  | nil => rfl
  | cons installation history inductionHypothesis =>
      have next := installed intact
        (supported installation List.mem_cons_self)
        (single installation List.mem_cons_self)
      have further := inductionHypothesis next.intact
        (fun other inRest => supported other (List.mem_cons_of_mem _ inRest))
        fun other inRest => single other (List.mem_cons_of_mem _ inRest)
      rw [next.dexPaths] at further
      exact further

/-- The files of a history: each can be opened when it is installed and is
kept by the later installations, as are those of the application. -/
structure Lasting (application : Application) (sdkInt : Nat)
    (paths : List Text) (history : List Installation) : Prop where
  single : ∀ installation ∈ history,
    ∀ file ∈ application.files installation.patch, ':' ∉ file
  opens : ∀ installation ∈ history,
    ∀ file ∈ application.files installation.patch,
      installation.device.opens file = true
  keepsOld : ∀ installation ∈ history, ∀ path ∈ paths,
    application.keeps sdkInt installation.device path = true
  keepsNew : history.Pairwise fun earlier later =>
    ∀ file ∈ application.files earlier.patch,
      application.keeps sdkInt later.device file = true

/-- Where every path is kept the files of the newest patch come first. -/
theorem pathsAfter_of_lasting {paths : List Text}
    (lasting : Lasting application sdkInt paths history) :
    pathsAfter application sdkInt paths history =
      history.reverse.flatMap (application.files ·.patch) ++ paths := by
  induction history generalizing paths with
  | nil => rfl
  | cons installation history inductionHypothesis =>
      have opened : (application.files installation.patch).filter
          installation.device.opens = application.files installation.patch :=
        List.filter_eq_self.mpr
          (lasting.opens installation List.mem_cons_self)
      have kept : paths.filter
          (application.keeps sdkInt installation.device) = paths :=
        List.filter_eq_self.mpr
          (lasting.keepsOld installation List.mem_cons_self)
      obtain ⟨keepsFirst, keepsRest⟩ := List.pairwise_cons.mp lasting.keepsNew
      have rest : Lasting application sdkInt
          (application.files installation.patch ++ paths) history := by
        refine ⟨fun other inRest => lasting.single other
            (List.mem_cons_of_mem _ inRest),
          fun other inRest => lasting.opens other
            (List.mem_cons_of_mem _ inRest),
          fun other inRest path inPaths => ?_, keepsRest⟩
        rcases List.mem_append.mp inPaths with inFiles | isOld
        · exact keepsFirst other inRest path inFiles
        · exact lasting.keepsOld other (List.mem_cons_of_mem _ inRest) path
            isOld
      rw [pathsAfter, List.foldl_cons, opened, kept, ← pathsAfter,
        inductionHypothesis rest]
      simp

/-- Both ways of installing find a class in the same place: in the newest
patch that defines it, then in the file `hack.jar` of that patch, and at last
in the application. -/
theorem findClass_installAll {Class : Type}
    (defines : Text → String → Option Class)
    (supported : ∀ installation ∈ history,
      application.Supported sdkInt installation.device)
    (intact : Intact pathList)
    (lasting : Lasting application sdkInt pathList.dexPaths history)
    (name : String) :
    (application.installAll sdkInt pathList history).findClass defines name =
      (history.reverse.flatMap (application.files ·.patch) ++
        pathList.dexPaths).findSome? fun path => defines path name := by
  rw [findClass_eq, installed_all intact supported lasting.single,
    pathsAfter_of_lasting lasting]

/-- An application with the class loader of both versions. -/
def sample : Application where
  packageName := "a.b".toList
  loader := bothVersions
  hackFile := "/data/a.b/hack.jar".toList
  cacheDir := "odex"

/-- The element of a file, if it is there. -/
def elementIn (there : Text → Bool) (path : Text) : Option DexElement :=
  if there path then some ⟨some path⟩ else none

/-- A system on which there are these files. -/
def deviceWith (there : Text → Bool) : Device where
  elementOf := elementIn there
  make := fun _ files _ => .returned
    (some ((files.filterMap fun file => elementIn there file.toList).map some))
    []
  pathClassLoader := fun dexPath =>
    ((dexPath.splitOn ':').filterMap (elementIn there)).map some

theorem supported_deviceWith {there : Text → Bool}
    (hack : there sample.hackFile = true) (new : 23 ≤ sdkInt) :
    sample.Supported sdkInt (deviceWith there) where
  dexFile := by
    intro path element name made file
    obtain ⟨-, same⟩ := Option.ite_none_right_eq_some.mp made
    obtain rfl := Option.some.inj same
    exact (Option.some.inj file).symm
  hackFile := by
    show (elementIn there _).isSome = true
    rw [elementIn, if_pos hack]
    rfl
  declared := by
    intro old
    rw [show sdkInt = 23 by omega]
    exact ⟨by decide, by decide, by decide⟩
  makes := by
    intro _ files
    refine ⟨[], ?_⟩
    simp [deviceWith, List.filterMap_map]
  loads := by
    intro _ paths nonempty single
    show (List.filterMap _ _).map some = _
    rw [List.splitOn_intercalate _ single nonempty]
    rfl

/-- A class path with one file. -/
def baseApk : DexPathList DexElement :=
  ⟨[some ⟨some "/app/a.b/base.apk".toList⟩]⟩

theorem intact_baseApk : Intact baseApk where
  nonempty := List.cons_ne_nil _ _
  whole := by
    intro element inElements
    rw [List.mem_singleton.mp inElements]
    rfl
  single := by decide

def firstPatch : Installation :=
  ⟨⟨"/sdcard/a.b/1.jar".toList, true⟩, deviceWith fun _ => true⟩

def secondPatch : Installation :=
  ⟨⟨"/sdcard/a.b/2.jar".toList, true⟩, deviceWith fun _ => true⟩

theorem supported_twoPatchs (new : 23 ≤ sdkInt) :
    ∀ installation ∈ [firstPatch, secondPatch],
      sample.Supported sdkInt installation.device :=
  List.forall_mem_cons.mpr ⟨supported_deviceWith rfl new,
    List.forall_mem_singleton.mpr (supported_deviceWith rfl new)⟩

/-- On Android 6 and on Android 11, where every file defines every class. -/
theorem findClass_twoPatchs :
    ((sample.installAll 23 baseApk [firstPatch, secondPatch]).findClass
        (fun path _ => some path) "C" =
      ([firstPatch, secondPatch].reverse.flatMap (sample.files ·.patch) ++
        baseApk.dexPaths).findSome? fun path => some path) ∧
      (sample.installAll 30 baseApk [firstPatch, secondPatch]).findClass
          (fun path _ => some path) "C" =
        ([firstPatch, secondPatch].reverse.flatMap (sample.files ·.patch) ++
          baseApk.dexPaths).findSome? fun path => some path :=
  ⟨findClass_installAll _ (supported_twoPatchs (by decide)) intact_baseApk
      ⟨by decide, by decide, by decide, by decide⟩ "C",
    findClass_installAll _ (supported_twoPatchs (by decide)) intact_baseApk
      ⟨by decide, by decide, by decide, by decide⟩ "C"⟩

end Histories

end DripStone.Hotfix
