import DripStone.BaseTransform.Model
import DripStone.Library.Separators

/-!
# The filter of `ClassUtils`

A class is filtered by the name of its file when it comes from a directory,
and by the name of its entry, with the package, when it comes from a jar.
-/

namespace DripStone.BaseTransform

open DripStone.Library

/-! ## Class names -/

/-- An unqualified name of the class file format. -/
def Unqualified (name : Name) : Prop :=
  name ≠ [] ∧ '.' ∉ name ∧ ';' ∉ name ∧ '[' ∉ name ∧ '/' ∉ name

instance (name : Name) : Decidable (Unqualified name) :=
  inferInstanceAs (Decidable (_ ∧ _ ∧ _ ∧ _ ∧ _))

/-- The binary name of a class; an inner class has its outer class in its
simple name, before a `$`. -/
structure ClassName where
  package : List Name
  simpleName : Name
  unqualified : ∀ name ∈ simpleName :: package, Unqualified name

def classExtension : Text :=
  ".class".toList

def resources : Name :=
  "R".toList

def resources2 : Name :=
  "R2".toList

def buildConfig : Name :=
  "BuildConfig".toList

/-- `R`, `R2` or one of their inner classes. -/
def OfResources (simpleName : Name) : Prop :=
  simpleName = resources ∨ simpleName = resources2 ∨
    "R$".toList <+: simpleName ∨ "R2$".toList <+: simpleName

/-- What is meant to be excluded. -/
def Generated (simpleName : Name) : Prop :=
  OfResources simpleName ∨ simpleName = buildConfig

/-- A name in which an inner class of `R` or `R2` is read anywhere. -/
def Marked (name : Name) : Prop :=
  "R$".toList <:+: name ∨ "R2$".toList <:+: name

/-- A name that ends like `R` or `R2`. -/
def EndsLikeResources (simpleName : Name) : Prop :=
  resources <:+ simpleName ∨ resources2 <:+ simpleName

namespace ClassName

variable (className : ClassName)

def fileName : Name :=
  className.simpleName ++ classExtension

/-- The path of the class file in a directory input. -/
def fileIn (directory : Path) : Path :=
  directory ++ className.package ++ [className.fileName]

/-- The name of its entry in a jar. -/
def entryName : Text :=
  textOf (className.package ++ [className.fileName])

/-- The class of this simple name in the default package. -/
def inDefaultPackage : ClassName where
  package := []
  simpleName := className.simpleName
  unqualified := by
    intro name isName
    rw [List.mem_singleton.mp isName]
    exact className.unqualified _ List.mem_cons_self

theorem entryName_inDefaultPackage :
    className.inDefaultPackage.entryName = className.fileName := by
  simp [entryName, inDefaultPackage, fileName, textOf, List.intercalate]

end ClassName

/-- `isLegalClass(file)` -/
def isLegalClassFile (files : FileSystem Bytes) (file : Path) : Bool :=
  (files.fileAt file).isSome && isLegalClass (getName file)

/-! ## What is excluded -/

section Excluded

variable {className : ClassName}

theorem textOf_concat_append (names : List Name) (last extension : Name) :
    textOf (names ++ [last ++ extension]) =
      textOf (names ++ [last]) ++ extension := by
  by_cases none : names = []
  · subst none
    simp [textOf, List.intercalate]
  · rw [textOf_append none, textOf_append none]
    simp

theorem dot_notMem_textOf {names : List Name}
    (unqualified : ∀ name ∈ names, Unqualified name) :
    '.' ∉ textOf names := by
  intro isDot
  by_cases none : names = []
  · rw [none] at isDot
    exact absurd isDot (by decide)
  · obtain ⟨before, after, whole⟩ := List.append_of_mem isDot
    have single : ['.'] <:+: textOf names :=
      ⟨before, after, by simp [whole]⟩
    obtain ⟨name, isName, dotInName⟩ :=
      (isInfix_textOf_iff (by decide) none).mp single
    exact (unqualified name isName).2.1
      (dotInName.subset List.mem_cons_self)

/-- The text of an entry before its only dot. -/
theorem entryName_eq :
    className.entryName =
      textOf (className.package ++ [className.simpleName]) ++
        '.' :: "class".toList :=
  textOf_concat_append className.package className.simpleName classExtension

theorem dot_notMem_qualifiedName :
    '.' ∉ textOf (className.package ++ [className.simpleName]) := by
  refine dot_notMem_textOf fun name isName => className.unqualified name ?_
  rcases List.mem_append.mp isName with inPackage | isSimple
  · exact List.mem_cons_of_mem _ inPackage
  · rw [List.mem_singleton.mp isSimple]
    exact List.mem_cons_self

/-- The last letters of a qualified name are those of the simple name. -/
theorem isSuffix_qualifiedName_iff {part : Text} (unseparated : '/' ∉ part) :
    part <:+ textOf (className.package ++ [className.simpleName]) ↔
      part <:+ className.simpleName := by
  by_cases none : className.package = []
  · rw [none]
    simp [textOf, List.intercalate]
  · rw [textOf_append none, isSuffix_append_cons_iff unseparated]

/-- A marking is found in a segment of the package or in the simple name. -/
theorem isInfix_entryName_iff {part : Text} (unseparated : '/' ∉ part)
    (undotted : '.' ∉ part) (notInExtension : ¬part <:+: "class".toList) :
    part <:+: className.entryName ↔
      ∃ name ∈ className.simpleName :: className.package,
        part <:+: name := by
  rw [entryName_eq, isInfix_append_cons_iff undotted,
    isInfix_textOf_iff unseparated (List.append_ne_nil_of_right_ne_nil _
      (List.cons_ne_nil _ _))]
  constructor
  · rintro (⟨name, isName, inName⟩ | inExtension)
    · refine ⟨name, ?_, inName⟩
      simpa [or_comm] using isName
    · exact absurd inExtension notInExtension
  · rintro ⟨name, isName, inName⟩
    refine Or.inl ⟨name, ?_, inName⟩
    simpa [or_comm] using isName

/-- A simple name that stands before the extension ends the entry. -/
theorem isInfix_extension_iff {part : Text} (unseparated : '/' ∉ part) :
    part ++ classExtension <:+: className.entryName ↔
      part <:+ className.simpleName := by
  have around := @isInfix_around_iff Char '.'
    (textOf (className.package ++ [className.simpleName])) "class".toList
    part "class".toList dot_notMem_qualifiedName (by decide)
  rw [entryName_eq, ← isSuffix_qualifiedName_iff unseparated]
  exact around.trans (and_iff_left (List.prefix_refl _))

theorem entryName_eq_buildConfig_iff :
    className.entryName = buildConfig ++ classExtension ↔
      className.package = [] ∧ className.simpleName = buildConfig := by
  constructor
  · intro same
    by_cases none : className.package = []
    · refine ⟨none, ?_⟩
      rw [ClassName.entryName, none] at same
      simp only [textOf, List.nil_append, List.intercalate,
        List.intersperse_singleton, List.flatten_singleton,
        ClassName.fileName] at same
      exact List.append_cancel_right same
    · refine absurd ?_ (by decide : '/' ∉ buildConfig ++ classExtension)
      rw [← same, ClassName.entryName, textOf_append none]
      exact List.mem_append_right _ List.mem_cons_self
  · rintro ⟨none, isBuildConfig⟩
    simp [ClassName.entryName, ClassName.fileName, none, isBuildConfig,
      textOf, List.intercalate]

theorem endsWith_entryName :
    endsWith className.entryName classExtension = true := by
  refine decide_eq_true ?_
  rw [entryName_eq]
  exact List.suffix_append _ _

/-- Spec lemma: the classes of a jar that the filter excludes. -/
theorem isLegalClass_entryName_iff :
    isLegalClass className.entryName = false ↔
      (∃ name ∈ className.simpleName :: className.package, Marked name) ∨
        EndsLikeResources className.simpleName ∨
        className.package = [] ∧ className.simpleName = buildConfig := by
  have marked := @isInfix_entryName_iff className "R$".toList
    (by decide) (by decide) (by decide)
  have marked2 := @isInfix_entryName_iff className "R2$".toList
    (by decide) (by decide) (by decide)
  have ends := @isInfix_extension_iff className resources (by decide)
  have ends2 := @isInfix_extension_iff className resources2 (by decide)
  have isBuildConfig := @entryName_eq_buildConfig_iff className
  rw [isLegalClass, show ".class".toList = classExtension from rfl,
    endsWith_entryName, Bool.true_and, Bool.not_eq_false',
    isAndroidGeneratedClass]
  simp only [contains, Bool.or_eq_true, decide_eq_true_eq, or_assoc]
  rw [marked, marked2, show "R.class".toList = resources ++ classExtension
    from rfl, ends, show "R2.class".toList = resources2 ++ classExtension
    from rfl, ends2, show "BuildConfig.class".toList =
    buildConfig ++ classExtension from rfl, isBuildConfig]
  simp only [Marked, EndsLikeResources, and_or_left, exists_or, or_assoc]

/-- The filter reads the file of a class as a class without a package. -/
theorem isLegalClass_fileName_iff :
    isLegalClass className.fileName = false ↔
      Marked className.simpleName ∨
        EndsLikeResources className.simpleName ∨
        className.simpleName = buildConfig := by
  have ofEntry := @isLegalClass_entryName_iff className.inDefaultPackage
  rw [className.entryName_inDefaultPackage] at ofEntry
  rw [ofEntry]
  simp [ClassName.inDefaultPackage]

end Excluded

/-! ## The filter as it is meant -/

/-- Both ways of filtering exclude the generated classes, and no others. -/
structure FilteredAsMeant (files : FileSystem Bytes) (directory : Path)
    (className : ClassName) : Prop where
  agree : isLegalClassFile files (className.fileIn directory) =
    isLegalClass className.entryName
  excluded : isLegalClass className.entryName = false ↔
    Generated className.simpleName

/-- The name is that of a resource class, or `BuildConfig` without a package,
or no part of it reads like a generated class. -/
inductive PlainlyNamed (className : ClassName) : Prop
  | resources (isResources : OfResources className.simpleName)
  | buildConfig (isBuildConfig : className.simpleName = buildConfig)
      (excluded : className.package = [] ∨
        ∃ name ∈ className.package, Marked name)
  | other (notGenerated : ¬Generated className.simpleName)
      (notMarked : ∀ name ∈ className.simpleName :: className.package,
        ¬Marked name)
      (notAtEnd : ¬EndsLikeResources className.simpleName)

section Meant

variable {files : FileSystem Bytes} {directory : Path}
  {className : ClassName}

/-- The name of a file that is there decides. -/
theorem isLegalClassFile_fileIn
    (present : (files.fileAt (className.fileIn directory)).isSome) :
    isLegalClassFile files (className.fileIn directory) =
      isLegalClass className.fileName := by
  rw [isLegalClassFile, present, Bool.true_and, ClassName.fileIn, getName,
    List.getLastD_concat]

theorem OfResources.marked_or_ends {simpleName : Name}
    (isResources : OfResources simpleName) :
    Marked simpleName ∨ EndsLikeResources simpleName := by
  rcases isResources with rfl | rfl | starts | starts2
  · exact Or.inr (Or.inl (List.suffix_refl _))
  · exact Or.inr (Or.inr (List.suffix_refl _))
  · exact Or.inl (Or.inl starts.isInfix)
  · exact Or.inl (Or.inr starts2.isInfix)

theorem not_marked_buildConfig : ¬Marked buildConfig := by
  rintro (inName | inName)
  · exact absurd inName (by decide)
  · exact absurd inName (by decide)

theorem not_endsLikeResources_buildConfig :
    ¬EndsLikeResources buildConfig := by
  rintro (atEnd | atEnd)
  · exact absurd atEnd (by decide)
  · exact absurd atEnd (by decide)

/-- The classes of a jar that are excluded, by what the simple name is. -/
theorem excluded_of_marked_or_ends
    (here : Marked className.simpleName ∨
      EndsLikeResources className.simpleName) :
    isLegalClass className.fileName = false ∧
      isLegalClass className.entryName = false := by
  rw [isLegalClass_fileName_iff, isLegalClass_entryName_iff]
  rcases here with marked | atEnd
  · exact ⟨Or.inl marked, Or.inl ⟨_, List.mem_cons_self, marked⟩⟩
  · exact ⟨Or.inr (Or.inl atEnd), Or.inr (Or.inl atEnd)⟩

/-- The entry of a `BuildConfig` is excluded by its package only. -/
theorem isLegalClass_entryName_of_buildConfig
    (isBuildConfig : className.simpleName = buildConfig) :
    isLegalClass className.entryName = false ↔
      className.package = [] ∨ ∃ name ∈ className.package, Marked name := by
  rw [isLegalClass_entryName_iff, isBuildConfig]
  simp [not_marked_buildConfig, not_endsLikeResources_buildConfig, or_comm]

/-- A class is filtered as it is meant exactly when it is plainly named. -/
theorem filteredAsMeant_iff
    (present : (files.fileAt (className.fileIn directory)).isSome) :
    FilteredAsMeant files directory className ↔ PlainlyNamed className := by
  have ofFile := isLegalClassFile_fileIn present
  constructor
  · rintro ⟨agree, exactly⟩
    rw [ofFile] at agree
    by_cases isResources : OfResources className.simpleName
    · exact .resources isResources
    by_cases isBuildConfig : className.simpleName = buildConfig
    · refine .buildConfig isBuildConfig ?_
      exact (isLegalClass_entryName_of_buildConfig isBuildConfig).mp
        (exactly.mpr (Or.inr isBuildConfig))
    · have notGenerated : ¬Generated className.simpleName :=
        fun generated => generated.elim isResources isBuildConfig
      have kept : ¬isLegalClass className.entryName = false :=
        fun excluded => notGenerated (exactly.mp excluded)
      rw [isLegalClass_entryName_iff] at kept
      refine .other notGenerated ?_ ?_
      · exact fun name isName marked => kept (Or.inl ⟨name, isName, marked⟩)
      · exact fun atEnd => kept (Or.inr (Or.inl atEnd))
  · intro plainly
    cases plainly with
    | resources isResources =>
        obtain ⟨fileExcluded, entryExcluded⟩ :=
          excluded_of_marked_or_ends isResources.marked_or_ends
        exact ⟨by rw [ofFile, fileExcluded, entryExcluded],
          iff_of_true entryExcluded (Or.inl isResources)⟩
    | buildConfig isBuildConfig excluded =>
        have fileExcluded : isLegalClass className.fileName = false :=
          isLegalClass_fileName_iff.mpr (Or.inr (Or.inr isBuildConfig))
        have entryExcluded :=
          (isLegalClass_entryName_of_buildConfig isBuildConfig).mpr excluded
        exact ⟨by rw [ofFile, fileExcluded, entryExcluded],
          iff_of_true entryExcluded (Or.inr isBuildConfig)⟩
    | other notGenerated notMarked notAtEnd =>
        have entryKept : ¬isLegalClass className.entryName = false := by
          rw [isLegalClass_entryName_iff]
          rintro (⟨name, isName, marked⟩ | atEnd | ⟨_, isBuildConfig⟩)
          · exact notMarked name isName marked
          · exact notAtEnd atEnd
          · exact notGenerated (Or.inr isBuildConfig)
        have fileKept : ¬isLegalClass className.fileName = false := by
          rw [isLegalClass_fileName_iff]
          rintro (marked | atEnd | isBuildConfig)
          · exact notMarked _ List.mem_cons_self marked
          · exact notAtEnd atEnd
          · exact notGenerated (Or.inr isBuildConfig)
        refine ⟨?_, iff_of_false entryKept notGenerated⟩
        rw [ofFile, Bool.eq_true_of_not_eq_false entryKept,
          Bool.eq_true_of_not_eq_false fileKept]

end Meant

/-! ## Three classes of the package `com` -/

/-- The class of this simple name in the package `com`. -/
def inCom (simpleName : Name) (unqualified : Unqualified simpleName) :
    ClassName where
  package := ["com".toList]
  simpleName := simpleName
  unqualified := by
    intro name isName
    rcases List.mem_cons.mp isName with rfl | inPackage
    · exact unqualified
    · rw [List.mem_singleton.mp inPackage]
      decide

def mainClass : ClassName :=
  inCom "Main".toList (by decide)

def buildConfigClass : ClassName :=
  inCom buildConfig (by decide)

def editorClass : ClassName :=
  inCom "EditoR".toList (by decide)

/-- A directory `classes` with the file of one class of `com`. -/
def oneClassFile (className : ClassName) : FileSystem Bytes :=
  let made := FileSystem.empty.mkdirs ["classes".toList, "com".toList]
  (made.write (className.fileIn ["classes".toList]) [1]).getD made

theorem mainClass_filteredAsMeant :
    FilteredAsMeant (oneClassFile mainClass) ["classes".toList] mainClass ↔
      PlainlyNamed mainClass :=
  filteredAsMeant_iff rfl

/-- A `BuildConfig` is instrumented in a jar and left alone in a directory;
a class that only ends in `R` is left alone in both. -/
theorem buildConfig_and_editor_not_filteredAsMeant :
    (isLegalClassFile (oneClassFile buildConfigClass)
        (buildConfigClass.fileIn ["classes".toList]) = false ∧
      isLegalClass buildConfigClass.entryName = true) ∧
    (isLegalClassFile (oneClassFile editorClass)
        (editorClass.fileIn ["classes".toList]) = false ∧
      isLegalClass editorClass.entryName = false ∧
      ¬Generated editorClass.simpleName) ∧
    ¬FilteredAsMeant (oneClassFile buildConfigClass) ["classes".toList]
      buildConfigClass ∧
    ¬FilteredAsMeant (oneClassFile editorClass) ["classes".toList]
      editorClass := by
  have fileExcluded : isLegalClassFile (oneClassFile buildConfigClass)
      (buildConfigClass.fileIn ["classes".toList]) = false := by
    rw [isLegalClassFile_fileIn rfl, isLegalClass_fileName_iff]
    exact Or.inr (Or.inr rfl)
  have entryKept : isLegalClass buildConfigClass.entryName = true := by
    decide
  have atEnd : EndsLikeResources editorClass.simpleName :=
    Or.inl (by decide)
  have bothExcluded := excluded_of_marked_or_ends (Or.inr atEnd)
  have notGenerated : ¬Generated editorClass.simpleName := by
    unfold Generated OfResources
    decide
  refine ⟨⟨fileExcluded, entryKept⟩,
    ⟨(isLegalClassFile_fileIn rfl).trans bothExcluded.1, bothExcluded.2,
      notGenerated⟩, fun law => ?_, fun law => ?_⟩
  · have same := law.agree
    rw [fileExcluded, entryKept] at same
    cases same
  · exact notGenerated (law.excluded.mp bothExcluded.2)

end DripStone.BaseTransform
