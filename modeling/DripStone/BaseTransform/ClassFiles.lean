import DripStone.BaseTransform.JarTasks

/-!
# One class file in the output

A class that is legal is modified in the temporary directory and copied from
there; any other file is copied as it is.
-/

namespace DripStone.BaseTransform

open DripStone.Library

/-! ## Where a class file goes -/

/-- The path of a directory is not read a second time in the path of a file
below it. -/
def ReadOnce (directory rest : Path) : Prop :=
  ¬ absolutePath directory <:+: '/' :: textOf rest

instance (directory rest : Path) : Decidable (ReadOnce directory rest) :=
  inferInstanceAs (Decidable (¬ _))

theorem destFileOf_of_readOnce {directory rest dest : Path}
    (named : directory ≠ []) (more : rest ≠ [])
    (plain : ∀ name ∈ dest, Plain name) (plainRest : ∀ name ∈ rest, Plain name)
    (once : ReadOnce directory rest) :
    destFileOf (directory ++ rest) (absolutePath directory)
        (absolutePath dest) =
      dest ++ rest := by
  have some : absolutePath directory ≠ [] := List.cons_ne_nil _ _
  rw [destFileOf, absolutePath_append named more, replace_append some,
    replace_of_not_infix once, namesOf_append_slash,
    namesOf_absolutePath plain, namesOf_textOf plainRest]

/-! ## The name in the temporary directory -/

theorem length_le_toByteArray (text : Text) :
    text.length ≤ (toByteArray text).length := by
  induction text with
  | nil => exact le_rfl
  | cons letter rest inductionHypothesis =>
      have some := Char.utf8Size_pos letter
      rw [toByteArray] at inductionHypothesis ⊢
      rw [List.flatMap_cons, List.length_append, List.length_cons,
        String.length_utf8EncodeChar]
      omega

/-- The path of a class has as many bytes as its name shows. -/
theorem longPath_of_isLegalClass {classFile : Path}
    (legal : isLegalClass (getName classFile) = true) :
    LongPath classFile := by
  have extension : ".class".toList <:+ getName classFile := by
    rw [isLegalClass, Bool.and_eq_true] at legal
    exact of_decide_eq_true legal.1
  have longName := extension.length_le
  have bytes := length_le_toByteArray (absolutePath classFile)
  have longText : (getName classFile).length ≤
      (absolutePath classFile).length := by
    cases classFile using List.reverseRecOn with
    | nil => exact Nat.zero_le _
    | append_singleton path last =>
        rw [getName, List.getLastD_concat]
        by_cases top : path = []
        · simp [top, absolutePath, textOf, List.intercalate]
        · simp only [absolutePath, textOf_append top, List.length_cons,
            List.length_append]
          omega
  have extensionLength : (".class".toList).length = 6 := rfl
  rw [LongPath]
  omega

/-! ## Modifying and copying -/

section ClassFile

variable (tools : Tools) {dest temporaryDir classFile : Path}
  {content : Bytes} {files : FileSystem Bytes}

/-- What is stored for a file of a directory. -/
def classOutput (classFile : Path) (content : Bytes) : Bytes :=
  if isLegalClass (getName classFile) then tools.modifyClass content
  else content

theorem modifyClass_ok (found : files.fileAt classFile = some content)
    (long : LongPath classFile)
    (stays : files.find temporaryDir = some .directory)
    (onlyFiles : ∀ name,
      files.find (temporaryDir ++ [name]) ≠ some .directory) :
    ∃ left, modifyClass tools classFile temporaryDir files =
        .ok (temporaryDir ++ [jarName classFile]) left ∧
      ∀ other, left.find other =
        if other = temporaryDir ++ [jarName classFile] then
          some (.file (tools.modifyClass content))
        else files.find other := by
  have plainFile : ∀ name ∈ classFile, Plain name := by
    apply files.plain classFile
    have exists_ := FileSystem.fileAt_eq_some_iff.mp found
    have node : files.nodes.lookup classFile = some (.file content) := exists_
    simp [node]
  obtain ⟨renewed, deleted, isOpen, atRenewed⟩ :=
    renewTemporary (plain_jarName plainFile) stays
      (onlyFiles (jarName classFile))
  obtain ⟨created, wrote, stillOpen, atCreated⟩ := writeFile_ok isOpen []
  obtain ⟨left, written, _, atLeft⟩ :=
    writeFile_ok stillOpen (tools.modifyClass content)
  have isNew : renewed.find (temporaryDir ++ [jarName classFile]) = none := by
    rw [atRenewed, if_pos rfl]
  have newFile : createNewFile (temporaryDir ++ [jarName classFile]) renewed =
      .ok () created := by
    show (if (renewed.find (temporaryDir ++ [jarName classFile])).isSome then
      (pure () : Call Unit) else writeFile _ []) renewed = _
    rw [isNew]
    exact wrote
  refine ⟨left, ?_, ?_⟩
  · rw [modifyClass, Action.bind_of_ok (readFile_ok found)]
    simp only [generateClassFileName_of_long long]
    rw [Action.ofExcept_ok_bind, Action.bind_of_ok deleted,
      Action.bind_of_ok newFile, Action.bind_of_ok written]
    rfl
  · intro other
    rw [atLeft, atCreated, atRenewed]
    by_cases here : other = temporaryDir ++ [jarName classFile]
    · rw [if_pos here, if_pos here]
    · rw [if_neg here, if_neg here, if_neg here, if_neg here]

/-- Nothing stands in the way of a file: no file above it, and in its own place
no directory that holds something. -/
structure Passable (files : FileSystem Bytes) (file : Path) : Prop where
  above : files.Unblocked file.dropLast
  here : files.find file = some .directory → files.list file = []

/-- The place of a file after it was deleted, if it could be. -/
theorem Passable.cleared {file : Path} (passable : Passable files file)
    (below : file ≠ []) :
    ∃ left, deleteIfExists file files = .ok () left ∧
      left.find file ≠ some .directory ∧
      ∀ other, other ≠ file → left.find other = files.find other := by
  obtain ⟨left, returned, atLeft⟩ := deleteIfExists_ok files file
  refine ⟨left, returned, ?_, ?_⟩
  · by_cases directory : files.find file = some .directory
    · have deletable : files.Deletable file :=
        ⟨below, passable.here directory⟩
      rw [atLeft, if_pos ⟨deletable, rfl⟩]
      simp
    · rw [atLeft]
      by_cases deletable : files.Deletable file
      · rw [if_pos ⟨deletable, rfl⟩]
        simp
      · rwa [if_neg fun both => deletable both.1]
  · intro other elsewhere
    rw [atLeft, if_neg fun both => elsewhere both.2]

end ClassFile

section Storing

/-- The file is stored, the directories above it are made, and outside the
temporary directory nothing else changes. -/
structure Stores (temporaryDir destFile : Path) (bytes : Bytes)
    (before after : FileSystem Bytes) : Prop where
  here : after.find destFile = some (.file bytes)
  others : ∀ other, ¬ temporaryDir <+: other → other ≠ destFile →
    after.find other =
      if other <+: destFile.dropLast then some .directory
      else before.find other

variable (tools : Tools) {temporaryDir classFile destFile : Path}
  {content : Bytes} {files : FileSystem Bytes}

/-- A file that nothing is in the way of is stored. -/
theorem modifyClassFile_ok {srcDirPath destDirPath : Text}
    (isDest : destFileOf classFile srcDirPath destDirPath = destFile)
    (found : files.fileAt classFile = some content)
    (different : classFile ≠ destFile) (named : destFile ≠ [])
    (plain : ∀ name ∈ destFile, Plain name)
    (apart : Apart destFile temporaryDir)
    (stays : files.find temporaryDir = some .directory)
    (onlyFiles : ∀ name,
      files.find (temporaryDir ++ [name]) ≠ some .directory)
    (passable : Passable files destFile) :
    ∃ left, modifyClassFile tools classFile srcDirPath destDirPath
        temporaryDir files = .ok () left ∧
      Stores temporaryDir destFile (classOutput tools classFile content)
        files left := by
  obtain ⟨cleared, deleted, noDirectory, atCleared⟩ := passable.cleared named
  have notTemporary : ∀ name, temporaryDir ++ [name] ≠ destFile := by
    intro name same
    exact apart.2 (same ▸ List.prefix_append temporaryDir [name])
  have foundCleared : cleared.fileAt classFile = some content := by
    rw [← found]
    exact FileSystem.fileAt_congr (atCleared classFile different)
  have asked : isFile classFile cleared = .ok true cleared := by
    rw [isFile, Action.get_bind, foundCleared]
    rfl
  have shorter : ∀ above, above <+: destFile.dropLast → above ≠ destFile := by
    rintro above isAbove rfl
    have lengths := isAbove.length_le
    have positive := List.length_pos_iff.mpr named
    rw [List.length_dropLast] at lengths
    omega
  have unblocked : cleared.Unblocked destFile.dropLast := by
    intro above isAbove
    rw [atCleared above (shorter above isAbove)]
    exact passable.above above isAbove
  have start : modifyClassFile tools classFile srcDirPath destDirPath
      temporaryDir files =
      (if isLegalClass (getName classFile) = true then
        modifyClass tools classFile temporaryDir >>= fun modified =>
          copyFile modified destFile >>= fun _ => delete modified
      else copyFile classFile destFile) cleared := by
    simp only [modifyClassFile, isDest]
    rw [Action.bind_of_ok deleted, Action.bind_of_ok asked, Bool.true_and]
  rw [start, classOutput]
  by_cases legal : isLegalClass (getName classFile) = true
  · rw [if_pos legal, if_pos legal]
    have staysCleared : cleared.find temporaryDir = some .directory := by
      rw [atCleared _ fun same => apart.2 (same ▸ List.prefix_rfl), stays]
    have onlyFilesCleared : ∀ name,
        cleared.find (temporaryDir ++ [name]) ≠ some .directory := by
      intro name
      rw [atCleared _ (notTemporary name)]
      exact onlyFiles name
    obtain ⟨modified, returned, atModified⟩ := modifyClass_ok tools
      foundCleared (longPath_of_isLegalClass legal) staysCleared
      onlyFilesCleared
    have source : modified.fileAt (temporaryDir ++ [jarName classFile]) =
        some (tools.modifyClass content) := by
      rw [FileSystem.fileAt_eq_some_iff, atModified, if_pos rfl]
    have outside : ∀ other, ¬ temporaryDir <+: other →
        other ≠ temporaryDir ++ [jarName classFile] := by
      rintro other isOutside rfl
      exact isOutside (List.prefix_append _ _)
    have unblockedModified : modified.Unblocked destFile.dropLast := by
      intro above isAbove
      have isOutside : ¬ temporaryDir <+: above := fun below =>
        apart.2 (below.trans (isAbove.trans (List.dropLast_prefix _)))
      rw [atModified, if_neg (outside above isOutside)]
      exact unblocked above isAbove
    have noDirectoryModified :
        modified.find destFile ≠ some .directory := by
      rwa [atModified, if_neg (outside destFile apart.2)]
    obtain ⟨copied, wrote, atCopied⟩ := copyFile_ok source
      (notTemporary _) plain unblockedModified named noDirectoryModified
    refine ⟨copied.delete (temporaryDir ++ [jarName classFile]), ?_, ?_⟩
    · rw [Action.bind_of_ok returned, Action.bind_of_ok wrote]
      rfl
    · constructor
      · rw [FileSystem.find_delete,
          if_neg fun both => outside destFile apart.2 both.2, atCopied,
          if_pos rfl]
      · intro other isOutside elsewhere
        rw [FileSystem.find_delete,
          if_neg fun both => outside other isOutside both.2, atCopied,
          if_neg elsewhere, atModified, if_neg (outside other isOutside),
          atCleared other elsewhere]
  · rw [if_neg legal, if_neg legal]
    obtain ⟨copied, wrote, atCopied⟩ := copyFile_ok foundCleared different
      plain unblocked named noDirectory
    refine ⟨copied, wrote, ?_, ?_⟩
    · rw [atCopied, if_pos rfl]
    · intro other _ elsewhere
      rw [atCopied, if_neg elsewhere, atCleared other elsewhere]

end Storing

end DripStone.BaseTransform
