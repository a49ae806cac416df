import DripStone.BaseTransform.Model

/-!
# What a task leaves alone

A task changes its own output and single files of the temporary directory.
It holds of every run of the task, also of one that throws.
-/

namespace DripStone.BaseTransform

open DripStone.Library

/-- Neither path lies below the other. -/
def Apart (first second : Path) : Prop :=
  ¬ first <+: second ∧ ¬ second <+: first

instance (first second : Path) : Decidable (Apart first second) :=
  inferInstanceAs (Decidable (_ ∧ _))

theorem Apart.symm {first second : Path} (apart : Apart first second) :
    Apart second first :=
  ⟨apart.2, apart.1⟩

theorem prefix_or_prefix {first second path : Path}
    (isFirst : first <+: path) (isSecond : second <+: path) :
    first <+: second ∨ second <+: first :=
  List.prefix_or_prefix_of_prefix isFirst isSecond

theorem Apart.append {first second : Path} (apart : Apart first second)
    (rest : Path) : Apart (first ++ rest) second := by
  constructor
  · intro above
    exact apart.1 ((List.prefix_append first rest).trans above)
  · intro above
    rcases prefix_or_prefix above (List.prefix_append first rest) with
      below | below
    · exact apart.2 below
    · exact apart.1 below

/-- What lies below one of two paths apart is not below the other. -/
theorem Apart.not_below {first second path : Path}
    (apart : Apart first second) (below : first <+: path) :
    ¬ second <+: path := by
  intro other
  rcases prefix_or_prefix below other with above | above
  · exact apart.1 above
  · exact apart.2 above

theorem not_prefix_concat {path : Path} (name : Name) :
    ¬ path ++ [name] <+: path := by
  intro above
  have lengths := above.length_le
  rw [List.length_append, List.length_singleton] at lengths
  omega

section Sparing

variable (dest temporaryDir : Path)

/-- The paths of a task: its output, and files of the temporary directory. -/
def Touchable (path : Path) : Prop :=
  dest <+: path ∨ ∃ name, path = temporaryDir ++ [name]

/-- What a call of a task leaves as it was. -/
structure Spares (before after : FileSystem Bytes) : Prop where
  outside : ∀ path, ¬ dest <+: path → ¬ temporaryDir <+: path →
    after.find path = before.find path ∨
      before.find path = none ∧ after.find path = some .directory ∧
        path <+: dest
  stays : before.find temporaryDir = some .directory →
    after.find temporaryDir = some .directory
  onlyFiles : ∀ name,
    after.find (temporaryDir ++ [name]) = some .directory →
      before.find (temporaryDir ++ [name]) = some .directory

theorem Spares.refl (files : FileSystem Bytes) :
    Spares dest temporaryDir files files where
  outside := fun _ _ _ => Or.inl rfl
  stays := id
  onlyFiles := fun _ => id

variable {dest temporaryDir}

theorem Spares.trans {first second third : FileSystem Bytes}
    (before : Spares dest temporaryDir first second)
    (after : Spares dest temporaryDir second third) :
    Spares dest temporaryDir first third where
  outside := by
    intro path outsideDest outsideTemporary
    have atSecond := before.outside path outsideDest outsideTemporary
    have atThird := after.outside path outsideDest outsideTemporary
    rcases atThird with kept | ⟨wasNone, made, above⟩
    · rwa [kept]
    · rcases atSecond with kept | ⟨_, directory, _⟩
      · exact Or.inr ⟨kept ▸ wasNone, made, above⟩
      · rw [directory] at wasNone
        exact absurd wasNone (by simp)
  stays := fun directory => after.stays (before.stays directory)
  onlyFiles := fun name directory =>
    before.onlyFiles name (after.onlyFiles name directory)

/-- Anything changed below the output, files of the temporary directory, and
directories made on the way to the output. -/
theorem Spares.of_changes (apart : Apart dest temporaryDir)
    {before after : FileSystem Bytes}
    (each : ∀ path, after.find path = before.find path ∨
      dest <+: path ∨
      (∃ name, path = temporaryDir ++ [name]) ∧
        after.find path ≠ some .directory ∨
      path <+: dest ∧ before.find path = none ∧
        after.find path = some .directory) :
    Spares dest temporaryDir before after where
  outside := by
    intro path outsideDest outsideTemporary
    rcases each path with kept | below | ⟨⟨name, rfl⟩, _⟩ |
      ⟨above, wasNone, made⟩
    · exact Or.inl kept
    · exact absurd below outsideDest
    · exact absurd (List.prefix_append _ _) outsideTemporary
    · exact Or.inr ⟨wasNone, made, above⟩
  stays := by
    intro directory
    rcases each temporaryDir with kept | below | ⟨⟨name, here⟩, _⟩ |
      ⟨_, wasNone, _⟩
    · rwa [kept]
    · exact absurd below apart.1
    · exact absurd here (by simp)
    · rw [directory] at wasNone
      exact absurd wasNone (by simp)
  onlyFiles := by
    intro name directory
    have below := List.prefix_append temporaryDir [name]
    rcases each (temporaryDir ++ [name]) with kept | inDest |
      ⟨_, noDirectory⟩ | ⟨above, _, _⟩
    · rwa [← kept]
    · exact absurd below (apart.not_below inDest)
    · exact absurd directory noDirectory
    · exact absurd (below.trans above) apart.2

/-- A change at one path that a task may touch. -/
theorem Spares.of_touch (apart : Apart dest temporaryDir)
    {before after : FileSystem Bytes} {touched : Path}
    (touchable : Touchable dest temporaryDir touched)
    (noDirectory : after.find touched ≠ some .directory)
    (others : ∀ path, path ≠ touched →
      after.find path = before.find path) :
    Spares dest temporaryDir before after := by
  apply Spares.of_changes apart
  intro path
  by_cases here : path = touched
  · subst here
    rcases touchable with below | single
    · exact Or.inr (Or.inl below)
    · exact Or.inr (Or.inr (Or.inl ⟨single, noDirectory⟩))
  · exact Or.inl (others path here)

end Sparing

/-! ## The calls -/

section Calls

variable {dest temporaryDir : Path} {α β : Type}

/-- Every run of a call leaves alone what a task does not touch. -/
def SparingCall (dest temporaryDir : Path) (call : Call α) : Prop :=
  Action.Within (Spares dest temporaryDir) call

theorem SparingCall.pure (value : α) :
    SparingCall dest temporaryDir (pure value) :=
  Action.within_pure (Spares.refl dest temporaryDir) value

theorem SparingCall.throw (failure : Failure) :
    SparingCall dest temporaryDir (throw failure : Call α) :=
  Action.within_throw (Spares.refl dest temporaryDir) failure

theorem SparingCall.get :
    SparingCall dest temporaryDir (get : Call (FileSystem Bytes)) :=
  Action.within_get (Spares.refl dest temporaryDir)

theorem SparingCall.ofExcept (outcome : Except Failure α) :
    SparingCall dest temporaryDir (Action.ofExcept outcome) :=
  Action.within_ofExcept (Spares.refl dest temporaryDir) outcome

theorem SparingCall.bind {call : Call α} {next : α → Call β}
    (first : SparingCall dest temporaryDir call)
    (second : ∀ value, SparingCall dest temporaryDir (next value)) :
    SparingCall dest temporaryDir (call >>= next) :=
  Action.within_bind (fun _ _ _ before after => before.trans after)
    first second

theorem SparingCall.forM {items : List α} {body : α → Call PUnit}
    (each : ∀ item ∈ items, SparingCall dest temporaryDir (body item)) :
    SparingCall dest temporaryDir (forM items body) :=
  Action.within_forM (Spares.refl dest temporaryDir)
    (fun _ _ _ before after => before.trans after) each

theorem SparingCall.ite {condition : Prop} [Decidable condition]
    {call other : Call α} (first : SparingCall dest temporaryDir call)
    (second : SparingCall dest temporaryDir other) :
    SparingCall dest temporaryDir (if condition then call else other) := by
  by_cases holds : condition
  · rwa [if_pos holds]
  · rwa [if_neg holds]

theorem sparing_fileExists (file : Path) :
    SparingCall dest temporaryDir (fileExists file) :=
  .bind .get fun _ => .pure _

theorem sparing_isFile (file : Path) :
    SparingCall dest temporaryDir (isFile file) :=
  .bind .get fun _ => .pure _

theorem sparing_readFile (file : Path) :
    SparingCall dest temporaryDir (readFile file) := by
  apply SparingCall.bind .get
  intro files
  cases files.fileAt file with
  | none => exact .throw _
  | some content => exact .pure _

theorem sparing_isLegalJarFile (file : Path) :
    SparingCall dest temporaryDir (isLegalJarFile file) := by
  apply SparingCall.bind .get
  intro files
  cases files.fileAt file with
  | none => exact .pure _
  | some content => exact .pure _

section Changing

variable (apart : Apart dest temporaryDir)
include apart

theorem sparing_delete {file : Path}
    (touchable : Touchable dest temporaryDir file) :
    SparingCall dest temporaryDir (delete file) := by
  apply Action.within_modify
  intro files
  by_cases deletable : files.Deletable file
  · apply Spares.of_touch apart touchable
    · rw [FileSystem.find_delete, if_pos ⟨deletable, rfl⟩]
      simp
    · intro path elsewhere
      rw [FileSystem.find_delete, if_neg fun both => elsewhere both.2]
  · rw [FileSystem.delete, dif_neg deletable]
    exact Spares.refl dest temporaryDir files

theorem sparing_deleteIfExists {file : Path}
    (touchable : Touchable dest temporaryDir file) :
    SparingCall dest temporaryDir (deleteIfExists file) :=
  .bind (sparing_fileExists file) fun _ =>
    .ite (sparing_delete apart touchable) (.pure _)

theorem sparing_forceDeleteIfExists (below : dest ≠ []) :
    SparingCall dest temporaryDir (forceDeleteIfExists dest) := by
  apply SparingCall.bind (sparing_fileExists dest)
  intro _
  apply SparingCall.ite _ (.pure _)
  apply Action.within_modify
  intro files
  apply Spares.of_changes apart
  intro path
  rw [FileSystem.find_removeTree below]
  by_cases gone : dest <+: path
  · exact Or.inr (Or.inl gone)
  · rw [if_neg gone]
    exact Or.inl rfl

theorem sparing_writeFile {file : Path}
    (touchable : Touchable dest temporaryDir file) (content : Bytes) :
    SparingCall dest temporaryDir (writeFile file content) := by
  intro files
  cases result : files.write file content with
  | none =>
      have failed : writeFile file content files =
          .error .fileNotFoundException files := by
        rw [writeFile, Action.get_bind, result]
        rfl
      rw [Action.after_of_error failed]
      exact Spares.refl dest temporaryDir files
  | some written =>
      have returned : writeFile file content files = .ok () written := by
        rw [writeFile, Action.get_bind, result]
        rfl
      rw [Action.after_of_ok returned]
      obtain ⟨isOpen, rfl⟩ := FileSystem.write_eq_some_iff.mp result
      apply Spares.of_touch apart touchable
      · rw [FileSystem.find_put, if_pos rfl]
        simp
      · intro path elsewhere
        rw [FileSystem.find_put, if_neg elsewhere]

theorem sparing_createNewFile {file : Path}
    (touchable : Touchable dest temporaryDir file) :
    SparingCall dest temporaryDir (createNewFile file) := by
  apply SparingCall.bind (sparing_fileExists file)
  intro found
  cases found with
  | true => exact .pure _
  | false => exact sparing_writeFile apart touchable []

theorem sparing_mkdirs {directory : Path}
    (near : dest <+: directory ∨ directory <+: dest) :
    SparingCall dest temporaryDir
      (modify fun files => files.mkdirs directory : Call PUnit) := by
  apply Action.within_modify
  intro files
  apply Spares.of_changes apart
  intro path
  rcases files.find_mkdirs_cases directory path with
    kept | ⟨above, wasNone, made⟩
  · exact Or.inl kept
  · have near : dest <+: path ∨ path <+: dest := by
      rcases near with below | onTheWay
      · exact prefix_or_prefix below above
      · exact Or.inr (above.trans onTheWay)
    rcases near with below | onTheWay
    · exact Or.inr (Or.inl below)
    · exact Or.inr (Or.inr (Or.inr ⟨onTheWay, wasNone, made⟩))

theorem sparing_forceMkdir :
    SparingCall dest temporaryDir (forceMkdir dest) := by
  apply SparingCall.bind (sparing_mkdirs apart (Or.inl List.prefix_rfl))
  intro _
  apply SparingCall.bind .get
  intro files
  by_cases directory : files.find dest = some .directory
  · simp only [directory, ↓reduceIte]
    exact .pure _
  · simp only [directory, ↓reduceIte]
    exact .throw _

theorem sparing_copyFile {destination : Path} (source : Path)
    (below : dest <+: destination) :
    SparingCall dest temporaryDir (copyFile source destination) := by
  have near : dest <+: destination.dropLast ∨
      destination.dropLast <+: dest :=
    prefix_or_prefix below (List.dropLast_prefix destination)
  apply SparingCall.bind (sparing_readFile source)
  intro content
  have copying : SparingCall dest temporaryDir (do
      modify fun files => files.mkdirs destination.dropLast
      writeFile destination content) :=
    .bind (sparing_mkdirs apart near) fun _ =>
      sparing_writeFile apart (Or.inl below) content
  by_cases same : source = destination
  · simp only [same, ↓reduceIte]
    exact .bind (.throw _) fun _ => same ▸ copying
  · simp only [same, ↓reduceIte]
    exact copying

end Changing

end Calls

/-! ## Tasks -/

section Tasks

variable (tools : Tools) {dest temporaryDir : Path}

theorem sparing_modifyJar (apart : Apart dest temporaryDir)
    (jarFile : Path) :
    SparingCall dest temporaryDir (modifyJar tools jarFile temporaryDir) := by
  apply SparingCall.bind (.ofExcept _)
  intro name
  have touchable : Touchable dest temporaryDir (temporaryDir ++ [name]) :=
    Or.inr ⟨name, rfl⟩
  apply SparingCall.bind (sparing_deleteIfExists apart touchable)
  intro _
  apply SparingCall.bind (sparing_writeFile apart touchable [])
  intro _
  apply SparingCall.bind (sparing_readFile jarFile)
  intro content
  cases tools.jarEntries content with
  | none => exact .throw _
  | some jarEntries =>
      apply SparingCall.bind (sparing_writeFile apart touchable _)
      intro _
      cases (putEntries tools [] jarEntries).2 with
      | none => exact .pure _
      | some failure => exact .throw _

theorem sparing_replaceJar (apart : Apart dest temporaryDir)
    (below : dest ≠ []) (jarInput : JarInput) :
    SparingCall dest temporaryDir
      (replaceJar tools jarInput dest ⟨temporaryDir⟩) := by
  apply SparingCall.bind (sparing_forceDeleteIfExists apart below)
  intro _
  apply SparingCall.bind (sparing_isLegalJarFile jarInput.file)
  intro legal
  have copying : ∀ modifiedJar, SparingCall dest temporaryDir
      (copyFile modifiedJar dest) := fun modifiedJar =>
    sparing_copyFile apart modifiedJar List.prefix_rfl
  cases legal with
  | true => exact .bind (sparing_modifyJar tools apart _) copying
  | false => exact .bind (.pure _) copying

/-- A class modified in the temporary directory, and then used. -/
theorem sparing_modifyClass_bind {α : Type}
    (apart : Apart dest temporaryDir) (classFile : Path)
    {next : Path → Call α}
    (using_ : ∀ name,
      SparingCall dest temporaryDir (next (temporaryDir ++ [name]))) :
    SparingCall dest temporaryDir
      (modifyClass tools classFile temporaryDir >>= next) := by
  simp only [modifyClass, bind_assoc, pure_bind]
  apply SparingCall.bind (sparing_readFile classFile)
  intro byteArray
  apply SparingCall.bind (.ofExcept _)
  intro name
  have touchable : Touchable dest temporaryDir (temporaryDir ++ [name]) :=
    Or.inr ⟨name, rfl⟩
  apply SparingCall.bind (sparing_deleteIfExists apart touchable)
  intro _
  apply SparingCall.bind (sparing_createNewFile apart touchable)
  intro _
  apply SparingCall.bind (sparing_writeFile apart touchable _)
  intro _
  exact using_ name

theorem sparing_forEachJar {temporaryDir : Path} (jarInput : JarInput)
    (outputProvider : TransformOutputProvider) (isIncremental : Bool)
    (apart : Apart (outputProvider.getContentLocation
      (jarName jarInput.file) jarInput.contentTypes jarInput.scopes .jar)
      temporaryDir) :
    SparingCall (outputProvider.getContentLocation
        (jarName jarInput.file) jarInput.contentTypes jarInput.scopes .jar)
      temporaryDir
      (forEachJar tools jarInput outputProvider ⟨temporaryDir⟩
        isIncremental) := by
  by_cases long : LongPath jarInput.file
  · rw [forEachJar, generateJarFileName_of_long long,
      Action.ofExcept_ok_bind]
    have below : outputProvider.getContentLocation (jarName jarInput.file)
        jarInput.contentTypes jarInput.scopes .jar ≠ [] := by
      simp [TransformOutputProvider.getContentLocation]
    have replacing := sparing_replaceJar tools apart below jarInput
    have deleting := sparing_forceDeleteIfExists apart below
    cases isIncremental with
    | false => exact replacing
    | true =>
        cases jarInput.status with
        | removed => exact deleting
        | notChanged => exact replacing
        | added => exact replacing
        | changed => exact replacing
  · rw [forEachJar, generateJarFileName_of_not_long long,
      Action.ofExcept_error_bind]
    exact .throw _

/-- The destination of a file below the input lies below the output. -/
theorem prefix_destFileOf {directory classFile dest : Path}
    (below : directory <+: classFile) (named : directory ≠ [])
    (plain : ∀ name ∈ dest, Plain name) :
    dest <+: destFileOf classFile (absolutePath directory)
      (absolutePath dest) := by
  obtain ⟨rest, rfl⟩ := below
  have some : absolutePath directory ≠ [] := List.cons_ne_nil _ _
  rw [destFileOf]
  by_cases here : rest = []
  · subst here
    have whole := replace_append some [] (absolutePath dest)
    rw [List.append_nil] at whole
    rw [List.append_nil, whole, show replace [] _ _ = [] from rfl,
      List.append_nil, namesOf_absolutePath plain]
  · rw [absolutePath_append named here, replace_append some]
    obtain ⟨behind, slash⟩ := head_replace (absolutePath dest)
      (absolutePath directory) (textOf rest) rfl
    rw [slash, namesOf_append_slash, namesOf_absolutePath plain]
    exact List.prefix_append dest _

theorem sparing_modifyClassFile (apart : Apart dest temporaryDir)
    {directory classFile : Path} (below : directory <+: classFile)
    (named : directory ≠ []) (plain : ∀ name ∈ dest, Plain name) :
    SparingCall dest temporaryDir
      (modifyClassFile tools classFile (absolutePath directory)
        (absolutePath dest) temporaryDir) := by
  have inDest := prefix_destFileOf below named plain
  apply SparingCall.bind (sparing_deleteIfExists apart (Or.inl inDest))
  intro _
  apply SparingCall.bind (sparing_isFile classFile)
  intro found
  apply SparingCall.ite
  · apply sparing_modifyClass_bind tools apart classFile
    intro name
    apply SparingCall.bind (sparing_copyFile apart _ inDest)
    intro _
    exact sparing_delete apart (Or.inr ⟨name, rfl⟩)
  · exact sparing_copyFile apart classFile inDest

theorem sparing_changeClassFile (apart : Apart dest temporaryDir)
    {directory : Path} {mutableEntry : Path × Status}
    (below : directory <+: mutableEntry.1) (named : directory ≠ [])
    (plain : ∀ name ∈ dest, Plain name) :
    SparingCall dest temporaryDir
      (changeClassFile tools (absolutePath directory) (absolutePath dest)
        temporaryDir mutableEntry) := by
  obtain ⟨classFile, status⟩ := mutableEntry
  have modifying :=
    sparing_modifyClassFile tools apart below named plain
  have inDest := prefix_destFileOf below named plain
  cases status with
  | notChanged => exact .pure _
  | removed => exact sparing_deleteIfExists apart (Or.inl inDest)
  | added => exact modifying
  | changed => exact modifying

theorem TransformOutputProvider.plain_getContentLocation
    (outputProvider : TransformOutputProvider) (name : Text)
    (types : Finset ContentType) (scopes : Finset Scope) (format : Format) :
    ∀ part ∈ outputProvider.getContentLocation name types scopes format,
      Plain part := by
  intro part inLocation
  rcases List.mem_append.mp inLocation with inRoot | last
  · exact outputProvider.root_plain part inRoot
  · rw [List.mem_singleton.mp last]
    exact outputProvider.leaf_plain name types scopes format

theorem sparing_forEachDirectory {temporaryDir : Path}
    (directoryInput : DirectoryInput)
    (outputProvider : TransformOutputProvider) (isIncremental : Bool)
    (named : directoryInput.file ≠ [])
    (apart : Apart (outputProvider.getContentLocation directoryInput.name
      directoryInput.contentTypes directoryInput.scopes .directory)
      temporaryDir) :
    SparingCall (outputProvider.getContentLocation directoryInput.name
        directoryInput.contentTypes directoryInput.scopes .directory)
      temporaryDir
      (forEachDirectory tools directoryInput outputProvider ⟨temporaryDir⟩
        isIncremental) := by
  have plain := outputProvider.plain_getContentLocation directoryInput.name
    directoryInput.contentTypes directoryInput.scopes .directory
  apply SparingCall.bind (sparing_forceMkdir apart)
  intro _
  cases isIncremental with
  | true =>
      apply SparingCall.forM
      intro mutableEntry inChanged
      have below := directoryInput.changedFiles_below mutableEntry inChanged
      exact sparing_changeClassFile tools apart below named plain
  | false =>
      apply SparingCall.bind .get
      intro files
      apply SparingCall.forM
      intro classFile walked
      have below := FileSystem.prefix_of_mem_walkTopDown
        (List.mem_of_mem_filter walked)
      exact sparing_modifyClassFile tools apart below named plain

end Tasks

end DripStone.BaseTransform
