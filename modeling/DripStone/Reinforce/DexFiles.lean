import DripStone.Reinforce.TempDirectory

/-!
# Encrypting and renaming in place

Both loops over the unpacked directory change nothing but the files at its
top: on these they act as on a folder.
-/

namespace DripStone.Reinforce

open DripStone.Library DripStone.Unzip

/-! ## Reading -/

theorem readFully_of_short {content : Bytes}
    (short : content.length < 2147483648) :
    readFully content = .ok content := by
  have length : wrapInt content.length = content.length :=
    wrapInt_of_range (by omega) (by omega)
  rw [readFully, length]
  simp

/-- An array is not longer than an `int`. -/
theorem length_of_readFully {content buffer : Bytes}
    (read : readFully content = .ok buffer) : buffer.length < 2147483648 := by
  have bound : wrapInt content.length < 2147483648 := by
    rw [wrapInt]
    have below := @Int.bmod_lt content.length 4294967296 (by omega)
    omega
  by_cases negative : wrapInt content.length < 0
  · simp only [readFully, if_pos negative] at read
    cases read
  · simp only [readFully, if_neg negative] at read
    rw [← Except.ok.inj read, List.length_take]
    omega

theorem readFully_eq_self_iff {content : Bytes} :
    readFully content = .ok content ↔ content.length < 2147483648 :=
  ⟨length_of_readFully, readFully_of_short⟩

/-! ## The folder after encryption -/

/-- All dex files can be read. -/
def Encryptable (folder : Folder Name Bytes) : Prop :=
  ∀ name, endsWithDex name = true → folder name ≠ none →
    ∃ content buffer, folder name = some (.file content) ∧
      readFully content = .ok buffer

def encryptedEntry (platform : Platform) (name : Name) :
    Option (Entry Bytes) → Option (Entry Bytes)
  | some (.file content) =>
      match endsWithDex name, readFully content with
      | true, .ok buffer => some (.file (platform.encrypt buffer))
      | _, _ => some (.file content)
  | entry => entry

def encryptedFolder (platform : Platform) (folder : Folder Name Bytes) :
    Folder Name Bytes :=
  fun name => encryptedEntry platform name (folder name)

section EncryptedFolder

variable {platform : Platform} {folder : Folder Name Bytes} {name : Name}
variable {content buffer : Bytes}

theorem encryptedFolder_of_dex (dex : endsWithDex name = true)
    (isFile : folder name = some (.file content))
    (read : readFully content = .ok buffer) :
    encryptedFolder platform folder name =
      some (.file (platform.encrypt buffer)) := by
  simp only [encryptedFolder, encryptedEntry, isFile, dex, read]

theorem encryptedFolder_of_not_dex (noDex : endsWithDex name = false) :
    encryptedFolder platform folder name = folder name := by
  rw [encryptedFolder]
  rcases folder name with _ | (_ | _) <;> simp [encryptedEntry, noDex]

theorem encryptedFolder_directory :
    encryptedFolder platform folder name = some .directory ↔
      folder name = some .directory := by
  rw [encryptedFolder]
  rcases folder name with _ | (_ | _)
  · rfl
  · simp only [encryptedEntry]
    split <;> simp
  · rfl

theorem encryptedFolder_file :
    (∃ content, encryptedFolder platform folder name =
        some (.file content)) ↔
      ∃ content, folder name = some (.file content) := by
  rw [encryptedFolder]
  rcases folder name with _ | (original | _)
  · rfl
  · simp only [encryptedEntry]
    split <;> simp
  · rfl

theorem encryptedFolder_of_none (missing : folder name = none) :
    encryptedFolder platform folder name = none := by
  rw [encryptedFolder, missing]
  rfl

end EncryptedFolder

section Loops

variable {platform : Platform} {order : ListingOrder}
variable {workingDirectory path : Path} {dir : File}
variable {files : FileSystem Bytes}

/-- A relative directory, found at a path. -/
structure Located (workingDirectory : Path) (dir : File) (path : Path)
    (files : FileSystem Bytes) : Prop where
  relative : dir.absolute = false
  named : dir.names ≠ []
  isPath : path = workingDirectory ++ dir.names
  isDirectory : files.find path = some .directory

theorem Located.isPlace (located : Located workingDirectory dir path files) :
    place workingDirectory dir files = some path := by
  rw [located.isPath]
  apply place_of_find located.relative
  rw [← located.isPath, located.isDirectory]
  simp

theorem Located.of_same {after : FileSystem Bytes}
    (located : Located workingDirectory dir path files)
    (same : SameButFolder path files after) :
    Located workingDirectory dir path after :=
  { located with isDirectory := same.directory located.isDirectory }

theorem Located.plain (located : Located workingDirectory dir path files) :
    ∀ name ∈ dir.names, Plain name := by
  have exists_ : files.find (workingDirectory ++ dir.names) ≠ none := by
    rw [← located.isPath, located.isDirectory]
    simp
  exact fun name inNames =>
    files.plain _ exists_ name (List.mem_append_right _ inNames)

theorem Located.entryOf_child
    (located : Located workingDirectory dir path files) {name : Name}
    (plain : Plain name) :
    entryOf workingDirectory (dir.child name) files =
      files.find (path ++ [name]) :=
  entryOf_of_place (place_child located.isPlace located.isDirectory plain)

/-- A write to a file of the directory. -/
theorem Located.writeFile
    (located : Located workingDirectory dir path files) {name : Name}
    (plain : Plain name)
    (noDirectory : files.find (path ++ [name]) ≠ some .directory)
    (content : Bytes) :
    ∃ written, Reinforce.writeFile workingDirectory (dir.child name) content
        files = .ok written ∧
      SameButFolder path files written ∧
      ∀ other, written.find (path ++ [other]) =
        if other = name then some (.file content)
        else files.find (path ++ [other]) := by
  obtain ⟨written, succeeded, _, _, found⟩ := writeArchive_of_open
    (place_child located.isPlace located.isDirectory plain)
    (open_child located.isDirectory plain noDirectory) content
  refine ⟨written, by rw [Reinforce.writeFile, succeeded]; rfl,
    fun other isOther => ?_, fun other => ?_⟩
  · rw [found, if_neg (isOther name)]
  · rw [found]
    simp

/-! ## Encrypting -/

section Encrypting

variable (platform : Platform)

theorem Located.encryptDex
    (located : Located workingDirectory dir path files) {name : Name}
    (plain : Plain name) {content buffer : Bytes}
    (isFile : files.find (path ++ [name]) = some (.file content))
    (read : readFully content = .ok buffer) (mainDexFile : Option File) :
    ∃ after mainAfter,
      Reinforce.encryptDex platform workingDirectory (files, mainDexFile)
          (dir.child name) = .ok (after, mainAfter) ∧
      SameButFolder path files after ∧
      ∀ other, after.find (path ++ [other]) =
        if other = name then some (.file (platform.encrypt buffer))
        else files.find (path ++ [other]) := by
  obtain ⟨written, succeeded, same, found⟩ := located.writeFile plain
    (by simp [isFile]) (platform.encrypt buffer)
  refine ⟨written, if classesDex.isSuffixOf (dir.child name).getName then
    some (dir.child name) else mainDexFile, ?_, same, found⟩
  simp only [Reinforce.encryptDex, getBytes, located.entryOf_child plain,
    isFile, read, bind, Except.bind, succeeded, pure, Except.pure]

theorem Located.of_encryptDex
    (located : Located workingDirectory dir path files) {name : Name}
    (plain : Plain name) {mainDexFile : Option File}
    {after : FileSystem Bytes × Option File}
    (encrypted : Reinforce.encryptDex platform workingDirectory
      (files, mainDexFile) (dir.child name) = .ok after) :
    ∃ content buffer, files.find (path ++ [name]) = some (.file content) ∧
      readFully content = .ok buffer := by
  rw [Reinforce.encryptDex, except_bind_eq_ok] at encrypted
  obtain ⟨buffer, read, _⟩ := encrypted
  simp only [getBytes, located.entryOf_child plain] at read
  cases found : files.find (path ++ [name]) with
  | none =>
      rw [found] at read
      cases read
  | some entry =>
      rw [found] at read
      cases entry with
      | directory => cases read
      | file content => exact ⟨content, buffer, rfl, read⟩

/-- The dex files of a folder are encrypted one after the other. -/
structure Encrypted (path : Path) (done : List Name)
    (before after : FileSystem Bytes) : Prop where
  same : SameButFolder path before after
  readable : ∀ name ∈ done, ∃ content buffer,
    before.find (path ++ [name]) = some (.file content) ∧
      readFully content = .ok buffer
  find : ∀ name, after.find (path ++ [name]) =
    if name ∈ done then
      encryptedEntry platform name (before.find (path ++ [name]))
    else before.find (path ++ [name])

theorem Encrypted.nil (path : Path) (files : FileSystem Bytes) :
    Encrypted platform path [] files files where
  same := SameButFolder.refl path files
  readable := by simp
  find := by simp

variable {platform}

/-- One turn, then the others. -/
theorem Encrypted.cons {name : Name} {rest : List Name}
    {before middle after : FileSystem Bytes}
    (first : Encrypted platform path [name] before middle)
    (later : Encrypted platform path rest middle after)
    (fresh : name ∉ rest) :
    Encrypted platform path (name :: rest) before after := by
  have kept : ∀ other ∈ rest, middle.find (path ++ [other]) =
      before.find (path ++ [other]) := by
    intro other inRest
    have isOther : other ∉ [name] := by
      rw [List.mem_singleton]
      exact fun here => fresh (here ▸ inRest)
    rw [first.find, if_neg isOther]
  refine ⟨first.same.trans later.same, fun other inNames => ?_,
    fun other => ?_⟩
  · rcases List.mem_cons.mp inNames with rfl | inRest
    · exact first.readable other (List.mem_singleton_self _)
    · rw [← kept other inRest]
      exact later.readable other inRest
  · rw [later.find]
    by_cases inRest : other ∈ rest
    · rw [if_pos inRest, kept other inRest,
        if_pos (List.mem_cons_of_mem name inRest)]
    · rw [if_neg inRest, first.find]
      simp only [List.mem_cons, inRest, or_false, List.not_mem_nil]

theorem Located.encrypted_singleton
    (located : Located workingDirectory dir path files) {name : Name}
    (plain : Plain name) (dex : endsWithDex name = true)
    {content buffer : Bytes}
    (isFile : files.find (path ++ [name]) = some (.file content))
    (read : readFully content = .ok buffer) (mainDexFile : Option File) :
    ∃ after mainAfter,
      Reinforce.encryptDex platform workingDirectory (files, mainDexFile)
          (dir.child name) = .ok (after, mainAfter) ∧
      Encrypted platform path [name] files after := by
  obtain ⟨after, mainAfter, returned, same, found⟩ :=
    located.encryptDex platform plain isFile read mainDexFile
  refine ⟨after, mainAfter, returned, same, ?_, fun other => ?_⟩
  · intro other here
    rw [List.mem_singleton.mp here]
    exact ⟨content, buffer, isFile, read⟩
  · rw [found]
    by_cases here : other = name
    · rw [if_pos here, if_pos (List.mem_singleton.mpr here), here, isFile]
      simp only [encryptedEntry, dex, read]
    · rw [if_neg here, if_neg (by simpa using here)]

section Fold

variable {names : List Name}

theorem Located.of_encryptFold {files : FileSystem Bytes}
    (nodup : names.Nodup) (plain : ∀ name ∈ names, Plain name)
    (dex : ∀ name ∈ names, endsWithDex name = true)
    (located : Located workingDirectory dir path files)
    {mainDexFile mainAfter : Option File} {after : FileSystem Bytes}
    (returned : (names.map dir.child).foldlM
      (Reinforce.encryptDex platform workingDirectory)
      (files, mainDexFile) = .ok (after, mainAfter)) :
    Encrypted platform path names files after := by
  induction names generalizing files mainDexFile with
  | nil =>
      cases returned
      exact Encrypted.nil platform path after
  | cons name rest inductionHypothesis =>
      rw [List.nodup_cons] at nodup
      rw [List.map_cons, List.foldlM_cons, except_bind_eq_ok] at returned
      obtain ⟨state, atFirst, atRest⟩ := returned
      have plainHere := plain name List.mem_cons_self
      obtain ⟨content, buffer, isFile, read⟩ :=
        located.of_encryptDex platform plainHere atFirst
      obtain ⟨middle, mainMiddle, isMiddle, first⟩ :=
        located.encrypted_singleton plainHere (dex name List.mem_cons_self)
          isFile read mainDexFile
      rw [atFirst] at isMiddle
      cases isMiddle
      have later := inductionHypothesis nodup.2
        (fun other inRest => plain other (List.mem_cons_of_mem name inRest))
        (fun other inRest => dex other (List.mem_cons_of_mem name inRest))
        (located.of_same first.same) atRest
      exact first.cons later nodup.1

theorem Located.exists_encryptFold (nodup : names.Nodup)
    (plain : ∀ name ∈ names, Plain name)
    (dex : ∀ name ∈ names, endsWithDex name = true)
    (located : Located workingDirectory dir path files)
    (readable : ∀ name ∈ names, ∃ content buffer,
      files.find (path ++ [name]) = some (.file content) ∧
        readFully content = .ok buffer) (mainDexFile : Option File) :
    ∃ after mainAfter, (names.map dir.child).foldlM
      (Reinforce.encryptDex platform workingDirectory)
      (files, mainDexFile) = .ok (after, mainAfter) := by
  induction names generalizing files mainDexFile with
  | nil => exact ⟨files, mainDexFile, rfl⟩
  | cons name rest inductionHypothesis =>
      rw [List.nodup_cons] at nodup
      obtain ⟨content, buffer, isFile, read⟩ :=
        readable name List.mem_cons_self
      obtain ⟨middle, mainMiddle, isMiddle, first⟩ :=
        @Located.encrypted_singleton _ _ _ _ platform located name
          (plain name List.mem_cons_self) (dex name List.mem_cons_self)
          _ _ isFile read mainDexFile
      have readableLater : ∀ other ∈ rest, ∃ content buffer,
          middle.find (path ++ [other]) = some (.file content) ∧
            readFully content = .ok buffer := by
        intro other inRest
        have isOther : other ∉ [name] := by
          rw [List.mem_singleton]
          exact fun here => nodup.1 (here ▸ inRest)
        rw [first.find, if_neg isOther]
        exact readable other (List.mem_cons_of_mem name inRest)
      obtain ⟨after, mainAfter, atRest⟩ := inductionHypothesis nodup.2
        (fun other inRest => plain other (List.mem_cons_of_mem name inRest))
        (fun other inRest => dex other (List.mem_cons_of_mem name inRest))
        (located.of_same first.same) readableLater mainMiddle
      refine ⟨after, mainAfter, ?_⟩
      rw [List.map_cons, List.foldlM_cons, isMiddle]
      exact atRest

end Fold

/-- The files that the loop of `encryptAPKFile` goes through. -/
theorem filter_listed :
    (((order.names files path).map dir.child).filter fun file =>
        endsWithDex file.getName) =
      ((order.names files path).filter endsWithDex).map dir.child := by
  rw [List.filter_map]
  refine congrArg (List.map dir.child) (List.filter_congr ?_)
  intro name isListed
  rw [Function.comp_apply, getName_child (plain_of_listed isListed)]

theorem Encrypted.folder {platform : Platform} {after : FileSystem Bytes}
    (encrypted : Encrypted platform path
      ((order.names files path).filter endsWithDex) files after) :
    folderAt after path = encryptedFolder platform (folderAt files path) := by
  funext name
  show after.find (path ++ [name]) =
    encryptedEntry platform name (files.find (path ++ [name]))
  rw [encrypted.find]
  split
  · rfl
  · next isOther =>
      rw [List.mem_filter, mem_order, not_and_or, not_not] at isOther
      rcases isOther with missing | noDex
      · rw [missing]
        rfl
      · rw [Bool.not_eq_true] at noDex
        cases files.find (path ++ [name]) with
        | none => rfl
        | some entry => cases entry <;> simp [encryptedEntry, noDex]

/-- What `encryptAPKFile` has done when it returns. -/
theorem of_encryptAPKFile {srcAPKfile : File} {dstApkFile : Text}
    (below : Below workingDirectory dstApkFile path)
    {after : FileSystem Bytes} {mainDexFile : Option File}
    (returned : encryptAPKFile platform order workingDirectory srcAPKfile
      dstApkFile files = .ok (after, mainDexFile)) :
    let unzipped := unZip platform.streams workingDirectory srcAPKfile
      dstApkFile files
    Located workingDirectory (File.ofText dstApkFile) path unzipped ∧
      Encryptable (folderAt unzipped path) ∧
      SameButFolder path unzipped after ∧
      folderAt after path =
        encryptedFolder platform (folderAt unzipped path) := by
  rw [encryptAPKFile] at returned
  dsimp only at returned ⊢
  generalize unZip platform.streams workingDirectory srcAPKfile dstApkFile
    files = unzipped at returned ⊢
  cases isListed : listFiles order workingDirectory (File.ofText dstApkFile)
      unzipped with
  | none =>
      rw [isListed] at returned
      cases returned
  | some listed =>
      obtain ⟨isPlace, isDirectory⟩ :=
        directory_of_listFiles below.normalized isListed
      have located : Located workingDirectory (File.ofText dstApkFile) path
          unzipped :=
        ⟨below.relative, below.named, below.isPath, isDirectory⟩
      rw [listFiles_of_directory isPlace isDirectory] at returned
      dsimp only at returned
      rw [filter_listed] at returned
      have encrypted := Located.of_encryptFold
        (nodup_order.filter endsWithDex)
        (fun name inNames => plain_of_listed (List.mem_of_mem_filter inNames))
        (fun name inNames => (List.mem_filter.mp inNames).2) located returned
      refine ⟨located, fun name dex exists_ => ?_, encrypted.same,
        encrypted.folder⟩
      exact encrypted.readable name
        (List.mem_filter.mpr ⟨mem_order.mpr exists_, dex⟩)

/-- When `encryptAPKFile` returns. -/
theorem exists_encryptAPKFile {srcAPKfile : File} {dstApkFile : Text}
    (located : Located workingDirectory (File.ofText dstApkFile) path
      (unZip platform.streams workingDirectory srcAPKfile dstApkFile files))
    (encryptable : Encryptable (folderAt (unZip platform.streams
      workingDirectory srcAPKfile dstApkFile files) path)) :
    ∃ after mainDexFile, encryptAPKFile platform order workingDirectory
      srcAPKfile dstApkFile files = .ok (after, mainDexFile) := by
  rw [encryptAPKFile]
  generalize unZip platform.streams workingDirectory srcAPKfile dstApkFile
    files = unzipped at located encryptable ⊢
  rw [listFiles_of_directory located.isPlace located.isDirectory]
  dsimp only
  rw [filter_listed]
  refine Located.exists_encryptFold (nodup_order.filter endsWithDex)
    (fun name inNames => plain_of_listed (List.mem_of_mem_filter inNames))
    (fun name inNames => (List.mem_filter.mp inNames).2) located
    (fun name inNames => ?_) none
  obtain ⟨isListed, dex⟩ := List.mem_filter.mp inNames
  exact encryptable name dex (mem_order.mp isListed)

end Encrypting

/-! ## Renaming -/

/-- The new name of a dex file is one that a directory can hold. -/
theorem plain_target {name : Name} (plain : Plain name)
    (dex : endsWithDex name = true) : Plain (target name) := by
  obtain ⟨cursor, _, isNew⟩ := exists_newName dex
  have whole : target name = name.take cursor ++ '_' :: dexSuffix := by
    rw [target, isNew]
    rfl
  have long : 5 ≤ (target name).length := by
    rw [whole, List.length_append]
    simp [dexSuffix]
  refine ⟨fun empty => ?_, ?_, fun same => ?_, fun same => ?_⟩
  · rw [empty] at long
    simp at long
  · rw [whole, List.mem_append, not_or]
    exact ⟨fun slash => plain.2.1 (List.mem_of_mem_take slash), by decide⟩
  · rw [same] at long
    simp [dot] at long
  · rw [same] at long
    simp [dotDot] at long

theorem Located.getParentFile_child
    (located : Located workingDirectory dir path files) {name : Name}
    (plain : Plain name) : (dir.child name).getParentFile = some dir := by
  rw [File.child, plain.namesOf]
  exact File.getParentFile_concat name (Or.inr located.named)

/-- `file.getParent() + File.separator + newName` -/
theorem Located.ofText_sibling
    (located : Located workingDirectory dir path files) {name : Name}
    (plain : Plain name) (newName : Text) :
    File.ofText (getParent (dir.child name) ++ '/' :: newName) =
      dir.child newName := by
  have isNamed : Named dir.names := fun other inNames =>
    ⟨(located.plain other inNames).1, (located.plain other inNames).2.1⟩
  have readAgain := File.ofText_getPath isNamed
  have nonempty : dir.getPath ≠ [] := by
    intro empty
    rw [empty] at readAgain
    exact located.named (by rw [← readAgain]; rfl)
  rw [getParent, located.getParentFile_child plain,
    File.ofText_join nonempty, readAgain]

section Renaming

variable (platform : Platform)

theorem Located.renameDexFile
    (located : Located workingDirectory dir path files) {name : Name}
    (plain : Plain name) :
    ∃ after, Reinforce.renameDexFile platform workingDirectory files
        (dir.child name) = .ok after ∧
      SameButFolder path files after ∧
      folderAt after path = (folderAt files path).renameFile
        platform.replaces endsWithDex target name := by
  rw [Reinforce.renameDexFile, located.entryOf_child plain, Folder.renameFile]
  cases found : files.find (path ++ [name]) with
  | none =>
      have missing : folderAt files path name = none := found
      rw [missing]
      exact ⟨files, rfl, SameButFolder.refl _ _, rfl⟩
  | some entry =>
      cases entry with
      | directory =>
          have isDirectory : folderAt files path name = some .directory :=
            found
          rw [isDirectory]
          exact ⟨files, rfl, SameButFolder.refl _ _, rfl⟩
      | file content =>
          have isFile : folderAt files path name = some (.file content) :=
            found
          simp only [isFile, getName_child plain]
          by_cases dex : endsWithDex name = true
          · obtain ⟨cursor, _, isNew⟩ := exists_newName dex
            have isTarget : target name =
                name.take cursor ++ '_' :: dexSuffix := by
              rw [target, isNew]
              rfl
            have plainTarget := plain_target plain dex
            simp only [if_pos dex, isNew, ← isTarget,
              located.ofText_sibling plain]
            obtain ⟨renamed, same⟩ := find_renameFile_child
              located.isDirectory ⟨content, found⟩ plainTarget
            refine ⟨_, rfl, ?_, ?_⟩
            · simp only [renameTo,
                place_child located.isPlace located.isDirectory plain,
                place_child located.isPlace located.isDirectory plainTarget]
              exact same
            · simp only [renameTo,
                place_child located.isPlace located.isDirectory plain,
                place_child located.isPlace located.isDirectory plainTarget]
              exact renamed
          · simp only [if_neg dex]
            exact ⟨files, rfl, SameButFolder.refl _ _, rfl⟩

theorem Located.renameFold {files : FileSystem Bytes} {names : List Name}
    (plain : ∀ name ∈ names, Plain name)
    (located : Located workingDirectory dir path files) :
    ∃ after, (names.map dir.child).foldlM
        (Reinforce.renameDexFile platform workingDirectory) files =
          .ok after ∧
      SameButFolder path files after ∧
      folderAt after path = (folderAt files path).renameFiles
        platform.replaces endsWithDex target names := by
  induction names generalizing files with
  | nil => exact ⟨files, rfl, SameButFolder.refl _ _, rfl⟩
  | cons name rest inductionHypothesis =>
      obtain ⟨middle, atFirst, same, folder⟩ :=
        located.renameDexFile platform (plain name List.mem_cons_self)
      obtain ⟨after, atRest, sameLater, folderLater⟩ := inductionHypothesis
        (fun other inRest => plain other (List.mem_cons_of_mem name inRest))
        (located.of_same same)
      refine ⟨after, ?_, same.trans sameLater, ?_⟩
      · rw [List.map_cons, List.foldlM_cons, atFirst]
        exact atRest
      · rw [folderLater, folder]
        rfl

/-- Spec lemma of the second loop: it renames the files of the folder. -/
theorem Located.renameDexFiles
    (located : Located workingDirectory dir path files) :
    ∃ after, Reinforce.renameDexFiles platform order workingDirectory dir
        files = .ok after ∧
      SameButFolder path files after ∧
      folderAt after path = (folderAt files path).renameFiles
        platform.replaces endsWithDex target (order.names files path) := by
  rw [Reinforce.renameDexFiles,
    listFiles_of_directory located.isPlace located.isDirectory]
  exact located.renameFold platform fun name isListed =>
    plain_of_listed isListed

end Renaming

end Loops

end DripStone.Reinforce
