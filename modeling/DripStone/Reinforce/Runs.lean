import DripStone.Reinforce.ShellDex
import DripStone.Unzip.ZipTwice

/-!
# The runs of the pipeline

What the temporary directories hold after each step, from what earlier runs
have left in them.
-/

namespace DripStone.Reinforce

open DripStone.Library DripStone.Unzip

/-! ## The paths -/

section Paths

variable (workingDirectory : Path)

def apkTemp : Path := workingDirectory ++ tempFileApk.names

def aarTemp : Path := workingDirectory ++ tempFileAar.names

def unsignedPath : Path := workingDirectory ++ unsignedApk.names

def signedPath : Path := workingDirectory ++ signedApk.names

/-- `security/result` -/
def resultFolder : File := ⟨false, ["security".toList, "result".toList]⟩

def resultPath : Path := workingDirectory ++ resultFolder.names

theorem normalized_resultFolder :
    resultFolder.normalized workingDirectory = resultPath workingDirectory :=
  normalize_of_plain (by decide) workingDirectory

end Paths

theorem getParentFile_unsignedApk :
    unsignedApk.getParentFile = some resultFolder := by decide

theorem ofText_newApkFile : File.ofText newApkFile = tempFileApk := by decide

theorem ofText_fakeDex :
    File.ofText (fakeDexOf aarFile) = tempFileAar := by decide

/-- A project with an application and a shell.  The temporary directories
may be there and hold anything. -/
structure Project (streams : ZipStreams) (workingDirectory : Path)
    (apk aar : List ZipEntry) (files : FileSystem Bytes) : Prop where
  apk : ∃ content, files.find (workingDirectory ++ apkFile.names) =
    some (.file content) ∧ streams.zipEntries content = apk
  aar : ∃ content, files.find (workingDirectory ++ aarFile.names) =
    some (.file content) ∧ streams.zipEntries content = aar
  noApkFile : ∀ content,
    files.find (apkTemp workingDirectory) ≠ some (.file content)
  noAarFile : ∀ content,
    files.find (aarTemp workingDirectory) ≠ some (.file content)
  result : ∀ content,
    files.find (resultPath workingDirectory) ≠ some (.file content)
  unsigned : files.find (unsignedPath workingDirectory) ≠ some .directory
  signed : files.find (signedPath workingDirectory) ≠ some .directory

/-- Paths that part below the working directory. -/
theorem ne_of_apart {workingDirectory : Path} {first second : List Name}
    (one : ¬first <+: second) (other : ¬second <+: first)
    (rest more : List Name) :
    workingDirectory ++ first ++ rest ≠
      workingDirectory ++ second ++ more := by
  intro same
  have comparable := List.prefix_or_prefix_of_prefix
    (List.prefix_append (workingDirectory ++ first) rest)
    (same ▸ List.prefix_append (workingDirectory ++ second) more)
  simp only [List.prefix_append_right_inj] at comparable
  rcases comparable with above | below
  · exact one above
  · exact other below

theorem not_prefix_of_apart {workingDirectory : Path}
    {first second : List Name} (one : ¬first <+: second)
    (other : ¬second <+: first) (rest : List Name) :
    ¬workingDirectory ++ first <+: workingDirectory ++ second ++ rest := by
  rintro ⟨more, same⟩
  exact ne_of_apart one other more rest same

section Apart

variable {workingDirectory : Path}

theorem aarTemp_ne_apkTemp (rest more : List Name) :
    aarTemp workingDirectory ++ rest ≠ apkTemp workingDirectory ++ more :=
  ne_of_apart (by decide) (by decide) rest more

theorem not_apkTemp_prefix_aarTemp (rest : List Name) :
    ¬apkTemp workingDirectory <+: aarTemp workingDirectory ++ rest :=
  not_prefix_of_apart (by decide) (by decide) rest

theorem not_aarTemp_prefix_apkTemp (rest : List Name) :
    ¬aarTemp workingDirectory <+: apkTemp workingDirectory ++ rest :=
  not_prefix_of_apart (by decide) (by decide) rest

end Apart

section Project

variable {streams : ZipStreams} {workingDirectory : Path}
variable {apk aar : List ZipEntry} {files : FileSystem Bytes}

theorem Project.plain (project : Project streams workingDirectory apk aar
    files) : ∀ name ∈ workingDirectory, Plain name := by
  obtain ⟨content, isFile, _⟩ := project.apk
  have exists_ : files.find (workingDirectory ++ apkFile.names) ≠ none := by
    simp [isFile]
  exact fun name inside =>
    files.plain _ exists_ name (List.mem_append_left _ inside)

theorem Project.below_apk
    (project : Project streams workingDirectory apk aar files) :
    Below workingDirectory newApkFile (apkTemp workingDirectory)
    where
  relative := by decide
  named := by decide
  plain := by
    have plainNames : ∀ name ∈ tempFileApk.names, Plain name := by decide
    intro name inPath
    rcases List.mem_append.mp inPath with above | below
    · exact project.plain name above
    · exact plainNames name below
  isPath := by rw [ofText_newApkFile]; rfl

theorem Project.below_aar
    (project : Project streams workingDirectory apk aar files) :
    Below workingDirectory (fakeDexOf aarFile) (aarTemp workingDirectory) where
  relative := by decide
  named := by decide
  plain := by
    have plainNames : ∀ name ∈ tempFileAar.names, Plain name := by decide
    intro name inPath
    rcases List.mem_append.mp inPath with above | below
    · exact project.plain name above
    · exact plainNames name below
  isPath := by rw [ofText_fakeDex]; rfl

theorem dropLast_apkTemp :
    (apkTemp workingDirectory).dropLast =
      workingDirectory ++ apkFile.names.dropLast := by
  rw [apkTemp, List.dropLast_append_of_ne_nil (by decide)]
  exact congrArg (workingDirectory ++ ·) (by decide)

theorem dropLast_aarTemp :
    (aarTemp workingDirectory).dropLast =
      workingDirectory ++ aarFile.names.dropLast := by
  rw [aarTemp, List.dropLast_append_of_ne_nil (by decide)]
  exact congrArg (workingDirectory ++ ·) (by decide)

theorem find_dropLast {names : List Name} (named : names ≠ [])
    (exists_ : files.find (workingDirectory ++ names) ≠ none) :
    files.find (workingDirectory ++ names.dropLast) = some .directory := by
  rw [← List.dropLast_append_getLast named, ← List.append_assoc] at exists_
  exact files.find_of_append exists_ (List.cons_ne_nil _ _)

theorem Project.above_apk
    (project : Project streams workingDirectory apk aar files) :
    files.find (apkTemp workingDirectory).dropLast =
      some .directory := by
  obtain ⟨content, isFile, _⟩ := project.apk
  rw [dropLast_apkTemp]
  exact find_dropLast (by decide) (by simp [isFile])

end Project

/-! ## Before anything is unpacked -/

/-- The temporary directories, without the files at their tops. -/
structure Prepared (workingDirectory : Path)
    (files made : FileSystem Bytes) : Prop where
  directory : made.find (apkTemp workingDirectory) = some .directory
  apkLeft : ∀ names, names ≠ [] →
    made.find (apkTemp workingDirectory ++ names) =
      leftover files (apkTemp workingDirectory) names
  aarLeft : ∀ names, names ≠ [] →
    made.find (aarTemp workingDirectory ++ names) =
      leftover files (aarTemp workingDirectory) names
  aarHere : made.find (aarTemp workingDirectory) =
    files.find (aarTemp workingDirectory)
  elsewhere : ∀ other, ¬apkTemp workingDirectory <+: other →
    ¬aarTemp workingDirectory <+: other →
      made.find other = files.find other

section Runs

variable (platform : Platform) (order : ListingOrder)
variable (workingDirectory : Path)

/-- `main`, from the unpacking on. -/
def fromUnpacking (files : FileSystem Bytes) :
    Except Thrown (FileSystem Bytes) := do
  let (files, _) ←
    encryptAPKFile platform order workingDirectory apkFile newApkFile files
  let files ←
    renameDexFiles platform order workingDirectory (File.ofText newApkFile)
      files
  let (files, aarDex) ← jar2Dex platform order workingDirectory aarFile files
  let files ← addShellDex workingDirectory aarDex files
  let files ← resultOf (mkdirsOfParent workingDirectory unsignedApk files)
  let files ←
    (zip platform.streams workingDirectory (File.ofText newApkFile)
      unsignedApk files).mapError .failure
  signature platform workingDirectory unsignedApk signedApk files

variable {platform order workingDirectory}
variable {apk aar : List ZipEntry} {files : FileSystem Bytes}

theorem leftover_of_same {path : Path} {before after : FileSystem Bytes}
    (same : SameButFolder path before after)
    (atFolder : ∀ name, after.find (path ++ [name]) =
      leftover before path [name]) {names : List Name} (named : names ≠ []) :
    after.find (path ++ names) = leftover before path names := by
  by_cases atTop : ∃ name, names = [name]
  · obtain ⟨name, rfl⟩ := atTop
    exact atFolder name
  · have long : names.length ≠ 1 := fun one =>
      atTop (List.length_eq_one_iff.mp one)
    rw [leftover, if_neg long]
    apply same
    intro name here
    exact atTop ⟨name, List.append_cancel_left here⟩

/-- The steps in front of the unpacking. -/
theorem Project.prepared
    (project : Project platform.streams workingDirectory apk aar files) :
    ∃ made, main platform order workingDirectory files =
        fromUnpacking platform order workingDirectory made ∧
      Prepared workingDirectory files made := by
  obtain ⟨cleanApk, isCleanApk, sameApk, atApk⟩ :=
    @deleteFiles_eq_ok workingDirectory (apkTemp workingDirectory)
      tempFileApk files order (by decide) rfl project.below_apk.plain
      project.noApkFile
  have atAar : ∀ rest, cleanApk.find
      (aarTemp workingDirectory ++ rest) =
        files.find (aarTemp workingDirectory ++ rest) :=
    fun rest => sameApk _ fun name => aarTemp_ne_apkTemp rest [name]
  obtain ⟨cleanAar, isCleanAar, sameAar, foundAar⟩ :=
    @deleteFiles_eq_ok workingDirectory (aarTemp workingDirectory)
      tempFileAar cleanApk order (by decide) rfl project.below_aar.plain
      (by
        have here := atAar []
        rw [List.append_nil] at here
        rw [here]
        exact project.noAarFile)
  have atApkToo : ∀ rest, cleanAar.find (apkTemp workingDirectory ++ rest) =
      cleanApk.find (apkTemp workingDirectory ++ rest) :=
    fun rest => sameAar _ fun name => (aarTemp_ne_apkTemp [name] rest).symm
  have atApkRoot := (atApkToo []).trans (sameApk _ fun name here => by
    simp at here)
  rw [List.append_nil] at atApkRoot
  have elsewhere : ∀ other, ¬apkTemp workingDirectory <+: other →
      ¬aarTemp workingDirectory <+: other →
        cleanAar.find other = files.find other :=
    fun other outsideApk outsideAar =>
      (sameAar.outside outsideAar).trans (sameApk.outside outsideApk)
  -- the directory is made where it is missing
  have site := project.below_apk.site
    (by
      rw [elsewhere _ ?_ ?_]
      · exact project.above_apk
      · intro longer
        have lengths := longer.length_le
        have positive := List.length_pos_iff.mpr project.below_apk.ne_nil
        rw [List.length_dropLast] at lengths
        omega
      · intro above
        refine not_aarTemp_prefix_apkTemp [] (above.trans ?_)
        rw [List.append_nil]
        exact List.dropLast_prefix _)
    (by rw [atApkRoot]; exact project.noApkFile)
  have made := find_mkdirs_call project.below_apk.normalized
    project.below_apk.plain site.unblocked
  have same : ∀ other, other ≠ apkTemp workingDirectory →
      (mkdirs workingDirectory (File.ofText newApkFile)
        cleanAar).files.find other = cleanAar.find other := by
    intro other isOther
    rw [made]
    split
    · next isAbove =>
        obtain ⟨rest, isDropLast⟩ := prefix_of_proper isAbove isOther
        have above := site.above
        rw [← isDropLast] at above
        exact (cleanAar.directory_of_append above).symm
    · rfl
  refine ⟨(mkdirs workingDirectory (File.ofText newApkFile) cleanAar).files,
    ?_, ?_, ?_, ?_, ?_, ?_⟩
  · rw [main, isCleanApk]
    show (deleteFiles order workingDirectory tempFileAar cleanApk >>= _) = _
    rw [isCleanAar]
    rfl
  · rw [made, if_pos List.prefix_rfl]
  · intro names named
    rw [same _ (by simpa using named), atApkToo]
    exact leftover_of_same sameApk atApk named
  · intro names named
    rw [same _ (by
      have apart := @aarTemp_ne_apkTemp workingDirectory names []
      rwa [List.append_nil] at apart)]
    rw [leftover_of_same sameAar foundAar named, leftover, leftover, atAar]
  · have apart := @aarTemp_ne_apkTemp workingDirectory [] []
    rw [List.append_nil, List.append_nil] at apart
    have here := atAar []
    rw [List.append_nil] at here
    rw [same _ apart, ← here]
    exact sameAar _ fun name here => by simp at here
  · intro other outsideApk outsideAar
    rw [same _ (by rintro rfl; exact outsideApk List.prefix_rfl)]
    exact elsewhere other outsideApk outsideAar

/-! ## Calls whatever the files are -/

theorem keeps_loop {body : ZipEntry → FileSystem Bytes → Outcome}
    (keeps : ∀ zipEntry files, Keeps files (body zipEntry files).files)
    (extraction : Extraction) (zipEntries : List ZipEntry) :
    Keeps extraction.files
      ((Unzip.loop body).run extraction zipEntries).files := by
  induction zipEntries using List.reverseRecOn with
  | nil => exact Keeps.refl _
  | append_singleton initial zipEntry inductionHypothesis =>
      rw [Mealy.run_concat, loop_step]
      split
      · exact inductionHypothesis.trans (keeps zipEntry _)
      · exact inductionHypothesis

theorem find_deleteDir {file : File} {other : Path}
    (isOther : other ≠ file.normalized workingDirectory) :
    (deleteDir workingDirectory file files).find other =
      files.find other := by
  rw [deleteDir]
  cases isPlace : place workingDirectory file files with
  | none => rfl
  | some path =>
      have isPath : file.normalized workingDirectory = path :=
        FileSystem.normalize_of_resolve isPlace
      dsimp only
      split
      · rw [FileSystem.find_delete, if_neg]
        exact fun both => isOther (both.2.trans isPath.symm)
      · rfl

/-- Only the destination itself can go away. -/
theorem keeps_unZip {pathname : Text} {zip : File} {path : Path}
    (isOther : path ≠ (File.ofText pathname).normalized workingDirectory)
    (isDirectory : files.find path = some .directory) :
    (unZip platform.streams workingDirectory zip pathname files).find path =
      some .directory := by
  have kept : (deleteDir workingDirectory (File.ofText pathname) files).find
      path = some .directory := (find_deleteDir isOther).trans isDirectory
  rw [unZip]
  dsimp only [Extractor.prepare, Outcome.unchanged]
  split
  · exact keeps_loop (fun zipEntry files => keeps_atEntry .unZip pathname
      zipEntry) _ _ path kept
  · exact kept

theorem of_writeArchive {file : File} {content : Bytes}
    {written : FileSystem Bytes}
    (succeeded : writeArchive workingDirectory files file content =
      .ok written) (other : Path) :
    written.find other =
      if other = file.normalized workingDirectory then some (.file content)
      else files.find other := by
  rw [writeArchive] at succeeded
  cases isPlace : place workingDirectory file files with
  | none =>
      rw [isPlace] at succeeded
      cases succeeded
  | some path =>
      have isPath : file.normalized workingDirectory = path :=
        FileSystem.normalize_of_resolve isPlace
      simp only [isPlace] at succeeded
      cases atWrite : files.write path content with
      | none =>
          rw [atWrite] at succeeded
          cases succeeded
      | some after =>
          rw [atWrite] at succeeded
          cases succeeded
          obtain ⟨isOpen, rfl⟩ := FileSystem.write_eq_some_iff.mp atWrite
          rw [isPath]
          exact FileSystem.find_put files path _ isOpen other

theorem of_signature {unsigned signed : File} {after : FileSystem Bytes}
    (returned : signature platform workingDirectory unsigned signed files =
      .ok after) {other : Path}
    (isOther : other ≠ signed.normalized workingDirectory) :
    after.find other = files.find other := by
  rw [signature] at returned
  split at returned
  · split at returned
    · next succeeded =>
        cases returned
        rw [of_writeArchive succeeded, if_neg isOther]
    · cases returned
  · cases returned

theorem mapError_eq_ok {α : Type} {first : Except Unzip.Failure α}
    {value : α} (returned : first.mapError Thrown.failure = .ok value) :
    first = .ok value := by
  cases first with
  | error failure => cases returned
  | ok other =>
      cases returned
      rfl

theorem of_resultOf {outcome : Outcome} {after : FileSystem Bytes}
    (returned : resultOf outcome = .ok after) : after = outcome.files := by
  rw [resultOf] at returned
  split at returned
  · cases returned
  · cases returned
    rfl

/-- The directory of the new archive is made, and nothing else. -/
theorem find_mkdirsOfParent_cases (other : Path) :
    let made := (mkdirsOfParent workingDirectory unsignedApk files).files
    made.find other = files.find other ∨
      other <+: resultPath workingDirectory ∧ files.find other = none ∧
        made.find other = some .directory := by
  simp only [mkdirsOfParent, getParentFile_unsignedApk, mkdirs]
  split
  · exact Or.inl rfl
  · rw [normalized_resultFolder]
    exact files.find_mkdirs_cases _ other

/-! ## What a run has done -/

variable {made after : FileSystem Bytes}

/-- The archive that is packed from a directory and then signed. -/
theorem of_packing (reproduce : platform.streams.Reproduce)
    (project : Project platform.streams workingDirectory apk aar files)
    {added ready zipped : FileSystem Bytes}
    (isDirectory : added.find (apkTemp workingDirectory) = some .directory)
    (isReady : resultOf (mkdirsOfParent workingDirectory unsignedApk added) =
      .ok ready)
    (isZipped : zip platform.streams workingDirectory
      (File.ofText newApkFile) unsignedApk ready = .ok zipped)
    (isSigned : signature platform workingDirectory unsignedApk signedApk
      zipped = .ok after) {zipEntry : ZipEntry}
    (noDirectory : zipEntry.isDirectory = false) :
    zipEntry ∈ archived platform.streams after
        (unsignedPath workingDirectory) ↔
      ∃ names content,
        added.find (apkTemp workingDirectory ++ names) =
            some (.file content) ∧
          zipEntry = ⟨textOf names, content⟩ := by
  have plainUnsigned : ∀ name ∈ unsignedApk.names, Plain name := by decide
  have isUnsigned : unsignedApk.normalized workingDirectory =
      unsignedPath workingDirectory :=
    normalize_of_plain plainUnsigned workingDirectory
  have plainSigned : ∀ name ∈ signedApk.names, Plain name := by decide
  have isSignedPath : signedApk.normalized workingDirectory =
      signedPath workingDirectory :=
    normalize_of_plain plainSigned workingDirectory
  have inTree : ∀ names, (deleteDir workingDirectory unsignedApk ready).find
      (apkTemp workingDirectory ++ names) =
        added.find (apkTemp workingDirectory ++ names) := by
    intro names
    rw [find_deleteDir, of_resultOf isReady]
    · rcases find_mkdirsOfParent_cases (apkTemp workingDirectory ++ names)
        with same | ⟨isAbove, _⟩
      · exact same
      · have above := (List.prefix_append _ names).trans isAbove
        rw [apkTemp, resultPath, List.prefix_append_right_inj] at above
        exact absurd above (by decide)
    · rw [isUnsigned]
      have apart := @ne_of_apart workingDirectory tempFileApk.names
        unsignedApk.names (by decide) (by decide) names []
      rwa [List.append_nil] at apart
  have atRoot := (inTree []).trans (by rw [List.append_nil, isDirectory])
  rw [List.append_nil] at atRoot
  obtain ⟨zipPath, isPlace, isOpen⟩ := open_of_zip isZipped
  have isZipPath : zipPath = unsignedPath workingDirectory :=
    (FileSystem.normalize_of_resolve isPlace).symm.trans isUnsigned
  rw [isZipPath] at isPlace isOpen
  have outside : ¬apkTemp workingDirectory <+:
      unsignedPath workingDirectory := by
    rw [apkTemp, unsignedPath, List.prefix_append_right_inj]
    decide
  obtain ⟨written, leaves, isWritten, isLeaves, _, isArchive, _⟩ :=
    zip_leaves_of_deleted platform.streams rfl (noSlash_getName newApkFile)
      (project.below_apk.place_of_find (by simp [atRoot])) atRoot isPlace
      isOpen outside
  rw [isZipped] at isWritten
  cases isWritten
  have kept : after.find (unsignedPath workingDirectory) =
      zipped.find (unsignedPath workingDirectory) := by
    apply of_signature isSigned
    rw [isSignedPath, unsignedPath, signedPath, Ne,
      List.append_cancel_left_eq]
    decide
  rw [isArchive] at kept
  simp only [archived, kept, reproduce _]
  rw [isLeaves.mem_file_iff noDirectory]
  simp only [inTree]

/-- The states of a run that returns. -/
structure Ran (platform : Platform) (order : ListingOrder)
    (workingDirectory : Path) (unzipped encrypted renamed converted added
      after : FileSystem Bytes) : Prop where
  located : Located workingDirectory (File.ofText newApkFile)
    (apkTemp workingDirectory) unzipped
  encryptable : Encryptable (folderAt unzipped (apkTemp workingDirectory))
  encrypts : folderAt encrypted (apkTemp workingDirectory) =
    encryptedFolder platform (folderAt unzipped (apkTemp workingDirectory))
  renamesOnly :
    SameButFolder (apkTemp workingDirectory) unzipped renamed
  renames : folderAt renamed (apkTemp workingDirectory) =
    (folderAt encrypted (apkTemp workingDirectory)).renameFiles
      platform.replaces endsWithDex target
      (order.names encrypted (apkTemp workingDirectory))
  jar2Dex : ∃ aarDex,
    jar2Dex platform order workingDirectory aarFile renamed =
      .ok (converted, aarDex)
  addsOnly : SameButFolder (apkTemp workingDirectory) converted added
  adds : ∃ content buffer,
    converted.find (aarTemp workingDirectory ++ [classesDex]) =
        some (.file content) ∧
      readFully content = .ok buffer ∧
      ∀ name, added.find (apkTemp workingDirectory ++ [name]) =
        if name = classesDex then some (.file buffer)
        else converted.find (apkTemp workingDirectory ++ [name])
  directory : added.find (apkTemp workingDirectory) = some .directory
  packs : ∀ zipEntry : ZipEntry, zipEntry.isDirectory = false →
    (zipEntry ∈ archived platform.streams after
        (unsignedPath workingDirectory) ↔
      ∃ names content,
        added.find (apkTemp workingDirectory ++ names) =
            some (.file content) ∧
          zipEntry = ⟨textOf names, content⟩)

/-- What the conversion of the shell leaves. -/
theorem Project.of_converted
    (project : Project platform.streams workingDirectory apk aar files)
    {renamed converted : FileSystem Bytes} {aarDex : File}
    (located : Located workingDirectory (File.ofText newApkFile)
      (apkTemp workingDirectory) renamed)
    (isConverted : jar2Dex platform order workingDirectory aarFile renamed =
      .ok (converted, aarDex)) :
    aarDex = (File.ofText (fakeDexOf aarFile)).child classesDex ∧
      Located workingDirectory (File.ofText newApkFile)
        (apkTemp workingDirectory) converted ∧
      Located workingDirectory (File.ofText (fakeDexOf aarFile))
        (aarTemp workingDirectory) converted ∧
      ∃ content, converted.find (aarTemp workingDirectory ++ [classesDex]) =
        some (.file content) := by
  obtain ⟨shellLocated, isAarDex, _, sameConverted, _, _, _, isDex⟩ :=
    of_jar2Dex project.below_aar isConverted
  have isDirectory : converted.find (apkTemp workingDirectory) =
      some .directory := by
    rw [sameConverted]
    · apply keeps_unZip _ located.isDirectory
      have apart := @aarTemp_ne_apkTemp workingDirectory [] []
      rw [List.append_nil, List.append_nil] at apart
      rw [project.below_aar.normalized]
      exact apart.symm
    · intro name here
      have apart := @aarTemp_ne_apkTemp workingDirectory [name] []
      rw [List.append_nil] at apart
      exact apart here.symm
  exact ⟨isAarDex, { located with isDirectory := isDirectory },
    shellLocated.of_same sameConverted, _, isDex⟩

theorem Project.ran (reproduce : platform.streams.Reproduce)
    (project : Project platform.streams workingDirectory apk aar files)
    (returned : fromUnpacking platform order workingDirectory made =
      .ok after) :
    ∃ encrypted renamed converted added,
      Ran platform order workingDirectory
        (unZip platform.streams workingDirectory apkFile newApkFile made)
        encrypted renamed converted added after := by
  rw [fromUnpacking, except_bind_eq_ok] at returned
  obtain ⟨⟨encrypted, mainDexFile⟩, isEncrypted, returned⟩ := returned
  obtain ⟨located, encryptable, sameEncrypted, encrypts⟩ :=
    of_encryptAPKFile project.below_apk isEncrypted
  have locatedEncrypted := located.of_same sameEncrypted
  obtain ⟨renamed, isRenamed, sameRenamed, renames⟩ :=
    @Located.renameDexFiles order _ _ _ _ platform locatedEncrypted
  have locatedRenamed := locatedEncrypted.of_same sameRenamed
  dsimp only at returned
  rw [except_bind_eq_ok] at returned
  obtain ⟨again, isAgain, returned⟩ := returned
  rw [isRenamed] at isAgain
  cases isAgain
  rw [except_bind_eq_ok] at returned
  obtain ⟨⟨converted, aarDex⟩, isConverted, returned⟩ := returned
  obtain ⟨rfl, locatedConverted, shellConverted, content, isDex⟩ :=
    project.of_converted locatedRenamed isConverted
  have adds := addShellDex_iff locatedConverted shellConverted
    aarTemp_ne_apkTemp isDex
  dsimp only at returned
  rw [except_bind_eq_ok] at returned
  obtain ⟨added, isAdded, returned⟩ := returned
  obtain ⟨_, addsOnly, buffer, read, atFolder⟩ := adds.1 added isAdded
  rw [except_bind_eq_ok] at returned
  obtain ⟨ready, isReady, returned⟩ := returned
  rw [except_bind_eq_ok] at returned
  obtain ⟨zipped, isZipped, isSigned⟩ := returned
  exact ⟨encrypted, renamed, converted, added, {
    located := located
    encryptable := encryptable
    encrypts := encrypts
    renamesOnly := sameEncrypted.trans sameRenamed
    renames := renames
    jar2Dex := ⟨_, isConverted⟩
    addsOnly := addsOnly
    adds := ⟨_, buffer, isDex, read, atFolder⟩
    directory := addsOnly.directory locatedConverted.isDirectory
    packs := fun zipEntry => of_packing reproduce project
      (addsOnly.directory locatedConverted.isDirectory) isReady
      (mapError_eq_ok isZipped) isSigned }⟩

/-! ## From what is left -/

/-- The application is unpacked over what is left of earlier runs. -/
structure Start (workingDirectory : Path)
    (files made start : FileSystem Bytes) : Prop where
  site : Site workingDirectory newApkFile (apkTemp workingDirectory) start
  left : ∀ names, names ≠ [] →
    start.find (apkTemp workingDirectory ++ names) =
      leftover files (apkTemp workingDirectory) names
  directory_iff :
    start.find (apkTemp workingDirectory) = some .directory ↔
      ∃ name, leftover files (apkTemp workingDirectory) [name] ≠ none
  outside : ∀ other, ¬apkTemp workingDirectory <+: other →
    start.find other = made.find other

theorem Project.start
    (project : Project platform.streams workingDirectory apk aar files)
    (prepared : Prepared workingDirectory files made) :
    ∃ start, unZip platform.streams workingDirectory apkFile newApkFile made =
        (extract workingDirectory newApkFile start apk).files ∧
      Start workingDirectory files made start := by
  obtain ⟨content, isFile, rfl⟩ := project.apk
  have archive : made.find (workingDirectory ++ apkFile.names) =
      some (.file content) := by
    rw [prepared.elsewhere, isFile]
    · rw [apkTemp, List.prefix_append_right_inj]
      decide
    · rw [aarTemp, List.prefix_append_right_inj]
      decide
  have isDirectory := prepared.directory
  have above : made.find (apkTemp workingDirectory).dropLast =
      some .directory := by
    rw [dropLast_apkTemp]
    exact find_dropLast (by decide) (by simp [archive])
  obtain ⟨start, isUnzipped, site, same, directoryIff⟩ :=
    project.below_apk.unZip platform.streams (by decide) archive above
      (by simp [isDirectory])
  refine ⟨start, isUnzipped, site, fun names named => ?_, ?_,
    fun other isOutside => ?_⟩
  · rw [same _ (by simpa using named), prepared.apkLeft names named]
  · rw [directoryIff]
    refine exists_congr fun name => ?_
    rw [prepared.apkLeft _ (List.cons_ne_nil _ _)]
  · apply same
    rintro rfl
    exact isOutside List.prefix_rfl

/-- Nothing that is left is in the way of the shell's dex file. -/
structure ShellRoom (workingDirectory : Path) (files : FileSystem Bytes)
    (aar : List ZipEntry) : Prop where
  jar : ∀ zipEntry, UpToJar aar zipEntry →
    Room (leftover files (aarTemp workingDirectory)) (namesOf zipEntry.name)
  dex : leftover files (aarTemp workingDirectory) [classesDex] ≠
    some .directory

section Shell

variable {renamed : FileSystem Bytes} {shell : Bytes}

/-- The archive of the shell is unpacked over what is left. -/
theorem Project.shell_start
    (project : Project platform.streams workingDirectory apk aar files)
    (prepared : Prepared workingDirectory files made)
    (agree : ∀ other, ¬apkTemp workingDirectory <+: other →
      renamed.find other = made.find other) :
    ∃ start, unZip platform.streams workingDirectory aarFile
        (fakeDexOf aarFile) renamed =
          (extract workingDirectory (fakeDexOf aarFile) start aar).files ∧
      Site workingDirectory (fakeDexOf aarFile) (aarTemp workingDirectory)
        start ∧
      (∀ names, names ≠ [] →
        start.find (aarTemp workingDirectory ++ names) =
          leftover files (aarTemp workingDirectory) names) ∧
      ∀ other, ¬aarTemp workingDirectory <+: other →
        start.find other = renamed.find other := by
  have agreeBelow : ∀ names,
      renamed.find (aarTemp workingDirectory ++ names) =
        made.find (aarTemp workingDirectory ++ names) :=
    fun names => agree _ (not_apkTemp_prefix_aarTemp names)
  obtain ⟨content, isFile, rfl⟩ := project.aar
  have outsideApk : ¬apkTemp workingDirectory <+:
      workingDirectory ++ aarFile.names := by
    rw [apkTemp, List.prefix_append_right_inj]
    decide
  have archive : renamed.find (workingDirectory ++ aarFile.names) =
      some (.file content) := by
    rw [agree _ outsideApk, prepared.elsewhere _ outsideApk, isFile]
    rw [aarTemp, List.prefix_append_right_inj]
    decide
  have above : renamed.find (aarTemp workingDirectory).dropLast =
      some .directory := by
    rw [dropLast_aarTemp]
    exact find_dropLast (by decide) (by simp [archive])
  have noFile : ∀ content, renamed.find (aarTemp workingDirectory) ≠
      some (.file content) := by
    have here := agreeBelow []
    rw [List.append_nil] at here
    rw [here, prepared.aarHere]
    exact project.noAarFile
  obtain ⟨start, isUnzipped, site, same, _⟩ :=
    project.below_aar.unZip platform.streams (by decide) archive above noFile
  refine ⟨start, isUnzipped, site, fun names named => ?_,
    fun other isOutside => ?_⟩
  · rw [same _ (by simpa using named), agreeBelow,
      prepared.aarLeft names named]
  · apply same
    rintro rfl
    exact isOutside List.prefix_rfl

theorem leftover_ne_file (path : Path) (name : Name) (content : Bytes) :
    leftover files path [name] ≠ some (.file content) := by
  rw [leftover_singleton]
  rcases files.find (path ++ [name]) with _ | (_ | _) <;>
    simp [withoutFile]

/-- The shell is converted exactly if there is room for it. -/
theorem Project.shell_iff
    (project : Project platform.streams workingDirectory apk aar files)
    (archive : ShellArchive platform.dx aar shell)
    (prepared : Prepared workingDirectory files made)
    (agree : ∀ other, ¬apkTemp workingDirectory <+: other →
      renamed.find other = made.find other) :
    ((∃ converted aarDex, Reinforce.jar2Dex platform order workingDirectory
        aarFile renamed = .ok (converted, aarDex)) ↔
      ShellRoom workingDirectory files aar) ∧
    ∀ converted aarDex, Reinforce.jar2Dex platform order workingDirectory
        aarFile renamed = .ok (converted, aarDex) →
      converted.find (aarTemp workingDirectory ++ [classesDex]) =
        some (.file shell) ∧
      ∀ other, ¬aarTemp workingDirectory <+: other →
        converted.find other = renamed.find other := by
  obtain ⟨start, isUnzipped, site, left, outside⟩ :=
    project.shell_start prepared agree
  have noTopFile : ∀ name content,
      start.find (aarTemp workingDirectory ++ [name]) ≠
        some (.file content) := by
    intro name content
    rw [left _ (List.cons_ne_nil _ _)]
    exact leftover_ne_file _ name content
  have jarIff := archive.jar_iff site noTopFile
  have dexIff := archive.directory_iff site
  rw [left _ (List.cons_ne_nil _ _)] at dexIff
  have roomIff : (∀ zipEntry, UpToJar aar zipEntry →
      Unhindered start (aarTemp workingDirectory) (namesOf zipEntry.name)) ↔
        ∀ zipEntry, UpToJar aar zipEntry →
          Room (leftover files (aarTemp workingDirectory))
            (namesOf zipEntry.name) := by
    refine forall₂_congr fun zipEntry ⟨initial, rest, split, _⟩ => ?_
    have isKept : zipEntry ∈ keptOf aar := by simp [split]
    exact unhindered_iff_room site left (archive.down zipEntry isKept).1
  refine ⟨⟨?_, fun room => ?_⟩, fun converted aarDex returned => ?_⟩
  · rintro ⟨converted, aarDex, returned⟩
    obtain ⟨_, _, noDirectory, _, _, content, isJar, _⟩ :=
      of_jar2Dex project.below_aar returned
    rw [isUnzipped] at noDirectory isJar
    exact ⟨roomIff.mp (jarIff.mp ⟨content, isJar⟩),
      fun directory => noDirectory (dexIff.mpr directory)⟩
  · obtain ⟨content, isJar⟩ := jarIff.mpr (roomIff.mpr room.jar)
    have isDirectory := (extract workingDirectory (fakeDexOf aarFile) start
      aar).files.find_of_append (by rw [isJar]; simp)
        (List.cons_ne_nil jarName [])
    rw [← isUnzipped] at isJar isDirectory
    refine exists_jar2Dex ⟨project.below_aar.relative,
      project.below_aar.named, project.below_aar.isPath, isDirectory⟩ isJar ?_
    rw [isUnzipped]
    exact fun directory => room.dex (dexIff.mp directory)
  · obtain ⟨_, _, _, same, _, content, isJar, isDex⟩ :=
      of_jar2Dex project.below_aar returned
    rw [isUnzipped] at isJar same
    refine ⟨?_, fun other isOutside => ?_⟩
    · rw [isDex, archive.dx_eq site noTopFile isJar]
    · rw [same.outside isOutside,
        (grows_extract site archive.down).outside site isOutside,
        outside other isOutside]

end Shell

end Runs

end DripStone.Reinforce
