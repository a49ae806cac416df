import DripStone.Reinforce.Packing
import DripStone.Reinforce.Unmixed

/-!
# The law of the pipeline

Where nothing of earlier runs is in the way, a run returns and the unsigned
application is that of the application and the shell.
-/

namespace DripStone.Reinforce

open DripStone.Library DripStone.Unzip

section Laid

variable {platform : Platform} {order : ListingOrder}
variable {workingDirectory : Path}
variable {files made start unzipped encrypted after : FileSystem Bytes}
variable {apk aar : List ZipEntry} {shell buffer : Bytes}
variable {zipEntry : ZipEntry}

/-! ## To the unsigned application -/

section ToArchive

variable (unmixed : Unmixed workingDirectory files apk aar shell)
variable (started : Start workingDirectory files made start)

include unmixed

theorem Unmixed.leadsDown (isKept : zipEntry ∈ keptOf apk) :
    zipEntry.LeadsDown :=
  (unmixed.canonical zipEntry isKept).1

include started

theorem Unmixed.running :
    (extract workingDirectory newApkFile start apk).running = true := by
  refine (running_iff started.site fun _ => unmixed.leadsDown).mpr
    ⟨unmixed.apart, fun zipEntry isKept => ?_⟩
  exact (unhindered_iff_room started.site started.left
    (unmixed.leadsDown isKept).1).mpr (unmixed.room zipEntry isKept)

theorem Unmixed.unpacked :
    Unpacked (apkTemp workingDirectory) start (keptOf apk)
      (extract workingDirectory newApkFile start apk).files :=
  unpacked_of_running started.site (fun _ => unmixed.leadsDown)
    (unmixed.running started)

theorem Unmixed.directory :
    (extract workingDirectory newApkFile start apk).files.find
      (apkTemp workingDirectory) = some .directory := by
  rcases unmixed.nonempty with someKept | someLeft
  · obtain ⟨zipEntry, isKept⟩ := List.exists_mem_of_ne_nil _ someKept
    have directory := (unmixed.unpacked started).way zipEntry isKept []
      List.nil_prefix (unmixed.leadsDown isKept).1.symm
    rwa [List.append_nil] at directory
  · exact (grows_extract started.site fun _ => unmixed.leadsDown).keeps _
      (started.directory_iff.mpr someLeft)

/-- No directory at the top has the name of a dex file. -/
theorem Unmixed.noDirectory {name : Name} (dex : endsWithDex name = true) :
    (extract workingDirectory newApkFile start apk).files.find
      (apkTemp workingDirectory ++ [name]) ≠ some .directory := by
  intro directory
  rcases (unmixed.unpacked started).directory_cases directory with
    ⟨zipEntry, isKept, ⟨rest, isNames⟩, proper⟩ | earlier
  · cases rest with
    | nil => exact proper (by simpa using isNames)
    | cons second rest =>
        have noDex := unmixed.dexFolder zipEntry isKept name second rest
          isNames.symm
        rw [dex] at noDex
        cases noDex
  · rw [started.left _ (List.cons_ne_nil _ _)] at earlier
    have noDex := unmixed.dexLeft name earlier
    rw [dex] at noDex
    cases noDex

theorem Unmixed.encryptable :
    Encryptable (folderAt (extract workingDirectory newApkFile start
      apk).files (apkTemp workingDirectory)) := by
  intro name dex exists_
  cases found : folderAt (extract workingDirectory newApkFile start
      apk).files (apkTemp workingDirectory) name with
  | none => exact absurd found exists_
  | some entry =>
      cases entry with
      | directory => exact absurd found (unmixed.noDirectory started dex)
      | file content =>
          obtain ⟨zipEntry, isKept, isTop, _, isContent⟩ :=
            started.exists_entry (unmixed.unpacked started)
              unmixed.canonical found
          have top := ((unmixed.canonical zipEntry isKept).isTopDex_iff
            isTop).mpr dex
          rw [← isContent]
          exact ⟨_, _, rfl,
            readFully_of_short (unmixed.dexSize zipEntry isKept top)⟩

/-- The new name of a dex file is free. -/
theorem Unmixed.free (isKept : zipEntry ∈ keptOf apk)
    (top : IsTopDex zipEntry) :
    folderAt (extract workingDirectory newApkFile start apk).files
      (apkTemp workingDirectory) (storedName zipEntry.name) = none := by
  cases found : folderAt (extract workingDirectory newApkFile start
      apk).files (apkTemp workingDirectory) (storedName zipEntry.name) with
  | none => rfl
  | some entry =>
      cases entry with
      | directory =>
          exact absurd found (unmixed.noDirectory started
            (endsWithDex_storedName top.2))
      | file content =>
          obtain ⟨other, otherKept, _, isName, _⟩ :=
            started.exists_entry (unmixed.unpacked started)
              unmixed.canonical found
          exact absurd isName
            ((unmixed.dexName zipEntry isKept top).2 other otherKept)

/-- Each file is there with the content of its entry. -/
theorem Unmixed.found (isKept : zipEntry ∈ keptOf apk) :
    (extract workingDirectory newApkFile start apk).files.find
      (apkTemp workingDirectory ++ namesOf zipEntry.name) =
        some (.file zipEntry.content) := by
  obtain ⟨last, lastKept, sameNames, isFile⟩ :=
    (unmixed.unpacked started).file zipEntry isKept
  have sameName : last.name = zipEntry.name := by
    rw [← (unmixed.canonical last lastKept).2, sameNames,
      (unmixed.canonical zipEntry isKept).2]
  rwa [unmixed.distinct last lastKept zipEntry isKept sameName] at isFile

end ToArchive

/-! ## The run returns -/

/-- The loops over the unpacked application come to their ends. -/
theorem Project.exists_renamed
    (project : Project platform.streams workingDirectory apk aar files)
    (unmixed : Unmixed workingDirectory files apk aar shell)
    (prepared : Prepared workingDirectory files made) (order : ListingOrder) :
    ∃ encrypted mainDexFile renamed,
      encryptAPKFile platform order workingDirectory apkFile newApkFile made =
        .ok (encrypted, mainDexFile) ∧
      renameDexFiles platform order workingDirectory (File.ofText newApkFile)
        encrypted = .ok renamed ∧
      Located workingDirectory (File.ofText newApkFile)
        (apkTemp workingDirectory) renamed ∧
      renamed.find (apkTemp workingDirectory ++ [classesDex]) ≠
        some .directory ∧
      ∀ other, ¬apkTemp workingDirectory <+: other →
        renamed.find other = made.find other := by
  obtain ⟨start, isUnzipped, started⟩ := project.start prepared
  have outside : ∀ other, ¬apkTemp workingDirectory <+: other →
      (extract workingDirectory newApkFile start apk).files.find other =
        made.find other :=
    fun other => started.outside_unzipped fun _ => unmixed.leadsDown
  have noDirectory := unmixed.noDirectory started
    (show endsWithDex classesDex = true by decide)
  have encryptable := unmixed.encryptable started
  have isDirectory := unmixed.directory started
  rw [← isUnzipped] at outside noDirectory encryptable isDirectory
  have located : Located workingDirectory (File.ofText newApkFile)
      (apkTemp workingDirectory)
      (unZip platform.streams workingDirectory apkFile newApkFile made) :=
    ⟨project.below_apk.relative, project.below_apk.named,
      project.below_apk.isPath, isDirectory⟩
  obtain ⟨encrypted, mainDexFile, isEncrypted⟩ :=
    @exists_encryptAPKFile order _ _ _ platform _ _ located encryptable
  obtain ⟨_, _, sameEncrypted, encrypts⟩ :=
    of_encryptAPKFile project.below_apk isEncrypted
  have locatedEncrypted := located.of_same sameEncrypted
  obtain ⟨renamed, isRenamed, sameRenamed, renames⟩ :=
    @Located.renameDexFiles order _ _ _ _ platform locatedEncrypted
  refine ⟨encrypted, mainDexFile, renamed, isEncrypted, isRenamed,
    locatedEncrypted.of_same sameRenamed, fun directory => noDirectory ?_,
    fun other isOutside => ?_⟩
  · have here : folderAt renamed (apkTemp workingDirectory) classesDex =
        some .directory := directory
    rw [renames, Folder.renameFiles_directory, encrypts,
      encryptedFolder_directory] at here
    exact here
  · rw [(sameEncrypted.trans sameRenamed).outside isOutside,
      outside other isOutside]

/-- The dex file of the shell is put beside the others. -/
theorem Project.exists_added
    (project : Project platform.streams workingDirectory apk aar files)
    (archive : ShellArchive platform.dx aar shell)
    (unmixed : Unmixed workingDirectory files apk aar shell)
    (prepared : Prepared workingDirectory files made) (order : ListingOrder)
    {renamed : FileSystem Bytes}
    (located : Located workingDirectory (File.ofText newApkFile)
      (apkTemp workingDirectory) renamed)
    (noDirectory : renamed.find (apkTemp workingDirectory ++ [classesDex]) ≠
      some .directory)
    (outside : ∀ other, ¬apkTemp workingDirectory <+: other →
      renamed.find other = made.find other) :
    ∃ converted aarDex added,
      jar2Dex platform order workingDirectory aarFile renamed =
        .ok (converted, aarDex) ∧
      addShellDex workingDirectory aarDex converted = .ok added ∧
      added.find (apkTemp workingDirectory) = some .directory ∧
      AgreeOutside workingDirectory files added := by
  obtain ⟨shellIff, shellOf⟩ :=
    @Project.shell_iff platform order _ _ _ _ _ _ _ project archive prepared
      outside
  obtain ⟨converted, aarDex, isConverted⟩ := shellIff.mpr unmixed.shellRoom
  obtain ⟨isShell, agree⟩ := shellOf converted aarDex isConverted
  obtain ⟨rfl, locatedConverted, shellConverted, _⟩ :=
    project.of_converted located isConverted
  have adds := addShellDex_iff locatedConverted shellConverted
    aarTemp_ne_apkTemp isShell
  rw [agree _ (not_aarTemp_prefix_apkTemp [classesDex])] at adds
  obtain ⟨added, isAdded⟩ := adds.2 noDirectory shell
    (readFully_of_short unmixed.shellSize)
  obtain ⟨_, addsOnly, _⟩ := adds.1 added isAdded
  refine ⟨converted, _, added, isConverted, isAdded,
    addsOnly.directory locatedConverted.isDirectory,
    fun other outsideApk outsideAar => ?_⟩
  rw [addsOnly.outside outsideApk, agree other outsideAar,
    outside other outsideApk,
    prepared.elsewhere other outsideApk outsideAar]

/-- The run returns, in whatever order directories are listed. -/
theorem Project.returns
    (project : Project platform.streams workingDirectory apk aar files)
    (archive : ShellArchive platform.dx aar shell)
    (unmixed : Unmixed workingDirectory files apk aar shell)
    (order : ListingOrder) :
    ∃ after, main platform order workingDirectory files = .ok after := by
  obtain ⟨made, isMain, prepared⟩ :=
    @Project.prepared platform order _ _ _ _ project
  obtain ⟨encrypted, mainDexFile, renamed, isEncrypted, isRenamed, located,
    noDirectory, outside⟩ := project.exists_renamed unmixed prepared order
  obtain ⟨converted, aarDex, added, isConverted, isAdded, isDirectory,
    agree⟩ := project.exists_added archive unmixed prepared order located
      noDirectory outside
  obtain ⟨ready, isReady, atResult, same⟩ := project.exists_ready agree
  have apart : ∀ names : List Name, ¬names <+: resultFolder.names →
      ready.find (workingDirectory ++ names) =
        added.find (workingDirectory ++ names) := by
    intro names notAbove
    apply same
    rw [resultPath, List.prefix_append_right_inj]
    exact notAbove
  obtain ⟨zipped, after, isZipped, isSigned⟩ := @exists_signed platform _ ready
    project.below_apk
    (by rw [apkTemp, apart _ (by decide)]; exact isDirectory) atResult
    (by
      rw [unsignedPath, apart _ (by decide),
        agree.at_names (by decide) (by decide)]
      exact project.unsigned)
    (by
      rw [signedPath, apart _ (by decide),
        agree.at_names (by decide) (by decide)]
      exact project.signed)
  refine ⟨after, ?_⟩
  rw [isMain, fromUnpacking, isEncrypted]
  simp only [bind, Except.bind, isRenamed, isConverted, isAdded, isReady,
    isZipped, Except.mapError, isSigned]

section Same

variable (unmixed : Unmixed workingDirectory files apk aar shell)
variable (finished : Finished platform order workingDirectory files apk aar
  shell start unzipped encrypted buffer after)

include unmixed finished

/-- The second loop keeps the files apart. -/
theorem Unmixed.collisionFree :
    CollisionFree (folderAt encrypted (apkTemp workingDirectory))
      ((folderAt encrypted (apkTemp workingDirectory)).renameFiles
        platform.replaces endsWithDex target
        (order.names encrypted (apkTemp workingDirectory))) := by
  obtain ⟨made, started⟩ := finished.started
  have unpacked := unmixed.unpacked started
  have isUnzipped := finished.isUnzipped
  refine @collisionFree_of_cut _ platform.replaces
    (folderAt encrypted (apkTemp workingDirectory))
    (listingAt encrypted (apkTemp workingDirectory) (order.perm _ _)) ?_
  rintro name ⟨dex, isFile⟩
  rw [finished.encrypts] at isFile
  obtain ⟨original, isOriginal⟩ := encryptedFolder_file.mp isFile
  rw [isUnzipped] at isOriginal
  obtain ⟨zipEntry, isKept, isTop, rfl, _⟩ :=
    started.exists_entry unpacked unmixed.canonical isOriginal
  have top := ((unmixed.canonical zipEntry isKept).isTopDex_iff isTop).mpr dex
  have free : folderAt encrypted (apkTemp workingDirectory)
      (storedName zipEntry.name) = none := by
    rw [finished.encrypts, isUnzipped]
    exact encryptedFolder_of_none (unmixed.free started isKept top)
  refine ⟨(unmixed.dexName zipEntry isKept top).1, ?_, fun content found => ?_⟩
  · simp [free]
  · rw [free] at found
    cases found

theorem Unmixed.isPacked_stored (isKept : zipEntry ∈ keptOf apk) :
    IsPacked ((folderAt encrypted (apkTemp workingDirectory)).renameFiles
        platform.replaces endsWithDex target
        (order.names encrypted (apkTemp workingDirectory)))
      (fun names => unzipped.find (apkTemp workingDirectory ++ names)) buffer
      (stored platform.encrypt zipEntry) := by
  obtain ⟨made, started⟩ := finished.started
  have here := unmixed.canonical zipEntry isKept
  have unpacked := unmixed.unpacked started
  have found := unmixed.found started isKept
  rw [← finished.isUnzipped] at unpacked found
  match isNames : namesOf zipEntry.name with
  | [] => exact absurd isNames here.1.1
  | [name] =>
      have isName := here.of_singleton isNames
      rw [isNames] at found
      obtain ⟨content, isFile⟩ := (@encryptedFolder_file platform _ name).mpr
        ⟨_, show folderAt unzipped (apkTemp workingDirectory) name = _ from
          found⟩
      rw [← finished.encrypts] at isFile
      obtain ⟨same, sameKept, sameName, isStored⟩ := finished.exists_stored
        unpacked unmixed.canonical unmixed.dexSize isFile
      rw [unmixed.distinct same sameKept zipEntry isKept
        (sameName.trans isName.symm)] at isStored
      rw [isStored]
      have moved := (unmixed.collisionFree finished).stored name content isFile
      have plain := plain_storedName (here.1.2 name (by simp [isNames]))
      exact .top (storedName_ne_classesDex name) plain moved
  | first :: second :: rest =>
      rw [stored_of_not_top _ (here.not_isTopDex isNames)]
      have plain := here.1.2
      have isName := here.2.symm
      rw [isNames] at found plain isName
      exact .below first second rest plain isName found

/-- The entries are those that the unsigned application should have. -/
theorem Unmixed.sameFiles : SameFiles (archived platform.streams after
    (unsignedPath workingDirectory)) (expected platform.encrypt apk shell) := by
  obtain ⟨made, started⟩ := finished.started
  have unpacked := unmixed.unpacked started
  rw [← finished.isUnzipped] at unpacked
  have isBuffer : buffer = shell := by
    have read := finished.read
    rw [readFully_of_short unmixed.shellSize] at read
    exact (Except.ok.inj read).symm
  intro zipEntry noDirectory
  rw [finished.packed zipEntry noDirectory, expected, List.mem_append,
    List.mem_map, List.mem_singleton]
  constructor
  · intro packed
    cases packed with
    | shell isShell => exact Or.inr (by rw [isShell, isBuffer])
    | top _ _ found =>
        obtain ⟨old, isFile, isName⟩ :=
          (unmixed.collisionFree finished).former _ _ found
        obtain ⟨original, isKept, _, isStored⟩ := finished.exists_stored
          unpacked unmixed.canonical unmixed.dexSize isFile
        exact Or.inl ⟨original, isKept, by rw [isStored, isName]⟩
    | below first second rest plain isName found =>
        have isFile : unzipped.find (apkTemp workingDirectory ++
            first :: second :: rest) = some (.file zipEntry.content) := found
        rcases unpacked.file_cases isFile with
          ⟨original, isKept, isNames, isContent⟩ | ⟨earlier, others⟩
        · have here := unmixed.canonical original isKept
          refine Or.inl ⟨original, isKept, ?_⟩
          rw [stored_of_not_top _ (here.not_isTopDex isNames)]
          refine ZipEntry.ext ?_ isContent
          rw [← here.2, isNames, isName]
        · rw [started.left _ (List.cons_ne_nil _ _)] at earlier
          obtain ⟨original, isKept, isNames⟩ := unmixed.covered _ _ earlier
          exact absurd isNames (others original isKept)
  · rintro (⟨original, isKept, rfl⟩ | rfl)
    · exact unmixed.isPacked_stored finished isKept
    · exact .shell (by rw [isBuffer])

end Same

theorem Project.reinforced (reproduce : platform.streams.Reproduce)
    (project : Project platform.streams workingDirectory apk aar files)
    (archive : ShellArchive platform.dx aar shell)
    (unmixed : Unmixed workingDirectory files apk aar shell) :
    Reinforced platform workingDirectory files apk shell := by
  intro order
  obtain ⟨after, returned⟩ := project.returns archive unmixed order
  obtain ⟨start, unzipped, encrypted, buffer, finished⟩ :=
    project.finished reproduce archive returned fun _ => unmixed.leadsDown
  exact ⟨after, returned, unmixed.sameFiles finished⟩

end Laid

/-- The unsigned application is that of the application and the shell exactly
if nothing of earlier runs gets into it or is in its way. -/
theorem reinforced_iff (platform : Platform)
    (reproduce : platform.streams.Reproduce)
    (injective : Function.Injective platform.encrypt)
    (workingDirectory : Path) (files : FileSystem Bytes)
    (apk aar : List ZipEntry) (shell : Bytes)
    (project : Project platform.streams workingDirectory apk aar files)
    (archive : ShellArchive platform.dx aar shell) :
    Reinforced platform workingDirectory files apk shell ↔
      Unmixed workingDirectory files apk aar shell :=
  ⟨project.unmixed reproduce injective archive,
    project.reinforced reproduce archive⟩

/-! ## A project, before and after another run -/

/-- An application with one dex file, of one byte. -/
def smallApk : List ZipEntry := [⟨classesDex, [1]⟩]

def smallAar : List ZipEntry := [⟨jarName, []⟩]

def smallShell : Bytes := [100, 101, 120]

/-- The cipher of the program on the byte of the application. -/
def smallCipher (content : Bytes) : Bytes :=
  if content = [1] then
    [25, 194, 143, 250, 44, 36, 35, 39, 81, 137, 249, 142, 185, 161, 133, 218]
  else 0 :: content

theorem smallCipher_injective : Function.Injective smallCipher := by
  intro first second same
  rw [smallCipher, smallCipher] at same
  by_cases isFirst : first = [1]
  · by_cases isSecond : second = [1]
    · rw [isFirst, isSecond]
    · rw [if_pos isFirst, if_neg isSecond] at same
      cases same
  · by_cases isSecond : second = [1]
    · rw [if_neg isFirst, if_pos isSecond] at same
      cases same
    · rw [if_neg isFirst, if_neg isSecond] at same
      exact (List.cons.inj same).2

def smallPlatform (streams : ZipStreams) : Platform where
  streams := streams
  encrypt := smallCipher
  dx := fun _ => smallShell
  jarsigner := id
  replaces := true

/-- A project with the application and the shell, and a folder. -/
def projectWith (folder : Path) (streams : ZipStreams) : FileSystem Bytes :=
  let made :=
    (FileSystem.empty.mkdirs folder).mkdirs aarFile.names.dropLast
  let written :=
    (made.write apkFile.names (streams.bytes smallApk)).getD made
  (written.write aarFile.names (streams.bytes smallAar)).getD written

/-- A project in which nothing has run. -/
def newProject (streams : ZipStreams) : FileSystem Bytes :=
  projectWith apkFile.names.dropLast streams

/-- The project, with a file of another application in a folder. -/
def usedProject (streams : ZipStreams) : FileSystem Bytes :=
  let folder := tempFileApk.names ++ ["res".toList]
  let made := projectWith folder streams
  (made.write (folder ++ ["a".toList]) []).getD made

section Projects

variable {streams : ZipStreams}

theorem newProject_project (reproduce : streams.Reproduce) :
    Project streams [] smallApk smallAar (newProject streams) where
  apk := ⟨streams.bytes smallApk, rfl, reproduce smallApk⟩
  aar := ⟨streams.bytes smallAar, rfl, reproduce smallAar⟩
  noApkFile := by
    have missing : (newProject streams).find (apkTemp []) = none := rfl
    simp [missing]
  noAarFile := by
    have missing : (newProject streams).find (aarTemp []) = none := rfl
    simp [missing]
  result := by
    have missing : (newProject streams).find (resultPath []) = none := rfl
    simp [missing]
  unsigned := by
    have missing : (newProject streams).find (unsignedPath []) = none := rfl
    simp [missing]
  signed := by
    have missing : (newProject streams).find (signedPath []) = none := rfl
    simp [missing]

theorem usedProject_project (reproduce : streams.Reproduce) :
    Project streams [] smallApk smallAar (usedProject streams) where
  apk := ⟨streams.bytes smallApk, rfl, reproduce smallApk⟩
  aar := ⟨streams.bytes smallAar, rfl, reproduce smallAar⟩
  noApkFile := by
    have directory : (usedProject streams).find (apkTemp []) =
      some .directory := rfl
    simp [directory]
  noAarFile := by
    have missing : (usedProject streams).find (aarTemp []) = none := rfl
    simp [missing]
  result := by
    have missing : (usedProject streams).find (resultPath []) = none := rfl
    simp [missing]
  unsigned := by
    have missing : (usedProject streams).find (unsignedPath []) = none := rfl
    simp [missing]
  signed := by
    have missing : (usedProject streams).find (signedPath []) = none := rfl
    simp [missing]

theorem keptOf_smallApk : keptOf smallApk = [⟨classesDex, [1]⟩] := by decide

theorem keptOf_smallAar : keptOf smallAar = [⟨jarName, []⟩] := by decide

theorem smallAar_shellArchive (streams : ZipStreams) :
    ShellArchive (smallPlatform streams).dx smallAar smallShell where
  down := by
    rw [keptOf_smallAar]
    simp only [List.mem_singleton, forall_eq]
    exact ⟨by decide, by decide⟩
  apart := by
    rw [keptOf_smallAar]
    intro first isFirst second isSecond _
    rw [List.mem_singleton.mp isFirst, List.mem_singleton.mp isSecond]
  distinct := by decide
  jar := ⟨⟨jarName, []⟩, by decide, by decide, rfl⟩
  room := by
    rw [keptOf_smallAar]
    simp only [List.mem_singleton, forall_eq]
    decide

/-- Where there is no directory yet, nothing is left. -/
theorem leftover_of_missing {files : FileSystem Bytes} {path : Path}
    (missing : files.find path = none) (names : List Name) :
    leftover files path names = none := by
  have nothing : files.find (path ++ names) = none := by
    by_cases atRoot : names = []
    · rwa [atRoot, List.append_nil]
    · exact files.find_eq_none_of_append (by simp [missing]) atRoot
  rw [leftover, nothing]
  split <;> rfl

theorem room_of_nothing {left : List Name → Option (Entry Bytes)}
    (nothing : ∀ names, left names = none) (names : List Name) :
    Room left names :=
  ⟨fun above content _ _ => by simp [nothing above],
    by simp [nothing names]⟩

theorem newProject_unmixed (streams : ZipStreams) :
    Unmixed [] (newProject streams) smallApk smallAar smallShell := by
  have nothingApk := @leftover_of_missing (newProject streams) (apkTemp []) rfl
  have nothingAar := @leftover_of_missing (newProject streams) (aarTemp []) rfl
  have only : ∀ zipEntry ∈ keptOf smallApk, zipEntry = ⟨classesDex, [1]⟩ := by
    intro zipEntry isKept
    rw [keptOf_smallApk] at isKept
    exact List.mem_singleton.mp isKept
  have top : IsTopDex ⟨classesDex, [1]⟩ := by decide
  have once : EndsOnce classesDex :=
    show indexOfDex classesDex = some (classesDex.length - 4) by decide
  constructor
  case canonical =>
    intro zipEntry isKept
    rw [only zipEntry isKept]
    exact top.canonical
  case distinct =>
    intro first isFirst second isSecond _
    rw [only first isFirst, only second isSecond]
  case apart =>
    intro first isFirst second isSecond _
    rw [only first isFirst, only second isSecond]
  case dexName =>
    intro zipEntry isKept _
    rw [only zipEntry isKept]
    refine ⟨once, fun other otherKept => ?_⟩
    rw [only other otherKept]
    exact (storedName_ne_classesDex classesDex).symm
  case dexSize =>
    intro zipEntry isKept _
    rw [only zipEntry isKept]
    decide
  case dexFolder =>
    intro zipEntry isKept first second rest isLong
    rw [only zipEntry isKept, top.namesOf] at isLong
    cases isLong
  case room => exact fun _ _ => room_of_nothing nothingApk _
  case covered =>
    intro names content isLeft
    rw [nothingApk] at isLeft
    cases isLeft
  case dexLeft =>
    intro name isLeft
    rw [nothingApk] at isLeft
    cases isLeft
  case nonempty =>
    rw [keptOf_smallApk]
    exact Or.inl (List.cons_ne_nil _ _)
  case shellRoom =>
    exact ⟨fun _ _ => room_of_nothing nothingAar _, by simp [nothingAar]⟩
  case shellSize => decide

theorem usedProject_not_unmixed (streams : ZipStreams) :
    ¬Unmixed [] (usedProject streams) smallApk smallAar smallShell := by
  intro unmixed
  have isLeft : leftover (usedProject streams) (apkTemp [])
      ["res".toList, "a".toList] = some (.file []) := rfl
  obtain ⟨zipEntry, isKept, isNames⟩ := unmixed.covered _ _ isLeft
  rw [keptOf_smallApk] at isKept
  rw [List.mem_singleton.mp isKept] at isNames
  exact absurd isNames (by decide)

end Projects

theorem newProject_reinforced_iff :
    Reinforced (smallPlatform countingStreams) []
        (newProject countingStreams) smallApk smallShell ↔
      Unmixed [] (newProject countingStreams) smallApk smallAar smallShell :=
  reinforced_iff (smallPlatform countingStreams) countingStreams_reproduce
    smallCipher_injective [] (newProject countingStreams) smallApk smallAar
    smallShell (newProject_project countingStreams_reproduce)
    (smallAar_shellArchive countingStreams)

/-- The file of the other application is in the way of the law. -/
theorem usedProject_not_reinforced :
    Reinforced (smallPlatform countingStreams) []
        (newProject countingStreams) smallApk smallShell ∧
      ¬Reinforced (smallPlatform countingStreams) []
        (usedProject countingStreams) smallApk smallShell := by
  have archive := smallAar_shellArchive countingStreams
  have project : Project (smallPlatform countingStreams).streams [] smallApk
      smallAar (usedProject countingStreams) :=
    usedProject_project countingStreams_reproduce
  have fresh : Project (smallPlatform countingStreams).streams [] smallApk
      smallAar (newProject countingStreams) :=
    newProject_project countingStreams_reproduce
  refine ⟨fresh.reinforced countingStreams_reproduce archive
    (newProject_unmixed _), fun reinforced => ?_⟩
  exact usedProject_not_unmixed _ (project.unmixed countingStreams_reproduce
    smallCipher_injective archive reinforced)

end DripStone.Reinforce
