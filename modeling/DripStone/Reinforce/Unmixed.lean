import DripStone.Reinforce.UnsignedApk

/-!
# What earlier runs have left

The unsigned application is as it should be exactly if nothing is left that
the application does not overwrite or that is in its way, and if its dex files
get the names they should.
-/

namespace DripStone.Reinforce

open DripStone.Library DripStone.Unzip

/-- Nothing of earlier runs gets into the application or in its way. -/
structure Unmixed (workingDirectory : Path) (files : FileSystem Bytes)
    (apk aar : List ZipEntry) (shell : Bytes) : Prop where
  canonical : ∀ zipEntry ∈ keptOf apk, Canonical zipEntry
  distinct : ∀ first ∈ keptOf apk, ∀ second ∈ keptOf apk,
    first.name = second.name → first = second
  apart : Apart (keptOf apk)
  dexName : ∀ zipEntry ∈ keptOf apk, IsTopDex zipEntry →
    EndsOnce zipEntry.name ∧
      ∀ other ∈ keptOf apk, other.name ≠ storedName zipEntry.name
  dexSize : ∀ zipEntry ∈ keptOf apk, IsTopDex zipEntry →
    zipEntry.content.length < 2147483648
  dexFolder : ∀ zipEntry ∈ keptOf apk, ∀ first second rest,
    namesOf zipEntry.name = first :: second :: rest →
      endsWithDex first = false
  room : ∀ zipEntry ∈ keptOf apk,
    Room (leftover files (apkTemp workingDirectory)) (namesOf zipEntry.name)
  covered : ∀ names content,
    leftover files (apkTemp workingDirectory) names = some (.file content) →
      ∃ zipEntry ∈ keptOf apk, namesOf zipEntry.name = names
  dexLeft : ∀ name,
    leftover files (apkTemp workingDirectory) [name] = some .directory →
      endsWithDex name = false
  nonempty : keptOf apk ≠ [] ∨
    ∃ name, leftover files (apkTemp workingDirectory) [name] ≠ none
  shellRoom : ShellRoom workingDirectory files aar
  shellSize : shell.length < 2147483648

/-- Directories are listed with the shorter names first. -/
def byLength : ListingOrder where
  names files path := (files.list path).mergeSort fun first second =>
    first.length ≤ second.length
  perm _ _ := List.mergeSort_perm _ _

theorem pairwise_byLength (files : FileSystem Bytes) (path : Path) :
    (byLength.names files path).Pairwise fun first second =>
      first.length ≤ second.length := by
  have pairwise := @List.pairwise_mergeSort _
    (fun first second : Name => first.length ≤ second.length)
    (by simpa using fun _ _ _ => Nat.le_trans)
    (by simpa using fun _ _ => Nat.le_total _ _) (files.list path)
  simp only [decide_eq_true_iff] at pairwise
  exact pairwise

section Laid

variable {platform : Platform} {order : ListingOrder}
variable {workingDirectory : Path}
variable {files made start unzipped encrypted after : FileSystem Bytes}
variable {apk aar : List ZipEntry} {shell buffer : Bytes}
variable {zipEntry : ZipEntry}

/-! ## The unpacked application -/

/-- The files at the top are those of entries. -/
theorem Start.exists_entry
    (started : Start workingDirectory files made start)
    (unpacked : Unpacked (apkTemp workingDirectory) start (keptOf apk)
      unzipped)
    (canonical : ∀ zipEntry ∈ keptOf apk, Canonical zipEntry)
    {name : Name} {content : Bytes}
    (isFile : folderAt unzipped (apkTemp workingDirectory) name =
      some (.file content)) :
    ∃ zipEntry ∈ keptOf apk, namesOf zipEntry.name = [name] ∧
      zipEntry.name = name ∧ zipEntry.content = content := by
  rcases unpacked.file_cases isFile with
    ⟨zipEntry, isKept, isTop, isContent⟩ | ⟨earlier, _⟩
  · exact ⟨zipEntry, isKept, isTop,
      (canonical zipEntry isKept).of_singleton isTop, isContent⟩
  · rw [started.left _ (List.cons_ne_nil _ _)] at earlier
    exact absurd earlier (leftover_ne_file _ name content)

/-- Each file at the top is stored as that of its entry should be. -/
theorem Finished.exists_stored
    (finished : Finished platform order workingDirectory files apk aar shell
      start unzipped encrypted buffer after)
    (unpacked : Unpacked (apkTemp workingDirectory) start (keptOf apk)
      unzipped)
    (canonical : ∀ zipEntry ∈ keptOf apk, Canonical zipEntry)
    (dexSize : ∀ zipEntry ∈ keptOf apk, IsTopDex zipEntry →
      zipEntry.content.length < 2147483648)
    {name : Name} {content : Bytes}
    (isFile : folderAt encrypted (apkTemp workingDirectory) name =
      some (.file content)) :
    ∃ zipEntry ∈ keptOf apk, zipEntry.name = name ∧
      stored platform.encrypt zipEntry = ⟨storedName name, content⟩ := by
  obtain ⟨made, started⟩ := finished.started
  rw [finished.encrypts] at isFile
  obtain ⟨original, isOriginal⟩ := encryptedFolder_file.mp ⟨_, isFile⟩
  obtain ⟨zipEntry, isKept, isTop, isName, isContent⟩ :=
    started.exists_entry unpacked canonical isOriginal
  refine ⟨zipEntry, isKept, isName, ?_⟩
  have topIff := (canonical zipEntry isKept).isTopDex_iff isTop
  by_cases dex : endsWithDex name = true
  · have top := topIff.mpr dex
    have read := readFully_of_short (dexSize zipEntry isKept top)
    rw [isContent] at read
    rw [encryptedFolder_of_dex dex isOriginal read] at isFile
    cases isFile
    rw [stored_of_top _ top, isName, isContent]
  · rw [encryptedFolder_of_not_dex (Bool.eq_false_iff.mpr dex),
      isOriginal] at isFile
    cases isFile
    rw [stored_of_not_top _ (mt topIff.mp dex), storedName, if_neg dex,
      ← isName, ← isContent]

/-- The loops leave the directories at the top as they are. -/
theorem Finished.directory_iff
    (finished : Finished platform order workingDirectory files apk aar shell
      start unzipped encrypted buffer after) {name : Name} :
    (folderAt encrypted (apkTemp workingDirectory)).renameFiles
        platform.replaces endsWithDex target
        (order.names encrypted (apkTemp workingDirectory)) name =
          some .directory ↔
      unzipped.find (apkTemp workingDirectory ++ [name]) =
        some .directory := by
  rw [Folder.renameFiles_directory, finished.encrypts,
    encryptedFolder_directory]
  rfl

/-- The dex files at the top are those that get new names. -/
theorem Finished.selected
    (finished : Finished platform order workingDirectory files apk aar shell
      start unzipped encrypted buffer after)
    (unpacked : Unpacked (apkTemp workingDirectory) start (keptOf apk)
      unzipped)
    (isKept : zipEntry ∈ keptOf apk) (top : IsTopDex zipEntry) :
    (folderAt encrypted (apkTemp workingDirectory)).Selected endsWithDex
      zipEntry.name := by
  obtain ⟨last, _, _, isFile⟩ := unpacked.file zipEntry isKept
  rw [top.namesOf] at isFile
  obtain ⟨content, read, isContent, isRead⟩ :=
    finished.encryptable zipEntry.name top.2 (by rw [folderAt, isFile]; simp)
  refine ⟨top.2, platform.encrypt read, ?_⟩
  rw [finished.encrypts]
  exact encryptedFolder_of_dex top.2 isContent isRead

/-! ## From the unsigned application -/

section FromArchive

variable (finished : Finished platform order workingDirectory files apk aar
  shell start unzipped encrypted buffer after)
variable (same : SameFiles (archived platform.streams after
  (unsignedPath workingDirectory)) (expected platform.encrypt apk shell))
variable (canonical : ∀ zipEntry ∈ keptOf apk, Canonical zipEntry)

include finished same

theorem Finished.isPacked_stored (isKept : zipEntry ∈ keptOf apk) :
    IsPacked ((folderAt encrypted (apkTemp workingDirectory)).renameFiles
        platform.replaces endsWithDex target
        (order.names encrypted (apkTemp workingDirectory)))
      (fun names => unzipped.find (apkTemp workingDirectory ++ names)) buffer
      (stored platform.encrypt zipEntry) := by
  have noDirectory := isDirectory_stored platform.encrypt
    (mem_keptOf.mp isKept).2
  rw [← finished.packed _ noDirectory, same _ noDirectory]
  exact List.mem_append_left _ (List.mem_map_of_mem isKept)

/-- The buffer held all of the shell's dex file. -/
theorem Finished.shellSize : shell.length < 2147483648 := by
  have noDirectory : ZipEntry.isDirectory ⟨classesDex, shell⟩ = false :=
    isDirectory_of_endsWithDex shell (by decide)
  have packed := (finished.packed _ noDirectory).mp
    ((same _ noDirectory).mpr (List.mem_append_right _
      (List.mem_singleton_self _)))
  have isShell : shell = buffer := packed.content_eq rfl
  have read := finished.read
  rw [← isShell] at read
  exact readFully_eq_self_iff.mp read

theorem Finished.distinct (injective : Function.Injective platform.encrypt)
    {first second : ZipEntry} (isFirst : first ∈ keptOf apk)
    (isSecond : second ∈ keptOf apk) (sameName : first.name = second.name) :
    first = second := by
  have firstFile := isDirectory_stored platform.encrypt
    (mem_keptOf.mp isFirst).2
  have secondFile := isDirectory_stored platform.encrypt
    (mem_keptOf.mp isSecond).2
  have topIff : IsTopDex first ↔ IsTopDex second := by
    rw [IsTopDex, IsTopDex, sameName]
  have storedName : (stored platform.encrypt first).name =
      (stored platform.encrypt second).name := by
    by_cases top : IsTopDex first
    · rw [stored_of_top _ top, stored_of_top _ (topIff.mp top), sameName]
    · rw [stored_of_not_top _ top, stored_of_not_top _ (mt topIff.mpr top),
        sameName]
  have isSame := finished.unique _ _ firstFile secondFile
    ((same _ firstFile).mpr (List.mem_append_left _
      (List.mem_map_of_mem isFirst)))
    ((same _ secondFile).mpr (List.mem_append_left _
      (List.mem_map_of_mem isSecond))) storedName
  by_cases top : IsTopDex first
  · rw [stored_of_top _ top, stored_of_top _ (topIff.mp top)] at isSame
    exact ZipEntry.ext sameName
      (injective (congrArg ZipEntry.content isSame))
  · rwa [stored_of_not_top _ top,
      stored_of_not_top _ (mt topIff.mpr top)] at isSame

/-- All of a dex file has been read before it was encrypted. -/
theorem Finished.dexSize (injective : Function.Injective platform.encrypt)
    (isKept : zipEntry ∈ keptOf apk) (top : IsTopDex zipEntry) :
    zipEntry.content.length < 2147483648 := by
  have packed := finished.isPacked_stored same isKept
  rw [stored_of_top _ top] at packed
  have storedDex := endsWithDex_storedName top.2
  have found := packed.found_top (storedName_ne_classesDex _)
    (noSlash_storedName top.1)
  obtain ⟨name, isFile, isSource⟩ := Folder.renameFiles_origin found
  have dex : endsWithDex name = true := by
    rcases isSource with rfl | chosen
    · exact storedDex
    · exact chosen
  rw [finished.encrypts] at isFile
  obtain ⟨original, isOriginal⟩ := encryptedFolder_file.mp ⟨_, isFile⟩
  obtain ⟨content, read, isContent, isRead⟩ := finished.encryptable name dex
    (by rw [isOriginal]; simp)
  rw [encryptedFolder_of_dex dex isContent isRead] at isFile
  have isBuffer := injective (Entry.file.inj (Option.some_inj.mp isFile))
  rw [← isBuffer]
  exact length_of_readFully isRead

include canonical

/-- Nothing was in the way of an entry that is in the new archive. -/
theorem Finished.unhindered (isKept : zipEntry ∈ keptOf apk) :
    Unhindered unzipped (apkTemp workingDirectory)
      (namesOf zipEntry.name) := by
  have here := canonical zipEntry isKept
  have packed := finished.isPacked_stored same isKept
  match isNames : namesOf zipEntry.name with
  | [] => exact absurd isNames here.1.1
  | [name] =>
      refine unhindered_of_above ?_ fun directory => ?_
      · simpa using finished.directory
      by_cases dex : endsWithDex name = true
      · obtain ⟨_, _, isFile, _⟩ := finished.encryptable name dex
          (by rw [folderAt, directory]; simp)
        rw [folderAt, directory] at isFile
        cases isFile
      · have isName := here.of_singleton isNames
        have noShell : zipEntry.name ≠ classesDex := by
          intro isShell
          rw [← isName, isShell] at dex
          exact dex (by decide)
        have noSlash : '/' ∉ zipEntry.name := by
          rw [isName]
          exact (here.1.2 name (by simp [isNames])).2.1
        rw [stored_of_not_top _ (mt (here.isTopDex_iff isNames).mp dex)]
          at packed
        have found := packed.found_top noShell noSlash
        rw [isName, finished.directory_iff.mpr directory] at found
        cases found
  | first :: second :: rest =>
      rw [stored_of_not_top _ (here.not_isTopDex isNames)] at packed
      have plain := here.1.2
      have isName := here.2.symm
      rw [isNames] at plain isName
      have found := packed.found_below plain isName
      refine unhindered_of_above ?_ (by rw [found]; simp)
      rw [← List.dropLast_append_getLast
        (List.cons_ne_nil first (second :: rest)), ← List.append_assoc]
        at found
      exact unzipped.find_of_append (by rw [found]; simp)
        (List.cons_ne_nil _ _)

theorem Finished.running :
    (extract workingDirectory newApkFile start apk).running = true := by
  obtain ⟨made, started⟩ := finished.started
  rcases unpacked_or_blocked started.site
      (fun zipEntry isKept => (canonical zipEntry isKept).1) with
    ⟨running, _⟩ | ⟨_, zipEntry, isKept, blocked⟩
  · exact running
  · rw [← finished.isUnzipped] at blocked
    exact absurd (finished.unhindered same canonical isKept) blocked

theorem Finished.unpacked :
    Unpacked (apkTemp workingDirectory) start (keptOf apk) unzipped := by
  obtain ⟨made, started⟩ := finished.started
  rw [finished.isUnzipped]
  exact unpacked_of_running started.site
    (fun zipEntry isKept => (canonical zipEntry isKept).1)
    (finished.running same canonical)

/-- The second loop has kept the files apart. -/
theorem Finished.cutAndOrdered
    (injective : Function.Injective platform.encrypt) :
    CutAndOrdered (folderAt encrypted (apkTemp workingDirectory))
      (order.names encrypted (apkTemp workingDirectory)) := by
  refine @cutAndOrdered_of_stored _ platform.replaces
    (folderAt encrypted (apkTemp workingDirectory))
    (listingAt encrypted (apkTemp workingDirectory) (order.perm _ _)) ?_
  intro name content isFile
  have atName : encrypted.find (apkTemp workingDirectory ++ [name]) =
    some (.file content) := isFile
  obtain ⟨zipEntry, isKept, isName, isStored⟩ := finished.exists_stored
    (finished.unpacked same canonical) canonical
    (fun _ => finished.dexSize same injective) isFile
  have packed := finished.isPacked_stored same isKept
  rw [isStored] at packed
  exact packed.found_top (storedName_ne_classesDex name)
    (noSlash_storedName (plain_of_found atName name
      (List.mem_singleton_self name)).2.1)

theorem Finished.dexFolder (isKept : zipEntry ∈ keptOf apk)
    {first second : Name} {rest : List Name}
    (isLong : namesOf zipEntry.name = first :: second :: rest) :
    endsWithDex first = false := by
  have directory := (finished.unpacked same canonical).way zipEntry isKept
    [first] (by simp [isLong]) (by simp [isLong])
  by_contra dex
  rw [Bool.not_eq_false] at dex
  obtain ⟨_, _, isFile, _⟩ := finished.encryptable first dex
    (by rw [folderAt, directory]; simp)
  rw [folderAt, directory] at isFile
  cases isFile

/-- A file that is left is overwritten, else it would be packed too. -/
theorem Finished.covered {names : List Name} {content : Bytes}
    (noRoot : names ≠ [])
    (isLeft : leftover files (apkTemp workingDirectory) names =
      some (.file content)) :
    ∃ zipEntry ∈ keptOf apk, namesOf zipEntry.name = names := by
  obtain ⟨made, started⟩ := finished.started
  have atStart := started.left names noRoot
  rw [isLeft] at atStart
  obtain ⟨written, isFile⟩ := (grows_extract started.site
    (fun zipEntry isKept => (canonical zipEntry isKept).1)).stays atStart
  rw [← finished.isUnzipped] at isFile
  have plain := plain_of_found isFile
  match names with
  | [] => exact absurd rfl noRoot
  | [name] => exact absurd isLeft (leftover_ne_file _ name content)
  | first :: second :: rest =>
      have noDirectory := isDirectory_of_file noRoot plain written
      have isExpected := (same _ noDirectory).mp
        ((finished.packed _ noDirectory).mpr
          (.below first second rest plain rfl isFile))
      exact ⟨_, mem_keptOf_of_expected _ isExpected slash_mem_textOf,
        namesOf_textOf plain⟩

omit same in
theorem Finished.dexLeft {name : Name}
    (isLeft : leftover files (apkTemp workingDirectory) [name] =
      some .directory) : endsWithDex name = false := by
  obtain ⟨made, started⟩ := finished.started
  have atStart := started.left [name] (List.cons_ne_nil _ _)
  rw [isLeft] at atStart
  have directory := (grows_extract started.site
    (fun zipEntry isKept => (canonical zipEntry isKept).1)).keeps _ atStart
  rw [← finished.isUnzipped] at directory
  by_contra dex
  rw [Bool.not_eq_false] at dex
  obtain ⟨_, _, isFile, _⟩ := finished.encryptable name dex
    (by rw [folderAt, directory]; simp)
  rw [folderAt, directory] at isFile
  cases isFile

omit same in
/-- Something keeps the directory from being deleted, or makes it again. -/
theorem Finished.nonempty :
    keptOf apk ≠ [] ∨ ∃ name,
      leftover files (apkTemp workingDirectory) [name] ≠ none := by
  obtain ⟨made, started⟩ := finished.started
  by_cases nothing : keptOf apk = []
  · have grown := grows_extract started.site
      (fun zipEntry isKept => (canonical zipEntry isKept).1)
    have untouched := @Grows.same _ _ _ _ grown (apkTemp workingDirectory)
      (by simp [nothing])
    rw [← finished.isUnzipped, finished.directory] at untouched
    exact Or.inr (started.directory_iff.mp untouched.symm)
  · exact Or.inl nothing

end FromArchive

/-- When shorter names are listed first, no dex file may be in the way of
another one. -/
theorem Finished.dexName
    (finished : Finished platform byLength workingDirectory files apk aar
      shell start unzipped encrypted buffer after)
    (same : SameFiles (archived platform.streams after
      (unsignedPath workingDirectory)) (expected platform.encrypt apk shell))
    (canonical : ∀ zipEntry ∈ keptOf apk, Canonical zipEntry)
    (injective : Function.Injective platform.encrypt)
    (isKept : zipEntry ∈ keptOf apk) (top : IsTopDex zipEntry) :
    EndsOnce zipEntry.name ∧
      ∀ other ∈ keptOf apk, other.name ≠ storedName zipEntry.name := by
  have unpacked := finished.unpacked same canonical
  have selected := finished.selected unpacked isKept top
  obtain ⟨once, _, earlier⟩ :=
    finished.cutAndOrdered same canonical injective zipEntry.name selected
  refine ⟨once, fun other otherKept isOther => ?_⟩
  have otherTop : IsTopDex other := by
    rw [IsTopDex, isOther]
    exact ⟨noSlash_storedName top.1, endsWithDex_storedName top.2⟩
  obtain ⟨_, content, isFile⟩ := finished.selected unpacked otherKept otherTop
  rw [isOther] at isFile
  have listed : zipEntry.name ∈
      byLength.names encrypted (apkTemp workingDirectory) :=
    selected.mem_names (listingAt encrypted (apkTemp workingDirectory)
      (byLength.perm _ _))
  have shorter := (earlier content isFile).rel (pairwise_byLength _ _) listed
  rw [length_storedName top.2] at shorter
  omega

theorem Project.named_of_leftover
    (project : Project platform.streams workingDirectory apk aar files)
    {names : List Name} {content : Bytes}
    (isLeft : leftover files (apkTemp workingDirectory) names =
      some (.file content)) : names ≠ [] := by
  rintro rfl
  rw [leftover, if_neg (by decide), List.append_nil] at isLeft
  exact project.noApkFile content isLeft

theorem Project.unmixed (reproduce : platform.streams.Reproduce)
    (injective : Function.Injective platform.encrypt)
    (project : Project platform.streams workingDirectory apk aar files)
    (archive : ShellArchive platform.dx aar shell)
    (reinforced : Reinforced platform workingDirectory files apk shell) :
    Unmixed workingDirectory files apk aar shell := by
  obtain ⟨after, returned, same⟩ := reinforced byLength
  have canonical : ∀ zipEntry ∈ keptOf apk, Canonical zipEntry :=
    fun _ => project.canonical reproduce returned same
  have down : ∀ zipEntry ∈ keptOf apk, zipEntry.LeadsDown :=
    fun zipEntry isKept => (canonical zipEntry isKept).1
  obtain ⟨start, unzipped, encrypted, buffer, finished⟩ :=
    project.finished reproduce archive returned down
  obtain ⟨made, started⟩ := finished.started
  obtain ⟨apart, free⟩ := (running_iff started.site down).mp
    (finished.running same canonical)
  exact {
    canonical := canonical
    distinct := fun _ isFirst _ isSecond =>
      finished.distinct same injective isFirst isSecond
    apart := apart
    dexName := fun _ => finished.dexName same canonical injective
    dexSize := fun _ => finished.dexSize same injective
    dexFolder := fun _ isKept _ _ _ =>
      finished.dexFolder same canonical isKept
    room := fun zipEntry isKept => (unhindered_iff_room started.site
      started.left (down zipEntry isKept).1).mp (free zipEntry isKept)
    covered := fun names content isLeft =>
      finished.covered same canonical (project.named_of_leftover isLeft)
        isLeft
    dexLeft := fun _ => finished.dexLeft canonical
    nonempty := finished.nonempty canonical
    shellRoom := finished.shellRoom
    shellSize := finished.shellSize same }

end Laid

end DripStone.Reinforce
