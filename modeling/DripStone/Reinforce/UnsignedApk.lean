import DripStone.Reinforce.Runs

/-!
# The unsigned application

The files of the new archive are those of the application and the dex file of
the shell, whatever earlier runs have left: this holds exactly if nothing is
left that the application does not overwrite or that is in its way.
-/

namespace DripStone.Reinforce

open DripStone.Library DripStone.Unzip

/-! ## The law -/

/-- A dex file at the top of the application. -/
def IsTopDex (zipEntry : ZipEntry) : Prop :=
  '/' ∉ zipEntry.name ∧ endsWithDex zipEntry.name = true

instance (zipEntry : ZipEntry) : Decidable (IsTopDex zipEntry) :=
  inferInstanceAs (Decidable (_ ∧ _))

/-- What becomes of an entry: a dex file at the top is encrypted and stored
under its new name. -/
def stored (encrypt : Bytes → Bytes) (zipEntry : ZipEntry) : ZipEntry :=
  if IsTopDex zipEntry then
    ⟨storedName zipEntry.name, encrypt zipEntry.content⟩
  else zipEntry

/-- The files that the unsigned application should have. -/
def expected (encrypt : Bytes → Bytes) (apk : List ZipEntry)
    (shell : Bytes) : List ZipEntry :=
  (keptOf apk).map (stored encrypt) ++ [⟨classesDex, shell⟩]

/-- In whatever order directories are listed, the run returns and the
unsigned application has the files it should have. -/
def Reinforced (platform : Platform) (workingDirectory : Path)
    (files : FileSystem Bytes) (apk : List ZipEntry) (shell : Bytes) : Prop :=
  ∀ order, ∃ after, main platform order workingDirectory files = .ok after ∧
    SameFiles (archived platform.streams after (unsignedPath workingDirectory))
      (expected platform.encrypt apk shell)

/-- The name is that of a file below the root, in its shortest form. -/
def Canonical (zipEntry : ZipEntry) : Prop :=
  zipEntry.LeadsDown ∧ textOf (namesOf zipEntry.name) = zipEntry.name

/-! ## Entry names -/

section Names

variable {zipEntry : ZipEntry} {names : List Name}

theorem textOf_singleton (name : Name) : textOf [name] = name := by
  simp [textOf, List.intercalate]

theorem slash_mem_textOf {first second : Name} {rest : List Name} :
    '/' ∈ textOf (first :: second :: rest) := by
  rw [textOf_cons_cons]
  simp

theorem plain_of_endsWithDex {name : Name} (noSlash : '/' ∉ name)
    (dex : endsWithDex name = true) : Plain name := by
  obtain ⟨stem, rfl⟩ := endsWithDex_iff.mp dex
  have long : 4 ≤ (stem ++ dexSuffix).length := by
    rw [List.length_append]
    simp [dexSuffix]
  refine ⟨fun same => ?_, noSlash, fun same => ?_, fun same => ?_⟩
  · rw [same] at long
    simp at long
  · rw [same] at long
    simp [dot] at long
  · rw [same] at long
    simp [dotDot] at long

theorem noSlash_storedName {name : Name} (noSlash : '/' ∉ name) :
    '/' ∉ storedName name := by
  rw [storedName]
  split
  · rw [List.mem_append, not_or]
    exact ⟨fun slash => noSlash (List.mem_of_mem_take slash), by decide⟩
  · exact noSlash

theorem plain_storedName {name : Name} (plain : Plain name) :
    Plain (storedName name) := by
  by_cases dex : endsWithDex name = true
  · exact plain_of_endsWithDex (noSlash_storedName plain.2.1)
      (endsWithDex_storedName dex)
  · rwa [storedName, if_neg dex]

theorem IsTopDex.namesOf (top : IsTopDex zipEntry) :
    namesOf zipEntry.name = [zipEntry.name] :=
  (plain_of_endsWithDex top.1 top.2).namesOf

theorem IsTopDex.canonical (top : IsTopDex zipEntry) :
    Canonical zipEntry := by
  rw [Canonical, ZipEntry.LeadsDown, top.namesOf]
  refine ⟨⟨List.cons_ne_nil _ _, fun name isName => ?_⟩,
    textOf_singleton _⟩
  rw [List.mem_singleton.mp isName]
  exact plain_of_endsWithDex top.1 top.2

theorem Canonical.of_singleton (canonical : Canonical zipEntry) {name : Name}
    (isTop : namesOf zipEntry.name = [name]) : zipEntry.name = name := by
  rw [← canonical.2, isTop, textOf_singleton]

theorem Canonical.isTopDex_iff (canonical : Canonical zipEntry) {name : Name}
    (isTop : namesOf zipEntry.name = [name]) :
    IsTopDex zipEntry ↔ endsWithDex name = true := by
  have plain := canonical.1.2 name (by simp [isTop])
  rw [IsTopDex, canonical.of_singleton isTop]
  exact and_iff_right plain.2.1

/-- An entry in a directory is stored as it is. -/
theorem Canonical.not_isTopDex (canonical : Canonical zipEntry)
    {first second : Name} {rest : List Name}
    (isLong : namesOf zipEntry.name = first :: second :: rest) :
    ¬IsTopDex zipEntry := by
  rintro ⟨noSlash, _⟩
  rw [← canonical.2, isLong] at noSlash
  exact noSlash slash_mem_textOf

variable (encrypt : Bytes → Bytes)

theorem stored_of_top (top : IsTopDex zipEntry) :
    stored encrypt zipEntry =
      ⟨storedName zipEntry.name, encrypt zipEntry.content⟩ :=
  if_pos top

theorem stored_of_not_top (noTop : ¬IsTopDex zipEntry) :
    stored encrypt zipEntry = zipEntry :=
  if_neg noTop

theorem Canonical.of_stored
    (canonical : Canonical (stored encrypt zipEntry)) :
    Canonical zipEntry := by
  by_cases top : IsTopDex zipEntry
  · exact top.canonical
  · rwa [stored_of_not_top encrypt top] at canonical

theorem isDirectory_of_endsWithDex {name : Name} (content : Bytes)
    (dex : endsWithDex name = true) :
    ZipEntry.isDirectory ⟨name, content⟩ = false := by
  obtain ⟨stem, rfl⟩ := endsWithDex_iff.mp dex
  rw [ZipEntry.isDirectory, List.getLast?_append_of_ne_nil _ (by decide)]
  exact decide_eq_false (by decide)

/-- A file in a directory is one of the application. -/
theorem mem_keptOf_of_expected {apk : List ZipEntry} {shell : Bytes}
    (isExpected : zipEntry ∈ expected encrypt apk shell)
    (slash : '/' ∈ zipEntry.name) : zipEntry ∈ keptOf apk := by
  rcases List.mem_append.mp isExpected with isStored | isShell
  · obtain ⟨original, isKept, rfl⟩ := List.mem_map.mp isStored
    by_cases top : IsTopDex original
    · rw [stored_of_top encrypt top] at slash
      exact absurd slash (noSlash_storedName top.1)
    · rwa [stored_of_not_top encrypt top]
  · rw [List.mem_singleton.mp isShell] at slash
    exact absurd slash plain_classesDex.2.1

theorem isDirectory_stored (kept : zipEntry.IsKept) :
    (stored encrypt zipEntry).isDirectory = false := by
  by_cases top : IsTopDex zipEntry
  · rw [stored_of_top encrypt top]
    exact isDirectory_of_endsWithDex _ (endsWithDex_storedName top.2)
  · rw [stored_of_not_top encrypt top]
    exact kept.2

end Names

/-! ## What is packed -/

/-- A file of the unsigned application: the dex file of the shell, a file at
the top under its new name, or one in a directory. -/
inductive IsPacked (renamed : Folder Name Bytes)
    (tree : List Name → Option (Entry Bytes)) (shell : Bytes)
    (zipEntry : ZipEntry) : Prop where
  | shell (isShell : zipEntry = ⟨classesDex, shell⟩)
  | top (noShell : zipEntry.name ≠ classesDex)
      (plain : Plain zipEntry.name)
      (found : renamed zipEntry.name = some (.file zipEntry.content))
  | below (first second : Name) (rest : List Name)
      (plain : ∀ name ∈ first :: second :: rest, Plain name)
      (isName : zipEntry.name = textOf (first :: second :: rest))
      (found : tree (first :: second :: rest) =
        some (.file zipEntry.content))

section Sources

variable {renamed : Folder Name Bytes}
variable {tree : List Name → Option (Entry Bytes)} {shell : Bytes}
variable {zipEntry : ZipEntry}

theorem IsPacked.content_eq (packed : IsPacked renamed tree shell zipEntry)
    (isShell : zipEntry.name = classesDex) : zipEntry.content = shell := by
  cases packed with
  | shell isEntry => rw [isEntry]
  | top noShell _ _ => exact absurd isShell noShell
  | below first second rest _ isName _ =>
      have slash : '/' ∈ textOf (first :: second :: rest) := slash_mem_textOf
      rw [← isName, isShell] at slash
      exact absurd slash plain_classesDex.2.1

theorem IsPacked.found_top (packed : IsPacked renamed tree shell zipEntry)
    (noShell : zipEntry.name ≠ classesDex) (noSlash : '/' ∉ zipEntry.name) :
    renamed zipEntry.name = some (.file zipEntry.content) := by
  cases packed with
  | shell isEntry => exact absurd (congrArg ZipEntry.name isEntry) noShell
  | top _ _ found => exact found
  | below first second rest _ isName _ =>
      rw [isName] at noSlash
      exact absurd slash_mem_textOf noSlash

theorem IsPacked.found_below
    (packed : IsPacked renamed tree shell zipEntry)
    {first second : Name} {rest : List Name}
    (plain : ∀ name ∈ first :: second :: rest, Plain name)
    (isName : zipEntry.name = textOf (first :: second :: rest)) :
    tree (first :: second :: rest) = some (.file zipEntry.content) := by
  have slash : '/' ∈ zipEntry.name := isName ▸ slash_mem_textOf
  cases packed with
  | shell isEntry =>
      rw [isEntry] at slash
      exact absurd slash plain_classesDex.2.1
  | top _ isPlain _ => exact absurd slash isPlain.2.1
  | below _ _ _ plainHere isNameHere found =>
      rw [← textOf_inj plainHere plain (isNameHere.symm.trans isName)]
      exact found

end Sources

section Packed

variable {platform : Platform} {order : ListingOrder}
variable {workingDirectory : Path} {shell : Bytes}
variable {unzipped encrypted renamed converted added after : FileSystem Bytes}

theorem plain_of_found {path : Path} {names : List Name}
    {files : FileSystem Bytes} {entry : Entry Bytes}
    (found : files.find (path ++ names) = some entry) :
    ∀ name ∈ names, Plain name :=
  plain_of_find (by rw [found]; exact Option.some_ne_none entry)

/-- The names of an entry of the unsigned application lead down. -/
theorem Ran.canonical
    (ran : Ran platform order workingDirectory unzipped encrypted renamed
      converted added after)
    {zipEntry : ZipEntry} (noDirectory : zipEntry.isDirectory = false)
    (isArchived : zipEntry ∈ archived platform.streams after
      (unsignedPath workingDirectory)) :
    Canonical zipEntry := by
  obtain ⟨names, content, found, rfl⟩ :=
    (ran.packs zipEntry noDirectory).mp isArchived
  have plain : ∀ name ∈ names, Plain name :=
    plain_of_found found
  rw [Canonical, ZipEntry.LeadsDown, namesOf_textOf plain]
  exact ⟨⟨named_of_file ran.directory found, plain⟩, rfl⟩

/-- Two entries of one name are the same. -/
theorem Ran.unique
    (ran : Ran platform order workingDirectory unzipped encrypted renamed
      converted added after)
    {first second : ZipEntry} (firstFile : first.isDirectory = false)
    (secondFile : second.isDirectory = false)
    (isFirst : first ∈ archived platform.streams after
      (unsignedPath workingDirectory))
    (isSecond : second ∈ archived platform.streams after
      (unsignedPath workingDirectory))
    (same : first.name = second.name) : first = second := by
  obtain ⟨names, content, found, rfl⟩ :=
    (ran.packs first firstFile).mp isFirst
  obtain ⟨others, other, foundOther, rfl⟩ :=
    (ran.packs second secondFile).mp isSecond
  have isNames : names = others :=
    textOf_inj (plain_of_found found) (plain_of_found foundOther) same
  rw [isNames, foundOther] at found
  cases found
  rw [isNames]

/-- The files of the unsigned application, from the unpacked one. -/
theorem Ran.isPacked_iff
    (ran : Ran platform order workingDirectory unzipped encrypted renamed
      converted added after)
    (isShell : converted.find (aarTemp workingDirectory ++ [classesDex]) =
      some (.file shell))
    (agree : ∀ other, ¬aarTemp workingDirectory <+: other →
      converted.find other = renamed.find other) :
    ∃ buffer, readFully shell = .ok buffer ∧
      ∀ zipEntry : ZipEntry, zipEntry.isDirectory = false →
        (zipEntry ∈ archived platform.streams after
            (unsignedPath workingDirectory) ↔
          IsPacked
            ((folderAt encrypted (apkTemp workingDirectory)).renameFiles
              platform.replaces endsWithDex target
              (order.names encrypted (apkTemp workingDirectory)))
            (fun names => unzipped.find (apkTemp workingDirectory ++ names))
            buffer zipEntry) := by
  obtain ⟨content, buffer, isDex, read, atTop⟩ := ran.adds
  rw [isShell] at isDex
  cases isDex
  have agreeBelow : ∀ names,
      converted.find (apkTemp workingDirectory ++ names) =
        renamed.find (apkTemp workingDirectory ++ names) :=
    fun names => agree _ (not_aarTemp_prefix_apkTemp names)
  have top : ∀ name, name ≠ classesDex →
      added.find (apkTemp workingDirectory ++ [name]) =
        (folderAt encrypted (apkTemp workingDirectory)).renameFiles
          platform.replaces endsWithDex target
          (order.names encrypted (apkTemp workingDirectory)) name := by
    intro name isOther
    rw [atTop, if_neg isOther, agreeBelow]
    exact congrFun ran.renames name
  have long : ∀ names : List Name, names.length ≠ 1 →
      added.find (apkTemp workingDirectory ++ names) =
        unzipped.find (apkTemp workingDirectory ++ names) := by
    intro names isLong
    have notTop : ∀ name, apkTemp workingDirectory ++ names ≠
        apkTemp workingDirectory ++ [name] := by
      intro name here
      rw [List.append_cancel_left here] at isLong
      exact isLong rfl
    rw [ran.addsOnly _ notTop, agreeBelow, ran.renamesOnly _ notTop]
  refine ⟨buffer, read, fun zipEntry noDirectory => ?_⟩
  rw [ran.packs zipEntry noDirectory]
  constructor
  · rintro ⟨names, content, found, rfl⟩
    have plain : ∀ name ∈ names, Plain name :=
      plain_of_found found
    match names with
    | [] =>
        exact absurd rfl (named_of_file ran.directory found)
    | [name] =>
        rw [textOf_singleton]
        by_cases isDex : name = classesDex
        · rw [atTop, if_pos isDex] at found
          cases found
          exact .shell (by rw [isDex])
        · rw [top name isDex] at found
          exact .top isDex (plain name (List.mem_singleton_self name)) found
    | first :: second :: rest =>
        rw [long _ (by simp)] at found
        exact .below first second rest plain rfl found
  · intro isPacked
    cases isPacked with
    | shell isEntry =>
        refine ⟨[classesDex], buffer, ?_, ?_⟩
        · rw [atTop, if_pos rfl]
        · rw [isEntry, textOf_singleton]
    | top noShell plain found =>
        refine ⟨[zipEntry.name], zipEntry.content, ?_, ?_⟩
        · rw [top _ noShell, found]
        · rw [textOf_singleton]
    | below first second rest plain isName found =>
        refine ⟨first :: second :: rest, zipEntry.content, ?_, ?_⟩
        · rw [long _ (by simp)]
          exact found
        · rw [← isName]

end Packed

/-! ## A run that comes to its end -/

/-- What a run makes of the application, unpacked over what was left. -/
structure Finished (platform : Platform) (order : ListingOrder)
    (workingDirectory : Path) (files : FileSystem Bytes)
    (apk aar : List ZipEntry) (shell : Bytes)
    (start unzipped encrypted : FileSystem Bytes) (buffer : Bytes)
    (after : FileSystem Bytes) : Prop where
  started : ∃ made, Start workingDirectory files made start
  isUnzipped : unzipped =
    (extract workingDirectory newApkFile start apk).files
  shellRoom : ShellRoom workingDirectory files aar
  directory : unzipped.find (apkTemp workingDirectory) = some .directory
  encryptable : Encryptable (folderAt unzipped (apkTemp workingDirectory))
  encrypts : folderAt encrypted (apkTemp workingDirectory) =
    encryptedFolder platform (folderAt unzipped (apkTemp workingDirectory))
  read : readFully shell = .ok buffer
  unique : ∀ first second : ZipEntry, first.isDirectory = false →
    second.isDirectory = false →
    first ∈ archived platform.streams after (unsignedPath workingDirectory) →
    second ∈ archived platform.streams after
      (unsignedPath workingDirectory) →
    first.name = second.name → first = second
  packed : ∀ zipEntry : ZipEntry, zipEntry.isDirectory = false →
    (zipEntry ∈ archived platform.streams after
        (unsignedPath workingDirectory) ↔
      IsPacked
        ((folderAt encrypted (apkTemp workingDirectory)).renameFiles
          platform.replaces endsWithDex target
          (order.names encrypted (apkTemp workingDirectory)))
        (fun names => unzipped.find (apkTemp workingDirectory ++ names))
        buffer zipEntry)

section Finished

variable {platform : Platform} {order : ListingOrder}
variable {workingDirectory : Path} {files after : FileSystem Bytes}
variable {apk aar : List ZipEntry} {shell buffer : Bytes}

/-- Where the unsigned application is as it should be, all names are
canonical. -/
theorem Project.canonical (reproduce : platform.streams.Reproduce)
    (project : Project platform.streams workingDirectory apk aar files)
    (returned : main platform order workingDirectory files = .ok after)
    (same : SameFiles (archived platform.streams after
      (unsignedPath workingDirectory)) (expected platform.encrypt apk shell))
    {zipEntry : ZipEntry} (isKept : zipEntry ∈ keptOf apk) :
    Canonical zipEntry := by
  obtain ⟨made, isMain, _⟩ := @Project.prepared platform order _ _ _ _ project
  rw [isMain] at returned
  obtain ⟨_, _, _, _, ran⟩ := project.ran reproduce returned
  have noDirectory := isDirectory_stored platform.encrypt
    (mem_keptOf.mp isKept).2
  refine (ran.canonical noDirectory ((same _ noDirectory).mpr ?_)).of_stored
  exact List.mem_append_left _ (List.mem_map_of_mem isKept)

theorem Start.outside_unzipped {made start : FileSystem Bytes}
    (started : Start workingDirectory files made start)
    (down : ∀ zipEntry ∈ keptOf apk, zipEntry.LeadsDown) {other : Path}
    (isOutside : ¬apkTemp workingDirectory <+: other) :
    (extract workingDirectory newApkFile start apk).files.find other =
      made.find other := by
  have grown := grows_extract started.site down
  rw [grown.outside started.site isOutside, started.outside other isOutside]

theorem Project.finished (reproduce : platform.streams.Reproduce)
    (project : Project platform.streams workingDirectory apk aar files)
    (archive : ShellArchive platform.dx aar shell)
    (returned : main platform order workingDirectory files = .ok after)
    (down : ∀ zipEntry ∈ keptOf apk, zipEntry.LeadsDown) :
    ∃ start unzipped encrypted buffer,
      Finished platform order workingDirectory files apk aar shell start
        unzipped encrypted buffer after := by
  obtain ⟨made, isMain, prepared⟩ :=
    @Project.prepared platform order _ _ _ _ project
  rw [isMain] at returned
  obtain ⟨encrypted, renamed, converted, added, ran⟩ :=
    project.ran reproduce returned
  obtain ⟨start, isUnzipped, started⟩ := project.start prepared
  rw [isUnzipped] at ran
  obtain ⟨shellIff, shellOf⟩ := project.shell_iff archive prepared
    fun other isOutside => (ran.renamesOnly.outside isOutside).trans
      (started.outside_unzipped down isOutside)
  obtain ⟨aarDex, isConverted⟩ := ran.jar2Dex
  obtain ⟨isShell, agree⟩ := shellOf converted aarDex isConverted
  obtain ⟨buffer, read, packed⟩ := ran.isPacked_iff isShell agree
  exact ⟨start, _, encrypted, buffer, {
    started := ⟨made, started⟩
    isUnzipped := rfl
    shellRoom := shellIff.mp ⟨converted, aarDex, isConverted⟩
    directory := ran.located.isDirectory
    encryptable := ran.encryptable
    encrypts := ran.encrypts
    read := read
    unique := fun _ _ firstFile secondFile => ran.unique firstFile secondFile
    packed := packed }⟩

end Finished

end DripStone.Reinforce
