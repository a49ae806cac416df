import DripStone.Reinforce.DexFiles

/-!
# The dex file of the shell

The archive of the shell is unpacked over what earlier runs left of it.  The
conversion needs its `classes.jar`, and so all entries up to that one.
-/

namespace DripStone.Reinforce

open DripStone.Library DripStone.Unzip

/-- `"classes.jar"` -/
def jarName : Name := "classes.jar".toList

/-- An archive of a shell: its entries lead down to different places, one of
them is the `classes.jar`, and none is below `classes.dex`. -/
structure ShellArchive (dx : Bytes → Bytes) (aar : List ZipEntry)
    (shell : Bytes) : Prop where
  down : ∀ zipEntry ∈ keptOf aar, zipEntry.LeadsDown
  apart : Apart (keptOf aar)
  distinct : ((keptOf aar).map fun zipEntry => namesOf zipEntry.name).Nodup
  jar : ∃ zipEntry ∈ keptOf aar, namesOf zipEntry.name = [jarName] ∧
    dx zipEntry.content = shell
  room : ∀ zipEntry ∈ keptOf aar, [classesDex] <+: namesOf zipEntry.name →
    namesOf zipEntry.name = [classesDex]

/-- The entry is unpacked before `classes.jar`, or is that entry. -/
def UpToJar (aar : List ZipEntry) (zipEntry : ZipEntry) : Prop :=
  ∃ initial rest, keptOf aar = initial ++ zipEntry :: rest ∧
    ∀ other ∈ initial, namesOf other.name ≠ [jarName]

theorem upToJar_iff {aar initial rest : List ZipEntry} {jar : ZipEntry}
    (split : keptOf aar = initial ++ jar :: rest)
    (isJar : namesOf jar.name = [jarName])
    (first : ∀ other ∈ initial, namesOf other.name ≠ [jarName])
    (zipEntry : ZipEntry) :
    UpToJar aar zipEntry ↔ zipEntry ∈ initial ++ [jar] := by
  constructor
  · rintro ⟨before, after, splitHere, noJar⟩
    rw [split] at splitHere
    rcases List.append_eq_append_iff.mp splitHere with
      ⟨more, rfl, isRest⟩ | ⟨more, rfl, isRest⟩
    · cases more with
      | nil =>
          obtain ⟨rfl, _⟩ := List.cons.inj isRest
          simp
      | cons head more =>
          obtain ⟨rfl, _⟩ := List.cons.inj isRest
          exact absurd isJar (noJar jar (by simp))
    · cases more with
      | nil =>
          obtain ⟨rfl, _⟩ := List.cons.inj isRest
          simp
      | cons head more =>
          obtain ⟨rfl, _⟩ := List.cons.inj isRest
          simp
  · intro isUpTo
    rcases List.mem_append.mp isUpTo with earlier | here
    · obtain ⟨before, after, rfl⟩ := List.append_of_mem earlier
      refine ⟨before, after ++ jar :: rest, by simp [split],
        fun other inBefore => first other (by simp [inBefore])⟩
    · rw [List.mem_singleton.mp here]
      exact ⟨initial, rest, split, first⟩

section Unpacking

variable {workingDirectory inside : Path} {pathname : Text}
variable {prepared : FileSystem Bytes} {aar : List ZipEntry}
variable {dx : Bytes → Bytes} {shell : Bytes}

theorem extract_append_of_stopped {initial : List ZipEntry}
    (stopped : (extract workingDirectory pathname prepared
      initial).running = false) (rest : List ZipEntry) :
    extract workingDirectory pathname prepared (initial ++ rest) =
      extract workingDirectory pathname prepared initial := by
  induction rest using List.reverseRecOn with
  | nil => rw [List.append_nil]
  | append_singleton rest zipEntry inductionHypothesis =>
      rw [← List.append_assoc, extract_concat, inductionHypothesis]
      simp only [stopped, Bool.false_eq_true, if_false]

theorem extract_append_of_running {initial : List ZipEntry}
    (running : (extract workingDirectory pathname prepared
      initial).running = true) (rest : List ZipEntry) :
    extract workingDirectory pathname prepared (initial ++ rest) =
      extract workingDirectory pathname
        (extract workingDirectory pathname prepared initial).files rest := by
  rw [extract, Mealy.run_append]
  show (loop _).run (extract workingDirectory pathname prepared initial)
    rest = (loop _).run ⟨_, true⟩ rest
  rw [← running]

theorem ShellArchive.split (archive : ShellArchive dx aar shell) :
    ∃ initial jar rest, aar = initial ++ jar :: rest ∧ jar.IsKept ∧
      namesOf jar.name = [jarName] ∧
      (∀ other ∈ keptOf initial, namesOf other.name ≠ [jarName]) ∧
      keptOf aar = keptOf initial ++ jar :: keptOf rest := by
  obtain ⟨jar, isKept, isJar, _⟩ := archive.jar
  rw [mem_keptOf] at isKept
  obtain ⟨initial, rest, rfl⟩ := List.append_of_mem isKept.1
  have parts : keptOf (initial ++ jar :: rest) =
      keptOf initial ++ jar :: keptOf rest := by
    simp [keptOf, isKept.2]
  have distinct := archive.distinct
  rw [parts, List.map_append, List.map_cons, List.nodup_append'] at distinct
  refine ⟨initial, jar, rest, rfl, isKept.2, isJar, ?_, parts⟩
  intro other inInitial same
  refine distinct.2.2 (List.mem_map_of_mem inInitial) ?_
  rw [same, isJar]
  exact List.mem_cons_self

/-- A file that is not of the entries so far is not there when the next one
is in the way. -/
theorem not_file_of_stopped
    (site : Site workingDirectory pathname inside prepared)
    {initial : List ZipEntry} {jar : ZipEntry} (kept : jar.IsKept)
    (down : ∀ zipEntry ∈ keptOf (initial ++ [jar]), zipEntry.LeadsDown)
    (nothing : ∀ content,
      prepared.find (inside ++ namesOf jar.name) ≠ some (.file content))
    (first : ∀ other ∈ keptOf initial,
      namesOf other.name ≠ namesOf jar.name)
    (stopped : (extract workingDirectory pathname prepared
      (initial ++ [jar])).running = false) (content : Bytes) :
    (extract workingDirectory pathname prepared
      (initial ++ [jar])).files.find (inside ++ namesOf jar.name) ≠
        some (.file content) := by
  rw [keptOf_concat_of_kept kept] at down
  have downInitial := fun other isInitial =>
    down other (List.mem_append_left [jar] isInitial)
  have grown := grows_extract site downInitial
  have absent : ∀ content, (extract workingDirectory pathname prepared
      initial).files.find (inside ++ namesOf jar.name) ≠
        some (.file content) := by
    intro content isFile
    rcases grown.origin isFile with earlier | ⟨other, isKept, same, _⟩
    · exact nothing content earlier
    · exact first other isKept (List.append_cancel_left same).symm
  by_cases running : (extract workingDirectory pathname prepared
      initial).running = true
  · rw [extract_concat] at stopped ⊢
    simp only [running, if_true] at stopped ⊢
    obtain ⟨parent, made, failed | ⟨_, runs, _⟩⟩ := unZipEntry_cases
      (grown.site site downInitial) kept (down jar (by simp))
    · rw [failed.2]
      rcases made (inside ++ namesOf jar.name) with same | ⟨_, _, directory⟩
      · rw [same]
        exact absent content
      · simp [directory]
    · rw [runs] at stopped
      cases stopped
  · rw [extract_append_of_stopped (Bool.not_eq_true _ ▸ running)]
    exact absent content

/-- `classes.jar` is unpacked exactly if nothing that is left is in the way
of an entry up to it. -/
theorem ShellArchive.jar_iff (archive : ShellArchive dx aar shell)
    (site : Site workingDirectory pathname inside prepared)
    (noTopFile : ∀ name content,
      prepared.find (inside ++ [name]) ≠ some (.file content)) :
    (∃ content, (extract workingDirectory pathname prepared
        aar).files.find (inside ++ [jarName]) = some (.file content)) ↔
      ∀ zipEntry, UpToJar aar zipEntry →
        Unhindered prepared inside (namesOf zipEntry.name) := by
  obtain ⟨initial, jar, rest, rfl, kept, isJar, first, parts⟩ :=
    archive.split
  have upTo : ∀ zipEntry, UpToJar (initial ++ jar :: rest) zipEntry ↔
      zipEntry ∈ keptOf (initial ++ [jar]) := by
    intro zipEntry
    rw [keptOf_concat_of_kept kept]
    exact upToJar_iff parts isJar first zipEntry
  have subset : ∀ zipEntry ∈ keptOf (initial ++ [jar]),
      zipEntry ∈ keptOf (initial ++ jar :: rest) := by
    intro zipEntry
    simp only [mem_keptOf, List.mem_append, List.mem_cons, List.not_mem_nil,
      or_false]
    rintro ⟨earlier | here, isKept⟩
    · exact ⟨Or.inl earlier, isKept⟩
    · exact ⟨Or.inr (Or.inl here), isKept⟩
  have down : ∀ zipEntry ∈ keptOf (initial ++ [jar]), zipEntry.LeadsDown :=
    fun zipEntry isUpTo => archive.down zipEntry (subset zipEntry isUpTo)
  have apart : Apart (keptOf (initial ++ [jar])) :=
    fun one isOne other isOther => archive.apart one (subset one isOne) other
      (subset other isOther)
  have regrouped : initial ++ jar :: rest = (initial ++ [jar]) ++ rest := by
    simp
  simp only [upTo]
  have runs := (running_iff site down).trans (and_iff_right apart)
  rw [← runs, regrouped]
  constructor
  · rintro ⟨content, isFile⟩
    by_contra notRunning
    rw [Bool.not_eq_true] at notRunning
    rw [extract_append_of_stopped notRunning, ← isJar] at isFile
    refine not_file_of_stopped site kept down ?_ (fun other isInitial => ?_)
      notRunning content isFile
    · rw [isJar]
      exact noTopFile jarName
    · rw [isJar]
      exact first other isInitial
  · intro running
    have unpacked := unpacked_of_running site down running
    obtain ⟨_, _, _, isFile⟩ := unpacked.file jar (by simp [kept])
    have siteThen := (grows_extract site down).site site down
    have downRest : ∀ zipEntry ∈ keptOf rest, zipEntry.LeadsDown := by
      intro zipEntry isRest
      apply archive.down zipEntry
      rw [parts]
      exact List.mem_append_right _ (List.mem_cons_of_mem jar isRest)
    have grown := grows_extract siteThen downRest
    rw [extract_append_of_running running, ← isJar]
    exact grown.stays isFile

/-- The file is that of the archive. -/
theorem ShellArchive.dx_eq (archive : ShellArchive dx aar shell)
    (site : Site workingDirectory pathname inside prepared)
    (noTopFile : ∀ name content,
      prepared.find (inside ++ [name]) ≠ some (.file content))
    {content : Bytes} (isFile : (extract workingDirectory pathname prepared
      aar).files.find (inside ++ [jarName]) = some (.file content)) :
    dx content = shell := by
  obtain ⟨jar, isKept, isJar, converted⟩ := archive.jar
  rcases (grows_extract site archive.down).origin isFile with
    earlier | ⟨other, otherKept, same, isContent⟩
  · exact absurd earlier (noTopFile jarName content)
  · have sameNames : namesOf other.name = namesOf jar.name := by
      rw [isJar]
      exact (List.append_cancel_left same).symm
    have isOther := List.inj_on_of_nodup_map archive.distinct otherKept isKept
      sameNames
    rw [← isContent, isOther, converted]

/-- Nothing of the archive makes a directory of the place for the dex
file. -/
theorem ShellArchive.directory_iff (archive : ShellArchive dx aar shell)
    (site : Site workingDirectory pathname inside prepared) :
    (extract workingDirectory pathname prepared aar).files.find
        (inside ++ [classesDex]) = some .directory ↔
      prepared.find (inside ++ [classesDex]) = some .directory := by
  have grown := grows_extract site archive.down
  refine ⟨fun directory => ?_, grown.keeps _⟩
  rcases grown (inside ++ [classesDex]) with same |
    ⟨_, _, zipEntry, isKept, isAbove⟩ | ⟨_, _, _, _, written⟩
  · rw [← same, directory]
  · rw [List.prefix_append_right_inj] at isAbove
    have isPlace := archive.room zipEntry isKept
      (isAbove.trans (List.dropLast_prefix _))
    have lengths := isAbove.length_le
    rw [isPlace] at lengths
    simp at lengths
  · rw [directory] at written
    cases written

end Unpacking

/-! ## `Dx.jar2Dex` -/

theorem plain_jarName : Plain jarName := by decide

theorem plain_classesDex : Plain classesDex := by decide

section Conversion

variable {platform : Platform} {order : ListingOrder}
variable {workingDirectory path : Path} {dir : File}
variable {files : FileSystem Bytes}

/-- A stream on a file opens where there is no directory. -/
theorem Located.writeArchive_ok_iff
    (located : Located workingDirectory dir path files) {name : Name}
    (plain : Plain name) (content : Bytes) :
    (∃ written, writeArchive workingDirectory files (dir.child name) content =
        .ok written) ↔ files.find (path ++ [name]) ≠ some .directory := by
  have isPlace := place_child located.isPlace located.isDirectory plain
  constructor
  · rintro ⟨written, succeeded⟩
    simp only [writeArchive, isPlace] at succeeded
    cases atWrite : files.write (path ++ [name]) content with
    | none =>
        rw [atWrite] at succeeded
        cases succeeded
    | some after =>
        obtain ⟨isOpen, _⟩ := FileSystem.write_eq_some_iff.mp atWrite
        exact isOpen.2.2.2
  · intro noDirectory
    obtain ⟨written, succeeded, _⟩ := writeArchive_of_open isPlace
      (open_child located.isDirectory plain noDirectory) content
    exact ⟨written, succeeded⟩

/-- The files named `classes.jar` in a listing. -/
theorem mem_accepted {file : File} :
    file ∈ ((order.names files path).map dir.child).filter (fun file =>
        file.getName = jarName) ↔
      file = dir.child jarName ∧ files.find (path ++ [jarName]) ≠ none := by
  rw [List.mem_filter, List.mem_map, decide_eq_true_iff]
  constructor
  · rintro ⟨⟨name, isListed, rfl⟩, isJar⟩
    rw [getName_child (plain_of_listed isListed)] at isJar
    rw [isJar] at isListed ⊢
    exact ⟨rfl, mem_order.mp isListed⟩
  · rintro ⟨rfl, exists_⟩
    exact ⟨⟨jarName, mem_order.mpr exists_, rfl⟩,
      getName_child plain_jarName⟩

section Jar

variable {aarFile : File} {inside : Path}

/-- What `jar2Dex` has done when it returns. -/
theorem of_jar2Dex
    (below : Below workingDirectory
      (fakeDexOf aarFile) inside)
    {after : FileSystem Bytes} {aarDex : File}
    (returned : jar2Dex platform order workingDirectory aarFile files =
      .ok (after, aarDex)) :
    let fakeDex := File.ofText (fakeDexOf aarFile)
    let unzipped := unZip platform.streams workingDirectory aarFile
      (fakeDexOf aarFile) files
    Located workingDirectory fakeDex inside unzipped ∧
      aarDex = fakeDex.child classesDex ∧
      unzipped.find (inside ++ [classesDex]) ≠ some .directory ∧
      SameButFolder inside unzipped after ∧
      (∀ name, name ≠ classesDex →
        after.find (inside ++ [name]) = unzipped.find (inside ++ [name])) ∧
      ∃ content, unzipped.find (inside ++ [jarName]) = some (.file content) ∧
        after.find (inside ++ [classesDex]) =
          some (.file (platform.dx content)) := by
  rw [jar2Dex] at returned
  dsimp only at returned ⊢
  generalize unZip platform.streams workingDirectory aarFile
    (fakeDexOf aarFile) files = unzipped
    at returned ⊢
  cases isListed : listFiles order workingDirectory
      (File.ofText (fakeDexOf aarFile)) unzipped with
  | none =>
      rw [isListed] at returned
      cases returned
  | some listed =>
      obtain ⟨isPlace, isDirectory⟩ :=
        directory_of_listFiles below.normalized isListed
      have located : Located workingDirectory (File.ofText
          (fakeDexOf aarFile)) inside unzipped :=
        ⟨below.relative, below.named, below.isPath, isDirectory⟩
      rw [listFiles_of_directory isPlace isDirectory, Option.map_some]
        at returned
      generalize isDir : File.ofText
        (fakeDexOf aarFile) = fakeDex
        at returned located ⊢
      cases accepted : ((order.names unzipped inside).map
          fakeDex.child).filter (fun file => file.getName = jarName) with
      | nil =>
          rw [show "classes.jar".toList = jarName from rfl, accepted]
            at returned
          cases returned
      | cons classes_jar others =>
          rw [show "classes.jar".toList = jarName from rfl, accepted]
            at returned
          have isAccepted : classes_jar ∈ ((order.names unzipped inside).map
              fakeDex.child).filter (fun file => file.getName = jarName) := by
            rw [accepted]
            exact List.mem_cons_self
          obtain ⟨rfl, _⟩ := mem_accepted.mp isAccepted
          simp only [located.getParentFile_child plain_jarName, dxCommand,
            located.entryOf_child plain_jarName] at returned
          cases found : unzipped.find (inside ++ [jarName]) with
          | none =>
              rw [found] at returned
              cases returned
          | some entry =>
              cases entry with
              | directory =>
                  rw [found] at returned
                  cases returned
              | file content =>
                  simp only [found] at returned
                  cases succeeded : writeArchive workingDirectory unzipped
                      (fakeDex.child classesDex) (platform.dx content) with
                  | error failure =>
                      rw [succeeded] at returned
                      cases returned
                  | ok written =>
                      rw [succeeded] at returned
                      cases returned
                      have noDirectory := (located.writeArchive_ok_iff
                        plain_classesDex _).mp ⟨after, succeeded⟩
                      obtain ⟨same, isWritten, sameBut, atFolder⟩ :=
                        located.writeFile plain_classesDex noDirectory
                          (platform.dx content)
                      rw [writeFile, succeeded] at isWritten
                      cases isWritten
                      refine ⟨located, rfl, noDirectory, sameBut,
                        fun name isOther => ?_, content, rfl, ?_⟩
                      · rw [atFolder, if_neg isOther]
                      · rw [atFolder, if_pos rfl]

/-- When `jar2Dex` returns. -/
theorem exists_jar2Dex
    (located : Located workingDirectory
      (File.ofText (fakeDexOf aarFile)) inside
      (unZip platform.streams workingDirectory aarFile
        (fakeDexOf aarFile) files))
    {content : Bytes}
    (isFile : (unZip platform.streams workingDirectory aarFile
      (fakeDexOf aarFile) files).find
        (inside ++ [jarName]) = some (.file content))
    (noDirectory : (unZip platform.streams workingDirectory aarFile
      (fakeDexOf aarFile) files).find
        (inside ++ [classesDex]) ≠ some .directory) :
    ∃ after aarDex, jar2Dex platform order workingDirectory aarFile files =
      .ok (after, aarDex) := by
  rw [jar2Dex]
  generalize unZip platform.streams workingDirectory aarFile
    (fakeDexOf aarFile) files = unzipped
    at located isFile noDirectory ⊢
  generalize File.ofText (fakeDexOf aarFile) =
    fakeDex at located ⊢
  rw [listFiles_of_directory located.isPlace located.isDirectory,
    Option.map_some, show "classes.jar".toList = jarName from rfl]
  cases accepted : ((order.names unzipped inside).map
      fakeDex.child).filter (fun file => file.getName = jarName) with
  | nil =>
      have isAccepted : fakeDex.child jarName ∈ ((order.names unzipped
          inside).map fakeDex.child).filter (fun file =>
            file.getName = jarName) :=
        mem_accepted.mpr ⟨rfl, by simp [isFile]⟩
      rw [accepted] at isAccepted
      exact absurd isAccepted List.not_mem_nil
  | cons classes_jar others =>
      have isAccepted : classes_jar ∈ ((order.names unzipped inside).map
          fakeDex.child).filter (fun file => file.getName = jarName) := by
        rw [accepted]
        exact List.mem_cons_self
      obtain ⟨rfl, _⟩ := mem_accepted.mp isAccepted
      obtain ⟨written, succeeded⟩ := (located.writeArchive_ok_iff
        plain_classesDex (platform.dx content)).mpr noDirectory
      refine ⟨written, fakeDex.child classesDex, ?_⟩
      simp only [located.getParentFile_child plain_jarName, dxCommand,
        located.entryOf_child plain_jarName, isFile, succeeded]
      rfl

end Jar

/-! ## Beside the other dex files -/

theorem tempMainDex_eq :
    tempMainDex = (File.ofText newApkFile).child classesDex := by decide

theorem Located.createNewFile
    (located : Located workingDirectory dir path files) {name : Name}
    (plain : Plain name) :
    ∃ created, resultOf (Unzip.createNewFile workingDirectory
        (dir.child name) files) = .ok created ∧
      SameButFolder path files created ∧
      (created.find (path ++ [name]) = some .directory ↔
        files.find (path ++ [name]) = some .directory) ∧
      ∀ other, other ≠ name →
        created.find (path ++ [other]) = files.find (path ++ [other]) := by
  have isPlace := place_child located.isPlace located.isDirectory plain
  by_cases exists_ : files.find (path ++ [name]) = none
  · obtain ⟨written, succeeded, _, found⟩ := FileSystem.write_of_open
      (open_child located.isDirectory plain (by simp [exists_])) []
    refine ⟨written, ?_, fun other isOther => ?_, ?_, fun other isOther => ?_⟩
    · simp [Unzip.createNewFile, isPlace, exists_, succeeded, resultOf]
    · rw [found, if_neg (isOther name)]
    · rw [found, if_pos rfl, exists_]
      simp
    · rw [found, if_neg (by simpa using isOther)]
  · refine ⟨files, ?_, SameButFolder.refl _ _, Iff.rfl, fun _ _ => rfl⟩
    have isSome : (files.find (path ++ [name])).isSome = true :=
      Option.isSome_iff_ne_none.mpr exists_
    simp [Unzip.createNewFile, isPlace, isSome, resultOf, Outcome.unchanged]

variable {shellPath : Path} {fakeDex : File} {content : Bytes}

/-- The dex file of the shell is read behind the opening of the other. -/
theorem Located.getBytes_of_same
    (located : Located workingDirectory fakeDex shellPath files)
    {opened : FileSystem Bytes} (same : SameButFolder path files opened)
    (apart : ∀ rest more, shellPath ++ rest ≠ path ++ more)
    (isDex : files.find (shellPath ++ [classesDex]) =
      some (.file content)) :
    getBytes workingDirectory (fakeDex.child classesDex) opened =
      readFully content := by
  have sameBelow : ∀ rest,
      opened.find (shellPath ++ rest) = files.find (shellPath ++ rest) :=
    fun rest => same _ fun name => apart rest [name]
  have isDirectory := sameBelow []
  rw [List.append_nil, located.isDirectory] at isDirectory
  have locatedThen : Located workingDirectory fakeDex shellPath opened :=
    { located with isDirectory := isDirectory }
  rw [getBytes, locatedThen.entryOf_child plain_classesDex, sameBelow, isDex]

/-- What `addShellDex` has done when it returns, and when it does. -/
theorem addShellDex_iff
    (located : Located workingDirectory (File.ofText newApkFile) path files)
    (shellLocated : Located workingDirectory fakeDex shellPath files)
    (apart : ∀ rest more, shellPath ++ rest ≠ path ++ more)
    (isDex : files.find (shellPath ++ [classesDex]) =
      some (.file content)) :
    (∀ after, addShellDex workingDirectory (fakeDex.child classesDex) files =
        .ok after →
      files.find (path ++ [classesDex]) ≠ some .directory ∧
      SameButFolder path files after ∧
      ∃ buffer, readFully content = .ok buffer ∧
        ∀ other, after.find (path ++ [other]) =
          if other = classesDex then some (.file buffer)
          else files.find (path ++ [other])) ∧
    (files.find (path ++ [classesDex]) ≠ some .directory →
      ∀ buffer, readFully content = .ok buffer → ∃ after,
        addShellDex workingDirectory (fakeDex.child classesDex) files =
          .ok after) := by
  obtain ⟨created, isCreated, sameCreated, directoryIff, kept⟩ :=
    located.createNewFile plain_classesDex
  have locatedCreated := located.of_same sameCreated
  -- what follows when the stream opens
  have steps : files.find (path ++ [classesDex]) ≠ some .directory →
      ∃ opened, writeFile workingDirectory tempMainDex [] created =
          .ok opened ∧
        getBytes workingDirectory (fakeDex.child classesDex) opened =
          readFully content ∧
        ∀ buffer, ∃ after, writeFile workingDirectory tempMainDex buffer
            opened = .ok after ∧
          SameButFolder path files after ∧
          ∀ other, after.find (path ++ [other]) =
            if other = classesDex then some (.file buffer)
            else files.find (path ++ [other]) := by
    intro noDirectory
    obtain ⟨opened, isOpened, sameOpened, foundOpened⟩ :=
      locatedCreated.writeFile plain_classesDex
        (fun directory => noDirectory (directoryIff.mp directory)) []
    have same := sameCreated.trans sameOpened
    refine ⟨opened, ?_,
      shellLocated.getBytes_of_same same apart isDex,
      fun buffer => ?_⟩
    · rw [tempMainDex_eq, isOpened]
    · obtain ⟨after, isAfter, sameAfter, foundAfter⟩ :=
        (located.of_same same).writeFile plain_classesDex
          (by rw [foundOpened, if_pos rfl]; simp) buffer
      refine ⟨after, by rw [tempMainDex_eq, isAfter], same.trans sameAfter,
        fun other => ?_⟩
      rw [foundAfter, foundOpened]
      by_cases here : other = classesDex
      · rw [if_pos here, if_pos here]
      · rw [if_neg here, if_neg here, if_neg here, kept other here]
  have start : ∀ {result}, addShellDex workingDirectory
      (fakeDex.child classesDex) files = result ↔
      (do
        let opened ← writeFile workingDirectory tempMainDex [] created
        let fbytes ← getBytes workingDirectory (fakeDex.child classesDex)
          opened
        writeFile workingDirectory tempMainDex fbytes opened) = result := by
    intro result
    rw [addShellDex, tempMainDex_eq, isCreated]
    rfl
  constructor
  · intro after returned
    rw [start, except_bind_eq_ok] at returned
    obtain ⟨opened, isOpened, returned⟩ := returned
    have noDirectory : files.find (path ++ [classesDex]) ≠
        some .directory := by
      rw [Ne, ← directoryIff]
      apply (locatedCreated.writeArchive_ok_iff plain_classesDex []).mp
      rw [← tempMainDex_eq]
      rw [writeFile] at isOpened
      cases succeeded : writeArchive workingDirectory created tempMainDex []
        with
      | error failure =>
          rw [succeeded] at isOpened
          cases isOpened
      | ok written => exact ⟨written, rfl⟩
    obtain ⟨same, isSame, read, writes⟩ := steps noDirectory
    rw [isOpened] at isSame
    cases isSame
    rw [read, except_bind_eq_ok] at returned
    obtain ⟨buffer, isBuffer, returned⟩ := returned
    obtain ⟨written, isWritten, sameBut, found⟩ := writes buffer
    rw [returned] at isWritten
    cases isWritten
    exact ⟨noDirectory, sameBut, buffer, isBuffer, found⟩
  · intro noDirectory buffer isBuffer
    obtain ⟨opened, isOpened, read, writes⟩ := steps noDirectory
    obtain ⟨after, isAfter, _⟩ := writes buffer
    refine ⟨after, ?_⟩
    rw [start, isOpened]
    show (getBytes workingDirectory (fakeDex.child classesDex) opened >>=
      fun fbytes => writeFile workingDirectory tempMainDex fbytes opened) = _
    rw [read, isBuffer]
    exact isAfter

end Conversion

end DripStone.Reinforce
