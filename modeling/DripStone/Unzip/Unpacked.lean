import DripStone.Unzip.Extracted

/-!
# `Zip.unZip` over other files

The destination can hold files from before.  An entry is written exactly if
no file stands on the way to it and no directory at its place; the first one
that is not ends the loop.
-/

namespace DripStone.Unzip

open DripStone.Library

/-- An entry that `Zip.unZip` extracts. -/
def ZipEntry.IsKept (zipEntry : ZipEntry) : Prop :=
  zipEntry.name ∉ signatureFiles ∧ zipEntry.isDirectory = false

instance (zipEntry : ZipEntry) : Decidable zipEntry.IsKept :=
  inferInstanceAs (Decidable (_ ∧ _))

/-- The names lead down. -/
def ZipEntry.LeadsDown (zipEntry : ZipEntry) : Prop :=
  namesOf zipEntry.name ≠ [] ∧ ∀ name ∈ namesOf zipEntry.name, Plain name

/-- Where an archive is unpacked: a directory, or a place for one. -/
structure Site (workingDirectory : Path) (destination : Text)
    (inside : Path) (files : FileSystem Bytes) : Prop where
  named : destination ≠ []
  reach : ∀ after : FileSystem Bytes, after.find inside = some .directory →
    place workingDirectory (File.ofText destination) after = some inside
  normalized :
    (File.ofText destination).normalized workingDirectory = inside
  plain : ∀ name ∈ inside, Plain name
  below : inside ≠ []
  above : files.find inside.dropLast = some .directory
  noFile : ∀ content, files.find inside ≠ some (.file content)

/-- Nothing is in the way of a file. -/
def Unhindered (files : FileSystem Bytes) (inside : Path) (names : List Name) :
    Prop :=
  files.Unblocked (inside ++ names.dropLast) ∧
    files.find (inside ++ names) ≠ some .directory

section Entry

variable {workingDirectory : Path} {destination : Text} {inside : Path}
variable {files : FileSystem Bytes} {zipEntry : ZipEntry}

theorem prefix_of_proper {path target : Path} (isPrefix : path <+: target)
    (proper : path ≠ target) : path <+: target.dropLast := by
  obtain ⟨rest, rfl⟩ := isPrefix
  have more : rest ≠ [] := by
    rintro rfl
    exact proper (List.append_nil path).symm
  rw [List.dropLast_append_of_ne_nil more]
  exact List.prefix_append _ _

theorem unblocked_of_noFile
    (above : files.find inside.dropLast = some .directory)
    (noFile : ∀ content, files.find inside ≠ some (.file content)) :
    files.Unblocked inside := by
  intro path isAbove
  by_cases here : path = inside
  · cases found : files.find path with
    | none => exact Or.inl rfl
    | some entry =>
        cases entry with
        | directory => exact Or.inr rfl
        | file content => exact absurd (here ▸ found) (noFile content)
  · obtain ⟨rest, isDirectory⟩ := prefix_of_proper isAbove here
    rw [← isDirectory] at above
    exact Or.inr (files.directory_of_append above)

theorem Site.unblocked (site : Site workingDirectory destination inside
    files) : files.Unblocked inside :=
  unblocked_of_noFile site.above site.noFile

theorem unhindered_of_above {names : List Name}
    (above : files.find (inside ++ names.dropLast) = some .directory)
    (free : files.find (inside ++ names) ≠ some .directory) :
    Unhindered files inside names := by
  refine ⟨fun path isAbove => Or.inr ?_, free⟩
  obtain ⟨rest, isWhole⟩ := isAbove
  rw [← isWhole] at above
  exact files.directory_of_append above

theorem ZipEntry.LeadsDown.eq_concat (down : zipEntry.LeadsDown) :
    ∃ initial last, namesOf zipEntry.name = initial ++ [last] :=
  ⟨_, _, (List.dropLast_append_getLast down.1).symm⟩

/-! ## One entry -/

/-- A write through a stream happens at an open path, or not at all. -/
theorem fileOutputStream_cases (file : File) (content : Bytes) :
    let outcome := fileOutputStream workingDirectory file files content
    outcome.thrown = true ∧ outcome.files = files ∨
      files.Open (file.normalized workingDirectory) ∧
        outcome.thrown = false ∧
        ∀ other, outcome.files.find other =
          if other = file.normalized workingDirectory then
            some (.file content)
          else files.find other := by
  simp only [fileOutputStream]
  cases isPlace : place workingDirectory file files with
  | none => exact Or.inl ⟨rfl, rfl⟩
  | some path =>
      have isPath : file.normalized workingDirectory = path :=
        FileSystem.normalize_of_resolve isPlace
      dsimp only
      cases succeeded : files.write path content with
      | none => exact Or.inl ⟨rfl, rfl⟩
      | some written =>
          obtain ⟨isOpen, rfl⟩ := FileSystem.write_eq_some_iff.mp succeeded
          rw [isPath]
          exact Or.inr ⟨isOpen, rfl, FileSystem.find_put files path _ isOpen⟩

theorem unZipEntry_eq (site : Site workingDirectory destination inside files)
    (kept : zipEntry.IsKept) {initial : List Name} {last : Name}
    (isName : namesOf zipEntry.name = initial ++ [last]) :
    unZipEntry workingDirectory (File.ofText destination) zipEntry files =
      (mkdirs workingDirectory
        { File.ofText destination with
          names := (File.ofText destination).names ++ initial } files).bind
        fun files =>
          fileOutputStream workingDirectory
            ((File.ofText destination).child zipEntry.name) files
            zipEntry.content := by
  rw [unZipEntry, if_neg kept.1, kept.2]
  simp only [Bool.false_eq_true, if_false, mkdirsOfParent,
    parent_of_child site.named isName]
  rw [copied_eq (by omega)]

/-- What a call for a file does: it is written where it is free, else
nothing but directories is made. -/
theorem unZipEntry_cases (site : Site workingDirectory destination inside
      files) (kept : zipEntry.IsKept) (down : zipEntry.LeadsDown) :
    let outcome := unZipEntry workingDirectory (File.ofText destination)
      zipEntry files
    let names := namesOf zipEntry.name
    ∃ parent : FileSystem Bytes,
      (∀ other, parent.find other = files.find other ∨
        other <+: inside ++ names.dropLast ∧ files.find other = none ∧
          parent.find other = some .directory) ∧
      (outcome.thrown = true ∧ outcome.files = parent ∨
        Unhindered files inside names ∧ outcome.thrown = false ∧
          ∀ other, outcome.files.find other =
            if other = inside ++ names then some (.file zipEntry.content)
            else parent.find other) := by
  obtain ⟨initial, last, isName⟩ := down.eq_concat
  have plainInitial : ∀ name ∈ initial, Plain name := fun name inInitial =>
    down.2 name (by simp [isName, inInitial])
  have atParent := normalize_child site.normalized plainInitial
  have atFile : ((File.ofText destination).child
      zipEntry.name).normalized workingDirectory =
        inside ++ (initial ++ [last]) := by
    have whole := normalize_child site.normalized down.2
    rw [isName] at whole
    rw [File.child, isName]
    exact whole
  simp only [unZipEntry_eq site kept isName]
  simp only [isName, List.dropLast_concat]
  have runs := @mkdirs_runs workingDirectory
    { File.ofText destination with
      names := (File.ofText destination).names ++ initial } files
  have made : ∀ other,
      (mkdirs workingDirectory
        { File.ofText destination with
          names := (File.ofText destination).names ++ initial }
        files).files.find other = files.find other ∨
      other <+: inside ++ initial ∧ files.find other = none ∧
        (mkdirs workingDirectory
          { File.ofText destination with
            names := (File.ofText destination).names ++ initial }
          files).files.find other = some .directory := by
    intro other
    rw [mkdirs]
    split
    · exact Or.inl rfl
    · rw [atParent]
      exact files.find_mkdirs_cases _ other
  generalize mkdirs workingDirectory
    { File.ofText destination with
      names := (File.ofText destination).names ++ initial } files = parent
    at runs made
  refine ⟨parent.files, made, ?_⟩
  simp only [Outcome.bind, runs, Bool.false_eq_true, if_false]
  rcases @fileOutputStream_cases workingDirectory parent.files
      ((File.ofText destination).child zipEntry.name) zipEntry.content with
    failed | ⟨isOpen, written, found⟩
  · exact Or.inl failed
  · rw [atFile] at isOpen found
    refine Or.inr ⟨⟨?_, ?_⟩, written, found⟩
    · intro path isAbove
      rw [List.dropLast_concat] at isAbove
      have directory := isOpen.2.1
      rw [← List.append_assoc, List.dropLast_concat] at directory
      obtain ⟨rest, isWhole⟩ := isAbove
      rw [← isWhole] at directory
      have atPath := parent.files.directory_of_append directory
      rcases made path with same | ⟨_, missing, _⟩
      · exact Or.inr (same ▸ atPath)
      · exact Or.inl missing
    · intro directory
      rcases made (inside ++ (initial ++ [last])) with same | ⟨_, missing, _⟩
      · exact isOpen.2.2.2 (same.trans directory)
      · rw [directory] at missing
        cases missing

/-! ## How the files change -/

/-- Directories are made and the files of some entries are written; no
directory and no file goes away. -/
def Grows (inside : Path) (done : List ZipEntry)
    (before after : FileSystem Bytes) : Prop :=
  ∀ other, after.find other = before.find other ∨
    (before.find other = none ∧ after.find other = some .directory ∧
      ∃ zipEntry ∈ done,
        other <+: inside ++ (namesOf zipEntry.name).dropLast) ∨
    (before.find other ≠ some .directory ∧ ∃ zipEntry ∈ done,
      other = inside ++ namesOf zipEntry.name ∧
        after.find other = some (.file zipEntry.content))

section Grows

variable {done more : List ZipEntry} {before after last : FileSystem Bytes}

theorem Grows.refl (files : FileSystem Bytes) : Grows inside done files files :=
  fun _ => Or.inl rfl

theorem Grows.mono (grows : Grows inside done before after)
    (subset : done ⊆ more) : Grows inside more before after := by
  intro other
  rcases grows other with same | ⟨missing, made, zipEntry, isDone, isAbove⟩ |
    ⟨noDirectory, zipEntry, isDone, here, written⟩
  · exact Or.inl same
  · exact Or.inr (Or.inl ⟨missing, made, zipEntry, subset isDone, isAbove⟩)
  · exact Or.inr (Or.inr ⟨noDirectory, zipEntry, subset isDone, here,
      written⟩)

theorem Grows.trans (grows : Grows inside done before after)
    (later : Grows inside done after last) :
    Grows inside done before last := by
  intro other
  rcases later other with same | ⟨missing, made, someDone⟩ |
    ⟨noDirectory, someDone⟩
  · rw [same]
    exact grows other
  · rcases grows other with same | ⟨_, directory, _⟩ |
      ⟨_, zipEntry, _, _, written⟩
    · exact Or.inr (Or.inl ⟨same ▸ missing, made, someDone⟩)
    · rw [missing] at directory
      cases directory
    · rw [missing] at written
      cases written
  · refine Or.inr (Or.inr ⟨fun directory => ?_, someDone⟩)
    rcases grows other with same | ⟨missing, _⟩ | ⟨noDirectoryBefore, _⟩
    · exact noDirectory (same.trans directory)
    · rw [missing] at directory
      cases directory
    · exact noDirectoryBefore directory

theorem Grows.keeps (grows : Grows inside done before after) :
    Keeps before after := by
  intro path directory
  rcases grows path with same | ⟨missing, _⟩ | ⟨noDirectory, _⟩
  · rw [same, directory]
  · rw [missing] at directory
    cases directory
  · exact absurd directory noDirectory

/-- A file can be overwritten, but does not go away. -/
theorem Grows.stays (grows : Grows inside done before after) {path : Path}
    {content : Bytes} (isFile : before.find path = some (.file content)) :
    ∃ written, after.find path = some (.file written) := by
  rcases grows path with same | ⟨missing, _⟩ | ⟨_, zipEntry, _, _, written⟩
  · exact ⟨content, same.trans isFile⟩
  · rw [missing] at isFile
    cases isFile
  · exact ⟨_, written⟩

/-- A file is one from before or that of an entry. -/
theorem Grows.origin (grows : Grows inside done before after) {path : Path}
    {content : Bytes} (isFile : after.find path = some (.file content)) :
    before.find path = some (.file content) ∨ ∃ zipEntry ∈ done,
      path = inside ++ namesOf zipEntry.name ∧
        zipEntry.content = content := by
  rcases grows path with same | ⟨_, made, _⟩ |
    ⟨_, zipEntry, isDone, here, written⟩
  · exact Or.inl (same ▸ isFile)
  · rw [isFile] at made
    cases made
  · rw [isFile] at written
    cases written
    exact Or.inr ⟨zipEntry, isDone, here, rfl⟩

/-- Only what the names of the entries lead through changes. -/
theorem Grows.same (grows : Grows inside done before after) {path : Path}
    (notAbove : ∀ zipEntry ∈ done,
      ¬path <+: inside ++ namesOf zipEntry.name) :
    after.find path = before.find path := by
  rcases grows path with same | ⟨_, _, zipEntry, isDone, isAbove⟩ |
    ⟨_, zipEntry, isDone, here, _⟩
  · exact same
  · refine absurd (isAbove.trans ?_) (notAbove zipEntry isDone)
    exact (List.prefix_append_right_inj inside).mpr (List.dropLast_prefix _)
  · exact absurd (here ▸ List.prefix_rfl) (notAbove zipEntry isDone)

theorem Grows.outside (grows : Grows inside done before after)
    (site : Site workingDirectory destination inside before) {path : Path}
    (isOutside : ¬inside <+: path) : after.find path = before.find path := by
  rcases grows path with same | ⟨missing, _, zipEntry, _, isAbove⟩ |
    ⟨_, zipEntry, _, here, _⟩
  · exact same
  · exfalso
    rcases List.prefix_or_prefix_of_prefix isAbove
        (List.prefix_append inside _) with outer | inner
    · have proper : path ≠ inside := by
        rintro rfl
        exact isOutside List.prefix_rfl
      obtain ⟨rest, isDirectory⟩ := prefix_of_proper outer proper
      have above := site.above
      rw [← isDirectory] at above
      have directory := before.directory_of_append above
      rw [missing] at directory
      cases directory
    · exact isOutside inner
  · exact absurd (here ▸ List.prefix_append _ _) isOutside

theorem Grows.site (grows : Grows inside done before after)
    (site : Site workingDirectory destination inside before)
    (down : ∀ zipEntry ∈ done, zipEntry.LeadsDown) :
    Site workingDirectory destination inside after :=
  { site with
    above := grows.keeps _ site.above
    noFile := by
      intro content isFile
      rcases grows.origin isFile with earlier |
        ⟨zipEntry, isDone, here, _⟩
      · exact site.noFile content earlier
      · exact (down zipEntry isDone).1 (by simpa using here) }

/-- What is in the way of a file stays there. -/
theorem Grows.not_unhindered (grows : Grows inside done before after)
    {names : List Name} (blocked : ¬Unhindered before inside names) :
    ¬Unhindered after inside names := by
  rintro ⟨unblocked, noDirectory⟩
  refine blocked ⟨fun path isAbove => ?_, fun directory => ?_⟩
  · cases found : before.find path with
    | none => exact Or.inl rfl
    | some entry =>
        cases entry with
        | directory => exact Or.inr rfl
        | file content =>
            obtain ⟨written, isFile⟩ := grows.stays found
            rcases unblocked path isAbove with missing | directory
            · rw [missing] at isFile
              cases isFile
            · rw [directory] at isFile
              cases isFile
  · exact noDirectory (grows.keeps _ directory)

end Grows

theorem grows_unZipEntry (site : Site workingDirectory destination inside
      files) (kept : zipEntry.IsKept) (down : zipEntry.LeadsDown) :
    Grows inside [zipEntry] files
      (unZipEntry workingDirectory (File.ofText destination) zipEntry
        files).files := by
  obtain ⟨parent, made, failed | ⟨free, _, written⟩⟩ :=
    unZipEntry_cases site kept down
  · intro other
    rw [failed.2]
    rcases made other with same | ⟨isAbove, missing, directory⟩
    · exact Or.inl same
    · exact Or.inr (Or.inl ⟨missing, directory, zipEntry,
        List.mem_singleton_self _, isAbove⟩)
  · intro other
    rw [written]
    by_cases here : other = inside ++ namesOf zipEntry.name
    · rw [if_pos here]
      exact Or.inr (Or.inr ⟨here ▸ free.2, zipEntry,
        List.mem_singleton_self _, here, rfl⟩)
    · rw [if_neg here]
      rcases made other with same | ⟨isAbove, missing, directory⟩
      · exact Or.inl same
      · exact Or.inr (Or.inl ⟨missing, directory, zipEntry,
          List.mem_singleton_self _, isAbove⟩)

/-- Where it is not free, the call fails. -/
theorem thrown_of_not_unhindered
    (site : Site workingDirectory destination inside files)
    (kept : zipEntry.IsKept) (down : zipEntry.LeadsDown)
    (blocked : ¬Unhindered files inside (namesOf zipEntry.name)) :
    (unZipEntry workingDirectory (File.ofText destination) zipEntry
      files).thrown = true := by
  obtain ⟨_, _, failed | ⟨free, _⟩⟩ := unZipEntry_cases site kept down
  · exact failed.1
  · exact absurd free blocked

theorem fileStep_of_unhindered (site : Site workingDirectory destination inside
      files) (kept : zipEntry.IsKept) (down : zipEntry.LeadsDown)
    (free : Unhindered files inside (namesOf zipEntry.name)) :
    ∃ initial last, namesOf zipEntry.name = initial ++ [last] ∧
      FileStep inside initial last zipEntry.content files
        (unZipEntry workingDirectory (File.ofText destination) zipEntry
          files) := by
  obtain ⟨initial, last, isName⟩ := down.eq_concat
  refine ⟨initial, last, isName, ?_⟩
  have call : unZipEntry workingDirectory (File.ofText destination) zipEntry
      files = (mkdirsOfParent workingDirectory
        ((File.ofText destination).child zipEntry.name) files).bind
        fun files => fileOutputStream workingDirectory
          ((File.ofText destination).child zipEntry.name) files
          zipEntry.content := by
    rw [unZipEntry_eq site kept isName, mkdirsOfParent,
      parent_of_child site.named isName]
  obtain ⟨unblocked, noDirectory⟩ := free
  rw [isName] at unblocked noDirectory
  rw [List.dropLast_concat] at unblocked
  rw [call]
  exact fileStep_of_unblocked (fun after _ => site.reach after)
    site.normalized site.plain site.named isName (isName ▸ down.2) unblocked
    noDirectory

end Entry

/-! ## The loop -/

/-- The entries that are extracted. -/
def keptOf (zipEntries : List ZipEntry) : List ZipEntry :=
  zipEntries.filter fun zipEntry => zipEntry.IsKept

@[simp]
theorem mem_keptOf {zipEntries : List ZipEntry} {zipEntry : ZipEntry} :
    zipEntry ∈ keptOf zipEntries ↔
      zipEntry ∈ zipEntries ∧ zipEntry.IsKept := by
  rw [keptOf, List.mem_filter, decide_eq_true_iff]

theorem keptOf_concat_of_kept {zipEntry : ZipEntry} (kept : zipEntry.IsKept)
    (zipEntries : List ZipEntry) :
    keptOf (zipEntries ++ [zipEntry]) = keptOf zipEntries ++ [zipEntry] := by
  simp [keptOf, kept]

theorem keptOf_concat_of_not_kept {zipEntry : ZipEntry}
    (left : ¬zipEntry.IsKept) (zipEntries : List ZipEntry) :
    keptOf (zipEntries ++ [zipEntry]) = keptOf zipEntries := by
  simp [keptOf, left]

/-- The loop of `unZip`. -/
def extract (workingDirectory : Path) (destination : Text)
    (files : FileSystem Bytes) (zipEntries : List ZipEntry) : Extraction :=
  (loop (Extractor.unZip.atEntry workingDirectory destination)).run
    ⟨files, true⟩ zipEntries

/-- Some entries have been extracted over what was there before. -/
structure Unpacked (inside : Path) (before : FileSystem Bytes)
    (done : List ZipEntry) (files : FileSystem Bytes) : Prop where
  file : ∀ zipEntry ∈ done, ∃ last ∈ done,
    namesOf last.name = namesOf zipEntry.name ∧
      files.find (inside ++ namesOf zipEntry.name) =
        some (.file last.content)
  way : ∀ zipEntry ∈ done, ∀ above, above <+: namesOf zipEntry.name →
    above ≠ namesOf zipEntry.name →
      files.find (inside ++ above) = some .directory
  rest : ∀ names, (∀ zipEntry ∈ done, ¬names <+: namesOf zipEntry.name) →
    files.find (inside ++ names) = before.find (inside ++ names)

section Loop

variable {workingDirectory : Path} {destination : Text} {inside : Path}
variable {files before : FileSystem Bytes} {zipEntry : ZipEntry}
variable {zipEntries done : List ZipEntry}

theorem loop_step (body : ZipEntry → FileSystem Bytes → Outcome)
    (extraction : Extraction) (zipEntry : ZipEntry) :
    ((loop body).step extraction zipEntry).1 =
      if extraction.running then
        let outcome := body zipEntry extraction.files
        ⟨outcome.files, !outcome.thrown⟩
      else extraction := by
  by_cases running : extraction.running = true
  · simp only [loop, if_pos running]
  · simp only [loop, if_neg running]

theorem extract_concat (zipEntries : List ZipEntry) (zipEntry : ZipEntry) :
    extract workingDirectory destination files (zipEntries ++ [zipEntry]) =
      let extraction := extract workingDirectory destination files zipEntries
      if extraction.running then
        let outcome := unZipEntry workingDirectory
          (File.ofText destination) zipEntry extraction.files
        ⟨outcome.files, !outcome.thrown⟩
      else extraction := by
  rw [extract, Mealy.run_concat, loop_step]
  rfl

theorem unZipEntry_of_not_kept (left : ¬zipEntry.IsKept) (dir : File) :
    unZipEntry workingDirectory dir zipEntry files = .unchanged files := by
  rw [unZipEntry]
  by_cases signature : zipEntry.name ∈ signatureFiles
  · rw [if_pos signature]
  · have directory : zipEntry.isDirectory = true := by
      by_contra noDirectory
      exact left ⟨signature, Bool.eq_false_iff.mpr noDirectory⟩
    rw [if_neg signature, if_pos directory]

theorem extract_concat_of_not_kept (left : ¬zipEntry.IsKept) :
    extract workingDirectory destination files (zipEntries ++ [zipEntry]) =
      extract workingDirectory destination files zipEntries := by
  rw [extract_concat]
  dsimp only
  split
  · next running =>
      rw [unZipEntry_of_not_kept left]
      show (⟨(extract workingDirectory destination files zipEntries).files,
        true⟩ : Extraction) = _
      rw [← running]
  · rfl

/-- What the loop leaves alone. -/
theorem grows_extract
    (site : Site workingDirectory destination inside files)
    (down : ∀ zipEntry ∈ keptOf zipEntries, zipEntry.LeadsDown) :
    Grows inside (keptOf zipEntries) files
      (extract workingDirectory destination files zipEntries).files := by
  induction zipEntries using List.reverseRecOn with
  | nil => exact Grows.refl files
  | append_singleton initial zipEntry inductionHypothesis =>
      by_cases kept : zipEntry.IsKept
      · rw [keptOf_concat_of_kept kept] at down ⊢
        have downInitial := fun other isInitial =>
          down other (List.mem_append_left _ isInitial)
        have downLast := down zipEntry (by simp)
        have grown := inductionHypothesis downInitial
        have grownMore := grown.mono (List.subset_append_left _ [zipEntry])
        rw [extract_concat]
        dsimp only
        split
        · have step := grows_unZipEntry (grown.site site downInitial) kept
            downLast
          exact grownMore.trans
            (step.mono (List.subset_append_right _ [zipEntry]))
        · exact grownMore
      · rw [keptOf_concat_of_not_kept kept] at down ⊢
        rw [extract_concat_of_not_kept kept]
        exact inductionHypothesis down

/-- Step lemma: one more file. -/
theorem Unpacked.step (unpacked : Unpacked inside before done files)
    (free : Unhindered files inside (namesOf zipEntry.name))
    {initial : List Name} {last : Name} {outcome : Outcome}
    (isName : namesOf zipEntry.name = initial ++ [last])
    (step : FileStep inside initial last zipEntry.content files outcome) :
    Unpacked inside before (done ++ [zipEntry]) outcome.files := by
  obtain ⟨unblocked, noDirectory⟩ := free
  rw [isName] at unblocked noDirectory
  rw [List.dropLast_concat] at unblocked
  have find : ∀ names, outcome.files.find (inside ++ names) =
      if names = initial ++ [last] then some (.file zipEntry.content)
      else if names <+: initial then some .directory
      else files.find (inside ++ names) := by
    intro names
    rw [step.find]
    simp only [List.append_cancel_left_eq, List.prefix_append_right_inj]
  constructor
  · intro earlier isDone
    rw [find]
    by_cases here : namesOf earlier.name = initial ++ [last]
    · rw [if_pos here]
      exact ⟨zipEntry, by simp, by rw [isName, here], rfl⟩
    · rw [if_neg here]
      have wasDone : earlier ∈ done := by
        rcases List.mem_append.mp isDone with wasDone | now
        · exact wasDone
        · exact absurd (List.mem_singleton.mp now ▸ isName) here
      obtain ⟨writer, writerDone, same, isFile⟩ :=
        unpacked.file earlier wasDone
      have notAbove : ¬namesOf earlier.name <+: initial := by
        intro isAbove
        rcases unblocked _ ((List.prefix_append_right_inj inside).mpr
            isAbove) with missing | directory
        · rw [isFile] at missing
          cases missing
        · rw [isFile] at directory
          cases directory
      rw [if_neg notAbove]
      exact ⟨writer, List.mem_append_left _ writerDone, same, isFile⟩
  · intro earlier isDone above isAbove proper
    rw [find]
    rcases List.mem_append.mp isDone with wasDone | now
    · have directory := unpacked.way earlier wasDone above isAbove proper
      have notHere : above ≠ initial ++ [last] := by
        rintro rfl
        exact noDirectory directory
      rw [if_neg notHere, directory, ite_self]
    · rw [List.mem_singleton.mp now, isName] at isAbove proper
      have onTheWay := prefix_of_proper isAbove proper
      rw [List.dropLast_concat] at onTheWay
      rw [if_neg proper, if_pos onTheWay]
  · intro names offTheWay
    have atLast := offTheWay zipEntry (by simp)
    rw [isName] at atLast
    have notHere : names ≠ initial ++ [last] := by
      rintro rfl
      exact atLast List.prefix_rfl
    rw [find, if_neg notHere, if_neg fun isAbove =>
      atLast (isAbove.trans (List.prefix_append _ _))]
    exact unpacked.rest names fun earlier wasDone =>
      offTheWay earlier (List.mem_append_left _ wasDone)

/-- Run lemma: all entries are extracted, or one of them is not free. -/
theorem unpacked_or_blocked
    (site : Site workingDirectory destination inside files)
    (down : ∀ zipEntry ∈ keptOf zipEntries, zipEntry.LeadsDown) :
    let extraction := extract workingDirectory destination files zipEntries
    (extraction.running = true ∧
        Unpacked inside files (keptOf zipEntries) extraction.files) ∨
      extraction.running = false ∧ ∃ zipEntry ∈ keptOf zipEntries,
        ¬Unhindered extraction.files inside (namesOf zipEntry.name) := by
  induction zipEntries using List.reverseRecOn with
  | nil =>
      refine Or.inl ⟨rfl, ?_, ?_, fun _ _ => rfl⟩
      · simp [keptOf]
      · simp [keptOf]
  | append_singleton initial zipEntry inductionHypothesis =>
      by_cases kept : zipEntry.IsKept
      · rw [keptOf_concat_of_kept kept] at down ⊢
        have downInitial := fun other isInitial =>
          down other (List.mem_append_left _ isInitial)
        have downLast := down zipEntry (by simp)
        have siteHere := (grows_extract site downInitial).site site
          downInitial
        rw [extract_concat]
        rcases inductionHypothesis downInitial with
          ⟨running, unpacked⟩ | ⟨stopped, blocking, isKept, blocked⟩
        · simp only [running, if_true]
          by_cases free : Unhindered (extract workingDirectory destination files
            initial).files inside (namesOf zipEntry.name)
          · obtain ⟨_, _, isName, step⟩ :=
              fileStep_of_unhindered siteHere kept downLast free
            exact Or.inl ⟨by rw [step.runs]; rfl,
              unpacked.step free isName step⟩
          · have thrown := thrown_of_not_unhindered siteHere kept downLast free
            have grown := grows_unZipEntry siteHere kept downLast
            exact Or.inr ⟨by rw [thrown]; rfl, zipEntry, by simp,
              grown.not_unhindered free⟩
        · simp only [stopped, Bool.false_eq_true, if_false]
          exact Or.inr ⟨trivial, blocking,
            List.mem_append_left _ isKept, blocked⟩
      · rw [keptOf_concat_of_not_kept kept] at down ⊢
        rw [extract_concat_of_not_kept kept]
        exact inductionHypothesis down

/-! ## When all entries are extracted -/

/-- No entry is a directory of another one. -/
def Apart (zipEntries : List ZipEntry) : Prop :=
  ∀ first ∈ zipEntries, ∀ second ∈ zipEntries,
    namesOf first.name <+: namesOf second.name →
      namesOf first.name = namesOf second.name

theorem Unpacked.apart (unpacked : Unpacked inside before done files) :
    Apart done := by
  intro first isFirst second isSecond isAbove
  by_contra proper
  have directory := unpacked.way second isSecond _ isAbove proper
  obtain ⟨_, _, _, isFile⟩ := unpacked.file first isFirst
  rw [directory] at isFile
  cases isFile

/-- A file is that of an entry, or was there before. -/
theorem Unpacked.file_cases (unpacked : Unpacked inside before done files)
    {names : List Name} {content : Bytes}
    (isFile : files.find (inside ++ names) = some (.file content)) :
    (∃ zipEntry ∈ done, namesOf zipEntry.name = names ∧
        zipEntry.content = content) ∨
      before.find (inside ++ names) = some (.file content) ∧
        ∀ zipEntry ∈ done, namesOf zipEntry.name ≠ names := by
  by_cases above : ∃ zipEntry ∈ done, names <+: namesOf zipEntry.name
  · obtain ⟨zipEntry, isDone, isAbove⟩ := above
    by_cases here : names = namesOf zipEntry.name
    · obtain ⟨last, lastDone, same, written⟩ := unpacked.file zipEntry isDone
      rw [← here, isFile] at written
      cases written
      exact Or.inl ⟨last, lastDone, same.trans here.symm, rfl⟩
    · have directory := unpacked.way zipEntry isDone names isAbove here
      rw [isFile] at directory
      cases directory
  · have offTheWay : ∀ zipEntry ∈ done, ¬names <+: namesOf zipEntry.name :=
      fun zipEntry isDone isAbove => above ⟨zipEntry, isDone, isAbove⟩
    refine Or.inr ⟨(unpacked.rest names offTheWay).symm.trans isFile,
      fun zipEntry isDone same => offTheWay zipEntry isDone ?_⟩
    rw [same]

/-- A directory leads to an entry, or was there before. -/
theorem Unpacked.directory_cases
    (unpacked : Unpacked inside before done files) {names : List Name}
    (isDirectory : files.find (inside ++ names) = some .directory) :
    (∃ zipEntry ∈ done, names <+: namesOf zipEntry.name ∧
        names ≠ namesOf zipEntry.name) ∨
      before.find (inside ++ names) = some .directory := by
  by_cases above : ∃ zipEntry ∈ done, names <+: namesOf zipEntry.name
  · obtain ⟨zipEntry, isDone, isAbove⟩ := above
    refine Or.inl ⟨zipEntry, isDone, isAbove, fun here => ?_⟩
    obtain ⟨_, _, _, written⟩ := unpacked.file zipEntry isDone
    rw [← here, isDirectory] at written
    cases written
  · refine Or.inr ((unpacked.rest names fun zipEntry isDone isAbove =>
      above ⟨zipEntry, isDone, isAbove⟩).symm.trans isDirectory)

theorem Unpacked.unhindered (unpacked : Unpacked inside before done files)
    (site : Site workingDirectory destination inside files)
    (isDone : zipEntry ∈ done) :
    Unhindered files inside (namesOf zipEntry.name) := by
  obtain ⟨_, _, _, isFile⟩ := unpacked.file zipEntry isDone
  refine ⟨fun path isAbove => ?_, by simp [isFile]⟩
  rcases List.prefix_or_prefix_of_prefix isAbove
      (List.prefix_append inside _) with outer | inner
  · exact site.unblocked path outer
  · obtain ⟨above, rfl⟩ := inner
    rw [List.prefix_append_right_inj] at isAbove
    have whole := isAbove.trans (List.dropLast_prefix _)
    by_cases proper : above = namesOf zipEntry.name
    · have lengths := isAbove.length_le
      rw [List.length_dropLast, proper] at lengths
      have isRoot : above = [] := by
        rw [proper, ← List.length_eq_zero_iff]
        omega
      rw [isRoot, List.append_nil]
      exact site.unblocked inside List.prefix_rfl
    · exact Or.inr (unpacked.way zipEntry isDone above whole proper)

/-- The loop comes to its end exactly if the entries are apart and what was
there before is in no one's way. -/
theorem running_iff
    (site : Site workingDirectory destination inside files)
    (down : ∀ zipEntry ∈ keptOf zipEntries, zipEntry.LeadsDown) :
    (extract workingDirectory destination files zipEntries).running = true ↔
      Apart (keptOf zipEntries) ∧ ∀ zipEntry ∈ keptOf zipEntries,
        Unhindered files inside (namesOf zipEntry.name) := by
  have grown := grows_extract site down
  constructor
  · intro running
    rcases unpacked_or_blocked site down with ⟨_, unpacked⟩ | ⟨stopped, _⟩
    · refine ⟨unpacked.apart, fun zipEntry isKept => ?_⟩
      by_contra blocked
      exact grown.not_unhindered blocked
        (unpacked.unhindered (grown.site site down) isKept)
    · rw [running] at stopped
      cases stopped
  · rintro ⟨apart, free⟩
    rcases unpacked_or_blocked site down with
      ⟨running, _⟩ | ⟨_, zipEntry, isKept, blocked⟩
    · exact running
    · refine absurd ⟨fun path isAbove => ?_, fun directory => ?_⟩ blocked
      · cases found : (extract workingDirectory destination files
            zipEntries).files.find path with
        | none => exact Or.inl rfl
        | some entry =>
            cases entry with
            | directory => exact Or.inr rfl
            | file content =>
                rcases grown.origin found with earlier |
                  ⟨other, otherKept, isPlace, _⟩
                · rcases (free zipEntry isKept).1 path isAbove with
                    missing | directory
                  · rw [missing] at earlier
                    cases earlier
                  · rw [directory] at earlier
                    cases earlier
                · rw [isPlace, List.prefix_append_right_inj] at isAbove
                  have same := apart other otherKept zipEntry isKept
                    (isAbove.trans (List.dropLast_prefix _))
                  have lengths := isAbove.length_le
                  have positive := List.length_pos_iff.mpr
                    (down zipEntry isKept).1
                  rw [List.length_dropLast, same] at lengths
                  omega
      · rcases grown (inside ++ namesOf zipEntry.name) with same |
          ⟨_, _, other, otherKept, isAbove⟩ | ⟨_, _, _, _, written⟩
        · exact (free zipEntry isKept).2 (same.symm.trans directory)
        · rw [List.prefix_append_right_inj] at isAbove
          have same := apart zipEntry isKept other otherKept
            (isAbove.trans (List.dropLast_prefix _))
          have lengths := isAbove.length_le
          have positive := List.length_pos_iff.mpr (down other otherKept).1
          rw [List.length_dropLast, same] at lengths
          omega
        · rw [directory] at written
          cases written

theorem unpacked_of_running
    (site : Site workingDirectory destination inside files)
    (down : ∀ zipEntry ∈ keptOf zipEntries, zipEntry.LeadsDown)
    (running : (extract workingDirectory destination files
      zipEntries).running = true) :
    Unpacked inside files (keptOf zipEntries)
      (extract workingDirectory destination files zipEntries).files := by
  rcases unpacked_or_blocked site down with ⟨_, unpacked⟩ | ⟨stopped, _⟩
  · exact unpacked
  · rw [running] at stopped
    cases stopped

end Loop

end DripStone.Unzip
