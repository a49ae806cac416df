import DripStone.Unzip.Extracted

/-!
# The archives of `Zip.zip`

The entries are those of the tree exactly if it holds no empty directory, and
a second archive of what was extracted has the same files exactly if none of
them is a signature file.
-/

namespace DripStone.Unzip

open DripStone.Library

/-! ## The law -/

/-- The entry a leaf should have: its path below the root of the tree. -/
def relativeEntry (files : FileSystem Bytes) (dirPath : Path)
    (names : List Name) : ZipEntry :=
  match files.find (dirPath ++ names) with
  | some (.file content) => ⟨textOf names, content⟩
  | _ => ⟨textOf names ++ ['/'], []⟩

/-- One entry for each file and each empty directory below the root, and no
others. -/
structure Archived (files : FileSystem Bytes) (dirPath : Path)
    (zipEntries : List ZipEntry) : Prop where
  nodup : (zipEntries.map ZipEntry.name).Nodup
  mem_iff : ∀ zipEntry, zipEntry ∈ zipEntries ↔
    ∃ names, names ≠ [] ∧ IsLeaf files (dirPath ++ names) ∧
      zipEntry = relativeEntry files dirPath names

/-- Below the directory there is no empty one. -/
def NoEmptyDirectory (files : FileSystem Bytes) (dirPath : Path) : Prop :=
  ∀ names, names ≠ [] → files.find (dirPath ++ names) = some .directory →
    files.list (dirPath ++ names) ≠ []

/-- Two archives have the same files. -/
def SameFiles (first second : List ZipEntry) : Prop :=
  ∀ zipEntry : ZipEntry, zipEntry.isDirectory = false →
    (zipEntry ∈ first ↔ zipEntry ∈ second)

def NoSignatureFile (files : FileSystem Bytes) (dirPath : Path) : Prop :=
  ∀ names content, files.find (dirPath ++ names) = some (.file content) →
    textOf names ∉ signatureFiles

def HasFile (files : FileSystem Bytes) (dirPath : Path) : Prop :=
  ∃ names content, files.find (dirPath ++ names) = some (.file content)

/-- What an archive file holds. -/
def archived (streams : ZipStreams) (files : FileSystem Bytes)
    (zipPath : Path) : List ZipEntry :=
  match files.find zipPath with
  | some (.file content) => streams.zipEntries content
  | _ => []

/-! ## One archive -/

section Archive

variable {workingDirectory : Path} {files others : FileSystem Bytes}
variable {dirPath zipPath : Path} {root : Name}

/-- The name of a file holds no separator. -/
theorem noSlash_getName (text : Text) : '/' ∉ (File.ofText text).getName := by
  rw [File.getName, File.ofText, List.getLastD_eq_getLast?]
  cases last : (namesOf text).getLast? with
  | none => exact List.not_mem_nil
  | some name =>
      have member := List.mem_of_getLast? last
      rw [namesOf, List.mem_filter] at member
      exact noSlash_of_mem_splitOn member.1

theorem isLeaf_congr (same : ∀ more,
      others.find (dirPath ++ more) = files.find (dirPath ++ more))
    (names : List Name) :
    IsLeaf others (dirPath ++ names) ↔ IsLeaf files (dirPath ++ names) := by
  have listed : others.list (dirPath ++ names) = [] ↔
      files.list (dirPath ++ names) = [] := by
    simp only [List.eq_nil_iff_forall_not_mem, FileSystem.mem_list_iff,
      List.append_assoc, same]
  rw [IsLeaf, IsLeaf, same, listed]

theorem entryAt_congr (same : ∀ more,
      others.find (dirPath ++ more) = files.find (dirPath ++ more)) :
    entryAt others dirPath root = entryAt files dirPath root := by
  funext names
  rw [entryAt, entryAt, same]

theorem Leaves.congr {names : List Name} {leaves : List (List Name)}
    (isLeaves : Leaves others dirPath names leaves) (same : ∀ more,
      others.find (dirPath ++ more) = files.find (dirPath ++ more)) :
    Leaves files dirPath names leaves :=
  ⟨fun other => (isLeaves.mem_iff other).trans
      (and_congr_right fun _ => isLeaf_congr same other),
    isLeaves.nodup⟩

theorem entryAt_of_file {names : List Name} {content : Bytes}
    (isFile : files.find (dirPath ++ names) = some (.file content)) :
    entryAt files dirPath root names = ⟨textOf names, content⟩ := by
  rw [entryAt, isFile]

theorem entryAt_of_directory {names : List Name}
    (isDirectory : files.find (dirPath ++ names) = some .directory) :
    entryAt files dirPath root names =
      ⟨textOf (root :: names) ++ ['/'], []⟩ := by
  rw [entryAt, isDirectory]

theorem named_of_file (isDirectory : files.find dirPath = some .directory)
    {names : List Name} {content : Bytes}
    (isFile : files.find (dirPath ++ names) = some (.file content)) :
    names ≠ [] := by
  rintro rfl
  rw [List.append_nil, isDirectory] at isFile
  cases isFile

theorem plain_of_leaf {names : List Name}
    (leaf : IsLeaf files (dirPath ++ names)) : ∀ name ∈ names, Plain name :=
  plain_of_find leaf.exists_

theorem textOf_inj {names other : List Name}
    (plainNames : ∀ name ∈ names, Plain name)
    (plainOther : ∀ name ∈ other, Plain name)
    (same : textOf names = textOf other) : names = other := by
  rw [← namesOf_textOf plainNames, same, namesOf_textOf plainOther]

theorem splitOn_root {names : List Name} (noSlash : '/' ∉ root)
    (plain : ∀ name ∈ names, Plain name) :
    (textOf (root :: names)).splitOn '/' = root :: names := by
  refine List.splitOn_intercalate '/' ?_ (List.cons_ne_nil _ _)
  intro name member
  rcases List.mem_cons.mp member with rfl | below
  · exact noSlash
  · exact (plain name below).2.1

/-- Different leaves have entries of different names. -/
theorem name_entryAt_inj (noSlash : '/' ∉ root)
    (isDirectory : files.find dirPath = some .directory)
    {names other : List Name} (first : IsLeaf files (dirPath ++ names))
    (second : IsLeaf files (dirPath ++ other))
    (same : (entryAt files dirPath root names).name =
      (entryAt files dirPath root other).name) : names = other := by
  have plainNames := plain_of_leaf first
  have plainOther := plain_of_leaf second
  rcases first with ⟨content, isFile⟩ | ⟨directory, _⟩
  · have noDirectory := isDirectory_of_file (named_of_file isDirectory isFile)
      plainNames content
    rcases second with ⟨otherContent, otherFile⟩ | ⟨otherDirectory, _⟩
    · rw [entryAt_of_file isFile, entryAt_of_file otherFile] at same
      exact textOf_inj plainNames plainOther same
    · rw [entryAt_of_file isFile, entryAt_of_directory otherDirectory] at same
      simp only at same
      simp [ZipEntry.isDirectory, same] at noDirectory
  · rcases second with ⟨otherContent, otherFile⟩ | ⟨otherDirectory, _⟩
    · have noDirectory := isDirectory_of_file
        (named_of_file isDirectory otherFile) plainOther otherContent
      rw [entryAt_of_directory directory, entryAt_of_file otherFile] at same
      simp only at same
      simp [ZipEntry.isDirectory, ← same] at noDirectory
    · rw [entryAt_of_directory directory,
        entryAt_of_directory otherDirectory] at same
      have texts := List.append_cancel_right same
      have parts := congrArg (List.splitOn '/') texts
      rw [splitOn_root noSlash plainNames,
        splitOn_root noSlash plainOther] at parts
      exact (List.cons.inj parts).2

theorem Leaves.nodup_names {leaves : List (List Name)}
    (isLeaves : Leaves files dirPath [] leaves) (noSlash : '/' ∉ root)
    (isDirectory : files.find dirPath = some .directory) :
    ((leaves.map (entryAt files dirPath root)).map ZipEntry.name).Nodup := by
  rw [List.map_map]
  refine List.Nodup.map_on ?_ isLeaves.nodup
  intro names isLeaf other otherLeaf same
  exact name_entryAt_inj noSlash isDirectory
    ((isLeaves.mem_iff names).mp isLeaf).2
    ((isLeaves.mem_iff other).mp otherLeaf).2 same

theorem deleteDir_of_open {zip : File}
    (isPlace : place workingDirectory zip files = some zipPath)
    (isOpen : files.Open zipPath) :
    let deleted := deleteDir workingDirectory zip files
    Keeps files deleted ∧ deleted.Open zipPath ∧
      ∀ other, other ≠ zipPath → deleted.find other = files.find other := by
  have found : ∀ other, other ≠ zipPath →
      (deleteDir workingDirectory zip files).find other =
        files.find other := by
    intro other differs
    simp only [deleteDir, isPlace]
    split
    · rw [FileSystem.find_delete, if_neg fun both => differs both.2]
    · rfl
  have atPath : (deleteDir workingDirectory zip files).find zipPath ≠
      some .directory := by
    simp only [deleteDir, isPlace]
    split
    · rw [FileSystem.find_delete]
      split
      · simp
      · exact isOpen.2.2.2
    · exact isOpen.2.2.2
  refine ⟨fun path directory => ?_, ⟨isOpen.1, ?_, isOpen.2.2.1, atPath⟩,
    found⟩
  · rw [found path, directory]
    rintro rfl
    exact isOpen.2.2.2 directory
  · rw [found _ (FileSystem.dropLast_ne isOpen.1)]
    exact isOpen.2.1

/-- What `zip` leaves, once its archive is deleted: a new one, with the
entries of the leaves. -/
theorem zip_leaves_of_deleted (streams : ZipStreams) {dir zip : File}
    {deleted : FileSystem Bytes}
    (isDeleted : deleteDir workingDirectory zip files = deleted)
    (noSlash : '/' ∉ dir.getName)
    (isDir : place workingDirectory dir deleted = some dirPath)
    (isDirectory : deleted.find dirPath = some .directory)
    (isPlace : place workingDirectory zip deleted = some zipPath)
    (isOpen : deleted.Open zipPath) (outside : ¬dirPath <+: zipPath) :
    ∃ zipped leaves,
      DripStone.Unzip.zip streams workingDirectory dir zip files =
        .ok zipped ∧
      Leaves deleted dirPath [] leaves ∧
      place workingDirectory zip zipped = some zipPath ∧
      zipped.find zipPath = some (.file (streams.bytes
        (leaves.map (entryAt deleted dirPath dir.getName)))) ∧
      ∀ other, other ≠ zipPath →
        zipped.find other = deleted.find other := by
  obtain ⟨opened, openedIs, placeOpened, openOpened, foundOpened⟩ :=
    writeArchive_of_open isPlace isOpen []
  have found : ∀ other, other ≠ zipPath →
      opened.find other = deleted.find other := by
    intro other differs
    rw [foundOpened, if_neg differs]
  have sameTree : ∀ more,
      opened.find (dirPath ++ more) = deleted.find (dirPath ++ more) := by
    intro more
    apply found
    rintro rfl
    exact outside (List.prefix_append _ _)
  have keepsOpened : Keeps deleted opened := by
    intro path directory
    rw [found path, directory]
    rintro rfl
    exact isOpen.2.2.2 directory
  have dirOpened : place workingDirectory dir opened =
      some (dirPath ++ []) := by
    rw [List.append_nil]
    exact FileSystem.resolve_of_keeps keepsOpened isDir
  have directoryOpened := keepsOpened dirPath isDirectory
  obtain ⟨leaves, written, isLeaves⟩ :=
    compress_leaves noSlash (opened.height + 1) dirOpened
      (show ([] : Text) ++ dir.getName = textOf [dir.getName] by
        simp [textOf, List.intercalate])
      (by rw [List.append_nil, directoryOpened]; simp)
      (fun _ => directoryOpened) (by omega)
  rw [entryAt_congr sameTree] at written
  have nodup := (isLeaves.congr sameTree).nodup_names noSlash isDirectory
  obtain ⟨zipped, zippedIs, placeZipped, _, foundZipped⟩ :=
    writeArchive_of_open placeOpened openOpened
      (streams.bytes (leaves.map (entryAt deleted dirPath dir.getName)))
  refine ⟨zipped, leaves, ?_, isLeaves.congr sameTree, placeZipped, ?_, ?_⟩
  · simp only [DripStone.Unzip.zip, isDeleted, openedIs, bind, Except.bind,
      written, zipOutputStream, if_pos nodup, zippedIs]
  · rw [foundZipped, if_pos rfl]
  · intro other differs
    rw [foundZipped, if_neg differs, found other differs]

/-- What `zip` leaves: the archive, with the entries of the leaves. -/
theorem zip_leaves (streams : ZipStreams) {dir zip : File}
    (noSlash : '/' ∉ dir.getName)
    (isDir : place workingDirectory dir files = some dirPath)
    (isDirectory : files.find dirPath = some .directory)
    (isPlace : place workingDirectory zip files = some zipPath)
    (isOpen : files.Open zipPath) (outside : ¬dirPath <+: zipPath) :
    ∃ zipped leaves,
      DripStone.Unzip.zip streams workingDirectory dir zip files =
        .ok zipped ∧
      Leaves files dirPath [] leaves ∧
      place workingDirectory zip zipped = some zipPath ∧
      zipped.find zipPath = some (.file (streams.bytes
        (leaves.map (entryAt files dirPath dir.getName)))) ∧
      ∀ other, other ≠ zipPath → zipped.find other = files.find other := by
  obtain ⟨keeps, openDeleted, foundDeleted⟩ :=
    deleteDir_of_open isPlace isOpen
  have sameTree : ∀ more,
      (deleteDir workingDirectory zip files).find (dirPath ++ more) =
        files.find (dirPath ++ more) := by
    intro more
    apply foundDeleted
    rintro rfl
    exact outside (List.prefix_append _ _)
  obtain ⟨zipped, leaves, zippedIs, isLeaves, placeZipped, written, found⟩ :=
    zip_leaves_of_deleted streams rfl noSlash
      (FileSystem.resolve_of_keeps keeps isDir) (keeps dirPath isDirectory)
      (FileSystem.resolve_of_keeps keeps isPlace) openDeleted outside
  rw [entryAt_congr sameTree] at written
  exact ⟨zipped, leaves, zippedIs, isLeaves.congr sameTree, placeZipped,
    written, fun other differs =>
      (found other differs).trans (foundDeleted other differs)⟩

/-- The archive can be written when `zip` returns. -/
theorem open_of_zip {streams : ZipStreams} {dir zip : File}
    {zipped : FileSystem Bytes}
    (returned : DripStone.Unzip.zip streams workingDirectory dir zip files =
      .ok zipped) :
    ∃ zipPath, place workingDirectory zip
        (deleteDir workingDirectory zip files) = some zipPath ∧
      (deleteDir workingDirectory zip files).Open zipPath := by
  rw [DripStone.Unzip.zip, except_bind_eq_ok] at returned
  obtain ⟨opened, isOpened, _⟩ := returned
  rw [writeArchive] at isOpened
  cases isPlace : place workingDirectory zip
      (deleteDir workingDirectory zip files) with
  | none =>
      rw [isPlace] at isOpened
      cases isOpened
  | some zipPath =>
      simp only [isPlace] at isOpened
      cases succeeded : (deleteDir workingDirectory zip files).write zipPath
        [] with
      | none =>
          rw [succeeded] at isOpened
          cases isOpened
      | some written =>
          obtain ⟨isOpen, _⟩ := FileSystem.write_eq_some_iff.mp succeeded
          exact ⟨zipPath, rfl, isOpen⟩

/-! ## Whether the entries are those of the tree -/

section Entries

variable {leaves : List (List Name)}

theorem Leaves.ne_nil (isLeaves : Leaves files dirPath [] leaves)
    (isDirectory : files.find dirPath = some .directory)
    (nonempty : files.list dirPath ≠ []) {names : List Name}
    (isLeaf : names ∈ leaves) : names ≠ [] := by
  rintro rfl
  have leaf := ((isLeaves.mem_iff []).mp isLeaf).2
  rw [List.append_nil] at leaf
  rcases leaf with ⟨content, isFile⟩ | ⟨_, empty⟩
  · rw [isDirectory] at isFile
    cases isFile
  · exact nonempty empty

/-- The entry of an empty directory is right only if a longer path leads to
another one. -/
theorem longer_of_relativeEntry (noSlash : '/' ∉ root)
    {names other : List Name}
    (directory : files.find (dirPath ++ names) = some .directory)
    (empty : files.list (dirPath ++ names) = []) (named : other ≠ [])
    (leaf : IsLeaf files (dirPath ++ other))
    (same : entryAt files dirPath root names =
      relativeEntry files dirPath other) :
    other = root :: names ∧
      files.find (dirPath ++ other) = some .directory ∧
      files.list (dirPath ++ other) = [] := by
  have plainOther := plain_of_leaf leaf
  have plainNames := plain_of_leaf (Or.inr ⟨directory, empty⟩)
  rw [entryAt_of_directory directory] at same
  rcases leaf with ⟨content, isFile⟩ | otherEmpty
  · have noDirectory := isDirectory_of_file named plainOther content
    rw [relativeEntry, isFile] at same
    have names : textOf (root :: names) ++ ['/'] = textOf other :=
      congrArg ZipEntry.name same
    rw [ZipEntry.isDirectory, ← names] at noDirectory
    simp at noDirectory
  · rw [relativeEntry, otherEmpty.1] at same
    have texts := List.append_cancel_right (congrArg ZipEntry.name same)
    have parts := congrArg (List.splitOn '/') texts
    have otherParts : (textOf other).splitOn '/' = other :=
      List.splitOn_intercalate '/' (fun name member =>
        (plainOther name member).2.1) named
    rw [splitOn_root noSlash plainNames, otherParts] at parts
    exact ⟨parts.symm, otherEmpty⟩

theorem Leaves.archived_iff (isLeaves : Leaves files dirPath [] leaves)
    (noSlash : '/' ∉ root)
    (isDirectory : files.find dirPath = some .directory)
    (nonempty : files.list dirPath ≠ []) :
    Archived files dirPath (leaves.map (entryAt files dirPath root)) ↔
      NoEmptyDirectory files dirPath := by
  constructor
  · intro archived names named directory empty
    -- a longer and longer path leads to an empty directory
    have longer : ∀ count, ∃ names : List Name, names ≠ [] ∧
        count ≤ names.length ∧
        files.find (dirPath ++ names) = some .directory ∧
        files.list (dirPath ++ names) = [] := by
      intro count
      induction count with
      | zero => exact ⟨names, named, Nat.zero_le _, directory, empty⟩
      | succ count inductionHypothesis =>
          obtain ⟨names, _, long, directory, empty⟩ := inductionHypothesis
          have isLeaf := (isLeaves.mem_iff names).mpr
            ⟨List.nil_prefix, Or.inr ⟨directory, empty⟩⟩
          obtain ⟨other, named, leaf, same⟩ := (archived.mem_iff _).mp
            (List.mem_map_of_mem (f := entryAt files dirPath root) isLeaf)
          obtain ⟨rfl, isEmpty⟩ := longer_of_relativeEntry noSlash
            directory empty named leaf same
          refine ⟨_, named, ?_, isEmpty⟩
          rw [List.length_cons]
          omega
    obtain ⟨names, _, long, directory, _⟩ := longer (files.height + 1)
    have bound := @FileSystem.length_le_height _ files (dirPath ++ names)
      (by simp [directory])
    rw [List.length_append] at bound
    omega
  · intro noEmpty
    have agree : ∀ names, names ≠ [] → IsLeaf files (dirPath ++ names) →
        entryAt files dirPath root names =
          relativeEntry files dirPath names := by
      intro names named leaf
      rcases leaf with ⟨content, isFile⟩ | ⟨directory, empty⟩
      · rw [entryAt, relativeEntry, isFile]
      · exact absurd empty (noEmpty names named directory)
    refine ⟨isLeaves.nodup_names noSlash isDirectory, fun zipEntry => ?_⟩
    rw [List.mem_map]
    constructor
    · rintro ⟨names, isLeaf, rfl⟩
      have named := isLeaves.ne_nil isDirectory nonempty isLeaf
      have leaf := ((isLeaves.mem_iff names).mp isLeaf).2
      exact ⟨names, named, leaf, agree names named leaf⟩
    · rintro ⟨names, named, leaf, rfl⟩
      exact ⟨names, (isLeaves.mem_iff names).mpr ⟨List.nil_prefix, leaf⟩,
        agree names named leaf⟩

end Entries

end Archive

/-! ## The files of a second archive -/

section Twice

variable {workingDirectory : Path} {destination : Text} {inside : Path}
variable {source after : FileSystem Bytes} {dirPath : Path} {root : Name}
variable {isDirectory : source.find dirPath = some .directory}
variable {leaves done : List (List Name)}

/-- The entries that are no directories. -/
theorem Leaves.mem_file_iff (isLeaves : Leaves source dirPath [] leaves)
    {zipEntry : ZipEntry} (isFile : zipEntry.isDirectory = false) :
    zipEntry ∈ leaves.map (entryAt source dirPath root) ↔
      ∃ names content,
        source.find (dirPath ++ names) = some (.file content) ∧
          zipEntry = ⟨textOf names, content⟩ := by
  rw [List.mem_map]
  constructor
  · rintro ⟨names, isLeaf, rfl⟩
    rcases ((isLeaves.mem_iff names).mp isLeaf).2 with
      ⟨content, found⟩ | ⟨directory, _⟩
    · exact ⟨names, content, found, entryAt_of_file found⟩
    · rw [entryAt_of_directory directory] at isFile
      simp [ZipEntry.isDirectory] at isFile
  · rintro ⟨names, content, found, rfl⟩
    exact ⟨names, (isLeaves.mem_iff names).mpr
      ⟨List.nil_prefix, Or.inl ⟨content, found⟩⟩, entryAt_of_file found⟩

/-- The files below the destination are those that have been extracted. -/
theorem Extracted.file_iff
    (extracted : Extracted workingDirectory destination inside
      (dirShape source dirPath isDirectory) done after)
    (files : ∀ names ∈ done, ∃ content,
      source.find (dirPath ++ names) = some (.file content))
    {names : List Name} {content : Bytes} :
    after.find (inside ++ names) = some (.file content) ↔
      names ∈ done ∧
        source.find (dirPath ++ names) = some (.file content) := by
  constructor
  · intro found
    have named : names ≠ [] := by
      rintro rfl
      rw [List.append_nil] at found
      have atRoot := extracted.unblocked inside List.prefix_rfl
      simp [found] at atRoot
    have onTheWay : ∃ some ∈ done, names <+: some := by
      by_contra offTheWay
      have missing := extracted.absent names named fun some isDone above =>
        offTheWay ⟨some, isDone, above⟩
      rw [found] at missing
      cases missing
    obtain ⟨some, isDone, above⟩ := onTheWay
    have inSource := (extracted.present some isDone names named above).symm
    rw [found] at inSource
    obtain ⟨rest, rfl⟩ := above
    obtain ⟨other, isFile⟩ := files _ isDone
    have last : rest = [] := by
      by_contra more
      rw [← List.append_assoc, source.find_eq_none_of_append _ more] at isFile
      · cases isFile
      · exact fun directory => by
          rw [show source.find (dirPath ++ names) = _ from inSource]
            at directory
          cases directory
    rw [last, List.append_nil] at isDone
    exact ⟨isDone, inSource⟩
  · intro ⟨isDone, found⟩
    have named := named_of_file isDirectory found
    rw [extracted.present names isDone names named List.prefix_rfl]
    exact found

theorem mem_extracted_iff (isLeaves : Leaves source dirPath [] leaves)
    {names : List Name} :
    names ∈ leaves.filter (isExtracted source dirPath) ↔
      (∃ content, source.find (dirPath ++ names) = some (.file content)) ∧
        textOf names ∉ signatureFiles := by
  rw [List.mem_filter, isLeaves.mem_iff, isExtracted]
  constructor
  · rintro ⟨⟨_, ⟨content, found⟩ | ⟨directory, _⟩⟩, extracts⟩
    · rw [found] at extracts
      exact ⟨⟨content, found⟩, of_decide_eq_true extracts⟩
    · rw [directory] at extracts
      cases extracts
  · rintro ⟨⟨content, found⟩, unsigned⟩
    rw [found]
    exact ⟨⟨List.nil_prefix, Or.inl ⟨content, found⟩⟩, decide_eq_true unsigned⟩

/-- Both archives have the same files exactly if none was left out. -/
theorem sameFiles_iff {others : List (List Name)} {second : Name}
    (isLeaves : Leaves source dirPath [] leaves)
    (otherLeaves : Leaves after inside [] others)
    (extracted : Extracted workingDirectory destination inside
      (dirShape source dirPath isDirectory)
      (leaves.filter (isExtracted source dirPath)) after) :
    SameFiles (leaves.map (entryAt source dirPath root))
        (others.map (entryAt after inside second)) ↔
      NoSignatureFile source dirPath := by
  have fileIff : ∀ names content, _ := fun names content =>
    @Extracted.file_iff _ _ _ _ _ _ _ _ extracted
      (fun names isDone => ((mem_extracted_iff isLeaves).mp isDone).1) names
      content
  constructor
  · intro same names content found
    have plain := plain_of_leaf (Or.inl ⟨content, found⟩)
    have isFile := isDirectory_of_file (named_of_file isDirectory found) plain
      content
    have isEntry := (same _ isFile).mp
      ((isLeaves.mem_file_iff isFile).mpr
        ⟨names, content, found, rfl⟩)
    obtain ⟨other, otherContent, otherFound, sameEntry⟩ :=
      (otherLeaves.mem_file_iff isFile).mp isEntry
    obtain ⟨isDone, inSource⟩ := (fileIff other otherContent).mp otherFound
    rw [show textOf names = textOf other from
      congrArg ZipEntry.name sameEntry]
    exact ((mem_extracted_iff isLeaves).mp isDone).2
  · intro unsigned zipEntry isFile
    rw [isLeaves.mem_file_iff isFile,
      otherLeaves.mem_file_iff isFile]
    refine exists_congr fun names => exists_congr fun content =>
      and_congr_left fun _ => ?_
    rw [fileIff, mem_extracted_iff isLeaves]
    exact ⟨fun found => ⟨⟨⟨content, found⟩, unsigned names content found⟩,
      found⟩, fun both => both.2⟩

/-- A directory that does not exist cannot be zipped. -/
theorem zip_of_missing (streams : ZipStreams) {dir zip : File}
    {files : FileSystem Bytes} {zipPath : Path}
    (normalized : dir.normalized workingDirectory = inside)
    (missing : files.find inside = none)
    (isPlace : place workingDirectory zip files = some zipPath)
    (isOpen : files.Open zipPath) (outside : ¬inside <+: zipPath)
    (zipped : FileSystem Bytes) :
    DripStone.Unzip.zip streams workingDirectory dir zip files ≠
      .ok zipped := by
  obtain ⟨keeps, openDeleted, foundDeleted⟩ :=
    deleteDir_of_open isPlace isOpen
  obtain ⟨opened, openedIs, _, _, foundOpened⟩ :=
    writeArchive_of_open (FileSystem.resolve_of_keeps keeps isPlace)
      openDeleted []
  have differs : inside ≠ zipPath := by
    rintro rfl
    exact outside List.prefix_rfl
  have gone : opened.find inside = none := by
    rw [foundOpened, if_neg differs, foundDeleted inside differs, missing]
  have fails : compress workingDirectory opened (opened.height + 1) dir [] =
      .error .fileNotFoundException := by
    rw [compress]
    cases isPlace : place workingDirectory dir opened with
    | none => rfl
    | some path =>
        have same : path = inside :=
          (FileSystem.normalize_of_resolve isPlace).symm.trans normalized
        simp only [same, gone]
  rw [DripStone.Unzip.zip, openedIs]
  simp [bind, Except.bind, fails]

/-- What `unZip` makes of the archive of a tree. -/
theorem unZip_extracted {streams : ZipStreams}
    (reproduce : streams.Reproduce) {zip : File} {zipPath : Path}
    {zipped : FileSystem Bytes} (isLeaves : Leaves source dirPath [] leaves)
    (isEmpty :
      EmptyDestination workingDirectory destination zipped inside)
    (isPlace : place workingDirectory zip
      (deleteDir workingDirectory (File.ofText destination) zipped) =
        some zipPath)
    (archive : zipped.find zipPath = some (.file
      (streams.bytes (leaves.map (entryAt source dirPath root))))) :
    let after := unZip streams workingDirectory zip destination zipped
    (leaves.filter (isExtracted source dirPath) = [] → after =
      deleteDir workingDirectory (File.ofText destination) zipped) ∧
      Extracted workingDirectory destination inside
        (dirShape source dirPath isDirectory)
        (leaves.filter (isExtracted source dirPath)) after := by
  have differs : zipPath ≠ inside := by
    rintro rfl
    rcases isEmpty.found with ⟨_, directory⟩ | ⟨_, _, _, _, missing⟩
    · rw [archive] at directory
      cases directory
    · rw [archive] at missing
      cases missing
  have read : (place workingDirectory zip
      (deleteDir workingDirectory (File.ofText destination) zipped)).bind
        (deleteDir workingDirectory (File.ofText destination) zipped).find =
        some (.file
          (streams.bytes (leaves.map (entryAt source dirPath root)))) := by
    rw [isPlace, Option.bind_some,
      (find_deleteDir isEmpty.normalized).1 zipPath differs, archive]
  obtain ⟨_, untouched, extracted⟩ := @Extracted.run _ _ _ _ _ _ root _
    (isEmpty.extracted (dirShape source dirPath isDirectory)) isEmpty.named _
    fun names isLeaf => ((isLeaves.mem_iff names).mp isLeaf).2
  simp only [unZip, Extractor.prepare, Outcome.unchanged, read,
    reproduce (leaves.map (entryAt source dirPath root))]
  exact ⟨untouched, extracted⟩

/-- The second archive has the files of the first one exactly if the
destination stands again and no file was left out. -/
theorem zip_again_iff (streams : ZipStreams)
    (reproduce : streams.Reproduce)
    (isLeaves : Leaves source dirPath [] leaves)
    (extracted : Extracted workingDirectory destination inside
      (dirShape source dirPath isDirectory)
      (leaves.filter (isExtracted source dirPath)) after)
    {second : File} {secondPath : Path}
    (isPlace : place workingDirectory second after = some secondPath)
    (isOpen : after.Open secondPath) (outside : ¬inside <+: secondPath) :
    (∃ again,
      DripStone.Unzip.zip streams workingDirectory (File.ofText destination)
        second after = .ok again ∧
      SameFiles (leaves.map (entryAt source dirPath root))
        (archived streams again secondPath)) ↔
      NoSignatureFile source dirPath ∧
        after.find inside = some .directory := by
  by_cases isThere : after.find inside = some .directory
  · obtain ⟨again, others, zippedAgain, otherLeaves, _, archive, _⟩ :=
      zip_leaves streams (noSlash_getName destination)
        (extracted.reach after (Keeps.refl after) isThere) isThere isPlace
        isOpen outside
    have written : archived streams again secondPath =
        others.map
          (entryAt after inside (File.ofText destination).getName) := by
      simp only [archived, archive, reproduce _]
    have same := @sameFiles_iff _ _ _ _ _ _ root _ _ _
      (File.ofText destination).getName isLeaves otherLeaves extracted
    constructor
    · rintro ⟨other, isOther, sameFiles⟩
      have isAgain := zippedAgain.symm.trans isOther
      cases isAgain
      rw [written] at sameFiles
      exact ⟨same.mp sameFiles, isThere⟩
    · intro both
      refine ⟨again, zippedAgain, ?_⟩
      rw [written]
      exact same.mpr both.1
  · have missing := (extracted.unblocked inside List.prefix_rfl).resolve_right
      isThere
    constructor
    · rintro ⟨again, zippedAgain, _⟩
      exact absurd zippedAgain (zip_of_missing streams extracted.normalized
        missing isPlace isOpen outside again)
    · intro both
      exact absurd both.2 isThere

end Twice

/-! ## Both archives -/

/-- The entries are those of the tree exactly if it holds no empty directory.
What was extracted from them and put into a second archive gives the same
files exactly if none of them is a signature file and the destination stands
again, as it does when there is a file at all. -/
theorem zip_twice_iff (streams : ZipStreams) (reproduce : streams.Reproduce)
    (workingDirectory : Path) (files : FileSystem Bytes) (dirText : Text)
    (zipFile : File) (dirPath zipPath : Path)
    (isDir : place workingDirectory (File.ofText dirText) files =
      some dirPath)
    (isDirectory : files.find dirPath = some .directory)
    (nonempty : files.list dirPath ≠ [])
    (isPlace : place workingDirectory zipFile files = some zipPath)
    (isOpen : files.Open zipPath) (outside : ¬dirPath <+: zipPath) :
    ∃ zipped,
      DripStone.Unzip.zip streams workingDirectory (File.ofText dirText)
        zipFile files = .ok zipped ∧
      (Archived files dirPath (archived streams zipped zipPath) ↔
        NoEmptyDirectory files dirPath) ∧
      ∀ destination inside,
        EmptyDestination workingDirectory destination zipped inside →
        place workingDirectory zipFile
          (deleteDir workingDirectory (File.ofText destination) zipped) =
            some zipPath →
        let after :=
          unZip streams workingDirectory zipFile destination zipped
        ∀ second secondPath,
          place workingDirectory second after = some secondPath →
          after.Open secondPath → ¬inside <+: secondPath →
          ((∃ again,
            DripStone.Unzip.zip streams workingDirectory
              (File.ofText destination) second after = .ok again ∧
            SameFiles (archived streams zipped zipPath)
              (archived streams again secondPath)) ↔
            NoSignatureFile files dirPath ∧
              (HasFile files dirPath ∨
                (deleteDir workingDirectory (File.ofText destination)
                  zipped).find inside = some .directory)) := by
  have noSlash := noSlash_getName dirText
  obtain ⟨zipped, leaves, zippedIs, isLeaves, _, archive, _⟩ :=
    zip_leaves streams noSlash isDir isDirectory isPlace isOpen outside
  have written : archived streams zipped zipPath =
      leaves.map (entryAt files dirPath (File.ofText dirText).getName) := by
    simp only [archived, archive, reproduce _]
  refine ⟨zipped, zippedIs, ?_, ?_⟩
  · rw [written]
    exact isLeaves.archived_iff noSlash isDirectory nonempty
  · intro destination inside isEmpty stillPlace after second secondPath
      placeSecond openSecond outsideSecond
    obtain ⟨untouched, extracted⟩ := @unZip_extracted _ _ _ files dirPath _
      isDirectory _ _ reproduce _ _ _ isLeaves isEmpty stillPlace archive
    rw [written, zip_again_iff streams reproduce isLeaves extracted
      placeSecond openSecond outsideSecond]
    refine and_congr_right fun unsigned => ?_
    constructor
    · intro isThere
      by_cases nothing : leaves.filter (isExtracted files dirPath) = []
      · rw [untouched nothing] at isThere
        exact Or.inr isThere
      · obtain ⟨names, isDone⟩ := List.exists_mem_of_ne_nil _ nothing
        obtain ⟨⟨content, found⟩, _⟩ := (mem_extracted_iff isLeaves).mp isDone
        exact Or.inl ⟨names, content, found⟩
    · rintro (⟨names, content, found⟩ | kept)
      · have isDone := (mem_extracted_iff isLeaves).mpr
          ⟨⟨content, found⟩, unsigned names content found⟩
        exact extracted.root (List.ne_nil_of_mem isDone)
      · by_cases nothing : leaves.filter (isExtracted files dirPath) = []
        · rw [untouched nothing]
          exact kept
        · exact extracted.root nothing

theorem smallTree_zip_twice :
    ∃ zipped,
      DripStone.Unzip.zip countingStreams [] (File.ofText "/data/tree".toList)
        (File.ofText "/data/t.zip".toList) smallTree = .ok zipped ∧
      (Archived smallTree ["data".toList, "tree".toList]
          (archived countingStreams zipped
            ["data".toList, "t.zip".toList]) ↔
        NoEmptyDirectory smallTree ["data".toList, "tree".toList]) ∧
      ∀ destination inside, EmptyDestination [] destination zipped inside →
        place [] (File.ofText "/data/t.zip".toList)
          (deleteDir [] (File.ofText destination) zipped) =
            some ["data".toList, "t.zip".toList] →
        let after := unZip countingStreams []
          (File.ofText "/data/t.zip".toList) destination zipped
        ∀ second secondPath, place [] second after = some secondPath →
          after.Open secondPath → ¬inside <+: secondPath →
          ((∃ again,
            DripStone.Unzip.zip countingStreams [] (File.ofText destination)
              second after = .ok again ∧
            SameFiles
              (archived countingStreams zipped
                ["data".toList, "t.zip".toList])
              (archived countingStreams again secondPath)) ↔
            NoSignatureFile smallTree ["data".toList, "tree".toList] ∧
              (HasFile smallTree ["data".toList, "tree".toList] ∨
                (deleteDir [] (File.ofText destination) zipped).find inside =
                  some .directory)) :=
  zip_twice_iff countingStreams countingStreams_reproduce [] smallTree
    "/data/tree".toList (File.ofText "/data/t.zip".toList)
    ["data".toList, "tree".toList] ["data".toList, "t.zip".toList]
    (by decide) (by decide) (by decide) (by decide) (by decide) (by decide)

/-- The empty directory of the tree has a wrong entry. -/
theorem smallTree_not_archived :
    ∃ zipped,
      DripStone.Unzip.zip countingStreams [] (File.ofText "/data/tree".toList)
        (File.ofText "/data/t.zip".toList) smallTree = .ok zipped ∧
      ¬Archived smallTree ["data".toList, "tree".toList]
        (archived countingStreams zipped
          ["data".toList, "t.zip".toList]) := by
  have noSlash := noSlash_getName "/data/tree".toList
  have isDirectory : smallTree.find ["data".toList, "tree".toList] =
      some .directory := by decide
  obtain ⟨zipped, leaves, zippedIs, isLeaves, _, archive, _⟩ :=
    @zip_leaves [] smallTree ["data".toList, "tree".toList]
      ["data".toList, "t.zip".toList] countingStreams
      (File.ofText "/data/tree".toList) (File.ofText "/data/t.zip".toList)
      noSlash (by decide) isDirectory (by decide) (by decide) (by decide)
  refine ⟨zipped, zippedIs, fun isArchived => ?_⟩
  simp only [archived, archive, countingStreams_reproduce _] at isArchived
  have noEmpty := (isLeaves.archived_iff noSlash isDirectory (by decide)).mp
    isArchived
  exact noEmpty ["none".toList] (by decide) (by decide) (by decide)

end DripStone.Unzip
