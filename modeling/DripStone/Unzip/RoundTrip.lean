import DripStone.Unzip.Growing

/-!
# From a tree to an archive and back

`onZip` lists a tree and `onUnzip` grows it again: the entries are those of
the tree, so that what exists below the destination is the tree and nothing
else.
-/

namespace DripStone.Unzip

open DripStone.Library

/-! ## The law -/

/-- A destination with nothing in it: a directory, or a path of plain names
that does not exist yet. -/
structure EmptyDestination (workingDirectory : Path) (destPath : Text)
    (files : FileSystem Bytes) (inside : Path) : Prop where
  named : destPath ≠ []
  found :
    (place workingDirectory (File.ofText destPath) files = some inside ∧
      files.find inside = some .directory) ∨
    (files.find workingDirectory = some .directory ∧
      (∀ name ∈ (File.ofText destPath).names, Plain name) ∧
      (File.ofText destPath).normalized workingDirectory = inside ∧
      files.Unblocked inside ∧ files.find inside = none)
  empty : ∀ rest, rest ≠ [] → files.find (inside ++ rest) = none

/-- The tree at `folder ++ [root]` stands below the destination under its own
name, and nothing else does. -/
structure Recreated (files : FileSystem Bytes) (folder : Path) (root : Name)
    (inside : Path) (extracted : FileSystem Bytes) : Prop where
  directory : extracted.find inside = some .directory
  tree : ∀ rest, extracted.find (inside ++ root :: rest) =
    files.find (folder ++ root :: rest)
  nothingElse : ∀ name rest, name ≠ root →
    extracted.find (inside ++ name :: rest) = none

/-! ## The tree -/

section Tree

variable {files : FileSystem Bytes} {folder : Path} {root : Name}

/-- The tree below a directory that holds only it. -/
def treeShape (files : FileSystem Bytes) (folder : Path) (root : Name) :
    Shape where
  find
    | [] => some .directory
    | name :: rest =>
        if name = root then files.find (folder ++ name :: rest) else none
  root := rfl
  closed := by
    intro names rest found more
    cases names with
    | nil => rfl
    | cons name names =>
        by_cases same : name = root
        · simp only [List.cons_append, if_pos same] at found ⊢
          apply files.find_of_append _ more
          simpa using found
        · simp [same] at found
  plain := by
    intro names found
    cases names with
    | nil =>
        intro name inNil
        exact absurd inNil List.not_mem_nil
    | cons name names =>
        by_cases same : name = root
        · simp only [if_pos same] at found
          exact plain_of_find found
        · simp [same] at found

/-- The entries listed for the tree are its own. -/
theorem Lists.has {zipEntries : List ZipEntry}
    (lists : Lists files folder [root] zipEntries) :
    ∀ zipEntry ∈ zipEntries,
      (treeShape files folder root).Has zipEntry := by
  intro zipEntry inEntries
  obtain ⟨more, isName, isEntry⟩ := lists.sound zipEntry inEntries
  constructor
  · rw [isName]
    simp
  · rw [isName]
    show (if root = root then files.find (folder ++ root :: more)
      else none) = _
    rw [if_pos rfl]
    exact isEntry

/-- Nothing of the tree is left out. -/
theorem Lists.recreated {zipEntries : List ZipEntry}
    (lists : Lists files folder [root] zipEntries)
    {workingDirectory : Path} {destination : Text} {inside : Path}
    {before extracted : FileSystem Bytes}
    (grown : Grown workingDirectory destination inside
      (treeShape files folder root) before zipEntries extracted) :
    Recreated files folder root inside extracted where
  directory := grown.directory
  tree := by
    intro rest
    have inTree : (treeShape files folder root).find (root :: rest) =
        files.find (folder ++ root :: rest) := if_pos rfl
    by_cases onTheWay : OnTheWay zipEntries (root :: rest)
    · rw [grown.present _ onTheWay, inTree]
    · rw [grown.absent _ onTheWay]
      by_contra found
      obtain ⟨zipEntry, inEntries, isAbove⟩ :=
        lists.complete rest fun missing => found missing.symm
      exact onTheWay (Or.inr ⟨zipEntry, inEntries, isAbove⟩)
  nothingElse := by
    intro name rest different
    apply grown.absent
    rintro (nothing | ⟨zipEntry, inEntries, isAbove⟩)
    · simp at nothing
    · obtain ⟨more, isName, _⟩ := lists.sound zipEntry inEntries
      rw [isName] at isAbove
      have heads := List.prefix_cons_iff.mp isAbove
      simp [different] at heads

end Tree

/-! ## The two calls -/

section Calls

variable {workingDirectory : Path} {files : FileSystem Bytes}
variable {folder : Path} {root : Name}

/-- `folderString + fileString` names what `fileString` names in the
folder. -/
theorem folderString_names {file : File}
    (isTree : file = ⟨true, folder ++ [root]⟩)
    (plain : ∀ name ∈ folder, Plain name) (text : Text) :
    File.ofText (getParent file ++ ['/'] ++ text) =
      ⟨true, folder ++ namesOf text⟩ := by
  have parent : getParent file = '/' :: textOf folder := by
    rw [getParent, isTree, File.getParentFile_concat root (Or.inl rfl)]
    rfl
  have joined : getParent file ++ ['/'] ++ text =
      ('/' :: textOf folder) ++ '/' :: text := by
    rw [parent, List.append_assoc]
    rfl
  rw [joined, File.ofText, namesOf_append_slash, namesOf_slash,
    namesOf_textOf plain]
  rfl

/-- A stream on an open path. -/
theorem writeArchive_of_open {zipFile : File} {zipPath : Path}
    (isPlace : place workingDirectory zipFile files = some zipPath)
    (isOpen : files.Open zipPath) (content : Bytes) :
    ∃ written, writeArchive workingDirectory files zipFile content =
        .ok written ∧
      place workingDirectory zipFile written = some zipPath ∧
      written.Open zipPath ∧
      ∀ other, written.find other =
        if other = zipPath then some (.file content)
        else files.find other := by
  obtain ⟨written, succeeded, openAgain, found⟩ :=
    FileSystem.write_of_open isOpen content
  refine ⟨written, ?_, ?_, openAgain, found⟩
  · simp only [writeArchive, isPlace, succeeded]
  · exact FileSystem.resolve_of_keeps (keeps_write succeeded) isPlace

/-- The entries are the same where the tree is. -/
theorem Lists.congr {others : FileSystem Bytes} {names : List Name}
    {zipEntries : List ZipEntry} (lists : Lists others folder names zipEntries)
    (same : ∀ more, others.find (folder ++ (names ++ more)) =
      files.find (folder ++ (names ++ more))) :
    Lists files folder names zipEntries where
  sound := by
    intro zipEntry inEntries
    obtain ⟨more, isName, isEntry⟩ := lists.sound zipEntry inEntries
    exact ⟨more, isName, by rw [← same, isEntry]⟩
  complete := by
    intro more found
    rw [← same] at found
    exact lists.complete more found
  nodup := lists.nodup

/-- What `onZip` leaves: the archive, with the entries of the tree. -/
theorem onZip_lists (streams : ZipStreams) {srcFileString : Text}
    (isTree : File.ofText srcFileString = ⟨true, folder ++ [root]⟩)
    (exists_ : files.find (folder ++ [root]) ≠ none)
    {zipFileString : Text} {zipPath : Path}
    (isPlace : place workingDirectory (File.ofText zipFileString) files =
      some zipPath)
    (isOpen : files.Open zipPath)
    (outside : ¬ folder ++ [root] <+: zipPath) :
    ∃ zipped zipEntries,
      onZip streams workingDirectory srcFileString zipFileString files =
        .ok zipped ∧
      Lists files folder [root] zipEntries ∧
      place workingDirectory (File.ofText zipFileString) zipped =
        some zipPath ∧
      ∀ other, zipped.find other =
        if other = zipPath then some (.file (streams.bytes zipEntries))
        else files.find other := by
  obtain ⟨opened, openedIs, placeOpened, openOpened, foundOpened⟩ :=
    writeArchive_of_open isPlace isOpen []
  have sameTree : ∀ more, opened.find (folder ++ ([root] ++ more)) =
      files.find (folder ++ ([root] ++ more)) := by
    intro more
    rw [foundOpened, if_neg]
    rintro rfl
    apply outside
    rw [← List.append_assoc]
    exact List.prefix_append _ _
  have existsOpened : opened.find (folder ++ [root]) ≠ none := by
    have atRoot := sameTree []
    rw [List.append_nil] at atRoot
    rwa [atRoot]
  have plain : ∀ name ∈ folder, Plain name := fun name inFolder =>
    files.plain _ exists_ name (List.mem_append_left _ inFolder)
  obtain ⟨zipEntries, listed, lists⟩ :=
    @onZipFiles_lists workingDirectory opened folder [root] _
      (folderString_names isTree plain) (opened.height + 1) (by simp)
      existsOpened (by omega)
  obtain ⟨zipped, zippedIs, placeZipped, _, foundZipped⟩ :=
    writeArchive_of_open placeOpened openOpened (streams.bytes zipEntries)
  have name : (File.ofText srcFileString).getName = textOf [root] := by
    rw [isTree]
    simp [File.getName, textOf, List.intercalate]
  refine ⟨zipped, zipEntries, ?_, lists.congr sameTree, placeZipped, ?_⟩
  · simp only [onZip, openedIs, bind, Except.bind, name, listed,
      zipOutputStream, if_pos lists.nodup, zippedIs]
  · intro other
    rw [foundZipped, foundOpened]
    by_cases here : other = zipPath
    · rw [if_pos here, if_pos here]
    · rw [if_neg here, if_neg here, if_neg here]

/-- An empty directory has grown nothing. -/
theorem Grown.nil {destPath : Text} {inside : Path} {shape : Shape}
    (reached : place workingDirectory (File.ofText destPath) files =
      some inside)
    (directory : files.find inside = some .directory)
    (empty : ∀ rest, rest ≠ [] → files.find (inside ++ rest) = none) :
    Grown workingDirectory destPath inside shape files [] files where
  reached := reached
  present := by
    intro names onTheWay
    have atRoot : names = [] := by simpa [OnTheWay] using onTheWay
    rw [atRoot, List.append_nil, directory, shape.root]
  absent := by
    intro names offTheWay
    apply empty
    rintro rfl
    exact offTheWay (Or.inl rfl)
  elsewhere := fun _ _ => rfl

/-- A path of plain names that does not exist yet. -/
theorem EmptyDestination.of_plain {destPath : Text} {inside : Path}
    (working : files.find workingDirectory = some .directory)
    (plainNames : ∀ name ∈ (File.ofText destPath).names, Plain name)
    (isPath : (File.ofText destPath).normalized workingDirectory = inside) :
    inside = (File.ofText destPath).start workingDirectory ++
        (File.ofText destPath).names ∧
      ∀ name ∈ inside, Plain name := by
  have plainStart : ∀ name ∈ (File.ofText destPath).start
      workingDirectory, Plain name := by
    unfold File.start
    cases (File.ofText destPath).absolute with
    | true => simp
    | false =>
        apply files.plain
        unfold FileSystem.find at working
        simp [working]
  have whole : inside = (File.ofText destPath).start workingDirectory ++
      (File.ofText destPath).names := by
    rw [← isPath]
    exact normalize_of_plain plainNames _
  refine ⟨whole, fun name inInside => ?_⟩
  rw [whole] at inInside
  rcases List.mem_append.mp inInside with inStart | inNames
  · exact plainStart name inStart
  · exact plainNames name inNames

/-- What stands in front of the loop leaves an empty directory. -/
theorem EmptyDestination.grown {destPath : Text} {inside : Path}
    (isEmpty : EmptyDestination workingDirectory destPath files inside)
    (shape : Shape) :
    let prepared :=
      (Extractor.onUnzip.prepare workingDirectory destPath files).files
    Grown workingDirectory destPath inside shape prepared [] prepared ∧
      Keeps files prepared ∧
      ∀ other, ¬ other <+: inside →
        prepared.find other = files.find other := by
  have keeps := @keeps_mkdirs_call workingDirectory (File.ofText destPath)
    files
  rcases isEmpty.found with ⟨reached, directory⟩ |
    ⟨working, plainNames, isPath, unblocked, _⟩
  · have found : isFound workingDirectory (File.ofText destPath) files := by
      rw [isFound, reached]
      simp [directory]
    have unchanged :
        Extractor.onUnzip.prepare workingDirectory destPath files =
          .unchanged files := by
      rw [Extractor.prepare, mkdirs, if_pos found]
    rw [unchanged]
    exact ⟨Grown.nil reached directory isEmpty.empty, Keeps.refl files,
      fun _ _ => rfl⟩
  · obtain ⟨whole, plain⟩ :=
      EmptyDestination.of_plain working plainNames isPath
    have made := find_mkdirs_call isPath plain unblocked
    have directory := made inside
    rw [if_pos List.prefix_rfl] at directory
    refine ⟨Grown.nil ?_ directory ?_, keeps, ?_⟩
    · rw [whole] at directory
      rw [place, whole]
      exact FileSystem.resolve_of_find (by
        show (mkdirs _ _ _).files.find _ ≠ none
        simp [directory])
    · intro rest more
      refine (made _).trans ?_
      rw [if_neg, isEmpty.empty rest more]
      intro longer
      have lengths := longer.length_le
      have positive := List.length_pos_iff.mpr more
      rw [List.length_append] at lengths
      omega
    · intro other notAbove
      exact (made other).trans (if_neg notAbove)

end Calls

/-- The tree that `onZip` has put into an archive is recreated by `onUnzip`
in any empty destination. -/
theorem onUnzip_onZip (streams : ZipStreams)
    (reproduce : streams.Reproduce) (workingDirectory : Path)
    (files : FileSystem Bytes) (folder : Path) (root : Name)
    (srcFileString zipFileString : Text) (zipPath : Path)
    (isTree : File.ofText srcFileString = ⟨true, folder ++ [root]⟩)
    (exists_ : files.find (folder ++ [root]) ≠ none)
    (isPlace : place workingDirectory (File.ofText zipFileString) files =
      some zipPath)
    (isOpen : files.Open zipPath)
    (outside : ¬ folder ++ [root] <+: zipPath) :
    ∃ zipped,
      onZip streams workingDirectory srcFileString zipFileString files =
        .ok zipped ∧
      ∀ destPath inside,
        EmptyDestination workingDirectory destPath zipped inside →
        ∃ extracted,
          onUnzip streams workingDirectory zipFileString destPath zipped =
            .ok extracted ∧
          Recreated files folder root inside extracted := by
  obtain ⟨zipped, zipEntries, zippedIs, lists, placeZipped, foundZipped⟩ :=
    @onZip_lists workingDirectory files folder root streams _ isTree exists_
      _ _ isPlace isOpen outside
  refine ⟨zipped, zippedIs, ?_⟩
  intro destPath inside isEmpty
  obtain ⟨grown, keeps, same⟩ := isEmpty.grown (treeShape files folder root)
  obtain ⟨running, extracted⟩ := grown.run isEmpty.named lists.has
  have archive : zipped.find zipPath =
      some (.file (streams.bytes zipEntries)) := by
    rw [foundZipped, if_pos rfl]
  have notAbove : ¬ zipPath <+: inside := by
    -- a file leads to no directory
    rintro ⟨rest, rfl⟩
    rcases isEmpty.found with ⟨_, directory⟩ | ⟨_, _, _, unblocked, _⟩
    · have above := zipped.directory_of_append directory
      rw [archive] at above
      simp at above
    · have above := unblocked zipPath (List.prefix_append _ _)
      rw [archive] at above
      simp at above
  have read : (place workingDirectory (File.ofText zipFileString)
        (Extractor.onUnzip.prepare workingDirectory destPath
          zipped).files).bind
      (Extractor.onUnzip.prepare workingDirectory destPath
        zipped).files.find =
        some (.file (streams.bytes zipEntries)) := by
    rw [place, FileSystem.resolve_of_keeps keeps placeZipped,
      Option.bind_some, same zipPath notAbove, archive]
  refine ⟨_, ?_, lists.recreated extracted⟩
  simp only [onUnzip, read, reproduce zipEntries, if_pos running]

/-! ## A tree -/

instance : Countable ZipEntry := by
  have natural : Function.Injective fun zipEntry : ZipEntry =>
      (zipEntry.name.map Char.toNat, zipEntry.content.map UInt8.toNat) := by
    intro first second same
    obtain ⟨firstName, firstContent⟩ := first
    obtain ⟨secondName, secondContent⟩ := second
    obtain ⟨names, contents⟩ := Prod.mk.inj same
    congr 1
    · exact List.map_injective_iff.mpr
        (fun one other equal => Char.toNat_inj.mp equal) names
    · exact List.map_injective_iff.mpr
        (fun one other equal => UInt8.toNat_inj.mp equal) contents
  exact natural.countable

/-- An archive as long as the number of its entries' list. -/
noncomputable def countingStreams : ZipStreams :=
  let number := Classical.choose (exists_injective_nat (List ZipEntry))
  { bytes := fun zipEntries => List.replicate (number zipEntries) 0
    zipEntries := fun bytes => Function.invFun number bytes.length }

theorem countingStreams_reproduce : countingStreams.Reproduce := by
  intro zipEntries
  have injective :=
    Classical.choose_spec (exists_injective_nat (List ZipEntry))
  simp only [countingStreams, List.length_replicate]
  exact Function.leftInverse_invFun injective zipEntries

/-- `/data/tree`, with an empty file and an empty directory. -/
def smallTree : FileSystem Bytes :=
  let made := FileSystem.empty.mkdirs
    ["data".toList, "tree".toList, "none".toList]
  (made.write ["data".toList, "tree".toList, "a".toList] []).getD made

theorem smallTree_onUnzip_onZip :
    ∃ zipped,
      onZip countingStreams [] "/data/tree".toList "/data/t.zip".toList
        smallTree = .ok zipped ∧
      ∀ destPath inside, EmptyDestination [] destPath zipped inside →
        ∃ extracted,
          onUnzip countingStreams [] "/data/t.zip".toList destPath zipped =
            .ok extracted ∧
          Recreated smallTree ["data".toList] "tree".toList inside
            extracted :=
  onUnzip_onZip countingStreams countingStreams_reproduce [] smallTree
    ["data".toList] "tree".toList _ _ ["data".toList, "t.zip".toList]
    (by decide) (by decide) (by decide) (by decide) (by decide)

end DripStone.Unzip
