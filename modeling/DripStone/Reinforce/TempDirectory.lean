import DripStone.Reinforce.Pipeline

/-!
# The directories of earlier runs

The pipeline deletes the files at the top of a directory and unpacks an
archive over what is left below.
-/

namespace DripStone.Reinforce

open DripStone.Library DripStone.Unzip

def withoutFile : Option (Entry Bytes) → Option (Entry Bytes)
  | some (.file _) => none
  | entry => entry

/-- What is left below a directory when the files at its top are deleted. -/
def leftover (files : FileSystem Bytes) (path : Path) (names : List Name) :
    Option (Entry Bytes) :=
  if names.length = 1 then withoutFile (files.find (path ++ names))
  else files.find (path ++ names)

@[simp]
theorem leftover_singleton (files : FileSystem Bytes) (path : Path)
    (name : Name) :
    leftover files path [name] = withoutFile (files.find (path ++ [name])) :=
  rfl

theorem withoutFile_withoutFile (entry : Option (Entry Bytes)) :
    withoutFile (withoutFile entry) = withoutFile entry := by
  rcases entry with _ | (_ | _) <;> rfl

/-- Nothing that is left is in the way of a file. -/
def Room (left : List Name → Option (Entry Bytes)) (names : List Name) :
    Prop :=
  (∀ above content, above ≠ [] → above <+: names.dropLast →
      left above ≠ some (.file content)) ∧
    left names ≠ some .directory

/-- At most the entries of a folder differ. -/
def SameButFolder (path : Path) (before after : FileSystem Bytes) : Prop :=
  ∀ other, (∀ name, other ≠ path ++ [name]) →
    after.find other = before.find other

theorem SameButFolder.refl (path : Path) (files : FileSystem Bytes) :
    SameButFolder path files files :=
  fun _ _ => rfl

theorem SameButFolder.trans {path : Path}
    {before middle after : FileSystem Bytes}
    (first : SameButFolder path before middle)
    (second : SameButFolder path middle after) :
    SameButFolder path before after :=
  fun other isOther => (second other isOther).trans (first other isOther)

theorem SameButFolder.outside {path : Path}
    {before after : FileSystem Bytes}
    (same : SameButFolder path before after) {other : Path}
    (isOutside : ¬path <+: other) : after.find other = before.find other :=
  same other fun name here => isOutside (here ▸ List.prefix_append path [name])

theorem SameButFolder.directory {path : Path}
    {before after : FileSystem Bytes}
    (same : SameButFolder path before after)
    (isDirectory : before.find path = some .directory) :
    after.find path = some .directory := by
  rw [same path fun name here => by simp at here, isDirectory]

section Calls

variable {workingDirectory path : Path} {file dir : File}
variable {files : FileSystem Bytes} {order : ListingOrder}

/-- A relative file that exists is found. -/
theorem place_of_find (relative : file.absolute = false)
    (exists_ : files.find (workingDirectory ++ file.names) ≠ none) :
    place workingDirectory file files =
      some (workingDirectory ++ file.names) := by
  rw [place, File.start, relative]
  exact FileSystem.resolve_of_find exists_

theorem entryOf_of_place (isPlace : place workingDirectory file files =
    some path) : entryOf workingDirectory file files = files.find path := by
  rw [entryOf, isPlace]
  rfl

theorem listFiles_of_directory
    (isPlace : place workingDirectory dir files = some path)
    (isDirectory : files.find path = some .directory) :
    listFiles order workingDirectory dir files =
      some ((order.names files path).map dir.child) := by
  simp only [listFiles, isPlace, isDirectory, if_true]

theorem directory_of_listFiles {listed : List File}
    (isPath : dir.normalized workingDirectory = path)
    (isListed : listFiles order workingDirectory dir files = some listed) :
    place workingDirectory dir files = some path ∧
      files.find path = some .directory := by
  rw [listFiles] at isListed
  cases isPlace : place workingDirectory dir files with
  | none =>
      rw [isPlace] at isListed
      cases isListed
  | some found =>
      have same : dir.normalized workingDirectory = found :=
        FileSystem.normalize_of_resolve isPlace
      rw [isPath] at same
      rw [← same] at isPlace
      simp only [isPlace] at isListed
      refine ⟨congrArg some same.symm, ?_⟩
      by_contra noDirectory
      rw [if_neg noDirectory] at isListed
      cases isListed

theorem mem_order {name : Name} :
    name ∈ order.names files path ↔ files.find (path ++ [name]) ≠ none :=
  (order.perm files path).mem_iff.trans (files.mem_list_iff path name)

theorem nodup_order : (order.names files path).Nodup :=
  (order.perm files path).nodup_iff.mpr (files.nodup_list path)

theorem plain_of_listed {name : Name}
    (isListed : name ∈ order.names files path) : Plain name :=
  files.plain _ (mem_order.mp isListed) name (by simp)

/-! ## Deleting -/

theorem deleteFile_child {name : Name}
    (isPlace : place workingDirectory dir files = some path)
    (isDirectory : files.find path = some .directory) (plain : Plain name) :
    let deleted := deleteFile workingDirectory files (dir.child name)
    SameButFolder path files deleted ∧
      ∀ other, deleted.find (path ++ [other]) =
        if other = name then withoutFile (files.find (path ++ [other]))
        else files.find (path ++ [other]) := by
  have atChild := place_child isPlace isDirectory plain
  simp only [deleteFile, atChild]
  cases found : files.find (path ++ [name]) with
  | none =>
      refine ⟨SameButFolder.refl _ _, fun other => ?_⟩
      by_cases here : other = name
      · rw [if_pos here, here, found]
        rfl
      · rw [if_neg here]
  | some entry =>
      cases entry with
      | directory =>
          refine ⟨SameButFolder.refl _ _, fun other => ?_⟩
          by_cases here : other = name
          · rw [if_pos here, here, found]
            rfl
          · rw [if_neg here]
      | file content =>
          have deletable := FileSystem.deletable_of_file found
          refine ⟨fun other isOther => ?_, fun other => ?_⟩
          · rw [FileSystem.find_delete, if_neg]
            exact fun both => isOther name both.2
          · rw [FileSystem.find_delete]
            by_cases here : other = name
            · rw [if_pos here, if_pos ⟨deletable, by rw [here]⟩, here, found]
              rfl
            · rw [if_neg here, if_neg fun both => here (by simpa using both.2)]

theorem deleteFile_fold {names : List Name}
    (relative : dir.absolute = false)
    (isPath : path = workingDirectory ++ dir.names)
    (isDirectory : files.find path = some .directory)
    (plain : ∀ name ∈ names, Plain name) :
    let deleted :=
      (names.map dir.child).foldl (deleteFile workingDirectory) files
    SameButFolder path files deleted ∧
      ∀ other, deleted.find (path ++ [other]) =
        if other ∈ names then withoutFile (files.find (path ++ [other]))
        else files.find (path ++ [other]) := by
  induction names generalizing files with
  | nil => exact ⟨SameButFolder.refl _ _, by simp⟩
  | cons name rest inductionHypothesis =>
      have isPlace : place workingDirectory dir files = some path := by
        rw [isPath]
        exact place_of_find relative (by rw [← isPath, isDirectory]; simp)
      obtain ⟨sameHere, atHere⟩ := deleteFile_child isPlace isDirectory
        (plain name List.mem_cons_self)
      obtain ⟨sameLater, atLater⟩ := inductionHypothesis
        (sameHere.directory isDirectory)
        fun other inRest => plain other (List.mem_cons_of_mem name inRest)
      refine ⟨sameHere.trans sameLater, fun other => ?_⟩
      rw [List.map_cons, List.foldl_cons, atLater, atHere]
      by_cases later : other ∈ rest
      · rw [if_pos later, if_pos (List.mem_cons_of_mem name later)]
        split
        · exact withoutFile_withoutFile _
        · rfl
      · rw [if_neg later]
        by_cases here : other = name
        · rw [if_pos here, if_pos (here ▸ List.mem_cons_self)]
        · rw [if_neg here, if_neg]
          simp [here, later]

/-- Spec lemma of `deleteFiles`. -/
theorem deleteFiles_eq_ok (relative : dir.absolute = false)
    (isPath : path = workingDirectory ++ dir.names)
    (plain : ∀ name ∈ path, Plain name)
    (noFile : ∀ content, files.find path ≠ some (.file content)) :
    ∃ cleaned, deleteFiles order workingDirectory dir files = .ok cleaned ∧
      SameButFolder path files cleaned ∧
      ∀ name, cleaned.find (path ++ [name]) =
        leftover files path [name] := by
  rw [deleteFiles]
  cases found : files.find path with
  | none =>
      have missing : isFound workingDirectory dir files = false := by
        rw [isFound]
        cases isPlace : place workingDirectory dir files with
        | none => rfl
        | some other =>
            have same : dir.normalized workingDirectory = other :=
              FileSystem.normalize_of_resolve isPlace
            have plainNames : ∀ name ∈ dir.names, Plain name :=
              fun name inNames => plain name
                (isPath ▸ List.mem_append_right _ inNames)
            rw [File.normalized, normalize_of_plain plainNames, File.start,
              relative] at same
            have isOther : path = other := isPath.trans same
            rw [← isOther]
            simp [found]
      refine ⟨files, by rw [missing]; rfl, SameButFolder.refl _ _,
        fun name => ?_⟩
      have nothing : files.find (path ++ [name]) = none :=
        files.find_eq_none_of_append (by simp [found]) (by simp)
      rw [leftover_singleton, nothing]
      rfl
  | some entry =>
      cases entry with
      | file content => exact absurd found (noFile content)
      | directory =>
          have isPlace : place workingDirectory dir files = some path := by
            rw [isPath]
            exact place_of_find relative (by rw [← isPath, found]; simp)
          have isThere : isFound workingDirectory dir files = true := by
            rw [isFound, isPlace]
            simp [found]
          have plainListed : ∀ name ∈ order.names files path, Plain name :=
            fun _ => plain_of_listed
          obtain ⟨same, atFolder⟩ :=
            deleteFile_fold relative isPath found plainListed
          refine ⟨_, by
            rw [isThere, listFiles_of_directory isPlace found]
            rfl, same, fun name => ?_⟩
          rw [atFolder]
          by_cases isListed : name ∈ order.names files path
          · rw [if_pos isListed, leftover_singleton]
          · have missing : files.find (path ++ [name]) = none := by
              by_contra exists_
              exact isListed (mem_order.mpr exists_)
            rw [if_neg isListed, leftover_singleton, missing]
            rfl

/-! ## Unpacking -/

/-- A pathname below the working directory, with the path it stands for. -/
structure Below (workingDirectory : Path) (pathname : Text) (path : Path) :
    Prop where
  relative : (File.ofText pathname).absolute = false
  named : (File.ofText pathname).names ≠ []
  plain : ∀ name ∈ path, Plain name
  isPath : path = workingDirectory ++ (File.ofText pathname).names

section Unpacking

variable {pathname : Text} {inside : Path}

theorem Below.ne_nil (below : Below workingDirectory pathname inside) :
    inside ≠ [] := by
  rw [below.isPath]
  exact fun nothing => below.named (List.append_eq_nil_iff.mp nothing).2

theorem Below.normalized (below : Below workingDirectory pathname inside) :
    (File.ofText pathname).normalized workingDirectory = inside := by
  have plain : ∀ name ∈ (File.ofText pathname).names, Plain name :=
    fun name inNames => below.plain name
      (below.isPath ▸ List.mem_append_right _ inNames)
  rw [File.normalized, normalize_of_plain plain, File.start, below.relative,
    below.isPath]
  rfl

theorem Below.place_of_find (below : Below workingDirectory pathname inside)
    (exists_ : files.find inside ≠ none) :
    place workingDirectory (File.ofText pathname) files = some inside := by
  rw [below.isPath] at exists_ ⊢
  exact Reinforce.place_of_find below.relative exists_

theorem Below.eq_of_place (below : Below workingDirectory pathname inside)
    (isPlace : place workingDirectory (File.ofText pathname) files =
      some path) : path = inside := by
  rw [← below.normalized]
  exact (FileSystem.normalize_of_resolve isPlace).symm

theorem Below.plain_getName
    (below : Below workingDirectory pathname inside) :
    Plain (File.ofText pathname).getName := by
  apply below.plain
  rw [below.isPath]
  refine List.mem_append_right _ ?_
  rw [File.getName, List.getLastD_eq_getLast?,
    List.getLast?_eq_some_getLast below.named]
  exact List.getLast_mem below.named

theorem Below.site (below : Below workingDirectory pathname inside)
    (above : files.find inside.dropLast = some .directory)
    (noFile : ∀ content, files.find inside ≠ some (.file content)) :
    Site workingDirectory pathname inside files where
  named := by
    rintro rfl
    exact below.named rfl
  reach := fun after directory => below.place_of_find (by simp [directory])
  normalized := below.normalized
  plain := below.plain
  below := below.ne_nil
  above := above
  noFile := noFile

/-- An empty directory is deleted before it is unpacked to. -/
theorem Below.deleteDir (below : Below workingDirectory pathname inside)
    (noFile : ∀ content, files.find inside ≠ some (.file content)) :
    let prepared :=
      DripStone.Unzip.deleteDir workingDirectory (File.ofText pathname) files
    (∀ other, other ≠ inside → prepared.find other = files.find other) ∧
      prepared.find inside =
        if files.list inside = [] then none else files.find inside := by
  have nothing : files.find inside = none → files.list inside = [] := by
    intro missing
    rw [List.eq_nil_iff_forall_not_mem]
    intro name inList
    rw [files.mem_list_iff, files.find_eq_none_of_append (by simp [missing])
      (by simp)] at inList
    exact inList rfl
  simp only [DripStone.Unzip.deleteDir]
  cases isPlace : place workingDirectory (File.ofText pathname) files with
  | none =>
      refine ⟨fun _ _ => rfl, ?_⟩
      have missing : files.find inside = none := by
        by_contra exists_
        rw [below.place_of_find exists_] at isPlace
        cases isPlace
      rw [if_pos (nothing missing), missing]
  | some path =>
      obtain rfl := below.eq_of_place isPlace
      simp only [if_pos below.plain_getName]
      refine ⟨fun other different => ?_, ?_⟩
      · rw [FileSystem.find_delete, if_neg fun both => different both.2]
      · rw [FileSystem.find_delete]
        by_cases empty : files.list path = []
        · rw [if_pos ⟨⟨below.ne_nil, empty⟩, rfl⟩, if_pos empty]
        · rw [if_neg fun both => empty both.1.2, if_neg empty]

/-- Spec lemma of `unZip`: the loop runs from the files that are left. -/
theorem Below.unZip (below : Below workingDirectory pathname inside)
    (streams : ZipStreams) {content : Bytes} {zip : File}
    (relative : zip.absolute = false)
    (archive : files.find (workingDirectory ++ zip.names) =
      some (.file content))
    (above : files.find inside.dropLast = some .directory)
    (noFile : ∀ content, files.find inside ≠ some (.file content)) :
    ∃ prepared : FileSystem Bytes,
      DripStone.Unzip.unZip streams workingDirectory zip pathname files =
        (extract workingDirectory pathname prepared
          (streams.zipEntries content)).files ∧
      Site workingDirectory pathname inside prepared ∧
      (∀ other, other ≠ inside → prepared.find other = files.find other) ∧
      (prepared.find inside = some .directory ↔
        ∃ name, files.find (inside ++ [name]) ≠ none) := by
  obtain ⟨same, here⟩ := below.deleteDir noFile
  have notHere : workingDirectory ++ zip.names ≠ inside := by
    rintro isInside
    rw [isInside] at archive
    exact noFile content archive
  have archiveToo := (same _ notHere).trans archive
  refine ⟨DripStone.Unzip.deleteDir workingDirectory (File.ofText pathname)
    files, ?_, below.site ?_ ?_, same, ?_⟩
  · have read : (place workingDirectory zip (DripStone.Unzip.deleteDir
        workingDirectory (File.ofText pathname) files)).bind
        (DripStone.Unzip.deleteDir workingDirectory (File.ofText pathname)
          files).find = some (.file content) := by
      rw [Reinforce.place_of_find relative (by simp [archiveToo])]
      exact archiveToo
    rw [DripStone.Unzip.unZip]
    simp only [Extractor.prepare, Outcome.unchanged, read]
    rfl
  · rw [same _ (FileSystem.dropLast_ne below.ne_nil)]
    exact above
  · intro other isFile
    rw [here] at isFile
    split at isFile
    · cases isFile
    · exact noFile other isFile
  · rw [here]
    constructor
    · intro directory
      split at directory
      · cases directory
      · next nonempty =>
          obtain ⟨name, inList⟩ := List.exists_mem_of_ne_nil _ nonempty
          exact ⟨name, (files.mem_list_iff inside name).mp inList⟩
    · rintro ⟨name, exists_⟩
      have nonempty : files.list inside ≠ [] :=
        List.ne_nil_of_mem ((files.mem_list_iff inside name).mpr exists_)
      rw [if_neg nonempty]
      exact files.find_of_append exists_ (List.cons_ne_nil _ _)

/-- What is left leaves room for a file exactly if its place is clear. -/
theorem unhindered_iff_room {prepared : FileSystem Bytes}
    (site : Site workingDirectory pathname inside prepared)
    {left : List Name → Option (Entry Bytes)}
    (isLeft : ∀ names, names ≠ [] →
      prepared.find (inside ++ names) = left names)
    {names : List Name} (named : names ≠ []) :
    Unhindered prepared inside names ↔ Room left names := by
  rw [Unhindered, Room, isLeft names named]
  refine and_congr_left fun _ => ?_
  constructor
  · intro unblocked above content belowRoot isAbove isFile
    rw [← isLeft above belowRoot] at isFile
    rcases unblocked (inside ++ above)
        ((List.prefix_append_right_inj inside).mpr isAbove) with
      missing | directory
    · rw [isFile] at missing
      cases missing
    · rw [isFile] at directory
      cases directory
  · intro room path isAbove
    rcases List.prefix_or_prefix_of_prefix isAbove
        (List.prefix_append inside _) with outer | inner
    · exact site.unblocked path outer
    · obtain ⟨above, rfl⟩ := inner
      rw [List.prefix_append_right_inj] at isAbove
      by_cases atRoot : above = []
      · rw [atRoot, List.append_nil]
        exact site.unblocked inside List.prefix_rfl
      · rw [isLeft above atRoot]
        cases found : left above with
        | none => exact Or.inl rfl
        | some entry =>
            cases entry with
            | directory => exact Or.inr rfl
            | file content =>
                exact absurd found (room above content atRoot isAbove)

end Unpacking

end Calls

end DripStone.Reinforce
