import DripStone.Unzip.OnZip

/-!
# What the writer puts

The entries of a tree are its files and its empty directories, each once, and
every path of the tree leads to one of them.
-/

namespace DripStone.Unzip

open DripStone.Library

/-- What an entry stands for. -/
def ZipEntry.entry (zipEntry : ZipEntry) : Entry Bytes :=
  if zipEntry.isDirectory then .directory else .file zipEntry.content

/-! ## Entry names -/

theorem getLast?_textOf {initial : List Name} {last : Name}
    (plain : Plain last) :
    (textOf (initial ++ [last])).getLast? = last.getLast? := by
  have nonempty : last ≠ [] := plain.1
  by_cases first : initial = []
  · subst first
    simp [textOf, List.intercalate]
  · rw [textOf_append first]
    have split : textOf initial ++ '/' :: last =
        (textOf initial ++ ['/']) ++ last := by simp
    rw [split, List.getLast?_append_of_ne_nil _ nonempty]

/-- The name of a file's entry does not end in a separator. -/
theorem entry_file {names : List Name} (named : names ≠ [])
    (plain : ∀ name ∈ names, Plain name) (content : Bytes) :
    ZipEntry.entry ⟨textOf names, content⟩ = .file content := by
  have noDirectory :
      ZipEntry.isDirectory ⟨textOf names, content⟩ = false := by
    obtain ⟨initial, last, rfl⟩ :
        ∃ initial last, names = initial ++ [last] :=
      ⟨_, _, (List.dropLast_append_getLast named).symm⟩
    have plainLast : Plain last := plain last (by simp)
    apply decide_eq_false
    rw [getLast?_textOf plainLast]
    intro ends
    exact plainLast.2.1 (List.mem_of_getLast? ends)
  rw [ZipEntry.entry, noDirectory]
  rfl

theorem entry_directory (text : Text) :
    ZipEntry.entry ⟨text ++ ['/'], []⟩ = .directory := by
  have directory : ZipEntry.isDirectory ⟨text ++ ['/'], []⟩ = true := by
    simp [ZipEntry.isDirectory]
  rw [ZipEntry.entry, directory]
  rfl

/-! ## The entries below a path -/

/-- The entries are those of the tree at `names`, below a directory. -/
structure Lists (files : FileSystem Bytes) (folder : Path)
    (names : List Name) (zipEntries : List ZipEntry) : Prop where
  sound : ∀ zipEntry ∈ zipEntries, ∃ more,
    namesOf zipEntry.name = names ++ more ∧
      files.find (folder ++ (names ++ more)) = some zipEntry.entry
  complete : ∀ more, files.find (folder ++ (names ++ more)) ≠ none →
    ∃ zipEntry ∈ zipEntries, names ++ more <+: namesOf zipEntry.name
  nodup : (zipEntries.map ZipEntry.name).Nodup

section Writer

variable {workingDirectory : Path} {files : FileSystem Bytes}
variable {folder : Path} {names : List Name}

theorem plain_of_find (exists_ : files.find (folder ++ names) ≠ none) :
    ∀ name ∈ names, Plain name := by
  intro name inNames
  exact files.plain _ exists_ name (List.mem_append_right folder inNames)

theorem lists_file (named : names ≠ []) {content : Bytes}
    (found : files.find (folder ++ names) = some (.file content)) :
    Lists files folder names [⟨textOf names, content⟩] where
  sound := by
    have plain := plain_of_find (by rw [found]; simp)
    intro zipEntry inEntries
    rw [List.mem_singleton] at inEntries
    refine ⟨[], ?_, ?_⟩
    · rw [inEntries, List.append_nil]
      exact namesOf_textOf plain
    · rw [inEntries, entry_file named plain, List.append_nil, found]
  complete := by
    have plain := plain_of_find (by rw [found]; simp)
    intro more exists_
    have nothingMore : more = [] := by
      by_contra below
      rw [← List.append_assoc] at exists_
      apply exists_
      apply files.find_eq_none_of_append _ below
      simp [found]
    refine ⟨_, List.mem_singleton_self _, ?_⟩
    rw [nothingMore, List.append_nil]
    exact (namesOf_textOf plain).symm ▸ List.prefix_rfl
  nodup := by simp

theorem lists_emptyDirectory
    (found : files.find (folder ++ names) = some .directory)
    (empty : files.list (folder ++ names) = []) :
    Lists files folder names [⟨textOf names ++ ['/'], []⟩] where
  sound := by
    have plain := plain_of_find (by rw [found]; simp)
    intro zipEntry inEntries
    rw [List.mem_singleton] at inEntries
    refine ⟨[], ?_, ?_⟩
    · rw [inEntries, List.append_nil, namesOf_append_slash,
        namesOf_textOf plain]
      simp
    · rw [inEntries, entry_directory, List.append_nil, found]
  complete := by
    have plain := plain_of_find (by rw [found]; simp)
    intro more exists_
    have nothingMore : more = [] := by
      cases more with
      | nil => rfl
      | cons name rest =>
          rw [← List.append_assoc] at exists_
          have child := files.find_next exists_
          rw [← files.mem_list_iff, empty] at child
          exact absurd child List.not_mem_nil
    refine ⟨_, List.mem_singleton_self _, ?_⟩
    rw [nothingMore, List.append_nil, namesOf_append_slash,
      namesOf_textOf plain]
    exact List.prefix_append _ _
  nodup := by simp

/-- A directory lists what its children list. -/
theorem lists_directory
    (nonempty : files.list (folder ++ names) ≠ [])
    {value : Name → List ZipEntry}
    (children : ∀ element ∈ files.list (folder ++ names),
      Lists files folder (names ++ [element]) (value element)) :
    Lists files folder names
      ((files.list (folder ++ names)).flatMap value) where
  sound := by
    intro zipEntry inEntries
    obtain ⟨element, inList, inValue⟩ := List.mem_flatMap.mp inEntries
    obtain ⟨more, isName, isEntry⟩ :=
      (children element inList).sound zipEntry inValue
    refine ⟨element :: more, ?_, ?_⟩
    · rw [isName, List.append_assoc]
      rfl
    · rw [List.append_assoc] at isEntry
      exact isEntry
  complete := by
    intro more exists_
    cases more with
    | nil =>
        obtain ⟨element, inList⟩ := List.exists_mem_of_ne_nil _ nonempty
        have child := (files.mem_list_iff _ element).mp inList
        rw [List.append_assoc] at child
        obtain ⟨zipEntry, inValue, onTheWay⟩ :=
          (children element inList).complete [] (by simpa using child)
        refine ⟨zipEntry, List.mem_flatMap.mpr ⟨element, inList, inValue⟩, ?_⟩
        rw [List.append_nil] at onTheWay ⊢
        exact (List.prefix_append names [element]).trans onTheWay
    | cons element more =>
        have child : files.find (folder ++ names ++ [element]) ≠ none := by
          rw [← List.append_assoc] at exists_
          exact files.find_next exists_
        have inList := (files.mem_list_iff _ element).mpr child
        have regrouped : names ++ element :: more =
            names ++ [element] ++ more := by simp
        rw [regrouped] at exists_ ⊢
        obtain ⟨zipEntry, inValue, onTheWay⟩ :=
          (children element inList).complete more exists_
        exact ⟨zipEntry, List.mem_flatMap.mpr ⟨element, inList, inValue⟩,
          onTheWay⟩
  nodup := by
    rw [List.map_flatMap, List.nodup_flatMap]
    constructor
    · intro element inList
      exact (children element inList).nodup
    · -- the names below different children differ behind `names`
      apply (files.nodup_list _).pairwise_of_forall_ne
      intro first inFirst second inSecond different name inOne inOther
      obtain ⟨one, oneIn, rfl⟩ := List.mem_map.mp inOne
      obtain ⟨other, otherIn, same⟩ := List.mem_map.mp inOther
      obtain ⟨more, oneNames, _⟩ := (children first inFirst).sound one oneIn
      obtain ⟨rest, otherNames, _⟩ :=
        (children second inSecond).sound other otherIn
      rw [same, oneNames, List.append_assoc, List.append_assoc] at otherNames
      have heads := List.append_cancel_left otherNames
      simp only [List.singleton_append, List.cons.injEq] at heads
      exact different heads.1

/-! ## The writer -/

/-- Enough depth gives the entries of the tree. -/
theorem onZipFiles_lists {folderString : Text}
    (isFolder : ∀ text, File.ofText (folderString ++ text) =
      ⟨true, folder ++ namesOf text⟩)
    (depth : Nat) (named : names ≠ [])
    (exists_ : files.find (folder ++ names) ≠ none)
    (enough : files.height < (folder ++ names).length + depth) :
    ∃ zipEntries,
      onZipFiles workingDirectory files depth folderString (textOf names) =
        .ok zipEntries ∧
      Lists files folder names zipEntries := by
  induction depth generalizing names with
  | zero =>
      have tooLong := FileSystem.length_le_height exists_
      omega
  | succ depth inductionHypothesis =>
      have plain := plain_of_find exists_
      have found : place workingDirectory
          (File.ofText (folderString ++ textOf names)) files =
            some (folder ++ names) := by
        rw [isFolder, namesOf_textOf plain]
        exact FileSystem.resolve_of_find exists_
      rw [onZipFiles]
      simp only [found]
      cases entry : files.find (folder ++ names) with
      | none => exact absurd entry exists_
      | some kind =>
          cases kind with
          | file content =>
              refine ⟨_, rfl, ?_⟩
              rw [copied_eq (by omega)]
              exact lists_file named entry
          | directory =>
              have below : ∀ element ∈ files.list (folder ++ names),
                  ∃ zipEntries,
                    onZipFiles workingDirectory files depth folderString
                        (textOf (names ++ [element])) = .ok zipEntries ∧
                      Lists files folder (names ++ [element])
                        zipEntries := by
                intro element inList
                have child := (files.mem_list_iff _ element).mp inList
                rw [List.append_assoc] at child
                apply inductionHypothesis _ child
                · simp only [List.length_append, List.length_cons,
                    List.length_nil] at enough ⊢
                  omega
                · simp
              choose! value written lists using below
              have children :
                  ((files.list (folder ++ names)).mapM fun element =>
                    onZipFiles workingDirectory files depth folderString
                      (textOf names ++ '/' :: element)) =
                    .ok ((files.list (folder ++ names)).map value) := by
                apply mapM_eq_ok_map
                intro element inList
                rw [← textOf_append named]
                exact written element inList
              simp only [children, Except.map]
              refine ⟨_, rfl, ?_⟩
              by_cases empty : files.list (folder ++ names) = []
              · simp only [empty, if_true, List.map_nil, List.flatten_nil,
                  List.append_nil]
                exact lists_emptyDirectory entry empty
              · rw [if_neg empty, List.nil_append, ← List.flatMap_def]
                exact lists_directory empty lists

end Writer

end DripStone.Unzip
