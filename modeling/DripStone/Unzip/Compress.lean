import DripStone.Unzip.Listing

/-!
# `Zip.zip`

The writer of the reinforcement goes down a directory.  A file is an entry
named by what follows the first separator of the path text it is reached by;
an empty directory is one named by that whole text.
-/

namespace DripStone.Unzip

open DripStone.Library

/-! ## Entry names -/

/-- `split("/")`; empty texts at the end are left out. -/
def split (text : Text) : List Text :=
  if '/' ∈ text then (text.splitOn '/').rdropWhile (· = []) else [text]

/-- The name that `compressFile` makes of `dirName`. -/
def entryName (dirName : Text) : Text :=
  let dirNameNew := split dirName
  let buffer :=
    if 1 < dirNameNew.length then
      (dirNameNew.drop 1).flatMap fun name => '/' :: name
    else ['/']
  buffer.drop 1

/-! ## The writer -/

section Writer

variable (workingDirectory : Path) (files : FileSystem Bytes)

/-- `compress`, with `compressDir` and `compressFile`: the entries put for a
file; the first argument bounds the depth of the recursion. -/
def compress : Nat → File → Text → Except Failure (List ZipEntry)
  | 0, _, _ => .error .stackOverflowError
  | depth + 1, srcFile, basePath =>
      match place workingDirectory srcFile files with
      | none => .error .fileNotFoundException
      | some path =>
          match files.find path with
          | none => .error .fileNotFoundException
          | some (.file content) =>
              .ok [⟨entryName (basePath ++ srcFile.getName),
                copied 1024 content⟩]
          | some .directory =>
              let inner := basePath ++ srcFile.getName ++ ['/']
              let listed := files.list path
              let own : List ZipEntry :=
                if listed = [] then [⟨inner, []⟩] else []
              (listed.mapM fun name =>
                compress depth (srcFile.child name) inner).map
                fun below => own ++ below.flatten

end Writer

/-- `zip`.  The archive is open, and empty, while the tree is read. -/
def zip (streams : ZipStreams) (workingDirectory : Path) (dir zip : File)
    (files : FileSystem Bytes) : Except Failure (FileSystem Bytes) := do
  let opened ← writeArchive workingDirectory
    (deleteDir workingDirectory zip files) zip []
  let zipEntries ← compress workingDirectory opened (opened.height + 1) dir []
  let bytes ← zipOutputStream streams zipEntries
  writeArchive workingDirectory opened zip bytes

/-! ## The name of a file -/

theorem flatMap_slash (first : Name) (rest : List Name) :
    (first :: rest).flatMap (fun name => '/' :: name) =
      '/' :: textOf (first :: rest) := by
  induction rest generalizing first with
  | nil => simp [textOf, List.intercalate]
  | cons second rest inductionHypothesis =>
      rw [List.flatMap_cons, inductionHypothesis, textOf_cons_cons]
      rfl

theorem split_textOf {root first : Name} {rest : List Name}
    (noSlash : ∀ name ∈ root :: first :: rest, '/' ∉ name)
    (plainLast : ∀ last ∈ (first :: rest).getLast?, last ≠ []) :
    split (textOf (root :: first :: rest)) = root :: first :: rest := by
  have separated : '/' ∈ textOf (root :: first :: rest) := by
    rw [textOf_cons_cons]
    simp
  have parts : (textOf (root :: first :: rest)).splitOn '/' =
      root :: first :: rest :=
    List.splitOn_intercalate '/' noSlash (List.cons_ne_nil _ _)
  rw [split, if_pos separated, parts, List.rdropWhile_eq_self_iff]
  intro nonempty
  simp only [decide_eq_true_eq]
  apply plainLast
  rw [List.getLast_cons (List.cons_ne_nil first rest)]
  exact List.getLast_mem_getLast? _

/-- Spec lemma: the first name is left out. -/
theorem entryName_textOf {root : Name} {names : List Name}
    (noSlash : '/' ∉ root) (named : names ≠ [])
    (plain : ∀ name ∈ names, Plain name) :
    entryName (textOf (root :: names)) = textOf names := by
  cases names with
  | nil => exact absurd rfl named
  | cons first rest =>
      have noSlashes : ∀ name ∈ root :: first :: rest, '/' ∉ name := by
        intro name inNames
        rcases List.mem_cons.mp inNames with rfl | below
        · exact noSlash
        · exact (plain name below).2.1
      have parts := split_textOf noSlashes fun last isLast =>
        (plain last (List.mem_of_getLast? isLast)).1
      rw [entryName, parts]
      simp only [List.length_cons, List.drop_one, List.tail_cons,
        flatMap_slash]
      rw [if_pos (by omega)]
      rfl

/-! ## The leaves of a tree -/

/-- A file, or an empty directory. -/
def IsLeaf (files : FileSystem Bytes) (path : Path) : Prop :=
  (∃ content, files.find path = some (.file content)) ∨
    files.find path = some .directory ∧ files.list path = []

/-- The leaves at and below `names`, each once. -/
structure Leaves (files : FileSystem Bytes) (dirPath : Path)
    (names : List Name) (leaves : List (List Name)) : Prop where
  mem_iff : ∀ other, other ∈ leaves ↔
    names <+: other ∧ IsLeaf files (dirPath ++ other)
  nodup : leaves.Nodup

section Leaves

variable {files : FileSystem Bytes} {dirPath : Path} {names : List Name}

theorem IsLeaf.nothing_below {path rest : Path}
    (leaf : IsLeaf files path) (more : rest ≠ []) :
    files.find (path ++ rest) = none := by
  by_contra exists_
  rcases leaf with ⟨content, isFile⟩ | ⟨_, empty⟩
  · have directory := files.find_of_append exists_ more
    rw [isFile] at directory
    cases directory
  · cases rest with
    | nil => exact more rfl
    | cons name rest =>
        have listed :=
          (files.mem_list_iff path name).mpr (files.find_next exists_)
        rw [empty] at listed
        exact absurd listed List.not_mem_nil

theorem IsLeaf.exists_ {path : Path} (leaf : IsLeaf files path) :
    files.find path ≠ none := by
  rcases leaf with ⟨content, isFile⟩ | ⟨directory, _⟩
  · simp [isFile]
  · simp [directory]

theorem Leaves.of_enumerates {leaves : List (List Name)}
    (enumerates : Enumerates (fun other => IsLeaf files (dirPath ++ other))
      names leaves) : Leaves files dirPath names leaves :=
  ⟨enumerates.mem_iff, enumerates.nodup⟩

theorem leaves_singleton (leaf : IsLeaf files (dirPath ++ names)) :
    Leaves files dirPath names [names] := by
  refine .of_enumerates (enumerates_singleton leaf fun rest more isLeaf => ?_)
  rw [← List.append_assoc] at isLeaf
  exact isLeaf.exists_ (leaf.nothing_below more)

/-- A directory has the leaves of what it lists. -/
theorem leaves_directory
    (nonempty : files.list (dirPath ++ names) ≠ [])
    (isDirectory : files.find (dirPath ++ names) = some .directory)
    {leaves : Name → List (List Name)}
    (children : ∀ name ∈ files.list (dirPath ++ names),
      Leaves files dirPath (names ++ [name]) (leaves name)) :
    Leaves files dirPath names
      ((files.list (dirPath ++ names)).flatMap leaves) := by
  have notHere : ¬IsLeaf files (dirPath ++ names) := by
    rintro (⟨content, isFile⟩ | ⟨_, empty⟩)
    · rw [isDirectory] at isFile
      cases isFile
    · exact nonempty empty
  refine .of_enumerates (enumerates_flatMap (files.nodup_list _) notHere
    (fun name rest leaf => ?_) fun name listed => ?_)
  · have found := leaf.exists_
    rw [← List.append_assoc] at found
    exact (files.mem_list_iff _ name).mpr (files.find_next found)
  · exact ⟨(children name listed).mem_iff, (children name listed).nodup⟩

end Leaves

/-! ## What the writer puts -/

/-- The entry put for a leaf of the tree named `root`. -/
def entryAt (files : FileSystem Bytes) (dirPath : Path) (root : Name)
    (names : List Name) : ZipEntry :=
  match files.find (dirPath ++ names) with
  | some (.file content) => ⟨textOf names, content⟩
  | _ => ⟨textOf (root :: names) ++ ['/'], []⟩

section Entries

variable {workingDirectory : Path} {files : FileSystem Bytes}
variable {dirPath : Path} {root : Name}

theorem place_child {file : File} {path : Path} {name : Name}
    (isPlace : place workingDirectory file files = some path)
    (isDirectory : files.find path = some .directory) (plain : Plain name) :
    place workingDirectory (file.child name) files =
      some (path ++ [name]) := by
  rw [place, File.names_child plain]
  exact FileSystem.resolve_child isPlace isDirectory plain

theorem getName_child {file : File} {name : Name} (plain : Plain name) :
    (file.child name).getName = name := by
  rw [File.getName, File.names_child plain]
  simp

/-- Spec lemma: enough depth gives the entries of the leaves. -/
theorem compress_leaves (noSlash : '/' ∉ root) (depth : Nat)
    {srcFile : File} {basePath : Text} {names : List Name}
    (isPlace : place workingDirectory srcFile files = some (dirPath ++ names))
    (isName : basePath ++ srcFile.getName = textOf (root :: names))
    (exists_ : files.find (dirPath ++ names) ≠ none)
    (isTree : names = [] → files.find dirPath = some .directory)
    (enough : files.height < (dirPath ++ names).length + depth) :
    ∃ leaves,
      compress workingDirectory files depth srcFile basePath =
        .ok (leaves.map (entryAt files dirPath root)) ∧
      Leaves files dirPath names leaves := by
  induction depth generalizing srcFile basePath names with
  | zero =>
      have tooLong := FileSystem.length_le_height exists_
      omega
  | succ depth inductionHypothesis =>
      have plain : ∀ name ∈ names, Plain name := fun name inNames =>
        files.plain _ exists_ name (List.mem_append_right dirPath inNames)
      rw [compress]
      simp only [isPlace]
      cases entry : files.find (dirPath ++ names) with
      | none => exact absurd entry exists_
      | some kind =>
          cases kind with
          | file content =>
              have named : names ≠ [] := by
                rintro rfl
                rw [List.append_nil, isTree rfl] at entry
                cases entry
              refine ⟨[names], ?_, leaves_singleton (Or.inl ⟨_, entry⟩)⟩
              simp only [List.map_cons, List.map_nil, entryAt, entry]
              rw [copied_eq (by omega), isName,
                entryName_textOf noSlash named plain]
          | directory =>
              have below : ∀ name ∈ files.list (dirPath ++ names),
                  ∃ leaves,
                    compress workingDirectory files depth
                        (srcFile.child name)
                        (basePath ++ srcFile.getName ++ ['/']) =
                      .ok (leaves.map (entryAt files dirPath root)) ∧
                    Leaves files dirPath (names ++ [name]) leaves := by
                intro name listed
                have child := (files.mem_list_iff _ name).mp listed
                have plainName : Plain name :=
                  files.plain _ child name (by simp)
                apply inductionHypothesis
                · rw [← List.append_assoc]
                  exact place_child isPlace entry plainName
                · rw [getName_child plainName, isName, List.append_assoc,
                    List.singleton_append, ← List.cons_append,
                    textOf_append (List.cons_ne_nil root names)]
                · rwa [← List.append_assoc]
                · intro isEmpty
                  simp at isEmpty
                · simp only [List.length_append, List.length_cons,
                    List.length_nil] at enough ⊢
                  omega
              choose! leaves written isLeaves using below
              have children := mapM_eq_ok_map written
              simp only [children, Except.map]
              by_cases empty : files.list (dirPath ++ names) = []
              · refine ⟨[names], ?_, leaves_singleton (Or.inr ⟨entry, empty⟩)⟩
                simp only [empty, if_true, List.map_nil, List.flatten_nil,
                  List.append_nil, List.map_cons, entryAt, entry]
                rw [isName]
              · refine ⟨_, ?_, leaves_directory empty entry isLeaves⟩
                rw [if_neg empty, List.nil_append, List.map_flatMap,
                  List.flatMap_def]

end Entries

end DripStone.Unzip
