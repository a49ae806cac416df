import DripStone.Library.Paths

/-!
# File systems

A file system without links: every path that exists lies in a directory.  The
operations fail as those of an operating system do, when a directory is
missing or something else is in the way.
-/

namespace DripStone.Library

inductive Entry (Content : Type) where
  | file (content : Content)
  | directory
deriving DecidableEq, Repr

structure FileSystem (Content : Type) where
  nodes : AList (fun _ : Path => Entry Content)
  root : nodes.lookup [] = some .directory
  parents : ∀ path name, nodes.lookup (path ++ [name]) ≠ none →
    nodes.lookup path = some .directory
  plain : ∀ path, nodes.lookup path ≠ none → ∀ name ∈ path, Plain name

namespace FileSystem

variable {Content : Type}

def find (files : FileSystem Content) (path : Path) :
    Option (Entry Content) :=
  files.nodes.lookup path

@[simp]
theorem find_root (files : FileSystem Content) :
    files.find [] = some .directory :=
  files.root

/-- The directory of an existing path exists. -/
theorem find_of_append (files : FileSystem Content) {path rest : Path}
    (exists_ : files.find (path ++ rest) ≠ none) (more : rest ≠ []) :
    files.find path = some .directory := by
  induction rest using List.reverseRecOn with
  | nil => exact absurd rfl more
  | append_singleton rest name inductionHypothesis =>
      have above : files.find (path ++ rest) = some .directory := by
        apply files.parents (path ++ rest) name
        rwa [List.append_assoc]
      cases rest with
      | nil => simpa using above
      | cons first rest =>
          apply inductionHypothesis
          · simp [above]
          · exact List.cons_ne_nil first rest

theorem directory_of_append (files : FileSystem Content) {path rest : Path}
    (directory : files.find (path ++ rest) = some .directory) :
    files.find path = some .directory := by
  by_cases last : rest = []
  · rwa [last, List.append_nil] at directory
  · have exists_ : files.find (path ++ rest) ≠ none := by simp [directory]
    exact files.find_of_append exists_ last

/-- On the way to an existing path the next one exists. -/
theorem find_next (files : FileSystem Content) {path rest : Path}
    {name : Name} (exists_ : files.find (path ++ name :: rest) ≠ none) :
    files.find (path ++ [name]) ≠ none := by
  have regrouped : path ++ name :: rest = path ++ [name] ++ rest := by simp
  rw [regrouped] at exists_
  by_cases last : rest = []
  · rwa [last, List.append_nil] at exists_
  · rw [files.find_of_append exists_ last]
    simp

/-- Below a path that is no directory nothing exists. -/
theorem find_eq_none_of_append (files : FileSystem Content)
    {path rest : Path} (noDirectory : files.find path ≠ some .directory)
    (more : rest ≠ []) : files.find (path ++ rest) = none := by
  by_contra exists_
  exact noDirectory (files.find_of_append exists_ more)

/-- The root directory alone. -/
def empty : FileSystem Content where
  nodes := AList.singleton [] .directory
  root := rfl
  parents := by
    intro path name exists_
    have absent : path ++ [name] ∉
        AList.singleton (β := fun _ => Entry Content) [] .directory := by
      simp [AList.mem_keys]
    exact absurd (AList.lookup_eq_none.mpr absent) exists_
  plain := by
    intro path exists_ name inPath
    have present : path ∈
        AList.singleton (β := fun _ => Entry Content) [] .directory := by
      by_contra absent
      exact exists_ (AList.lookup_eq_none.mpr absent)
    have isRoot : path = [] := by
      simpa [AList.mem_keys] using present
    rw [isRoot] at inPath
    exact absurd inPath List.not_mem_nil

/-! ## Writing one entry -/

/-- A path at which a file can be written or a directory made. -/
def Open (files : FileSystem Content) (path : Path) : Prop :=
  path ≠ [] ∧ files.find path.dropLast = some .directory ∧
    (∀ name ∈ path.getLast?, Plain name) ∧
    files.find path ≠ some .directory

instance [DecidableEq Content] (files : FileSystem Content) (path : Path) :
    Decidable (files.Open path) :=
  inferInstanceAs (Decidable (_ ∧ _ ∧ _ ∧ _))

/-- The file system with an entry put at an open path. -/
def put (files : FileSystem Content) (path : Path)
    (entry : Entry Content) (isOpen : files.Open path) :
    FileSystem Content where
  nodes := files.nodes.insert path entry
  root := by
    rw [AList.lookup_insert_ne isOpen.1.symm]
    exact files.root
  parents := by
    intro above name exists_
    have aboveDirectory : files.find above = some .directory := by
      by_cases here : above ++ [name] = path
      · have directory := isOpen.2.1
        rwa [← here, List.dropLast_concat] at directory
      · rw [AList.lookup_insert_ne here] at exists_
        exact files.parents above name exists_
    have different : above ≠ path := by
      rintro rfl
      exact isOpen.2.2.2 aboveDirectory
    rw [AList.lookup_insert_ne different]
    exact aboveDirectory
  plain := by
    intro other exists_ name inOther
    by_cases here : other = path
    · subst here
      obtain ⟨below, directory, plain, _⟩ := isOpen
      rw [← List.dropLast_append_getLast below] at inOther
      rcases List.mem_append.mp inOther with above | last
      · apply files.plain other.dropLast _ name above
        have found : files.nodes.lookup other.dropLast =
          some .directory := directory
        simp [found]
      · rw [List.mem_singleton] at last
        apply plain
        rw [last, List.getLast?_eq_some_getLast below]
        rfl
    · rw [AList.lookup_insert_ne here] at exists_
      exact files.plain other exists_ name inOther

@[simp]
theorem find_put (files : FileSystem Content) (path : Path)
    (entry : Entry Content) (isOpen : files.Open path) (other : Path) :
    (files.put path entry isOpen).find other =
      if other = path then some entry else files.find other := by
  by_cases same : other = path
  · subst same
    rw [if_pos rfl]
    exact AList.lookup_insert files.nodes
  · rw [if_neg same]
    exact AList.lookup_insert_ne same

variable [DecidableEq Content]

/-- `mkdir`. -/
def mkdir (files : FileSystem Content) (path : Path) : FileSystem Content :=
  if isOpen : files.Open path ∧ files.find path = none then
    files.put path .directory isOpen.1
  else files

/-- `mkdirs`: the directories of a path, from the root down. -/
def mkdirs (files : FileSystem Content) (path : Path) : FileSystem Content :=
  path.inits.foldl mkdir files

/-- A file opened for writing and written; `none` when it cannot be
opened. -/
def write (files : FileSystem Content) (path : Path) (content : Content) :
    Option (FileSystem Content) :=
  if isOpen : files.Open path then
    some (files.put path (.file content) isOpen)
  else none

theorem find_mkdir_cases (files : FileSystem Content) (path other : Path) :
    (files.mkdir path).find other = files.find other ∨
      other = path ∧ files.find path = none ∧
        (files.mkdir path).find path = some .directory := by
  unfold mkdir
  by_cases isOpen : files.Open path ∧ files.find path = none
  · rw [dif_pos isOpen]
    by_cases same : other = path
    · exact Or.inr ⟨same, isOpen.2, by simp⟩
    · exact Or.inl (by simp [same])
  · rw [dif_neg isOpen]
    exact Or.inl rfl

@[simp]
theorem mkdirs_root (files : FileSystem Content) :
    files.mkdirs [] = files := by
  have closed : ¬ (files.Open [] ∧ files.find [] = none) :=
    fun isOpen => isOpen.1.1 rfl
  show files.mkdir [] = files
  rw [mkdir, dif_neg closed]

theorem mkdirs_concat (files : FileSystem Content) (path : Path)
    (name : Name) :
    files.mkdirs (path ++ [name]) =
      (files.mkdirs path).mkdir (path ++ [name]) := by
  simp [mkdirs, List.inits_append]

/-- `mkdirs` makes directories on the way to its path and nothing else. -/
theorem find_mkdirs_cases (files : FileSystem Content) (path other : Path) :
    (files.mkdirs path).find other = files.find other ∨
      other <+: path ∧ files.find other = none ∧
        (files.mkdirs path).find other = some .directory := by
  induction path using List.reverseRecOn with
  | nil => exact Or.inl (by rw [mkdirs_root])
  | append_singleton path name inductionHypothesis =>
      rw [mkdirs_concat]
      rcases find_mkdir_cases (files.mkdirs path) (path ++ [name]) other with
        same | ⟨rfl, wasNone, made⟩
      · rw [same]
        rcases inductionHypothesis with kept | ⟨above, wasNone, made⟩
        · exact Or.inl kept
        · exact Or.inr
            ⟨above.trans (List.prefix_append path [name]), wasNone, made⟩
      · have before : files.find (path ++ [name]) = none := by
          rcases inductionHypothesis with kept | ⟨_, wasNone, _⟩
          · rw [← kept]
            exact wasNone
          · exact wasNone
        exact Or.inr ⟨List.prefix_rfl, before, made⟩

/-- No file stands on the way to a path. -/
def Unblocked (files : FileSystem Content) (path : Path) : Prop :=
  ∀ above, above <+: path → files.find above = none ∨
    files.find above = some .directory

theorem find_mkdirs {files : FileSystem Content} {path : Path}
    (plain : ∀ name ∈ path, Plain name) (unblocked : files.Unblocked path)
    (other : Path) :
    (files.mkdirs path).find other =
      if other <+: path then some .directory else files.find other := by
  induction path using List.reverseRecOn generalizing other with
  | nil =>
      rw [mkdirs_root]
      by_cases root : other = []
      · simp [root]
      · simp [root]
  | append_singleton path name inductionHypothesis =>
      have before := inductionHypothesis
        (fun name inPath => plain name (List.mem_append_left _ inPath))
        (fun above isAbove => unblocked above
          (isAbove.trans (List.prefix_append path [name])))
      have shorter : ¬ path ++ [name] <+: path := by
        intro longer
        simpa using longer.length_le
      have newest : (files.mkdirs path).find (path ++ [name]) =
          files.find (path ++ [name]) := by
        rw [before, if_neg shorter]
      rw [mkdirs_concat]
      by_cases here : other = path ++ [name]
      · subst here
        rw [if_pos List.prefix_rfl]
        rcases unblocked _ List.prefix_rfl with missing | directory
        · have isOpen : (files.mkdirs path).Open (path ++ [name]) := by
            refine ⟨by simp, ?_, ?_, ?_⟩
            · rw [List.dropLast_concat, before, if_pos List.prefix_rfl]
            · simpa using plain name (by simp)
            · simp [newest, missing]
          rw [mkdir, dif_pos ⟨isOpen, newest.trans missing⟩, find_put,
            if_pos rfl]
        · rcases find_mkdir_cases (files.mkdirs path) (path ++ [name])
            (path ++ [name]) with kept | ⟨_, _, made⟩
          · rw [kept, newest, directory]
          · exact made
      · have kept : ((files.mkdirs path).mkdir (path ++ [name])).find other =
            (files.mkdirs path).find other := by
          rcases find_mkdir_cases (files.mkdirs path) (path ++ [name])
            other with kept | ⟨same, _⟩
          · exact kept
          · exact absurd same here
        rw [kept, before]
        simp [List.prefix_concat_iff, here]

/-- The directories `mkdirs` makes. -/
def made (files : FileSystem Content) (path : Path) : List Path :=
  path.inits.filter fun above =>
    files.find above = none ∧ (files.mkdirs path).find above ≠ none

theorem prefix_of_mem_made {files : FileSystem Content} {path above : Path}
    (inMade : above ∈ files.made path) : above <+: path := by
  rw [made, List.mem_filter, List.mem_inits] at inMade
  exact inMade.1

/-! ## Writing a file -/

theorem write_eq_some_iff {files written : FileSystem Content} {path : Path}
    {content : Content} :
    files.write path content = some written ↔
      ∃ isOpen : files.Open path,
        written = files.put path (.file content) isOpen := by
  unfold write
  by_cases isOpen : files.Open path
  · simp [isOpen, eq_comm]
  · simp [isOpen]

theorem dropLast_ne {path : Path} (below : path ≠ []) :
    path.dropLast ≠ path := by
  intro same
  have lengths := congrArg List.length same
  have positive := List.length_pos_iff.mpr below
  rw [List.length_dropLast] at lengths
  omega

/-- An open path can be written, and written again. -/
theorem write_of_open {files : FileSystem Content} {path : Path}
    (isOpen : files.Open path) (content : Content) :
    ∃ written, files.write path content = some written ∧
      written.Open path ∧
      ∀ other, written.find other =
        if other = path then some (.file content) else files.find other := by
  refine ⟨files.put path (.file content) isOpen, ?_, ?_, ?_⟩
  · rw [write, dif_pos isOpen]
  · obtain ⟨below, directory, plain, _⟩ := id isOpen
    refine ⟨below, ?_, plain, ?_⟩
    · rw [find_put, if_neg (dropLast_ne below), directory]
    · rw [find_put, if_pos rfl]
      simp
  · exact find_put files path (.file content) isOpen

/-! ## The names in a directory -/

/-- `list`. -/
def list (files : FileSystem Content) (path : Path) : List Name :=
  files.nodes.keys.filterMap fun other =>
    if other ≠ [] ∧ other.dropLast = path then other.getLast? else none

omit [DecidableEq Content] in
theorem mem_list_iff (files : FileSystem Content) (path : Path)
    (name : Name) :
    name ∈ files.list path ↔ files.find (path ++ [name]) ≠ none := by
  have key : ∀ other : Path,
      other ∈ files.nodes.keys ↔ files.find other ≠ none := by
    intro other
    rw [← AList.mem_keys, ← AList.lookup_isSome, find,
      Option.isSome_iff_ne_none]
  rw [list, List.mem_filterMap]
  constructor
  · rintro ⟨other, inKeys, last⟩
    by_cases below : other ≠ [] ∧ other.dropLast = path
    · rw [if_pos below] at last
      have whole : path ++ [name] = other := by
        rw [← below.2]
        exact List.dropLast_append_getLast? name last
      rw [whole]
      exact (key other).mp inKeys
    · simp [below] at last
  · intro exists_
    refine ⟨path ++ [name], (key _).mpr exists_, ?_⟩
    simp

omit [DecidableEq Content] in
theorem nodup_list (files : FileSystem Content) (path : Path) :
    (files.list path).Nodup := by
  apply List.Nodup.filterMap _ files.nodes.keys_nodup
  intro first second name inFirst inSecond
  have whole : ∀ other : Path,
      (if other ≠ [] ∧ other.dropLast = path then other.getLast?
        else none) = some name → path ++ [name] = other := by
    intro other last
    by_cases below : other ≠ [] ∧ other.dropLast = path
    · rw [if_pos below] at last
      rw [← below.2]
      exact List.dropLast_append_getLast? name last
    · simp [below] at last
  rw [← whole first inFirst, whole second inSecond]

/-- A bound on the length of the paths that exist. -/
def height (files : FileSystem Content) : Nat :=
  (files.nodes.keys.map List.length).foldr max 0

omit [DecidableEq Content] in
theorem length_le_height {files : FileSystem Content} {path : Path}
    (exists_ : files.find path ≠ none) : path.length ≤ files.height := by
  have inKeys : path ∈ files.nodes.keys := by
    rw [← AList.mem_keys, ← AList.lookup_isSome, Option.isSome_iff_ne_none]
    exact exists_
  unfold height
  revert inKeys
  generalize files.nodes.keys = keys
  intro inKeys
  induction keys with
  | nil => exact absurd inKeys List.not_mem_nil
  | cons first rest inductionHypothesis =>
      rw [List.map_cons, List.foldr_cons]
      rcases List.mem_cons.mp inKeys with same | inRest
      · rw [same]
        exact le_max_left _ _
      · exact (inductionHypothesis inRest).trans (le_max_right _ _)

/-! ## Deleting -/

/-- A file or an empty directory, below the root. -/
def Deletable (files : FileSystem Content) (path : Path) : Prop :=
  path ≠ [] ∧ files.list path = []

instance (files : FileSystem Content) (path : Path) :
    Decidable (files.Deletable path) :=
  inferInstanceAs (Decidable (_ ∧ _))

def remove (files : FileSystem Content) (path : Path)
    (deletable : files.Deletable path) : FileSystem Content where
  nodes := files.nodes.erase path
  root := by
    rw [AList.lookup_erase_ne deletable.1.symm]
    exact files.root
  parents := by
    intro above name exists_
    by_cases here : above ++ [name] = path
    · rw [here, AList.lookup_erase] at exists_
      exact absurd rfl exists_
    · rw [AList.lookup_erase_ne here] at exists_
      have different : above ≠ path := by
        rintro rfl
        have listed := (files.mem_list_iff above name).mpr exists_
        rw [deletable.2] at listed
        exact absurd listed List.not_mem_nil
      rw [AList.lookup_erase_ne different]
      exact files.parents above name exists_
  plain := by
    intro other exists_
    apply files.plain other
    by_cases here : other = path
    · rw [here, AList.lookup_erase] at exists_
      exact absurd rfl exists_
    · rwa [AList.lookup_erase_ne here] at exists_

/-- `delete`. -/
def delete (files : FileSystem Content) (path : Path) :
    FileSystem Content :=
  if deletable : files.Deletable path then files.remove path deletable
  else files

omit [DecidableEq Content] in
theorem find_delete (files : FileSystem Content) (path other : Path) :
    (files.delete path).find other =
      if files.Deletable path ∧ other = path then none
      else files.find other := by
  unfold delete
  by_cases deletable : files.Deletable path
  · rw [dif_pos deletable]
    by_cases same : other = path
    · subst same
      rw [if_pos ⟨deletable, rfl⟩]
      exact AList.lookup_erase other files.nodes
    · rw [if_neg fun both => same both.2]
      exact AList.lookup_erase_ne same
  · rw [dif_neg deletable, if_neg fun both => deletable both.1]

omit [DecidableEq Content] in
theorem deletable_of_file {files : FileSystem Content} {path : Path}
    {content : Content}
    (isFile : files.find path = some (.file content)) :
    files.Deletable path := by
  constructor
  · rintro rfl
    rw [find_root] at isFile
    cases isFile
  · rw [List.eq_nil_iff_forall_not_mem]
    intro name inList
    rw [mem_list_iff] at inList
    have directory := files.find_of_append inList (List.cons_ne_nil _ _)
    rw [isFile] at directory
    cases directory

/-! ## Renaming a file -/

/-- `renameTo` for a file.  It depends on the platform whether a file in its
way is replaced. -/
def renameFile (replaces : Bool) (files : FileSystem Content)
    (path target : Path) : FileSystem Content :=
  match files.find path with
  | some (.file content) =>
      if isOpen : files.Open target ∧
          (replaces = true ∨ files.find target = none) then
        if path = target then files
        else (files.put target (.file content) isOpen.1).delete path
      else files
  | _ => files

theorem find_renameFile {replaces : Bool} {files : FileSystem Content}
    {path target : Path} {content : Content}
    (isFile : files.find path = some (.file content))
    (isOpen : files.Open target)
    (free : replaces = true ∨ files.find target = none) (other : Path) :
    (files.renameFile replaces path target).find other =
      if other = target then some (.file content)
      else if other = path then none else files.find other := by
  simp only [renameFile, isFile, dif_pos (And.intro isOpen free)]
  by_cases same : path = target
  · rw [if_pos same]
    by_cases here : other = target
    · rw [if_pos here, here, ← same, isFile]
    · rw [if_neg here, if_neg fun there => here (there.trans same)]
  · have moved : (files.put target (.file content) isOpen).find path =
        some (.file content) := by
      rw [find_put, if_neg same, isFile]
    rw [if_neg same, find_delete, find_put]
    by_cases here : other = target
    · rw [if_neg fun both => same (both.2.symm.trans here), if_pos here,
        if_pos here]
    · rw [if_neg here, if_neg here]
      by_cases gone : other = path
      · rw [if_pos ⟨deletable_of_file moved, gone⟩, if_pos gone]
      · rw [if_neg fun both => gone both.2, if_neg gone]

theorem renameFile_of_closed {replaces : Bool} {files : FileSystem Content}
    {path target : Path}
    (closed : ¬(files.Open target ∧
      (replaces = true ∨ files.find target = none))) :
    files.renameFile replaces path target = files := by
  rw [renameFile]
  split
  · rw [dif_neg closed]
  · rfl

/-! ## Resolving a path -/

/-- The place the names lead to, when all but the last lead through
directories. -/
def resolve (files : FileSystem Content) : Path → List Name → Option Path
  | here, [] => some here
  | here, name :: rest =>
      if files.find here = some .directory then
        files.resolve (enter here name) rest
      else none

theorem resolve_append (files : FileSystem Content) (here : Path)
    (names others : List Name) :
    files.resolve here (names ++ others) =
      (files.resolve here names).bind fun place =>
        files.resolve place others := by
  induction names generalizing here with
  | nil => rfl
  | cons name rest inductionHypothesis =>
      rw [List.cons_append, resolve, resolve]
      by_cases directory : files.find here = some .directory
      · rw [if_pos directory, if_pos directory, inductionHypothesis]
      · rw [if_neg directory, if_neg directory]
        rfl

/-- A plain name in a directory leads to the path below it. -/
theorem resolve_child {files : FileSystem Content} {here place : Path}
    {names : List Name} {name : Name}
    (resolved : files.resolve here names = some place)
    (directory : files.find place = some .directory) (plain : Plain name) :
    files.resolve here (names ++ [name]) = some (place ++ [name]) := by
  rw [resolve_append, resolved, Option.bind_some, resolve,
    if_pos directory, plain.enter, resolve]

/-- More directories lead to the same place. -/
theorem resolve_of_keeps {files others : FileSystem Content}
    (keeps : ∀ path, files.find path = some .directory →
      others.find path = some .directory)
    {here place : Path} {names : List Name}
    (resolved : files.resolve here names = some place) :
    others.resolve here names = some place := by
  induction names generalizing here with
  | nil => exact resolved
  | cons name rest inductionHypothesis =>
      rw [resolve] at resolved ⊢
      by_cases directory : files.find here = some .directory
      · rw [if_pos directory] at resolved
        rw [if_pos (keeps here directory)]
        exact inductionHypothesis resolved
      · rw [if_neg directory] at resolved
        exact absurd resolved (by simp)

/-- A path that exists is found by its names. -/
theorem resolve_of_find {files : FileSystem Content} {here : Path}
    {names : List Name} (exists_ : files.find (here ++ names) ≠ none) :
    files.resolve here names = some (here ++ names) := by
  induction names generalizing here with
  | nil => simp [resolve]
  | cons name rest inductionHypothesis =>
      have directory : files.find here = some .directory :=
        files.find_of_append exists_ (List.cons_ne_nil name rest)
      have plain : Plain name :=
        files.plain (here ++ name :: rest) exists_ name (by simp)
      rw [resolve, if_pos directory, plain.enter]
      have regrouped : here ++ name :: rest = here ++ [name] ++ rest := by
        simp
      rw [regrouped] at exists_ ⊢
      exact inductionHypothesis exists_

/-- A plain name in a directory is found, whether it exists or not. -/
theorem resolve_concat {files : FileSystem Content} {here : Path}
    {names : List Name} {last : Name}
    (directory : files.find (here ++ names) = some .directory)
    (plain : Plain last) :
    files.resolve here (names ++ [last]) =
      some (here ++ (names ++ [last])) := by
  have found := @resolve_of_find _ _ files here names
    (by simp [directory])
  rw [resolve_child found directory plain, List.append_assoc]

/-- All but the last name lead through directories. -/
theorem find_of_resolve_concat {files : FileSystem Content}
    {here place : Path} {names : List Name} {last : Name}
    (resolved : files.resolve here (names ++ [last]) = some place) :
    files.find (normalize here names) = some .directory := by
  induction names generalizing here with
  | nil =>
      rw [List.nil_append, resolve] at resolved
      by_contra noDirectory
      rw [normalize_nil] at noDirectory
      rw [if_neg noDirectory] at resolved
      exact absurd resolved (by simp)
  | cons name rest inductionHypothesis =>
      rw [List.cons_append, resolve] at resolved
      by_cases directory : files.find here = some .directory
      · rw [if_pos directory] at resolved
        exact inductionHypothesis resolved
      · rw [if_neg directory] at resolved
        exact absurd resolved (by simp)

theorem normalize_of_resolve {files : FileSystem Content} {here place : Path}
    {names : List Name} (resolved : files.resolve here names = some place) :
    normalize here names = place := by
  induction names generalizing here with
  | nil => simpa [resolve] using resolved
  | cons name rest inductionHypothesis =>
      rw [resolve] at resolved
      by_cases directory : files.find here = some .directory
      · rw [if_pos directory] at resolved
        exact inductionHypothesis resolved
      · rw [if_neg directory] at resolved
        exact absurd resolved (by simp)

end FileSystem

end DripStone.Library
