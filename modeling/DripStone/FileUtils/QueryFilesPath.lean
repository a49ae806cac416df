import DripStone.FileUtils.OnDel
import DripStone.Library.Action
import DripStone.Library.FileTrees

/-!
# `Utils.queryFilesPath`

The files of a directory tree are added to a list.  The guard in front of the
loop asks an array for its length exactly when that array is null.
-/

namespace DripStone.FileUtils

open DripStone.Library

variable {Content : Type} [DecidableEq Content]

inductive Failure where
  | nullPointerException
  -- the recursion is cut off
  | stackOverflowError
deriving DecidableEq, Repr

/-! ## What is asked of a `java.io.File` -/

/-- The file system, how its directories are listed, and where pathnames that
are not absolute start. -/
structure Storage (Content : Type) where
  files : FileSystem Content
  listing : Listing
  workingDirectory : Path

namespace Storage

variable (storage : Storage Content)

/-- The place of a file; the empty pathname has none. -/
def locate (file : File) : Option Path :=
  if file.absolute = false ∧ file.names = [] then none
  else storage.files.resolve (file.start storage.workingDirectory) file.names

def stat (file : File) : Option (Entry Content) :=
  (storage.locate file).bind storage.files.find

def exists_ (file : File) : Bool :=
  (storage.stat file).isSome

def isDirectory (file : File) : Bool :=
  match storage.stat file with
  | some .directory => true
  | _ => false

/-- `listFiles`; `none` stands for `null`. -/
def listFiles (file : File) : Option (List File) :=
  if storage.isDirectory file then
    ((storage.locate file).bind
      (storage.listing.listFiles storage.files)).map fun names =>
        names.map file.child
  else none

end Storage

/-! ## The recursion -/

/-- `fileArray == null && fileArray.length == 0` -/
def isNullAndEmpty : Option (List File) → Except Failure Bool
  | none => .error .nullPointerException
  | some _ => .ok false

/-- `filePathList.add(file)` -/
def add (file : File) : Action Failure (List File) PUnit :=
  modify fun filePathList => filePathList ++ [file]

namespace Storage

variable (storage : Storage Content)

/-- `queryFilesPath`, with a bound on the depth of the recursion. -/
def queryFilesPathWithin : Nat → Text → Action Failure (List File) PUnit
  | 0, _ => throw .stackOverflowError
  | depth + 1, dir =>
      let dirFile := File.ofText dir
      if storage.exists_ dirFile then
        if storage.isDirectory dirFile then do
          let fileArray := storage.listFiles dirFile
          if ← Action.ofExcept (isNullAndEmpty fileArray) then
            pure PUnit.unit
          else
            match fileArray with
            | none => throw .nullPointerException
            | some files =>
                forM files fun file =>
                  if storage.isDirectory file then
                    queryFilesPathWithin depth
                      (file.getAbsolutePath storage.workingDirectory)
                  else add file
        else add dirFile
      else pure PUnit.unit

def queryFilesPath (dir : Text) : Action Failure (List File) PUnit :=
  storage.queryFilesPathWithin (storage.files.height + 1) dir

/-! ## The law -/

/-- The files at and below a place, each once. -/
def FilesOf (root : Path) (paths : List Path) : Prop :=
  Enumerates (fun path => storage.files.fileAt path ≠ none) root paths

/-- A path in the tree at `dir`; where nothing is found there is no tree. -/
def InTree (dir : Text) (path : Path) : Prop :=
  ∃ root, storage.locate (File.ofText dir) = some root ∧ root <+: path

/-- The call returns, and the files of the tree, each once, are behind what
was in the list. -/
def Collects (dir : Text) (filePathList : List File) : Prop :=
  ∃ (added : List File) (paths : List Path),
    storage.queryFilesPath dir filePathList =
      .ok PUnit.unit (filePathList ++ added) ∧
    added.map storage.locate = paths.map some ∧ paths.Nodup ∧
    ∀ path, path ∈ paths ↔
      storage.InTree dir path ∧ storage.files.fileAt path ≠ none

/-- Each directory of the tree can be listed. -/
def Listed (dir : Text) : Prop :=
  ∀ path, storage.InTree dir path →
    storage.files.find path = some .directory →
      storage.listing.readable path = true

section Places

variable {storage : Storage Content} {file : File} {path : Path}

/-- A file that is not absolute is found below a working directory that
exists. -/
theorem workingDirectory_of_locate (located : storage.locate file = some path)
    (relative : file.absolute = false) :
    storage.files.find storage.workingDirectory = some .directory := by
  obtain ⟨absolute, names⟩ := file
  cases relative
  cases names with
  | nil => simp [locate] at located
  | cons name rest =>
      by_contra missing
      have start : (File.mk false (name :: rest)).start
          storage.workingDirectory = storage.workingDirectory := rfl
      simp [locate, start, FileSystem.resolve, missing] at located

theorem resolve_of_locate (located : storage.locate file = some path) :
    storage.files.resolve (file.start storage.workingDirectory) file.names =
      some path := by
  rw [locate] at located
  split at located
  · cases located
  · exact located

/-- The absolute pathname leads to the same place. -/
theorem locate_getAbsolutePath (located : storage.locate file = some path)
    (named : Named file.names) :
    storage.locate (File.ofText
      (file.getAbsolutePath storage.workingDirectory)) = some path := by
  have resolved := resolve_of_locate located
  have onTheWay : storage.files.resolve []
      (file.start storage.workingDirectory) =
        some (file.start storage.workingDirectory) := by
    cases isAbsolute : file.absolute with
    | true => simp [File.start, isAbsolute, FileSystem.resolve]
    | false =>
        have found := workingDirectory_of_locate located isAbsolute
        rw [File.start, isAbsolute, if_neg Bool.false_ne_true]
        exact FileSystem.resolve_of_find (by simp [found])
  have namedDirectory : file.absolute = false →
      Named storage.workingDirectory := by
    intro relative name inNames
    have found := workingDirectory_of_locate located relative
    have exists_ : storage.files.find storage.workingDirectory ≠ none := by
      simp [found]
    have plain := storage.files.plain _ exists_ name inNames
    exact ⟨plain.1, plain.2.1⟩
  rw [File.ofText_getAbsolutePath namedDirectory named, locate,
    if_neg (by simp)]
  show storage.files.resolve [] _ = some path
  rw [FileSystem.resolve_append, onTheWay]
  exact resolved

theorem locate_child {name : Name} (located : storage.locate file = some path)
    (isDirectory : storage.files.find path = some .directory)
    (plain : Plain name) :
    storage.locate (file.child name) = some (path ++ [name]) := by
  have names := File.names_child plain file
  have resolved := resolve_of_locate located
  rw [locate, if_neg (by simp [names]), names]
  exact FileSystem.resolve_child resolved isDirectory plain

theorem stat_of_locate (located : storage.locate file = some path) :
    storage.stat file = storage.files.find path := by
  rw [stat, located, Option.bind_some]

end Places

/-! ## What one call does -/

/-- An action adds the files of a tree. -/
def Adds (root : Path)
    (action : Action Failure (List File) PUnit) : Prop :=
  ∃ added paths, Action.Appends action added ∧
    added.map storage.locate = paths.map some ∧ storage.FilesOf root paths

/-- What is done with a tree. -/
def Spec (root : Path)
    (action : Action Failure (List File) PUnit) : Prop :=
  (Readable storage.listing root storage.files ∧ storage.Adds root action) ∨
  (¬Readable storage.listing root storage.files ∧
    Action.Throws .nullPointerException action)

section Calls

variable {storage : Storage Content} {file : File} {root : Path}

omit [DecidableEq Content] in
theorem readable_of_not_directory
    (noDirectory : storage.files.find root ≠ some .directory) :
    Readable storage.listing root storage.files := by
  rintro path ⟨rest, rfl⟩ isDirectory
  exact absurd (storage.files.directory_of_append isDirectory) noDirectory

theorem spec_nothing (missing : storage.files.find root = none) :
    storage.Spec root (pure PUnit.unit) := by
  refine Or.inl ⟨readable_of_not_directory (by simp [missing]), [], [],
    Action.appends_pure, rfl, enumerates_nil fun rest isFile => isFile ?_⟩
  rw [FileSystem.fileAt_eq_none_iff]
  cases rest with
  | nil => exact Or.inl (by simpa using missing)
  | cons name rest =>
      exact Or.inl (storage.files.find_eq_none_of_append (by simp [missing])
        (List.cons_ne_nil name rest))

theorem spec_add {content : Content}
    (located : storage.locate file = some root)
    (isFile : storage.files.find root = some (.file content)) :
    storage.Spec root (add file) := by
  have content_ := FileSystem.fileAt_eq_some_iff.mpr isFile
  refine Or.inl ⟨readable_of_not_directory (by simp [isFile]), [file], [root],
    fun list => rfl, by simp [located],
    enumerates_singleton (by simp [content_]) fun rest more isFile => ?_⟩
  exact isFile (FileSystem.fileAt_append_eq_none (by simp [content_]) more)

/-- Step lemma: the loop over the files of a directory. -/
theorem spec_forM {names : List Name}
    {body : File → Action Failure (List File) PUnit}
    (isDirectory : storage.files.find root = some .directory)
    (listed : storage.listing.readable root = true)
    (complete : ∀ name, name ∈ names ↔
      storage.files.find (root ++ [name]) ≠ none)
    (nodup : names.Nodup)
    (each : ∀ name ∈ names,
      storage.Spec (root ++ [name]) (body (file.child name))) :
    storage.Spec root (forM (names.map file.child) body) := by
  rw [List.forM_map]
  by_cases readable : ∀ name ∈ names,
      Readable storage.listing (root ++ [name]) storage.files
  · have adds : ∀ name ∈ names,
        storage.Adds (root ++ [name]) (body (file.child name)) := by
      intro name inNames
      rcases each name inNames with ⟨_, adds⟩ | ⟨notReadable, _⟩
      · exact adds
      · exact absurd (readable name inNames) notReadable
    choose! added paths appends located areFiles using adds
    refine Or.inl ⟨readable_of_names listed
      (fun name => (complete name).mpr) readable, names.flatMap added,
      names.flatMap paths, Action.appends_forM appends, ?_,
      enumerates_flatMap nodup (fun isFile => isFile ?_) ?_ areFiles⟩
    · rw [List.map_flatMap, List.map_flatMap]
      exact List.flatMap_congr located
    · exact FileSystem.fileAt_eq_none_iff.mpr (Or.inr isDirectory)
    · intro name rest isFile
      have exists_ : storage.files.find (root ++ name :: rest) ≠ none :=
        fun missing =>
          isFile (FileSystem.fileAt_eq_none_iff.mpr (Or.inl missing))
      exact (complete name).mpr (storage.files.find_next exists_)
  · obtain ⟨name, inNames, notReadable⟩ : ∃ name ∈ names,
        ¬Readable storage.listing (root ++ [name]) storage.files := by
      simpa using readable
    have throws : Action.Throws .nullPointerException
        (body (file.child name)) := by
      rcases each name inNames with ⟨isReadable, _⟩ | ⟨_, throws⟩
      · exact absurd isReadable notReadable
      · exact throws
    refine Or.inr ⟨fun whole => notReadable fun path below => ?_,
      Action.throws_forM inNames throws fun other inOthers => ?_⟩
    · exact whole path ((List.prefix_append _ _).trans below)
    · rcases each other inOthers with ⟨_, added, _, appends, _⟩ | ⟨_, throws⟩
      · exact Or.inr fun list => ⟨_, appends list⟩
      · exact Or.inl throws

end Calls

/-! ## The recursion -/

section Recursion

variable {storage : Storage Content} {dirFile : File} {root : Path}
variable {dir : Text} {depth : Nat}

theorem listFiles_of_directory (located : storage.locate dirFile = some root)
    (isDirectory : storage.files.find root = some .directory) :
    storage.listFiles dirFile =
      (storage.listing.listFiles storage.files root).map fun names =>
        names.map dirFile.child := by
  have asked : storage.isDirectory dirFile = true := by
    rw [Storage.isDirectory, stat_of_locate located, isDirectory]
  rw [listFiles, if_pos asked, located, Option.bind_some]

/-- What the loop does with one file of a directory. -/
theorem spec_child {name : Name}
    {inner : Text → Action Failure (List File) PUnit}
    (located : storage.locate dirFile = some root)
    (named : Named dirFile.names)
    (isDirectory : storage.files.find root = some .directory)
    (exists_ : storage.files.find (root ++ [name]) ≠ none)
    (spec : ∀ dir, storage.locate (File.ofText dir) = some (root ++ [name]) →
      storage.Spec (root ++ [name]) (inner dir)) :
    storage.Spec (root ++ [name])
      (if storage.isDirectory (dirFile.child name) then
        inner ((dirFile.child name).getAbsolutePath storage.workingDirectory)
      else add (dirFile.child name)) := by
  have plain : Plain name :=
    storage.files.plain _ exists_ name (by simp)
  have locatedChild := locate_child located isDirectory plain
  have namedChild : Named (dirFile.child name).names := by
    intro other inNames
    rw [File.names_child plain] at inNames
    rcases List.mem_append.mp inNames with above | isLast
    · exact named other above
    · rw [List.mem_singleton.mp isLast]
      exact ⟨plain.1, plain.2.1⟩
  have isStat := stat_of_locate locatedChild
  cases entry : storage.files.find (root ++ [name]) with
  | none => exact absurd entry exists_
  | some kind =>
      cases kind with
      | file content =>
          rw [if_neg (by simp [Storage.isDirectory, isStat, entry])]
          exact spec_add locatedChild entry
      | directory =>
          rw [if_pos (by simp [Storage.isDirectory, isStat, entry])]
          exact spec _ (locate_getAbsolutePath locatedChild namedChild)

/-- Spec lemma: by induction on the depth of the recursion. -/
theorem queryFilesPathWithin_spec
    (located : storage.locate (File.ofText dir) = some root)
    (shallow : Shallow storage.files root depth) :
    storage.Spec root (storage.queryFilesPathWithin depth dir) := by
  induction depth generalizing dir root with
  | zero => exact absurd shallow.1 (Nat.lt_irrefl 0)
  | succ depth inductionHypothesis =>
      have isStat := stat_of_locate located
      rw [queryFilesPathWithin]
      cases entry : storage.files.find root with
      | none =>
          rw [if_neg (by simp [exists_, isStat, entry])]
          exact spec_nothing entry
      | some kind =>
          rw [if_pos (by simp [exists_, isStat, entry])]
          cases kind with
          | file content =>
              rw [if_neg (by simp [Storage.isDirectory, isStat, entry])]
              exact spec_add located entry
          | directory =>
              rw [if_pos (by simp [Storage.isDirectory, isStat, entry]),
                listFiles_of_directory located entry, Listing.listFiles]
              by_cases listed : storage.listing.readable root = true
              · rw [if_pos listed]
                have complete : ∀ name,
                    name ∈ storage.listing.arrange root
                        (storage.files.list root) ↔
                      storage.files.find (root ++ [name]) ≠ none := by
                  intro name
                  rw [(storage.listing.arrange_perm _ _).mem_iff,
                    FileSystem.mem_list_iff]
                have nodup := (storage.listing.arrange_perm root
                  _).nodup_iff.mpr (storage.files.nodup_list root)
                refine spec_forM entry listed complete nodup
                  fun name inNames => ?_
                have child := (complete name).mp inNames
                exact spec_child located (named_namesOf dir) entry child
                  fun dir isPlace => inductionHypothesis isPlace
                    (shallow.child (fun _ _ => rfl) child)
              · rw [if_neg listed]
                refine Or.inr ⟨fun readable => listed ?_, fun list =>
                  ⟨list, rfl⟩⟩
                exact readable root List.prefix_rfl entry

/-- Where nothing is found nothing is added. -/
theorem queryFilesPath_of_missing
    (missing : storage.locate (File.ofText dir) = none) :
    storage.queryFilesPath dir = pure PUnit.unit := by
  rw [queryFilesPath, queryFilesPathWithin,
    if_neg (by simp [exists_, stat, missing])]

theorem queryFilesPath_spec
    (located : storage.locate (File.ofText dir) = some root) :
    storage.Spec root (storage.queryFilesPath dir) := by
  refine queryFilesPathWithin_spec located
    ⟨Nat.succ_pos _, fun path _ exists_ => ?_⟩
  have bound := FileSystem.length_le_height exists_
  omega

end Recursion

/-! ## The law of a call -/

section Law

variable {storage : Storage Content} {dir : Text} {root : Path}

theorem inTree_iff (located : storage.locate (File.ofText dir) = some root)
    (path : Path) : storage.InTree dir path ↔ root <+: path := by
  simp [InTree, located]

theorem listed_iff (located : storage.locate (File.ofText dir) = some root) :
    storage.Listed dir ↔
      Readable storage.listing root storage.files := by
  simp only [Listed, inTree_iff located]
  rfl

theorem not_inTree_of_missing
    (missing : storage.locate (File.ofText dir) = none) (path : Path) :
    ¬storage.InTree dir path := by
  simp [InTree, missing]

theorem collects_of_listed (listed : storage.Listed dir)
    (filePathList : List File) : storage.Collects dir filePathList := by
  cases located : storage.locate (File.ofText dir) with
  | none =>
      refine ⟨[], [], ?_, rfl, List.nodup_nil, fun path => ?_⟩
      · rw [queryFilesPath_of_missing located, List.append_nil]
        rfl
      · exact iff_of_false List.not_mem_nil fun both =>
          not_inTree_of_missing located path both.1
  | some root =>
      rcases queryFilesPath_spec located with
        ⟨_, added, paths, appends, places, areFiles⟩ | ⟨notReadable, _⟩
      · refine ⟨added, paths, appends filePathList, places, areFiles.nodup,
          fun path => ?_⟩
        rw [inTree_iff located]
        exact areFiles.mem_iff path
      · exact absurd ((listed_iff located).mp listed) notReadable

theorem throws_of_not_listed (notListed : ¬storage.Listed dir) :
    Action.Throws .nullPointerException (storage.queryFilesPath dir) := by
  cases located : storage.locate (File.ofText dir) with
  | none =>
      exact absurd (fun path inTree =>
        absurd inTree (not_inTree_of_missing located path)) notListed
  | some root =>
      rcases queryFilesPath_spec located with ⟨readable, _⟩ | ⟨_, throws⟩
      · exact absurd ((listed_iff located).mpr readable) notListed
      · exact throws

theorem collects_iff (filePathList : List File) :
    storage.Collects dir filePathList ↔ storage.Listed dir := by
  refine ⟨fun ⟨added, _, returned, _⟩ => ?_, fun listed =>
    collects_of_listed listed filePathList⟩
  by_contra notListed
  obtain ⟨left, threw⟩ := throws_of_not_listed notListed filePathList
  rw [threw] at returned
  cases returned

end Law

/-- What was in the list stays at its front, also when the call throws. -/
theorem queryFilesPathWithin_keeps (depth : Nat) (dir : Text) :
    Action.Within (fun before after => before <+: after)
      (storage.queryFilesPathWithin depth dir) := by
  have reflexive : ∀ list : List File, list <+: list :=
    fun _ => List.prefix_rfl
  have transitive : ∀ first second third : List File, first <+: second →
      second <+: third → first <+: third := fun _ _ _ => List.IsPrefix.trans
  have adding : ∀ file, Action.Within (fun before after => before <+: after)
      (add file) := fun file =>
    Action.within_modify fun list => List.prefix_append list [file]
  induction depth generalizing dir with
  | zero => exact Action.within_throw reflexive _
  | succ depth inductionHypothesis =>
      rw [queryFilesPathWithin]
      split
      · split
        · refine Action.within_bind transitive
            (Action.within_ofExcept reflexive _) fun isEmpty => ?_
          split
          · exact Action.within_pure reflexive _
          · split
            · exact Action.within_throw reflexive _
            · refine Action.within_forM reflexive transitive fun file _ => ?_
              split
              · exact inductionHypothesis _
              · exact adding file
        · exact adding _
      · exact Action.within_pure reflexive _

/-- The files of a tree are collected exactly if each of its directories can
be listed; else the call throws.  What was in the list is kept. -/
theorem collects_iff_listed (dir : Text) (filePathList : List File) :
    (storage.Collects dir filePathList ↔ storage.Listed dir) ∧
    (¬storage.Listed dir → ∃ left, storage.queryFilesPath dir filePathList =
      .error .nullPointerException left) ∧
    filePathList <+: (storage.queryFilesPath dir).after filePathList :=
  ⟨collects_iff filePathList,
    fun notListed => throws_of_not_listed notListed filePathList,
    storage.queryFilesPathWithin_keeps _ dir filePathList⟩

/-- The directory `/d` with its directory `/d/e`, which cannot be listed. -/
def unreadableBelow : Storage Unit :=
  ⟨twoDirectories, unreadable, []⟩

theorem unreadable_not_collected :
    ¬unreadableBelow.Collects ['/', 'd'] [] := by
  rw [collects_iff]
  intro listed
  have inTree : unreadableBelow.InTree ['/', 'd'] [['d'], ['e']] :=
    ⟨[['d']], by decide, ⟨[['e']], rfl⟩⟩
  exact absurd (listed _ inTree (by decide)) (by decide)

end Storage

end DripStone.FileUtils
