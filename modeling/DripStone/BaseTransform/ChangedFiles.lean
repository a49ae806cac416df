import DripStone.BaseTransform.ClassFiles
import DripStone.BaseTransform.Tasks

/-!
# The loop over the files of a directory

A full run goes through the files of a directory, an incremental one through
its changed files.  Both loops bring the output from the content of an earlier
run to that of the present one, file by file.
-/

namespace DripStone.BaseTransform

open DripStone.Library

/-- What a file is reported as, from its content before and now. -/
def statusOf : Option Bytes → Option Bytes → Status
  | none, none => .notChanged
  | none, some _ => .added
  | some _, none => .removed
  | some before, some now => if before = now then .notChanged else .changed

theorem statusOf_eq_notChanged_iff {before now : Option Bytes} :
    statusOf before now = .notChanged ↔ before = now := by
  cases before with
  | none => cases now <;> simp [statusOf]
  | some before =>
      cases now with
      | none => simp [statusOf]
      | some now =>
          by_cases same : before = now
          · simp [statusOf, same]
          · simp [statusOf, same]

theorem statusOf_eq_removed_iff {before now : Option Bytes} :
    statusOf before now = .removed ↔ before ≠ none ∧ now = none := by
  cases before with
  | none => cases now <;> simp [statusOf]
  | some before =>
      cases now with
      | none => simp [statusOf]
      | some now =>
          by_cases same : before = now
          · simp [statusOf, same]
          · simp [statusOf, same]

/-- What is written has a content now. -/
theorem ne_none_of_statusOf {before now : Option Bytes}
    (written : statusOf before now = .added ∨
      statusOf before now = .changed) : now ≠ none := by
  rintro rfl
  cases before with
  | none => simp [statusOf] at written
  | some before => simp [statusOf] at written

section Obstacles

variable (directory dest : Path)

/-- What the output holds in the way of a file that is to be written comes
before it among the changed files: the files above it, and what a directory in
its own place holds, which must be files. -/
structure Unobstructed (files : FileSystem Bytes) (earlier : List Path)
    (rest : Path) : Prop where
  above : ∀ above, above <+: rest → above ≠ rest →
    files.fileAt (dest ++ above) ≠ none → directory ++ above ∈ earlier
  inside : files.find (dest ++ rest) = some .directory →
    ∀ name, files.find (dest ++ rest ++ [name]) ≠ none →
      files.fileAt (dest ++ rest ++ [name]) ≠ none ∧
        directory ++ rest ++ [name] ∈ earlier

/-- Nothing is in the way of any file that is written, in the order of the
changed files. -/
def ClearWay (files : FileSystem Bytes) (changes : List (Path × Status)) :
    Prop :=
  ∀ earlier file status later, changes = earlier ++ (file, status) :: later →
    status = .added ∨ status = .changed →
    ∀ rest, file = directory ++ rest →
      Unobstructed directory dest files (earlier.map Prod.fst) rest

end Obstacles

/-! ## The loop -/

/-- A directory, its place in the output and the contents that its files had
when that output was written. -/
structure DirectoryRun (tools : Tools) (directory dest temporaryDir : Path)
    (was : Path → Option Bytes) (files : FileSystem Bytes) : Prop where
  plain : ∀ name ∈ dest, Plain name
  apart : Apart dest temporaryDir
  fromDest : Apart directory dest
  fromTemporary : Apart directory temporaryDir
  start : ∀ rest, files.fileAt (dest ++ rest) =
    (was (directory ++ rest)).map (classOutput tools (directory ++ rest))
  way : files.Unblocked dest
  stays : files.find temporaryDir = some .directory
  onlyFiles : ∀ name,
    files.find (temporaryDir ++ [name]) ≠ some .directory
  noFile : was directory = none ∧ files.fileAt directory = none
  plainWas : ∀ rest, was (directory ++ rest) ≠ none →
    ∀ name ∈ rest, Plain name
  once : ∀ rest, was (directory ++ rest) ≠ none ∨
    files.fileAt (directory ++ rest) ≠ none → ReadOnce directory rest

/-- In the middle of the loop: the files gone through are as they are now and
the others as they were, and the directories of the output were there or have
a file below them. -/
structure Midway (tools : Tools) (directory dest temporaryDir : Path)
    (was : Path → Option Bytes) (files : FileSystem Bytes)
    (earlier : List Path) (current : FileSystem Bytes) : Prop where
  content : ∀ rest, current.fileAt (dest ++ rest) =
    (if directory ++ rest ∈ earlier then files.fileAt (directory ++ rest)
      else was (directory ++ rest)).map
        (classOutput tools (directory ++ rest))
  directories : ∀ rest, rest ≠ [] →
    current.find (dest ++ rest) = some .directory →
      files.find (dest ++ rest) = some .directory ∨
        ∃ more, files.fileAt (directory ++ rest ++ more) ≠ none ∧ more ≠ []
  place : current.find dest = some .directory
  spares : Spares dest temporaryDir files current

section Loop

variable {tools : Tools} {directory dest temporaryDir : Path}
  {was : Path → Option Bytes} {files current : FileSystem Bytes}
  {earlier : List Path} {rest : Path}

theorem DirectoryRun.named
    (run : DirectoryRun tools directory dest temporaryDir was files) :
    directory ≠ [] :=
  run.fromDest.ne_nil

theorem DirectoryRun.destFileOf_eq
    (run : DirectoryRun tools directory dest temporaryDir was files)
    (known : was (directory ++ rest) ≠ none ∨
      files.fileAt (directory ++ rest) ≠ none) :
    rest ≠ [] ∧ (∀ name ∈ dest ++ rest, Plain name) ∧
      destFileOf (directory ++ rest) (absolutePath directory)
        (absolutePath dest) = dest ++ rest := by
  have more : rest ≠ [] := by
    rintro rfl
    rw [List.append_nil] at known
    exact known.elim (fun some => some run.noFile.1)
      fun some => some run.noFile.2
  have plainRest : ∀ name ∈ rest, Plain name := by
    rcases known with before | now
    · exact run.plainWas rest before
    · intro name inRest
      apply files.plain (directory ++ rest) _ name
        (List.mem_append_right directory inRest)
      intro missing
      exact now (FileSystem.fileAt_eq_none_iff.mpr (Or.inl missing))
  refine ⟨more, ?_, ?_⟩
  · intro name inPath
    rcases List.mem_append.mp inPath with inDest | inRest
    · exact run.plain name inDest
    · exact plainRest name inRest
  · exact destFileOf_of_readOnce run.named more run.plain plainRest
      (run.once rest known)

namespace Midway

variable (midway : Midway tools directory dest temporaryDir was files earlier
  current)
include midway

theorem source_eq
    (run : DirectoryRun tools directory dest temporaryDir was files)
    (rest : Path) :
    current.find (directory ++ rest) = files.find (directory ++ rest) :=
  midway.spares.find_eq run.fromDest run.fromTemporary
    (List.prefix_append directory rest)

theorem content_step {left : FileSystem Bytes}
    (here : left.fileAt (dest ++ rest) =
      (files.fileAt (directory ++ rest)).map
        (classOutput tools (directory ++ rest)))
    (others : ∀ other, other ≠ rest →
      left.fileAt (dest ++ other) = current.fileAt (dest ++ other))
    (other : Path) :
    left.fileAt (dest ++ other) =
      (if directory ++ other ∈ earlier ++ [directory ++ rest] then
        files.fileAt (directory ++ other)
        else was (directory ++ other)).map
          (classOutput tools (directory ++ other)) := by
  by_cases same : other = rest
  · subst same
    rw [here, if_pos (by simp)]
  · have among : directory ++ other ∈ earlier ++ [directory ++ rest] ↔
        directory ++ other ∈ earlier := by
      simp [same]
    rw [others other same, midway.content other]
    simp only [among]

/-- No file stands above a file that is written now. -/
theorem unblocked
    (run : DirectoryRun tools directory dest temporaryDir was files)
    (present : files.fileAt (directory ++ rest) ≠ none)
    (unobstructed : Unobstructed directory dest files earlier rest) :
    current.Unblocked (dest ++ rest).dropLast := by
  obtain ⟨more, _, _⟩ := run.destFileOf_eq (Or.inr present)
  rw [List.dropLast_append_of_ne_nil more]
  intro above isAbove
  rcases prefix_or_prefix isAbove (List.prefix_append dest rest.dropLast)
    with inDest | below
  · obtain ⟨between, rfl⟩ := inDest
    exact Or.inr (current.directory_of_append midway.place)
  · obtain ⟨part, rfl⟩ := below
    rw [List.prefix_append_right_inj] at isAbove
    obtain ⟨behind, whole⟩ := isAbove.trans (List.dropLast_prefix rest)
    have shorter : part ≠ rest := by
      rintro rfl
      have lengths := isAbove.length_le
      have positive := List.length_pos_iff.mpr more
      rw [List.length_dropLast] at lengths
      omega
    apply FileSystem.fileAt_eq_none_iff.mp
    rw [midway.content part]
    by_cases gone : directory ++ part ∈ earlier
    · -- what is above a file is no file any more
      have absent : files.fileAt (directory ++ part) = none := by
        by_contra isFile
        have some : behind ≠ [] := by
          rintro rfl
          exact shorter (by simpa using whole)
        have below := FileSystem.fileAt_append_eq_none isFile some
        rw [List.append_assoc, whole] at below
        exact present below
      rw [if_pos gone, absent]
      rfl
    · have wasNone : was (directory ++ part) = none := by
        by_contra wasFile
        apply gone
        apply unobstructed.above part ⟨behind, whole⟩ shorter
        rw [run.start part]
        simpa using wasFile
      rw [if_neg gone, wasNone]
      rfl

/-- A directory in the place of a file that is written now is empty. -/
theorem list_eq_nil
    (run : DirectoryRun tools directory dest temporaryDir was files)
    (present : files.fileAt (directory ++ rest) ≠ none)
    (unobstructed : Unobstructed directory dest files earlier rest)
    (isDirectory : current.find (dest ++ rest) = some .directory) :
    current.list (dest ++ rest) = [] := by
  have noBelow : ∀ more, more ≠ [] →
      files.fileAt (directory ++ rest ++ more) = none :=
    fun more some => FileSystem.fileAt_append_eq_none present some
  obtain ⟨below, _, _⟩ := run.destFileOf_eq (Or.inr present)
  have before : files.find (dest ++ rest) = some .directory := by
    rcases midway.directories rest below isDirectory with
      wasDirectory | ⟨more, someFile, some⟩
    · exact wasDirectory
    · exact absurd (noBelow more some) someFile
  rw [List.eq_nil_iff_forall_not_mem]
  intro name listed
  have exists_ := (current.mem_list_iff _ _).mp listed
  have content := midway.content (rest ++ [name])
  have start := run.start (rest ++ [name])
  have inside := unobstructed.inside before name
  have directories := midway.directories (rest ++ [name]) (by simp)
  simp only [← List.append_assoc] at content start directories
  have noFile : current.fileAt (dest ++ rest ++ [name]) = none := by
    rw [content]
    by_cases gone : directory ++ rest ++ [name] ∈ earlier
    · rw [if_pos gone, noBelow [name] (List.cons_ne_nil _ _)]
      rfl
    · have wasNone : was (directory ++ rest ++ [name]) = none := by
        by_contra wasFile
        have stored : files.fileAt (dest ++ rest ++ [name]) ≠ none := by
          rw [start]
          simpa using wasFile
        apply gone
        refine (inside fun missing => stored ?_).2
        exact FileSystem.fileAt_eq_none_iff.mpr (Or.inl missing)
      rw [if_neg gone, wasNone]
      rfl
  rcases FileSystem.fileAt_eq_none_iff.mp noFile with missing | below
  · exact exists_ missing
  · rcases directories below with wasDirectory | ⟨more, someFile, some⟩
    · have isFile := (inside (by rw [wasDirectory]; simp)).1
      exact isFile (FileSystem.fileAt_eq_none_iff.mpr
        (Or.inr wasDirectory))
    · rw [List.append_assoc] at someFile
      exact someFile (noBelow ([name] ++ more) (by simp))

/-- The step of a file that is written. -/
theorem store
    (run : DirectoryRun tools directory dest temporaryDir was files)
    {content : Bytes}
    (found : files.fileAt (directory ++ rest) = some content)
    (unobstructed : Unobstructed directory dest files earlier rest) :
    ∃ left, modifyClassFile tools (directory ++ rest)
        (absolutePath directory) (absolutePath dest) temporaryDir current =
          .ok () left ∧
      Midway tools directory dest temporaryDir was files
        (earlier ++ [directory ++ rest]) left := by
  have present : files.fileAt (directory ++ rest) ≠ none := by simp [found]
  obtain ⟨more, plain, isDest⟩ := run.destFileOf_eq (Or.inr present)
  have source : current.fileAt (directory ++ rest) = some content := by
    rw [← found]
    exact FileSystem.fileAt_congr (midway.source_eq run rest)
  have different : directory ++ rest ≠ dest ++ rest := by
    intro same
    exact run.fromDest.1 ⟨[], by simpa using List.append_cancel_right same⟩
  have unblocked := midway.unblocked run present unobstructed
  have passable : Passable current (dest ++ rest) :=
    ⟨unblocked, midway.list_eq_nil run present unobstructed⟩
  have onlyFiles : ∀ name,
      current.find (temporaryDir ++ [name]) ≠ some .directory :=
    fun name isDirectory =>
      run.onlyFiles name (midway.spares.onlyFiles name isDirectory)
  obtain ⟨left, returned, stores⟩ := modifyClassFile_ok tools isDest source
    different (by simp [more]) plain (run.apart.append rest)
    (midway.spares.stays run.stays) onlyFiles passable
  refine ⟨left, returned, ?_⟩
  have outside : ∀ other, ¬ temporaryDir <+: dest ++ other := fun other =>
    (run.apart.append other).2
  have atOther : ∀ other, other ≠ rest → left.find (dest ++ other) =
      if dest ++ other <+: (dest ++ rest).dropLast then some .directory
      else current.find (dest ++ other) := by
    intro other elsewhere
    apply stores.others _ (outside other)
    simpa using elsewhere
  constructor
  · apply midway.content_step
    · rw [found, Option.map_some, FileSystem.fileAt_eq_some_iff]
      exact stores.here
    · intro other elsewhere
      by_cases above : dest ++ other <+: (dest ++ rest).dropLast
      · have before := FileSystem.fileAt_eq_none_iff.mpr
          (unblocked _ above)
        rw [before, FileSystem.fileAt_eq_none_iff, atOther other elsewhere,
          if_pos above]
        exact Or.inr rfl
      · apply FileSystem.fileAt_congr
        rw [atOther other elsewhere, if_neg above]
  · intro other some isDirectory
    by_cases same : other = rest
    · rw [same, stores.here] at isDirectory
      cases isDirectory
    · rw [atOther other same] at isDirectory
      by_cases above : dest ++ other <+: (dest ++ rest).dropLast
      · right
        rw [List.dropLast_append_of_ne_nil more,
          List.prefix_append_right_inj] at above
        obtain ⟨behind, whole⟩ := above.trans (List.dropLast_prefix rest)
        refine ⟨behind, ?_, ?_⟩
        · rwa [List.append_assoc, whole]
        · rintro rfl
          exact same (by simpa using whole)
      · rw [if_neg above] at isDirectory
        exact midway.directories other some isDirectory
  · have atPlace := atOther [] more.symm
    rw [List.append_nil, List.dropLast_append_of_ne_nil more,
      if_pos (List.prefix_append _ _)] at atPlace
    exact atPlace
  · have step := sparing_modifyClassFile tools run.apart
      (List.prefix_append directory rest) run.named run.plain current
    rw [Action.after_of_ok returned] at step
    exact midway.spares.trans step

/-- The step of a file that is deleted. -/
theorem drop
    (run : DirectoryRun tools directory dest temporaryDir was files)
    (known : was (directory ++ rest) ≠ none)
    (absent : files.fileAt (directory ++ rest) = none) :
    ∃ left, deleteIfExists (destFileOf (directory ++ rest)
        (absolutePath directory) (absolutePath dest)) current =
          .ok () left ∧
      Midway tools directory dest temporaryDir was files
        (earlier ++ [directory ++ rest]) left := by
  obtain ⟨more, _, isDest⟩ := run.destFileOf_eq (Or.inl known)
  obtain ⟨left, returned, atLeft⟩ := deleteIfExists_ok current (dest ++ rest)
  rw [isDest]
  refine ⟨left, returned, ?_⟩
  have atOther : ∀ other, other ≠ rest →
      left.find (dest ++ other) = current.find (dest ++ other) := by
    intro other elsewhere
    rw [atLeft, if_neg]
    rintro ⟨_, same⟩
    exact elsewhere (List.append_cancel_left same)
  constructor
  · apply midway.content_step
    · rw [absent, Option.map_none, FileSystem.fileAt_eq_none_iff, atLeft]
      by_cases deletable : current.Deletable (dest ++ rest)
      · exact Or.inl (if_pos ⟨deletable, rfl⟩)
      · rw [if_neg fun both => deletable both.1,
          ← FileSystem.fileAt_eq_none_iff]
        by_contra isFile
        obtain ⟨bytes, found⟩ := Option.ne_none_iff_exists'.mp isFile
        exact deletable (FileSystem.deletable_of_file
          (FileSystem.fileAt_eq_some_iff.mp found))
    · intro other elsewhere
      exact FileSystem.fileAt_congr (atOther other elsewhere)
  · intro other some isDirectory
    apply midway.directories other some
    rw [atLeft] at isDirectory
    by_cases gone : current.Deletable (dest ++ rest) ∧
        dest ++ other = dest ++ rest
    · rw [if_pos gone] at isDirectory
      cases isDirectory
    · rwa [if_neg gone] at isDirectory
  · have atPlace := atOther [] more.symm
    rw [List.append_nil, midway.place] at atPlace
    exact atPlace
  · have step := sparing_deleteIfExists run.apart
      (Or.inl (List.prefix_append dest rest)) current
    rw [Action.after_of_ok returned] at step
    exact midway.spares.trans step

end Midway

/-- The step of any changed file. -/
theorem Midway.change
    (midway : Midway tools directory dest temporaryDir was files earlier
      current)
    (run : DirectoryRun tools directory dest temporaryDir was files)
    {status : Status}
    (exact_ : status = statusOf (was (directory ++ rest))
      (files.fileAt (directory ++ rest)))
    (clear : status = .added ∨ status = .changed →
      Unobstructed directory dest files earlier rest) :
    ∃ left, changeClassFile tools (absolutePath directory)
        (absolutePath dest) temporaryDir (directory ++ rest, status)
        current = .ok () left ∧
      Midway tools directory dest temporaryDir was files
        (earlier ++ [directory ++ rest]) left := by
  have storing : status = .added ∨ status = .changed →
      ∃ left, modifyClassFile tools (directory ++ rest)
          (absolutePath directory) (absolutePath dest) temporaryDir
          current = .ok () left ∧
        Midway tools directory dest temporaryDir was files
          (earlier ++ [directory ++ rest]) left := by
    intro written
    obtain ⟨content, found⟩ := Option.ne_none_iff_exists'.mp
      (ne_none_of_statusOf (exact_ ▸ written))
    exact midway.store run found (clear written)
  cases status with
  | notChanged =>
      have same := statusOf_eq_notChanged_iff.mp exact_.symm
      refine ⟨current, rfl, ?_, midway.directories, midway.place,
        midway.spares⟩
      apply midway.content_step
      · rw [midway.content, same]
        simp
      · exact fun other _ => rfl
  | removed =>
      obtain ⟨known, absent⟩ := statusOf_eq_removed_iff.mp exact_.symm
      exact midway.drop run known absent
  | added => exact storing (Or.inl rfl)
  | changed => exact storing (Or.inr rfl)

/-- The loop goes through all files and returns. -/
theorem DirectoryRun.forM_changeClassFile
    (run : DirectoryRun tools directory dest temporaryDir was files)
    {changes : List (Path × Status)}
    (below : ∀ entry ∈ changes, directory <+: entry.1)
    (exact_ : ∀ entry ∈ changes,
      entry.2 = statusOf (was entry.1) (files.fileAt entry.1))
    (clear : ClearWay directory dest files changes)
    (midway : Midway tools directory dest temporaryDir was files [] current) :
    ∃ left, forM changes (changeClassFile tools (absolutePath directory)
        (absolutePath dest) temporaryDir) current = .ok () left ∧
      Midway tools directory dest temporaryDir was files
        (changes.map Prod.fst) left := by
  have further : ∀ later earlier : List (Path × Status), ∀ current,
      changes = earlier ++ later →
      Midway tools directory dest temporaryDir was files
        (earlier.map Prod.fst) current →
      ∃ left, forM later (changeClassFile tools (absolutePath directory)
          (absolutePath dest) temporaryDir) current = .ok () left ∧
        Midway tools directory dest temporaryDir was files
          (changes.map Prod.fst) left := by
    intro later
    induction later with
    | nil =>
        intro earlier current whole midway
        rw [List.append_nil] at whole
        exact ⟨current, rfl, whole ▸ midway⟩
    | cons entry later inductionHypothesis =>
        intro earlier current whole midway
        have inChanges : entry ∈ changes := by simp [whole]
        obtain ⟨file, status⟩ := entry
        obtain ⟨rest, rfl⟩ := below _ inChanges
        obtain ⟨middle, returned, atMiddle⟩ := midway.change run
          (exact_ _ inChanges)
          fun written => clear _ _ _ _ whole written rest rfl
        have regrouped :
            changes = earlier ++ [(directory ++ rest, status)] ++ later := by
          simp [whole]
        obtain ⟨left, looped, atLeft⟩ := inductionHypothesis _ middle
          regrouped (by simpa using atMiddle)
        refine ⟨left, ?_, atLeft⟩
        rw [List.forM_cons, Action.bind_of_ok returned]
        exact looped
  exact further changes [] current rfl midway

/-- The output of the directory is made, when it is not there yet. -/
theorem DirectoryRun.forceMkdir_ok
    (run : DirectoryRun tools directory dest temporaryDir was files) :
    forceMkdir dest files = .ok () (files.mkdirs dest) ∧
      Midway tools directory dest temporaryDir was files []
        (files.mkdirs dest) := by
  have made := FileSystem.find_mkdirs run.plain run.way
  have place : (files.mkdirs dest).find dest = some .directory := by
    rw [made, if_pos List.prefix_rfl]
  constructor
  · show (if (files.mkdirs dest).find dest = some .directory then
      (pure () : Call Unit) else throw .ioException) (files.mkdirs dest) = _
    rw [if_pos place]
    rfl
  · have below : ∀ rest, rest ≠ [] → (files.mkdirs dest).find (dest ++ rest) =
        files.find (dest ++ rest) := by
      intro rest more
      rw [made, if_neg]
      intro above
      have lengths := above.length_le
      have positive := List.length_pos_iff.mpr more
      rw [List.length_append] at lengths
      omega
    constructor
    · intro rest
      rw [if_neg List.not_mem_nil, ← run.start rest]
      by_cases more : rest = []
      · subst more
        have noFile := run.start []
        rw [List.append_nil, List.append_nil, run.noFile.1] at noFile
        rw [List.append_nil, noFile, Option.map_none,
          FileSystem.fileAt_eq_none_iff]
        exact Or.inr place
      · exact FileSystem.fileAt_congr (below rest more)
    · intro rest more isDirectory
      exact Or.inl (below rest more ▸ isDirectory)
    · exact place
    · exact sparing_mkdirs run.apart (Or.inl List.prefix_rfl) files

/-- After all files were gone through, the output is that of the files as they
are now. -/
theorem Midway.finish {changes : List (Path × Status)}
    (midway : Midway tools directory dest temporaryDir was files
      (changes.map Prod.fst) current)
    (complete : ∀ rest, was (directory ++ rest) ≠
      files.fileAt (directory ++ rest) →
        directory ++ rest ∈ changes.map Prod.fst) (rest : Path) :
    current.fileAt (dest ++ rest) =
      (files.fileAt (directory ++ rest)).map
        (classOutput tools (directory ++ rest)) := by
  rw [midway.content]
  by_cases listed : directory ++ rest ∈ changes.map Prod.fst
  · rw [if_pos listed]
  · rw [if_neg listed, not_not.mp (mt (complete rest) listed)]

end Loop

/-! ## The task -/

section Task

variable {tools : Tools} {directoryInput : DirectoryInput}
  {outputProvider : TransformOutputProvider} {temporaryDir : Path}
  {files : FileSystem Bytes}

def TransformOutputProvider.directoryPlace
    (outputProvider : TransformOutputProvider)
    (directoryInput : DirectoryInput) : Path :=
  outputProvider.getContentLocation directoryInput.name
    directoryInput.contentTypes directoryInput.scopes .directory

/-- An incremental task whose map tells what changed, when nothing is in the
way. -/
theorem forEachDirectory_incremental {was : Path → Option Bytes}
    (run : DirectoryRun tools directoryInput.file
      (outputProvider.directoryPlace directoryInput) temporaryDir was files)
    (exact_ : ∀ entry ∈ directoryInput.changedFiles,
      entry.2 = statusOf (was entry.1) (files.fileAt entry.1))
    (complete : ∀ rest, was (directoryInput.file ++ rest) ≠
      files.fileAt (directoryInput.file ++ rest) →
        directoryInput.file ++ rest ∈
          directoryInput.changedFiles.map Prod.fst)
    (clear : ClearWay directoryInput.file
      (outputProvider.directoryPlace directoryInput) files
      directoryInput.changedFiles) :
    ∃ left, forEachDirectory tools directoryInput outputProvider
        ⟨temporaryDir⟩ true files = .ok () left ∧
      ∀ rest, left.fileAt
          (outputProvider.directoryPlace directoryInput ++ rest) =
        (files.fileAt (directoryInput.file ++ rest)).map
          (classOutput tools (directoryInput.file ++ rest)) := by
  obtain ⟨made, start⟩ := run.forceMkdir_ok
  obtain ⟨left, looped, midway⟩ := run.forM_changeClassFile
    directoryInput.changedFiles_below exact_ clear start
  refine ⟨left, ?_, midway.finish complete⟩
  show (forceMkdir (outputProvider.directoryPlace directoryInput) >>=
    fun _ => _) files = _
  rw [Action.bind_of_ok made]
  exact looped

/-- A full task into an empty place. -/
theorem forEachDirectory_full
    (run : DirectoryRun tools directoryInput.file
      (outputProvider.directoryPlace directoryInput) temporaryDir
      (fun _ => none) files)
    (empty : ∀ rest, rest ≠ [] →
      files.find (outputProvider.directoryPlace directoryInput ++ rest) =
        none) :
    ∃ left, forEachDirectory tools directoryInput outputProvider
        ⟨temporaryDir⟩ false files = .ok () left ∧
      ∀ rest, left.fileAt
          (outputProvider.directoryPlace directoryInput ++ rest) =
        (files.fileAt (directoryInput.file ++ rest)).map
          (classOutput tools (directoryInput.file ++ rest)) := by
  obtain ⟨made, start⟩ := run.forceMkdir_ok
  have current := start.source_eq run
  generalize files.mkdirs (outputProvider.directoryPlace directoryInput) =
    opened at made start current
  have sameFile : ∀ rest, opened.fileAt (directoryInput.file ++ rest) =
      files.fileAt (directoryInput.file ++ rest) :=
    fun rest => FileSystem.fileAt_congr (current rest)
  -- the walk as a map in which every file was added
  obtain ⟨walked, isWalked⟩ : ∃ walked, walked =
      (opened.walkTopDown directoryInput.file).filter fun file =>
        (opened.fileAt file).isSome := ⟨_, rfl⟩
  have walks : ∀ rest, directoryInput.file ++ rest ∈ walked ↔
      files.fileAt (directoryInput.file ++ rest) ≠ none := by
    intro rest
    rw [isWalked, List.mem_filter, sameFile, Option.isSome_iff_ne_none]
    refine ⟨And.right, fun isFile => ⟨?_, isFile⟩⟩
    apply FileSystem.mem_walkTopDown (List.prefix_append _ _)
    intro missing
    rw [← sameFile] at isFile
    exact isFile (FileSystem.fileAt_eq_none_iff.mpr (Or.inl missing))
  have below : ∀ file ∈ walked, directoryInput.file <+: file := by
    intro file inWalked
    rw [isWalked] at inWalked
    exact FileSystem.prefix_of_mem_walkTopDown
      (List.mem_of_mem_filter inWalked)
  obtain ⟨changes, isChanges⟩ : ∃ changes, changes =
      walked.map fun file => (file, Status.added) := ⟨_, rfl⟩
  have keys : changes.map Prod.fst = walked := by
    rw [isChanges, List.map_map]
    exact List.map_id walked
  have known : ∀ entry ∈ changes, ∃ rest,
      entry = (directoryInput.file ++ rest, Status.added) ∧
        files.fileAt (directoryInput.file ++ rest) ≠ none := by
    intro entry inChanges
    rw [isChanges, List.mem_map] at inChanges
    obtain ⟨file, inWalked, rfl⟩ := inChanges
    obtain ⟨rest, rfl⟩ := below file inWalked
    exact ⟨rest, rfl, (walks rest).mp inWalked⟩
  have belowAll : ∀ entry ∈ changes, directoryInput.file <+: entry.1 := by
    intro entry inChanges
    obtain ⟨rest, rfl, _⟩ := known entry inChanges
    exact List.prefix_append _ rest
  have exact_ : ∀ entry ∈ changes,
      entry.2 = statusOf none (files.fileAt entry.1) := by
    intro entry inChanges
    obtain ⟨rest, rfl, isFile⟩ := known entry inChanges
    obtain ⟨content, found⟩ := Option.ne_none_iff_exists'.mp isFile
    rw [found]
    rfl
  have clear : ClearWay directoryInput.file
      (outputProvider.directoryPlace directoryInput) files changes := by
    intro earlier file status later whole _ rest isRest
    obtain ⟨rest', same, isFile⟩ :=
      known (file, status) (by simp [whole])
    obtain rfl : rest = rest' := by
      rw [Prod.mk.injEq, isRest] at same
      exact List.append_cancel_left same.1
    constructor
    · intro above _ _ isStored
      rw [run.start above] at isStored
      exact absurd rfl isStored
    · intro isDirectory
      rw [empty rest (run.destFileOf_eq (Or.inr isFile)).1] at isDirectory
      cases isDirectory
  obtain ⟨left, looped, midway⟩ :=
    run.forM_changeClassFile belowAll exact_ clear start
  refine ⟨left, ?_, midway.finish ?_⟩
  · show (forceMkdir (outputProvider.directoryPlace directoryInput) >>=
      fun _ => _) files = _
    rw [Action.bind_of_ok made]
    rw [isChanges, List.forM_map, isWalked] at looped
    exact looped
  · intro rest differs
    rw [keys, walks]
    exact differs.symm

end Task

end DripStone.BaseTransform
