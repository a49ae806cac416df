import DripStone.Library.FileSystem

/-!
# `FileUtils.onDel`

A file, or a directory with all it holds, is deleted.  A directory that cannot
be listed makes the loop over its files throw.
-/

namespace DripStone.FileUtils

open DripStone.Library

variable {Content : Type}

/-- What the operating system says about directories: which of them can be
listed, and in which order. -/
structure Listing where
  readable : Path → Bool
  arrange : Path → List Name → List Name
  arrange_perm : ∀ path names, (arrange path names).Perm names

/-- The names of `listFiles`; `none` stands for `null`. -/
def Listing.listFiles (listing : Listing) (files : FileSystem Content)
    (directory : Path) : Option (List Name) :=
  if listing.readable directory then
    some (listing.arrange directory (files.list directory))
  else none

inductive Outcome (Content : Type) where
  | returned (files : FileSystem Content)
  | nullPointerException (files : FileSystem Content)
  -- the recursion is cut off
  | unfinished (files : FileSystem Content)

def Outcome.files : Outcome Content → FileSystem Content
  | .returned files => files
  | .nullPointerException files => files
  | .unfinished files => files

/-- `for`, until one of the calls throws. -/
def forEach (body : Name → FileSystem Content → Outcome Content) :
    List Name → FileSystem Content → Outcome Content
  | [], files => .returned files
  | name :: rest, files =>
      match body name files with
      | .returned next => forEach body rest next
      | thrown => thrown

variable [DecidableEq Content]

section Model

variable (listing : Listing)

/-- `onDel`, with a bound on the depth of the recursion. -/
def onDelWithin : Nat → Path → Bool → FileSystem Content → Outcome Content
  | 0, _, _, files => .unfinished files
  | depth + 1, directory, keepRoot, files =>
      if files.find directory ≠ none then
        let emptied : Outcome Content :=
          if files.find directory = some .directory then
            match listing.listFiles files directory with
            | none => .nullPointerException files
            | some names =>
                forEach (fun name =>
                  onDelWithin depth (directory ++ [name]) false) names files
          else .returned files
        match emptied with
        | .returned next =>
            .returned (if keepRoot then next else next.delete directory)
        | thrown => thrown
      else .returned files

def onDel (directory : Option Path) (keepRoot : Bool)
    (files : FileSystem Content) : Outcome Content :=
  match directory with
  | none => .returned files
  | some path => onDelWithin listing (files.height + 1) path keepRoot files

/-- `onDel(directory)` -/
def onDelDefault (directory : Option Path) (files : FileSystem Content) :
    Outcome Content :=
  onDel listing directory false files

/-! ## The law -/

/-- The tree is gone, but for its root if that is kept.  The root of the file
system cannot be deleted. -/
def Erased (files next : FileSystem Content) (directory : Path)
    (keepRoot : Bool) : Prop :=
  ∀ other, next.find other =
    if directory <+: other ∧ other ≠ [] ∧
        (keepRoot = true → other ≠ directory) then none
    else files.find other

def Erases (directory : Path) (keepRoot : Bool) (files : FileSystem Content) :
    Prop :=
  ∃ next, onDel listing (some directory) keepRoot files = .returned next ∧
    Erased files next directory keepRoot

/-- The documentation of `onDel(directory)`: the root directory is kept. -/
def ErasesByDefault (directory : Path) (files : FileSystem Content) : Prop :=
  ∃ next, onDelDefault listing (some directory) files = .returned next ∧
    Erased files next directory (files.find directory = some .directory)

/-- Each directory of the tree can be listed. -/
def Readable (directory : Path) (files : FileSystem Content) : Prop :=
  ∀ other, directory <+: other → files.find other = some .directory →
    listing.readable other = true

end Model

/-- What is not in the tree is as before. -/
def Outside (files next : FileSystem Content) (directory : Path) : Prop :=
  ∀ other, ¬directory <+: other → next.find other = files.find other

/-! ## The loop -/

section Loop

variable {body : Name → FileSystem Content → Outcome Content}

omit [DecidableEq Content] in
/-- Invariant rule: every call keeps the invariant or throws. -/
theorem forEach_cases {invariant : List Name → FileSystem Content → Prop}
    {thrown : FileSystem Content → Prop} {names : List Name}
    {files : FileSystem Content}
    (step : ∀ done name rest current, names = done ++ name :: rest →
      invariant done current →
        (∃ next, body name current = .returned next ∧
          invariant (done ++ [name]) next) ∨
        ∃ next, body name current = .nullPointerException next ∧
          thrown next)
    (start : invariant [] files) :
    (∃ next, forEach body names files = .returned next ∧
      invariant names next) ∨
    ∃ next, forEach body names files = .nullPointerException next ∧
      thrown next := by
  suffices suffix : ∀ rest done current, names = done ++ rest →
      invariant done current →
        (∃ next, forEach body rest current = .returned next ∧
          invariant names next) ∨
        ∃ next, forEach body rest current = .nullPointerException next ∧
          thrown next from
    suffix names [] files rfl start
  intro rest
  induction rest with
  | nil =>
      intro done current whole here
      rw [List.append_nil] at whole
      rw [whole]
      exact Or.inl ⟨current, rfl, here⟩
  | cons name rest inductionHypothesis =>
      intro done current whole here
      rcases step done name rest current whole here with
        ⟨next, returned, after⟩ | ⟨next, threw, isThrown⟩
      · rw [forEach, returned]
        refine inductionHypothesis (done ++ [name]) next ?_ after
        rw [whole, List.append_assoc, List.singleton_append]
      · rw [forEach, threw]
        exact Or.inr ⟨next, rfl, isThrown⟩

end Loop

/-! ## The recursion -/

section Recursion

variable {listing : Listing} {files current next : FileSystem Content}
variable {directory : Path} {depth : Nat}

/-- The bound exceeds the depth of the tree. -/
def Shallow (files : FileSystem Content) (directory : Path) (depth : Nat) :
    Prop :=
  0 < depth ∧ ∀ other, directory <+: other → files.find other ≠ none →
    other.length < directory.length + depth

/-- The trees below some names are gone. -/
def Cleared (files current : FileSystem Content) (directory : Path)
    (done : List Name) : Prop :=
  ∀ other, current.find other =
    if ∃ name ∈ done, directory ++ [name] <+: other then none
    else files.find other

omit [DecidableEq Content] in
theorem Cleared.find_of_ne_none {done : List Name}
    (cleared : Cleared files current directory done) {other : Path}
    (exists_ : current.find other ≠ none) :
    current.find other = files.find other := by
  have found := cleared other
  split at found
  · exact absurd found exists_
  · exact found

omit [DecidableEq Content] in
/-- What is below the next name has not been touched. -/
theorem Cleared.find_of_below {done : List Name} {name : Name}
    (cleared : Cleared files current directory done) (isNew : name ∉ done)
    {other : Path} (below : directory ++ [name] <+: other) :
    current.find other = files.find other := by
  rw [cleared other, if_neg]
  intro ⟨earlier, isDone, isBelow⟩
  rw [eq_of_prefix_concat below isBelow] at isNew
  exact isNew isDone

omit [DecidableEq Content] in
theorem Cleared.concat {done : List Name} {name : Name}
    (cleared : Cleared files current directory done)
    (erased : Erased current next (directory ++ [name]) false) :
    Cleared files next directory (done ++ [name]) := by
  intro other
  rw [erased other, cleared other]
  by_cases below : directory ++ [name] <+: other
  · have nonempty : other ≠ [] := by
      rintro rfl
      simp at below
    rw [if_pos ⟨below, nonempty, fun kept => absurd kept Bool.false_ne_true⟩,
      if_pos ⟨name, by simp, below⟩]
  · rw [if_neg fun both => below both.1]
    congr 1
    simp [or_and_right, exists_or, below]

omit [DecidableEq Content] in
/-- All that a directory holds is below one of its names. -/
theorem Cleared.find_eq_none {names : List Name}
    (cleared : Cleared files current directory names)
    (complete : ∀ name, files.find (directory ++ [name]) ≠ none →
      name ∈ names)
    {other : Path} (below : directory <+: other)
    (differs : other ≠ directory) : current.find other = none := by
  obtain ⟨rest, rfl⟩ := below
  cases rest with
  | nil => simp at differs
  | cons name rest =>
      have isBelow : directory ++ [name] <+: directory ++ name :: rest :=
        ⟨rest, by simp⟩
      rw [cleared]
      split
      · rfl
      · next notDone =>
          by_contra exists_
          exact notDone
            ⟨name, complete name (files.find_next exists_), isBelow⟩

omit [DecidableEq Content] in
/-- An emptied directory is deleted, or kept. -/
theorem erased_of_cleared {names : List Name} {keepRoot : Bool}
    (cleared : Cleared files current directory names)
    (complete : ∀ name, files.find (directory ++ [name]) ≠ none →
      name ∈ names) :
    Erased files (if keepRoot then current else current.delete directory)
      directory keepRoot := by
  have gone : ∀ other, directory <+: other → other ≠ directory →
      current.find other = none :=
    fun other below differs => cleared.find_eq_none complete below differs
  have kept : ∀ other, ¬(directory <+: other ∧ other ≠ directory) →
      current.find other = files.find other := by
    intro other notBelow
    rw [cleared other, if_neg]
    intro ⟨name, _, isBelow⟩
    refine notBelow ⟨(List.prefix_append _ _).trans isBelow, ?_⟩
    rintro rfl
    simpa using isBelow.length_le
  have deletable : directory ≠ [] → current.Deletable directory := by
    intro below
    refine ⟨below, List.eq_nil_iff_forall_not_mem.mpr fun name listed => ?_⟩
    exact (current.mem_list_iff directory name).mp listed
      (gone _ (List.prefix_append _ _) (by simp))
  intro other
  by_cases isRoot : other = directory
  · subst isRoot
    have same := kept other fun both => both.2 rfl
    cases keepRoot with
    | true => simpa using same
    | false =>
        rw [if_neg Bool.false_ne_true, FileSystem.find_delete, same]
        congr 1
        simp only [List.prefix_rfl, and_true, true_and, Bool.false_eq_true,
          false_implies, eq_iff_iff]
        exact ⟨fun isDeletable => isDeletable.1, deletable⟩
  · have sameFind : (if keepRoot then current
        else current.delete directory).find other = current.find other := by
      split
      · rfl
      · rw [FileSystem.find_delete, if_neg fun both => isRoot both.2]
    rw [sameFind]
    by_cases below : directory <+: other
    · have nonempty : other ≠ [] := by
        rintro rfl
        exact isRoot (List.prefix_nil.mp below).symm
      rw [if_pos ⟨below, nonempty, fun _ => isRoot⟩, gone other below isRoot]
    · rw [if_neg fun both => below both.1,
        kept other fun both => below both.1]

omit [DecidableEq Content] in
theorem Erased.outside {keepRoot : Bool}
    (erased : Erased files next directory keepRoot) :
    Outside files next directory := by
  intro other notBelow
  rw [erased other, if_neg fun both => notBelow both.1]

/-- What a call on a tree does. -/
def Spec (listing : Listing) (directory : Path) (keepRoot : Bool)
    (files : FileSystem Content) (outcome : Outcome Content) : Prop :=
  (Readable listing directory files ∧
    ∃ next, outcome = .returned next ∧
      Erased files next directory keepRoot) ∨
  (¬Readable listing directory files ∧
    ∃ next, outcome = .nullPointerException next ∧
      Outside files next directory)

/-- The invariant of the loop over the names. -/
structure Emptied (listing : Listing) (files : FileSystem Content)
    (directory : Path) (done : List Name) (current : FileSystem Content) :
    Prop where
  cleared : Cleared files current directory done
  readable : ∀ name ∈ done, Readable listing (directory ++ [name]) files

omit [DecidableEq Content] in
/-- Step lemma: one more tree is deleted, or its deletion throws. -/
theorem Emptied.step {done : List Name} {name : Name}
    {outcome : Outcome Content}
    (emptied : Emptied listing files directory done current)
    (spec : Spec listing (directory ++ [name]) false current outcome) :
    (∃ next, outcome = .returned next ∧
      Emptied listing files directory (done ++ [name]) next) ∨
    ∃ next, outcome = .nullPointerException next ∧
      ¬Readable listing directory files ∧ Outside files next directory := by
  have cleared := emptied.cleared
  rcases spec with ⟨readable, next, returned, erased⟩ |
      ⟨notReadable, next, threw, outside⟩
  · refine Or.inl ⟨next, returned, cleared.concat erased, ?_⟩
    intro child isDone
    rcases List.mem_append.mp isDone with earlier | isLast
    · exact emptied.readable child earlier
    · rw [List.mem_singleton.mp isLast]
      by_cases again : name ∈ done
      · exact emptied.readable name again
      · intro other below isDirectory
        apply readable other below
        rw [cleared.find_of_below again below, isDirectory]
  · refine Or.inr ⟨next, threw, fun readable => notReadable ?_, ?_⟩
    · intro other below isDirectory
      refine readable other ((List.prefix_append _ _).trans below) ?_
      rw [← cleared.find_of_ne_none (by simp [isDirectory]), isDirectory]
    · intro other notBelow
      rw [outside other fun below =>
        notBelow ((List.prefix_append _ _).trans below), cleared other, if_neg]
      intro ⟨earlier, _, below⟩
      exact notBelow ((List.prefix_append _ _).trans below)

omit [DecidableEq Content] in
theorem Shallow.child {name : Name}
    (shallow : Shallow files directory (depth + 1))
    (cleared : ∀ other, current.find other ≠ none →
      current.find other = files.find other)
    (exists_ : files.find (directory ++ [name]) ≠ none) :
    Shallow current (directory ++ [name]) depth := by
  have atChild := shallow.2 _ (List.prefix_append _ _) exists_
  rw [List.length_append, List.length_singleton] at atChild
  refine ⟨by omega, fun other below isOther => ?_⟩
  have bound := shallow.2 other ((List.prefix_append _ _).trans below)
    (cleared other isOther ▸ isOther)
  rw [List.length_append, List.length_singleton]
  omega

omit [DecidableEq Content] in
/-- A directory can be listed, and so can those below its names. -/
theorem readable_of_names {names : List Name}
    (listed : listing.readable directory = true)
    (complete : ∀ name, files.find (directory ++ [name]) ≠ none →
      name ∈ names)
    (readable : ∀ name ∈ names,
      Readable listing (directory ++ [name]) files) :
    Readable listing directory files := by
  rintro other ⟨rest, rfl⟩ isDirectory
  cases rest with
  | nil => rwa [List.append_nil]
  | cons name rest =>
      have found : files.find (directory ++ name :: rest) ≠ none := by
        simp [isDirectory]
      have exists_ := files.find_next found
      exact readable name (complete name exists_) _ ⟨rest, by simp⟩
        isDirectory

omit [DecidableEq Content] in
theorem erased_of_absent {keepRoot : Bool}
    (absent : files.find directory = none) :
    Erased files files directory keepRoot := by
  intro other
  split
  · next inTree =>
      obtain ⟨rest, rfl⟩ := inTree.1
      by_cases isRoot : rest = []
      · rw [isRoot, List.append_nil, absent]
      · exact files.find_eq_none_of_append (by simp [absent]) isRoot
  · rfl

/-- Spec lemma: by induction on the depth of the recursion. -/
theorem onDelWithin_spec (keepRoot : Bool)
    (shallow : Shallow files directory depth) :
    Spec listing directory keepRoot files
      (onDelWithin listing depth directory keepRoot files) := by
  induction depth generalizing files directory keepRoot with
  | zero => exact absurd shallow.1 (Nat.lt_irrefl 0)
  | succ depth inductionHypothesis =>
      rw [onDelWithin]
      by_cases isDirectory : files.find directory = some .directory
      · have present : files.find directory ≠ none := by simp [isDirectory]
        rw [if_pos present, if_pos isDirectory, Listing.listFiles]
        by_cases listed : listing.readable directory = true
        · rw [if_pos listed]
          have isName : ∀ name,
              name ∈ listing.arrange directory (files.list directory) ↔
                files.find (directory ++ [name]) ≠ none := by
            intro name
            rw [(listing.arrange_perm _ _).mem_iff, files.mem_list_iff]
          have step : ∀ done name rest current,
              listing.arrange directory (files.list directory) =
                  done ++ name :: rest →
                Emptied listing files directory done current → _ :=
            fun done name rest current whole emptied =>
              emptied.step (inductionHypothesis false (shallow.child
                (fun _ => emptied.cleared.find_of_ne_none)
                ((isName name).mp (by simp [whole]))))
          have start : Emptied listing files directory [] files :=
            ⟨fun other => by simp, fun name isDone =>
              absurd isDone List.not_mem_nil⟩
          rcases forEach_cases step start with
            ⟨next, returned, emptied⟩ | ⟨next, threw, notReadable, outside⟩
          · simp only [returned]
            refine Or.inl ⟨?_, _, rfl, ?_⟩
            · exact readable_of_names listed (fun name => (isName name).mpr)
                emptied.readable
            · exact erased_of_cleared emptied.cleared
                fun name => (isName name).mpr
          · simp only [threw]
            exact Or.inr ⟨notReadable, next, rfl, outside⟩
        · rw [if_neg listed]
          refine Or.inr ⟨fun readable => listed ?_, files, rfl, fun _ _ => rfl⟩
          exact readable directory List.prefix_rfl isDirectory
      · have readable : Readable listing directory files := by
          rintro other ⟨rest, rfl⟩ found
          exact absurd (files.directory_of_append found) isDirectory
        refine Or.inl ⟨readable, ?_⟩
        rw [if_neg isDirectory]
        by_cases present : files.find directory ≠ none
        · rw [if_pos present]
          have untouched : Cleared files files directory [] :=
            fun other => by simp
          exact ⟨_, rfl, erased_of_cleared untouched fun name exists_ =>
            absurd (files.parents directory name exists_) isDirectory⟩
        · rw [if_neg present]
          exact ⟨files, rfl, erased_of_absent (not_not.mp present)⟩

end Recursion

/-! ## `onDel` -/

section OnDel

variable (listing : Listing) (directory : Path)

theorem onDel_spec (keepRoot : Bool) (files : FileSystem Content) :
    Spec listing directory keepRoot files
      (onDel listing (some directory) keepRoot files) := by
  refine onDelWithin_spec keepRoot ⟨Nat.succ_pos _, fun other _ exists_ => ?_⟩
  have bound := FileSystem.length_le_height exists_
  omega

theorem erases_iff (keepRoot : Bool) (files : FileSystem Content) :
    Erases listing directory keepRoot files ↔
      Readable listing directory files := by
  have spec := onDel_spec listing directory keepRoot files
  constructor
  · intro ⟨next, returned, _⟩
    rcases spec with ⟨readable, _⟩ | ⟨_, _, threw, _⟩
    · exact readable
    · rw [returned] at threw
      cases threw
  · intro readable
    rcases spec with ⟨_, erases⟩ | ⟨notReadable, _⟩
    · exact erases
    · exact absurd readable notReadable

/-- The root of a tree that is a directory is not kept. -/
theorem erasesByDefault_iff (files : FileSystem Content) :
    ErasesByDefault listing directory files ↔
      Readable listing directory files ∧
        (files.find directory = some .directory → directory = []) := by
  have spec := onDel_spec listing directory false files
  constructor
  · intro ⟨next, returned, erased⟩
    rcases spec with ⟨readable, other, isOther, deleted⟩ | ⟨_, _, threw, _⟩
    · rw [onDelDefault, isOther] at returned
      cases returned
      refine ⟨readable, fun isDirectory => ?_⟩
      by_contra below
      have kept := erased directory
      rw [deleted directory] at kept
      simp [isDirectory, below] at kept
    · rw [onDelDefault, threw] at returned
      cases returned
  · intro ⟨readable, isRoot⟩
    rcases spec with ⟨_, next, returned, erased⟩ | ⟨notReadable, _⟩
    · refine ⟨next, returned, fun other => ?_⟩
      rw [erased other]
      by_cases isDirectory : files.find directory = some .directory
      · have same := isRoot isDirectory
        simp [same]
      · simp [isDirectory]
    · exact absurd readable notReadable

theorem onDel_outside (keepRoot : Bool) (files : FileSystem Content) :
    Outside files (onDel listing (some directory) keepRoot files).files
      directory := by
  rcases onDel_spec listing directory keepRoot files with
    ⟨_, next, returned, erased⟩ | ⟨_, next, threw, outside⟩
  · rw [returned]
    exact erased.outside
  · rw [threw]
    exact outside

/-- A tree is deleted exactly if each of its directories can be listed, and
only what is no directory is deleted as documented by the form without
`keepRoot`; what lies outside the tree is never touched. -/
theorem onDel_iff_readable (files : FileSystem Content) :
    (∀ keepRoot, Erases listing directory keepRoot files ↔
      Readable listing directory files) ∧
    (ErasesByDefault listing directory files ↔
      Readable listing directory files ∧
        (files.find directory = some .directory → directory = [])) ∧
    ∀ keepRoot, Outside files
      (onDel listing (some directory) keepRoot files).files directory :=
  ⟨fun keepRoot => erases_iff listing directory keepRoot files,
    erasesByDefault_iff listing directory files,
    fun keepRoot => onDel_outside listing directory keepRoot files⟩

end OnDel

/-- Each directory but `/d/e` can be listed. -/
def unreadable : Listing :=
  ⟨fun path => path ≠ [['d'], ['e']], fun _ names => names,
    fun _ names => .refl names⟩

def twoDirectories : FileSystem Unit :=
  (FileSystem.empty.mkdir [['d']]).mkdir [['d'], ['e']]

theorem directories_not_erased :
    ¬Erases unreadable [['d']] true twoDirectories ∧
      ¬ErasesByDefault unreadable [['d']] (FileSystem.empty.mkdir [['d']] :
        FileSystem Unit) := by
  constructor
  · rw [erases_iff]
    intro readable
    have isDirectory : twoDirectories.find [['d'], ['e']] =
        some .directory := by
      decide
    have listed := readable [['d'], ['e']] ⟨[['e']], rfl⟩ isDirectory
    exact absurd listed (by decide)
  · rw [erasesByDefault_iff]
    intro both
    exact absurd (both.2 (by decide)) (List.cons_ne_nil _ _)

end DripStone.FileUtils
