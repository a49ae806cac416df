import DripStone.Library.FileSystem

/-!
# Renaming the files of one folder

A loop over the listed names of a folder renames each selected file.  New
names and names that still wait for their turn can clash: a rename then
replaces the file in its way, or fails.
-/

namespace DripStone.Library

/-- The entries of one folder by their names. -/
abbrev Folder (κ Content : Type) := κ → Option (Entry Content)

/-- What `listFiles` returns: each name once, in some order. -/
structure Listing {κ Content : Type} (folder : Folder κ Content) where
  names : List κ
  nodup : names.Nodup
  complete : ∀ name, name ∈ names ↔ folder name ≠ none

namespace Folder

variable {κ Content : Type} [DecidableEq κ]

def move (folder : Folder κ Content) (source destination : κ) :
    Folder κ Content :=
  Function.update (Function.update folder source none) destination
    (folder source)

/-- `source.renameTo(destination)` for an existing file.  It depends on the
platform whether a file at the destination is replaced. -/
def renameTo (replaces : Bool) (folder : Folder κ Content)
    (source destination : κ) : Folder κ Content :=
  match folder destination with
  | none => folder.move source destination
  | some (.file _) =>
      if replaces then folder.move source destination else folder
  | some .directory => folder

section Loop

variable (replaces : Bool) (selects : κ → Bool) (target : κ → κ)

def renameFile (folder : Folder κ Content) (name : κ) : Folder κ Content :=
  match folder name with
  | some (.file _) =>
      if selects name then folder.renameTo replaces name (target name)
      else folder
  | _ => folder

def renameFiles (folder : Folder κ Content) (names : List κ) :
    Folder κ Content :=
  names.foldl (renameFile replaces selects target) folder

end Loop

/-- A file that the loop renames. -/
def Selected (folder : Folder κ Content) (selects : κ → Bool) (name : κ) :
    Prop :=
  selects name = true ∧ ∃ content, folder name = some (.file content)

variable {replaces : Bool} {selects : κ → Bool} {target : κ → κ}
variable {folder : Folder κ Content} {name other : κ}

/-! ## One turn -/

/-- A turn changes nothing, or it moves the file. -/
theorem renameFile_cases (replaces : Bool) (selects : κ → Bool)
    (target : κ → κ) (folder : Folder κ Content) (name : κ) :
    folder.renameFile replaces selects target name = folder ∨
      folder.Selected selects name ∧
        folder (target name) ≠ some .directory ∧
        folder.renameFile replaces selects target name =
          folder.move name (target name) := by
  rw [renameFile]
  split
  · next content atName =>
      split
      · next selected =>
          rw [renameTo]
          split
          · next free =>
              exact Or.inr ⟨⟨selected, content, atName⟩, by simp [free], rfl⟩
          · next blocking atTarget =>
              split
              · exact Or.inr ⟨⟨selected, content, atName⟩,
                  by simp [atTarget], rfl⟩
              · exact Or.inl rfl
          · exact Or.inl rfl
      · exact Or.inl rfl
  · exact Or.inl rfl

theorem renameFile_of_not_selected
    (notSelected : ¬ folder.Selected selects name) :
    folder.renameFile replaces selects target name = folder := by
  rcases renameFile_cases replaces selects target folder name with
    same | ⟨selected, _, _⟩
  · exact same
  · exact absurd selected notSelected

theorem renameFile_of_free (selected : folder.Selected selects name)
    (free : folder (target name) = none) :
    folder.renameFile replaces selects target name =
      folder.move name (target name) := by
  obtain ⟨chosen, content, atName⟩ := selected
  simp only [renameFile, atName, chosen, if_true, renameTo, free]

theorem move_destination (folder : Folder κ Content) (source destination : κ) :
    folder.move source destination destination = folder source :=
  Function.update_self ..

theorem move_source {source destination : κ} (moves : source ≠ destination) :
    folder.move source destination source = none := by
  rw [move, Function.update_of_ne moves, Function.update_self]

theorem move_of_ne {source destination : κ} (notSource : other ≠ source)
    (notDestination : other ≠ destination) :
    folder.move source destination other = folder other := by
  rw [move, Function.update_of_ne notDestination,
    Function.update_of_ne notSource]

/-- Folders inside the folder stay where they are. -/
theorem renameFile_directory :
    folder.renameFile replaces selects target name other =
        some .directory ↔ folder other = some .directory := by
  rcases renameFile_cases replaces selects target folder name with
    same | ⟨⟨_, content, atName⟩, noDirectory, moved⟩
  · rw [same]
  · rw [moved]
    by_cases atDestination : other = target name
    · rw [atDestination, move_destination, atName]
      simp [noDirectory]
    · by_cases atSource : other = name
      · rw [atSource, move_source (atSource ▸ atDestination), atName]
        simp
      · rw [move_of_ne atSource atDestination]

/-- A file that has no turn can be replaced, but does not vanish. -/
theorem renameFile_isFile (isOther : other ≠ name)
    (isFile : ∃ content, folder other = some (.file content)) :
    ∃ content, folder.renameFile replaces selects target name other =
      some (.file content) := by
  rcases renameFile_cases replaces selects target folder name with
    same | ⟨⟨_, content, atName⟩, _, moved⟩
  · rwa [same]
  · rw [moved]
    by_cases atDestination : other = target name
    · exact ⟨content, by rw [atDestination, move_destination, atName]⟩
    · rwa [move_of_ne isOther atDestination]

theorem renameFile_untouched (isOther : other ≠ name)
    (notTarget : folder.Selected selects name → target name ≠ other) :
    folder.renameFile replaces selects target name other = folder other := by
  rcases renameFile_cases replaces selects target folder name with
    same | ⟨selected, _, moved⟩
  · rw [same]
  · rw [moved, move_of_ne isOther (notTarget selected).symm]

/-! ## A run of the loop -/

theorem renameFiles_cons (names : List κ) :
    folder.renameFiles replaces selects target (name :: names) =
      (folder.renameFile replaces selects target name).renameFiles replaces
        selects target names :=
  rfl

theorem renameFiles_append (initial rest : List κ) :
    folder.renameFiles replaces selects target (initial ++ rest) =
      (folder.renameFiles replaces selects target initial).renameFiles
        replaces selects target rest :=
  List.foldl_append

theorem renameFiles_directory (names : List κ) :
    folder.renameFiles replaces selects target names other =
        some .directory ↔ folder other = some .directory := by
  induction names generalizing folder with
  | nil => rfl
  | cons name names inductionHypothesis =>
      rw [renameFiles_cons, inductionHypothesis, renameFile_directory]

theorem renameFiles_isFile {names : List κ} (noTurn : other ∉ names)
    (isFile : ∃ content, folder other = some (.file content)) :
    ∃ content, folder.renameFiles replaces selects target names other =
      some (.file content) := by
  induction names generalizing folder with
  | nil => exact isFile
  | cons name names inductionHypothesis =>
      rw [List.mem_cons, not_or] at noTurn
      exact inductionHypothesis noTurn.2 (renameFile_isFile noTurn.1 isFile)

/-- A name that has no turn and is no new name keeps its entry. -/
theorem renameFiles_untouched {names : List κ} (noTurn : other ∉ names)
    (notTarget : ∀ name ∈ names, selects name = true →
      folder name ≠ some .directory → target name ≠ other) :
    folder.renameFiles replaces selects target names other =
      folder other := by
  induction names generalizing folder with
  | nil => rfl
  | cons name names inductionHypothesis =>
      rw [List.mem_cons, not_or] at noTurn
      rw [renameFiles_cons, inductionHypothesis noTurn.2]
      · apply renameFile_untouched noTurn.1
        rintro ⟨chosen, content, atName⟩
        exact notTarget name List.mem_cons_self chosen (by simp [atName])
      · intro later inRest chosen noDirectory
        apply notTarget later (List.mem_cons_of_mem name inRest) chosen
        rwa [Ne, ← renameFile_directory]

/-- A file comes from its own name or from a selected one. -/
theorem renameFiles_origin {names : List κ} {content : Content}
    (isFile : folder.renameFiles replaces selects target names other =
      some (.file content)) :
    ∃ name, folder name = some (.file content) ∧
      (name = other ∨ selects name = true) := by
  induction names generalizing folder with
  | nil => exact ⟨other, isFile, Or.inl rfl⟩
  | cons name names inductionHypothesis =>
      obtain ⟨source, found, isSource⟩ := inductionHypothesis isFile
      rcases renameFile_cases replaces selects target folder name with
        same | ⟨⟨chosen, _⟩, _, moved⟩
      · exact ⟨source, same ▸ found, isSource⟩
      · rw [moved] at found
        by_cases atDestination : source = target name
        · rw [atDestination, move_destination] at found
          exact ⟨name, found, Or.inr chosen⟩
        · by_cases atSource : source = name
          · rw [atSource, move_source (atSource ▸ atDestination)] at found
            cases found
          · rw [move_of_ne atSource atDestination] at found
            exact ⟨source, found, isSource⟩

/-! ## Which listings are renamed as intended -/

section Intended

variable (replaces : Bool) (selects : κ → Bool) (target : κ → κ)
variable (before : Folder κ Content) (listing : Listing before)

/-- Every selected file ends under its new name. -/
def Stored : Prop :=
  ∀ name content, before name = some (.file content) →
    selects name = true →
    before.renameFiles replaces selects target listing.names
      (target name) = some (.file content)

/-- The first name is listed, and before the second one. -/
def ListedBefore (names : List κ) (first second : κ) : Prop :=
  names.idxOf first < names.idxOf second

/-- Where the new name of a file is taken, it is taken by a file that is
listed earlier. -/
def Ordered : Prop :=
  ∀ name, before.Selected selects name →
    before (target name) ≠ some .directory ∧
      ∀ content, before (target name) = some (.file content) →
        ListedBefore listing.names (target name) name

/-- The new names are new, selected and different from each other. -/
structure Spreading (size : κ → Nat) : Prop where
  grows : ∀ name, before.Selected selects name → size name < size (target name)
  closed : ∀ name, before.Selected selects name →
    selects (target name) = true
  injective : ∀ first second, before.Selected selects first →
    before.Selected selects second → target first = target second →
    first = second

end Intended

variable {before : Folder κ Content} {listing : Listing before}
variable {size : κ → Nat}

omit [DecidableEq κ] in
theorem Spreading.ne (spreading : Spreading selects target before size)
    (selected : before.Selected selects name) : name ≠ target name := by
  intro same
  have grows := spreading.grows name selected
  rw [← same] at grows
  exact lt_irrefl _ grows

omit [DecidableEq κ] in
theorem Selected.mem_names (listing : Listing before)
    (selected : before.Selected selects name) : name ∈ listing.names := by
  obtain ⟨_, content, atName⟩ := selected
  exact (listing.complete name).mpr (by simp [atName])

theorem ListedBefore.mem {initial names : List κ} {first second : κ}
    (isInitial : initial <+: names) (inside : second ∈ initial)
    (earlier : ListedBefore names first second) :
    first ∈ initial := by
  have sameIndex := isInitial.idxOf_eq_of_mem inside
  have short := List.idxOf_lt_length_of_mem inside
  rw [ListedBefore] at earlier
  exact (isInitial.mem_iff_idxOf_lt_length first).mpr (by omega)

/-- In a sorted listing the earlier name is the smaller one. -/
theorem ListedBefore.rel {names : List κ} {smaller : κ → κ → Prop}
    {first second : κ} (sorted : names.Pairwise smaller)
    (listed : second ∈ names) (earlier : ListedBefore names first second) :
    smaller first second := by
  have inside := List.idxOf_lt_length_of_mem listed
  have ordered := List.pairwise_iff_getElem.mp sorted _ _
    (Nat.lt_trans earlier inside) inside earlier
  rwa [List.getElem_idxOf, List.getElem_idxOf] at ordered

/-! ### From the order to the files -/

/-- Where an entry is, when the files at some names have had their turn. -/
def place (selects : κ → Bool) (target : κ → κ) (done : List κ)
    (entry : Entry Content) (name : κ) : κ :=
  match entry with
  | .file _ => if selects name = true ∧ name ∈ done then target name else name
  | .directory => name

theorem place_of_notMem (selects : κ → Bool) (target : κ → κ) {done : List κ}
    (entry : Entry Content) (notDone : name ∉ done) :
    place selects target done entry name = name := by
  cases entry with
  | file content => exact if_neg fun moved => notDone moved.2
  | directory => rfl

theorem place_of_selected (target : κ → κ) {done : List κ}
    {entry : Entry Content} (selected : before.Selected selects name)
    (atName : before name = some entry) (inDone : name ∈ done) :
    place selects target done entry name = target name := by
  obtain ⟨chosen, content, isFile⟩ := selected
  have isEntry : entry = .file content := by
    rw [atName] at isFile
    exact Option.some_inj.mp isFile
  rw [isEntry]
  exact if_pos ⟨chosen, inDone⟩

theorem place_of_not_selected (target : κ → κ) (done : List κ)
    {entry : Entry Content} (notSelected : ¬ before.Selected selects name)
    (atName : before name = some entry) :
    place selects target done entry name = name := by
  cases entry with
  | file content =>
      exact if_neg fun moved => notSelected ⟨moved.1, content, atName⟩
  | directory => rfl

/-- Another name's turn does not move an entry. -/
theorem place_append_singleton {done : List κ} {entry : Entry Content}
    (isOther : other ≠ name) :
    place selects target (done ++ [name]) entry other =
      place selects target done entry other := by
  cases entry with
  | file content => simp [place, isOther]
  | directory => rfl

/-- An entry that has not moved is in nobody's way. -/
theorem Ordered.free (ordered : Ordered selects target before listing)
    (spreading : Spreading selects target before size) {done : List κ}
    (isInitial : done <+: listing.names) {first second : κ}
    {atSecond : Entry Content} (moved : before.Selected selects first)
    (inDone : first ∈ done) (found : before second = some atSecond)
    (unmoved : ¬ (before.Selected selects second ∧ second ∈ done)) :
    target first ≠ second := by
  intro taken
  obtain ⟨noDirectory, earlier⟩ := ordered first moved
  rw [taken] at noDirectory earlier
  cases atSecond with
  | directory => exact noDirectory found
  | file content =>
      have chosen := spreading.closed first moved
      rw [taken] at chosen
      exact unmoved ⟨⟨chosen, content, found⟩,
        (earlier content found).mem isInitial inDone⟩

theorem place_of_unmoved (target : κ → κ) {done : List κ}
    {entry : Entry Content} (atName : before name = some entry)
    (unmoved : ¬ (before.Selected selects name ∧ name ∈ done)) :
    place selects target done entry name = name := by
  by_cases selected : before.Selected selects name
  · exact place_of_notMem selects target entry
      fun inDone => unmoved ⟨selected, inDone⟩
  · exact place_of_not_selected target done selected atName

/-- No two entries come to the same name. -/
theorem Ordered.place_injective
    (ordered : Ordered selects target before listing)
    (spreading : Spreading selects target before size) {done : List κ}
    (isInitial : done <+: listing.names) {first second : κ}
    {atFirst atSecond : Entry Content}
    (foundFirst : before first = some atFirst)
    (foundSecond : before second = some atSecond)
    (same : place selects target done atFirst first =
      place selects target done atSecond second) :
    first = second := by
  by_cases movedFirst : before.Selected selects first ∧ first ∈ done
  · rw [place_of_selected target movedFirst.1 foundFirst movedFirst.2] at same
    by_cases movedSecond : before.Selected selects second ∧ second ∈ done
    · rw [place_of_selected target movedSecond.1 foundSecond
        movedSecond.2] at same
      exact spreading.injective first second movedFirst.1 movedSecond.1 same
    · rw [place_of_unmoved target foundSecond movedSecond] at same
      exact absurd same (ordered.free spreading isInitial movedFirst.1
        movedFirst.2 foundSecond movedSecond)
  · rw [place_of_unmoved target foundFirst movedFirst] at same
    by_cases movedSecond : before.Selected selects second ∧ second ∈ done
    · rw [place_of_selected target movedSecond.1 foundSecond
        movedSecond.2] at same
      exact absurd same.symm (ordered.free spreading isInitial movedSecond.1
        movedSecond.2 foundFirst movedFirst)
    · rwa [place_of_unmoved target foundSecond movedSecond] at same

/-- The folder after the turns of the names in `done`. -/
def Placed (selects : κ → Bool) (target : κ → κ)
    (before : Folder κ Content) (done : List κ)
    (folder : Folder κ Content) : Prop :=
  ∀ name entry, folder name = some entry ↔
    ∃ former, before former = some entry ∧
      place selects target done entry former = name

section Turn

variable {done : List κ} {entry : Entry Content}

/-- A name that waits for its turn has the entry that it had at first. -/
theorem Placed.waiting (placed : Placed selects target before done folder)
    (notDone : name ∉ done) (found : before name = some entry) :
    folder name = some entry :=
  (placed name entry).mpr
    ⟨name, found, place_of_notMem selects target entry notDone⟩

theorem Placed.target_free (placed : Placed selects target before done folder)
    (ordered : Ordered selects target before listing)
    (spreading : Spreading selects target before size)
    (isInitial : done ++ [name] <+: listing.names) (notDone : name ∉ done)
    (selected : before.Selected selects name)
    (found : before name = some entry) :
    folder (target name) = none := by
  by_contra taken
  obtain ⟨blocking, atTarget⟩ := Option.ne_none_iff_exists'.mp taken
  obtain ⟨former, foundFormer, atFormer⟩ := (placed _ _).mp atTarget
  have behind : place selects target (done ++ [name]) entry name =
      target name :=
    place_of_selected target selected found (by simp)
  by_cases isName : former = name
  · rw [isName, place_of_notMem selects target blocking notDone] at atFormer
    exact spreading.ne selected atFormer
  · have same : place selects target (done ++ [name]) blocking former =
        place selects target (done ++ [name]) entry name := by
      rw [place_append_singleton isName, atFormer, behind]
    exact isName (ordered.place_injective spreading isInitial
      foundFormer found same)

theorem Placed.move (placed : Placed selects target before done folder)
    (ordered : Ordered selects target before listing)
    (spreading : Spreading selects target before size)
    (isInitial : done ++ [name] <+: listing.names) (notDone : name ∉ done)
    (selected : before.Selected selects name)
    (found : before name = some entry) :
    Placed selects target before (done ++ [name])
      (folder.move name (target name)) := by
  have isShorter : done <+: listing.names :=
    (List.prefix_append done [name]).trans isInitial
  have current := placed.waiting notDone found
  have behind : place selects target (done ++ [name]) entry name =
      target name :=
    place_of_selected target selected found (by simp)
  have inFront := place_of_notMem selects target entry notDone
  intro here atHere
  by_cases atTarget : here = target name
  · rw [atTarget, move_destination, current]
    constructor
    · intro same
      rw [← Option.some_inj.mp same]
      exact ⟨name, found, behind⟩
    · rintro ⟨former, foundFormer, atFormer⟩
      have isName : former = name := ordered.place_injective spreading
        isInitial foundFormer found (atFormer.trans behind.symm)
      rw [← found, ← isName, foundFormer]
  · by_cases atName : here = name
    · rw [atName, move_source (spreading.ne selected)]
      constructor
      · intro impossible
        cases impossible
      · rintro ⟨former, foundFormer, atFormer⟩
        have isName : former = name := by
          by_contra isOther
          rw [place_append_singleton isOther] at atFormer
          exact isOther (ordered.place_injective spreading isShorter
            foundFormer found (atFormer.trans inFront.symm))
        rw [isName] at foundFormer atFormer
        rw [found] at foundFormer
        rw [← Option.some_inj.mp foundFormer, behind] at atFormer
        exact absurd atFormer.symm (spreading.ne selected)
    · rw [move_of_ne atName atTarget, placed here atHere]
      refine exists_congr fun former => and_congr_right fun foundFormer => ?_
      by_cases isName : former = name
      · rw [isName] at foundFormer ⊢
        rw [place_of_notMem selects target atHere notDone,
          place_of_selected target selected foundFormer (by simp)]
        simp [Ne.symm atName, Ne.symm atTarget]
      · rw [place_append_singleton isName]

theorem Placed.stay (placed : Placed selects target before done folder)
    (notSelected : ¬ before.Selected selects name) :
    Placed selects target before (done ++ [name]) folder := by
  intro here atHere
  rw [placed here atHere]
  refine exists_congr fun former => and_congr_right fun foundFormer => ?_
  by_cases isName : former = name
  · rw [isName] at foundFormer ⊢
    rw [place_of_not_selected target _ notSelected foundFormer,
      place_of_not_selected target _ notSelected foundFormer]
  · rw [place_append_singleton isName]

theorem Placed.step (placed : Placed selects target before done folder)
    (ordered : Ordered selects target before listing)
    (spreading : Spreading selects target before size)
    (isInitial : done ++ [name] <+: listing.names) :
    Placed selects target before (done ++ [name])
      (folder.renameFile replaces selects target name) := by
  have notDone : name ∉ done := by
    have nodup := isInitial.sublist.nodup listing.nodup
    intro inDone
    exact (List.disjoint_of_nodup_append nodup) inDone
      (List.mem_singleton_self name)
  have inNames : name ∈ listing.names :=
    isInitial.subset (List.mem_append_right done (List.mem_singleton_self _))
  obtain ⟨entry, found⟩ :=
    Option.ne_none_iff_exists'.mp ((listing.complete name).mp inNames)
  have current := placed.waiting notDone found
  have sameKind : folder.Selected selects name ↔
      before.Selected selects name := by
    rw [Selected, Selected, current, found]
  by_cases selected : before.Selected selects name
  · rw [renameFile_of_free (sameKind.mpr selected)
      (placed.target_free ordered spreading isInitial notDone selected found)]
    exact placed.move ordered spreading isInitial notDone selected found
  · rw [renameFile_of_not_selected (mt sameKind.mp selected)]
    exact placed.stay selected

end Turn

/-- The loop puts each entry where it belongs. -/
theorem Ordered.placed (ordered : Ordered selects target before listing)
    (spreading : Spreading selects target before size) {done : List κ}
    (isInitial : done <+: listing.names) :
    Placed selects target before done
      (before.renameFiles replaces selects target done) := by
  induction done using List.reverseRecOn with
  | nil =>
      intro here atHere
      constructor
      · intro found
        exact ⟨here, found,
          place_of_notMem selects target atHere List.not_mem_nil⟩
      · rintro ⟨former, found, atFormer⟩
        rw [place_of_notMem selects target atHere List.not_mem_nil] at atFormer
        rwa [← atFormer]
  | append_singleton done name inductionHypothesis =>
      have isShorter : done <+: listing.names :=
        (List.prefix_append done [name]).trans isInitial
      rw [renameFiles_append]
      exact (inductionHypothesis isShorter).step ordered spreading isInitial

theorem Ordered.stored (ordered : Ordered selects target before listing)
    (spreading : Spreading selects target before size) :
    Stored replaces selects target before listing := by
  intro name content atName chosen
  have selected : before.Selected selects name := ⟨chosen, content, atName⟩
  exact (ordered.placed spreading List.prefix_rfl _ _).mpr
    ⟨name, atName, place_of_selected target selected atName
      (selected.mem_names listing)⟩

/-! ### From the files to the order -/

omit [DecidableEq κ] in
/-- No property of listed names goes from each name to a longer one. -/
theorem not_of_grows {names : List κ} {holds : κ → Prop} {next : κ → κ}
    {size : κ → Nat} (inside : ∀ name, holds name → name ∈ names)
    (grows : ∀ name, holds name → size name < size (next name))
    (goesOn : ∀ name, holds name → holds (next name)) (name : κ) :
    ¬ holds name := by
  intro first
  have chain : ∀ length, ∃ last, length ≤ size last ∧ holds last := by
    intro length
    induction length with
    | zero => exact ⟨name, Nat.zero_le _, first⟩
    | succ length inductionHypothesis =>
        obtain ⟨last, long, found⟩ := inductionHypothesis
        have longer := grows last found
        exact ⟨next last, by omega, goesOn last found⟩
  obtain ⟨last, long, found⟩ := chain ((names.map size).sum + 1)
  have bound := List.single_le_sum (l := names.map size)
    (fun _ _ => Nat.zero_le _) (size last)
    (List.mem_map_of_mem (inside last found))
  omega

/-- At its turn the new name of the file is taken, and stays taken. -/
def Blocked (replaces : Bool) (selects : κ → Bool) (target : κ → κ)
    (before : Folder κ Content) (names : List κ) (name : κ) : Prop :=
  ∃ initial rest, names = initial ++ name :: rest ∧
    before.Selected selects name ∧
    before.renameFiles replaces selects target initial (target name) ≠ none ∧
    before.renameFiles replaces selects target (initial ++ [name]) =
      before.renameFiles replaces selects target initial

/-- A selected file is moved at its turn, if it is not blocked. -/
theorem moved_of_not_blocked {names initial rest : List κ}
    (split : names = initial ++ name :: rest)
    (nodup : names.Nodup) (selected : before.Selected selects name)
    (notBlocked : ¬ Blocked replaces selects target before names name) :
    before.renameFiles replaces selects target (initial ++ [name]) =
      (before.renameFiles replaces selects target initial).move name
        (target name) := by
  have notEarlier : name ∉ initial := by
    rw [split] at nodup
    intro inInitial
    exact (List.disjoint_of_nodup_append nodup) inInitial
      List.mem_cons_self
  have selectedNow : (before.renameFiles replaces selects target
      initial).Selected selects name :=
    ⟨selected.1, renameFiles_isFile notEarlier selected.2⟩
  rcases renameFile_cases replaces selects target
      (before.renameFiles replaces selects target initial) name with
    same | ⟨_, _, moved⟩
  · by_cases free : before.renameFiles replaces selects target initial
        (target name) = none
    · rw [renameFiles_append]
      exact renameFile_of_free selectedNow free
    · refine absurd ⟨initial, rest, split, selected, free, ?_⟩ notBlocked
      rwa [renameFiles_append]
  · rwa [renameFiles_append]

/-- A name keeps its entry, while it has no turn and no file is renamed to
it. -/
theorem renameFiles_append_untouched {done later : List κ}
    (inside : later ⊆ listing.names) (noTurn : other ∉ later)
    (notTarget : ∀ name ∈ later, before.Selected selects name →
      target name ≠ other) :
    before.renameFiles replaces selects target (done ++ later) other =
      before.renameFiles replaces selects target done other := by
  rw [renameFiles_append]
  apply renameFiles_untouched noTurn
  intro name inLater chosen noDirectory
  rw [Ne, renameFiles_directory] at noDirectory
  have present := (listing.complete name).mp (inside inLater)
  apply notTarget name inLater
  refine ⟨chosen, ?_⟩
  cases found : before name with
  | none => exact absurd found present
  | some entry =>
      cases entry with
      | file content => exact ⟨content, rfl⟩
      | directory => exact absurd found noDirectory

/-- Where a file has left its name, the name stays free until a file is
renamed to it. -/
theorem free_after_turn {initial later rest : List κ}
    (spreading : Spreading selects target before size)
    (split : listing.names = initial ++ name :: (later ++ rest))
    (selected : before.Selected selects name)
    (notBlocked :
      ¬ Blocked replaces selects target before listing.names name)
    (notTarget : ∀ other ∈ later, before.Selected selects other →
      target other ≠ name) :
    before.renameFiles replaces selects target
      (initial ++ name :: later) name = none := by
  have nodup := listing.nodup
  rw [split] at nodup
  have notLater : name ∉ later := by
    have behind := (List.nodup_append.mp nodup).2.1
    exact fun inLater => (List.nodup_cons.mp behind).1
      (List.mem_append_left rest inLater)
  have inside : later ⊆ listing.names := by
    rw [split]
    intro other inLater
    simp [inLater]
  have regrouped : initial ++ name :: later = initial ++ [name] ++ later := by
    simp
  rw [regrouped, renameFiles_append_untouched inside notLater notTarget,
    moved_of_not_blocked split listing.nodup selected notBlocked,
    move_source (spreading.ne selected)]

/-- A file that is blocked is blocked by one that is blocked. -/
theorem Stored.blocked_target
    (stored : Stored replaces selects target before listing)
    (spreading : Spreading selects target before size)
    (blocked : Blocked replaces selects target before listing.names name) :
    Blocked replaces selects target before listing.names (target name) := by
  obtain ⟨initial, rest, split, selected, taken, _⟩ := blocked
  have nodup := listing.nodup
  rw [split] at nodup
  have notEarlier : name ∉ initial := fun inInitial =>
    (List.disjoint_of_nodup_append nodup) inInitial List.mem_cons_self
  have notLater : name ∉ rest :=
    (List.nodup_cons.mp (List.nodup_append.mp nodup).2.1).1
  obtain ⟨chosen, content, atName⟩ := selected
  have atTarget := stored name content atName chosen
  have isSource : ∀ other, before.Selected selects other →
      target other = target name → other = name := fun other isSelected =>
    spreading.injective other name isSelected ⟨chosen, content, atName⟩
  have notTarget : ∀ other ∈ initial, before.Selected selects other →
      target other ≠ target name := by
    intro other inInitial isSelected same
    exact notEarlier (isSource other isSelected same ▸ inInitial)
  have present : target name ∈ listing.names := by
    by_contra absent
    have free : before (target name) = none := by
      by_contra found
      exact absent ((listing.complete _).mpr found)
    have inside : initial ⊆ listing.names := by
      rw [split]
      exact List.subset_append_left initial _
    have untouched := @renameFiles_append_untouched _ _ _ replaces selects
      target _ before listing [] initial inside
      (fun inInitial => absent (inside inInitial)) notTarget
    exact taken (untouched.trans free)
  have targetSelected : before.Selected selects (target name) := by
    refine ⟨spreading.closed name ⟨chosen, content, atName⟩, ?_⟩
    cases found : before (target name) with
    | none => exact absurd found ((listing.complete _).mp present)
    | some entry =>
        cases entry with
        | file content => exact ⟨content, rfl⟩
        | directory =>
            rw [(renameFiles_directory _).mpr found] at atTarget
            cases atTarget
  have isNew := spreading.ne ⟨chosen, content, atName⟩
  by_contra notBlocked
  rw [split, List.mem_append, List.mem_cons] at present
  rcases present with inInitial | isName | inRest
  · -- the file at the new name has left it before
    obtain ⟨first, later, isInitial⟩ := List.append_of_mem inInitial
    have turns : listing.names =
        first ++ target name :: (later ++ name :: rest) := by
      rw [split, isInitial]
      simp
    rw [isInitial] at taken notTarget
    exact taken (free_after_turn spreading turns targetSelected notBlocked
      fun other inLater => notTarget other (by simp [inLater]))
  · exact isNew isName.symm
  · -- the file at the new name leaves it later, and takes nothing with it
    obtain ⟨first, later, isRest⟩ := List.append_of_mem inRest
    have turns : listing.names =
        (initial ++ name :: first) ++ target name :: (later ++ []) := by
      rw [split, isRest]
      simp
    have free := free_after_turn spreading turns targetSelected notBlocked
      (by
        intro other inLater isSelected same
        have isName := isSource other isSelected same
        exact notLater (by simp [isRest, ← isName, inLater]))
    rw [List.append_nil] at turns
    rw [← turns, atTarget] at free
    cases free

theorem Stored.not_blocked
    (stored : Stored replaces selects target before listing)
    (spreading : Spreading selects target before size) :
    ¬ Blocked replaces selects target before listing.names name := by
  have inside : ∀ last,
      Blocked replaces selects target before listing.names last →
        before.Selected selects last := by
    rintro last ⟨_, _, _, selected, _⟩
    exact selected
  exact not_of_grows
    (fun last blocked => (inside last blocked).mem_names listing)
    (fun last blocked => spreading.grows last (inside last blocked))
    (fun last blocked => stored.blocked_target spreading blocked) name

theorem Stored.ordered
    (stored : Stored replaces selects target before listing)
    (spreading : Spreading selects target before size) :
    Ordered selects target before listing := by
  intro name selected
  obtain ⟨chosen, content, atName⟩ := selected
  have atTarget := stored name content atName chosen
  refine ⟨?_, ?_⟩
  · intro directory
    rw [(renameFiles_directory _).mpr directory] at atTarget
    cases atTarget
  · intro other found
    have targetSelected : before.Selected selects (target name) :=
      ⟨spreading.closed name ⟨chosen, content, atName⟩, other, found⟩
    obtain ⟨initial, rest, split⟩ :=
      List.append_of_mem (targetSelected.mem_names listing)
    have isNew := spreading.ne ⟨chosen, content, atName⟩
    have nodup := listing.nodup
    rw [split] at nodup
    have notEarlier : target name ∉ initial := fun inInitial =>
      (List.disjoint_of_nodup_append nodup) inInitial List.mem_cons_self
    have notInitial : name ∉ initial := by
      intro inInitial
      have turns : listing.names =
          initial ++ target name :: (rest ++ []) := by
        rw [split, List.append_nil]
      have free := free_after_turn spreading turns targetSelected
        (stored.not_blocked spreading)
        (by
          intro other inRest isSelected same
          have isName := spreading.injective other name isSelected
            ⟨chosen, content, atName⟩ same
          exact (List.disjoint_of_nodup_append nodup) inInitial
            (by simp [← isName, inRest]))
      rw [← split, atTarget] at free
      cases free
    rw [ListedBefore, split, List.idxOf_append_of_notMem notEarlier,
      List.idxOf_append_of_notMem notInitial, List.idxOf_cons_eq _ rfl,
      List.idxOf_cons_ne _ isNew.symm]
    omega

theorem stored_iff_ordered
    (spreading : Spreading selects target before size) :
    Stored replaces selects target before listing ↔
      Ordered selects target before listing :=
  ⟨fun stored => stored.ordered spreading,
    fun ordered => ordered.stored spreading⟩

end Folder

/-! ## The folder at a path -/

section OnDisk

open FileSystem

variable {Content : Type} [DecidableEq Content]
variable {files : FileSystem Content} {path : Path}

def folderAt (files : FileSystem Content) (path : Path) :
    Folder Name Content :=
  fun name => files.find (path ++ [name])

omit [DecidableEq Content] in
/-- The names of a directory, in any order. -/
def listingAt (files : FileSystem Content) (path : Path) {names : List Name}
    (perm : names.Perm (files.list path)) :
    Listing (folderAt files path) where
  names := names
  nodup := perm.nodup_iff.mpr (files.nodup_list path)
  complete := fun _ => perm.mem_iff.trans (files.mem_list_iff path _)

omit [DecidableEq Content] in
theorem open_child {name : Name}
    (isDirectory : files.find path = some .directory) (plain : Plain name)
    (noDirectory : files.find (path ++ [name]) ≠ some .directory) :
    files.Open (path ++ [name]) := by
  refine ⟨by simp, ?_, ?_, noDirectory⟩
  · rwa [List.dropLast_concat]
  · simpa using plain

/-- A file of a directory gets another name in it. -/
theorem find_renameFile_child {replaces : Bool} {source destination : Name}
    (isDirectory : files.find path = some .directory)
    (isFile : ∃ content, files.find (path ++ [source]) = some (.file content))
    (plain : Plain destination) :
    let renamed := files.renameFile replaces (path ++ [source])
      (path ++ [destination])
    folderAt renamed path =
        (folderAt files path).renameTo replaces source destination ∧
      ∀ other, (∀ name, other ≠ path ++ [name]) →
        renamed.find other = files.find other := by
  obtain ⟨content, isFile⟩ := isFile
  have inject : ∀ name other : Name,
      path ++ [name] = path ++ [other] ↔ name = other := by simp
  by_cases isOpen : files.Open (path ++ [destination]) ∧
      (replaces = true ∨ files.find (path ++ [destination]) = none)
  · have moved := find_renameFile isFile isOpen.1 isOpen.2
    have renamed : (folderAt files path).renameTo replaces source
        destination = (folderAt files path).move source destination := by
      rw [Folder.renameTo]
      cases atDestination : folderAt files path destination with
      | none => rfl
      | some entry =>
          cases entry with
          | directory => exact absurd atDestination isOpen.1.2.2.2
          | file other =>
              have present := isOpen.2.resolve_right (by
                rw [folderAt] at atDestination
                simp [atDestination])
              simp only [present, if_true]
    refine ⟨?_, fun other notHere => ?_⟩
    · rw [renamed]
      funext name
      simp only [folderAt, moved, inject, Folder.move,
        Function.update_apply, isFile]
    · rw [moved, if_neg (notHere destination), if_neg (notHere source)]
  · have same := @renameFile_of_closed _ _ replaces files (path ++ [source])
      _ isOpen
    refine ⟨?_, fun other _ => by rw [same]⟩
    rw [same, Folder.renameTo]
    cases atDestination : folderAt files path destination with
    | none =>
        have free : files.find (path ++ [destination]) = none :=
          atDestination
        refine absurd ⟨open_child isDirectory plain ?_, Or.inr free⟩ isOpen
        simp [free]
    | some entry =>
        cases entry with
        | directory => rfl
        | file other =>
            have found : files.find (path ++ [destination]) =
              some (.file other) := atDestination
            have kept : ¬replaces = true := fun replacing =>
              isOpen ⟨open_child isDirectory plain (by simp [found]),
                Or.inl replacing⟩
            simp only [kept, Bool.false_eq_true, if_false]

end OnDisk

end DripStone.Library
