import DripStone.Library.Renaming

/-!
# Renaming the dex files

Each dex file at the top of the unzipped application gets a new name, so that
the shell can take the name `classes.dex`.  The new name is cut at the first
`.dex` in the old one, and the files are renamed while others still have
their old names.
-/

namespace DripStone.Reinforce

open DripStone.Library

/-! ## `DexReinforce.main` -/

/-- `".dex"` -/
def dexSuffix : Text := ['.', 'd', 'e', 'x']

/-- `"classes.dex"` -/
def classesDex : Text :=
  ['c', 'l', 'a', 's', 's', 'e', 's'] ++ dexSuffix

/-- `name.endsWith(".dex")` -/
def endsWithDex (name : Text) : Bool :=
  dexSuffix.isSuffixOf name

/-- `name.indexOf(".dex")`, the start of the first occurrence. -/
def indexOfDex (name : Text) : Option Nat :=
  name.tails.findIdx? dexSuffix.isPrefixOf

/-- `name.substring(0, cursor) + "_" + ".dex"`, without a value where
`substring` fails. -/
def newName (name : Text) : Option Text :=
  (indexOfDex name).map fun cursor => name.take cursor ++ '_' :: dexSuffix

variable {Content : Type}

/-- The body of the loop over `listFiles`. -/
def renameDex (replaces : Bool) (folder : Folder Text Content)
    (file : Text) : Option (Folder Text Content) :=
  match folder file with
  | some (.file _) =>
      if endsWithDex file then
        (newName file).map (folder.renameTo replaces file)
      else some folder
  | _ => some folder

def renameLoop (replaces : Bool) (folder : Folder Text Content)
    (listFiles : List Text) : Option (Folder Text Content) :=
  listFiles.foldlM (renameDex replaces) folder

/-! ## The intended names -/

/-- `X_.dex` for `X.dex`, where `X` is the name without its last `.dex`. -/
def storedName (name : Text) : Text :=
  if endsWithDex name then
    name.take (name.length - 4) ++ '_' :: dexSuffix
  else name

/-- The files are those of `before`, each under its own intended name, and
the shell finds its name free. -/
structure CollisionFree (before after : Folder Text Content) : Prop where
  stored : ∀ name content, before name = some (.file content) →
    after (storedName name) = some (.file content)
  former : ∀ name content, after name = some (.file content) →
    ∃ old, before old = some (.file content) ∧ storedName old = name
  free : ∀ content, after classesDex ≠ some (.file content)

/-- The only `.dex` in the name is the one at its end. -/
def EndsOnce (name : Text) : Prop :=
  indexOfDex name = some (name.length - 4)

/-- The new name of a dex file is cut where it should be, and it is free or
that of a file that is listed earlier. -/
def CutAndOrdered (before : Folder Text Content) (listFiles : List Text) :
    Prop :=
  ∀ name, before.Selected endsWithDex name →
    EndsOnce name ∧ before (storedName name) ≠ some .directory ∧
      ∀ content, before (storedName name) = some (.file content) →
        Folder.ListedBefore listFiles (storedName name) name

/-! ## Occurrences of `.dex` -/

/-- There is a `.dex` in the name at this index. -/
def OccursAt (name : Text) (i : Nat) : Prop :=
  dexSuffix <+: name.drop i

theorem occursAt_iff {name : Text} {i : Nat} :
    OccursAt name i ↔ name[i]? = some '.' ∧ name[i + 1]? = some 'd' ∧
      name[i + 2]? = some 'e' ∧ name[i + 3]? = some 'x' := by
  rw [OccursAt, List.prefix_iff_getElem?]
  simp only [List.getElem?_drop]
  constructor
  · intro same
    exact ⟨same 0 (by decide), same 1 (by decide), same 2 (by decide),
      same 3 (by decide)⟩
  · rintro ⟨dot, d, e, x⟩ offset inside
    match offset, inside with
    | 0, _ => exact dot
    | 1, _ => exact d
    | 2, _ => exact e
    | 3, _ => exact x

theorem OccursAt.bound {name : Text} {i : Nat} (occurs : OccursAt name i) :
    i + 4 ≤ name.length := by
  have last := (occursAt_iff.mp occurs).2.2.2
  have inside := (List.getElem?_eq_some_iff.mp last).1
  omega

theorem indexOfDex_eq_some {name : Text} {i : Nat} :
    indexOfDex name = some i ↔
      OccursAt name i ∧ ∀ j < i, ¬ OccursAt name j := by
  rw [indexOfDex, List.findIdx?_eq_some_iff_getElem]
  simp only [List.getElem_tails, List.isPrefixOf_iff_prefix, OccursAt,
    List.length_tails]
  constructor
  · rintro ⟨_, occurs, first⟩
    exact ⟨occurs, first⟩
  · rintro ⟨occurs, first⟩
    have inside := OccursAt.bound occurs
    exact ⟨by omega, occurs, first⟩

/-- Two occurrences of `.dex` do not overlap. -/
theorem OccursAt.apart {name : Text} {i j : Nat} (first : OccursAt name i)
    (second : OccursAt name j) (less : i < j) : i + 4 ≤ j := by
  have dot := (occursAt_iff.mp second).1
  obtain ⟨_, d, e, x⟩ := occursAt_iff.mp first
  by_contra overlapping
  have inside : j = i + 1 ∨ j = i + 2 ∨ j = i + 3 := by omega
  rcases inside with rfl | rfl | rfl
  · simp [dot] at d
  · simp [dot] at e
  · simp [dot] at x

theorem endsWithDex_iff {name : Text} :
    endsWithDex name = true ↔ ∃ stem, name = stem ++ dexSuffix := by
  rw [endsWithDex, List.isSuffixOf_iff_suffix]
  constructor
  · rintro ⟨stem, same⟩
    exact ⟨stem, same.symm⟩
  · rintro ⟨stem, rfl⟩
    exact List.suffix_append stem dexSuffix

theorem occursAt_append (stem : Text) :
    OccursAt (stem ++ dexSuffix) stem.length := by
  rw [OccursAt, List.drop_left]

theorem storedName_append (stem : Text) :
    storedName (stem ++ dexSuffix) = stem ++ '_' :: dexSuffix := by
  have ends : endsWithDex (stem ++ dexSuffix) = true :=
    endsWithDex_iff.mpr ⟨stem, rfl⟩
  have cut : (stem ++ dexSuffix).length - 4 = stem.length := by
    simp [dexSuffix]
  rw [storedName, if_pos ends, cut, List.take_left]

/-- There is no `.dex` in the text. -/
def Clear (text : Text) : Prop :=
  ∀ i, ¬ OccursAt text i

theorem occursAt_append_left {text : Text} {i : Nat} (rest : Text)
    (inside : i + 4 ≤ text.length) :
    OccursAt (text ++ rest) i ↔ OccursAt text i := by
  rw [occursAt_iff, occursAt_iff, List.getElem?_append_left (by omega),
    List.getElem?_append_left (by omega),
    List.getElem?_append_left (by omega),
    List.getElem?_append_left (by omega)]

theorem endsOnce_append {stem : Text} :
    EndsOnce (stem ++ dexSuffix) ↔ Clear stem := by
  have cut : (stem ++ dexSuffix).length - 4 = stem.length := by
    simp [dexSuffix]
  rw [EndsOnce, cut, indexOfDex_eq_some]
  constructor
  · rintro ⟨_, first⟩ i occurs
    have inside := occurs.bound
    exact first i (by omega) ((occursAt_append_left _ inside).mpr occurs)
  · intro clear
    refine ⟨occursAt_append stem, fun i before occurs => ?_⟩
    have inside := occurs.apart (occursAt_append stem) before
    exact clear i ((occursAt_append_left _ inside).mp occurs)

theorem clear_underscore {stem : Text} :
    Clear (stem ++ ['_']) ↔ Clear stem := by
  constructor
  · intro clear i occurs
    exact clear i ((occursAt_append_left _ occurs.bound).mpr occurs)
  · intro clear i occurs
    have inside := occurs.bound
    rw [List.length_append, List.length_singleton] at inside
    by_cases last : i + 3 = stem.length
    · have x := (occursAt_iff.mp occurs).2.2.2
      rw [last, List.getElem?_concat_length] at x
      simp at x
    · exact clear i ((occursAt_append_left _ (by omega)).mp occurs)

theorem clear_take {name : Text} {cursor : Nat}
    (first : indexOfDex name = some cursor) : Clear (name.take cursor) := by
  intro i occurs
  have inside := occurs.bound
  rw [List.length_take] at inside
  have inName : OccursAt name i := by
    rw [← List.take_append_drop cursor name]
    exact (occursAt_append_left _ occurs.bound).mpr occurs
  exact (indexOfDex_eq_some.mp first).2 i (by omega) inName

/-! ## The new names -/

theorem exists_newName {name : Text} (ends : endsWithDex name = true) :
    ∃ cursor, indexOfDex name = some cursor ∧
      newName name = some (name.take cursor ++ '_' :: dexSuffix) := by
  obtain ⟨stem, rfl⟩ := endsWithDex_iff.mp ends
  have found : indexOfDex (stem ++ dexSuffix) ≠ none := by
    rw [indexOfDex, Ne, List.findIdx?_eq_none_iff]
    intro absent
    have atEnd := absent dexSuffix
      ((List.mem_tails _ _).mpr (List.suffix_append stem dexSuffix))
    exact Bool.noConfusion atEnd
  obtain ⟨cursor, isCursor⟩ := Option.ne_none_iff_exists'.mp found
  exact ⟨cursor, isCursor, by rw [newName, isCursor]; rfl⟩

/-- The new name of a dex file. -/
def target (name : Text) : Text :=
  (newName name).getD name

/-- A new name contains `.dex` only at its end. -/
theorem endsOnce_target {name : Text} (ends : endsWithDex name = true) :
    EndsOnce (target name) := by
  obtain ⟨cursor, first, isNew⟩ := exists_newName ends
  have regrouped : target name =
      (name.take cursor ++ ['_']) ++ dexSuffix := by
    rw [target, isNew, List.append_assoc]
    rfl
  rw [regrouped, endsOnce_append, clear_underscore]
  exact clear_take first

theorem target_of_endsOnce {name : Text} (ends : endsWithDex name = true)
    (once : EndsOnce name) : target name = storedName name := by
  obtain ⟨cursor, first, isNew⟩ := exists_newName ends
  rw [EndsOnce, first] at once
  rw [target, isNew, storedName, if_pos ends, Option.some_inj.mp once]
  rfl

theorem endsOnce_storedName {name : Text} (ends : endsWithDex name = true) :
    EndsOnce (storedName name) ↔ EndsOnce name := by
  obtain ⟨stem, rfl⟩ := endsWithDex_iff.mp ends
  have regrouped : stem ++ '_' :: dexSuffix = (stem ++ ['_']) ++ dexSuffix :=
    by simp
  rw [storedName_append, regrouped, endsOnce_append, clear_underscore,
    endsOnce_append]

theorem endsWithDex_storedName {name : Text}
    (ends : endsWithDex name = true) :
    endsWithDex (storedName name) = true := by
  obtain ⟨stem, rfl⟩ := endsWithDex_iff.mp ends
  rw [storedName_append, endsWithDex_iff]
  exact ⟨stem ++ ['_'], by simp⟩

theorem length_storedName {name : Text} (ends : endsWithDex name = true) :
    (storedName name).length = name.length + 1 := by
  obtain ⟨stem, rfl⟩ := endsWithDex_iff.mp ends
  rw [storedName_append, List.length_append, List.length_append,
    List.length_cons]
  omega

theorem storedName_injective {first second : Text}
    (endsFirst : endsWithDex first = true)
    (endsSecond : endsWithDex second = true)
    (same : storedName first = storedName second) : first = second := by
  obtain ⟨one, rfl⟩ := endsWithDex_iff.mp endsFirst
  obtain ⟨other, rfl⟩ := endsWithDex_iff.mp endsSecond
  rw [storedName_append, storedName_append] at same
  rw [List.append_cancel_right same]

/-- No file is meant to get the name of the shell. -/
theorem storedName_ne_classesDex (name : Text) :
    storedName name ≠ classesDex := by
  intro same
  by_cases ends : endsWithDex name = true
  · obtain ⟨stem, rfl⟩ := endsWithDex_iff.mp ends
    have regrouped : stem ++ '_' :: dexSuffix =
        (stem ++ ['_']) ++ dexSuffix := by simp
    rw [storedName_append, regrouped, classesDex] at same
    have last := congrArg List.getLast? (List.append_cancel_right same)
    rw [List.getLast?_concat] at last
    exact absurd last (by decide)
  · rw [storedName, if_neg ends] at same
    rw [same] at ends
    exact ends (by decide)

/-! ## The loop -/

section Loop

variable {replaces : Bool} {before : Folder Text Content}

theorem renameDex_eq (folder : Folder Text Content) (file : Text) :
    renameDex replaces folder file =
      some (folder.renameFile replaces endsWithDex target file) := by
  rw [renameDex, Folder.renameFile]
  cases folder file with
  | none => rfl
  | some entry =>
      cases entry with
      | directory => rfl
      | file content =>
          by_cases ends : endsWithDex file = true
          · obtain ⟨_, _, isNew⟩ := exists_newName ends
            simp only [ends, if_true, target, isNew, Option.map_some,
              Option.getD_some]
          · simp only [ends, Bool.false_eq_true, if_false]

/-- The loop always comes to its end. -/
theorem renameLoop_eq (folder : Folder Text Content)
    (listFiles : List Text) :
    renameLoop replaces folder listFiles =
      some (folder.renameFiles replaces endsWithDex target listFiles) := by
  rw [renameLoop]
  induction listFiles generalizing folder with
  | nil => rfl
  | cons file rest inductionHypothesis =>
      rw [List.foldlM_cons, renameDex_eq]
      exact inductionHypothesis _

theorem spreading_of_endsOnce
    (once : ∀ name, before.Selected endsWithDex name → EndsOnce name) :
    Folder.Spreading endsWithDex target before List.length := by
  have isStored : ∀ name, before.Selected endsWithDex name →
      target name = storedName name := fun name selected =>
    target_of_endsOnce selected.1 (once name selected)
  constructor
  · intro name selected
    rw [isStored name selected, length_storedName selected.1]
    omega
  · intro name selected
    rw [isStored name selected]
    exact endsWithDex_storedName selected.1
  · intro first second isFirst isSecond same
    rw [isStored first isFirst, isStored second isSecond] at same
    exact storedName_injective isFirst.1 isSecond.1 same

/-- A name with a second `.dex` is missed by all new names, so that a file
with a longer such name would have to be there already. -/
theorem endsOnce_of_stored {listing : Listing before}
    (stored : ∀ name content, before name = some (.file content) →
      before.renameFiles replaces endsWithDex target listing.names
        (storedName name) = some (.file content))
    (name : Text) (selected : before.Selected endsWithDex name) :
    EndsOnce name := by
  have noChain := @Folder.not_of_grows Text listing.names
    (fun name => before.Selected endsWithDex name ∧ ¬ EndsOnce name)
    storedName List.length
    (fun name found => found.1.mem_names listing)
    (by
      intro name found
      rw [length_storedName found.1.1]
      omega)
    (by
      rintro name ⟨⟨ends, content, atName⟩, twice⟩
      have twiceToo : ¬ EndsOnce (storedName name) :=
        mt (endsOnce_storedName ends).mp twice
      have found := stored name content atName
      refine ⟨⟨endsWithDex_storedName ends, ?_⟩, twiceToo⟩
      cases atStored : before (storedName name) with
      | some entry =>
          cases entry with
          | file content => exact ⟨content, rfl⟩
          | directory =>
              rw [(Folder.renameFiles_directory _).mpr atStored] at found
              cases found
      | none =>
          have absent : storedName name ∉ listing.names := fun inNames =>
            (listing.complete _).mp inNames atStored
          rw [Folder.renameFiles_untouched absent, atStored] at found
          · cases found
          · intro other _ endsOther _ same
            exact twiceToo (same ▸ endsOnce_target endsOther))
    name
  by_contra twice
  exact noChain ⟨selected, twice⟩

theorem CutAndOrdered.endsOnce {listFiles : List Text}
    (cut : CutAndOrdered before listFiles) (name : Text)
    (selected : before.Selected endsWithDex name) : EndsOnce name :=
  (cut name selected).1

theorem cutAndOrdered_iff {listing : Listing before}
    (once : ∀ name, before.Selected endsWithDex name → EndsOnce name) :
    CutAndOrdered before listing.names ↔
      Folder.Ordered endsWithDex target before listing := by
  refine forall_congr' fun name => forall_congr' fun selected => ?_
  rw [target_of_endsOnce selected.1 (once name selected)]
  exact and_iff_right (once name selected)

/-- Where all files get their intended names, the condition holds. -/
theorem cutAndOrdered_of_stored {listing : Listing before}
    (stored : ∀ name content, before name = some (.file content) →
      before.renameFiles replaces endsWithDex target listing.names
        (storedName name) = some (.file content)) :
    CutAndOrdered before listing.names := by
  have once := endsOnce_of_stored stored
  rw [cutAndOrdered_iff once]
  rw [← @Folder.stored_iff_ordered _ _ _ replaces _ _ _ _ _
    (spreading_of_endsOnce once)]
  intro name content atName ends
  rw [target_of_endsOnce ends (once name ⟨ends, content, atName⟩)]
  exact stored name content atName

theorem collisionFree_of_cut {listing : Listing before}
    (cut : CutAndOrdered before listing.names) :
    CollisionFree before
      (before.renameFiles replaces endsWithDex target listing.names) := by
  have spreading := spreading_of_endsOnce cut.endsOnce
  have ordered := (cutAndOrdered_iff cut.endsOnce).mp cut
  have placed := @Folder.Ordered.placed _ _ _ replaces _ _ _ _ _ ordered
    spreading _ List.prefix_rfl
  have atPlace : ∀ name content, before name = some (.file content) →
      Folder.place endsWithDex target listing.names (.file content) name =
        storedName name := by
    intro name content atName
    by_cases ends : endsWithDex name = true
    · have selected : before.Selected endsWithDex name :=
        ⟨ends, content, atName⟩
      rw [Folder.place_of_selected target selected atName
        (selected.mem_names listing)]
      exact target_of_endsOnce ends (cut.endsOnce name selected)
    · rw [Folder.place_of_not_selected target _ (fun found => ends found.1)
        atName, storedName, if_neg ends]
  have former : ∀ name content,
      before.renameFiles replaces endsWithDex target listing.names name =
        some (.file content) →
      ∃ old, before old = some (.file content) ∧ storedName old = name := by
    intro name content atName
    obtain ⟨old, atOld, isPlace⟩ := (placed _ _).mp atName
    exact ⟨old, atOld, (atPlace old content atOld).symm.trans isPlace⟩
  refine ⟨?_, former, ?_⟩
  · intro name content atName
    exact (placed _ _).mpr ⟨name, atName, atPlace name content atName⟩
  · intro content atShell
    obtain ⟨old, _, isShell⟩ := former _ _ atShell
    exact storedName_ne_classesDex old isShell

end Loop

/-- The loop keeps the files apart exactly where no dex file has a second
`.dex` in its name and no file is renamed to the name of a later one. -/
theorem renameLoop_collisionFree_iff (replaces : Bool)
    (before : Folder Text Content) (listing : Listing before) :
    (∃ after, renameLoop replaces before listing.names = some after ∧
        CollisionFree before after) ↔
      CutAndOrdered before listing.names := by
  simp only [renameLoop_eq, Option.some_inj, exists_eq_left']
  exact ⟨fun apart => cutAndOrdered_of_stored apart.stored,
    collisionFree_of_cut⟩

/-- A folder with two files: `a.dex` holds `1`, `a_.dex` holds `2`. -/
def twoFiles : Folder Text Nat :=
  Function.update
    (Function.update (fun _ => none) ('a' :: dexSuffix) (some (.file 1)))
    ('a' :: '_' :: dexSuffix) (some (.file 2))

def twoFilesListing : Listing twoFiles where
  names := ['a' :: dexSuffix, 'a' :: '_' :: dexSuffix]
  nodup := by decide
  complete := by
    intro name
    rw [List.mem_pair, twoFiles]
    by_cases second : name = 'a' :: '_' :: dexSuffix
    · simp [second]
    · rw [Function.update_of_ne second]
      by_cases first : name = 'a' :: dexSuffix
      · simp [first]
      · simp [first, second]

/-- The second file is replaced by the first one, or the first one keeps its
name. -/
theorem twoFiles_collide :
    (¬ ∃ after,
        renameLoop true twoFiles twoFilesListing.names = some after ∧
          CollisionFree twoFiles after) ∧
      ¬ ∃ after,
        renameLoop false twoFiles twoFilesListing.names = some after ∧
          CollisionFree twoFiles after := by
  have vanishes : (renameLoop true twoFiles twoFilesListing.names).bind
      (fun after => after ('a' :: '_' :: dexSuffix)) = none := by decide
  have stays : (renameLoop false twoFiles twoFilesListing.names).bind
      (fun after => after ('a' :: '_' :: dexSuffix)) = none := by decide
  refine ⟨?_, ?_⟩ <;> rintro ⟨after, isAfter, apart⟩
  · have first := apart.stored ('a' :: dexSuffix) 1 rfl
    rw [isAfter] at vanishes
    exact absurd (first.symm.trans vanishes) (by decide)
  · have first := apart.stored ('a' :: dexSuffix) 1 rfl
    rw [isAfter] at stays
    exact absurd (first.symm.trans stays) (by decide)

end DripStone.Reinforce
