import DripStone.Library.Paths

/-!
# `LoadUtil.loadNative`

The native libraries of a plugin are copied out of one of its directories, and
the directory they are copied to is added to those of the host: before
Android 6 as the end of an array, later through the elements of a new list.
-/

namespace DripStone.Plugin

open DripStone.Library

inductive Failure where
  | nullPointerException
  | indexOutOfBoundsException
  | arrayIndexOutOfBoundsException
  | invocationTargetException
deriving DecidableEq, Repr

/-- What is listed in the directory `lib` of the plugin. -/
structure LibFile where
  getName : Name
  exists_ : Bool
  isDirectory : Bool
  listFiles : List Name
deriving DecidableEq, Repr

/-! ## The directory of an ABI -/

/-- The test of the loop; `String.contains` looks anywhere in the name. -/
def isAbiDirectory (abi : Name) (file : LibFile) : Bool :=
  file.exists_ && file.isDirectory && decide (abi <:+: file.getName)

/-- `abiFileDir`: the first that passes; null is passed over. -/
def abiFileDir (abi : Name) (files : List (Option LibFile)) :
    Option LibFile :=
  (files.reduceOption).find? (isAbiDirectory abi)

/-! ## The array of the host -/

section Merge

variable {File : Type}

/-- `totalNativeLibraryDir[oldSize + i] = pluginNativeLibraryDirList.get(i)` -/
def storeAt (oldNativeLibraryDirSize : Nat) (plugin : List File)
    (total : List (Option File)) (i : Nat) :
    Except Failure (List (Option File)) :=
  match plugin[i]? with
  | none => .error .indexOutOfBoundsException
  | some file =>
      if oldNativeLibraryDirSize + i < total.length then
        .ok (total.set (oldNativeLibraryDirSize + i) (some file))
      else .error .arrayIndexOutOfBoundsException

/-- `totalNativeLibraryDir`, after the copy of the old array. -/
def copiedOld (oldNativeDirs : List (Option File)) (plugin : List File) :
    List (Option File) :=
  let total := List.replicate (oldNativeDirs.length + plugin.length) none
  oldNativeDirs ++ total.drop oldNativeDirs.length

/-- The loop runs over the whole new array. -/
def totalNativeLibraryDir (oldNativeDirs : List (Option File))
    (plugin : List File) : Except Failure (List (Option File)) :=
  let total := copiedOld oldNativeDirs plugin
  (List.range total.length).foldlM (storeAt oldNativeDirs.length plugin) total

/-! ## `loadNative` -/

/-- The fields of a `DexPathList`. -/
structure DexPathList (File Element : Type) where
  nativeLibraryDirectories : List (Option File)
  systemNativeLibraryDirectories : List (Option File)
  nativeLibraryPathElements : List Element

variable {Element : Type}

/-- What `loadNative` finds. -/
structure Environment (File Element : Type) where
  SDK_INT : Nat
  CPU_ABI : Name
  -- null if there is no directory `lib`
  files : Option (List (Option LibFile))
  -- null if the cache has no directory
  mLibDir : Option File
  makePathElements : List (Option File) → Except Failure (List Element)

/-- `Build.VERSION_CODES.LOLLIPOP_MR1` -/
def LOLLIPOP_MR1 : Nat := 22

/-- The directory, once for each library that is copied to it. -/
def pluginNativeLibraryDirList (mLibDir : Option File)
    (abiFileDir : Option LibFile) : List File :=
  match mLibDir, abiFileDir with
  | some mLibDir, some directory => directory.listFiles.map fun _ => mLibDir
  | _, _ => []

/-- The directories of the plugin are merged with those of the host. -/
def merge (environment : Environment File Element) (plugin : List File)
    (dexPathList : DexPathList File Element) :
    Except Failure (DexPathList File Element) :=
  if LOLLIPOP_MR1 < environment.SDK_INT then do
    let allNativeLibDirList := plugin.map some ++
      dexPathList.nativeLibraryDirectories ++
      dexPathList.systemNativeLibraryDirectories
    let allNativeLibraryPathElements ←
      environment.makePathElements allNativeLibDirList
    return { dexPathList with
      nativeLibraryPathElements := allNativeLibraryPathElements }
  else do
    let total ←
      totalNativeLibraryDir dexPathList.nativeLibraryDirectories plugin
    return { dexPathList with nativeLibraryDirectories := total }

/-- `loadNative`, with the exception that it logs. -/
def loadNative (environment : Environment File Element)
    (dexPathList : DexPathList File Element) :
    DexPathList File Element × Option Failure :=
  match environment.files with
  | none => (dexPathList, some .nullPointerException)
  | some files =>
      let plugin := pluginNativeLibraryDirList environment.mLibDir
        (abiFileDir environment.CPU_ABI files)
      match merge environment plugin dexPathList with
      | .ok merged => (merged, none)
      | .error failure => (dexPathList, some failure)

/-! ## The law and the condition -/

/-- The entries of the host followed by those of the plugin are installed,
without an error. -/
def Merges (environment : Environment File Element) (plugin : List File)
    (dexPathList : DexPathList File Element) : Prop :=
  merge environment plugin dexPathList = .ok { dexPathList with
    nativeLibraryDirectories :=
      dexPathList.nativeLibraryDirectories ++ plugin.map some }

/-- The entry is a directory with the very name of the ABI. -/
structure IsExact (abi : Name) (file : LibFile) : Prop where
  exists_ : file.exists_ = true
  isDirectory : file.isDirectory = true
  getName : file.getName = abi

/-- If there is a directory named like the ABI it is the one chosen. -/
def ChoosesExact (abi : Name) (files : List (Option LibFile)) : Prop :=
  (∃ file ∈ files.reduceOption, IsExact abi file) →
    ∃ file, abiFileDir abi files = some file ∧ file.getName = abi

/-- If there is a directory named like the ABI one comes before every other
whose name contains the ABI. -/
def ExactFirst (abi : Name) (files : List (Option LibFile)) : Prop :=
  (∃ file ∈ files.reduceOption, IsExact abi file) →
    ∀ before other after, files.reduceOption = before ++ other :: after →
      isAbiDirectory abi other = true → other.getName ≠ abi →
      ∃ file ∈ before, IsExact abi file

/-! ## The loop -/

/-- As long as the plugin has entries they are stored behind the old ones. -/
theorem storeAt_range (oldNativeDirs : List (Option File))
    (plugin : List File) {count : Nat} (few : count ≤ plugin.length) :
    (List.range count).foldlM (storeAt oldNativeDirs.length plugin)
        (copiedOld oldNativeDirs plugin) =
      .ok (oldNativeDirs ++ (plugin.take count).map some ++
        List.replicate (plugin.length - count) none) := by
  induction count with
  | zero => simp [copiedOld, pure, Except.pure]
  | succ count inductionHypothesis =>
      have inPlugin : count < plugin.length := few
      have soFar := inductionHypothesis inPlugin.le
      have taken : (plugin.take (count + 1)).map some =
          (plugin.take count).map some ++ [some plugin[count]] := by
        rw [List.take_add_one, List.getElem?_eq_getElem inPlugin,
          Option.toList_some, List.map_append, List.map_singleton]
      have open_ : plugin.length - count =
          plugin.length - (count + 1) + 1 := by
        omega
      have inTotal : oldNativeDirs.length + count <
          (oldNativeDirs ++ (plugin.take count).map some ++
            List.replicate (plugin.length - count) (none : Option File)).length
          := by
        simp
        omega
      rw [List.range_succ, List.foldlM_append, soFar]
      show [count].foldlM (storeAt oldNativeDirs.length plugin) _ = _
      simp only [List.foldlM_cons, List.foldlM_nil, storeAt,
        List.getElem?_eq_getElem inPlugin, if_pos inTotal]
      rw [taken, open_, List.replicate_succ]
      simp [bind, Except.bind, pure, Except.pure,
        Nat.min_eq_left inPlugin.le]

/-- Spec lemma: the loop leaves the plugin's list unless the host has no
entries. -/
theorem totalNativeLibraryDir_eq (oldNativeDirs : List (Option File))
    (plugin : List File) :
    totalNativeLibraryDir oldNativeDirs plugin =
      if oldNativeDirs = [] then .ok (plugin.map some)
      else .error .indexOutOfBoundsException := by
  have stored := storeAt_range oldNativeDirs plugin le_rfl
  have length : (copiedOld oldNativeDirs plugin).length =
      plugin.length + oldNativeDirs.length := by
    simp [copiedOld]
    omega
  simp only [totalNativeLibraryDir, length]
  split
  · next empty =>
      rw [empty] at stored ⊢
      simpa using stored
  · next nonempty =>
      have more := List.length_pos_iff.mpr nonempty
      obtain ⟨rest, split⟩ : ∃ rest,
          List.range (plugin.length + oldNativeDirs.length) =
            List.range plugin.length ++ plugin.length :: rest := by
        refine ⟨(List.range (oldNativeDirs.length - 1)).map
          (plugin.length + 1 + ·), ?_⟩
        rw [List.range_add, List.append_cancel_left_eq]
        obtain ⟨size, isSize⟩ := Nat.exists_eq_succ_of_ne_zero more.ne'
        rw [isSize, List.range_succ_eq_map]
        simp [Nat.add_assoc, Nat.add_comm 1]
      rw [split, List.foldlM_append, stored]
      simp [storeAt, bind, Except.bind]

theorem merges_iff {environment : Environment File Element}
    (old : environment.SDK_INT ≤ LOLLIPOP_MR1) (plugin : List File)
    (dexPathList : DexPathList File Element) :
    Merges environment plugin dexPathList ↔
      dexPathList.nativeLibraryDirectories = [] := by
  rw [Merges, merge, if_neg old.not_gt, totalNativeLibraryDir_eq]
  split
  · next empty =>
      refine iff_of_true ?_ empty
      rw [empty]
      rfl
  · next nonempty =>
      refine iff_of_false (fun merged => ?_) nonempty
      cases merged

/-- With entries in the host the plugin's libraries are never installed. -/
theorem loadNative_of_host {environment : Environment File Element}
    (old : environment.SDK_INT ≤ LOLLIPOP_MR1)
    {dexPathList : DexPathList File Element}
    (nonempty : dexPathList.nativeLibraryDirectories ≠ []) :
    (loadNative environment dexPathList).1 = dexPathList ∧
      (loadNative environment dexPathList).2 ≠ none := by
  rw [loadNative]
  split
  · exact ⟨rfl, Option.some_ne_none _⟩
  · simp only [merge, if_neg old.not_gt, totalNativeLibraryDir_eq,
      if_neg nonempty]
    exact ⟨rfl, Option.some_ne_none _⟩

/-! ## The first directory that passes -/

theorem IsExact.isAbiDirectory {abi : Name} {file : LibFile}
    (isExact : IsExact abi file) : isAbiDirectory abi file = true := by
  rw [Plugin.isAbiDirectory, isExact.exists_, isExact.isDirectory,
    isExact.getName]
  simp

/-- The first that passes is exact if and only if no other comes before. -/
theorem choosesExact_iff (abi : Name) (files : List (Option LibFile)) :
    ChoosesExact abi files ↔ ExactFirst abi files := by
  apply imp_congr_right
  rintro ⟨exact_, inFiles, isExact⟩
  constructor
  · rintro ⟨chosen, isChosen, named⟩ before other after split passes differs
    obtain ⟨chosenPasses, earlier, later, splitChosen, fail⟩ :=
      List.find?_eq_some_iff_append.mp isChosen
    rw [splitChosen, List.append_eq_append_iff] at split
    rcases split with ⟨between, isBefore, rest⟩ | ⟨between, isEarlier, rest⟩
    · cases between with
      | nil =>
          have same := (List.cons.inj rest).1
          exact absurd (same ▸ named) differs
      | cons first between =>
          have same := (List.cons.inj rest).1
          refine ⟨chosen, by simp [isBefore, same], ?_⟩
          simp only [isAbiDirectory, Bool.and_eq_true] at chosenPasses
          exact ⟨chosenPasses.1.1, chosenPasses.1.2, named⟩
    · cases between with
      | nil =>
          have same := (List.cons.inj rest).1
          exact absurd (same ▸ named) differs
      | cons first between =>
          have same := (List.cons.inj rest).1
          have failed := fail other (by simp [isEarlier, same])
          rw [passes] at failed
          cases failed
  · intro exactFirst
    cases chosen : abiFileDir abi files with
    | none =>
        have fail := List.find?_eq_none.mp chosen exact_ inFiles
        exact absurd isExact.isAbiDirectory fail
    | some file =>
        refine ⟨file, rfl, ?_⟩
        by_contra differs
        obtain ⟨passes, before, after, split, fail⟩ :=
          List.find?_eq_some_iff_append.mp chosen
        obtain ⟨other, inBefore, otherExact⟩ :=
          exactFirst before file after split passes differs
        have failed := fail other inBefore
        rw [otherExact.isAbiDirectory] at failed
        cases failed

end Merge

/-- Before Android 6 the plugin's directories are installed behind those of
the host exactly if the host has none; the directory of the ABI is chosen
exactly if no other whose name contains the ABI comes first. -/
theorem nativeLibraries_iff {File Element : Type}
    (environment : Environment File Element)
    (old : environment.SDK_INT ≤ LOLLIPOP_MR1) :
    (∀ plugin dexPathList, Merges environment plugin dexPathList ↔
        dexPathList.nativeLibraryDirectories = []) ∧
      ∀ abi files, ChoosesExact abi files ↔ ExactFirst abi files :=
  ⟨merges_iff old, choosesExact_iff⟩

/-- Android 5.1, and a plugin for two ABIs. -/
def twoAbis : Environment String String where
  SDK_INT := 22
  CPU_ABI := "armeabi".toList
  files := some [some ⟨"armeabi-v7a".toList, true, true, ["a.so".toList]⟩,
    some ⟨"armeabi".toList, true, true, ["a.so".toList]⟩]
  mLibDir := some "/cache/lib/armeabi"
  makePathElements := fun _ => .ok []

theorem twoAbis_nativeLibraries :
    (∀ plugin dexPathList, Merges twoAbis plugin dexPathList ↔
        dexPathList.nativeLibraryDirectories = []) ∧
      ∀ abi files, ChoosesExact abi files ↔ ExactFirst abi files :=
  nativeLibraries_iff twoAbis (by decide)

theorem twoAbis_fails :
    ¬Merges twoAbis ["/cache/lib/armeabi"] ⟨[some "/system/lib"], [], []⟩ ∧
      ¬ChoosesExact "armeabi".toList
        [some ⟨"armeabi-v7a".toList, true, true, ["a.so".toList]⟩,
          some ⟨"armeabi".toList, true, true, ["a.so".toList]⟩] := by
  constructor
  · intro merged
    cases merged
  · intro chooses
    obtain ⟨file, isChosen, named⟩ := chooses
      ⟨⟨"armeabi".toList, true, true, ["a.so".toList]⟩, by decide, rfl, rfl,
        rfl⟩
    have first : abiFileDir "armeabi".toList
        [some ⟨"armeabi-v7a".toList, true, true, ["a.so".toList]⟩,
          some ⟨"armeabi".toList, true, true, ["a.so".toList]⟩] =
        some ⟨"armeabi-v7a".toList, true, true, ["a.so".toList]⟩ := by
      decide
    rw [first] at isChosen
    cases isChosen
    exact absurd named (by decide)

end DripStone.Plugin
