import DripStone.BaseTransform.Tasks

/-!
# What a jar task leaves in its output

A jar that the task takes apart is written to the temporary directory first
and then copied; any other jar is copied as it is.
-/

namespace DripStone.BaseTransform

open DripStone.Library

/-! ## Calls that return -/

section Calls

variable {files : FileSystem Bytes} {file : Path}

theorem readFile_ok {content : Bytes}
    (found : files.fileAt file = some content) :
    readFile file files = .ok content files := by
  rw [readFile, Action.get_bind, found]
  rfl

theorem writeFile_ok (isOpen : files.Open file) (content : Bytes) :
    ∃ written, writeFile file content files = .ok () written ∧
      written.Open file ∧
      ∀ other, written.find other =
        if other = file then some (.file content)
        else files.find other := by
  obtain ⟨written, wrote, stillOpen, found⟩ :=
    FileSystem.write_of_open isOpen content
  refine ⟨written, ?_, stillOpen, found⟩
  rw [writeFile, Action.get_bind, wrote]
  rfl

theorem deleteIfExists_ok (files : FileSystem Bytes) (file : Path) :
    ∃ left, deleteIfExists file files = .ok () left ∧
      ∀ other, left.find other =
        if files.Deletable file ∧ other = file then none
        else files.find other := by
  by_cases found : files.find file = none
  · refine ⟨files, ?_, ?_⟩
    · show (if (files.find file).isSome = true then delete file
        else (pure () : Call Unit)) files = _
      rw [found]
      rfl
    · intro other
      by_cases gone : files.Deletable file ∧ other = file
      · rw [if_pos gone, gone.2, found]
      · rw [if_neg gone]
  · refine ⟨files.delete file, ?_, files.find_delete file⟩
    show (if (files.find file).isSome = true then delete file
      else (pure () : Call Unit)) files = _
    rw [if_pos (Option.isSome_iff_ne_none.mpr found)]
    rfl

/-- What is no directory is gone. -/
theorem deleteIfExists_ok_of_file
    (noDirectory : files.find file ≠ some .directory) (below : file ≠ []) :
    ∃ left, deleteIfExists file files = .ok () left ∧
      ∀ other, left.find other =
        if other = file then none else files.find other := by
  obtain ⟨left, returned, found⟩ := deleteIfExists_ok files file
  have deletable : files.Deletable file := by
    refine ⟨below, List.eq_nil_iff_forall_not_mem.mpr fun name listed => ?_⟩
    have exists_ := (files.mem_list_iff file name).mp listed
    exact exists_ (files.find_eq_none_of_append noDirectory
      (List.cons_ne_nil name []))
  refine ⟨left, returned, ?_⟩
  intro other
  rw [found]
  simp [deletable]

theorem forceDeleteIfExists_ok (below : file ≠ [])
    (files : FileSystem Bytes) :
    ∃ left, forceDeleteIfExists file files = .ok () left ∧
      ∀ other, left.find other =
        if file <+: other then none else files.find other := by
  by_cases found : files.find file = none
  · refine ⟨files, ?_, ?_⟩
    · show (if (files.find file).isSome = true then forceDelete file
        else (pure () : Call Unit)) files = _
      rw [found]
      rfl
    · intro other
      by_cases gone : file <+: other
      · obtain ⟨rest, rfl⟩ := gone
        rw [if_pos (List.prefix_append file rest)]
        by_cases last : rest = []
        · rw [last, List.append_nil, found]
        · apply files.find_eq_none_of_append _ last
          simp [found]
      · rw [if_neg gone]
  · refine ⟨files.removeTree file, ?_, FileSystem.find_removeTree below⟩
    show (if (files.find file).isSome = true then forceDelete file
      else (pure () : Call Unit)) files = _
    rw [if_pos (Option.isSome_iff_ne_none.mpr found)]
    rfl

theorem copyFile_ok {source destination : Path} {content : Bytes}
    (found : files.fileAt source = some content)
    (different : source ≠ destination)
    (plain : ∀ name ∈ destination, Plain name)
    (unblocked : files.Unblocked destination.dropLast)
    (below : destination ≠ [])
    (noDirectory : files.find destination ≠ some .directory) :
    ∃ left, copyFile source destination files = .ok () left ∧
      ∀ other, left.find other =
        if other = destination then some (.file content)
        else if other <+: destination.dropLast then some .directory
        else files.find other := by
  have plainAbove : ∀ name ∈ destination.dropLast, Plain name :=
    fun name inAbove => plain name (List.dropLast_subset _ inAbove)
  have made := FileSystem.find_mkdirs plainAbove unblocked
  have longer : ¬ destination <+: destination.dropLast := by
    intro above
    have lengths := above.length_le
    have positive := List.length_pos_iff.mpr below
    rw [List.length_dropLast] at lengths
    omega
  have isOpen : (files.mkdirs destination.dropLast).Open destination := by
    refine ⟨below, ?_, ?_, ?_⟩
    · rw [made, if_pos List.prefix_rfl]
    · intro name isLast
      exact plain name (List.mem_of_getLast? isLast)
    · rwa [made, if_neg longer]
  obtain ⟨left, wrote, _, atLeft⟩ := writeFile_ok isOpen content
  refine ⟨left, ?_, ?_⟩
  · rw [copyFile, Action.bind_of_ok (readFile_ok found)]
    simp only [different, ↓reduceIte]
    exact wrote
  · intro other
    rw [atLeft, made]

end Calls

/-! ## The bytes of a jar in the output -/

section Output

variable (tools : Tools)

/-- What the task gives for a jar with this content; nothing when the jar
cannot be read or written. -/
def jarOutput (jarFile : Path) (content : Bytes) : Option Bytes :=
  if isLegalJar jarFile content then
    (tools.jarEntries content).bind fun jarEntries =>
      match putEntries tools [] jarEntries with
      | (written, none) => some (tools.jarBytes written)
      | (_, some _) => none
  else some content

/-- The entries that are written. -/
def keptEntries (jarEntries : List JarEntry) : List JarEntry :=
  (jarEntries.filter fun jarEntry => !isSignature jarEntry.name).map
    fun jarEntry => ⟨jarEntry.name, modifiedBytes tools jarEntry⟩

theorem putEntries_eq (jarEntries written : List JarEntry)
    (distinct : (written.map JarEntry.name).Nodup) :
    ((written ++ keptEntries tools jarEntries).map JarEntry.name).Nodup ∧
        putEntries tools written jarEntries =
          (written ++ keptEntries tools jarEntries, none) ∨
      ¬ ((written ++ keptEntries tools jarEntries).map
          JarEntry.name).Nodup ∧
        ∃ initial, putEntries tools written jarEntries =
          (initial, some .zipException) := by
  induction jarEntries generalizing written with
  | nil =>
      left
      simpa [keptEntries, putEntries] using distinct
  | cons jarEntry rest inductionHypothesis =>
      rw [putEntries]
      by_cases signature : isSignature jarEntry.name = true
      · have same : keptEntries tools (jarEntry :: rest) =
            keptEntries tools rest := by
          simp [keptEntries, signature]
        rw [if_pos signature, same]
        exact inductionHypothesis written distinct
      · have one : keptEntries tools (jarEntry :: rest) =
            ⟨jarEntry.name, modifiedBytes tools jarEntry⟩ ::
              keptEntries tools rest := by
          simp [keptEntries, signature]
        rw [if_neg signature, one]
        by_cases again : jarEntry.name ∈ written.map JarEntry.name
        · rw [if_pos (List.contains_iff_mem.mpr again)]
          right
          refine ⟨?_, written, rfl⟩
          intro nodup
          rw [List.map_append, List.nodup_append] at nodup
          exact nodup.2.2 jarEntry.name again jarEntry.name (by simp) rfl
        · rw [if_neg (mt List.contains_iff_mem.mp again)]
          have further := inductionHypothesis
            (written ++ [⟨jarEntry.name, modifiedBytes tools jarEntry⟩])
            (by
              rw [List.map_append, List.nodup_append]
              refine ⟨distinct, by simp, ?_⟩
              intro name inWritten other single
              rw [List.map_singleton, List.mem_singleton] at single
              rintro rfl
              exact again (single ▸ inWritten))
          rwa [List.append_assoc, List.singleton_append] at further

end Output

/-! ## The task -/

theorem plain_jarName {file : Path} (plain : ∀ name ∈ file, Plain name) :
    Plain (jarName file) := by
  have noSlash : '/' ∉ jarName file := by
    rw [jarName, List.mem_append, List.mem_cons]
    rintro (inDigits | isMark | inName)
    · rw [encodeHexString, List.mem_flatMap] at inDigits
      obtain ⟨byte, _, isDigit⟩ := inDigits
      have table : ∀ digit < 16, Nat.digitChar digit ≠ '/' := by decide
      have inByte := byte.toNat_lt
      simp only [List.mem_cons, List.not_mem_nil, or_false] at isDigit
      rcases isDigit with high | low
      · exact table (byte.toNat / 16) (by omega) high.symm
      · exact table (byte.toNat % 16) (by omega) low.symm
    · exact absurd isMark (by decide)
    · cases file using List.reverseRecOn with
      | nil => simp [getName] at inName
      | append_singleton path last =>
          rw [getName, List.getLastD_concat] at inName
          exact (plain last (by simp)).2.1 inName
  have marked : '_' ∈ jarName file := by simp [jarName]
  refine ⟨List.ne_nil_of_mem marked, noSlash, ?_, ?_⟩
  · intro same
    rw [same] at marked
    exact absurd marked (by decide)
  · intro same
    rw [same] at marked
    exact absurd marked (by decide)

section Task

variable (tools : Tools) {temporaryDir : Path} {files : FileSystem Bytes}

/-- A file of the temporary directory, made new. -/
theorem renewTemporary {name : Name} (plain : Plain name)
    (stays : files.find temporaryDir = some .directory)
    (noDirectory : files.find (temporaryDir ++ [name]) ≠ some .directory) :
    ∃ left, deleteIfExists (temporaryDir ++ [name]) files = .ok () left ∧
      left.Open (temporaryDir ++ [name]) ∧
      ∀ other, left.find other =
        if other = temporaryDir ++ [name] then none
        else files.find other := by
  have below : temporaryDir ++ [name] ≠ [] := by simp
  obtain ⟨left, returned, found⟩ :=
    deleteIfExists_ok_of_file noDirectory below
  refine ⟨left, returned, ⟨below, ?_, ?_, ?_⟩, found⟩
  · have different : temporaryDir ≠ temporaryDir ++ [name] := by simp
    rw [List.dropLast_concat, found, if_neg different, stays]
  · simpa using plain
  · rw [found, if_pos rfl]
    simp

/-- The modified jar in the temporary directory, or an exception. -/
theorem modifyJar_cases {jarFile : Path} {content : Bytes}
    (long : LongPath jarFile) (found : files.fileAt jarFile = some content)
    (apart : Apart jarFile temporaryDir)
    (stays : files.find temporaryDir = some .directory)
    (onlyFiles : ∀ name,
      files.find (temporaryDir ++ [name]) ≠ some .directory)
    (legal : isLegalJar jarFile content = true) :
    (∃ bytes left, jarOutput tools jarFile content = some bytes ∧
      modifyJar tools jarFile temporaryDir files =
        .ok (temporaryDir ++ [jarName jarFile]) left ∧
      left.fileAt (temporaryDir ++ [jarName jarFile]) = some bytes) ∨
    (∃ failure left, jarOutput tools jarFile content = none ∧
      modifyJar tools jarFile temporaryDir files =
        .error failure left) := by
  have plainFile : ∀ name ∈ jarFile, Plain name := by
    apply files.plain jarFile
    have exists_ := FileSystem.fileAt_eq_some_iff.mp found
    have node : files.nodes.lookup jarFile = some (.file content) := exists_
    simp [node]
  obtain ⟨renewed, deleted, isOpen, atRenewed⟩ :=
    renewTemporary (plain_jarName plainFile) stays
      (onlyFiles (jarName jarFile))
  obtain ⟨opened, wrote, stillOpen, atOpened⟩ := writeFile_ok isOpen []
  have elsewhere : jarFile ≠ temporaryDir ++ [jarName jarFile] := by
    intro here
    exact apart.2 (here ▸ List.prefix_append _ _)
  have read : opened.fileAt jarFile = some content := by
    rw [← found]
    apply FileSystem.fileAt_congr
    rw [atOpened, if_neg elsewhere, atRenewed, if_neg elsewhere]
  rw [jarOutput, if_pos legal]
  rw [modifyJar, generateJarFileName_of_long long, Action.ofExcept_ok_bind,
    Action.bind_of_ok deleted, Action.bind_of_ok wrote,
    Action.bind_of_ok (readFile_ok read)]
  cases tools.jarEntries content with
  | none => exact Or.inr ⟨.zipException, opened, rfl, rfl⟩
  | some jarEntries =>
      rcases loop : putEntries tools [] jarEntries with ⟨written, failure⟩
      obtain ⟨left, closed, _, atLeft⟩ :=
        writeFile_ok stillOpen (tools.jarBytes written)
      simp only [Option.bind_some, loop]
      rw [Action.bind_of_ok closed]
      cases failure with
      | none =>
          refine Or.inl ⟨_, left, rfl, rfl, ?_⟩
          rw [FileSystem.fileAt_eq_some_iff, atLeft, if_pos rfl]
      | some failure => exact Or.inr ⟨failure, left, rfl, rfl⟩

/-- A modified jar leaves every path but its own in the temporary directory
alone. -/
theorem find_modifyJar {jarFile path : Path}
    (apart : Apart jarFile temporaryDir)
    (fromJar : Apart jarFile path) (fromTemporary : ¬ temporaryDir <+: path) :
    ((modifyJar tools jarFile temporaryDir).after files).find path =
      files.find path := by
  have spares := sparing_modifyJar tools apart jarFile files
  rcases spares.outside path fromJar.1 fromTemporary with
    kept | ⟨_, _, above⟩
  · exact kept
  · exact absurd above fromJar.2

variable {root : Path}

/-- A jar copied to its place in the output. -/
theorem copyToOutput {source : Path} {leaf : Name} {content : Bytes}
    (plain : ∀ name ∈ root ++ [leaf], Plain name)
    (directory : files.find root = some .directory)
    (cleared : files.find (root ++ [leaf]) = none)
    (found : files.fileAt source = some content) :
    ∃ left, copyFile source (root ++ [leaf]) files = .ok () left ∧
      left.fileAt (root ++ [leaf]) = some content := by
  have different : source ≠ root ++ [leaf] := by
    rintro rfl
    rw [FileSystem.fileAt_eq_some_iff, cleared] at found
    exact absurd found (by simp)
  have unblocked : files.Unblocked (root ++ [leaf]).dropLast := by
    rw [List.dropLast_concat]
    rintro above ⟨rest, rfl⟩
    exact Or.inr (files.directory_of_append directory)
  have noDirectory : files.find (root ++ [leaf]) ≠ some .directory := by
    simp [cleared]
  obtain ⟨left, returned, atLeft⟩ := copyFile_ok found different plain
    unblocked (by simp) noDirectory
  refine ⟨left, returned, ?_⟩
  rw [FileSystem.fileAt_eq_some_iff, atLeft, if_pos rfl]

/-- A jar that is replaced ends as its own output, or as nothing. -/
theorem replaceJar_leaves {jarInput : JarInput} {leaf : Name}
    {content : Bytes} (long : LongPath jarInput.file)
    (found : files.fileAt jarInput.file = some content)
    (plain : ∀ name ∈ root ++ [leaf], Plain name)
    (apart : Apart root temporaryDir) (fromRoot : Apart jarInput.file root)
    (fromTemporary : Apart jarInput.file temporaryDir)
    (ready : Ready root temporaryDir files) :
    ((replaceJar tools jarInput (root ++ [leaf]) ⟨temporaryDir⟩).after
        files).fileAt (root ++ [leaf]) =
      jarOutput tools jarInput.file content ∧
    (isError (replaceJar tools jarInput (root ++ [leaf]) ⟨temporaryDir⟩
      files) = true → jarOutput tools jarInput.file content = none) := by
  have below : root ++ [leaf] ≠ [] := by simp
  have apartDest := apart.append [leaf]
  have fromDest := (fromRoot.symm.append [leaf]).symm
  obtain ⟨cleared, deleted, atCleared⟩ := forceDeleteIfExists_ok below files
  have sparesCleared :=
    sparing_forceDeleteIfExists apartDest below files
  rw [Action.after_of_ok deleted] at sparesCleared
  have readyCleared := sparesCleared.ready apart ready
  have destCleared : cleared.find (root ++ [leaf]) = none := by
    rw [atCleared, if_pos List.prefix_rfl]
  have foundCleared : cleared.fileAt jarInput.file = some content := by
    rw [← found]
    apply FileSystem.fileAt_congr
    rw [atCleared, if_neg fromDest.2]
  have asked : isLegalJarFile jarInput.file cleared =
      .ok (isLegalJar jarInput.file content) cleared := by
    rw [isLegalJarFile, Action.get_bind, foundCleared]
    rfl
  have start : replaceJar tools jarInput (root ++ [leaf]) ⟨temporaryDir⟩
      files =
      (if isLegalJar jarInput.file content = true then
        modifyJar tools jarInput.file temporaryDir >>= fun modifiedJar =>
          copyFile modifiedJar (root ++ [leaf])
      else copyFile jarInput.file (root ++ [leaf])) cleared := by
    rw [replaceJar, Action.bind_of_ok deleted, Action.bind_of_ok asked]
    rfl
  rw [Action.after, start]
  by_cases legal : isLegalJar jarInput.file content = true
  · rw [if_pos legal]
    have keepsDest :=
      @find_modifyJar tools _ cleared _ _ fromTemporary fromDest apartDest.2
    have sparesModified :=
      sparing_modifyJar tools apartDest jarInput.file cleared
    rcases modifyJar_cases tools long foundCleared fromTemporary
        readyCleared.stays readyCleared.onlyFiles legal with
      ⟨bytes, modified, output, returned, atModified⟩ |
      ⟨failure, modified, output, failed⟩
    · rw [Action.after_of_ok returned] at keepsDest sparesModified
      have readyModified := sparesModified.ready apart readyCleared
      obtain ⟨left, copied, atLeft⟩ := copyToOutput plain readyModified.root
        (keepsDest.trans destCleared) atModified
      rw [Action.bind_of_ok returned, copied, output]
      exact ⟨atLeft, fun threw => absurd threw (by simp [isError])⟩
    · rw [Action.after_of_error failed] at keepsDest
      rw [Action.bind_of_error failed, output]
      refine ⟨?_, fun _ => rfl⟩
      exact FileSystem.fileAt_eq_none_iff.mpr
        (Or.inl (keepsDest.trans destCleared))
  · rw [if_neg legal]
    obtain ⟨left, copied, atLeft⟩ := copyToOutput plain readyCleared.root
      destCleared foundCleared
    rw [copied, jarOutput, if_neg legal]
    exact ⟨atLeft, fun threw => absurd threw (by simp [isError])⟩

/-- A task that is not told that its jar was removed replaces it. -/
theorem forEachJar_of_replacing {jarInput : JarInput}
    {outputProvider : TransformOutputProvider} {context : Context}
    {isIncremental : Bool} (long : LongPath jarInput.file)
    (replacing : isIncremental = false ∨ jarInput.status ≠ .removed) :
    forEachJar tools jarInput outputProvider context isIncremental =
      replaceJar tools jarInput (outputProvider.getContentLocation
        (jarName jarInput.file) jarInput.contentTypes jarInput.scopes .jar)
        context := by
  rw [forEachJar, generateJarFileName_of_long long, Action.ofExcept_ok_bind]
  obtain ⟨file, types, scopes, status⟩ := jarInput
  cases isIncremental with
  | false => rfl
  | true =>
      cases status with
      | removed => simp at replacing
      | notChanged => rfl
      | added => rfl
      | changed => rfl

end Task

end DripStone.BaseTransform
