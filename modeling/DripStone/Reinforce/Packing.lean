import DripStone.Reinforce.Runs

/-!
# Packing and signing

The last steps of a run return whenever the directory of the new archive can
be made and no directory stands where the archives should be.
-/

namespace DripStone.Reinforce

open DripStone.Library DripStone.Unzip

section Packing

variable {platform : Platform} {workingDirectory : Path}
variable {files added ready : FileSystem Bytes} {apk aar : List ZipEntry}

theorem located_resultFolder
    (isDirectory : files.find (resultPath workingDirectory) =
      some .directory) :
    Located workingDirectory resultFolder (resultPath workingDirectory)
      files :=
  ⟨rfl, by decide, rfl, isDirectory⟩

theorem unsignedApk_eq :
    unsignedApk = resultFolder.child "apk-unsigned.apk".toList := by decide

theorem signedApk_eq :
    signedApk = resultFolder.child "apk-signed.apk".toList := by decide

theorem unsignedPath_eq : unsignedPath workingDirectory =
    resultPath workingDirectory ++ ["apk-unsigned.apk".toList] := by
  have isNames : unsignedApk.names = resultFolder.names ++
    ["apk-unsigned.apk".toList] := by decide
  rw [unsignedPath, isNames, resultPath, List.append_assoc]

theorem signedPath_eq : signedPath workingDirectory =
    resultPath workingDirectory ++ ["apk-signed.apk".toList] := by
  have isNames : signedApk.names = resultFolder.names ++
    ["apk-signed.apk".toList] := by decide
  rw [signedPath, isNames, resultPath, List.append_assoc]

/-- Nothing but the temporary directories has changed. -/
def AgreeOutside (workingDirectory : Path)
    (files added : FileSystem Bytes) : Prop :=
  ∀ other, ¬apkTemp workingDirectory <+: other →
    ¬aarTemp workingDirectory <+: other → added.find other = files.find other

theorem AgreeOutside.at_names (agree : AgreeOutside workingDirectory files
    added) {names : List Name} (outsideApk : ¬tempFileApk.names <+: names)
    (outsideAar : ¬tempFileAar.names <+: names) :
    added.find (workingDirectory ++ names) =
      files.find (workingDirectory ++ names) := by
  apply agree
  · rw [apkTemp, List.prefix_append_right_inj]
    exact outsideApk
  · rw [aarTemp, List.prefix_append_right_inj]
    exact outsideAar

/-- The directory of the archives is made. -/
theorem Project.exists_ready
    (project : Project platform.streams workingDirectory apk aar files)
    (agree : AgreeOutside workingDirectory files added) :
    ∃ ready, resultOf (mkdirsOfParent workingDirectory unsignedApk added) =
        .ok ready ∧
      ready.find (resultPath workingDirectory) = some .directory ∧
      ∀ other, ¬other <+: resultPath workingDirectory →
        ready.find other = added.find other := by
  have plainNames : ∀ name ∈ resultFolder.names, Plain name := by decide
  have plain : ∀ name ∈ resultPath workingDirectory, Plain name := by
    intro name inPath
    rcases List.mem_append.mp inPath with above | below
    · exact project.plain name above
    · exact plainNames name below
  obtain ⟨content, isFile, _⟩ := project.apk
  have above : added.find (resultPath workingDirectory).dropLast =
      some .directory := by
    have isAbove : (resultPath workingDirectory).dropLast =
        workingDirectory ++ ["security".toList] := by
      rw [resultPath, List.dropLast_append_of_ne_nil (by decide)]
      rfl
    rw [isAbove, agree.at_names (by decide) (by decide)]
    have whole : workingDirectory ++ ["security".toList] ++
        apkFile.names.tail = workingDirectory ++ apkFile.names := by
      rw [List.append_assoc]
      exact congrArg (workingDirectory ++ ·) (by decide)
    have exists_ := Option.some_ne_none (Entry.file content)
    rw [← isFile, ← whole] at exists_
    exact files.find_of_append exists_ (by decide)
  have unblocked : added.Unblocked (resultPath workingDirectory) := by
    refine unblocked_of_noFile above fun content isFile => ?_
    rw [resultPath, agree.at_names (by decide) (by decide)] at isFile
    exact project.result content isFile
  have made := find_mkdirs_call (normalized_resultFolder workingDirectory) plain
    unblocked
  refine ⟨(mkdirs workingDirectory resultFolder added).files, ?_, ?_,
    fun other notAbove => ?_⟩
  · rw [mkdirsOfParent, getParentFile_unsignedApk, resultOf]
    simp only [mkdirs_runs, Bool.false_eq_true, if_false]
  · rw [made, if_pos List.prefix_rfl]
  · rw [made, if_neg notAbove]

/-- The archive is packed and signed. -/
theorem exists_signed (below : Below workingDirectory newApkFile
      (apkTemp workingDirectory))
    (isDirectory : ready.find (apkTemp workingDirectory) = some .directory)
    (atResult : ready.find (resultPath workingDirectory) = some .directory)
    (unsigned : ready.find (unsignedPath workingDirectory) ≠
      some .directory)
    (signed : ready.find (signedPath workingDirectory) ≠ some .directory) :
    ∃ zipped after,
      zip platform.streams workingDirectory (File.ofText newApkFile)
        unsignedApk ready = .ok zipped ∧
      signature platform workingDirectory unsignedApk signedApk zipped =
        .ok after := by
  have located := located_resultFolder atResult
  have plainUnsigned : Plain "apk-unsigned.apk".toList := by decide
  have plainSigned : Plain "apk-signed.apk".toList := by decide
  have outside : ¬apkTemp workingDirectory <+:
      unsignedPath workingDirectory := by
    rw [apkTemp, unsignedPath, List.prefix_append_right_inj]
    decide
  rw [unsignedPath_eq] at unsigned outside
  rw [signedPath_eq] at signed
  obtain ⟨zipped, leaves, isZipped, _, isPlace, isArchive, same⟩ :=
    zip_leaves platform.streams (noSlash_getName newApkFile)
      (below.place_of_find (by simp [isDirectory])) isDirectory
      (place_child located.isPlace located.isDirectory plainUnsigned)
      (open_child located.isDirectory plainUnsigned unsigned) outside
  generalize platform.streams.bytes _ = content at isArchive
  rw [← unsignedApk_eq] at isZipped isPlace
  have locatedZipped : Located workingDirectory resultFolder
      (resultPath workingDirectory) zipped := by
    refine located_resultFolder ?_
    rw [same _ (by simp), atResult]
  have apart : resultPath workingDirectory ++ ["apk-signed.apk".toList] ≠
      resultPath workingDirectory ++ ["apk-unsigned.apk".toList] := by
    rw [Ne, List.append_cancel_left_eq]
    decide
  obtain ⟨after, isWritten⟩ := (locatedZipped.writeArchive_ok_iff plainSigned
    (platform.jarsigner content)).mpr (by rw [same _ apart]; exact signed)
  refine ⟨zipped, after, isZipped, ?_⟩
  rw [signature, entryOf_of_place isPlace, isArchive, signedApk_eq]
  simp only [isWritten]

end Packing

end DripStone.Reinforce
