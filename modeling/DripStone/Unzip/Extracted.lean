import DripStone.Unzip.Compress
import DripStone.Unzip.RoundTrip

/-!
# What `Zip.unZip` extracts

The destination is deleted before the entries are read, and it exists again
only when a file has been extracted.  Entries of directories and of the
signature files are left out.
-/

namespace DripStone.Unzip

open DripStone.Library

/-- `unZip`; what is caught ends it where it stands. -/
def unZip (streams : ZipStreams) (workingDirectory : Path) (zip : File)
    (dir : Text) (files : FileSystem Bytes) : FileSystem Bytes :=
  let prepared :=
    (Extractor.unZip.prepare workingDirectory dir files).files
  match (place workingDirectory zip prepared).bind prepared.find with
  | some (.file content) =>
      ((loop (Extractor.unZip.atEntry workingDirectory dir)).run
        ⟨prepared, true⟩ (streams.zipEntries content)).files
  | _ => prepared

/-! ## The files so far -/

/-- The files at some names of a tree, extracted below a destination. -/
structure Extracted (workingDirectory : Path) (destination : Text)
    (inside : Path) (shape : Shape) (done : List (List Name))
    (files : FileSystem Bytes) : Prop where
  reach : ∀ after, Keeps files after →
    after.find inside = some .directory →
      place workingDirectory (File.ofText destination) after = some inside
  normalized :
    (File.ofText destination).normalized workingDirectory = inside
  plain : ∀ name ∈ inside, Plain name
  unblocked : files.Unblocked inside
  root : done ≠ [] → files.find inside = some .directory
  present : ∀ names ∈ done, ∀ above, above ≠ [] → above <+: names →
    files.find (inside ++ above) = shape.find above
  absent : ∀ below, below ≠ [] → (∀ names ∈ done, ¬ below <+: names) →
    files.find (inside ++ below) = none

section Steps

variable {workingDirectory : Path} {destination : Text} {inside : Path}
variable {shape : Shape} {done : List (List Name)}
variable {files : FileSystem Bytes} {names : List Name} {content : Bytes}

theorem Extracted.find_of_shape
    (extracted : Extracted workingDirectory destination inside shape done
      files) {below : List Name} (named : below ≠ []) :
    files.find (inside ++ below) = none ∨
      files.find (inside ++ below) = shape.find below := by
  by_cases onTheWay : ∃ some ∈ done, below <+: some
  · obtain ⟨some, isDone, above⟩ := onTheWay
    exact Or.inr (extracted.present some isDone below named above)
  · refine Or.inl (extracted.absent below named fun some isDone above => ?_)
    exact onTheWay ⟨some, isDone, above⟩

/-- The directories of the tree are in no one's way. -/
theorem Extracted.unblocked_below
    (extracted : Extracted workingDirectory destination inside shape done
      files) (directory : shape.find names = some .directory) :
    files.Unblocked (inside ++ names) := by
  intro above isAbove
  rcases List.prefix_or_prefix_of_prefix isAbove
      (List.prefix_append inside names) with outer | inner
  · exact extracted.unblocked above outer
  · obtain ⟨below, rfl⟩ := inner
    by_cases atRoot : below = []
    · rw [atRoot, List.append_nil]
      exact extracted.unblocked inside List.prefix_rfl
    · rcases extracted.find_of_shape atRoot with missing | same
      · exact Or.inl missing
      · rw [List.prefix_append_right_inj] at isAbove
        obtain ⟨rest, rfl⟩ := isAbove
        refine Or.inr (same.trans ?_)
        by_cases last : rest = []
        · rwa [last, List.append_nil] at directory
        · exact shape.closed below rest (by simp [directory]) last

theorem normalize_child {initial : List Name}
    (normalized :
      (File.ofText destination).normalized workingDirectory = inside)
    (plain : ∀ name ∈ initial, Plain name) :
    File.normalized workingDirectory
      { File.ofText destination with
        names := (File.ofText destination).names ++ initial } =
          inside ++ initial := by
  rw [File.normalized] at normalized ⊢
  have start : File.start workingDirectory
      { File.ofText destination with
        names := (File.ofText destination).names ++ initial } =
          (File.ofText destination).start workingDirectory := rfl
  rw [start, normalize_append, normalized, normalize_of_plain plain]

/-- What the call for a file leaves below the destination. -/
structure FileStep (inside : Path) (initial : List Name) (last : Name)
    (content : Bytes) (files : FileSystem Bytes) (outcome : Outcome) :
    Prop where
  runs : outcome.thrown = false
  keeps : Keeps files outcome.files
  find : ∀ other, outcome.files.find other =
    if other = inside ++ (initial ++ [last]) then some (.file content)
    else if other <+: inside ++ initial then some .directory
    else files.find other

/-- What leads to the destination, as long as directories stay. -/
def Reaches (workingDirectory : Path) (destination : Text) (inside : Path)
    (files : FileSystem Bytes) : Prop :=
  ∀ after, Keeps files after → after.find inside = some .directory →
    place workingDirectory (File.ofText destination) after = some inside

/-- Spec lemma: a file is written where nothing is in its way, with the
directories on the way to it. -/
theorem fileStep_of_unblocked
    (reach : Reaches workingDirectory destination inside files)
    (normalized :
      (File.ofText destination).normalized workingDirectory = inside)
    (plainInside : ∀ name ∈ inside, Plain name) (named : destination ≠ [])
    {name : Text} {initial : List Name} {last : Name}
    (isName : namesOf name = initial ++ [last])
    (plainNames : ∀ name ∈ initial ++ [last], Plain name)
    (unblocked : files.Unblocked (inside ++ initial))
    (noDirectory : files.find (inside ++ (initial ++ [last])) ≠
      some .directory) :
    FileStep inside initial last content files
      ((mkdirsOfParent workingDirectory ((File.ofText destination).child name)
        files).bind fun files =>
          fileOutputStream workingDirectory
            ((File.ofText destination).child name) files content) := by
  have plainInitial : ∀ name ∈ initial, Plain name := fun name inInitial =>
    plainNames name (List.mem_append_left _ inInitial)
  have plainWhole : ∀ name ∈ inside ++ initial, Plain name := by
    intro name inPath
    rcases List.mem_append.mp inPath with inInside | inInitial
    · exact plainInside name inInside
    · exact plainInitial name inInitial
  -- the directory of the file
  have made := find_mkdirs_call
    (normalize_child normalized plainInitial) plainWhole unblocked
  have keptParent := @keeps_mkdirs_call workingDirectory
    { File.ofText destination with
      names := (File.ofText destination).names ++ initial } files
  have parentRuns := @mkdirs_runs workingDirectory
    { File.ofText destination with
      names := (File.ofText destination).names ++ initial } files
  have parentCall : mkdirsOfParent workingDirectory
      ((File.ofText destination).child name) files =
        mkdirs workingDirectory
          { File.ofText destination with
            names := (File.ofText destination).names ++ initial } files := by
    rw [mkdirsOfParent, parent_of_child named isName]
  generalize mkdirs workingDirectory
    { File.ofText destination with
      names := (File.ofText destination).names ++ initial } files = parent
    at made keptParent parentRuns parentCall
  -- the file in it
  have reached := reach parent.files keptParent
    (by rw [made, if_pos (List.prefix_append _ _)])
  have isPlace : place workingDirectory
      ((File.ofText destination).child name) parent.files =
        some (inside ++ (initial ++ [last])) := by
    have below := @FileSystem.resolve_concat _ _ parent.files inside initial
      last (by rw [made, if_pos List.prefix_rfl])
      (plainNames last (by simp))
    show parent.files.resolve _ (_ ++ namesOf name) = _
    rw [isName, FileSystem.resolve_append]
    rw [place, File.start] at reached
    rw [File.start]
    exact (congrArg (Option.bind · _) reached).trans below
  have fresh : ¬ inside ++ (initial ++ [last]) <+: inside ++ initial := by
    intro longer
    have lengths := longer.length_le
    simp at lengths
  have isOpen : parent.files.Open (inside ++ (initial ++ [last])) := by
    refine ⟨by simp, ?_, ?_, ?_⟩
    · rw [← List.append_assoc, List.dropLast_concat, made,
        if_pos List.prefix_rfl]
    · rw [← List.append_assoc]
      simpa using plainNames last (by simp)
    · rwa [made, if_neg fresh]
  obtain ⟨runs, found⟩ := fileOutputStream_of_open isPlace isOpen content
  have kept := @keeps_bind files parent (fun files =>
    fileOutputStream workingDirectory ((File.ofText destination).child name)
      files content) keptParent fun files => keeps_fileOutputStream _
  rw [parentCall]
  refine ⟨?_, kept, fun other => ?_⟩
  · unfold Outcome.bind
    rw [parentRuns]
    exact runs
  · unfold Outcome.bind
    rw [parentRuns]
    refine (found other).trans ?_
    rw [made]

theorem Extracted.fileStep
    (extracted : Extracted workingDirectory destination inside shape done
      files) (named : destination ≠ []) {name : Text} {initial : List Name}
    {last : Name} (isName : namesOf name = initial ++ [last])
    (isFile : shape.find (initial ++ [last]) = some (.file content)) :
    FileStep inside initial last content files
      ((mkdirsOfParent workingDirectory ((File.ofText destination).child name)
        files).bind fun files =>
          fileOutputStream workingDirectory
            ((File.ofText destination).child name) files content) := by
  have exists_ : shape.find (initial ++ [last]) ≠ none := by simp [isFile]
  have directory : shape.find initial = some .directory :=
    shape.closed initial [last] exists_ (by simp)
  apply fileStep_of_unblocked extracted.reach extracted.normalized
    extracted.plain named isName (shape.plain _ exists_)
    (extracted.unblocked_below directory)
  have below : initial ++ [last] ≠ [] := by simp
  rcases extracted.find_of_shape below with missing | same
  · simp [missing]
  · simp [same, isFile]

/-- Step lemma: one more file. -/
theorem Extracted.file
    (extracted : Extracted workingDirectory destination inside shape done
      files) {initial : List Name} {last : Name} {outcome : Outcome}
    (isFile : shape.find (initial ++ [last]) = some (.file content))
    (step : FileStep inside initial last content files outcome) :
    Extracted workingDirectory destination inside shape
      (done ++ [initial ++ [last]]) outcome.files where
  reach := fun after keeps => extracted.reach after (step.keeps.trans keeps)
  normalized := extracted.normalized
  plain := extracted.plain
  unblocked := by
    intro above isAbove
    have shorter : above ≠ inside ++ (initial ++ [last]) := by
      rintro rfl
      have lengths := isAbove.length_le
      simp at lengths
    rw [step.find, if_neg shorter,
      if_pos (isAbove.trans (List.prefix_append _ _))]
    exact Or.inr rfl
  root := by
    intro _
    rw [step.find, if_neg (by simp), if_pos (List.prefix_append _ _)]
  present := by
    intro names isDone above named isAbove
    rw [step.find]
    by_cases isLast : above = initial ++ [last]
    · rw [if_pos (by rw [isLast]), isLast, isFile]
    · rw [if_neg fun same => isLast (List.append_cancel_left same)]
      by_cases onTheWay : above <+: initial
      · rw [if_pos ((List.prefix_append_right_inj inside).mpr onTheWay)]
        obtain ⟨rest, rfl⟩ := onTheWay
        refine (shape.closed above (rest ++ [last]) ?_ (by simp)).symm
        rw [← List.append_assoc, isFile]
        simp
      · rw [if_neg fun isPrefix =>
          onTheWay ((List.prefix_append_right_inj inside).mp isPrefix)]
        rcases List.mem_append.mp isDone with earlier | now
        · exact extracted.present names earlier above named isAbove
        · rw [List.mem_singleton.mp now, List.prefix_concat_iff] at isAbove
          exact absurd isAbove (not_or.mpr ⟨isLast, onTheWay⟩)
  absent := by
    intro below named noPrefix
    have atLast := noPrefix (initial ++ [last]) (by simp)
    have isOther : inside ++ below ≠ inside ++ (initial ++ [last]) := by
      intro same
      rw [List.append_cancel_left same] at atLast
      exact atLast List.prefix_rfl
    have notAbove : ¬inside ++ below <+: inside ++ initial := by
      rw [List.prefix_append_right_inj]
      exact fun above => atLast (above.trans (List.prefix_append _ _))
    rw [step.find, if_neg isOther, if_neg notAbove]
    exact extracted.absent below named fun names earlier =>
      noPrefix names (List.mem_append_left _ earlier)

end Steps

/-! ## The loop over the entries of a tree -/

/-- A directory as a tree of its own. -/
def dirShape (files : FileSystem Bytes) (dirPath : Path)
    (isDirectory : files.find dirPath = some .directory) : Shape where
  find names := files.find (dirPath ++ names)
  root := by rw [List.append_nil, isDirectory]
  closed := by
    intro names rest exists_ more
    rw [← List.append_assoc] at exists_
    exact files.find_of_append exists_ more
  plain := fun _ exists_ => plain_of_find exists_

/-- A file that is no signature file. -/
def isExtracted (files : FileSystem Bytes) (dirPath : Path)
    (names : List Name) : Bool :=
  match files.find (dirPath ++ names) with
  | some (.file _) => textOf names ∉ signatureFiles
  | _ => false

section Loop

variable {workingDirectory : Path} {destination : Text} {inside : Path}
variable {source files : FileSystem Bytes} {dirPath : Path} {root : Name}
variable {isDirectory : source.find dirPath = some .directory}
variable {done : List (List Name)} {names : List Name}

theorem isDirectory_of_file (named : names ≠ [])
    (plain : ∀ name ∈ names, Plain name) (content : Bytes) :
    ZipEntry.isDirectory ⟨textOf names, content⟩ = false := by
  have entry := entry_file named plain content
  rw [ZipEntry.entry] at entry
  by_contra directory
  rw [if_pos (Bool.not_eq_false _ ▸ directory)] at entry
  cases entry

/-- Step lemma: the entry of a leaf. -/
theorem Extracted.leaf
    (extracted : Extracted workingDirectory destination inside
      (dirShape source dirPath isDirectory) done files)
    (named : destination ≠ []) (leaf : IsLeaf source (dirPath ++ names)) :
    let outcome := unZipEntry workingDirectory (File.ofText destination)
      (entryAt source dirPath root names) files
    outcome.thrown = false ∧
      (isExtracted source dirPath names = false → outcome.files = files) ∧
      Extracted workingDirectory destination inside
        (dirShape source dirPath isDirectory)
        (done ++ if isExtracted source dirPath names then [names] else [])
        outcome.files := by
  rcases leaf with ⟨content, isFile⟩ | ⟨directory, _⟩
  · have below : names ≠ [] := by
      rintro rfl
      rw [List.append_nil, isDirectory] at isFile
      cases isFile
    have plain := plain_of_find (show source.find (dirPath ++ names) ≠ none by
      simp [isFile])
    have noDirectory := isDirectory_of_file below plain content
    simp only [entryAt, isExtracted, isFile, unZipEntry]
    by_cases signature : textOf names ∈ signatureFiles
    · simp only [signature, not_true_eq_false, decide_false, if_true,
        Bool.false_eq_true, if_false, List.append_nil]
      exact ⟨rfl, fun _ => rfl, extracted⟩
    · simp only [signature, not_false_eq_true, decide_true, if_true, if_false,
        noDirectory, Bool.false_eq_true]
      rw [copied_eq (by omega)]
      obtain ⟨initial, last, rfl⟩ :
          ∃ initial last, names = initial ++ [last] :=
        ⟨_, _, (List.dropLast_append_getLast below).symm⟩
      have step := extracted.fileStep named (namesOf_textOf plain) isFile
      exact ⟨step.runs, fun left => absurd left Bool.true_eq_false.mp,
        extracted.file isFile step⟩
  · have isSlash : ZipEntry.isDirectory
        ⟨textOf (root :: names) ++ ['/'], []⟩ = true := by
      simp [ZipEntry.isDirectory]
    simp only [entryAt, isExtracted, directory, unZipEntry, isSlash, if_true,
      ite_self, Bool.false_eq_true, if_false, List.append_nil]
    exact ⟨rfl, fun _ => rfl, extracted⟩

/-- Run lemma: the files of the tree that are no signature files. -/
theorem Extracted.run
    (extracted : Extracted workingDirectory destination inside
      (dirShape source dirPath isDirectory) [] files)
    (named : destination ≠ []) {leaves : List (List Name)}
    (areLeaves : ∀ names ∈ leaves, IsLeaf source (dirPath ++ names)) :
    let extraction :=
      (loop (Extractor.unZip.atEntry workingDirectory destination)).run
        ⟨files, true⟩ (leaves.map (entryAt source dirPath root))
    extraction.running = true ∧
      (leaves.filter (isExtracted source dirPath) = [] →
        extraction.files = files) ∧
      Extracted workingDirectory destination inside
        (dirShape source dirPath isDirectory)
        (leaves.filter (isExtracted source dirPath)) extraction.files := by
  induction leaves using List.reverseRecOn with
  | nil => exact ⟨rfl, fun _ => rfl, extracted⟩
  | append_singleton initial last inductionHypothesis =>
      obtain ⟨running, untouched, soFar⟩ :=
        inductionHypothesis fun names inInitial =>
          areLeaves names (List.mem_append_left _ inInitial)
      obtain ⟨runs, left, now⟩ := @Extracted.leaf _ _ _ _ _ _ root _ _ _ soFar
        named (areLeaves last (by simp))
      rw [List.map_append, List.map_singleton, Mealy.run_concat,
        List.filter_append, List.filter_singleton, Bool.cond_eq_ite]
      generalize (loop (Extractor.unZip.atEntry workingDirectory
        destination)).run ⟨files, true⟩
          (initial.map (entryAt source dirPath root)) = extraction at *
      simp only [loop, running, if_true]
      refine ⟨?_, fun none => ?_, now⟩
      · show (!(unZipEntry workingDirectory (File.ofText destination)
          (entryAt source dirPath root last) extraction.files).thrown) = true
        rw [runs]
        rfl
      · rw [List.append_eq_nil_iff] at none
        have notNow : isExtracted source dirPath last = false := by
          by_contra extracts
          rw [if_pos (Bool.not_eq_false _ ▸ extracts)] at none
          exact absurd none.2 (List.cons_ne_nil _ _)
        exact (left notNow).trans (untouched none.1)

end Loop

/-! ## In front of the loop -/

section Prepared

variable {workingDirectory : Path} {destination : Text} {inside : Path}
variable {files : FileSystem Bytes}

theorem find_deleteDir {dir : File}
    (normalized : dir.normalized workingDirectory = inside) :
    let deleted := deleteDir workingDirectory dir files
    (∀ other, other ≠ inside → deleted.find other = files.find other) ∧
      (deleted.find inside = none ∨
        deleted.find inside = files.find inside) := by
  rw [deleteDir]
  split
  · exact ⟨fun _ _ => rfl, Or.inr rfl⟩
  · next path isPlace =>
      have same : path = inside :=
        (FileSystem.normalize_of_resolve isPlace).symm.trans normalized
      split
      · constructor
        · intro other differs
          rw [FileSystem.find_delete, if_neg fun both =>
            differs (both.2.trans same)]
        · rw [FileSystem.find_delete]
          split
          · exact Or.inl rfl
          · exact Or.inr rfl
      · exact ⟨fun _ _ => rfl, Or.inr rfl⟩

theorem EmptyDestination.normalized
    (isEmpty : EmptyDestination workingDirectory destination files inside) :
    (File.ofText destination).normalized workingDirectory = inside := by
  rcases isEmpty.found with ⟨reached, _⟩ | ⟨_, _, isPath, _⟩
  · exact FileSystem.normalize_of_resolve reached
  · exact isPath

/-- Nothing has been extracted yet. -/
theorem EmptyDestination.extracted
    (isEmpty : EmptyDestination workingDirectory destination files inside)
    (shape : Shape) :
    Extracted workingDirectory destination inside shape []
      (deleteDir workingDirectory (File.ofText destination) files) := by
  have normalized := isEmpty.normalized
  obtain ⟨found, atInside⟩ :=
    @find_deleteDir _ _ files _ normalized
  have missingOr : files.find inside = none ∨
      files.find inside = some .directory := by
    rcases isEmpty.found with ⟨_, directory⟩ | ⟨_, _, _, _, missing⟩
    · exact Or.inr directory
    · exact Or.inl missing
  have unblocked : files.Unblocked inside := by
    rcases isEmpty.found with ⟨_, directory⟩ | ⟨_, _, _, unblocked, _⟩
    · rintro above ⟨rest, rfl⟩
      exact Or.inr (files.directory_of_append directory)
    · exact unblocked
  refine ⟨?_, normalized, ?_, ?_, fun some => absurd rfl some, ?_, ?_⟩
  · intro after keeps directory
    rcases isEmpty.found with ⟨reached, _⟩ | ⟨working, plain, isPath, _⟩
    · refine FileSystem.resolve_of_keeps (fun path isDirectory => ?_) reached
      by_cases same : path = inside
      · rw [same, directory]
      · exact keeps path ((found path same).trans isDirectory)
    · obtain ⟨whole, _⟩ := EmptyDestination.of_plain working plain isPath
      rw [whole] at directory ⊢
      exact FileSystem.resolve_of_find (by simp [directory])
  · rcases isEmpty.found with ⟨_, directory⟩ | ⟨working, plain, isPath, _⟩
    · apply files.plain
      unfold FileSystem.find at directory
      simp [directory]
    · exact (EmptyDestination.of_plain working plain isPath).2
  · intro above isAbove
    by_cases same : above = inside
    · rw [same]
      rcases atInside with missing | kept
      · exact Or.inl missing
      · rw [kept]
        exact missingOr
    · rw [found above same]
      exact unblocked above isAbove
  · intro names isDone
    exact absurd isDone List.not_mem_nil
  · intro below named _
    rw [found _ (by simpa using named)]
    exact isEmpty.empty below named

end Prepared

end DripStone.Unzip
