import DripStone.Unzip.Extractors
import DripStone.Unzip.Listing

/-!
# How an extraction grows a tree

While the entries of one tree are extracted into an empty destination, what
exists below it is what lies on the way to the entries so far, and it is as in
the tree.
-/

namespace DripStone.Unzip

open DripStone.Library

section Calls

variable {workingDirectory : Path} {file : File} {files : FileSystem Bytes}
variable {path : Path}

/-- Making the directories of a path, whether it is looked for first or
not. -/
theorem find_mkdirs_call (isPath : file.normalized workingDirectory = path)
    (plain : ∀ name ∈ path, Plain name) (unblocked : files.Unblocked path)
    (other : Path) :
    (mkdirs workingDirectory file files).files.find other =
      if other <+: path then some .directory else files.find other := by
  unfold mkdirs
  by_cases found : isFound workingDirectory file files
  · have exists_ : (files.find path).isSome := by
      unfold isFound at found
      cases atPlace : place workingDirectory file files with
      | none => simp [atPlace] at found
      | some there =>
          have same : path = there := by
            rw [← isPath]
            exact FileSystem.normalize_of_resolve atPlace
          rw [same]
          simpa [atPlace] using found
    have directory : files.find path = some .directory := by
      rcases unblocked path List.prefix_rfl with missing | directory
      · simp [missing] at exists_
      · exact directory
    rw [if_pos found]
    by_cases above : other <+: path
    · obtain ⟨rest, rfl⟩ := above
      rw [if_pos (List.prefix_append other rest)]
      exact files.directory_of_append directory
    · rw [if_neg above]
      rfl
  · rw [if_neg found]
    dsimp only
    rw [isPath]
    exact FileSystem.find_mkdirs plain unblocked other

theorem mkdirs_runs : (mkdirs workingDirectory file files).thrown = false := by
  unfold mkdirs
  by_cases found : isFound workingDirectory file files
  · rw [if_pos found]
    rfl
  · rw [if_neg found]

theorem fileOutputStream_of_open (isPlace :
      place workingDirectory file files = some path)
    (isOpen : files.Open path) (content : Bytes) :
    (fileOutputStream workingDirectory file files content).thrown = false ∧
      ∀ other,
        (fileOutputStream workingDirectory file files content).files.find
          other =
            if other = path then some (.file content)
            else files.find other := by
  obtain ⟨written, succeeded, _, found⟩ :=
    FileSystem.write_of_open isOpen content
  unfold fileOutputStream
  simp only [isPlace, succeeded]
  exact ⟨trivial, found⟩

/-- A file that can be opened is created and written. -/
theorem createNewFile_bind (isPlace :
      place workingDirectory file files = some path)
    (isOpen : files.Open path) (content : Bytes) :
    let outcome := (createNewFile workingDirectory file files).bind
      fun files => fileOutputStream workingDirectory file files content
    outcome.thrown = false ∧
      ∀ other, outcome.files.find other =
        if other = path then some (.file content)
        else files.find other := by
  unfold createNewFile
  simp only [isPlace]
  by_cases exists_ : (files.find path).isSome
  · simp only [if_pos exists_]
    exact fileOutputStream_of_open isPlace isOpen content
  · obtain ⟨created, succeeded, openAgain, found⟩ :=
      FileSystem.write_of_open isOpen ([] : Bytes)
    have placeAgain : place workingDirectory file created = some path :=
      FileSystem.resolve_of_keeps (keeps_write succeeded) isPlace
    obtain ⟨runs, foundAgain⟩ :=
      fileOutputStream_of_open placeAgain openAgain content
    simp only [if_neg exists_, succeeded]
    refine ⟨runs, ?_⟩
    intro other
    show (fileOutputStream workingDirectory file created
      content).files.find other = _
    rw [foundAgain, found]
    by_cases here : other = path
    · rw [if_pos here, if_pos here]
    · rw [if_neg here, if_neg here, if_neg here]

end Calls

/-! ## The tree below the destination -/

/-- A tree, from its own root directory. -/
structure Shape where
  find : List Name → Option (Entry Bytes)
  root : find [] = some .directory
  closed : ∀ names rest, find (names ++ rest) ≠ none → rest ≠ [] →
    find names = some .directory
  plain : ∀ names, find names ≠ none → ∀ name ∈ names, Plain name

/-- The entry is one of the tree. -/
def Shape.Has (shape : Shape) (zipEntry : ZipEntry) : Prop :=
  namesOf zipEntry.name ≠ [] ∧
    shape.find (namesOf zipEntry.name) = some zipEntry.entry

/-- The names lie on the way to an entry. -/
def OnTheWay (zipEntries : List ZipEntry) (names : List Name) : Prop :=
  names = [] ∨ ∃ zipEntry ∈ zipEntries, names <+: namesOf zipEntry.name

theorem onTheWay_concat {zipEntries : List ZipEntry} {zipEntry : ZipEntry}
    {names : List Name} :
    OnTheWay (zipEntries ++ [zipEntry]) names ↔
      OnTheWay zipEntries names ∨ names <+: namesOf zipEntry.name := by
  unfold OnTheWay
  simp only [List.mem_append, List.mem_singleton, or_and_right, exists_or,
    exists_eq_left, or_assoc]

/-- The entries so far have been extracted into an empty destination. -/
structure Grown (workingDirectory : Path) (destination : Text)
    (inside : Path) (shape : Shape) (before : FileSystem Bytes)
    (zipEntries : List ZipEntry) (files : FileSystem Bytes) : Prop where
  reached : place workingDirectory (File.ofText destination) files =
    some inside
  present : ∀ names, OnTheWay zipEntries names →
    files.find (inside ++ names) = shape.find names
  absent : ∀ names, ¬ OnTheWay zipEntries names →
    files.find (inside ++ names) = none
  elsewhere : ∀ path, ¬ inside <+: path → files.find path = before.find path

section Growth

variable {workingDirectory : Path} {destination : Text} {inside : Path}
variable {shape : Shape} {before files : FileSystem Bytes}
variable {zipEntries : List ZipEntry} {zipEntry : ZipEntry}

theorem Grown.directory
    (grown : Grown workingDirectory destination inside shape before
      zipEntries files) :
    files.find inside = some .directory := by
  have atRoot := grown.present [] (Or.inl rfl)
  rwa [List.append_nil, shape.root] at atRoot

/-- The directories of the tree are in no one's way. -/
theorem Grown.unblocked
    (grown : Grown workingDirectory destination inside shape before
      zipEntries files)
    {names : List Name} (directory : shape.find names = some .directory) :
    files.Unblocked (inside ++ names) := by
  intro above isAbove
  rcases List.prefix_or_prefix_of_prefix isAbove
      (List.prefix_append inside names) with outer | inner
  · obtain ⟨rest, rfl⟩ := outer
    exact Or.inr (files.directory_of_append grown.directory)
  · obtain ⟨some, rfl⟩ := inner
    rw [List.prefix_append_right_inj] at isAbove
    obtain ⟨rest, rfl⟩ := isAbove
    by_cases onTheWay : OnTheWay zipEntries some
    · apply Or.inr
      rw [grown.present some onTheWay]
      by_cases last : rest = []
      · rwa [last, List.append_nil] at directory
      · exact shape.closed some rest (by simp [directory]) last
    · exact Or.inl (grown.absent some onTheWay)

/-- The files after an entry, when they change on the way to it only. -/
theorem Grown.extend
    (grown : Grown workingDirectory destination inside shape before
      zipEntries files)
    (isEntry : shape.Has zipEntry) {after : FileSystem Bytes}
    (keeps : Keeps files after)
    (target : after.find (inside ++ namesOf zipEntry.name) =
      some zipEntry.entry)
    (way : ∀ names, names <+: namesOf zipEntry.name →
      names ≠ namesOf zipEntry.name →
        after.find (inside ++ names) = some .directory)
    (rest : ∀ path, ¬ path <+: inside ++ namesOf zipEntry.name →
      after.find path = files.find path) :
    Grown workingDirectory destination inside shape before
      (zipEntries ++ [zipEntry]) after where
  reached := FileSystem.resolve_of_keeps keeps grown.reached
  present := by
    intro names onTheWay
    by_cases isAbove : names <+: namesOf zipEntry.name
    · by_cases same : names = namesOf zipEntry.name
      · rw [same, target, isEntry.2]
      · rw [way names isAbove same]
        obtain ⟨more, whole⟩ := isAbove
        symm
        apply shape.closed names more
        · rw [whole, isEntry.2]
          simp
        · rintro rfl
          exact same (by simpa using whole)
    · rw [rest _ (by rwa [List.prefix_append_right_inj])]
      rcases onTheWay_concat.mp onTheWay with earlier | now
      · exact grown.present names earlier
      · exact absurd now isAbove
  absent := by
    intro names offTheWay
    rw [onTheWay_concat, not_or] at offTheWay
    rw [rest _ (by simpa [List.prefix_append_right_inj] using offTheWay.2)]
    exact grown.absent names offTheWay.1
  elsewhere := by
    intro path outside
    by_cases isAbove : path <+: inside ++ namesOf zipEntry.name
    · rcases List.prefix_or_prefix_of_prefix isAbove
          (List.prefix_append inside _) with outer | inner
      · -- a directory above the destination stays one
        obtain ⟨more, rfl⟩ := outer
        have directory : files.find path = some .directory :=
          files.directory_of_append grown.directory
        rw [keeps path directory, ← grown.elsewhere path outside, directory]
      · exact absurd inner outside
    · rw [rest path isAbove]
      exact grown.elsewhere path outside

theorem Grown.normalized
    (grown : Grown workingDirectory destination inside shape before
      zipEntries files)
    {names : List Name} (plain : ∀ name ∈ names, Plain name) :
    normalize ((File.ofText destination).start workingDirectory)
      ((File.ofText destination).names ++ names) = inside ++ names := by
  have atDestination : normalize
      ((File.ofText destination).start workingDirectory)
      (File.ofText destination).names = inside :=
    FileSystem.normalize_of_resolve grown.reached
  rw [normalize_append, atDestination, normalize_of_plain plain]

theorem Grown.plain
    (grown : Grown workingDirectory destination inside shape before
      zipEntries files)
    {names : List Name} (exists_ : shape.find names ≠ none) :
    ∀ name ∈ inside ++ names, Plain name := by
  intro name inPath
  rcases List.mem_append.mp inPath with inInside | inNames
  · exact files.plain inside
      (by have directory := grown.directory
          unfold FileSystem.find at directory
          simp [directory]) name inInside
  · exact shape.plain names exists_ name inNames

/-- The directories of the tree are made when they are asked for. -/
theorem Grown.find_mkdirs
    (grown : Grown workingDirectory destination inside shape before
      zipEntries files)
    {names : List Name} (directory : shape.find names = some .directory)
    (file : File)
    (isFile : file = { File.ofText destination with
      names := (File.ofText destination).names ++ names })
    (other : Path) :
    (mkdirs workingDirectory file files).files.find other =
      if other <+: inside ++ names then some .directory
      else files.find other := by
  have exists_ : shape.find names ≠ none := by simp [directory]
  apply find_mkdirs_call
  · rw [isFile]
    exact grown.normalized (shape.plain names exists_)
  · exact grown.plain exists_
  · exact grown.unblocked directory

theorem Grown.step_directory
    (grown : Grown workingDirectory destination inside shape before
      zipEntries files)
    (isEntry : shape.Has zipEntry) (isDirectory : zipEntry.isDirectory) :
    Grown workingDirectory destination inside shape before
      (zipEntries ++ [zipEntry])
      (mkdirs workingDirectory
        ((File.ofText destination).child zipEntry.name) files).files := by
  have entry : zipEntry.entry = .directory := by
    rw [ZipEntry.entry, if_pos isDirectory]
  have made := grown.find_mkdirs (isEntry.2.trans (congrArg some entry))
    ((File.ofText destination).child zipEntry.name) rfl
  apply grown.extend isEntry keeps_mkdirs_call
  · rw [made, if_pos List.prefix_rfl, entry]
  · intro names isAbove _
    rw [made, if_pos]
    rwa [List.prefix_append_right_inj]
  · intro path elsewhere
    rw [made, if_neg elsewhere]

/-- A destination without names is the root directory. -/
theorem absolute_of_names_nil {text : Text} (named : text ≠ [])
    (noNames : (File.ofText text).names = []) :
    (File.ofText text).absolute = true := by
  cases text with
  | nil => exact absurd rfl named
  | cons first rest =>
      by_cases slash : first = '/'
      · simp [File.ofText, slash]
      · have noSlash : (first == '/') = false := by simpa using slash
        unfold File.ofText namesOf at noNames
        rw [List.splitOn_cons_eq_if_modifyHead, noSlash] at noNames
        have parts := List.splitOn_ne_nil '/' rest
        cases split : rest.splitOn '/' with
        | nil => exact absurd split parts
        | cons head tail =>
            rw [split] at noNames
            simp at noNames

theorem parent_of_child (named : destination ≠ []) {name : Text}
    {initial : List Name} {last : Name}
    (names : namesOf name = initial ++ [last]) :
    ((File.ofText destination).child name).getParentFile =
      some { File.ofText destination with
        names := (File.ofText destination).names ++ initial } := by
  unfold File.child
  rw [names, ← List.append_assoc]
  apply File.getParentFile_concat
  by_cases noNames : (File.ofText destination).names = []
  · exact Or.inl (absolute_of_names_nil named noNames)
  · exact Or.inr (by simp [noNames])

theorem Grown.step_file
    (grown : Grown workingDirectory destination inside shape before
      zipEntries files) (named : destination ≠ [])
    (isEntry : shape.Has zipEntry) (isFile : zipEntry.isDirectory = false) :
    let outcome :=
      (mkdirsOfParent workingDirectory
        ((File.ofText destination).child zipEntry.name) files).bind
          fun files =>
        (createNewFile workingDirectory
          ((File.ofText destination).child zipEntry.name) files).bind
            fun files =>
          fileOutputStream workingDirectory
            ((File.ofText destination).child zipEntry.name) files
              zipEntry.content
    outcome.thrown = false ∧
      Grown workingDirectory destination inside shape before
        (zipEntries ++ [zipEntry]) outcome.files := by
  have entry : zipEntry.entry = .file zipEntry.content := by
    rw [ZipEntry.entry, isFile]
    rfl
  obtain ⟨initial, last, names⟩ :
      ∃ initial last, namesOf zipEntry.name = initial ++ [last] :=
    ⟨_, _, (List.dropLast_append_getLast isEntry.1).symm⟩
  have exists_ : shape.find (initial ++ [last]) ≠ none := by
    rw [← names, isEntry.2]
    simp
  have directory : shape.find initial = some .directory :=
    shape.closed initial [last] exists_ (by simp)
  have plainLast : Plain last :=
    shape.plain _ exists_ last (by simp)
  -- the directory of the file
  have made := grown.find_mkdirs directory _ rfl
  have keptParent := @keeps_mkdirs_call workingDirectory
    { File.ofText destination with
      names := (File.ofText destination).names ++ initial } files
  have parentRuns := @mkdirs_runs workingDirectory
    { File.ofText destination with
      names := (File.ofText destination).names ++ initial } files
  generalize parentCall : mkdirs workingDirectory
    { File.ofText destination with
      names := (File.ofText destination).names ++ initial } files = parent
    at made keptParent parentRuns
  -- the file in it
  have path : inside ++ namesOf zipEntry.name =
      inside ++ initial ++ [last] := by
    rw [names, List.append_assoc]
  have isPlace : place workingDirectory
      ((File.ofText destination).child zipEntry.name) parent.files =
        some (inside ++ namesOf zipEntry.name) := by
    have reached := FileSystem.resolve_of_keeps keptParent grown.reached
    have below := @FileSystem.resolve_concat _ _ parent.files inside initial
      last (by rw [made, if_pos List.prefix_rfl]) plainLast
    show parent.files.resolve _ (_ ++ namesOf zipEntry.name) = _
    rw [names, FileSystem.resolve_append]
    rw [File.start] at reached ⊢
    exact (congrArg (Option.bind · _) reached).trans below
  have isOpen : parent.files.Open (inside ++ namesOf zipEntry.name) := by
    have fresh : ¬ inside ++ initial ++ [last] <+: inside ++ initial := by
      intro longer
      simpa using longer.length_le
    refine ⟨by rw [path]; simp, ?_, ?_, ?_⟩
    · rw [path, List.dropLast_concat, made, if_pos List.prefix_rfl]
    · rw [path]
      simpa using plainLast
    · rw [path, made, if_neg fresh, ← path]
      by_cases onTheWay : OnTheWay zipEntries (namesOf zipEntry.name)
      · rw [grown.present _ onTheWay, isEntry.2, entry]
        simp
      · rw [grown.absent _ onTheWay]
        simp
  obtain ⟨runs, found⟩ :=
    createNewFile_bind isPlace isOpen zipEntry.content
  have outcome : (mkdirsOfParent workingDirectory
      ((File.ofText destination).child zipEntry.name) files) = parent := by
    rw [mkdirsOfParent, parent_of_child named names]
    exact parentCall
  have kept := @keeps_bind files parent
    (fun files =>
      (createNewFile workingDirectory
        ((File.ofText destination).child zipEntry.name) files).bind
          fun files =>
        fileOutputStream workingDirectory
          ((File.ofText destination).child zipEntry.name) files
            zipEntry.content)
    keptParent
    fun files => keeps_bind keeps_createNewFile fun files =>
      keeps_fileOutputStream _
  rw [outcome]
  unfold Outcome.bind at kept ⊢
  rw [parentRuns] at kept ⊢
  refine ⟨runs, ?_⟩
  apply grown.extend isEntry kept
  · exact (found _).trans (by rw [if_pos rfl, entry])
  · intro above isAbove different
    have other : inside ++ above ≠ inside ++ namesOf zipEntry.name :=
      fun same => different (List.append_cancel_left same)
    have inInitial : above <+: initial := by
      rw [names, List.prefix_concat_iff, ← names] at isAbove
      exact isAbove.resolve_left different
    refine (found _).trans ?_
    rw [if_neg other, made, if_pos]
    rwa [List.prefix_append_right_inj]
  · intro other elsewhere
    have different : other ≠ inside ++ namesOf zipEntry.name := by
      rintro rfl
      exact elsewhere List.prefix_rfl
    have notAbove : ¬ other <+: inside ++ initial := by
      intro isAbove
      rw [path] at elsewhere
      exact elsewhere (isAbove.trans (List.prefix_append _ _))
    exact (found _).trans (by rw [if_neg different, made, if_neg notAbove])

/-- Step lemma. -/
theorem Grown.step
    (grown : Grown workingDirectory destination inside shape before
      zipEntries files) (named : destination ≠ [])
    (isEntry : shape.Has zipEntry) :
    (extractEntry workingDirectory destination zipEntry files).thrown =
        false ∧
      Grown workingDirectory destination inside shape before
        (zipEntries ++ [zipEntry])
        (extractEntry workingDirectory destination zipEntry files).files := by
  unfold extractEntry
  rw [File.ofText_join named, copied_eq (by omega)]
  by_cases isDirectory : zipEntry.isDirectory
  · simp only [if_pos isDirectory]
    exact ⟨mkdirs_runs, grown.step_directory isEntry isDirectory⟩
  · have isFile : zipEntry.isDirectory = false := by simpa using isDirectory
    simp only [if_neg isDirectory]
    exact grown.step_file named isEntry isFile

/-- Run lemma. -/
theorem Grown.run
    (grown : Grown workingDirectory destination inside shape before []
      files) (named : destination ≠ [])
    (areEntries : ∀ zipEntry ∈ zipEntries, shape.Has zipEntry) :
    let extraction :=
      (loop (Extractor.onUnzip.atEntry workingDirectory destination)).run
        ⟨files, true⟩ zipEntries
    extraction.running = true ∧
      Grown workingDirectory destination inside shape before zipEntries
        extraction.files := by
  induction zipEntries using List.reverseRecOn with
  | nil => exact ⟨rfl, grown⟩
  | append_singleton initial last inductionHypothesis =>
      obtain ⟨running, grownSoFar⟩ := inductionHypothesis
        fun zipEntry inInitial =>
          areEntries zipEntry (List.mem_append_left _ inInitial)
      obtain ⟨runs, grownNow⟩ := grownSoFar.step named
        (areEntries last (by simp))
      rw [Mealy.run_concat]
      generalize (loop (Extractor.onUnzip.atEntry workingDirectory
        destination)).run ⟨files, true⟩ initial = extraction at *
      simp only [loop, running, if_true]
      refine ⟨?_, grownNow⟩
      show (!(extractEntry workingDirectory destination last
        extraction.files).thrown) = true
      rw [runs]
      rfl

end Growth

end DripStone.Unzip
