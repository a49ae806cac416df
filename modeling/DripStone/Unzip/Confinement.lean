import DripStone.Unzip.Extractors

/-!
# Where an extraction writes

The extractors join the destination and the name of an entry and look at
neither.  A name whose `..` lead out of the destination is created where it
leads, if the operating system lets it be created at all.
-/

namespace DripStone.Unzip

open DripStone.Library

/-! ## The law -/

/-- The destination is a directory, at `inside`. -/
def Destination (workingDirectory : Path) (destination : Text)
    (files : FileSystem Bytes) (inside : Path) : Prop :=
  destination ≠ [] ∧
    place workingDirectory (File.ofText destination) files = some inside ∧
    files.find inside = some .directory

namespace Extractor

variable (extractor : Extractor) (workingDirectory : Path)
variable (destination : Text) (files : FileSystem Bytes)

/-- The state in front of the loop. -/
def start : Extraction :=
  let outcome := extractor.prepare workingDirectory destination files
  ⟨outcome.files, !outcome.thrown⟩

/-- The state after some entries. -/
def after (zipEntries : List ZipEntry) : Extraction :=
  (loop (extractor.atEntry workingDirectory destination)).run
    (extractor.start workingDirectory destination files) zipEntries

/-- The paths an extraction creates or overwrites. -/
def touched (zipEntries : List ZipEntry) : List Path :=
  (extractor.prepare workingDirectory destination files).touched ++
    (loop (extractor.atEntry workingDirectory destination)).trace
      (extractor.start workingDirectory destination files) zipEntries

/-- The entries an extractor leaves out. -/
def Skips (zipEntry : ZipEntry) : Prop :=
  extractor = .unZip ∧
    (zipEntry.name ∈ signatureFiles ∨ zipEntry.isDirectory)

end Extractor

section Condition

variable (workingDirectory : Path) (inside : Path)

/-- Nothing is missing on the way to a file, or a file is in the way. -/
def NothingToMake (file : File) (files : FileSystem Bytes) : Prop :=
  isFound workingDirectory file files ∨
    files.made (file.normalized workingDirectory) = []

def CanBeWritten (file : File) (files : FileSystem Bytes) : Prop :=
  ∃ path, place workingDirectory file files = some path ∧ files.Open path

/-- A directory, when made, is inside the destination. -/
def HarmlessDirectory (file : File) (files : FileSystem Bytes) : Prop :=
  inside <+: file.normalized workingDirectory ∨
    NothingToMake workingDirectory file files

/-- A file and its directory, when written, are inside the destination. -/
def HarmlessFile (file : File) (files : FileSystem Bytes) : Prop :=
  ∀ parent, file.getParentFile = some parent →
    HarmlessDirectory workingDirectory inside parent files ∧
    (inside <+: file.normalized workingDirectory ∨
      ¬ CanBeWritten workingDirectory file
        (mkdirs workingDirectory parent files).files)

/-- The entry leads nowhere out of the destination. -/
def Harmless (extractor : Extractor) (destination : Text)
    (zipEntry : ZipEntry) (files : FileSystem Bytes) : Prop :=
  let file := (File.ofText destination).child zipEntry.name
  extractor.Skips zipEntry ∨
    if zipEntry.isDirectory then
      HarmlessDirectory workingDirectory inside file files
    else HarmlessFile workingDirectory inside file files

end Condition

/-- Every entry the loop comes to is harmless. -/
def Extractor.HarmlessRun (extractor : Extractor) (workingDirectory : Path)
    (destination : Text) (files : FileSystem Bytes) (inside : Path)
    (zipEntries : List ZipEntry) : Prop :=
  AtEvery (fun before zipEntry =>
    (extractor.after workingDirectory destination files before).running →
      Harmless workingDirectory inside extractor destination zipEntry
        (extractor.after workingDirectory destination files before).files)
    zipEntries

/-! ## What holds the destination -/

/-- The directories above the destination, and those its text names, exist. -/
structure Held (inside above : Path) (files : FileSystem Bytes) : Prop where
  strict : ∀ path, path <+: inside → path ≠ inside →
    files.find path = some .directory
  parent : files.find above = some .directory

theorem Held.of_keeps {inside above : Path}
    {before after : FileSystem Bytes} (held : Held inside above before)
    (keeps : Keeps before after) : Held inside above after where
  strict := fun path isAbove different =>
    keeps path (held.strict path isAbove different)
  parent := keeps above held.parent

/-! ## What the calls touch -/

/-- Every path is inside the destination. -/
def Within (inside : Path) (paths : List Path) : Prop :=
  ∀ path ∈ paths, inside <+: path

theorem within_nil (inside : Path) : Within inside [] := by
  intro path inNil
  exact absurd inNil List.not_mem_nil

theorem within_append {inside : Path} {paths others : List Path} :
    Within inside (paths ++ others) ↔
      Within inside paths ∧ Within inside others := by
  simp only [Within, List.mem_append, or_imp, forall_and]

section Calls

variable {workingDirectory : Path} {file : File} {files : FileSystem Bytes}
variable {inside above : Path}

/-- What is made on the way into the destination is inside it. -/
theorem within_made (held : Held inside above files) {path : Path}
    (into : inside <+: path) : Within inside (files.made path) := by
  intro made inMade
  have onTheWay := FileSystem.prefix_of_mem_made inMade
  have missing : files.find made = none := by
    rw [FileSystem.made, List.mem_filter] at inMade
    have both := of_decide_eq_true inMade.2
    exact both.1
  rcases List.prefix_or_prefix_of_prefix into onTheWay with isInside | isAbove
  · exact isInside
  · by_cases same : made = inside
    · rw [same]
    · rw [held.strict made isAbove same] at missing
      exact absurd missing (by simp)

theorem within_mkdirs_iff (held : Held inside above files) :
    Within inside (mkdirs workingDirectory file files).touched ↔
      HarmlessDirectory workingDirectory inside file files := by
  unfold mkdirs HarmlessDirectory NothingToMake
  by_cases found : isFound workingDirectory file files
  · rw [if_pos found]
    simp [found, Outcome.unchanged, within_nil]
  · rw [if_neg found, or_iff_right found]
    constructor
    · intro within
      by_cases into : inside <+: file.normalized workingDirectory
      · exact Or.inl into
      · apply Or.inr
        apply List.eq_nil_iff_forall_not_mem.mpr
        intro made inMade
        have onTheWay := FileSystem.prefix_of_mem_made inMade
        exact into ((within made inMade).trans onTheWay)
    · rintro (into | nothing)
      · exact within_made held into
      · dsimp only
        rw [nothing]
        exact within_nil inside

/-- The call writes at a path under a condition, and nowhere else. -/
def WritesAt (path : Path) (condition : Prop) (paths : List Path) : Prop :=
  (condition → paths ≠ [] ∧ ∀ other ∈ paths, other = path) ∧
    (¬ condition → paths = [])

theorem WritesAt.within_iff {path : Path} {condition : Prop}
    {paths : List Path} (writes : WritesAt path condition paths) :
    Within inside paths ↔ inside <+: path ∨ ¬ condition := by
  by_cases written : condition
  · obtain ⟨some, only⟩ := writes.1 written
    constructor
    · intro within
      obtain ⟨other, inPaths⟩ := List.exists_mem_of_ne_nil paths some
      have isInside := within other inPaths
      rw [only other inPaths] at isInside
      exact Or.inl isInside
    · rintro (isInside | unwritten)
      · intro other inPaths
        rwa [only other inPaths]
      · exact absurd written unwritten
  · rw [writes.2 written]
    exact iff_of_true (within_nil inside) (Or.inr written)

theorem WritesAt.eq_of_mem {path other : Path} {condition : Prop}
    {paths : List Path} (writes : WritesAt path condition paths)
    (inPaths : other ∈ paths) : other = path := by
  by_cases written : condition
  · exact (writes.1 written).2 other inPaths
  · rw [writes.2 written] at inPaths
    exact absurd inPaths List.not_mem_nil

theorem not_canBeWritten_of_none
    (lost : place workingDirectory file files = none) :
    ¬ CanBeWritten workingDirectory file files := by
  rintro ⟨path, found, _⟩
  rw [lost] at found
  exact absurd found (by simp)

theorem canBeWritten_iff {path : Path}
    (found : place workingDirectory file files = some path) :
    CanBeWritten workingDirectory file files ↔ files.Open path := by
  constructor
  · rintro ⟨other, foundOther, isOpen⟩
    rw [found, Option.some.injEq] at foundOther
    rwa [foundOther]
  · intro isOpen
    exact ⟨path, found, isOpen⟩

theorem normalized_of_place {path : Path}
    (found : place workingDirectory file files = some path) :
    file.normalized workingDirectory = path :=
  FileSystem.normalize_of_resolve found

theorem writesAt_fileOutputStream (content : Bytes) :
    WritesAt (file.normalized workingDirectory)
      (CanBeWritten workingDirectory file files)
      (fileOutputStream workingDirectory file files content).touched := by
  unfold fileOutputStream
  cases found : place workingDirectory file files with
  | none =>
      have lost := not_canBeWritten_of_none found
      exact ⟨fun written => absurd written lost, fun _ => rfl⟩
  | some path =>
      rw [normalized_of_place found, canBeWritten_iff found]
      by_cases isOpen : files.Open path
      · simp [WritesAt, FileSystem.write, isOpen]
      · simp [WritesAt, FileSystem.write, isOpen, Outcome.failed]

theorem writesAt_createNewFile (content : Bytes) :
    WritesAt (file.normalized workingDirectory)
      (CanBeWritten workingDirectory file files)
      ((createNewFile workingDirectory file files).bind fun files =>
        fileOutputStream workingDirectory file files content).touched := by
  unfold createNewFile
  cases found : place workingDirectory file files with
  | none =>
      have lost := not_canBeWritten_of_none found
      exact ⟨fun written => absurd written lost, fun _ => rfl⟩
  | some path =>
      dsimp only
      by_cases exists_ : (files.find path).isSome
      · -- the file, or a directory of its name, is left for the stream
        rw [if_pos exists_]
        exact writesAt_fileOutputStream content
      · rw [if_neg exists_, normalized_of_place found, canBeWritten_iff found]
        by_cases isOpen : files.Open path
        · have created : files.write path [] =
              some (files.put path (.file []) isOpen) := by
            rw [FileSystem.write, dif_pos isOpen]
          have stream := @writesAt_fileOutputStream workingDirectory file
            (files.put path (.file []) isOpen) content
          rw [normalized_of_place found] at stream
          rw [created]
          refine ⟨fun _ => ⟨List.cons_ne_nil _ _, ?_⟩, fun closed =>
            absurd isOpen closed⟩
          intro other inTouched
          rcases List.mem_cons.mp inTouched with same | later
          · exact same
          · exact stream.eq_of_mem later
        · simp [WritesAt, FileSystem.write, isOpen, Outcome.failed,
            Outcome.bind]

/-- A file below a directory that is made when it is missing. -/
theorem within_file_iff (held : Held inside above files)
    {next : FileSystem Bytes → Outcome}
    (writes : ∀ files, WritesAt (file.normalized workingDirectory)
      (CanBeWritten workingDirectory file files) (next files).touched) :
    Within inside
        ((mkdirsOfParent workingDirectory file files).bind next).touched ↔
      HarmlessFile workingDirectory inside file files := by
  unfold mkdirsOfParent HarmlessFile
  cases file.getParentFile with
  | none =>
      apply iff_of_true
      · exact within_nil inside
      · intro parent noParent
        exact absurd noParent (by simp)
  | some parent =>
      have runs : (mkdirs workingDirectory parent files).thrown = false := by
        unfold mkdirs
        by_cases found : isFound workingDirectory parent files
        · rw [if_pos found]
          rfl
        · rw [if_neg found]
      have touched :
          ((mkdirs workingDirectory parent files).bind next).touched =
            (mkdirs workingDirectory parent files).touched ++
              (next (mkdirs workingDirectory parent files).files).touched := by
        rw [Outcome.bind, runs]
        rfl
      dsimp only
      rw [touched, within_append, within_mkdirs_iff held,
        (writes _).within_iff]
      simp

theorem within_extractEntry_iff (held : Held inside above files)
    {destination : Text} (named : destination ≠ []) (zipEntry : ZipEntry) :
    Within inside
        (extractEntry workingDirectory destination zipEntry files).touched ↔
      if zipEntry.isDirectory then
        HarmlessDirectory workingDirectory inside
          ((File.ofText destination).child zipEntry.name) files
      else
        HarmlessFile workingDirectory inside
          ((File.ofText destination).child zipEntry.name) files := by
  unfold extractEntry
  rw [File.ofText_join named]
  by_cases directory : zipEntry.isDirectory
  · simp only [if_pos directory]
    exact within_mkdirs_iff held
  · simp only [if_neg directory]
    exact within_file_iff held fun files => writesAt_createNewFile _

theorem within_unZipEntry_iff (held : Held inside above files)
    (dir : File) (zipEntry : ZipEntry) :
    Within inside (unZipEntry workingDirectory dir zipEntry files).touched ↔
      (zipEntry.name ∈ signatureFiles ∨ zipEntry.isDirectory) ∨
        HarmlessFile workingDirectory inside (dir.child zipEntry.name)
          files := by
  unfold unZipEntry
  by_cases signature : zipEntry.name ∈ signatureFiles
  · rw [if_pos signature]
    exact iff_of_true (within_nil inside) (Or.inl (Or.inl signature))
  · rw [if_neg signature]
    by_cases directory : zipEntry.isDirectory
    · rw [if_pos directory]
      exact iff_of_true (within_nil inside) (Or.inl (Or.inr directory))
    · have written : ¬ (zipEntry.name ∈ signatureFiles ∨
          zipEntry.isDirectory) := by
        simp [signature, directory]
      rw [if_neg directory, or_iff_right written]
      exact within_file_iff held fun files => writesAt_fileOutputStream _

/-- An entry touches paths inside the destination if and only if it is
harmless. -/
theorem within_atEntry_iff (held : Held inside above files)
    {destination : Text} (named : destination ≠ []) (extractor : Extractor)
    (zipEntry : ZipEntry) :
    Within inside (extractor.atEntry workingDirectory destination zipEntry
        files).touched ↔
      Harmless workingDirectory inside extractor destination zipEntry
        files := by
  unfold Harmless Extractor.Skips
  cases extractor with
  | onUnzip =>
      rw [or_iff_right (by simp)]
      exact within_extractEntry_iff held named zipEntry
  | unZipFolder =>
      rw [or_iff_right (by simp)]
      exact within_extractEntry_iff held named zipEntry
  | unZip =>
      have written := @within_unZipEntry_iff workingDirectory files inside
        above held (File.ofText destination) zipEntry
      by_cases left : zipEntry.name ∈ signatureFiles ∨ zipEntry.isDirectory
      · exact iff_of_true (written.mpr (Or.inl left)) (Or.inl ⟨rfl, left⟩)
      · have file : ¬ zipEntry.isDirectory :=
          fun directory => left (Or.inr directory)
        rw [or_iff_right left] at written
        rw [or_iff_right fun skips => left skips.2]
        simp only [if_neg file]
        exact written

end Calls

/-! ## The whole extraction -/

section Extraction

variable {workingDirectory : Path} {destination : Text}
variable {files : FileSystem Bytes} {inside : Path} {extractor : Extractor}

/-- The directory above the last name of the destination's text. -/
def aboveText (workingDirectory : Path) (destination : Text) : Path :=
  normalize ((File.ofText destination).start workingDirectory)
    (File.ofText destination).names.dropLast

theorem Destination.held
    (isDestination :
      Destination workingDirectory destination files inside) :
    Held inside (aboveText workingDirectory destination) files where
  strict := by
    rintro path ⟨rest, rfl⟩ different
    have exists_ : files.find (path ++ rest) ≠ none := by
      simp [isDestination.2.2]
    apply files.find_of_append exists_
    rintro rfl
    exact different (List.append_nil path).symm
  parent := by
    obtain ⟨_, resolved, directory⟩ := isDestination
    unfold aboveText place at *
    cases names : (File.ofText destination).names using
        List.reverseRecOn with
    | nil =>
        rw [names] at resolved
        rw [← Option.some.inj resolved] at directory
        exact directory
    | append_singleton initial last =>
        rw [names] at resolved
        rw [List.dropLast_concat]
        exact FileSystem.find_of_resolve_concat resolved

/-- A plain last name leads out of the directory above. -/
theorem aboveText_ne
    (isDestination :
      Destination workingDirectory destination files inside)
    (plain : Plain (File.ofText destination).getName) :
    aboveText workingDirectory destination ≠ inside := by
  have normal : (File.ofText destination).normalized workingDirectory =
      inside := normalized_of_place isDestination.2.1
  unfold aboveText
  unfold File.normalized at normal
  unfold File.getName at plain
  cases names : (File.ofText destination).names using
      List.reverseRecOn with
  | nil =>
      rw [names] at plain
      exact absurd rfl plain.1
  | append_singleton initial last =>
      rw [names, List.getLastD_concat] at plain
      rw [names, normalize_append, normalize_cons, normalize_nil,
        plain.enter] at normal
      rw [List.dropLast_concat, ← normal]
      simp

/-- Nothing in front of the loop is created, and what holds the destination
stays. -/
theorem held_start
    (isDestination :
      Destination workingDirectory destination files inside) :
    Held inside (aboveText workingDirectory destination)
        (extractor.start workingDirectory destination files).files ∧
      (extractor.prepare workingDirectory destination files).touched =
        [] := by
  have held := isDestination.held
  cases extractor with
  | unZipFolder => exact ⟨held, rfl⟩
  | onUnzip =>
      have found :
          isFound workingDirectory (File.ofText destination) files := by
        rw [isFound, isDestination.2.1]
        simp [isDestination.2.2]
      have unchanged : Extractor.onUnzip.prepare workingDirectory destination
          files = .unchanged files := by
        rw [Extractor.prepare, mkdirs, if_pos found]
      rw [Extractor.start, unchanged]
      exact ⟨held, rfl⟩
  | unZip =>
      refine ⟨?_, rfl⟩
      show Held _ _ (deleteDir workingDirectory _ files)
      rw [deleteDir, isDestination.2.1]
      by_cases plain : Plain (File.ofText destination).getName
      · simp only [if_pos plain]
        constructor
        · intro path isAbove different
          rw [FileSystem.find_delete, if_neg fun both => different both.2]
          exact held.strict path isAbove different
        · have different := aboveText_ne isDestination plain
          rw [FileSystem.find_delete, if_neg fun both => different both.2]
          exact held.parent
      · simp only [if_neg plain]
        exact held

theorem held_after
    (isDestination :
      Destination workingDirectory destination files inside)
    (zipEntries : List ZipEntry) :
    Held inside (aboveText workingDirectory destination)
      (extractor.after workingDirectory destination files
        zipEntries).files := by
  have kept : ∀ (extraction : Extraction) (zipEntry : ZipEntry),
      Held inside (aboveText workingDirectory destination)
        extraction.files →
      Held inside (aboveText workingDirectory destination)
        ((loop (extractor.atEntry workingDirectory destination)).step
          extraction zipEntry).1.files := by
    intro extraction zipEntry held
    unfold loop
    by_cases running : extraction.running
    · simp only [if_pos running]
      exact held.of_keeps (keeps_atEntry extractor destination zipEntry)
    · simp only [if_neg running]
      exact held
  exact @Mealy.run_invariant _ _ _ _ _
    (fun extraction : Extraction =>
      Held inside (aboveText workingDirectory destination) extraction.files)
    kept (held_start isDestination).1 zipEntries

/-- An extraction touches paths inside the destination if and only if every
entry it comes to is harmless. -/
theorem within_touched_iff
    (isDestination :
      Destination workingDirectory destination files inside)
    (zipEntries : List ZipEntry) :
    Within inside
        (extractor.touched workingDirectory destination files zipEntries) ↔
      extractor.HarmlessRun workingDirectory destination files inside
        zipEntries := by
  unfold Extractor.touched
  rw [(held_start isDestination).2, List.nil_append]
  unfold Within
  rw [Mealy.forall_mem_trace_iff]
  have each : ∀ before zipEntry,
      (∀ path ∈
        ((loop (extractor.atEntry workingDirectory destination)).step
          (extractor.after workingDirectory destination files before)
          zipEntry).2, inside <+: path) ↔
        ((extractor.after workingDirectory destination files
            before).running →
          Harmless workingDirectory inside extractor destination zipEntry
            (extractor.after workingDirectory destination files
              before).files) := by
    intro before zipEntry
    have held := @held_after _ _ _ _ extractor isDestination before
    unfold loop
    by_cases running :
        (extractor.after workingDirectory destination files before).running
    · simp only [forall_const, running]
      exact within_atEntry_iff held isDestination.1 extractor zipEntry
    · simp [running]
  constructor
  · intro every
    exact every.mono fun before zipEntry => (each before zipEntry).mp
  · intro every
    exact every.mono fun before zipEntry => (each before zipEntry).mpr

/-! ## Names that stay inside -/

/-- The normalised path of an entry is inside the destination. -/
def StaysInside (workingDirectory : Path) (destination : Text)
    (inside : Path) (zipEntry : ZipEntry) : Prop :=
  inside <+: ((File.ofText destination).child zipEntry.name).normalized
    workingDirectory

theorem made_eq_nil {files : FileSystem Bytes} {path : Path}
    (directory : files.find path = some .directory) :
    files.made path = [] := by
  apply List.eq_nil_iff_forall_not_mem.mpr
  intro made inMade
  rw [FileSystem.made, List.mem_filter, List.mem_inits] at inMade
  obtain ⟨⟨rest, rfl⟩, missing⟩ := inMade
  have both := of_decide_eq_true missing
  by_cases same : rest = []
  · rw [same, List.append_nil] at directory
    rw [directory] at both
    exact absurd both.1 (by simp)
  · have exists_ : files.find (made ++ rest) ≠ none := by
      simp [directory]
    rw [files.find_of_append exists_ same] at both
    exact absurd both.1 (by simp)

/-- A parent is inside the destination, or it is a directory that leads
there. -/
theorem harmless_parent {files : FileSystem Bytes}
    (isPlace : (File.ofText destination).normalized workingDirectory =
      inside)
    (held : Held inside (aboveText workingDirectory destination) files)
    {zipEntry : ZipEntry}
    (stays : StaysInside workingDirectory destination inside zipEntry)
    {parent : File}
    (isParent : ((File.ofText destination).child
      zipEntry.name).getParentFile = some parent) :
    HarmlessDirectory workingDirectory inside parent files := by
  have parentNames := File.getParentFile_eq_some isParent
  have isDirectory : ∀ {path}, files.find path = some .directory →
      parent.normalized workingDirectory = path →
        HarmlessDirectory workingDirectory inside parent files := by
    intro path directory isPath
    rw [← isPath] at directory
    exact Or.inr (Or.inr (made_eq_nil directory))
  cases names : namesOf zipEntry.name using List.reverseRecOn with
  | nil =>
      -- the file is the destination itself
      apply isDirectory held.parent
      rw [parentNames]
      show normalize _ (_ ++ namesOf zipEntry.name).dropLast = _
      rw [names, List.append_nil]
      rfl
  | append_singleton initial last =>
      have isPlaceOfParent : parent.normalized workingDirectory =
          normalize inside initial := by
        rw [parentNames, ← isPlace]
        show normalize _ (_ ++ namesOf zipEntry.name).dropLast = _
        rw [names, ← List.append_assoc, List.dropLast_concat,
          normalize_append]
        rfl
      have into : inside <+: enter (normalize inside initial) last := by
        have target := stays
        unfold StaysInside at target
        rw [← isPlace] at target ⊢
        unfold File.normalized File.child at target
        rw [names, ← List.append_assoc] at target
        simp only [normalize_append, normalize_cons, normalize_nil] at target
        exact target
      rw [enter] at into
      by_cases isDot : last = dot
      · rw [if_pos isDot] at into
        rw [← isPlaceOfParent] at into
        exact Or.inl into
      · by_cases isDotDot : last = dotDot
        · rw [if_neg isDot, if_pos isDotDot, ← isPlaceOfParent] at into
          exact Or.inl (into.trans (List.dropLast_prefix _))
        · rw [if_neg isDot, if_neg isDotDot, List.prefix_concat_iff,
            ← isPlaceOfParent] at into
          rcases into with whole | isInside
          · -- the file is the destination, under another name
            apply isDirectory _ rfl
            apply held.strict
            · rw [whole]
              exact List.prefix_append _ _
            · intro same
              rw [same] at whole
              simp at whole
          · exact Or.inl isInside

theorem harmless_of_staysInside {files : FileSystem Bytes}
    (isPlace : (File.ofText destination).normalized workingDirectory =
      inside)
    (held : Held inside (aboveText workingDirectory destination) files)
    {zipEntry : ZipEntry}
    (stays : StaysInside workingDirectory destination inside zipEntry) :
    Harmless workingDirectory inside extractor destination zipEntry
      files := by
  apply Or.inr
  by_cases directory : zipEntry.isDirectory
  · rw [if_pos directory]
    exact Or.inl stays
  · rw [if_neg directory]
    intro parent isParent
    exact ⟨harmless_parent isPlace held stays isParent, Or.inl stays⟩

/-- Every path an extraction creates or overwrites is inside the destination
if and only if no entry it comes to leads out of it, which is so when the
normalised paths of the entries are inside. -/
theorem confined_iff_harmless (extractor : Extractor)
    (workingDirectory : Path) (destination : Text)
    (files : FileSystem Bytes) (inside : Path)
    (isDestination :
      Destination workingDirectory destination files inside)
    (zipEntries : List ZipEntry) :
    (Within inside
        (extractor.touched workingDirectory destination files zipEntries) ↔
      extractor.HarmlessRun workingDirectory destination files inside
        zipEntries) ∧
    ((∀ zipEntry ∈ zipEntries, extractor.Skips zipEntry ∨
        StaysInside workingDirectory destination inside zipEntry) →
      Within inside
        (extractor.touched workingDirectory destination files
          zipEntries)) := by
  have exact_ := @within_touched_iff _ _ _ _ extractor isDestination
    zipEntries
  refine ⟨exact_, ?_⟩
  intro stay
  apply exact_.mpr
  intro before zipEntry later parts running
  have inEntries : zipEntry ∈ zipEntries := by
    rw [parts]
    simp
  rcases stay zipEntry inEntries with skips | stays
  · exact Or.inl skips
  · exact harmless_of_staysInside
      (normalized_of_place isDestination.2.1)
      (held_after isDestination before) stays

end Extraction

/-! ## Archives -/

/-- The directory `/data/out`. -/
def out : Path := ["data".toList, "out".toList]

/-- A file system with that directory, empty. -/
def emptyOut : FileSystem Bytes :=
  FileSystem.empty.mkdirs out

theorem emptyOut_destination :
    Destination [] "/data/out".toList emptyOut out := by
  refine ⟨?_, ?_, ?_⟩ <;> decide

/-- Names with empty parts, `.`, and a `..` that stays inside. -/
def tidyArchive : List ZipEntry :=
  [⟨"dir//sub/".toList, []⟩, ⟨"dir/../a".toList, [1]⟩,
    ⟨"/./b".toList, [2, 3]⟩]

theorem tidyArchive_confined :
    Within out
      (Extractor.onUnzip.touched [] "/data/out".toList emptyOut
        tidyArchive) := by
  apply (confined_iff_harmless .onUnzip [] _ emptyOut out
    emptyOut_destination tidyArchive).2
  intro zipEntry inArchive
  apply Or.inr
  revert zipEntry
  unfold StaysInside
  decide

/-- A name that leads out, behind one that does not. -/
def slippingArchive : List ZipEntry :=
  [⟨"a".toList, [1]⟩, ⟨"../evil".toList, [2]⟩]

/-- Each extractor creates `/data/evil`. -/
theorem slippingArchive_escapes :
    Destination [] "/data/out".toList emptyOut out ∧
      ∀ extractor : Extractor, ¬ Within out
        (extractor.touched [] "/data/out".toList emptyOut
          slippingArchive) := by
  refine ⟨emptyOut_destination, ?_⟩
  intro extractor within
  have evil : ["data".toList, "evil".toList] ∈
      extractor.touched [] "/data/out".toList emptyOut slippingArchive := by
    cases extractor <;> decide
  exact absurd (within _ evil) (by decide)

end DripStone.Unzip
