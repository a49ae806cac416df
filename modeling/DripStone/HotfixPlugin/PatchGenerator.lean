import DripStone.HotfixPlugin.HexFile

/-!
# `PatchGenerator`

Each build compares the hashes of its classes with the file that the build
before has left, puts those that differ into a jar, writes the file anew, and
then has the jar converted to a patch, which may fail.
-/

namespace DripStone.HotfixPlugin

open DripStone.Library

variable {ByteCode : Type}

/-- A class with its instrumented bytes. -/
structure Instrumented (ByteCode : Type) where
  className : Text
  byteCode : ByteCode

/-- `HotfixUtils.hex`, and the order of the keys of a map. -/
structure Tools (ByteCode : Type) where
  hex : ByteCode → Text
  order : KeyOrder

/-- The files that stay from one build to the next. -/
structure OutputDir (ByteCode : Type) where
  hexFile : Option Text
  -- `patchClass.jar`
  jarFile : Option (List (Instrumented ByteCode))
  -- the classes in `patch.jar`
  patchFile : Option (List (Instrumented ByteCode))

structure PatchGenerator (ByteCode : Type) where
  oldHexs : Option Hexs
  -- the entries of `jarOutputStream`, when it is open
  output : Option (List (Instrumented ByteCode))

/-! ## `checkClass` -/

namespace PatchGenerator

def new (hexFile : Option Text) : PatchGenerator ByteCode :=
  ⟨hexFile.map readHex, none⟩

/-- `HotfixUtils.isEmpty(oldHexs)` -/
def noHexs (generator : PatchGenerator ByteCode) : Bool :=
  generator.oldHexs.getD [] = []

/-- The entry of a class; the exception of a duplicate is caught. -/
def putNextEntry (entries : List (Instrumented ByteCode))
    (entry : Instrumented ByteCode) : List (Instrumented ByteCode) :=
  if entry.className ∈ entries.map Instrumented.className then entries
  else entries ++ [entry]

/-- The hash of the class is not the old one. -/
def Differs (generator : PatchGenerator ByteCode) (className hex : Text) :
    Prop :=
  generator.noHexs = false ∧
    (generator.oldHexs.getD []).get className ≠ some hex

instance (generator : PatchGenerator ByteCode) (className hex : Text) :
    Decidable (generator.Differs className hex) :=
  inferInstanceAs (Decidable (_ ∧ _))

def checkClass (generator : PatchGenerator ByteCode) (hex : Text)
    (entry : Instrumented ByteCode) : PatchGenerator ByteCode :=
  if generator.Differs entry.className hex then
    { generator with
      output := some (putNextEntry (generator.output.getD []) entry) }
  else generator

/-- Some calls of `checkClass`, each with its hash. -/
def checkAll (generator : PatchGenerator ByteCode)
    (calls : List (Text × Instrumented ByteCode)) : PatchGenerator ByteCode :=
  calls.foldl (fun generator call => generator.checkClass call.1 call.2)
    generator

/-- The names of the entries that were put out. -/
def names (generator : PatchGenerator ByteCode) : List Text :=
  (generator.output.getD []).map Instrumented.className

end PatchGenerator

/-! ## A build -/

/-- How the conversion to a patch ends, when there is a jar. -/
inductive Conversion where
  | succeeds
  | fails
deriving DecidableEq, Repr

inductive Generated where
  | nothing
  | patch
  | failure
deriving DecidableEq, Repr

structure Build (ByteCode : Type) where
  classes : List (Instrumented ByteCode)
  conversion : Conversion

/-- `generate`; a failure leaves the jar. -/
def generate (generator : PatchGenerator ByteCode)
    (outputDir : OutputDir ByteCode) (conversion : Conversion) :
    OutputDir ByteCode × Generated :=
  if outputDir.jarFile.isNone ∧ generator.output.isNone then
    (outputDir, .nothing)
  else
    -- a jar that an earlier build has left is written anew
    let entries := generator.output.getD []
    match conversion with
    | .succeeds =>
        ({ outputDir with jarFile := none, patchFile := some entries },
          .patch)
    | .fails => ({ outputDir with jarFile := some entries }, .failure)

section Builds

variable (tools : Tools ByteCode)

/-- The loop over the classes: their hashes, and the generator. -/
def checkClasses (generator : PatchGenerator ByteCode)
    (classes : List (Instrumented ByteCode)) : PatchGenerator ByteCode :=
  classes.foldl
    (fun generator entry =>
      generator.checkClass (tools.hex entry.byteCode) entry)
    generator

def newHexs (classes : List (Instrumented ByteCode)) : Hexs :=
  classes.foldl
    (fun hexs entry => hexs.put entry.className (tools.hex entry.byteCode))
    []

/-- `dexTask.doFirst`, behind the instrumentation. -/
def Build.run (build : Build ByteCode) (outputDir : OutputDir ByteCode) :
    OutputDir ByteCode × Generated :=
  let generator :=
    checkClasses tools (.new outputDir.hexFile) build.classes
  let hexFile := writeHex tools.order (newHexs tools build.classes)
  generate generator { outputDir with hexFile := some hexFile }
    build.conversion

def OutputDir.new : OutputDir ByteCode :=
  ⟨none, none, none⟩

/-! ## What a patch holds -/

section Entries

variable {tools} {generator : PatchGenerator ByteCode}
  {classes : List (Instrumented ByteCode)} {entry : Instrumented ByteCode}

theorem oldHexs_checkClass {hex : Text} :
    (generator.checkClass hex entry).oldHexs = generator.oldHexs := by
  rw [PatchGenerator.checkClass]
  split
  · rfl
  · rfl

theorem differs_checkClass {hex className other : Text} :
    (generator.checkClass hex entry).Differs className other ↔
      generator.Differs className other := by
  rw [PatchGenerator.Differs, PatchGenerator.Differs, PatchGenerator.noHexs,
    PatchGenerator.noHexs, oldHexs_checkClass]

theorem names_putNextEntry (entries : List (Instrumented ByteCode))
    (className : Text) :
    className ∈ (PatchGenerator.putNextEntry entries entry).map
        Instrumented.className ↔
      className ∈ entries.map Instrumented.className ∨
        className = entry.className := by
  rw [PatchGenerator.putNextEntry]
  split
  · next isThere =>
      refine (or_iff_left_of_imp fun same => ?_).symm
      rw [same]
      exact isThere
  · simp

theorem names_checkClass {hex : Text} (className : Text) :
    className ∈ (generator.checkClass hex entry).names ↔
      className ∈ generator.names ∨
        entry.className = className ∧ generator.Differs className hex := by
  rw [PatchGenerator.checkClass]
  split
  · next differs =>
      rw [PatchGenerator.names, Option.getD_some, names_putNextEntry]
      refine or_congr_right ⟨?_, fun both => both.1.symm⟩
      rintro rfl
      exact ⟨rfl, differs⟩
  · next same =>
      refine (or_iff_left ?_).symm
      rintro ⟨rfl, differs⟩
      exact same differs

/-- Spec lemma: the names of the entries behind some calls. -/
theorem names_checkAll {calls : List (Text × Instrumented ByteCode)}
    (className : Text) :
    className ∈ (generator.checkAll calls).names ↔
      className ∈ generator.names ∨
        ∃ call ∈ calls, call.2.className = className ∧
          generator.Differs className call.1 := by
  induction calls generalizing generator with
  | nil => simp [PatchGenerator.checkAll]
  | cons first rest inductionHypothesis =>
      rw [PatchGenerator.checkAll, List.foldl_cons,
        ← PatchGenerator.checkAll, inductionHypothesis, names_checkClass,
        or_assoc, List.exists_mem_cons_iff]
      simp only [differs_checkClass]

/-- The names of the entries behind the loop of a build. -/
theorem names_checkClasses (className : Text) :
    className ∈ ((checkClasses tools generator classes).output.getD []).map
        Instrumented.className ↔
      className ∈ (generator.output.getD []).map Instrumented.className ∨
        ∃ entry ∈ classes, entry.className = className ∧
          generator.Differs className (tools.hex entry.byteCode) := by
  have calls : checkClasses tools generator classes =
      generator.checkAll (classes.map fun entry =>
        (tools.hex entry.byteCode, entry)) := by
    rw [checkClasses, PatchGenerator.checkAll, List.foldl_map]
  have behind := @names_checkAll ByteCode generator
    (classes.map fun entry => (tools.hex entry.byteCode, entry)) className
  rw [← calls] at behind
  simp only [List.mem_map, exists_exists_and_eq_and] at behind
  exact behind

/-- Every entry is a class of this build. -/
theorem mem_of_mem_output
    (isEntry : entry ∈ (checkClasses tools generator classes).output.getD
      []) :
    entry ∈ generator.output.getD [] ∨ entry ∈ classes := by
  induction classes generalizing generator with
  | nil => exact Or.inl isEntry
  | cons first rest inductionHypothesis =>
      rw [checkClasses, List.foldl_cons, ← checkClasses] at isEntry
      rcases inductionHypothesis isEntry with before | inRest
      · rw [PatchGenerator.checkClass] at before
        split at before
        · rw [Option.getD_some, PatchGenerator.putNextEntry] at before
          split at before
          · exact Or.inl before
          · rcases List.mem_append.mp before with earlier | isFirst
            · exact Or.inl earlier
            · rw [List.mem_singleton.mp isFirst]
              exact Or.inr List.mem_cons_self
        · exact Or.inl before
      · exact Or.inr (List.mem_cons_of_mem _ inRest)

end Entries

end Builds

end DripStone.HotfixPlugin
