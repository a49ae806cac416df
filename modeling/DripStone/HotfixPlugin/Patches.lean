import DripStone.HotfixPlugin.PatchGenerator

/-!
# Changes and patches

A build writes its hashes before the patch is converted, so a patch is made of
what has changed since the build before, and not since the last patch.
-/

namespace DripStone.HotfixPlugin

open DripStone.Library

variable {ByteCode : Type} (tools : Tools ByteCode)

/-! ## The law -/

/-- The bytes of a class in some build; the last of one name counts. -/
def byteCodeOf (classes : List (Instrumented ByteCode)) (className : Text) :
    Option ByteCode :=
  (classes.reverse.find? fun entry => entry.className = className).map
    Instrumented.byteCode

/-- The files behind some builds, and the classes of the last one that was a
baseline or whose generation did not fail. -/
def runAll (builds : List (Build ByteCode)) :
    OutputDir ByteCode × List (Instrumented ByteCode) :=
  builds.foldl
    (fun state build =>
      let result := build.run tools state.1
      (result.1,
        if result.2 = .failure then state.2 else build.classes))
    (.new, [])

def outputAfter (builds : List (Build ByteCode)) : OutputDir ByteCode :=
  (runAll tools builds).1

def reference (builds : List (Build ByteCode)) :
    List (Instrumented ByteCode) :=
  (runAll tools builds).2

/-- The classes of the patch that a build has, behind some others. -/
def patchOf (builds : List (Build ByteCode)) (build : Build ByteCode) :
    List (Instrumented ByteCode) :=
  (build.run tools (outputAfter tools builds)).1.patchFile.getD []

/-- The class is not the one of the last generation. -/
def Changed (builds : List (Build ByteCode)) (entry : Instrumented ByteCode) :
    Prop :=
  byteCodeOf (reference tools builds) entry.className ≠ some entry.byteCode

/-- A patch has every class that changed, and no class of an earlier jar. -/
structure LosesNoChange (builds : List (Build ByteCode))
    (build : Build ByteCode) : Prop where
  contains : ∀ entry ∈ build.classes, Changed tools builds entry →
    entry.className ∈
      (patchOf tools builds build).map Instrumented.className
  noneLeft : ∀ entry ∈ patchOf tools builds build, entry ∈ build.classes

/-- The generator with what the build before has left, as it is read back. -/
def comparing (builds : List (Build ByteCode)) : PatchGenerator ByteCode :=
  .new (builds.getLast?.map fun build =>
    writeHex tools.order (newHexs tools build.classes))

/-- Every class that changed since the last generation has not had its hash
in the build before; and that build had some hashes. -/
def ChangedAgain (builds : List (Build ByteCode)) (build : Build ByteCode) :
    Prop :=
  ∀ entry ∈ build.classes, Changed tools builds entry →
    ∃ other ∈ build.classes, other.className = entry.className ∧
      (comparing tools builds).Differs entry.className
        (tools.hex other.byteCode)

/-! ## One build -/

section OneBuild

variable {tools} {build : Build ByteCode} {outputDir : OutputDir ByteCode}
  {builds : List (Build ByteCode)}

theorem hexFile_generate {generator : PatchGenerator ByteCode}
    {conversion : Conversion} :
    (generate generator outputDir conversion).1.hexFile =
      outputDir.hexFile := by
  rw [generate]
  split
  · rfl
  · cases conversion with
    | succeeds => rfl
    | fails => rfl

/-- Every build writes its own hashes, whether a patch is made or not. -/
theorem hexFile_run :
    (build.run tools outputDir).1.hexFile =
      some (writeHex tools.order (newHexs tools build.classes)) :=
  hexFile_generate

theorem patchFile_generate {generator : PatchGenerator ByteCode}
    {conversion : Conversion}
    (patched : (generate generator outputDir conversion).2 = .patch) :
    (generate generator outputDir conversion).1.patchFile =
      some (generator.output.getD []) := by
  rw [generate] at patched ⊢
  split at patched
  · cases patched
  · next isJar =>
      rw [if_neg isJar]
      cases conversion with
      | succeeds => rfl
      | fails => cases patched

/-- Run lemma: the hashes are those of the build before. -/
theorem hexFile_outputAfter :
    (outputAfter tools builds).hexFile = builds.getLast?.map fun build =>
      writeHex tools.order (newHexs tools build.classes) := by
  induction builds using List.reverseRecOn with
  | nil => rfl
  | append_singleton builds build inductionHypothesis =>
      rw [outputAfter, runAll, List.foldl_append, List.foldl_cons,
        List.foldl_nil, hexFile_run, List.getLast?_append]
      rfl

/-- Spec lemma: a patch has what the loop over the classes has put out. -/
theorem patchOf_eq
    (patched : (build.run tools (outputAfter tools builds)).2 = .patch) :
    patchOf tools builds build =
      (checkClasses tools (comparing tools builds)
        build.classes).output.getD [] := by
  rw [patchOf, Build.run, patchFile_generate patched, hexFile_outputAfter,
    Option.getD_some, comparing]

end OneBuild

/-! ## The patch behind a failure -/

/-- A patch loses no change exactly when every class that changed since the
last generation has changed in this very build. -/
theorem losesNoChange_iff (builds : List (Build ByteCode))
    (build : Build ByteCode)
    (patched : (build.run tools (outputAfter tools builds)).2 = .patch) :
    LosesNoChange tools builds build ↔ ChangedAgain tools builds build := by
  have isPatch := patchOf_eq patched
  have noOutput : (comparing tools builds).output.getD [] = [] := rfl
  have names (className : Text) := @names_checkClasses ByteCode tools
    (comparing tools builds) build.classes className
  constructor
  · intro law entry isClass changed
    have isIn := law.contains entry isClass changed
    rw [isPatch, names, noOutput] at isIn
    exact isIn.resolve_left List.not_mem_nil
  · intro again
    refine ⟨fun entry isClass changed => ?_, fun entry isEntry => ?_⟩
    · rw [isPatch, names]
      exact Or.inr (again entry isClass changed)
    · rw [isPatch] at isEntry
      rcases mem_of_mem_output isEntry with before | isClass
      · rw [noOutput] at before
        exact absurd before List.not_mem_nil
      · exact isClass

/-! ## Versions of two classes -/

/-- Versions of a class for its bytes, a digit for the hash. -/
def digitTools : Tools (Fin 10) where
  hex version := [Nat.digitChar version]
  order := .lastFirst

def versions (first second : Fin 10) : List (Instrumented (Fin 10)) :=
  [⟨"com/A.class".toList, first⟩, ⟨"com/B.class".toList, second⟩]

def baseline : Build (Fin 10) :=
  ⟨versions 1 1, .succeeds⟩

def failedPatch : Build (Fin 10) :=
  ⟨versions 2 1, .fails⟩

theorem thirdVersion_losesNoChange :
    LosesNoChange digitTools [baseline, failedPatch]
        ⟨versions 3 1, .succeeds⟩ ↔
      ChangedAgain digitTools [baseline, failedPatch]
        ⟨versions 3 1, .succeeds⟩ :=
  losesNoChange_iff digitTools _ _ (by decide)

/-- When the patch with the second version fails, the next one, which another
class causes, is without it. -/
theorem secondVersion_is_lost :
    (Build.run digitTools ⟨versions 2 2, .succeeds⟩
        (outputAfter digitTools [baseline, failedPatch])).2 = .patch ∧
      (patchOf digitTools [baseline, failedPatch]
        ⟨versions 2 2, .succeeds⟩).map Instrumented.className =
          ["com/B.class".toList] ∧
      ¬LosesNoChange digitTools [baseline, failedPatch]
        ⟨versions 2 2, .succeeds⟩ := by
  have onlyB : (patchOf digitTools [baseline, failedPatch]
      ⟨versions 2 2, .succeeds⟩).map Instrumented.className =
        ["com/B.class".toList] := by decide
  refine ⟨by decide, onlyB, fun law => ?_⟩
  have isIn := law.contains ⟨"com/A.class".toList, 2⟩ List.mem_cons_self
    (by unfold Changed; decide)
  rw [onlyB, List.mem_singleton] at isIn
  revert isIn
  decide

end DripStone.HotfixPlugin
