import DripStone.HotfixPlugin.PatchGenerator

/-!
# What is selected for a patch

The hashes that one build writes are those that the next one reads, and they
decide which classes go into the jar.
-/

namespace DripStone.HotfixPlugin

open DripStone.Library

variable {ByteCode : Type}

/-! ## The law -/

/-- The jar has the classes with another hash than the recorded one, or with
none, and each once. -/
structure SelectsChanged (hexs : Hexs)
    (calls : List (Text × Instrumented ByteCode))
    (selected : List Text) : Prop where
  changed : ∀ className, className ∈ selected ↔
    ∃ call ∈ calls, call.2.className = className ∧
      hexs.get className ≠ some call.1
  once : selected.Nodup

/-- Nothing is recorded: there is no file, or nothing is read of it. -/
def NothingRecorded (hexFile : Option Text) : Prop :=
  (hexFile.map readHex).getD [] = []

/-! ## The calls of a build -/

section Calls

variable {generator : PatchGenerator ByteCode}
  {calls : List (Text × Instrumented ByteCode)}
  {entry : Instrumented ByteCode}

theorem nodup_putNextEntry {entries : List (Instrumented ByteCode)}
    (once : (entries.map Instrumented.className).Nodup) :
    ((PatchGenerator.putNextEntry entries entry).map
      Instrumented.className).Nodup := by
  rw [PatchGenerator.putNextEntry]
  split
  · exact once
  · next isNew =>
      rw [List.map_append, List.map_singleton, ← List.concat_eq_append]
      exact once.concat isNew

theorem nodup_checkClass {hex : Text} (once : generator.names.Nodup) :
    (generator.checkClass hex entry).names.Nodup := by
  rw [PatchGenerator.checkClass]
  split
  · exact nodup_putNextEntry once
  · exact once

theorem nodup_checkAll (once : generator.names.Nodup) :
    (generator.checkAll calls).names.Nodup := by
  induction calls generalizing generator with
  | nil => exact once
  | cons call rest inductionHypothesis =>
      exact inductionHypothesis (nodup_checkClass once)

/-- Without recorded hashes the jar is not even opened. -/
theorem checkAll_of_noHexs (noHexs : generator.noHexs = true) :
    generator.checkAll calls = generator := by
  have same (hex : Text) (entry : Instrumented ByteCode) :
      generator.checkClass hex entry = generator := by
    refine if_neg fun differs => ?_
    rw [differs.1] at noHexs
    cases noHexs
  induction calls with
  | nil => rfl
  | cons call rest inductionHypothesis =>
      rw [PatchGenerator.checkAll, List.foldl_cons, same]
      exact inductionHypothesis

end Calls

/-! ## From one build to the next -/

section NextBuild

variable {order : KeyOrder} {hexs : Hexs}

/-- A map with a key is not read back empty. -/
theorem noHexs_of_recorded
    (readBack : ∀ className,
      (readHex (writeHex order hexs)).get className = hexs.get className)
    (distinct : (hexs.map Prod.fst).Nodup) (notEmpty : hexs ≠ []) :
    (PatchGenerator.new (some (writeHex order hexs)) :
      PatchGenerator ByteCode).noHexs = false := by
  obtain ⟨entry, isEntry⟩ := List.exists_mem_of_ne_nil hexs notEmpty
  have recorded := (Hexs.get_eq_some_iff distinct).mpr isEntry
  rw [← readBack] at recorded
  refine decide_eq_false fun empty => ?_
  rw [PatchGenerator.new, Option.map_some, Option.getD_some] at empty
  rw [empty] at recorded
  cases recorded

/-- What was written is read back as it was; the next build selects exactly
the classes that changed, and nothing where nothing was recorded. -/
theorem recorded_and_selected (order : KeyOrder) (hexs : Hexs)
    (plain : ∀ entry ∈ hexs, PlainEntry entry)
    (distinct : (hexs.map Prod.fst).Nodup) :
    (∀ className,
      (readHex (writeHex order hexs)).get className = hexs.get className) ∧
    (hexs ≠ [] → ∀ calls : List (Text × Instrumented ByteCode),
      SelectsChanged hexs calls
        ((PatchGenerator.new (some (writeHex order hexs)) :
          PatchGenerator ByteCode).checkAll calls).names) ∧
    ∀ hexFile, NothingRecorded hexFile →
      ∀ calls : List (Text × Instrumented ByteCode),
        ((PatchGenerator.new hexFile :
          PatchGenerator ByteCode).checkAll calls).output = none := by
  have readBack := get_readHex_writeHex order plain distinct
  refine ⟨readBack, fun notEmpty calls => ⟨fun className => ?_, ?_⟩,
    fun hexFile nothing calls => ?_⟩
  · have noHexs : (PatchGenerator.new (some (writeHex order hexs)) :
        PatchGenerator ByteCode).noHexs = false :=
      noHexs_of_recorded readBack distinct notEmpty
    have opened : (PatchGenerator.new (some (writeHex order hexs)) :
        PatchGenerator ByteCode).names = [] := rfl
    rw [names_checkAll, opened, or_iff_right List.not_mem_nil]
    simp only [PatchGenerator.Differs, noHexs, true_and]
    simp only [PatchGenerator.new, Option.map_some, Option.getD_some,
      readBack]
  · exact nodup_checkAll List.nodup_nil
  · have noHexs : (PatchGenerator.new hexFile :
        PatchGenerator ByteCode).noHexs = true := decide_eq_true nothing
    rw [checkAll_of_noHexs noHexs]
    rfl

end NextBuild

/-- One class keeps its hash, one has another, and one is new and comes
twice. -/
theorem changedClasses_selected :
    SelectsChanged [("A".toList, "0f".toList), ("B".toList, "1f".toList)]
      [("0f".toList, ⟨"A".toList, ()⟩), ("2f".toList, ⟨"B".toList, ()⟩),
        ("3f".toList, ⟨"C".toList, ()⟩), ("4f".toList, ⟨"C".toList, ()⟩)]
      ["B".toList, "C".toList] := by
  have plain : ∀ entry ∈ [("A".toList, "0f".toList),
      ("B".toList, "1f".toList)], PlainEntry entry := by
    unfold PlainEntry PlainText
    decide
  exact (recorded_and_selected .lastFirst _ plain (by decide)).2.1
    (by decide) _

end DripStone.HotfixPlugin
