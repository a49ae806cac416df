import DripStone.BaseTransform.Model
import DripStone.Library.Counting

/-!
# A complete output

An output provider whose names list what they are for, and tools whose jars
can be read back.
-/

namespace DripStone.BaseTransform

open DripStone.Library

/-! ## The provider -/

/-- A name in which no separator is left. -/
def escape (name : Text) : Name :=
  name.flatMap fun letter =>
    if letter = '/' then ['s', 'l'] else ['c', letter]

theorem escape_injective : Function.Injective escape := by
  intro first second same
  induction first generalizing second with
  | nil =>
      cases second with
      | nil => rfl
      | cons letter rest =>
          by_cases slash : letter = '/'
          · simp [escape, slash] at same
          · simp [escape, slash] at same
  | cons letter rest inductionHypothesis =>
      cases second with
      | nil =>
          by_cases slash : letter = '/'
          · simp [escape, slash] at same
          · simp [escape, slash] at same
      | cons other others =>
          simp only [escape, List.flatMap_cons] at same
          by_cases slash : letter = '/'
          · by_cases otherSlash : other = '/'
            · simp only [slash, otherSlash, ↓reduceIte, List.cons_append,
                List.nil_append, List.cons.injEq, true_and] at same
              rw [slash, otherSlash, inductionHypothesis same]
            · simp [slash, otherSlash] at same
          · by_cases otherSlash : other = '/'
            · simp [slash, otherSlash] at same
            · simp only [slash, otherSlash, ↓reduceIte, List.cons_append,
                List.nil_append, List.cons.injEq, true_and] at same
              rw [same.1, inductionHypothesis same.2]

def mark (present : Bool) : Char :=
  if present then 'y' else 'n'

theorem mark_injective : Function.Injective mark := by
  decide

/-- The name of a content that lists its types, its scopes and its format. -/
def listedLeaf (name : Text) (types : Finset ContentType)
    (scopes : Finset Scope) (format : Format) : Name :=
  mark (.classes ∈ types) :: mark (.resources ∈ types) ::
    mark (.project ∈ scopes) :: mark (.subProjects ∈ scopes) ::
    mark (.externalLibraries ∈ scopes) :: mark (format = .jar) ::
    escape name

theorem listedLeaf_injective (name : Text) (types : Finset ContentType)
    (scopes : Finset Scope) (format : Format) (name' : Text)
    (types' : Finset ContentType) (scopes' : Finset Scope)
    (format' : Format)
    (same : listedLeaf name types scopes format =
      listedLeaf name' types' scopes' format') :
    name = name' ∧ types = types' ∧ scopes = scopes' ∧ format = format' := by
  simp only [listedLeaf, List.cons.injEq, mark_injective.eq_iff,
    escape_injective.eq_iff, decide_eq_decide] at same
  obtain ⟨classes, resources, project, subProjects, libraries, jar, names⟩ :=
    same
  refine ⟨names, ?_, ?_, ?_⟩
  · ext type
    cases type with
    | classes => exact classes
    | resources => exact resources
  · ext scope
    cases scope with
    | project => exact project
    | subProjects => exact subProjects
    | externalLibraries => exact libraries
  · cases format <;> cases format' <;> simp_all

theorem plain_listedLeaf (name : Text) (types : Finset ContentType)
    (scopes : Finset Scope) (format : Format) :
    Plain (listedLeaf name types scopes format) := by
  have noMark : ∀ present, mark present ≠ '/' := by decide
  have noSlash : '/' ∉ escape name := by
    rw [escape, List.mem_flatMap]
    rintro ⟨letter, _, inPair⟩
    by_cases slash : letter = '/'
    · simp [slash] at inPair
    · rw [if_neg slash] at inPair
      simp only [List.mem_cons, List.not_mem_nil, or_false] at inPair
      rcases inPair with mark | same
      · exact absurd mark (by decide)
      · exact slash same.symm
  refine ⟨List.cons_ne_nil _ _, ?_, ?_, ?_⟩
  · simp only [listedLeaf, List.mem_cons, not_or]
    exact ⟨(noMark _).symm, (noMark _).symm, (noMark _).symm,
      (noMark _).symm, (noMark _).symm, (noMark _).symm, noSlash⟩
  · simp [listedLeaf, dot]
  · simp [listedLeaf, dotDot]

/-- An output in a directory of the root. -/
def listedOutput (name : Name) (plain : Plain name) :
    TransformOutputProvider where
  root := [name]
  leaf := listedLeaf
  root_plain := by
    intro part inRoot
    rwa [List.mem_singleton.mp inRoot]
  leaf_plain := plain_listedLeaf
  leaf_injective := listedLeaf_injective

/-! ## The tools -/

instance : Countable JarEntry := by
  have natural : Function.Injective fun jarEntry : JarEntry =>
      (jarEntry.name, jarEntry.content) := by
    rintro ⟨_, _⟩ ⟨_, _⟩ same
    obtain ⟨rfl, rfl⟩ := Prod.mk.inj same
    rfl
  exact natural.countable

/-- Jars that are as long as the number of their entries; a class is modified
by a byte in front. -/
noncomputable def countingTools : Tools where
  modifyClass := fun bytes => 0 :: bytes
  jarEntries := countedValue
  jarBytes := countedBytes

end DripStone.BaseTransform
