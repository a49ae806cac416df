import Mathlib

/-!
# Interned objects

A map creates the object of a key when the key is first asked for.  Each
object is known by its number and bears the label of the request that created
it.
-/

namespace DripStone.Library

structure Interned (Key Label : Type) where
  entries : Key → Option (Nat × Label)
  created : Nat

namespace Interned

variable {Key Label : Type}

def empty : Interned Key Label :=
  ⟨fun _ => none, 0⟩

/-- Different keys have different objects. -/
structure Distinct (table : Interned Key Label) : Prop where
  below : ∀ key object, table.entries key = some object →
    object.1 < table.created
  injective : ∀ first second object other,
    table.entries first = some object → table.entries second = some other →
      object.1 = other.1 → first = second

theorem distinct_empty : (empty : Interned Key Label).Distinct := by
  constructor
  · intro key object found
    cases found
  · intro first second object other found
    cases found

variable [DecidableEq Key]

/-- `if (!map.containsKey(key)) map.put(key, new …)` -/
def request (table : Interned Key Label) (key : Key) (label : Label) :
    Interned Key Label :=
  match table.entries key with
  | some _ => table
  | none =>
      ⟨Function.update table.entries key (some (table.created, label)),
        table.created + 1⟩

variable {table : Interned Key Label} {key other : Key} {label : Label}
variable {object : Nat × Label}

theorem request_of_some (found : table.entries key = some object) :
    table.request key label = table := by
  rw [request, found]

theorem request_of_none (absent : table.entries key = none) :
    table.request key label =
      ⟨Function.update table.entries key (some (table.created, label)),
        table.created + 1⟩ := by
  rw [request, absent]

theorem exists_request (table : Interned Key Label) (key : Key)
    (label : Label) :
    ∃ object, (table.request key label).entries key = some object := by
  cases isEntry : table.entries key with
  | some object => exact ⟨object, by rw [request_of_some isEntry, isEntry]⟩
  | none =>
      refine ⟨(table.created, label), ?_⟩
      rw [request_of_none isEntry]
      exact Function.update_self ..

/-- No entry is ever replaced. -/
theorem request_keeps (label : Label) (key : Key)
    (found : table.entries other = some object) :
    (table.request key label).entries other = some object := by
  cases isEntry : table.entries key with
  | some old => rw [request_of_some isEntry, found]
  | none =>
      have isOther : other ≠ key := by
        intro same
        rw [same, isEntry] at found
        cases found
      rw [request_of_none isEntry]
      exact (Function.update_of_ne isOther _ _).trans found

theorem request_cases
    (found : (table.request key label).entries other = some object) :
    table.entries other = some object ∨
      table.entries key = none ∧ other = key ∧
        object = (table.created, label) := by
  cases isEntry : table.entries key with
  | some old =>
      rw [request_of_some isEntry] at found
      exact Or.inl found
  | none =>
      rw [request_of_none isEntry] at found
      have updated : Function.update table.entries key
          (some (table.created, label)) other = some object := found
      by_cases isOther : other = key
      · subst isOther
        rw [Function.update_self] at updated
        exact Or.inr ⟨rfl, rfl, (Option.some.inj updated).symm⟩
      · rw [Function.update_of_ne isOther] at updated
        exact Or.inl updated

/-- Step lemma: a new object differs from all others. -/
theorem Distinct.request (distinct : table.Distinct) (key : Key)
    (label : Label) : (table.request key label).Distinct := by
  cases isEntry : table.entries key with
  | some object => rwa [request_of_some isEntry]
  | none =>
      have more : (table.request key label).created = table.created + 1 := by
        rw [request_of_none isEntry]
      constructor
      · intro other object found
        rcases request_cases found with old | ⟨-, -, rfl⟩
        · have below := distinct.below other object old
          omega
        · omega
      · intro first second object other atFirst atSecond same
        rcases request_cases atFirst with oldFirst | ⟨-, isFirst, rfl⟩ <;>
          rcases request_cases atSecond with oldSecond | ⟨-, isSecond, rfl⟩
        · exact distinct.injective _ _ _ _ oldFirst oldSecond same
        · have below := distinct.below first object oldFirst
          omega
        · have below := distinct.below second other oldSecond
          omega
        · rw [isFirst, isSecond]

/-! ## Runs -/

/-- The table behind requests for these keys with these labels. -/
def requestAll : Interned Key Label → List (Key × Label) →
    Interned Key Label
  | table, [] => table
  | table, (key, label) :: rest => requestAll (table.request key label) rest

theorem Distinct.requestAll (distinct : table.Distinct)
    (requests : List (Key × Label)) :
    (table.requestAll requests).Distinct := by
  induction requests generalizing table with
  | nil => exact distinct
  | cons first rest inductionHypothesis =>
      exact inductionHypothesis (distinct.request first.1 first.2)

theorem requestAll_keeps (requests : List (Key × Label))
    (found : table.entries key = some object) :
    (table.requestAll requests).entries key = some object := by
  induction requests generalizing table with
  | nil => exact found
  | cons first rest inductionHypothesis =>
      exact inductionHypothesis (request_keeps first.2 first.1 found)

/-- An object bears the label of a request for its key. -/
theorem exists_request_of_entry {requests : List (Key × Label)}
    (found : (table.requestAll requests).entries key = some object) :
    table.entries key = some object ∨ (key, object.2) ∈ requests := by
  induction requests generalizing table with
  | nil => exact Or.inl found
  | cons first rest inductionHypothesis =>
      rcases inductionHypothesis found with here | later
      · rcases request_cases here with old | ⟨-, rfl, rfl⟩
        · exact Or.inl old
        · exact Or.inr List.mem_cons_self
      · exact Or.inr (List.mem_cons_of_mem first later)

end Interned

end DripStone.Library
