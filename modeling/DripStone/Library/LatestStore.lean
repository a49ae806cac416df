import DripStone.Library.Mealy

/-!
# Places that are stored to and read

Reads of a place answer what was stored there last.  All of them answer one
object when nothing is stored after the first answer; and only then, when the
stored objects are all different and every store is followed by an answer.
-/

namespace DripStone.Library

inductive Access (Place Object : Type) where
  | store (place : Place) (object : Object)
  | answer (place : Place) (object : Object)
deriving DecidableEq, Repr

section Accesses

variable {Place Object : Type}

/-- The object stored last. -/
def latest [DecidableEq Place] (accesses : List (Access Place Object))
    (place : Place) : Option Object :=
  accesses.foldl (fun object access =>
    match access with
    | .store stored new => if stored = place then some new else object
    | .answer _ _ => object) none

/-- An answer gives the object stored last. -/
def Faithful [DecidableEq Place] (before : List (Access Place Object)) :
    Access Place Object → Prop
  | .store _ _ => True
  | .answer place object => latest before place = some object

/-- All answers for a place give one object. -/
def OneObject (accesses : List (Access Place Object)) : Prop :=
  ∀ place first second, .answer place first ∈ accesses →
    .answer place second ∈ accesses → first = second

/-- Nothing is stored to a place that was answered for. -/
def Timely (before : List (Access Place Object)) :
    Access Place Object → Prop
  | .store place _ => ∀ object, .answer place object ∉ before
  | .answer _ _ => True

/-- The object stored was not stored before. -/
def Fresh (before : List (Access Place Object)) :
    Access Place Object → Prop
  | .store place object => .store place object ∉ before
  | .answer _ _ => True

/-- Every store to a place comes before an answer for it. -/
def Followed (accesses : List (Access Place Object)) : Prop :=
  ∀ before place object after,
    accesses = before ++ .store place object :: after →
      ∃ answered, .answer place answered ∈ after

theorem OneObject.of_append {initial suffix : List (Access Place Object)}
    (one : OneObject (initial ++ suffix)) : OneObject initial :=
  fun place first second isFirst isSecond => one place first second
    (List.mem_append_left _ isFirst) (List.mem_append_left _ isSecond)

variable [DecidableEq Place]

@[simp]
theorem latest_concat_store (accesses : List (Access Place Object))
    (stored : Place) (object : Object) (place : Place) :
    latest (accesses ++ [.store stored object]) place =
      if stored = place then some object else latest accesses place := by
  rw [latest, List.foldl_append]
  rfl

@[simp]
theorem latest_concat_answer (accesses : List (Access Place Object))
    (answered : Place) (object : Object) (place : Place) :
    latest (accesses ++ [.answer answered object]) place =
      latest accesses place := by
  rw [latest, List.foldl_append]
  rfl

/-- What was stored last was stored. -/
theorem mem_of_latest {accesses : List (Access Place Object)}
    {place : Place} {object : Object}
    (isLatest : latest accesses place = some object) :
    .store place object ∈ accesses := by
  induction accesses using List.reverseRecOn with
  | nil => exact absurd isLatest (by simp [latest])
  | append_singleton before access inductionHypothesis =>
      cases access with
      | store stored new =>
          rw [latest_concat_store] at isLatest
          by_cases here : stored = place
          · rw [if_pos here, Option.some_inj] at isLatest
            rw [here, isLatest]
            simp
          · rw [if_neg here] at isLatest
            exact List.mem_append_left _ (inductionHypothesis isLatest)
      | answer answered new =>
          rw [latest_concat_answer] at isLatest
          exact List.mem_append_left _ (inductionHypothesis isLatest)

/-- What was stored last after a store was stored then or later. -/
theorem mem_of_latest_append {before after : List (Access Place Object)}
    {place : Place} {object last : Object}
    (isLatest : latest (before ++ .store place object :: after) place =
      some last) :
    .store place last ∈ .store place object :: after := by
  induction after using List.reverseRecOn with
  | nil =>
      rw [latest_concat_store, if_pos rfl, Option.some_inj] at isLatest
      rw [isLatest]
      simp
  | append_singleton after access inductionHypothesis =>
      rw [← List.cons_append, ← List.append_assoc] at isLatest
      rw [← List.cons_append]
      cases access with
      | store stored new =>
          rw [latest_concat_store] at isLatest
          by_cases here : stored = place
          · rw [if_pos here, Option.some_inj] at isLatest
            rw [here, isLatest]
            simp
          · rw [if_neg here] at isLatest
            exact List.mem_append_left _ (inductionHypothesis isLatest)
      | answer answered new =>
          rw [latest_concat_answer] at isLatest
          exact List.mem_append_left _ (inductionHypothesis isLatest)

theorem latest_append_store_ne_none (before after : List (Access Place Object))
    (place : Place) (object : Object) :
    latest (before ++ .store place object :: after) place ≠ none := by
  induction after using List.reverseRecOn with
  | nil => simp
  | append_singleton after access inductionHypothesis =>
      rw [← List.cons_append, ← List.append_assoc]
      cases access with
      | store stored new =>
          rw [latest_concat_store]
          by_cases here : stored = place
          · simp [here]
          · rw [if_neg here]
            exact inductionHypothesis
      | answer answered new =>
          rw [latest_concat_answer]
          exact inductionHypothesis

/-- Stores that all come before the answers leave one object to answer. -/
theorem oneObject_of_timely {accesses : List (Access Place Object)}
    (faithful : AtEvery Faithful accesses)
    (timely : AtEvery Timely accesses) : OneObject accesses := by
  have current : ∀ place object, .answer place object ∈ accesses →
      latest accesses place = some object := by
    induction accesses using List.reverseRecOn with
    | nil =>
        intro place object answered
        exact absurd answered List.not_mem_nil
    | append_singleton before access inductionHypothesis =>
        obtain ⟨faithfulBefore, isFaithful⟩ := atEvery_concat.mp faithful
        obtain ⟨timelyBefore, isTimely⟩ := atEvery_concat.mp timely
        have currentBefore :=
          inductionHypothesis faithfulBefore timelyBefore
        intro place object answered
        cases access with
        | store stored new =>
            have earlier : .answer place object ∈ before := by
              simpa using answered
            have elsewhere : stored ≠ place := by
              rintro rfl
              exact isTimely object earlier
            rw [latest_concat_store, if_neg elsewhere]
            exact currentBefore place object earlier
        | answer asked new =>
            rw [latest_concat_answer]
            rcases List.mem_append.mp answered with earlier | last
            · exact currentBefore place object earlier
            · obtain ⟨rfl, rfl⟩ :=
                Access.answer.inj (List.mem_singleton.mp last)
              exact isFaithful
  intro place first second isFirst isSecond
  have atFirst := current place first isFirst
  rw [current place second isSecond] at atFirst
  exact (Option.some.inj atFirst).symm

/-- A store after an answer, followed by another answer, makes two objects
known. -/
theorem timely_of_oneObject {accesses : List (Access Place Object)}
    (faithful : AtEvery Faithful accesses) (fresh : AtEvery Fresh accesses)
    (followed : Followed accesses) (one : OneObject accesses) :
    AtEvery Timely accesses := by
  intro before access after whole
  cases access with
  | answer place object => trivial
  | store place object =>
      intro early isEarly
      obtain ⟨late, isLate⟩ := followed before place object after whole
      have same : early = late := by
        apply one place
        · rw [whole]
          exact List.mem_append_left _ isEarly
        · rw [whole]
          exact List.mem_append_right _ (List.mem_cons_of_mem _ isLate)
      subst same
      -- the early answer was stored before this store
      obtain ⟨initial, middle, split⟩ := List.append_of_mem isEarly
      have earlyStored : .store place early ∈ before := by
        have isFaithful := faithful initial (.answer place early)
          (middle ++ .store place object :: after) (by rw [whole, split]; simp)
        rw [split]
        exact List.mem_append_left _ (mem_of_latest isFaithful)
      -- the late one with it or after it
      obtain ⟨between, rest, lateSplit⟩ := List.append_of_mem isLate
      have lateStored : .store place early ∈
          .store place object :: between := by
        have isFaithful := faithful (before ++ .store place object :: between)
          (.answer place early) rest (by rw [whole, lateSplit]; simp)
        exact mem_of_latest_append isFaithful
      obtain ⟨passed, behind, again⟩ := List.append_of_mem lateStored
      have isFresh := fresh (before ++ passed) (.store place early)
        (behind ++ .answer place early :: rest) (by
          rw [whole, lateSplit, ← List.cons_append, again]
          simp)
      exact isFresh (List.mem_append_left _ earlyStored)

end Accesses

end DripStone.Library
