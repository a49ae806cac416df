import Mathlib

/-!
# Lists of steps that may fail

A list of steps succeeds if and only if each of its steps does, and its
results are then those of the steps.
-/

namespace DripStone.Library

universe u v w

variable {ε : Type u} {α : Type v} {β : Type u}

theorem except_bind_eq_ok {γ : Type u} {first : Except ε γ}
    {rest : γ → Except ε β} {result : β} :
    (first >>= rest) = .ok result ↔
      ∃ value, first = .ok value ∧ rest value = .ok result := by
  cases first with
  | error failure => simp [bind, Except.bind]
  | ok value => simp [bind, Except.bind]

theorem except_map_eq_ok {γ : Type w} {outcome : Except ε α} {change : α → γ}
    {result : γ} :
    outcome.map change = .ok result ↔
      ∃ value, outcome = .ok value ∧ change value = result := by
  cases outcome with
  | error failure => simp [Except.map]
  | ok value => simp [Except.map]

theorem mapM_cons_eq_ok {step : α → Except ε β} {head : α} {rest : List α}
    {results : List β} :
    (head :: rest).mapM step = .ok results ↔
      ∃ result others, step head = .ok result ∧
        rest.mapM step = .ok others ∧ results = result :: others := by
  rw [List.mapM_cons]
  cases atHead : step head with
  | error failure => simp [bind, Except.bind]
  | ok result =>
      cases atRest : rest.mapM step with
      | error failure => simp [bind, Except.bind]
      | ok others =>
          simp [bind, Except.bind, pure, Except.pure, eq_comm]

theorem mapM_eq_ok_iff {step : α → Except ε β} {items : List α}
    {results : List β} :
    items.mapM step = .ok results ↔
      List.Forall₂ (fun item result => step item = .ok result)
        items results := by
  induction items generalizing results with
  | nil => simp [pure, Except.pure, eq_comm]
  | cons head rest inductionHypothesis =>
      rw [mapM_cons_eq_ok, List.forall₂_cons_left_iff]
      constructor
      · rintro ⟨result, others, atHead, atRest, rfl⟩
        exact ⟨result, others, atHead, inductionHypothesis.mp atRest, rfl⟩
      · rintro ⟨result, others, atHead, atRest, rfl⟩
        exact ⟨result, others, atHead, inductionHypothesis.mpr atRest, rfl⟩

/-- Steps that succeed with the values of a function. -/
theorem mapM_eq_ok_map {step : α → Except ε β} {value : α → β}
    {items : List α} (each : ∀ item ∈ items, step item = .ok (value item)) :
    items.mapM step = .ok (items.map value) := by
  rw [mapM_eq_ok_iff]
  induction items with
  | nil => exact .nil
  | cons head rest inductionHypothesis =>
      apply List.Forall₂.cons
      · exact each head List.mem_cons_self
      · exact inductionHypothesis fun item inRest =>
          each item (List.mem_cons_of_mem head inRest)

theorem exists_mapM_eq_ok_iff {step : α → Except ε β} {items : List α} :
    (∃ results, items.mapM step = .ok results) ↔
      ∀ item ∈ items, ∃ result, step item = .ok result := by
  constructor
  · rintro ⟨results, succeeded⟩ item inItems
    rw [mapM_eq_ok_iff] at succeeded
    induction succeeded with
    | nil => simp at inItems
    | cons atHead _ inductionHypothesis =>
        rcases List.mem_cons.mp inItems with rfl | inRest
        · exact ⟨_, atHead⟩
        · exact inductionHypothesis inRest
  · intro each
    induction items with
    | nil => exact ⟨[], rfl⟩
    | cons head rest inductionHypothesis =>
        obtain ⟨result, atHead⟩ := each head List.mem_cons_self
        obtain ⟨others, atRest⟩ := inductionHypothesis fun item inRest =>
          each item (List.mem_cons_of_mem head inRest)
        exact ⟨result :: others,
          mapM_cons_eq_ok.mpr ⟨result, others, atHead, atRest, rfl⟩⟩

/-- The results of a list of steps. -/
theorem mem_of_mapM_eq_ok {step : α → Except ε β} {items : List α}
    {results : List β} (succeeded : items.mapM step = .ok results)
    (value : β) : value ∈ results ↔ ∃ item ∈ items, step item = .ok value := by
  rw [mapM_eq_ok_iff] at succeeded
  induction succeeded with
  | nil => simp
  | @cons head result rest others atHead _ inductionHypothesis =>
      rw [List.mem_cons, inductionHypothesis]
      simp [atHead, eq_comm]

end DripStone.Library
