import Mathlib

/-!
# Breaking a list into lines

Items are put on a line as long as they fit behind what stands on it; an item
that does not fit starts the next line.
-/

namespace DripStone.Library

universe u

variable {α : Type u}

/-- The lines for the items that are left, behind a line that is begun. -/
def breakFrom (fits : List α → α → Bool) (begun : List α) :
    List α → List (List α)
  | [] => [begun]
  | item :: rest =>
      if fits begun item then breakFrom fits (begun ++ [item]) rest
      else begun :: breakFrom fits [item] rest

/-- The lines of a list, the first of which may be empty. -/
def breakLines (fits : List α → α → Bool) : List α → List (List α)
  | [] => []
  | item :: rest => breakFrom fits [] (item :: rest)

variable {fits : List α → α → Bool} {begun line items : List α} {item : α}

theorem breakFrom_nil : breakFrom fits begun [] = [begun] :=
  rfl

theorem breakFrom_cons :
    breakFrom fits begun (item :: items) =
      if fits begun item then breakFrom fits (begun ++ [item]) items
      else begun :: breakFrom fits [item] items :=
  rfl

theorem breakFrom_of_fits (isFit : fits begun item = true) :
    breakFrom fits begun (item :: items) =
      breakFrom fits (begun ++ [item]) items := by
  rw [breakFrom_cons, if_pos isFit]

theorem breakFrom_of_not_fits (isOver : ¬fits begun item = true) :
    breakFrom fits begun (item :: items) =
      begun :: breakFrom fits [item] items := by
  rw [breakFrom_cons, if_neg isOver]

theorem breakFrom_ne_nil : breakFrom fits begun items ≠ [] := by
  induction items generalizing begun with
  | nil => exact List.cons_ne_nil _ _
  | cons item rest inductionHypothesis =>
      rw [breakFrom_cons]
      split
      · exact inductionHypothesis
      · exact List.cons_ne_nil _ _

/-- The lines hold the items in their order. -/
theorem flatten_breakFrom :
    (breakFrom fits begun items).flatten = begun ++ items := by
  induction items generalizing begun with
  | nil => simp [breakFrom_nil]
  | cons item rest inductionHypothesis =>
      rw [breakFrom_cons]
      split
      · rw [inductionHypothesis]
        simp
      · rw [List.flatten_cons, inductionHypothesis]
        rfl

theorem flatten_breakLines : (breakLines fits items).flatten = items := by
  cases items with
  | nil => rfl
  | cons item rest => exact flatten_breakFrom

/-- A line that is begun does not become empty. -/
theorem nil_notMem_breakFrom (some : begun ≠ []) :
    [] ∉ breakFrom fits begun items := by
  induction items generalizing begun with
  | nil => simpa [breakFrom_nil] using some
  | cons item rest inductionHypothesis =>
      rw [breakFrom_cons]
      split
      · exact inductionHypothesis (by simp)
      · rw [List.mem_cons, not_or]
        exact ⟨some.symm, inductionHypothesis (List.cons_ne_nil _ _)⟩

/-- Only the first line can be empty, and it is when the first item does not
fit on an empty line. -/
theorem nil_notMem_breakLines_iff :
    [] ∉ breakLines fits items ↔
      ∀ first ∈ items.head?, fits [] first = true := by
  cases items with
  | nil => simp [breakLines]
  | cons item rest =>
      rw [breakLines]
      by_cases isFit : fits [] item = true
      · rw [breakFrom_of_fits isFit]
        exact iff_of_true (nil_notMem_breakFrom (by simp)) (by simpa)
      · rw [breakFrom_of_not_fits isFit]
        exact iff_of_false (fun notIn => notIn List.mem_cons_self)
          (by simpa using isFit)

/-- The last line is not empty. -/
theorem getLast_breakFrom_ne_nil (some : begun ++ items ≠ [])
    (more : breakFrom fits begun items ≠ []) :
    (breakFrom fits begun items).getLast more ≠ [] := by
  induction items generalizing begun with
  | nil => simpa [breakFrom_nil] using some
  | cons item rest inductionHypothesis =>
      by_cases isFit : fits begun item = true
      · simp only [breakFrom_of_fits isFit]
        exact inductionHypothesis (by simp) breakFrom_ne_nil
      · simp only [breakFrom_of_not_fits isFit,
          List.getLast_cons breakFrom_ne_nil]
        exact inductionHypothesis (by simp) breakFrom_ne_nil

/-- Behind other items on its line, the last one fits. -/
def LastFits (fits : List α → α → Bool) (line : List α) : Prop :=
  ∀ before last, line = before ++ [last] → before ≠ [] →
    fits before last = true

theorem lastFits_singleton : LastFits fits [item] := by
  intro before last split some
  cases before with
  | nil => exact absurd rfl some
  | cons first before =>
      have lengths := congrArg List.length split
      simp at lengths

theorem lastFits_of_mem_breakFrom (begins : LastFits fits begun)
    (isLine : line ∈ breakFrom fits begun items) : LastFits fits line := by
  induction items generalizing begun with
  | nil =>
      rw [List.mem_singleton.mp isLine]
      exact begins
  | cons item rest inductionHypothesis =>
      by_cases isFit : fits begun item = true
      · rw [breakFrom_of_fits isFit] at isLine
        refine inductionHypothesis ?_ isLine
        intro before last split _
        obtain ⟨sameLine, sameItem⟩ := List.append_inj' split rfl
        rw [← sameLine, ← (List.cons.inj sameItem).1]
        exact isFit
      · rw [breakFrom_of_not_fits isFit] at isLine
        rcases List.mem_cons.mp isLine with rfl | inRest
        · exact begins
        · exact inductionHypothesis lastFits_singleton inRest

theorem lastFits_of_mem_breakLines (isLine : line ∈ breakLines fits items) :
    LastFits fits line := by
  cases items with
  | nil => cases isLine
  | cons item rest =>
      refine lastFits_of_mem_breakFrom ?_ isLine
      intro before last split
      simp at split

end DripStone.Library
