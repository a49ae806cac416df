import DripStone.FloatLayout.Model

/-!
# The places of the children

The right and the bottom edges that `onLayout` gives the children, against the
size that `onMeasure` reports.
-/

namespace DripStone.FloatLayout

open DripStone.Library

/-! ## One line -/

section Line

variable {curL curT bound : Int} {line : List View}

/-- The right edges of a line end with that of its last child. -/
theorem right_le_iff (some : line ≠ []) :
    (∀ rect ∈ layoutLine curT curL line, rect.right ≤ bound) ↔
      curL + usedWidth line ≤ bound + horizontalSpace := by
  induction line generalizing curL with
  | nil => exact absurd rfl some
  | cons view rest inductionHypothesis =>
      rw [layoutLine, List.forall_mem_cons, usedWidth_cons]
      cases rest with
      | nil =>
          simp only [layoutLine, List.not_mem_nil, usedWidth_nil]
          push_cast
          constructor
          · rintro ⟨here, _⟩
            omega
          · intro here
            exact ⟨by omega, fun _ impossible => absurd impossible id⟩
      | cons next rest =>
          rw [inductionHypothesis (List.cons_ne_nil _ _)]
          push_cast
          constructor
          · rintro ⟨_, behind⟩
            omega
          · intro behind
            exact ⟨by omega, by omega⟩

/-- The highest child of a line has the lowest bottom edge. -/
theorem bottom_le_iff (some : line ≠ []) :
    (∀ rect ∈ layoutLine curT curL line, rect.bottom ≤ bound) ↔
      curT + usedHeight line ≤ bound := by
  induction line generalizing curL with
  | nil => exact absurd rfl some
  | cons view rest inductionHypothesis =>
      rw [layoutLine, List.forall_mem_cons, usedHeight_cons]
      cases rest with
      | nil => simp [layoutLine]
      | cons next rest =>
          rw [inductionHypothesis (List.cons_ne_nil _ _)]
          push_cast
          constructor
          · rintro ⟨here, behind⟩
            omega
          · intro both
            exact ⟨by omega, by omega⟩

end Line

/-! ## All lines -/

/-- The places of the lines, each with its own height. -/
def placeLines (paddingLeft : Int) : Int → List (List View) → List (List Rect)
  | _, [] => []
  | curT, line :: lines =>
      layoutLine curT paddingLeft line ::
        placeLines paddingLeft (curT + (usedHeight line + verticalSpace)) lines

/-- What stands above the last line, with the spaces. -/
def heightAbove (lines : List (List View)) : Nat :=
  (lines.dropLast.map fun line => usedHeight line + verticalSpace).sum

section Lines

variable {paddingLeft curT bound : Int} {lines : List (List View)}

theorem layoutLines_eq :
    layoutLines paddingLeft curT lines (lines.map usedHeight) =
      some (placeLines paddingLeft curT lines) := by
  induction lines generalizing curT with
  | nil => rfl
  | cons line lines inductionHypothesis =>
      rw [List.map_cons, layoutLines, inductionHypothesis]
      rfl

theorem right_le_of_lines_iff :
    (∀ rect ∈ (placeLines paddingLeft curT lines).flatten,
        rect.right ≤ bound) ↔
      ∀ line ∈ lines, line ≠ [] →
        paddingLeft + usedWidth line ≤ bound + horizontalSpace := by
  induction lines generalizing curT with
  | nil => simp [placeLines]
  | cons line lines inductionHypothesis =>
      rw [placeLines, List.flatten_cons, List.forall_mem_append,
        List.forall_mem_cons, inductionHypothesis]
      refine and_congr_left fun _ => ?_
      by_cases empty : line = []
      · simp [empty, layoutLine]
      · rw [right_le_iff empty]
        exact ⟨fun here _ => here, fun here => here empty⟩

/-- The lines of more than one child, each with its places. -/
theorem right_le_of_longLines_iff :
    (∀ pair ∈ lines.zip (placeLines paddingLeft curT lines),
        1 < pair.1.length → ∀ rect ∈ pair.2, rect.right ≤ bound) ↔
      ∀ line ∈ lines, 1 < line.length →
        paddingLeft + usedWidth line ≤ bound + horizontalSpace := by
  induction lines generalizing curT with
  | nil => simp [placeLines]
  | cons line lines inductionHypothesis =>
      rw [placeLines, List.zip_cons_cons, List.forall_mem_cons,
        List.forall_mem_cons, inductionHypothesis]
      refine and_congr_left fun _ => forall_congr' fun long => ?_
      have some : line ≠ [] := by
        rintro rfl
        simp at long
      exact right_le_iff some

theorem heightAbove_cons {line : List View} (some : lines ≠ []) :
    heightAbove (line :: lines) =
      usedHeight line + verticalSpace + heightAbove lines := by
  rw [heightAbove, List.dropLast_cons_of_ne_nil some, List.map_cons,
    List.sum_cons, heightAbove]

/-- The last line has the lowest bottom edge. -/
theorem bottom_le_of_lines_iff {last : List View}
    (isLast : lines.getLast? = some last) (some : last ≠ []) :
    (∀ rect ∈ (placeLines paddingLeft curT lines).flatten,
        rect.bottom ≤ bound) ↔
      curT + heightAbove lines + usedHeight last ≤ bound := by
  induction lines generalizing curT with
  | nil => cases isLast
  | cons line lines inductionHypothesis =>
      rw [placeLines, List.flatten_cons, List.forall_mem_append]
      cases lines with
      | nil =>
          have same : line = last := by simpa using isLast
          rw [same, bottom_le_iff some]
          simp [placeLines, heightAbove]
      | cons next lines =>
          rw [List.getLast?_cons_cons] at isLast
          rw [inductionHypothesis isLast,
            heightAbove_cons (List.cons_ne_nil _ _)]
          push_cast
          constructor
          · rintro ⟨_, behind⟩
            omega
          · intro behind
            refine ⟨?_, by omega⟩
            by_cases empty : line = []
            · simp [empty, layoutLine]
            · rw [bottom_le_iff empty]
              omega

end Lines

/-! ## The widest line -/

section Widest

variable {lines : List (List View)} {line : List View}

theorem le_neededWidth (isLine : line ∈ lines) :
    usedWidth line + horizontalSpace ≤ neededWidth lines := by
  induction lines with
  | nil => cases isLine
  | cons first lines inductionHypothesis =>
      rw [neededWidth_cons]
      rcases List.mem_cons.mp isLine with rfl | inLines
      · exact le_max_left _ _
      · exact (inductionHypothesis inLines).trans (le_max_right _ _)

theorem exists_neededWidth (some : lines ≠ []) :
    ∃ line ∈ lines, neededWidth lines = usedWidth line + horizontalSpace := by
  induction lines with
  | nil => exact absurd rfl some
  | cons first lines inductionHypothesis =>
      rw [neededWidth_cons]
      by_cases single : lines = []
      · exact ⟨first, List.mem_cons_self, by simp [single, neededWidth]⟩
      · obtain ⟨line, isLine, widest⟩ := inductionHypothesis single
        rcases le_total (neededWidth lines)
          (usedWidth first + horizontalSpace) with less | more
        · exact ⟨first, List.mem_cons_self, max_eq_left less⟩
        · exact ⟨line, List.mem_cons_of_mem _ isLine,
            (max_eq_right more).trans widest⟩

theorem horizontalSpace_le_usedWidth (some : line ≠ []) :
    horizontalSpace ≤ usedWidth line := by
  cases line with
  | nil => exact absurd rfl some
  | cons view rest =>
      rw [usedWidth_cons]
      omega

/-- The needed width is that of a line with children, if there is one. -/
theorem exists_widestLine {filled : List View} (isLine : filled ∈ lines)
    (some : filled ≠ []) :
    ∃ line ∈ lines, line ≠ [] ∧
      neededWidth lines = usedWidth line + horizontalSpace := by
  obtain ⟨line, inLines, widest⟩ :=
    exists_neededWidth (List.ne_nil_of_mem isLine)
  refine ⟨line, inLines, ?_, widest⟩
  rintro rfl
  have enough := le_neededWidth isLine
  have wide := horizontalSpace_le_usedWidth some
  rw [widest, usedWidth_nil] at enough
  rw [horizontalSpace] at enough wide
  omega

/-- The needed width covers a left padding of two spaces. -/
theorem right_le_neededWidth_iff {paddingLeft : Int} {filled : List View}
    (isLine : filled ∈ lines) (some : filled ≠ []) :
    (∀ line ∈ lines, line ≠ [] → paddingLeft + usedWidth line ≤
        (neededWidth lines : Int) + horizontalSpace) ↔
      paddingLeft ≤ 2 * horizontalSpace := by
  constructor
  · intro covered
    obtain ⟨line, inLines, isFilled, widest⟩ := exists_widestLine isLine some
    have here := covered line inLines isFilled
    rw [widest] at here
    push_cast at here
    omega
  · intro narrow line inLines _
    have enough := le_neededWidth inLines
    omega

end Widest

end DripStone.FloatLayout
