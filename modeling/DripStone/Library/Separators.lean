import DripStone.Library.Paths

/-!
# Parts of a text with a separator

A part without the separator stands on one side of it; a part with the
separator stands around it.
-/

namespace DripStone.Library

universe u

section Lists

variable {α : Type u} {separator : α} {before after part : List α}

theorem isPrefix_append_cons_iff (absent : separator ∉ part) :
    part <+: before ++ separator :: after ↔ part <+: before := by
  constructor
  · intro here
    induction before generalizing part with
    | nil =>
        cases part with
        | nil => exact List.nil_prefix
        | cons letter rest =>
            have same := (List.cons_prefix_cons.mp here).1
            exact absurd (same ▸ List.mem_cons_self) absent
    | cons first before inductionHypothesis =>
        cases part with
        | nil => exact List.nil_prefix
        | cons letter rest =>
            have both := List.cons_prefix_cons.mp here
            have notInRest : separator ∉ rest :=
              fun inRest => absent (List.mem_cons_of_mem _ inRest)
            exact List.cons_prefix_cons.mpr
              ⟨both.1, inductionHypothesis notInRest both.2⟩
  · exact fun here => here.trans (List.prefix_append _ _)

theorem isSuffix_append_cons_iff (absent : separator ∉ part) :
    part <:+ before ++ separator :: after ↔ part <:+ after := by
  have reversed : separator ∉ part.reverse :=
    fun inReverse => absent (List.mem_reverse.mp inReverse)
  have mirrored := @isPrefix_append_cons_iff α separator after.reverse
    before.reverse part.reverse reversed
  rw [← List.reverse_prefix, ← List.reverse_prefix, ← mirrored]
  simp

theorem isInfix_append_cons_iff (absent : separator ∉ part) :
    part <:+: before ++ separator :: after ↔
      part <:+: before ∨ part <:+: after := by
  induction before with
  | nil =>
      rw [List.nil_append, List.infix_cons_iff]
      have here := @isPrefix_append_cons_iff α separator [] after part absent
      rw [List.nil_append] at here
      rw [here, List.prefix_nil, List.infix_nil]
  | cons first before inductionHypothesis =>
      have here := @isPrefix_append_cons_iff α separator (first :: before)
        after part absent
      rw [List.cons_append] at here
      rw [List.cons_append, List.infix_cons_iff, here, inductionHypothesis,
        List.infix_cons_iff, or_assoc]

/-- A part with the separator stands around the only one. -/
theorem isInfix_around_iff {left right : List α}
    (notBefore : separator ∉ before) (notAfter : separator ∉ after) :
    left ++ separator :: right <:+: before ++ separator :: after ↔
      left <:+ before ∧ right <+: after := by
  constructor
  · rintro ⟨initial, rest, whole⟩
    have split : (initial ++ left) ++ separator :: (right ++ rest) =
        before ++ separator :: after := by
      simpa using whole
    have parts := List.append_eq_append_iff.mp split
    rcases parts with ⟨middle, isBefore, behind⟩ | ⟨middle, isLeft, behind⟩
    · cases middle with
      | nil =>
          rw [List.append_nil] at isBefore
          rw [List.nil_append] at behind
          exact ⟨⟨initial, isBefore.symm⟩,
            ⟨rest, (List.cons.inj behind).2⟩⟩
      | cons first middle =>
          rw [List.cons_append, List.cons.injEq] at behind
          refine absurd ?_ notBefore
          rw [isBefore, behind.1]
          exact List.mem_append_right _ List.mem_cons_self
    · cases middle with
      | nil =>
          rw [List.append_nil] at isLeft
          rw [List.nil_append] at behind
          exact ⟨⟨initial, isLeft⟩,
            ⟨rest, (List.cons.inj behind).2.symm⟩⟩
      | cons first middle =>
          rw [List.cons_append, List.cons.injEq] at behind
          refine absurd ?_ notAfter
          rw [behind.2]
          exact List.mem_append_right _ List.mem_cons_self
  · rintro ⟨⟨initial, rfl⟩, ⟨rest, rfl⟩⟩
    exact ⟨initial, rest, by simp⟩

end Lists

/-- A part without a slash stands in one of the names of a path. -/
theorem isInfix_textOf_iff {part : Text} {names : List Name}
    (unseparated : '/' ∉ part) (some : names ≠ []) :
    part <:+: textOf names ↔ ∃ name ∈ names, part <:+: name := by
  induction names with
  | nil => exact absurd rfl some
  | cons first rest inductionHypothesis =>
      cases rest with
      | nil => simp [textOf, List.intercalate]
      | cons second rest =>
          rw [textOf_cons_cons, isInfix_append_cons_iff unseparated,
            inductionHypothesis (List.cons_ne_nil _ _)]
          simp

end DripStone.Library
