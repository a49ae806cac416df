import Mathlib

/-!
# Splitting at a pattern of fixed width

A pattern that tests each letter of a match on its own is searched for from
left to right.  A text is split at the matches that are found one after the
other.
-/

namespace DripStone.Library

universe u

variable {α : Type u}

/-- A pattern with one test for each letter of a match. -/
structure FixedRegex (α : Type u) where
  tests : List (α → Bool)
  nonempty : tests ≠ []

namespace FixedRegex

variable (pattern : FixedRegex α)

/-- The tests succeed on the first letters of a text. -/
def startsWith : List (α → Bool) → List α → Bool
  | [], _ => true
  | _ :: _, [] => false
  | test :: tests, letter :: rest => test letter && startsWith tests rest

/-- `Matcher.lookingAt` -/
def LookingAt (text : List α) : Prop :=
  startsWith pattern.tests text = true

instance (text : List α) : Decidable (pattern.LookingAt text) :=
  inferInstanceAs (Decidable (_ = true))

/-- What stands before and after the first match. -/
def cut : List α → Option (List α × List α)
  | [] => none
  | letter :: rest =>
      if pattern.LookingAt (letter :: rest) then
        some ([], (letter :: rest).drop pattern.tests.length)
      else
        (cut rest).map fun parts => (letter :: parts.1, parts.2)

theorem length_of_startsWith {tests : List (α → Bool)} {text : List α}
    (starts : startsWith tests text = true) : tests.length ≤ text.length := by
  induction tests generalizing text with
  | nil => exact Nat.zero_le _
  | cons test tests inductionHypothesis =>
      cases text with
      | nil => cases starts
      | cons letter rest =>
          rw [startsWith, Bool.and_eq_true] at starts
          exact Nat.succ_le_succ (inductionHypothesis starts.2)

variable {pattern} {text before after : List α}

theorem LookingAt.length_le (looking : pattern.LookingAt text) :
    pattern.tests.length ≤ text.length :=
  length_of_startsWith looking

theorem width_pos : 0 < pattern.tests.length :=
  List.length_pos_iff.mpr pattern.nonempty

theorem not_lookingAt_nil : ¬pattern.LookingAt [] := by
  intro looking
  have width := @width_pos α pattern
  have short := looking.length_le
  rw [List.length_nil] at short
  omega

/-! ## The first match -/

/-- Some text is the first match in another. -/
structure FirstMatch (pattern : FixedRegex α)
    (text before found after : List α) : Prop where
  split : text = before ++ found ++ after
  width : found.length = pattern.tests.length
  looking : pattern.LookingAt (found ++ after)
  first : ∀ index < before.length, ¬pattern.LookingAt (text.drop index)

theorem cut_eq_none_iff :
    pattern.cut text = none ↔
      ∀ index, ¬pattern.LookingAt (text.drop index) := by
  induction text with
  | nil => simp [cut, not_lookingAt_nil]
  | cons letter rest inductionHypothesis =>
      rw [cut]
      split
      · next looking =>
          refine iff_of_false (Option.some_ne_none _) fun never => ?_
          exact never 0 looking
      · next other =>
          rw [Option.map_eq_none_iff, inductionHypothesis]
          constructor
          · intro never index
            cases index with
            | zero => exact other
            | succ index => exact never index
          · intro never index
            exact never (index + 1)

/-- Spec lemma: the parts around the first match. -/
theorem cut_eq_some_iff :
    pattern.cut text = some (before, after) ↔
      ∃ found, pattern.FirstMatch text before found after := by
  induction text generalizing before with
  | nil =>
      refine iff_of_false (by simp [cut]) ?_
      rintro ⟨found, isFirst⟩
      have width := @width_pos α pattern
      have lengths := congrArg List.length isFirst.split
      rw [List.length_append, List.length_append, isFirst.width,
        List.length_nil] at lengths
      omega
  | cons letter rest inductionHypothesis =>
      rw [cut]
      split
      · next looking =>
          constructor
          · intro same
            obtain ⟨rfl, rfl⟩ := Prod.mk.inj (Option.some.inj same)
            refine ⟨(letter :: rest).take pattern.tests.length, ?_, ?_, ?_,
              fun index impossible => absurd impossible (Nat.not_lt_zero _)⟩
            · rw [List.nil_append, List.take_append_drop]
            · rw [List.length_take, Nat.min_eq_left looking.length_le]
            · rwa [List.take_append_drop]
          · rintro ⟨found, isFirst⟩
            cases before with
            | nil =>
                have split := isFirst.split
                rw [List.nil_append] at split
                rw [split, ← isFirst.width, List.drop_left]
            | cons first before =>
                exact absurd looking (isFirst.first 0 (Nat.succ_pos _))
      · next other =>
          rw [Option.map_eq_some_iff]
          constructor
          · rintro ⟨⟨beforeRest, afterRest⟩, isCut, same⟩
            obtain ⟨rfl, rfl⟩ := Prod.mk.inj same
            obtain ⟨found, isFirst⟩ := inductionHypothesis.mp isCut
            refine ⟨found, ?_, isFirst.width, isFirst.looking, ?_⟩
            · rw [isFirst.split]
              rfl
            · intro index inBefore
              cases index with
              | zero => exact other
              | succ index =>
                  exact isFirst.first index (Nat.lt_of_succ_lt_succ inBefore)
          · rintro ⟨found, isFirst⟩
            cases before with
            | nil =>
                have split := isFirst.split
                rw [List.nil_append] at split
                exact absurd (split ▸ isFirst.looking) other
            | cons first before =>
                have split := List.cons.inj isFirst.split
                refine ⟨(before, after), inductionHypothesis.mpr
                  ⟨found, split.2, isFirst.width, isFirst.looking, ?_⟩, ?_⟩
                · intro index inBefore
                  exact isFirst.first (index + 1) (Nat.succ_lt_succ inBefore)
                · rw [split.1]

theorem length_after_lt (isCut : pattern.cut text = some (before, after)) :
    after.length < text.length := by
  obtain ⟨found, isFirst⟩ := cut_eq_some_iff.mp isCut
  have width := @width_pos α pattern
  rw [isFirst.split, List.length_append, List.length_append, isFirst.width]
  omega

variable (pattern)

/-- The texts between the matches. -/
def pieces (text : List α) : List (List α) :=
  match _isCut : pattern.cut text with
  | none => [text]
  | some parts => parts.1 :: pieces parts.2
termination_by text.length
decreasing_by exact @length_after_lt α pattern text parts.1 parts.2 _isCut

/-- `String.split`: empty texts at the end are left out, unless there is no
match. -/
def split (text : List α) : List (List α) :=
  if pattern.cut text = none then [text]
  else (pattern.pieces text).rdropWhile (· = [])

variable {pattern} {piece : List α}

theorem pieces_of_cut_eq_none (never : pattern.cut text = none) :
    pattern.pieces text = [text] := by
  rw [pieces]
  split
  · rfl
  · next parts isCut =>
      rw [never] at isCut
      cases isCut

theorem pieces_of_cut_eq_some
    (isCut : pattern.cut text = some (before, after)) :
    pattern.pieces text = before :: pattern.pieces after := by
  rw [pieces]
  split
  · next never =>
      rw [never] at isCut
      cases isCut
  · next parts other =>
      rw [isCut] at other
      rw [← Option.some.inj other]

theorem getElem?_zero_pieces :
    (pattern.pieces text)[0]? = some piece ↔
      pattern.cut text = none ∧ piece = text ∨
        ∃ rest, pattern.cut text = some (piece, rest) := by
  cases isCut : pattern.cut text with
  | none =>
      rw [pieces_of_cut_eq_none isCut]
      simp [eq_comm]
  | some parts =>
      have cutParts : pattern.cut text = some (parts.1, parts.2) := isCut
      rw [pieces_of_cut_eq_some cutParts]
      simp [Prod.ext_iff]

/-- Only empty texts are left out at the end. -/
theorem getElem?_rdropWhile (texts : List (List α)) (some : piece ≠ [])
    (index : Nat) :
    (texts.rdropWhile (· = []))[index]? = .some piece ↔
      texts[index]? = .some piece := by
  induction texts using List.reverseRecOn with
  | nil => rfl
  | append_singleton texts last inductionHypothesis =>
      by_cases isEmpty : last = []
      · rw [List.rdropWhile_concat_pos _ _ _ (by simpa using isEmpty),
          inductionHypothesis]
        rcases Nat.lt_trichotomy index texts.length with before | rfl | behind
        · rw [List.getElem?_append_left before]
        · simp [isEmpty, some.symm]
        · rw [List.getElem?_eq_none (by omega),
            List.getElem?_eq_none (by simpa using behind)]
      · rw [List.rdropWhile_concat_neg _ _ _ (by simpa using isEmpty)]

/-- Spec lemma: the second of the texts that a split returns. -/
theorem getElem?_one_split (some : piece ≠ []) :
    (pattern.split text)[1]? = .some piece ↔
      ∃ before after, pattern.cut text = .some (before, after) ∧
        (pattern.cut after = none ∧ piece = after ∨
          ∃ rest, pattern.cut after = .some (piece, rest)) := by
  cases isCut : pattern.cut text with
  | none => simp [split, isCut]
  | some parts =>
      have cutParts : pattern.cut text = .some (parts.1, parts.2) := isCut
      rw [split, if_neg (by simp [isCut]), getElem?_rdropWhile _ some,
        pieces_of_cut_eq_some cutParts, List.getElem?_cons_succ,
        getElem?_zero_pieces]
      constructor
      · exact fun here => ⟨parts.1, parts.2, rfl, here⟩
      · rintro ⟨before, after, same, here⟩
        rw [Option.some.inj same]
        exact here

end FixedRegex

end DripStone.Library
