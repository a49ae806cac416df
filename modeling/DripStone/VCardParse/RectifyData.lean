import DripStone.Library.ListParts
import DripStone.Library.Paths

/-!
# `isValid` and `rectifyData`

A text is taken for a vCard when it contains both flags; what stands before
the first opening flag and behind the last closing flag is cut off.
-/

namespace DripStone.VCardParse

open DripStone.Library

/-! ## `kotlin.text` -/

def contains (text part : Text) : Bool :=
  part <:+: text

def replaceBefore (text delimiter replacement : Text) : Text :=
  match indexOf delimiter text with
  | none => text
  | some index => replacement ++ text.drop index

def replaceAfterLast (text delimiter replacement : Text) : Text :=
  match lastIndexOf delimiter text with
  | none => text
  | some index => text.take (index + delimiter.length) ++ replacement

/-! ## `VCardParseImpl` -/

/-- `VCardConst.FLAG_BEGIN` -/
def flagBegin : Text :=
  ['B', 'E', 'G', 'I', 'N', ':', 'V', 'C', 'A', 'R', 'D']

/-- `VCardConst.FLAG_END` -/
def flagEnd : Text :=
  ['E', 'N', 'D', ':', 'V', 'C', 'A', 'R', 'D']

def isValid (data : Text) : Bool :=
  contains data flagBegin && contains data flagEnd

def rectifyData (data : Text) : Text :=
  replaceAfterLast (replaceBefore data flagBegin []) flagEnd []

/-! ## Framed texts -/

/-- A valid text is rectified to one from flag to flag. -/
def Framed (data : Text) : Prop :=
  isValid data = true →
    flagBegin <+: rectifyData data ∧ flagEnd <:+ rectifyData data

/-- A closing flag stands behind an opening one. -/
def FlagsInOrder (data : Text) : Prop :=
  ∃ before behind, data = before ++ flagBegin ++ behind ∧
    flagEnd <:+: behind

/-- The two flags have no letters in common. -/
theorem flagEnd_isInfix_append {rest : Text} :
    flagEnd <:+: flagBegin ++ rest ↔ flagEnd <:+: rest := by
  simp [flagEnd, flagBegin, List.infix_cons_iff, List.cons_prefix_cons]

theorem two_le_of_isPrefix_drop {rest : Text} {index : Nat}
    (here : flagEnd <+: (flagBegin ++ rest).drop index) : 2 ≤ index := by
  match index with
  | 0 => simp [flagEnd, flagBegin, List.cons_prefix_cons] at here
  | 1 => simp [flagEnd, flagBegin, List.cons_prefix_cons] at here
  | index + 2 => omega

theorem isValid_iff {data : Text} :
    isValid data = true ↔ flagBegin <:+: data ∧ flagEnd <:+: data := by
  rw [isValid, Bool.and_eq_true, contains, contains, decide_eq_true_iff,
    decide_eq_true_iff]

/-- What is left of a text with an opening flag, from the first one on. -/
theorem exists_replaceBefore {data : Text} (opens : flagBegin <:+: data) :
    ∃ index rest, indexOf flagBegin data = some index ∧
      data.drop index = flagBegin ++ rest ∧
      replaceBefore data flagBegin [] = flagBegin ++ rest := by
  cases found : indexOf flagBegin data with
  | none => exact absurd opens (indexOf_eq_none_iff.mp found)
  | some index =>
      obtain ⟨rest, isRest⟩ := isPrefix_of_indexOf found
      refine ⟨index, rest, rfl, isRest.symm, ?_⟩
      simp only [replaceBefore, found]
      exact isRest.symm

/-- The flags are in order when the closing one is left. -/
theorem flagsInOrder_iff {data rest : Text} {index : Nat}
    (found : indexOf flagBegin data = some index)
    (isRest : data.drop index = flagBegin ++ rest) :
    FlagsInOrder data ↔ flagEnd <:+: rest := by
  constructor
  · rintro ⟨before, behind, whole, closes⟩
    have later : flagBegin <+: data.drop before.length := by
      rw [whole, List.append_assoc, List.drop_left]
      exact List.prefix_append _ _
    have first := indexOf_le found later
    have behindFirst : data.drop before.length <:+ data.drop index := by
      have more := List.drop_suffix (before.length - index)
        (data.drop index)
      rwa [List.drop_drop, Nat.add_sub_cancel' first] at more
    rw [← flagEnd_isInfix_append, ← isRest]
    refine List.IsInfix.trans ?_ behindFirst.isInfix
    rw [whole, List.append_assoc, List.drop_left]
    exact closes.trans (List.suffix_append _ _).isInfix
  · intro closes
    refine ⟨data.take index, rest, ?_, closes⟩
    rw [List.append_assoc, ← isRest, List.take_append_drop]

/-- A text is framed exactly when its flags are in order, if it is valid. -/
theorem framed_iff (data : Text) :
    Framed data ↔ (isValid data = true → FlagsInOrder data) := by
  refine forall_congr' fun valid => ?_
  obtain ⟨index, rest, found, isRest, left⟩ :=
    exists_replaceBefore (isValid_iff.mp valid).1
  rw [flagsInOrder_iff found isRest, ← flagEnd_isInfix_append, rectifyData,
    left]
  cases foundEnd : lastIndexOf flagEnd (flagBegin ++ rest) with
  | none =>
      have unclosed := lastIndexOf_eq_none_iff.mp foundEnd
      simp only [replaceAfterLast, foundEnd]
      exact iff_of_false (fun both => unclosed both.2.isInfix) unclosed
  | some last =>
      have here := isPrefix_of_lastIndexOf foundEnd
      simp only [replaceAfterLast, foundEnd, List.append_nil]
      refine iff_of_true ⟨?_, ?_⟩ (isInfix_of_isPrefix_drop here)
      · have far := two_le_of_isPrefix_drop here
        have long : flagBegin.length ≤ last + flagEnd.length := by
          have lengths : flagBegin.length = 11 ∧ flagEnd.length = 9 := by
            decide
          omega
        exact List.prefix_take_iff.mpr ⟨List.prefix_append _ _, long⟩
      · rw [List.take_add, ← List.prefix_iff_eq_take.mp here]
        exact List.suffix_append _ _

end DripStone.VCardParse
