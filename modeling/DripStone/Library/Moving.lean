import Mathlib

/-!
# Moving an item of a list

An item is taken out of a list and put back at another index; the items in
between go one index up or down.  A run of swaps of neighbours does the same.
-/

namespace DripStone.Library

universe u

variable {α : Type u}

/-- The item at `source` is put at `target`. -/
def moveItem (list : List α) (source target : Nat) : List α :=
  match list[source]? with
  | some item => (list.eraseIdx source).insertIdx target item
  | none => list

/-- Where a move puts the item of an index. -/
def movedIndex (source target index : Nat) : Nat :=
  if index = source then target
  else if source < index ∧ index ≤ target then index - 1
  else if target ≤ index ∧ index < source then index + 1
  else index

section Move

variable {list : List α} {source target index : Nat}

/-- What stands at an index behind a move. -/
theorem getElem?_moveItem (isSource : source < list.length)
    (isTarget : target < list.length) :
    (moveItem list source target)[index]? =
      if index = target then list[source]?
      else if source ≤ index ∧ index < target then list[index + 1]?
      else if target < index ∧ index ≤ source then list[index - 1]?
      else list[index]? := by
  have shorter := List.length_eraseIdx_of_lt isSource
  rw [moveItem, List.getElem?_eq_getElem isSource]
  show ((list.eraseIdx source).insertIdx target _)[index]? = _
  rw [List.getElem?_insertIdx]
  rcases lt_trichotomy index target with before | same | behind
  · rw [if_pos before, if_neg before.ne, List.getElem?_eraseIdx]
    by_cases isBetween : source ≤ index
    · rw [if_neg (by omega), if_pos ⟨isBetween, before⟩]
    · rw [if_pos (by omega), if_neg (by omega), if_neg (by omega)]
  · rw [if_neg (by omega), if_pos same, if_pos (by omega), if_pos same]
  · rw [if_neg (by omega), if_neg behind.ne', if_neg behind.ne',
      if_neg (by omega), List.getElem?_eraseIdx]
    by_cases isBetween : index ≤ source
    · rw [if_pos (by omega), if_pos ⟨behind, isBetween⟩]
    · rw [if_neg (by omega), if_neg (by omega),
        Nat.sub_add_cancel (by omega)]

theorem getElem?_movedIndex (isSource : source < list.length)
    (isTarget : target < list.length) :
    (moveItem list source target)[movedIndex source target index]? =
      list[index]? := by
  rw [getElem?_moveItem isSource isTarget, movedIndex]
  by_cases isMoved : index = source
  · rw [if_pos isMoved, if_pos rfl, isMoved]
  · rw [if_neg isMoved]
    by_cases goesDown : source < index ∧ index ≤ target
    · rw [if_pos goesDown, if_neg (by omega), if_pos (by omega),
        Nat.sub_add_cancel (by omega)]
    · rw [if_neg goesDown]
      by_cases goesUp : target ≤ index ∧ index < source
      · rw [if_pos goesUp, if_neg (by omega), if_neg (by omega),
          if_pos (by omega), Nat.add_sub_cancel]
      · rw [if_neg goesUp, if_neg (by omega), if_neg (by omega),
          if_neg (by omega)]

end Move

/-! ## Swaps of neighbours -/

/-- The items of two indices are swapped, when there are such. -/
def swapItems (list : List α) (first second : Nat) : Option (List α) := do
  let item ← list[first]?
  let other ← list[second]?
  pure ((list.set second item).set first other)

theorem swapItems_next (before after : List α) (first second : α) :
    swapItems (before ++ first :: second :: after) before.length
        (before.length + 1) =
      some (before ++ second :: first :: after) := by
  simp [swapItems]

theorem swapItems_previous (before after : List α) (first second : α) :
    swapItems (before ++ first :: second :: after) (before.length + 1)
        before.length =
      some (before ++ second :: first :: after) := by
  simp [swapItems]

/-- An item is swapped with each of those behind it. -/
theorem foldlM_swapItems_next (before middle after : List α) (item : α) :
    (List.range' before.length middle.length).foldlM
        (fun list index => swapItems list index (index + 1))
        (before ++ item :: (middle ++ after)) =
      some (before ++ (middle ++ item :: after)) := by
  induction middle generalizing before with
  | nil => rfl
  | cons next middle inductionHypothesis =>
      have further := inductionHypothesis (before ++ [next])
      simp only [List.length_append, List.length_singleton,
        List.append_assoc, List.singleton_append] at further
      rw [List.length_cons, List.range'_succ, List.foldlM_cons,
        List.cons_append, swapItems_next]
      exact further

/-- An item is swapped with each of those in front of it. -/
theorem foldlM_swapItems_previous (before middle after : List α)
    (item : α) :
    (List.range' (before.length + 1) middle.length).reverse.foldlM
        (fun list index => swapItems list index (index - 1))
        (before ++ (middle ++ item :: after)) =
      some (before ++ item :: (middle ++ after)) := by
  induction middle using List.reverseRecOn generalizing after with
  | nil => rfl
  | append_singleton middle last inductionHypothesis =>
      have swapped := swapItems_previous (before ++ middle) after last item
      simp only [List.length_append, List.append_assoc] at swapped
      rw [List.length_append, List.length_singleton, List.range'_1_concat,
        List.reverse_append, List.reverse_singleton, List.singleton_append,
        List.foldlM_cons, Nat.add_right_comm, Nat.add_sub_cancel]
      simp only [List.append_assoc, List.singleton_append]
      rw [swapped]
      exact inductionHypothesis (last :: after)

/-! ## Runs of swaps -/

theorem insertIdx_append (before after : List α) (item : α) :
    (before ++ after).insertIdx before.length item =
      before ++ item :: after := by
  induction before with
  | nil => rfl
  | cons first before inductionHypothesis =>
      exact congrArg (first :: ·) inductionHypothesis

theorem moveItem_next (before middle after : List α) (item : α) :
    moveItem (before ++ item :: (middle ++ after)) before.length
        (before.length + middle.length) =
      before ++ (middle ++ item :: after) := by
  have isItem : (before ++ item :: (middle ++ after))[before.length]? =
      some item := by simp
  have erased : (before ++ item :: (middle ++ after)).eraseIdx
      before.length = (before ++ middle) ++ after := by
    rw [List.eraseIdx_append_of_length_le le_rfl, Nat.sub_self,
      List.eraseIdx_cons_zero, List.append_assoc]
  rw [moveItem, isItem]
  show ((before ++ item :: (middle ++ after)).eraseIdx _).insertIdx _ _ = _
  rw [erased, ← List.length_append, insertIdx_append, List.append_assoc]

theorem moveItem_previous (before middle after : List α) (item : α) :
    moveItem (before ++ (middle ++ item :: after))
        (before.length + middle.length) before.length =
      before ++ item :: (middle ++ after) := by
  have isItem : (before ++ (middle ++ item :: after))[
      before.length + middle.length]? = some item := by simp
  have erased : (before ++ (middle ++ item :: after)).eraseIdx
      (before.length + middle.length) = before ++ (middle ++ after) := by
    rw [← List.append_assoc, ← List.length_append,
      List.eraseIdx_append_of_length_le le_rfl, Nat.sub_self,
      List.eraseIdx_cons_zero, List.append_assoc]
  rw [moveItem, isItem]
  show ((before ++ (middle ++ item :: after)).eraseIdx _).insertIdx _ _ = _
  rw [erased, insertIdx_append]

section Runs

variable {list : List α} {source target : Nat}

/-- Swaps with each item behind it move an item to a later index. -/
theorem foldlM_next_eq_moveItem (ordered : source ≤ target)
    (isTarget : target < list.length) :
    (List.range' source (target - source)).foldlM
        (fun list index => swapItems list index (index + 1)) list =
      some (moveItem list source target) := by
  have isSource : source < list.length := by omega
  obtain ⟨before, item, middle, after, rfl, atSource, between⟩ :
      ∃ before item middle after, list = before ++ item :: (middle ++ after) ∧
        before.length = source ∧ middle.length = target - source := by
    refine ⟨list.take source, list[source],
      (list.drop (source + 1)).take (target - source),
      (list.drop (source + 1)).drop (target - source), ?_, ?_, ?_⟩
    · rw [List.take_append_drop, ← List.drop_eq_getElem_cons isSource,
        List.take_append_drop]
    · rw [List.length_take]
      omega
    · rw [List.length_take, List.length_drop]
      omega
  have atTarget : target = before.length + middle.length := by omega
  rw [← between, ← atSource, foldlM_swapItems_next, atTarget, moveItem_next]

/-- Swaps with each item in front of it move an item to an earlier index. -/
theorem foldlM_previous_eq_moveItem (ordered : target ≤ source)
    (isSource : source < list.length) :
    (List.range' (target + 1) (source - target)).reverse.foldlM
        (fun list index => swapItems list index (index - 1)) list =
      some (moveItem list source target) := by
  obtain ⟨before, middle, item, after, rfl, atTarget, between⟩ :
      ∃ before middle item after, list = before ++ (middle ++ item :: after) ∧
        before.length = target ∧ middle.length = source - target := by
    refine ⟨list.take target, (list.drop target).take (source - target),
      list[source], list.drop (source + 1), ?_, ?_, ?_⟩
    · rw [← List.drop_eq_getElem_cons isSource]
      conv => lhs; rw [← List.take_append_drop target list]
      refine congrArg (list.take target ++ ·) ?_
      conv =>
        lhs; rw [← List.take_append_drop (source - target) (list.drop target)]
      rw [List.drop_drop, Nat.add_sub_cancel' ordered]
    · rw [List.length_take]
      omega
    · rw [List.length_take, List.length_drop]
      omega
  have atSource : source = before.length + middle.length := by omega
  rw [← between, ← atTarget, foldlM_swapItems_previous, atSource,
    moveItem_previous]

end Runs

/-! ## Taking an item out -/

/-- Where the item of an index is when the one at `removed` was taken out. -/
def erasedIndex (removed index : Nat) : Option Nat :=
  if index < removed then some index
  else if index = removed then none
  else some (index - 1)

theorem getElem?_erasedIndex {list : List α} {removed index behind : Nat}
    (isBehind : erasedIndex removed index = some behind) :
    (list.eraseIdx removed)[behind]? = list[index]? := by
  rw [erasedIndex] at isBehind
  split at isBehind
  · next before =>
      rw [← Option.some_inj.mp isBehind,
        List.getElem?_eraseIdx_of_lt before]
  · split at isBehind
    · cases isBehind
    · rw [← Option.some_inj.mp isBehind,
        List.getElem?_eraseIdx_of_ge (by omega), Nat.sub_add_cancel (by omega)]

theorem erasedIndex_eq_self_iff {removed index behind : Nat}
    (isBehind : erasedIndex removed index = some behind) :
    behind = index ↔ index ≤ removed := by
  rw [erasedIndex] at isBehind
  split at isBehind
  · have same := Option.some_inj.mp isBehind
    omega
  · split at isBehind
    · cases isBehind
    · have before := Option.some_inj.mp isBehind
      omega

/-- The first item that equals the one of an index may be taken out in its
place exactly when no other item stands in between. -/
theorem erase_eq_eraseIdx_iff [DecidableEq α] {list : List α} {index : Nat}
    {item : α} (isItem : list[index]? = some item) :
    list.erase item = list.eraseIdx index ↔
      ∀ first between, first ≤ between → between ≤ index →
        list[first]? = some item → list[between]? = some item := by
  have isMember := List.mem_of_getElem? isItem
  have atFirst := List.getElem?_idxOf isMember
  have isFirst {other : Nat} (isOther : list[other]? = some item) :
      list.idxOf item ≤ other := by
    obtain ⟨within, same⟩ := List.getElem?_eq_some_iff.mp isOther
    by_contra earlier
    have differs := List.not_of_lt_findIdx (not_le.mp earlier)
    rw [same, beq_self_eq_true] at differs
    cases differs
  rw [List.erase_eq_eraseIdx_of_idxOf rfl]
  constructor
  · intro erased first between afterFirst upTo isEqual
    have neighbours (other : Nat) (behindFirst : list.idxOf item ≤ other)
        (before : other < index) : list[other]? = list[other + 1]? := by
      have same := congrArg (·[other]?) erased
      simp only [List.getElem?_eraseIdx_of_ge behindFirst,
        List.getElem?_eraseIdx_of_lt before] at same
      exact same.symm
    have isBehind := (isFirst isEqual).trans afterFirst
    clear afterFirst isEqual
    induction upTo using Nat.decreasingInduction with
    | self => exact isItem
    | of_succ other before inductionHypothesis =>
        rw [neighbours other isBehind before]
        exact inductionHypothesis (isBehind.trans (Nat.le_succ other))
  · intro equal
    have constant (other : Nat) (behindFirst : list.idxOf item ≤ other)
        (upTo : other ≤ index) : list[other]? = some item :=
      equal _ other behindFirst upTo atFirst
    refine List.ext_getElem? fun other => ?_
    rw [List.getElem?_eraseIdx, List.getElem?_eraseIdx]
    by_cases before : other < list.idxOf item
    · rw [if_pos before, if_pos (before.trans_le (isFirst isItem))]
    · rw [if_neg before]
      by_cases upTo : other < index
      · rw [if_pos upTo, constant other (by omega) upTo.le,
          constant (other + 1) (by omega) upTo]
      · rw [if_neg upTo]

end DripStone.Library
