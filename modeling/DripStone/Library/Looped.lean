import Mathlib

/-!
# Lists that can be walked around

A list of pages of which the first one shows the last item and the last one
the first item, so that one can go on at both ends.
-/

namespace DripStone.Library

universe u

variable {α : Type u}

/-- The pages for some items; for one item there is only its own. -/
def looped (items : List α) : List α :=
  if items.length < 2 then items
  else items.getLast?.toList ++ items ++ items.head?.toList

/-- The index of the item that a page shows, `(page - 1) mod count`. -/
def shownAt (count page : Nat) : Nat := (page + count - 1) % count

theorem looped_of_lt {items : List α} (few : items.length < 2) :
    looped items = items := if_pos few

/-- The pages of two or more items. -/
theorem looped_eq {items : List α} {first last : α}
    (several : 2 ≤ items.length) (isFirst : items.head? = some first)
    (isLast : items.getLast? = some last) :
    looped items = last :: items ++ [first] := by
  rw [looped, if_neg (not_lt.mpr several), isFirst, isLast]
  rfl

theorem exists_looped_eq {items : List α} (several : 2 ≤ items.length) :
    ∃ first last, items.head? = some first ∧ items.getLast? = some last ∧
      looped items = last :: items ++ [first] := by
  have nonempty : items ≠ [] := by
    intro isNil
    rw [isNil] at several
    cases several
  exact ⟨_, _, List.head?_eq_some_head nonempty,
    List.getLast?_eq_some_getLast nonempty,
    looped_eq several (List.head?_eq_some_head nonempty)
      (List.getLast?_eq_some_getLast nonempty)⟩

theorem length_looped (items : List α) :
    (looped items).length =
      if items.length < 2 then items.length else items.length + 2 := by
  split
  · next few => rw [looped_of_lt few]
  · next several =>
      obtain ⟨first, last, _, _, isLooped⟩ :=
        exists_looped_eq (not_lt.mp several)
      simp [isLooped]

theorem shownAt_succ {count index : Nat} (inside : index < count) :
    shownAt count (index + 1) = index := by
  rw [shownAt, show index + 1 + count - 1 = index + count by omega,
    Nat.add_mod_right, Nat.mod_eq_of_lt inside]

theorem shownAt_zero {count : Nat} (some : 0 < count) :
    shownAt count 0 = count - 1 := by
  rw [shownAt, Nat.zero_add, Nat.mod_eq_of_lt (Nat.sub_one_lt_of_lt some)]

theorem shownAt_end {count : Nat} (some : 0 < count) :
    shownAt count (count + 1) = 0 := by
  rw [shownAt, show count + 1 + count - 1 = count + count by omega,
    Nat.add_mod_right, Nat.mod_self]

theorem shownAt_lt {count : Nat} (some : 0 < count) (page : Nat) :
    shownAt count page < count := Nat.mod_lt _ some

/-- What a page shows. -/
theorem getElem?_looped {items : List α} {page : Nat}
    (isPage : page < (looped items).length) :
    (looped items)[page]? = items[shownAt items.length page]? := by
  rw [length_looped] at isPage
  split at isPage
  · next few =>
      have isOnly : items.length = 1 := by omega
      rw [looped_of_lt few, shownAt, isOnly, Nat.mod_one,
        show page = 0 by omega]
  · next several =>
      obtain ⟨first, last, isFirst, isLast, isLooped⟩ :=
        exists_looped_eq (not_lt.mp several)
      have some : 0 < items.length := by omega
      rw [isLooped]
      cases page with
      | zero =>
          rw [shownAt_zero some, ← List.getLast?_eq_getElem?, isLast]
          rfl
      | succ page =>
          rw [List.cons_append, List.getElem?_cons_succ]
          rcases Nat.lt_or_ge page items.length with inside | atEnd
          · rw [List.getElem?_append_left inside, shownAt_succ inside]
          · have isEnd : page = items.length := by omega
            rw [isEnd, shownAt_end some, ← List.head?_eq_getElem?, isFirst]
            simp

/-! ## One of several -/

/-- Marks of which one is set. -/
def oneAt (count index : Nat) : List Bool :=
  (List.replicate count false).set index true

@[simp]
theorem length_oneAt (count index : Nat) :
    (oneAt count index).length = count := by
  simp [oneAt]

theorem getElem?_oneAt {count index : Nat} (inside : index < count)
    (other : Nat) :
    (oneAt count index)[other]? = some true ↔ other = index := by
  rw [oneAt, List.getElem?_set, List.length_replicate]
  split
  · next same => simp [same]
  · next another =>
      simp only [List.getElem?_replicate, Ne.symm another, iff_false]
      split
      · simp
      · simp

/-- The mark that is set is taken off, and another one is set. -/
theorem oneAt_set (count index other : Nat) :
    ((oneAt count index).set index false).set other true =
      oneAt count other := by
  rw [oneAt, List.set_set, oneAt]
  congr 1
  refine List.ext_getElem? fun place => ?_
  rw [List.getElem?_set]
  split
  · next same =>
      rw [← same, List.getElem?_replicate, List.length_replicate]
  · rfl

end DripStone.Library
