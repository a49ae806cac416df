import Mathlib

/-!
# Lists of bags

Each item of a list holds some values.  How often a value is held by all of
them together, when one item changes.
-/

namespace DripStone.Library

variable {α β : Type} [DecidableEq β] {bag : α → List β}
variable {items : List α} {index : Nat} {item : α}

theorem count_flatMap_set (atIndex : items[index]? = some item)
    (changed : α) (value : β) :
    ((items.set index changed).flatMap bag).count value +
        (bag item).count value =
      (items.flatMap bag).count value + (bag changed).count value := by
  induction items generalizing index with
  | nil => simp at atIndex
  | cons first rest inductionHypothesis =>
      cases index with
      | zero =>
          rw [List.getElem?_cons_zero, Option.some_inj] at atIndex
          rw [List.set_cons_zero, List.flatMap_cons, List.flatMap_cons,
            List.count_append, List.count_append, atIndex]
          omega
      | succ index =>
          rw [List.getElem?_cons_succ] at atIndex
          have inRest := inductionHypothesis atIndex
          rw [List.set_cons_succ, List.flatMap_cons, List.flatMap_cons,
            List.count_append, List.count_append]
          omega

theorem count_flatMap_modify (atIndex : items[index]? = some item)
    (change : α → α) (value : β) :
    ((items.modify index change).flatMap bag).count value +
        (bag item).count value =
      (items.flatMap bag).count value + (bag (change item)).count value := by
  rw [List.modify_eq_set_getElem?, atIndex]
  exact count_flatMap_set atIndex (change item) value

theorem count_flatMap_concat (last : α) (value : β) :
    ((items ++ [last]).flatMap bag).count value =
      (items.flatMap bag).count value + (bag last).count value := by
  rw [List.flatMap_append, List.flatMap_singleton, List.count_append]

theorem count_flatMap_pos {value : β}
    (atIndex : items[index]? = some item) (inItem : value ∈ bag item) :
    0 < (items.flatMap bag).count value :=
  List.count_pos_iff.mpr (List.mem_flatMap.mpr
    ⟨item, List.mem_of_getElem? atIndex, inItem⟩)

/-- A value that is held once is held by one item. -/
theorem index_unique {first second : Nat} {one other : α} {value : β}
    (atFirst : items[first]? = some one)
    (atSecond : items[second]? = some other) (inOne : value ∈ bag one)
    (inOther : value ∈ bag other)
    (once : (items.flatMap bag).count value ≤ 1) : first = second := by
  induction items generalizing first second with
  | nil => simp at atFirst
  | cons head rest inductionHypothesis =>
      rw [List.flatMap_cons, List.count_append] at once
      cases first with
      | zero =>
          cases second with
          | zero => rfl
          | succ second =>
              rw [List.getElem?_cons_zero, Option.some_inj] at atFirst
              rw [List.getElem?_cons_succ] at atSecond
              have inHead := List.count_pos_iff.mpr (atFirst ▸ inOne)
              have inRest := count_flatMap_pos atSecond inOther
              omega
      | succ first =>
          rw [List.getElem?_cons_succ] at atFirst
          cases second with
          | zero =>
              rw [List.getElem?_cons_zero, Option.some_inj] at atSecond
              have inHead := List.count_pos_iff.mpr (atSecond ▸ inOther)
              have inRest := count_flatMap_pos atFirst inOne
              omega
          | succ second =>
              rw [List.getElem?_cons_succ] at atSecond
              rw [inductionHypothesis atFirst atSecond (by omega)]

end DripStone.Library
