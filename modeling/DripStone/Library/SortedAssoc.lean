import Mathlib

/-!
# Sorted association lists with positional access

A map stored as an array of entries in strictly ascending key order, read
both by key and by position.  The order is a field of the structure, so an
unsorted map cannot be built.

The positional facts are the ones a client needs that holds on to a position
while the map grows: the entry after a position is the least greater key, and
a later insertion moves a position only when the new key is smaller.
-/

namespace DripStone.Library

universe u v

/-- Entries in strictly ascending key order. -/
structure SortedAssoc (κ : Type u) (α : Type v) [LinearOrder κ] where
  entries : List (κ × α)
  sorted : entries.Pairwise (fun left right => left.1 < right.1)

namespace SortedAssoc

variable {κ : Type u} {α : Type v} [LinearOrder κ]

/-! ## Operations -/

def empty : SortedAssoc κ α := ⟨[], List.Pairwise.nil⟩

/-- Insertion into a sorted list of entries; an entry with the same key is
replaced. -/
def insertEntry (key : κ) (value : α) : List (κ × α) → List (κ × α)
  | [] => [(key, value)]
  | head :: rest =>
      if key < head.1 then
        (key, value) :: head :: rest
      else if key = head.1 then
        (key, value) :: rest
      else
        head :: insertEntry key value rest

theorem mem_of_mem_insertEntry {key : κ} {value : α} {entry : κ × α}
    {entries : List (κ × α)}
    (member : entry ∈ insertEntry key value entries) :
    entry = (key, value) ∨ entry ∈ entries := by
  induction entries with
  | nil => simpa [insertEntry] using member
  | cons head rest inductionHypothesis =>
      rw [insertEntry] at member
      split_ifs at member with below same
      · simpa using member
      · rcases List.mem_cons.mp member with equal | inRest
        · exact Or.inl equal
        · exact Or.inr (List.mem_cons_of_mem head inRest)
      · rcases List.mem_cons.mp member with equal | inRest
        · exact Or.inr (equal ▸ List.mem_cons_self)
        · rcases inductionHypothesis inRest with equal | inRest
          · exact Or.inl equal
          · exact Or.inr (List.mem_cons_of_mem head inRest)

theorem sorted_insertEntry (key : κ) (value : α)
    {entries : List (κ × α)}
    (sorted : entries.Pairwise (fun left right => left.1 < right.1)) :
    (insertEntry key value entries).Pairwise
      (fun left right => left.1 < right.1) := by
  induction entries with
  | nil => exact List.pairwise_singleton _ _
  | cons head rest inductionHypothesis =>
      obtain ⟨headBelow, restSorted⟩ := List.pairwise_cons.mp sorted
      rw [insertEntry]
      split_ifs with below same
      · refine List.pairwise_cons.mpr ⟨?_, sorted⟩
        intro entry member
        rcases List.mem_cons.mp member with rfl | inRest
        · exact below
        · exact below.trans (headBelow entry inRest)
      · refine List.pairwise_cons.mpr ⟨?_, restSorted⟩
        intro entry inRest
        exact same ▸ headBelow entry inRest
      · refine List.pairwise_cons.mpr ⟨?_, inductionHypothesis restSorted⟩
        intro entry member
        rcases mem_of_mem_insertEntry member with rfl | inRest
        · exact lt_of_le_of_ne (not_lt.mp below) (Ne.symm same)
        · exact headBelow entry inRest

/-- Store a value under a key. -/
def put (map : SortedAssoc κ α) (key : κ) (value : α) :
    SortedAssoc κ α :=
  ⟨insertEntry key value map.entries,
    sorted_insertEntry key value map.sorted⟩

def size (map : SortedAssoc κ α) : Nat := map.entries.length

def keys (map : SortedAssoc κ α) : List κ := map.entries.map Prod.fst

def values (map : SortedAssoc κ α) : List α := map.entries.map Prod.snd

def keyAt? (map : SortedAssoc κ α) (index : Nat) : Option κ :=
  map.entries[index]?.map Prod.fst

def valueAt? (map : SortedAssoc κ α) (index : Nat) : Option α :=
  map.entries[index]?.map Prod.snd

def indexOfKey? (map : SortedAssoc κ α) (key : κ) : Option Nat :=
  map.entries.findIdx? (fun entry => entry.1 = key)

def indexOfValue? [DecidableEq α] (map : SortedAssoc κ α) (value : α) :
    Option Nat :=
  map.entries.findIdx? (fun entry => entry.2 = value)

/-! ## Keys and positions -/

section Positions

variable {map : SortedAssoc κ α}

theorem lt_iff_of_getElem? {i j : Nat} {left right : κ × α}
    (atLeft : map.entries[i]? = some left)
    (atRight : map.entries[j]? = some right) :
    left.1 < right.1 ↔ i < j := by
  obtain ⟨leftBound, rfl⟩ := List.getElem?_eq_some_iff.mp atLeft
  obtain ⟨rightBound, rfl⟩ := List.getElem?_eq_some_iff.mp atRight
  have ordered := List.pairwise_iff_getElem.mp map.sorted
  constructor
  · intro keysLt
    by_contra notLt
    rcases Nat.lt_or_eq_of_le (Nat.le_of_not_lt notLt) with after | rfl
    · exact lt_asymm keysLt (ordered j i rightBound leftBound after)
    · exact lt_irrefl _ keysLt
  · exact ordered i j leftBound rightBound

theorem index_eq_of_key_eq {i j : Nat} {left right : κ × α}
    (atLeft : map.entries[i]? = some left)
    (atRight : map.entries[j]? = some right)
    (same : left.1 = right.1) : i = j := by
  have notBefore := (lt_iff_of_getElem? atLeft atRight).not.mp same.not_lt
  have notAfter := (lt_iff_of_getElem? atRight atLeft).not.mp same.not_gt
  omega

theorem eq_of_mem_of_key_eq {left right : κ × α}
    (memLeft : left ∈ map.entries) (memRight : right ∈ map.entries)
    (same : left.1 = right.1) : left = right := by
  obtain ⟨i, atLeft⟩ := List.mem_iff_getElem?.mp memLeft
  obtain ⟨j, atRight⟩ := List.mem_iff_getElem?.mp memRight
  obtain rfl := index_eq_of_key_eq atLeft atRight same
  exact Option.some.inj (atLeft.symm.trans atRight)

theorem indexOfKey?_eq_some {key : κ} {i : Nat} :
    map.indexOfKey? key = some i ↔
      ∃ value, map.entries[i]? = some (key, value) := by
  unfold indexOfKey?
  constructor
  · intro found
    obtain ⟨bound, holds, _⟩ := List.findIdx?_eq_some_iff_getElem.mp found
    refine ⟨map.entries[i].2, List.getElem?_eq_some_iff.mpr ⟨bound, ?_⟩⟩
    exact Prod.ext (by simpa using holds) rfl
  · rintro ⟨value, atIndex⟩
    obtain ⟨bound, equal⟩ := List.getElem?_eq_some_iff.mp atIndex
    refine List.findIdx?_eq_some_iff_getElem.mpr ⟨bound, by simp [equal], ?_⟩
    intro j before
    have below :=
      (lt_iff_of_getElem? (List.getElem?_eq_getElem (by omega)) atIndex).mpr
        before
    simpa using below.ne

/-- The entry `next` carries the least key above `key`. -/
def IsSuccessor (map : SortedAssoc κ α) (key : κ) (next : κ × α) : Prop :=
  next ∈ map.entries ∧ key < next.1 ∧
    ∀ entry ∈ map.entries, key < entry.1 → next.1 ≤ entry.1

theorem IsSuccessor.unique {key : κ} {left right : κ × α}
    (isLeft : map.IsSuccessor key left)
    (isRight : map.IsSuccessor key right) : left = right :=
  eq_of_mem_of_key_eq isLeft.1 isRight.1 <|
    le_antisymm
      (isLeft.2.2 right isRight.1 isRight.2.1)
      (isRight.2.2 left isLeft.1 isLeft.2.1)

theorem isSuccessor_of_getElem? {i : Nat} {entry next : κ × α}
    (atIndex : map.entries[i]? = some entry)
    (atNext : map.entries[i + 1]? = some next) :
    map.IsSuccessor entry.1 next := by
  refine ⟨List.mem_of_getElem? atNext,
    (lt_iff_of_getElem? atIndex atNext).mpr (Nat.lt_succ_self i), ?_⟩
  intro other member above
  obtain ⟨j, atOther⟩ := List.mem_iff_getElem?.mp member
  have after := (lt_iff_of_getElem? atIndex atOther).mp above
  have notBelow :=
    (lt_iff_of_getElem? atOther atNext).not.mpr (by omega)
  exact not_lt.mp notBelow

theorem le_of_getElem?_succ_eq_none {i : Nat} {entry other : κ × α}
    (atIndex : map.entries[i]? = some entry)
    (noNext : map.entries[i + 1]? = none)
    (member : other ∈ map.entries) : other.1 ≤ entry.1 := by
  obtain ⟨j, atOther⟩ := List.mem_iff_getElem?.mp member
  obtain ⟨bound, _⟩ := List.getElem?_eq_some_iff.mp atOther
  have size := List.getElem?_eq_none_iff.mp noNext
  have notAfter :=
    (lt_iff_of_getElem? atIndex atOther).not.mpr (by omega)
  exact not_lt.mp notAfter

/-- The entry `previous` carries the greatest key below `key`. -/
def IsPredecessor (map : SortedAssoc κ α) (key : κ)
    (previous : κ × α) : Prop :=
  previous ∈ map.entries ∧ previous.1 < key ∧
    ∀ entry ∈ map.entries, entry.1 < key → entry.1 ≤ previous.1

/-- The predecessor of an entry is the one in front of it. -/
theorem isPredecessor_iff {i : Nat} {entry previous : κ × α}
    (atIndex : map.entries[i]? = some entry) :
    map.IsPredecessor entry.1 previous ↔
      ∃ j, i = j + 1 ∧ map.entries[j]? = some previous := by
  constructor
  · rintro ⟨member, below, greatest⟩
    obtain ⟨j, atPrevious⟩ := List.mem_iff_getElem?.mp member
    have before := (lt_iff_of_getElem? atPrevious atIndex).mp below
    obtain ⟨bound, _⟩ := List.getElem?_eq_some_iff.mp atIndex
    refine ⟨j, ?_, atPrevious⟩
    by_contra gap
    -- else the entry behind the predecessor lies between the two
    have atBetween := List.getElem?_eq_getElem
      (by omega : j + 1 < map.entries.length)
    have atMost := greatest _ (List.mem_of_getElem? atBetween)
      ((lt_iff_of_getElem? atBetween atIndex).mpr (by omega))
    have above := (lt_iff_of_getElem? atPrevious atBetween).mpr
      (Nat.lt_succ_self j)
    exact not_lt.mpr atMost above
  · rintro ⟨j, rfl, atPrevious⟩
    refine ⟨List.mem_of_getElem? atPrevious,
      (lt_iff_of_getElem? atPrevious atIndex).mpr (Nat.lt_succ_self j), ?_⟩
    intro other member below
    obtain ⟨k, atOther⟩ := List.mem_iff_getElem?.mp member
    have before := (lt_iff_of_getElem? atOther atIndex).mp below
    have notAfter :=
      (lt_iff_of_getElem? atPrevious atOther).not.mpr (by omega)
    exact not_lt.mp notAfter

theorem nodup_keys : map.keys.Nodup :=
  (List.pairwise_map.mpr map.sorted).imp fun below => below.ne

/-- The keys from `key` on are the ones stored from its position on. -/
theorem filter_le_keys_eq_drop {i : Nat} {entry : κ × α}
    (atIndex : map.entries[i]? = some entry) :
    map.keys.filter (fun key => entry.1 ≤ key) = map.keys.drop i := by
  have split : map.keys = map.keys.take i ++ map.keys.drop i :=
    (List.take_append_drop i map.keys).symm
  have below : ∀ key ∈ map.keys.take i, ¬ entry.1 ≤ key := by
    intro key member
    obtain ⟨j, atKey⟩ := List.mem_iff_getElem?.mp member
    rw [List.getElem?_take] at atKey
    split_ifs at atKey with before
    rw [keys, List.getElem?_map] at atKey
    obtain ⟨other, atOther, rfl⟩ := Option.map_eq_some_iff.mp atKey
    exact not_le.mpr ((lt_iff_of_getElem? atOther atIndex).mpr before)
  have above : ∀ key ∈ map.keys.drop i, entry.1 ≤ key := by
    intro key member
    obtain ⟨j, atKey⟩ := List.mem_iff_getElem?.mp member
    rw [List.getElem?_drop, keys, List.getElem?_map] at atKey
    obtain ⟨other, atOther, rfl⟩ := Option.map_eq_some_iff.mp atKey
    exact not_lt.mp
      ((lt_iff_of_getElem? atOther atIndex).not.mpr (by omega))
  conv_lhs => rw [split]
  rw [List.filter_append,
    List.filter_eq_nil_iff.mpr (by simpa using below),
    List.filter_eq_self.mpr (by simpa using above), List.nil_append]

end Positions

/-! ## Growth -/

section Growth

variable {map : SortedAssoc κ α} {key : κ} {value : α}

@[simp]
theorem entries_put :
    (map.put key value).entries = insertEntry key value map.entries := rfl

theorem mem_put_self : (key, value) ∈ (map.put key value).entries := by
  rw [entries_put]
  induction map.entries with
  | nil => simp [insertEntry]
  | cons head rest inductionHypothesis =>
      rw [insertEntry]
      split_ifs
      · exact List.mem_cons_self
      · exact List.mem_cons_self
      · exact List.mem_cons_of_mem head inductionHypothesis

theorem insertEntry_perm {entries : List (κ × α)}
    (fresh : key ∉ entries.map Prod.fst) :
    (insertEntry key value entries).Perm ((key, value) :: entries) := by
  induction entries with
  | nil => exact List.Perm.refl _
  | cons head rest inductionHypothesis =>
      simp only [List.map_cons, List.mem_cons, not_or] at fresh
      rw [insertEntry]
      split_ifs with below same
      · exact List.Perm.refl _
      · exact absurd same fresh.1
      · exact ((inductionHypothesis fresh.2).cons head).trans
          (List.Perm.swap _ _ _)

/-- An entry below the new key keeps its position. -/
theorem getElem?_put_of_lt {i : Nat} {entry : κ × α}
    (atIndex : map.entries[i]? = some entry) (below : entry.1 < key) :
    (map.put key value).entries[i]? = some entry := by
  rw [entries_put]
  have sorted := map.sorted
  generalize map.entries = entries at atIndex sorted
  induction entries generalizing i with
  | nil => simp at atIndex
  | cons head rest inductionHypothesis =>
      obtain ⟨headBelow, restSorted⟩ := List.pairwise_cons.mp sorted
      have headLt : head.1 < key := by
        cases i with
        | zero =>
            rw [List.getElem?_cons_zero, Option.some.injEq] at atIndex
            exact atIndex ▸ below
        | succ j =>
            rw [List.getElem?_cons_succ] at atIndex
            exact (headBelow entry (List.mem_of_getElem? atIndex)).trans below
      rw [insertEntry, if_neg headLt.not_gt, if_neg headLt.ne']
      cases i with
      | zero => exact atIndex
      | succ j =>
          rw [List.getElem?_cons_succ] at atIndex ⊢
          exact inductionHypothesis atIndex restSorted

/-- An entry above a new key moves up by one position. -/
theorem getElem?_put_of_gt {i : Nat} {entry : κ × α}
    (fresh : key ∉ map.keys)
    (atIndex : map.entries[i]? = some entry) (above : key < entry.1) :
    (map.put key value).entries[i + 1]? = some entry := by
  rw [entries_put]
  unfold keys at fresh
  generalize map.entries = entries at atIndex fresh
  induction entries generalizing i with
  | nil => simp at atIndex
  | cons head rest inductionHypothesis =>
      simp only [List.map_cons, List.mem_cons, not_or] at fresh
      rw [insertEntry]
      split_ifs with below same
      · rw [List.getElem?_cons_succ]
        exact atIndex
      · exact absurd same fresh.1
      · rw [List.getElem?_cons_succ]
        cases i with
        | zero =>
            rw [List.getElem?_cons_zero, Option.some.injEq] at atIndex
            exact absurd (atIndex ▸ above) below
        | succ j =>
            rw [List.getElem?_cons_succ] at atIndex
            exact inductionHypothesis atIndex fresh.2

/-- Storing under a key leaves the entries with other keys. -/
theorem mem_put_of_ne {entry : κ × α} (different : entry.1 ≠ key)
    (member : entry ∈ map.entries) :
    entry ∈ (map.put key value).entries := by
  rw [entries_put]
  generalize map.entries = entries at member
  induction entries with
  | nil => simp at member
  | cons head rest inductionHypothesis =>
      rw [insertEntry]
      split_ifs with below same
      · exact List.mem_cons_of_mem _ member
      · rcases List.mem_cons.mp member with rfl | inRest
        · exact absurd same.symm different
        · exact List.mem_cons_of_mem _ inRest
      · rcases List.mem_cons.mp member with rfl | inRest
        · exact List.mem_cons_self
        · exact List.mem_cons_of_mem _ (inductionHypothesis inRest)

end Growth

end SortedAssoc

end DripStone.Library
