import Mathlib

/-!
# Parts of a list

The first and the last place at which a part stands in a list, a list with
some consecutive elements replaced, and a list with noise inserted between its
elements.
-/

namespace DripStone.Library

universe u v

/-! ## Occurrences of a part -/

section Occurrences

variable {α : Type u} [DecidableEq α]

/-- `text.indexOf(part)` -/
def indexOf (part text : List α) : Option Nat :=
  (List.range (text.length + 1)).find? fun index => part <+: text.drop index

/-- `text.lastIndexOf(part)` -/
def lastIndexOf (part text : List α) : Option Nat :=
  (List.range (text.length + 1)).reverse.find? fun index =>
    part <+: text.drop index

variable {part text : List α} {index : Nat}

omit [DecidableEq α] in
theorem isInfix_of_isPrefix_drop (here : part <+: text.drop index) :
    part <:+: text :=
  here.isInfix.trans (List.drop_suffix index text).isInfix

omit [DecidableEq α] in
theorem exists_isPrefix_drop_iff :
    (∃ index < text.length + 1, part <+: text.drop index) ↔
      part <:+: text := by
  constructor
  · rintro ⟨index, _, here⟩
    exact isInfix_of_isPrefix_drop here
  · rintro ⟨before, after, rfl⟩
    refine ⟨before.length, ?_, ?_⟩
    · rw [List.length_append, List.length_append]
      omega
    · rw [List.append_assoc, List.drop_left]
      exact List.prefix_append part after

theorem isPrefix_of_indexOf (found : indexOf part text = some index) :
    part <+: text.drop index := by
  have passes := List.find?_some found
  exact of_decide_eq_true passes

theorem isPrefix_of_lastIndexOf (found : lastIndexOf part text = some index) :
    part <+: text.drop index := by
  have passes := List.find?_some found
  exact of_decide_eq_true passes

/-- The first index is the least. -/
theorem indexOf_le {other : Nat} (found : indexOf part text = some index)
    (here : part <+: text.drop other) : index ≤ other := by
  by_contra less
  have first := (List.find?_range_eq_some.mp found).2.2 other (by omega)
  rw [decide_eq_true here] at first
  cases first

theorem indexOf_eq_none_iff : indexOf part text = none ↔ ¬part <:+: text := by
  rw [indexOf, List.find?_eq_none, ← exists_isPrefix_drop_iff]
  simp

theorem lastIndexOf_eq_none_iff :
    lastIndexOf part text = none ↔ ¬part <:+: text := by
  rw [lastIndexOf, List.find?_eq_none, ← exists_isPrefix_drop_iff]
  simp

end Occurrences

/-! ## Overwriting a part -/

section Overwriting

variable {α : Type u}

/-- `dest` with the elements of `src` from a position on. -/
def overwrite (dest : List α) (position : Nat) (src : List α) : List α :=
  dest.take position ++ src ++ dest.drop (position + src.length)

/-- The elements of a part of a list. -/
def slice (list : List α) (position length : Nat) : List α :=
  (list.drop position).take length

variable {dest src : List α} {position : Nat}

theorem length_overwrite (fits : position + src.length ≤ dest.length) :
    (overwrite dest position src).length = dest.length := by
  simp only [overwrite, List.length_append, List.length_take,
    List.length_drop]
  omega

theorem drop_overwrite_self (fits : position + src.length ≤ dest.length) :
    (overwrite dest position src).drop position =
      src ++ dest.drop (position + src.length) := by
  have length : (dest.take position).length = position := by
    rw [List.length_take]
    omega
  rw [overwrite, List.append_assoc, List.drop_append_of_le_length (by omega),
    List.drop_eq_nil_iff.mpr length.le, List.nil_append]

/-- What was written can be read back. -/
theorem slice_overwrite_self (fits : position + src.length ≤ dest.length) :
    slice (overwrite dest position src) position src.length = src := by
  rw [slice, drop_overwrite_self fits, List.take_left]

theorem drop_overwrite_of_le (fits : position + src.length ≤ dest.length)
    {count : Nat} (behind : position + src.length ≤ count) :
    (overwrite dest position src).drop count = dest.drop count := by
  obtain ⟨more, rfl⟩ := Nat.exists_eq_add_of_le behind
  rw [Nat.add_assoc, ← List.drop_drop, drop_overwrite_self fits,
    ← List.drop_drop, List.drop_left, List.drop_drop, Nat.add_assoc]

theorem getElem?_overwrite_of_outside
    (fits : position + src.length ≤ dest.length) {index : Nat}
    (outside : index < position ∨ position + src.length ≤ index) :
    (overwrite dest position src)[index]? = dest[index]? := by
  rcases outside with before | behind
  · have inFront : index < (dest.take position).length := by
      rw [List.length_take]
      omega
    rw [overwrite, List.append_assoc, List.getElem?_append_left inFront,
      List.getElem?_take_of_lt before]
  · have rest := drop_overwrite_of_le fits behind
    have atHead := congrArg (fun list => list[0]?) rest
    simpa using atHead

/-- A slice that lies apart from the written part is kept. -/
theorem slice_overwrite_of_le (fits : position + src.length ≤ dest.length)
    {start length : Nat} (behind : position + src.length ≤ start) :
    slice (overwrite dest position src) start length =
      slice dest start length := by
  rw [slice, slice, drop_overwrite_of_le fits behind]

end Overwriting

/-! ## Inserted noise

`Inserted noise clean noisy` says that `noisy` is `clean` with any number of
noise elements inserted at any positions.  A reader of the noisy list sees it
one clean element at a time: noise up to the next clean element, and noise
alone at the end.
-/

section Insertion

variable {α : Type u} {β : Type v}

/-- The second list is the first one with noise inserted. -/
inductive Inserted (noise : α → Prop) : List α → List α → Prop where
  | nil : Inserted noise [] []
  | keep {clean noisy : List α} (head : α) :
      Inserted noise clean noisy →
        Inserted noise (head :: clean) (head :: noisy)
  | insert {clean noisy : List α} {extra : α} :
      noise extra → Inserted noise clean noisy →
        Inserted noise clean (extra :: noisy)

namespace Inserted

variable {noise : α → Prop}

theorem refl (clean : List α) : Inserted noise clean clean := by
  induction clean with
  | nil => exact .nil
  | cons head rest inductionHypothesis => exact .keep head inductionHypothesis

theorem noise_of_nil {noisy : List α} (inserted : Inserted noise [] noisy) :
    ∀ extra ∈ noisy, noise extra := by
  generalize isEmpty : ([] : List α) = clean at inserted
  induction inserted with
  | nil => simp
  | keep => simp at isEmpty
  | insert isNoise _ inductionHypothesis =>
      intro extra member
      rcases List.mem_cons.mp member with rfl | inRest
      · exact isNoise
      · exact inductionHypothesis isEmpty extra inRest

/-- The next clean element, behind the noise in front of it. -/
theorem split_cons {head : α} {clean noisy : List α}
    (inserted : Inserted noise (head :: clean) noisy) :
    ∃ skipped rest,
      noisy = skipped ++ head :: rest ∧
        (∀ extra ∈ skipped, noise extra) ∧ Inserted noise clean rest := by
  generalize isCons : head :: clean = whole at inserted
  induction inserted with
  | nil => simp at isCons
  | @keep _ noisy _ inRest =>
      obtain ⟨rfl, rfl⟩ := List.cons.inj isCons
      exact ⟨[], noisy, rfl, by simp, inRest⟩
  | @insert _ _ extra isNoise _ inductionHypothesis =>
      obtain ⟨skipped, rest, rfl, allNoise, inRest⟩ :=
        inductionHypothesis isCons
      refine ⟨extra :: skipped, rest, rfl, ?_, inRest⟩
      intro other member
      rcases List.mem_cons.mp member with rfl | inSkipped
      · exact isNoise
      · exact allNoise other inSkipped

end Inserted

end Insertion

end DripStone.Library
