import Mathlib

/-!
# `int` arithmetic, arrays and counting loops

The value of an `int` expression is an integer that wraps around at `2 ^ 31`.
An access outside of an array fails, and a counting loop fails where its body
does.
-/

namespace DripStone.Library

/-! ## Arithmetic -/

/-- The value of an `int` expression, from its exact value. -/
def wrapInt (value : Int) : Int :=
  value.bmod 4294967296

theorem wrapInt_of_range {value : Int} (low : -2147483648 ≤ value)
    (high : value < 2147483648) : wrapInt value = value := by
  rw [wrapInt, Int.bmod]
  split <;> omega

theorem wrapInt_of_overflow {value : Int} (low : 2147483648 ≤ value)
    (high : value < 4294967296) : wrapInt value = value - 4294967296 := by
  rw [wrapInt, Int.bmod]
  split <;> omega

theorem wrapInt_add_wrapInt (first second : Int) :
    wrapInt (wrapInt first + wrapInt second) = wrapInt (first + second) := by
  simp only [wrapInt, Int.add_bmod_bmod, Int.bmod_add_bmod]

theorem wrapInt_add (first second : Int) :
    wrapInt (wrapInt first + second) = wrapInt (first + second) := by
  simp only [wrapInt, Int.bmod_add_bmod]

theorem wrapInt_sub_wrapInt (first second : Int) :
    wrapInt (wrapInt first - wrapInt second) = wrapInt (first - second) := by
  simp only [wrapInt, Int.sub_bmod_bmod, Int.bmod_sub_bmod]

theorem wrapInt_sub (first second : Int) :
    wrapInt (wrapInt first - second) = wrapInt (first - second) := by
  simp only [wrapInt, Int.bmod_sub_bmod]

/-! ## Arrays -/

inductive ArrayError where
  | indexOutOfBounds
  | negativeSize
deriving DecidableEq, Repr

section Arrays

variable {α : Type}

/-- `array[index]` -/
def arrayRead (array : List α) (index : Int) : Except ArrayError α :=
  if 0 ≤ index then
    match array[index.toNat]? with
    | some value => .ok value
    | none => .error .indexOutOfBounds
  else .error .indexOutOfBounds

/-- `array[index] = value` -/
def arrayWrite (array : List α) (index : Int) (value : α) :
    Except ArrayError (List α) :=
  if 0 ≤ index ∧ index < array.length then
    .ok (array.set index.toNat value)
  else .error .indexOutOfBounds

def newArray (size : Int) (value : α) : Except ArrayError (List α) :=
  if 0 ≤ size then .ok (List.replicate size.toNat value)
  else .error .negativeSize

variable {array : List α} {index other : Int} {value : α}

theorem arrayRead_of_getElem? (nonneg : 0 ≤ index)
    (found : array[index.toNat]? = some value) :
    arrayRead array index = .ok value := by
  rw [arrayRead, if_pos nonneg, found]

theorem getElem?_of_arrayRead (isRead : arrayRead array index = .ok value) :
    array[index.toNat]? = some value := by
  rw [arrayRead] at isRead
  split at isRead
  · split at isRead
    · cases isRead
      assumption
    · cases isRead
  · cases isRead

theorem arrayRead_of_neg (negative : index < 0) :
    arrayRead array index = .error .indexOutOfBounds :=
  if_neg (by omega)

theorem arrayWrite_eq (nonneg : 0 ≤ index) (inside : index < array.length)
    (value : α) : arrayWrite array index value =
      .ok (array.set index.toNat value) :=
  if_pos ⟨nonneg, inside⟩

theorem arrayRead_set_self (nonneg : 0 ≤ index)
    (inside : index < array.length) :
    arrayRead (array.set index.toNat value) index = .ok value :=
  arrayRead_of_getElem? nonneg (List.getElem?_set_self (by omega))

theorem arrayRead_set_of_ne (nonneg : 0 ≤ index) (isOther : other ≠ index) :
    arrayRead (array.set index.toNat value) other = arrayRead array other := by
  by_cases nonnegOther : 0 ≤ other
  · have elsewhere : index.toNat ≠ other.toNat := by omega
    rw [arrayRead, arrayRead, List.getElem?_set_ne elsewhere]
  · rw [arrayRead_of_neg (by omega), arrayRead_of_neg (by omega)]

/-- The entries in front of an index are known. -/
def WrittenTo (values : Int → α) (last : Int) (array : List α) : Prop :=
  ∀ index, 0 ≤ index → index < last →
    arrayRead array index = .ok (values index)

theorem writtenTo_zero (values : Int → α) (array : List α) :
    WrittenTo values 0 array := by
  intro index low high
  omega

theorem WrittenTo.write {values : Int → α} {last : Int}
    (written : WrittenTo values last array) (nonneg : 0 ≤ last)
    (inside : last < array.length) :
    WrittenTo values (last + 1) (array.set last.toNat (values last)) := by
  intro index low high
  by_cases isLast : index = last
  · rw [isLast]
    exact arrayRead_set_self nonneg inside
  · rw [arrayRead_set_of_ne nonneg isLast]
    exact written index low (by omega)

theorem newArray_eq {size : Int} (nonneg : 0 ≤ size) (value : α) :
    newArray size value = .ok (List.replicate size.toNat value) :=
  if_pos nonneg

end Arrays

/-! ## Loops -/

section Loops

variable {ε σ : Type}

def forFrom (body : Int → σ → Except ε σ) :
    Nat → Int → σ → Except ε σ
  | 0, _, state => .ok state
  | count + 1, index, state => do
      let next ← body index state
      forFrom body count (index + 1) next

/-- `for (i = first; i < last; i++)` -/
def forRange (first last : Int) (body : Int → σ → Except ε σ)
    (state : σ) : Except ε σ :=
  forFrom body (last - first).toNat first state

variable {first last : Int} {body : Int → σ → Except ε σ} {state : σ}

theorem forRange_of_le (done : last ≤ first) :
    forRange first last body state = .ok state := by
  have none : (last - first).toNat = 0 := by omega
  rw [forRange, none]
  rfl

theorem forRange_of_lt (goesOn : first < last) :
    forRange first last body state =
      (body first state).bind (forRange (first + 1) last body) := by
  have some : (last - first).toNat = (last - (first + 1)).toNat + 1 := by
    omega
  rw [forRange, some]
  rfl

/-- A body that always succeeds and keeps an invariant. -/
theorem forRange_ok {holds : Int → σ → Prop} (ordered : first ≤ last)
    (atFirst : holds first state)
    (kept : ∀ index state, first ≤ index → index < last →
      holds index state →
        ∃ next, body index state = .ok next ∧ holds (index + 1) next) :
    ∃ final, forRange first last body state = .ok final ∧
      holds last final := by
  obtain ⟨count, isCount⟩ := Int.eq_ofNat_of_zero_le
    (show 0 ≤ last - first by omega)
  induction count generalizing first state with
  | zero =>
      have same : first = last := by omega
      rw [forRange_of_le same.ge]
      exact ⟨state, rfl, same ▸ atFirst⟩
  | succ count inductionHypothesis =>
      obtain ⟨next, runs, atNext⟩ :=
        kept first state le_rfl (by omega) atFirst
      rw [forRange_of_lt (by omega), runs]
      exact inductionHypothesis (by omega) atNext
        (fun index state low => kept index state (by omega)) (by omega)

/-- A body that succeeds up to an index and fails there. -/
theorem forRange_error {holds : Int → σ → Prop} {bad : Int}
    (low : first ≤ bad) (high : bad < last) (atFirst : holds first state)
    (kept : ∀ index state, first ≤ index → index < bad →
      holds index state →
        ∃ next, body index state = .ok next ∧ holds (index + 1) next)
    (fails : ∀ state, holds bad state →
      ∃ failure, body bad state = .error failure) :
    ∃ failure, forRange first last body state = .error failure := by
  obtain ⟨count, isCount⟩ := Int.eq_ofNat_of_zero_le
    (show 0 ≤ bad - first by omega)
  induction count generalizing first state with
  | zero =>
      have same : first = bad := by omega
      obtain ⟨failure, failed⟩ := fails state (same ▸ atFirst)
      rw [forRange_of_lt (by omega), same, failed]
      exact ⟨failure, rfl⟩
  | succ count inductionHypothesis =>
      obtain ⟨next, runs, atNext⟩ :=
        kept first state le_rfl (by omega) atFirst
      rw [forRange_of_lt (by omega), runs]
      exact inductionHypothesis (by omega) atNext
        (fun index state low => kept index state (by omega)) (by omega)

end Loops

end DripStone.Library
