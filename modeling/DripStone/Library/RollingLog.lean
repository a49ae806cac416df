import Mathlib

/-!
# Rolling logs

Records go to the current one of two files.  Once in a period of writes the
size of the current file is looked at, and if the next record would make it
too large, the other file is emptied and becomes the current one.
-/

namespace DripStone.Library

/-- The records of both files, and the writes since the size of the current
one was looked at. -/
structure RollingLog (Record : Type) where
  other : List Record
  current : List Record
  writes : Nat

namespace RollingLog

variable {Record : Type}

def empty : RollingLog Record :=
  ⟨[], [], 0⟩

def restart (log : RollingLog Record) : RollingLog Record :=
  { log with writes := 0 }

section Sizes

variable (weight : Record → Nat) (overhead limit period : Nat)

def total (records : List Record) : Nat :=
  (records.map fun record => weight record + overhead).sum

def write (record : Record) (log : RollingLog Record) : RollingLog Record :=
  if log.writes % period = 0 then
    if limit < total weight overhead log.current + weight record then
      ⟨log.current, [record], 1⟩
    else ⟨log.other, log.current ++ [record], 1⟩
  else ⟨log.other, log.current ++ [record], log.writes + 1⟩

/-- The size that no file exceeds if no record is larger than `largest`. -/
def most (largest : Nat) : Nat :=
  max limit largest + overhead + (period - 1) * (largest + overhead)

end Sizes

/-- A record is added to the current file, or to the other one in place of all
its records. -/
def Moves (record : Record) (before after : RollingLog Record) : Prop :=
  after.other = before.other ∧ after.current = before.current ++ [record] ∨
    after.other = before.current ∧ after.current = [record]

section Laws

variable {weight : Record → Nat} {overhead limit period : Nat}
variable {log after : RollingLog Record} {record : Record}

theorem total_concat (records : List Record) (record : Record) :
    total weight overhead (records ++ [record]) =
      total weight overhead records + (weight record + overhead) := by
  rw [total, List.map_append, List.sum_append, total]
  simp

theorem write_moves (record : Record) (log : RollingLog Record) :
    Moves record log (log.write weight overhead limit period record) := by
  rw [write]
  split
  · split
    · exact Or.inr ⟨rfl, rfl⟩
    · exact Or.inl ⟨rfl, rfl⟩
  · exact Or.inl ⟨rfl, rfl⟩

/-- The files hold the last records. -/
theorem Moves.isSuffix {written : List Record} (moves : Moves record log after)
    (suffix : log.other ++ log.current <:+ written) :
    after.other ++ after.current <:+ written ++ [record] := by
  obtain ⟨dropped, rfl⟩ := suffix
  rcases moves with ⟨sameOther, isCurrent⟩ | ⟨isOther, isCurrent⟩
  · rw [sameOther, isCurrent]
    exact ⟨dropped, by simp⟩
  · rw [isOther, isCurrent]
    exact ⟨dropped ++ log.other, by simp⟩

/-! ## The sizes -/

structure Bounded (weight : Record → Nat)
    (overhead limit period largest : Nat) (log : RollingLog Record) :
    Prop where
  other : total weight overhead log.other ≤ most overhead limit period largest
  current : total weight overhead log.current ≤
    most overhead limit period largest
  counted : 0 < log.writes → total weight overhead log.current ≤
    max limit largest + overhead + (log.writes - 1) * (largest + overhead)
  writes_le : log.writes ≤ period

variable {largest : Nat}

theorem bounded_empty :
    (empty : RollingLog Record).Bounded weight overhead limit period
      largest := by
  refine ⟨Nat.zero_le _, Nat.zero_le _, fun some => ?_, Nat.zero_le _⟩
  exact absurd some (Nat.lt_irrefl 0)

theorem Bounded.restart
    (bounded : log.Bounded weight overhead limit period largest) :
    log.restart.Bounded weight overhead limit period largest := by
  refine ⟨bounded.other, bounded.current, fun some => ?_, Nat.zero_le _⟩
  exact absurd some (Nat.lt_irrefl 0)

/-- Step lemma: the size is looked at once in each period. -/
theorem Bounded.write
    (bounded : log.Bounded weight overhead limit period largest)
    (positive : 0 < period) (small : weight record ≤ largest) :
    (log.write weight overhead limit period record).Bounded weight overhead
      limit period largest := by
  have atMost : max limit largest + overhead ≤
      most overhead limit period largest :=
    Nat.le_add_right _ _
  rw [RollingLog.write]
  split
  · split
    · have single : total weight overhead [record] ≤
          max limit largest + overhead := by
        have isSingle : total weight overhead [record] =
            weight record + overhead := by
          simp [total]
        omega
      exact ⟨bounded.current, single.trans atMost,
        fun _ => by simpa using single, positive⟩
    · have added : total weight overhead (log.current ++ [record]) ≤
          max limit largest + overhead := by
        rw [total_concat]
        omega
      exact ⟨bounded.other, added.trans atMost, fun _ => by simpa using added,
        positive⟩
  · next isInside =>
      have some : 0 < log.writes := by
        rcases Nat.eq_zero_or_pos log.writes with isZero | some
        · rw [isZero, Nat.zero_mod] at isInside
          exact absurd rfl isInside
        · exact some
      have inside : log.writes < period := by
        have notPeriod : log.writes ≠ period := by
          intro same
          rw [same, Nat.mod_self] at isInside
          exact isInside rfl
        have atMostPeriod := bounded.writes_le
        omega
      have next : (log.writes - 1) * (largest + overhead) +
          (largest + overhead) = log.writes * (largest + overhead) := by
        rw [← Nat.add_one_mul, Nat.sub_add_cancel some]
      have counted := bounded.counted some
      have added : total weight overhead (log.current ++ [record]) ≤
          max limit largest + overhead +
            log.writes * (largest + overhead) := by
        rw [total_concat]
        omega
      have whole : log.writes * (largest + overhead) ≤
          (period - 1) * (largest + overhead) :=
        Nat.mul_le_mul_right _ (by omega)
      refine ⟨bounded.other, ?_, fun _ => added, inside⟩
      rw [most]
      exact added.trans (by omega)

end Laws

end RollingLog

end DripStone.Library
