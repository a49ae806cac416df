import DripStone.Library.IntLoop

/-!
# Sliding windows

The sum of a window with coefficients, how it changes when the window slides,
and a ring of values that holds the window.
-/

namespace DripStone.Library

/-! ## Sums -/

section Sums

variable {M : Type} [AddCommGroup M]

/-- The sum of the values at `x + d` for `first ≤ d < last`. -/
noncomputable def windowSum (coefficient : ℤ → ℤ) (values : ℤ → M)
    (first last x : ℤ) : M :=
  ∑ d ∈ Finset.Ico first last, coefficient d • values (x + d)

variable {coefficient other : ℤ → ℤ} {values : ℤ → M}
variable {first last x : ℤ}

theorem windowSum_self (x : ℤ) :
    windowSum coefficient values first first x = 0 := by
  rw [windowSum, Finset.Ico_self, Finset.sum_empty]

theorem windowSum_concat (ordered : first ≤ last) :
    windowSum coefficient values first (last + 1) x =
      windowSum coefficient values first last x +
        coefficient last • values (x + last) := by
  have split : Finset.Ico first (last + 1) =
      insert last (Finset.Ico first last) := by
    ext d
    simp only [Finset.mem_Ico, Finset.mem_insert]
    omega
  rw [windowSum, split, Finset.sum_insert (by simp), add_comm, windowSum]

theorem windowSum_add :
    windowSum (fun d => coefficient d + other d) values first last x =
      windowSum coefficient values first last x +
        windowSum other values first last x := by
  simp only [windowSum, add_smul, Finset.sum_add_distrib]

theorem windowSum_sub :
    windowSum (fun d => coefficient d - other d) values first last x =
      windowSum coefficient values first last x -
        windowSum other values first last x := by
  simp only [windowSum, sub_smul, Finset.sum_sub_distrib]

theorem windowSum_congr
    (same : ∀ d, first ≤ d → d < last → coefficient d = other d) :
    windowSum coefficient values first last x =
      windowSum other values first last x := by
  apply Finset.sum_congr rfl
  intro d inside
  rw [Finset.mem_Ico] at inside
  rw [same d inside.1 inside.2]

/-- The window can be widened by values with coefficient zero. -/
theorem windowSum_widen {low high : ℤ} (below : low ≤ first)
    (above : last ≤ high) :
    windowSum coefficient values first last x =
      windowSum (fun d => if first ≤ d ∧ d < last then coefficient d else 0)
        values low high x := by
  have inside : Finset.Ico first last ⊆ Finset.Ico low high :=
    Finset.Ico_subset_Ico below above
  rw [windowSum, windowSum]
  refine Finset.sum_subset_zero_on_sdiff inside ?_ ?_
  · intro d outside
    rw [Finset.mem_sdiff, Finset.mem_Ico, Finset.mem_Ico] at outside
    rw [if_neg outside.2, zero_smul]
  · intro d inRange
    rw [Finset.mem_Ico] at inRange
    rw [if_pos inRange]

theorem windowSum_shift :
    windowSum coefficient values first last (x + 1) =
      windowSum (fun d => coefficient (d - 1)) values (first + 1) (last + 1)
        x := by
  refine Finset.sum_equiv (Equiv.addRight 1) ?_ ?_
  · intro d
    simp only [Finset.mem_Ico, Equiv.coe_addRight]
    omega
  · intro d _
    simp only [Equiv.coe_addRight, add_sub_cancel_right]
    congr 2
    ring

theorem windowSum_single {place : ℤ} (low : first ≤ place)
    (high : place < last) :
    windowSum (fun d => if d = place then 1 else 0) values first last x =
      values (x + place) := by
  rw [windowSum, Finset.sum_eq_single place]
  · simp
  · intro d _ isOther
    rw [if_neg isOther, zero_smul]
  · intro outside
    exact absurd (Finset.mem_Ico.mpr ⟨low, high⟩) outside

end Sums

/-! ## The triangular window -/

section Triangular

variable {M : Type} [AddCommGroup M] (values : ℤ → M) (radius x : ℤ)

/-- The weights fall from the middle to both ends. -/
noncomputable def weighted : M :=
  windowSum (fun d => radius + 1 - |d|) values (-radius) (radius + 1) x

/-- The half of the window up to its middle. -/
noncomputable def behind : M :=
  windowSum (fun d => if d ≤ 0 then 1 else 0) values (-radius) (radius + 1) x

/-- The half of the window behind its middle. -/
noncomputable def ahead : M :=
  windowSum (fun d => if 0 < d then 1 else 0) values (-radius) (radius + 1) x

variable {values radius x}

/-- The coefficients, with zero outside of the window. -/
def within (radius : ℤ) (coefficient : ℤ → ℤ) (d : ℤ) : ℤ :=
  if -radius ≤ d ∧ d < radius + 1 then coefficient d else 0

theorem windowSum_within (coefficient : ℤ → ℤ) :
    windowSum coefficient values (-radius) (radius + 1) x =
      windowSum (within radius coefficient) values (-radius) (radius + 2) x :=
  windowSum_widen le_rfl (by omega)

theorem windowSum_within_succ (coefficient : ℤ → ℤ) :
    windowSum coefficient values (-radius) (radius + 1) (x + 1) =
      windowSum (fun d => within radius coefficient (d - 1)) values
        (-radius) (radius + 2) x := by
  rw [windowSum_shift, @windowSum_widen _ _ _ _ (-radius + 1) _ _ (-radius)
    (radius + 2) (by omega) (by omega)]
  apply windowSum_congr
  intro d low high
  rw [within]
  split_ifs <;> first | rfl | omega

/-- The middle moves on to the first value of the second half. -/
theorem behind_succ (nonneg : 0 ≤ radius) :
    behind values radius (x + 1) =
      behind values radius x - values (x - radius) + values (x + 1) := by
  have leaves := @windowSum_single _ _ values (-radius) (radius + 2) x
    (-radius) le_rfl (by omega)
  have enters := @windowSum_single _ _ values (-radius) (radius + 2) x 1
    (by omega) (by omega)
  rw [← sub_eq_add_neg] at leaves
  rw [behind, windowSum_within_succ, behind, windowSum_within,
    ← leaves, ← enters, ← windowSum_sub, ← windowSum_add]
  apply windowSum_congr
  intro d low high
  simp only [within]
  split_ifs <;> omega

theorem ahead_succ (nonneg : 0 ≤ radius) :
    ahead values radius (x + 1) =
      ahead values radius x + values (x + radius + 1) - values (x + 1) := by
  have enters := @windowSum_single _ _ values (-radius) (radius + 2) x
    (radius + 1) (by omega) (by omega)
  have leaves := @windowSum_single _ _ values (-radius) (radius + 2) x 1
    (by omega) (by omega)
  rw [← add_assoc] at enters
  rw [ahead, windowSum_within_succ, ahead, windowSum_within, ← enters,
    ← leaves, ← windowSum_add, ← windowSum_sub]
  apply windowSum_congr
  intro d low high
  simp only [within]
  split_ifs <;> omega

/-- Each weight behind the middle falls by one, each other one rises. -/
theorem weighted_succ (nonneg : 0 ≤ radius) :
    weighted values radius (x + 1) =
      weighted values radius x - behind values radius x +
        (ahead values radius x + values (x + radius + 1)) := by
  have enters := @windowSum_single _ _ values (-radius) (radius + 2) x
    (radius + 1) (by omega) (by omega)
  rw [← add_assoc] at enters
  rw [weighted, windowSum_within_succ, weighted, behind, ahead,
    windowSum_within, windowSum_within, windowSum_within, ← enters,
    ← windowSum_sub, ← windowSum_add, ← windowSum_add]
  apply windowSum_congr
  intro d low high
  simp only [within]
  rcases abs_cases d with ⟨atD, _⟩ | ⟨atD, _⟩ <;>
    rcases abs_cases (d - 1) with ⟨inFront, _⟩ | ⟨inFront, _⟩ <;>
    rw [atD, inFront] <;> split_ifs <;> omega

/-- The weights of the window add up to a square. -/
theorem sum_weights (radius : ℕ) :
    ∑ d ∈ Finset.Ico (-radius : ℤ) (radius + 1), ((radius : ℤ) + 1 - |d|) =
      (radius + 1) ^ 2 := by
  induction radius with
  | zero => decide
  | succ radius inductionHypothesis =>
      have inside : Finset.Ico (-radius : ℤ) (radius + 1) ⊆
          Finset.Ico (-(radius + 1 : ℤ)) (radius + 1 + 1) :=
        Finset.Ico_subset_Ico (by omega) (by omega)
      have widened := Finset.sum_subset inside (f := fun d =>
        (radius : ℤ) + 1 - |d|) (by
          intro d inWide outside
          rw [Finset.mem_Ico] at inWide outside
          rcases abs_cases d with ⟨atD, _⟩ | ⟨atD, _⟩ <;> omega)
      have split : ∀ d : ℤ, ((radius + 1 : ℕ) : ℤ) + 1 - |d| =
          ((radius : ℤ) + 1 - |d|) + 1 := by
        intro d
        push_cast
        ring
      simp only [split]
      push_cast
      rw [Finset.sum_add_distrib, ← widened, inductionHypothesis,
        Finset.sum_const, Int.card_Ico, nsmul_eq_mul, mul_one]
      have count : ((radius : ℤ) + 1 + 1 - -(radius + 1)).toNat =
          2 * radius + 3 := by omega
      rw [count]
      push_cast
      ring

/-- The weighted sum of values in a range. -/
theorem weighted_bounds {values : ℤ → ℤ} {radius x high : ℤ}
    (nonneg : 0 ≤ radius) (nonnegative : ∀ i, 0 ≤ values i)
    (bounded : ∀ i, values i ≤ high) :
    0 ≤ weighted values radius x ∧
      weighted values radius x ≤ high * (radius + 1) ^ 2 := by
  obtain ⟨size, rfl⟩ := Int.eq_ofNat_of_zero_le nonneg
  have weight : ∀ d ∈ Finset.Ico (-size : ℤ) (size + 1),
      0 ≤ (size : ℤ) + 1 - |d| := by
    intro d inside
    rw [Finset.mem_Ico] at inside
    rcases abs_cases d with ⟨atD, _⟩ | ⟨atD, _⟩ <;> omega
  constructor
  · exact Finset.sum_nonneg fun d inside =>
      mul_nonneg (weight d inside) (nonnegative _)
  · calc weighted values size x
        ≤ ∑ d ∈ Finset.Ico (-size : ℤ) (size + 1),
            ((size : ℤ) + 1 - |d|) * high :=
          Finset.sum_le_sum fun d inside =>
            mul_le_mul_of_nonneg_left (bounded _) (weight d inside)
      _ = high * (size + 1) ^ 2 := by
          rw [← Finset.sum_mul, sum_weights, mul_comm]

end Triangular

/-! ## A ring of values -/

section Ring

variable {α : Type} {values : ℤ → α} {ring : List α} {first : ℤ}

/-- The value of each index of the window is at this index modulo the size of
the ring. -/
def RingHolds (values : ℤ → α) (first : ℤ) (ring : List α) : Prop :=
  ∀ index, first ≤ index → index < first + ring.length →
    arrayRead ring (index % ring.length) = .ok (values index)

/-- The first value of the window makes room for the next one. -/
theorem RingHolds.slide (holds : RingHolds values first ring)
    (some : 0 < ring.length) :
    RingHolds values (first + 1)
      (ring.set (first % ring.length).toNat
        (values (first + ring.length))) := by
  have nonneg : 0 ≤ first % (ring.length : ℤ) := Int.emod_nonneg _ (by omega)
  have inside : first % (ring.length : ℤ) < ring.length :=
    Int.emod_lt_of_pos _ (by omega)
  intro index low high
  rw [List.length_set] at high ⊢
  by_cases last : index = first + ring.length
  · rw [last, Int.add_emod_right]
    exact arrayRead_set_self nonneg inside
  · have elsewhere : index % (ring.length : ℤ) ≠ first % ring.length := by
      intro same
      have divides := Int.emod_eq_emod_iff_emod_sub_eq_zero.mp same
      rw [Int.emod_eq_of_lt (by omega) (by omega)] at divides
      omega
    rw [arrayRead_set_of_ne nonneg elsewhere]
    exact holds index (by omega) (by omega)

end Ring

end DripStone.Library
