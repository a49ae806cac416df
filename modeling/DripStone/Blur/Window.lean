import DripStone.Blur.Pixels
import DripStone.Library.TriangularWindow

/-!
# The window of the stack blur

The ring and the sums always belong to one window of the line; a step of the
loop moves them on by one pixel.
-/

namespace DripStone.Blur

open DripStone.Library

/-- A radius whose table of quotients can be indexed by an `int`. -/
structure Moderate (radius : Int) : Prop where
  positive : 1 ≤ radius
  table : 256 * (radius + 1) ^ 2 < 2147483648

namespace Moderate

variable {radius : Int}

theorem small (moderate : Moderate radius) : radius ≤ 2895 := by
  have positive := moderate.positive
  have table := moderate.table
  by_contra large
  have bound : 2897 * 2897 ≤ (radius + 1) * (radius + 1) :=
    Int.mul_le_mul (by omega) (by omega) (by omega) (by omega)
  rw [pow_two] at table
  omega

theorem div_eq (moderate : Moderate radius) :
    div radius = 2 * radius + 1 := by
  have positive := moderate.positive
  have small := moderate.small
  rw [div, wrapInt_of_range (by omega) (by omega)]
  omega

theorem divsum_eq (moderate : Moderate radius) :
    divsum radius = (radius + 1) ^ 2 := by
  have positive := moderate.positive
  have small := moderate.small
  have table := moderate.table
  have half : wrapInt (div radius + 1) / 2 = radius + 1 := by
    rw [moderate.div_eq, wrapInt_of_range (by omega) (by omega)]
    omega
  have square : 0 ≤ (radius + 1) ^ 2 := sq_nonneg _
  rw [divsum]
  simp only [half]
  rw [← pow_two, wrapInt_of_range (by omega) (by omega)]

end Moderate

/-! ## Values of the channels -/

def wrapRgb (rgb : Rgb) : Rgb :=
  fun channel => wrapInt (rgb channel)

namespace Rgb

theorem add_wrapRgb (first second : Rgb) :
    add (wrapRgb first) (wrapRgb second) = wrapRgb (first + second) :=
  funext fun channel => wrapInt_add_wrapInt (first channel) (second channel)

theorem add_eq (first second : Rgb) :
    add (wrapRgb first) second = wrapRgb (first + second) :=
  funext fun channel => wrapInt_add (first channel) (second channel)

theorem sub_wrapRgb (first second : Rgb) :
    sub (wrapRgb first) (wrapRgb second) = wrapRgb (first - second) :=
  funext fun channel => wrapInt_sub_wrapInt (first channel) (second channel)

theorem sub_eq (first second : Rgb) :
    sub (wrapRgb first) second = wrapRgb (first - second) :=
  funext fun channel => wrapInt_sub (first channel) (second channel)

theorem mul_eq (rgb : Rgb) (factor : Int) :
    mul rgb factor = wrapRgb (factor • rgb) := by
  funext channel
  rw [mul, wrapRgb, Pi.smul_apply, smul_eq_mul, mul_comm]

end Rgb

namespace Window

variable {values : ℤ → Rgb} {radius i x : ℤ} {window : Window}

/-! ## Filling the window of the first pixel -/

structure FilledTo (values : ℤ → Rgb) (radius i : ℤ) (window : Window) :
    Prop where
  length : (window.stack.length : ℤ) = 2 * radius + 1
  filled : ∀ d, -radius ≤ d → d < i →
    arrayRead window.stack (d + radius) = .ok (values d)
  sum : window.sum = wrapRgb
    (windowSum (fun d => radius + 1 - |d|) values (-radius) i 0)
  insum : window.insum = wrapRgb
    (windowSum (fun d => if 0 < d then 1 else 0) values (-radius) i 0)
  outsum : window.outsum = wrapRgb
    (windowSum (fun d => if d ≤ 0 then 1 else 0) values (-radius) i 0)

theorem filledTo_reset (values : ℤ → Rgb)
    (length : (window.stack.length : ℤ) = 2 * radius + 1) :
    FilledTo values radius (-radius) window.reset := by
  refine ⟨length, fun d low high => by omega, ?_, ?_, ?_⟩
  all_goals
    rw [windowSum_self]
    rfl

theorem FilledTo.fill (moderate : Moderate radius)
    (filledTo : FilledTo values radius i window) (low : -radius ≤ i)
    (high : i < radius + 1) :
    ∃ next, window.fill radius i (values i) = .ok next ∧
      FilledTo values radius (i + 1) next := by
  have positive := moderate.positive
  have small := moderate.small
  have length := filledTo.length
  have place : wrapInt (i + radius) = i + radius :=
    wrapInt_of_range (by omega) (by omega)
  have weight : wrapInt (wrapInt (radius + 1) - |i|) = radius + 1 - |i| := by
    rcases abs_cases i with ⟨atI, _⟩ | ⟨atI, _⟩ <;>
      rw [@wrapInt_of_range (radius + 1) (by omega) (by omega),
        wrapInt_of_range (by omega) (by omega)]
  have nonneg : 0 ≤ i + radius := by omega
  have inside : i + radius < window.stack.length := by omega
  have writes := arrayWrite_eq nonneg inside (values i)
  have filled : ∀ d, -radius ≤ d → d < i + 1 →
      arrayRead (window.stack.set (i + radius).toNat (values i))
        (d + radius) = .ok (values d) := by
    intro d first last
    by_cases isI : d = i
    · rw [isI]
      exact arrayRead_set_self nonneg inside
    · rw [arrayRead_set_of_ne nonneg (by omega)]
      exact filledTo.filled d first (by omega)
  have sum : window.sum.add ((values i).mul (radius + 1 - |i|)) = wrapRgb
      (windowSum (fun d => radius + 1 - |d|) values (-radius) (i + 1) 0) := by
    rw [filledTo.sum, Rgb.mul_eq, Rgb.add_wrapRgb, windowSum_concat low,
      zero_add]
  have unchanged : ∀ coefficient : ℤ → ℤ, coefficient i = 0 →
      windowSum coefficient values (-radius) (i + 1) 0 =
        windowSum coefficient values (-radius) i 0 := by
    intro coefficient isZero
    rw [windowSum_concat low, isZero, zero_smul, add_zero]
  have added : ∀ coefficient : ℤ → ℤ, coefficient i = 1 →
      windowSum coefficient values (-radius) (i + 1) 0 =
        windowSum coefficient values (-radius) i 0 + values i := by
    intro coefficient isOne
    rw [windowSum_concat low, isOne, one_smul, zero_add]
  rw [Window.fill, place, writes, weight]
  by_cases isAhead : 0 < i
  · refine ⟨_, if_pos isAhead, by simpa using length, filled, sum, ?_, ?_⟩
    · rw [added (fun d => if 0 < d then 1 else 0) (if_pos isAhead),
        ← Rgb.add_eq, ← filledTo.insum]
    · rw [unchanged (fun d => if d ≤ 0 then 1 else 0) (if_neg (by omega))]
      exact filledTo.outsum
  · refine ⟨_, if_neg isAhead, by simpa using length, filled, sum, ?_, ?_⟩
    · rw [unchanged (fun d => if 0 < d then 1 else 0) (if_neg isAhead)]
      exact filledTo.insum
    · rw [added (fun d => if d ≤ 0 then 1 else 0) (if_pos (by omega)),
        ← Rgb.add_eq, ← filledTo.outsum]

/-! ## The window of a pixel -/

structure At (values : ℤ → Rgb) (radius x : ℤ) (window : Window) :
    Prop where
  length : (window.stack.length : ℤ) = 2 * radius + 1
  ring : RingHolds (fun index => values (index - radius)) x window.stack
  pointer : window.stackpointer = (x + radius) % (2 * radius + 1)
  sum : window.sum = wrapRgb (weighted values radius x)
  insum : window.insum = wrapRgb (ahead values radius x)
  outsum : window.outsum = wrapRgb (behind values radius x)

theorem FilledTo.at_zero (moderate : Moderate radius)
    (filledTo : FilledTo values radius (radius + 1) window) :
    At values radius 0 { window with stackpointer := radius } := by
  have positive := moderate.positive
  have length := filledTo.length
  refine ⟨length, ?_, ?_, filledTo.sum, filledTo.insum, filledTo.outsum⟩
  · intro index low high
    have inside : index % (window.stack.length : ℤ) = index :=
      Int.emod_eq_of_lt low (by simpa using high)
    have found := filledTo.filled (index - radius) (by omega)
      (by simp only at high; omega)
    rw [sub_add_cancel] at found
    simp only [inside]
    exact found
  · simp only [zero_add]
    exact (Int.emod_eq_of_lt (by omega) (by omega)).symm

/-- A step of the loop: one pixel leaves, the next one enters. -/
theorem At.slide (atX : At values radius x window)
    (moderate : Moderate radius) :
    ∃ left next,
      window.leave radius (div radius) = .ok (x % (2 * radius + 1), left) ∧
      left.enter (div radius) (x % (2 * radius + 1))
        (values (x + radius + 1)) = .ok next ∧
      At values radius (x + 1) next := by
  have positive := moderate.positive
  have small := moderate.small
  have length := atX.length
  have size : 0 < 2 * radius + 1 := by omega
  have lowPointer : 0 ≤ (x + radius) % (2 * radius + 1) :=
    Int.emod_nonneg _ (by omega)
  have highPointer : (x + radius) % (2 * radius + 1) < 2 * radius + 1 :=
    Int.emod_lt_of_pos _ size
  have lowPlace : 0 ≤ x % (2 * radius + 1) := Int.emod_nonneg _ (by omega)
  have highPlace : x % (2 * radius + 1) < 2 * radius + 1 :=
    Int.emod_lt_of_pos _ size
  -- the place of the pixel that leaves
  have place : (wrapInt (window.stackpointer - radius + div radius)).tmod
      (div radius) = x % (2 * radius + 1) := by
    rw [atX.pointer, moderate.div_eq,
      wrapInt_of_range (by omega) (by omega),
      Int.tmod_eq_emod_of_nonneg (by omega), Int.add_emod_right,
      Int.sub_emod, Int.emod_emod_of_dvd _ (dvd_refl _), ← Int.sub_emod,
      add_sub_cancel_right]
  have oldest : arrayRead window.stack (x % (2 * radius + 1)) =
      .ok (values (x - radius)) := by
    have found := atX.ring x le_rfl (by omega)
    rwa [length] at found
  -- the place of the pixel that becomes the middle
  have pointer : (wrapInt (window.stackpointer + 1)).tmod (div radius) =
      (x + 1 + radius) % (2 * radius + 1) := by
    rw [atX.pointer, moderate.div_eq,
      wrapInt_of_range (by omega) (by omega),
      Int.tmod_eq_emod_of_nonneg (by omega), Int.emod_add_emod]
    congr 1
    ring
  have slid := atX.ring.slide (by omega)
  rw [length] at slid
  have entering : x + (2 * radius + 1) - radius = x + radius + 1 := by ring
  rw [entering] at slid
  have middle := slid (x + 1 + radius) (by omega)
    (by rw [List.length_set]; omega)
  rw [List.length_set, length] at middle
  simp only [add_sub_cancel_right] at middle
  have writes := @arrayWrite_eq _ window.stack (x % (2 * radius + 1))
    lowPlace (by omega) (values (x + radius + 1))
  have leaves : window.leave radius (div radius) =
      .ok (x % (2 * radius + 1), { window with
        sum := window.sum.sub window.outsum
        outsum := window.outsum.sub (values (x - radius)) }) := by
    simp only [Window.leave, place, oldest]
    rfl
  refine ⟨_, { window with
      stack := window.stack.set (x % (2 * radius + 1)).toNat
        (values (x + radius + 1))
      stackpointer := (x + 1 + radius) % (2 * radius + 1)
      sum := (window.sum.sub window.outsum).add
        (window.insum.add (values (x + radius + 1)))
      insum := (window.insum.add (values (x + radius + 1))).sub
        (values (x + 1))
      outsum := (window.outsum.sub (values (x - radius))).add
        (values (x + 1)) }, leaves, ?_, ?_⟩
  · simp only [Window.enter, writes, bind, Except.bind, pointer, middle]
    rfl
  · refine ⟨by simpa using length, slid, rfl, ?_, ?_, ?_⟩
    · rw [atX.sum, atX.outsum, atX.insum, Rgb.sub_wrapRgb,
        Rgb.add_eq (ahead values radius x), Rgb.add_wrapRgb,
        weighted_succ (by omega)]
    · rw [atX.insum, Rgb.add_eq, Rgb.sub_eq, ahead_succ (by omega)]
    · rw [atX.outsum, Rgb.sub_eq, Rgb.add_eq, behind_succ (by omega)]

end Window

/-! ## The average of a window -/

/-- The average of the window, rounded down. -/
noncomputable def averageAt (values : ℤ → Rgb) (radius x : ℤ) : Rgb :=
  fun channel =>
    weighted (fun i => values i channel) radius x / (radius + 1) ^ 2

theorem weighted_apply (values : ℤ → Rgb) (radius x : ℤ)
    (channel : Channel) :
    weighted values radius x channel =
      weighted (fun i => values i channel) radius x := by
  simp only [weighted, windowSum, Finset.sum_apply, Pi.smul_apply]

section Average

variable {values : ℤ → Rgb} {radius x : ℤ}

theorem isByte_averageAt (moderate : Moderate radius)
    (bytes : ∀ i channel, IsByte (values i channel)) (channel : Channel) :
    IsByte (averageAt values radius x channel) := by
  have positive := moderate.positive
  have square : 0 < (radius + 1) ^ 2 := pow_pos (by omega) 2
  obtain ⟨low, high⟩ := @weighted_bounds (fun i => values i channel) radius x
    255 (by omega) (fun i => (bytes i channel).1)
    (fun i => (bytes i channel).2)
  exact ⟨Int.ediv_nonneg low square.le, Int.ediv_le_of_le_mul square high⟩

/-- The table `dv`. -/
def table (radius : ℤ) : List Int :=
  (List.replicate (256 * (radius + 1) ^ 2).toNat 0).mapIdx fun i _ =>
    (i : ℤ) / (radius + 1) ^ 2

theorem quotients_eq (moderate : Moderate radius) :
    quotients radius = .ok (table radius) := by
  have bound := moderate.table
  have square : 0 ≤ (radius + 1) ^ 2 := sq_nonneg _
  rw [quotients, moderate.divsum_eq, wrapInt_of_range (by omega) bound,
    newArray_eq (by omega)]
  rfl

theorem arrayRead_table {sum : ℤ} (low : 0 ≤ sum)
    (high : sum < 256 * (radius + 1) ^ 2) :
    arrayRead (table radius) sum = .ok (sum / (radius + 1) ^ 2) := by
  apply arrayRead_of_getElem? low
  rw [table]
  rw [List.getElem?_mapIdx, List.getElem?_replicate_of_lt (by omega)]
  have same : (sum.toNat : ℤ) = sum := Int.toNat_of_nonneg low
  rw [Option.map_some, same]

/-- The table has the average of each possible sum. -/
theorem average_eq (moderate : Moderate radius)
    (bytes : ∀ i channel, IsByte (values i channel)) :
    average (table radius) (wrapRgb (weighted values radius x)) =
      .ok (averageAt values radius x) := by
  have positive := moderate.positive
  have small := moderate.table
  have square : 0 < (radius + 1) ^ 2 := pow_pos (by omega) 2
  have reads : ∀ channel,
      arrayRead (table radius)
          (wrapRgb (weighted values radius x) channel) =
        .ok (averageAt values radius x channel) := by
    intro channel
    obtain ⟨low, high⟩ := @weighted_bounds (fun i => values i channel) radius
      x 255 (by omega) (fun i => (bytes i channel).1)
      (fun i => (bytes i channel).2)
    rw [wrapRgb, weighted_apply, wrapInt_of_range (by omega) (by omega)]
    exact arrayRead_table low (by omega)
  rw [average, Rgb.ofReads, reads, reads, reads]
  refine congrArg Except.ok (funext fun channel => ?_)
  cases channel <;> rfl

end Average

end DripStone.Blur
