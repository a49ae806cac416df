import DripStone.Blur.Rows

/-!
# The pass along the columns

It takes the averages of the rows as its pixels and writes back into the
image, column by column.
-/

namespace DripStone.Blur

open DripStone.Library

/-- The averages of the rows along a column, which goes on with its first and
its last pixel. -/
noncomputable def columnValues (w h radius : ℤ) (pix : List Pixel) (x : ℤ) :
    ℤ → Rgb :=
  fun y => horizontal w radius pix x (clamp h y)

noncomputable def vertical (w h radius : ℤ) (pix : List Pixel) (x y : ℤ) :
    Rgb :=
  averageAt (columnValues w h radius pix x) radius y

theorem place_injective {w x y otherX otherY : ℤ} (low : 0 ≤ x) (high : x < w)
    (lowOther : 0 ≤ otherX) (highOther : otherX < w)
    (same : place w x y = place w otherX otherY) :
    x = otherX ∧ y = otherY := by
  have columns := congrArg (· % w) same
  have rows := congrArg (· / w) same
  simp only [place_emod low high, place_emod lowOther highOther] at columns
  simp only [place_ediv low high, place_ediv lowOther highOther] at rows
  exact ⟨columns, rows⟩

section Columns

variable {w h radius : ℤ} {pix : List Pixel} {x y : ℤ}

theorem isByte_columnValues (moderate : Moderate radius) (i : ℤ)
    (channel : Channel) : IsByte (columnValues w h radius pix x i channel) :=
  isByte_averageAt moderate isByte_rowValues channel

/-- The arrays `r`, `g` and `b` have all the averages of the rows. -/
def HasRows (w h radius : ℤ) (pix : List Pixel) (rgb : List Rgb) : Prop :=
  ∀ x y, 0 ≤ x → x < w → 0 ≤ y → y < h →
    arrayRead rgb (wrapInt (place w x y)) = .ok (horizontal w radius pix x y)

theorem RowsAt.hasRows {rows : Rows} (sized : Sized w h radius pix)
    (atEnd : RowsAt w h radius pix 0 h rows) :
    HasRows w h radius pix rows.rgb := by
  intro x y low high above below
  have area := sized.area
  obtain ⟨nonneg, inside⟩ := place_bounds low high above below
  have last : place w 0 h = w * h := by
    rw [place, add_zero, mul_comm]
  have found := atEnd.averaged (place w x y) nonneg (by omega)
  simp only [place_emod low high, place_ediv low high] at found
  rw [wrapInt_of_range (by omega) (by omega), found]

variable {rgb : List Rgb}

/-! ## The window of the first pixel -/

/-- The rows in front of the image have negative places. -/
theorem max_place (width : 1 ≤ w) (height : 1 ≤ h) (i : ℤ) :
    max 0 (w * min i (h - 1)) = clamp h i * w := by
  have nearest : clamp h i = max 0 (min i (h - 1)) := by
    rw [clamp]
    omega
  rw [nearest, mul_comm _ w, mul_max_of_nonneg _ _ (by omega), mul_zero]

theorem next_place (sized : Sized w h radius pix) {i : ℤ} (low : -radius ≤ i) :
    (if i < wrapInt (h - 1) then wrapInt (w * min i (h - 1) + w)
      else w * min i (h - 1)) = w * min (i + 1) (h - 1) := by
  have width := sized.width
  have height := sized.height
  have small := sized.height_small
  have above := sized.above
  have area := sized.area
  rw [@wrapInt_of_range (h - 1) (by omega) (by omega)]
  by_cases goesOn : i < h - 1
  · have here : min i (h - 1) = i := by omega
    have there : min (i + 1) (h - 1) = i + 1 := by omega
    have least : w * -radius ≤ w * (i + 1) :=
      mul_le_mul_of_nonneg_left (by omega) (by omega)
    have most : w * (i + 1) ≤ w * h :=
      mul_le_mul_of_nonneg_left (by omega) (by omega)
    rw [mul_neg, mul_comm w radius] at least
    rw [if_pos goesOn, here, there, ← mul_add_one,
      wrapInt_of_range (by omega) (by omega)]
  · have here : min i (h - 1) = h - 1 := by omega
    have there : min (i + 1) (h - 1) = h - 1 := by omega
    rw [if_neg goesOn, here, there]

theorem columnFill_step (sized : Sized w h radius pix)
    (hasRows : HasRows w h radius pix rgb) (low : 0 ≤ x) (high : x < w)
    {i : ℤ} (first : -radius ≤ i) (last : i < radius + 1) {window : Window}
    (filledTo : window.FilledTo (columnValues w h radius pix x) radius i) :
    ∃ next, columnFill w h radius rgb x i (window, w * min i (h - 1)) =
        .ok (next, w * min (i + 1) (h - 1)) ∧
      next.FilledTo (columnValues w h radius pix x) radius (i + 1) := by
  obtain ⟨next, fills, filledNext⟩ :=
    filledTo.fill sized.moderate first last
  obtain ⟨nearest, inside⟩ := clamp_bounds sized.height i
  have read : arrayRead rgb (wrapInt (max 0 (w * min i (h - 1)) + x)) =
      .ok (columnValues w h radius pix x i) := by
    rw [max_place sized.width sized.height]
    exact hasRows x (clamp h i) low high nearest inside
  refine ⟨next, ?_, filledNext⟩
  simp only [columnFill, read, fills, next_place sized first, bind,
    Except.bind]
  rfl

theorem columnFill_ok (sized : Sized w h radius pix)
    (hasRows : HasRows w h radius pix rgb) (low : 0 ≤ x) (high : x < w)
    {window : Window}
    (length : (window.stack.length : ℤ) = 2 * radius + 1) :
    ∃ filled, forRange (-radius) (radius + 1) (columnFill w h radius rgb x)
        (window.reset, wrapInt (-radius * w)) = .ok filled ∧
      filled.1.FilledTo (columnValues w h radius pix x) radius
        (radius + 1) := by
  have positive := sized.moderate.positive
  have width := sized.width
  have height := sized.height
  have above := sized.above
  have start : wrapInt (-radius * w) = w * min (-radius) (h - 1) := by
    have reach : 0 ≤ radius * w := mul_nonneg (by omega) (by omega)
    have first : min (-radius) (h - 1) = -radius := by omega
    rw [first, neg_mul, wrapInt_of_range (by omega) (by omega), mul_neg,
      mul_comm]
  obtain ⟨filled, runs, filledTo, -⟩ :=
    @forRange_ok _ _ (-radius) (radius + 1) (columnFill w h radius rgb x)
      (window.reset, wrapInt (-radius * w))
      (fun i state =>
        state.1.FilledTo (columnValues w h radius pix x) radius i ∧
          state.2 = w * min i (h - 1))
      (by omega) ⟨Window.filledTo_reset _ length, start⟩ (by
        intro i state first last holds
        obtain ⟨window, yp⟩ := state
        obtain ⟨filledTo, rfl⟩ := holds
        obtain ⟨next, fills, filledNext⟩ :=
          columnFill_step sized hasRows low high first last filledTo
        exact ⟨_, fills, filledNext, rfl⟩)
  exact ⟨filled, runs, filledTo⟩

/-! ## The steps of a column -/

/-- The state in front of the pixel of the column `x` and the row `y`, without
the window. -/
structure ColumnsAt (w h radius : ℤ) (pix : List Pixel) (x y : ℤ)
    (state : Columns) : Prop where
  pix_length : (state.pix.length : ℤ) = w * h
  blurred : ∀ column row, 0 ≤ column → column < w → 0 ≤ row → row < h →
    arrayRead state.pix (place w column row) = .ok (
      if column < x ∨ column = x ∧ row < y then
        pack (pixelAt w pix column row) (vertical w h radius pix column row)
      else pixelAt w pix column row)
  vmin_length : (state.vmin.length : ℤ) = max w h
  offsets : WrittenTo (fun i => min (i + radius + 1) (h - 1) * w)
    (if x = 0 then y else h) state.vmin

variable {state : Columns}

theorem ColumnsAt.write (columns : ColumnsAt w h radius pix x y state)
    (low : 0 ≤ x) (high : x < w) (above : 0 ≤ y) (below : y < h) :
    ∃ blurred, arrayWrite state.pix (place w x y)
        (pack (pixelAt w pix x y) (vertical w h radius pix x y)) =
          .ok blurred ∧
      (blurred.length : ℤ) = w * h ∧
      ∀ column row, 0 ≤ column → column < w → 0 ≤ row → row < h →
        arrayRead blurred (place w column row) = .ok (
          if column < x ∨ column = x ∧ row < y + 1 then
            pack (pixelAt w pix column row)
              (vertical w h radius pix column row)
          else pixelAt w pix column row) := by
  have length := columns.pix_length
  obtain ⟨nonneg, inside⟩ := place_bounds low high above below
  refine ⟨_, arrayWrite_eq nonneg (by omega) _,
    by rw [List.length_set, length], ?_⟩
  intro column row left right top bottom
  by_cases isHere : column = x ∧ row = y
  · obtain ⟨rfl, rfl⟩ := isHere
    rw [if_pos (by omega)]
    exact arrayRead_set_self nonneg (by omega)
  · have elsewhere : place w column row ≠ place w x y := fun same =>
      isHere (place_injective left right low high same)
    have sameDone : (column < x ∨ column = x ∧ row < y + 1) ↔
        (column < x ∨ column = x ∧ row < y) := by omega
    rw [arrayRead_set_of_ne nonneg elsewhere]
    simp only [sameDone]
    exact columns.blurred column row left right top bottom

/-- The offset of the row that enters is computed in the first column. -/
theorem ColumnsAt.offset (columns : ColumnsAt w h radius pix x y state)
    (sized : Sized w h radius pix) (above : 0 ≤ y) (below : y < h)
    (fits : y + radius + 1 < 2147483648) :
    ∃ vmin, setOffset x y (wrapInt
        (min (wrapInt (y + wrapInt (radius + 1))) (wrapInt (h - 1)) * w))
          state.vmin = .ok vmin ∧
      (vmin.length : ℤ) = max w h ∧
      WrittenTo (fun i => min (i + radius + 1) (h - 1) * w)
        (if x = 0 then y + 1 else h) vmin := by
  have positive := sized.moderate.positive
  have limited := sized.moderate.small
  have small := sized.height_small
  have area := sized.area
  have length := columns.vmin_length
  have offsets := columns.offsets
  rw [setOffset]
  by_cases isFirst : x = 0
  · have width := sized.width
    have least : 0 ≤ min (y + radius + 1) (h - 1) * w :=
      mul_nonneg (by omega) (by omega)
    have most : min (y + radius + 1) (h - 1) * w ≤ h * w :=
      mul_le_mul_of_nonneg_right (by omega) (by omega)
    rw [mul_comm h] at most
    rw [if_pos isFirst] at offsets ⊢
    rw [if_pos isFirst, @wrapInt_of_range (radius + 1) (by omega) (by omega),
      @wrapInt_of_range (h - 1) (by omega) (by omega), ← add_assoc,
      @wrapInt_of_range (y + radius + 1) (by omega) (by omega),
      wrapInt_of_range (by omega) (by omega), arrayWrite_eq above (by omega)]
    exact ⟨_, rfl, by rw [List.length_set, length],
      offsets.write above (by omega)⟩
  · rw [if_neg isFirst] at offsets ⊢
    rw [if_neg isFirst]
    exact ⟨_, rfl, length, offsets⟩

theorem ColumnsAt.step (columns : ColumnsAt w h radius pix x y state)
    (sized : Sized w h radius pix) (hasRows : HasRows w h radius pix rgb)
    (atY : state.window.At (columnValues w h radius pix x) radius y)
    (yi : state.yi = wrapInt (place w x y)) (low : 0 ≤ x) (high : x < w)
    (above : 0 ≤ y) (below : y < h) (fits : y + radius + 1 < 2147483648) :
    ∃ next, columnStep w h radius (table radius) rgb x y state = .ok next ∧
      ColumnsAt w h radius pix x (y + 1) next ∧
      next.window.At (columnValues w h radius pix x) radius (y + 1) ∧
      next.yi = wrapInt (place w x (y + 1)) := by
  have area := sized.area
  have positive := sized.moderate.positive
  obtain ⟨nonneg, inside⟩ := place_bounds low high above below
  have here : state.yi = place w x y := by
    rw [yi, wrapInt_of_range (by omega) (by omega)]
  have old := columns.blurred x y low high above below
  rw [if_neg (by omega)] at old
  have averaged : average (table radius) state.window.sum =
      .ok (vertical w h radius pix x y) := by
    rw [atY.sum]
    exact average_eq sized.moderate (isByte_columnValues sized.moderate)
  obtain ⟨blurred, writes, length, isBlurred⟩ :=
    columns.write low high above below
  obtain ⟨left, window, leaves, enters, atNext⟩ := atY.slide sized.moderate
  obtain ⟨vmin, computes, vminLength, offsets⟩ :=
    columns.offset sized above below fits
  have offset : arrayRead vmin y =
      .ok (min (y + radius + 1) (h - 1) * w) := by
    apply offsets y above
    split <;> omega
  have read : arrayRead rgb
      (wrapInt (x + min (y + radius + 1) (h - 1) * w)) =
        .ok (columnValues w h radius pix x (y + radius + 1)) := by
    have sameRow : min (y + radius + 1) (h - 1) =
        clamp h (y + radius + 1) := by
      rw [clamp]
      omega
    obtain ⟨first, last⟩ := clamp_bounds sized.height (y + radius + 1)
    rw [sameRow, add_comm]
    exact hasRows x _ low high first last
  refine ⟨⟨window, blurred, vmin, wrapInt (state.yi + w)⟩, ?_,
    ⟨length, isBlurred, vminLength, offsets⟩, atNext, ?_⟩
  · simp only [columnStep, here, old, averaged, writes, leaves, computes,
      offset, read, enters, bind, Except.bind]
    rfl
  · simp only
    rw [here, place, place, add_mul, one_mul, add_right_comm]

/-- An offset that overflows is negative; the image has one column. -/
theorem ColumnsAt.step_error (columns : ColumnsAt 1 h radius pix 0 y state)
    (sized : Sized 1 h radius pix)
    (atY : state.window.At (columnValues 1 h radius pix 0) radius y)
    (yi : state.yi = wrapInt (place 1 0 y)) (above : 0 ≤ y) (below : y < h)
    (overflows : y + radius + 1 = 2147483648) :
    ∃ failure, columnStep 1 h radius (table radius) rgb 0 y state =
      .error failure := by
  have area := sized.area
  have height := sized.height
  have positive := sized.moderate.positive
  have limited := sized.moderate.small
  have vminLength := columns.vmin_length
  obtain ⟨nonneg, inside⟩ :=
    place_bounds le_rfl (show (0 : ℤ) < 1 by omega) above below
  have here : state.yi = place 1 0 y := by
    rw [yi, wrapInt_of_range (by omega) (by omega)]
  have old := columns.blurred 0 y le_rfl (by omega) above below
  have averaged : average (table radius) state.window.sum =
      .ok (vertical 1 h radius pix 0 y) := by
    rw [atY.sum]
    exact average_eq sized.moderate (isByte_columnValues sized.moderate)
  rw [if_neg (by omega)] at old
  obtain ⟨blurred, writes, -⟩ :=
    columns.write le_rfl (by omega) above below
  obtain ⟨left, -, leaves, -⟩ := atY.slide sized.moderate
  have negative : wrapInt (min (wrapInt (y + wrapInt (radius + 1)))
      (wrapInt (h - 1)) * 1) = -2147483648 := by
    rw [@wrapInt_of_range (radius + 1) (by omega) (by omega),
      @wrapInt_of_range (h - 1) (by omega) (by omega), ← add_assoc, overflows,
      wrapInt_of_overflow le_rfl (by omega), mul_one,
      wrapInt_of_range (by omega) (by omega)]
    omega
  have offset := @arrayRead_set_self _ state.vmin y (-2147483648) above
    (by omega)
  have outside : arrayRead rgb (wrapInt (0 + -2147483648)) =
      .error .indexOutOfBounds := by
    rw [zero_add, wrapInt_of_range le_rfl (by omega)]
    exact arrayRead_of_neg (by omega)
  refine ⟨.indexOutOfBounds, ?_⟩
  simp only [columnStep, here, old, averaged, writes, leaves, setOffset,
    if_pos, negative,
    arrayWrite_eq above (show y < state.vmin.length by omega), offset,
    outside, bind, Except.bind]

/-! ## The runs of the columns -/

theorem ColumnsAt.column_start (columns : ColumnsAt w h radius pix x 0 state)
    (sized : Sized w h radius pix) (hasRows : HasRows w h radius pix rgb)
    (low : 0 ≤ x) (high : x < w)
    (length : (state.window.stack.length : ℤ) = 2 * radius + 1) :
    ∃ window yp, forRange (-radius) (radius + 1)
        (columnFill w h radius rgb x)
        (state.window.reset, wrapInt (-radius * w)) = .ok (window, yp) ∧
      ColumnsAt w h radius pix x 0
        { state with
          window := { window with stackpointer := radius }, yi := x } ∧
      Window.At (columnValues w h radius pix x) radius 0
        { window with stackpointer := radius } ∧
      x = wrapInt (place w x 0) := by
  have small := sized.width_small
  obtain ⟨⟨window, yp⟩, fills, filledTo⟩ :=
    columnFill_ok sized hasRows low high length
  refine ⟨window, yp, fills, ⟨columns.pix_length, columns.blurred,
    columns.vmin_length, columns.offsets⟩, filledTo.at_zero sized.moderate, ?_⟩
  rw [place, zero_mul, zero_add, wrapInt_of_range (by omega) (by omega)]

theorem ColumnsAt.column_ok (columns : ColumnsAt w h radius pix x 0 state)
    (sized : Sized w h radius pix) (hasRows : HasRows w h radius pix rgb)
    (fits : h + radius < 2147483648) (low : 0 ≤ x) (high : x < w)
    (length : (state.window.stack.length : ℤ) = 2 * radius + 1) :
    ∃ next, column w h radius (table radius) rgb x state = .ok next ∧
      ColumnsAt w h radius pix (x + 1) 0 next ∧
      (next.window.stack.length : ℤ) = 2 * radius + 1 := by
  have height := sized.height
  obtain ⟨window, yp, fills, start, atZero, yi⟩ :=
    columns.column_start sized hasRows low high length
  obtain ⟨final, runs, atEnd, windowAtEnd, -⟩ :=
    @forRange_ok _ _ 0 h (columnStep w h radius (table radius) rgb x)
      { state with
        window := { window with stackpointer := radius }, yi := x }
      (fun y next => ColumnsAt w h radius pix x y next ∧
        next.window.At (columnValues w h radius pix x) radius y ∧
        next.yi = wrapInt (place w x y))
      (by omega) ⟨start, atZero, yi⟩
      (fun y next above below holds => holds.1.step sized hasRows holds.2.1
        holds.2.2 low high above below (by omega))
  refine ⟨final, ?_, ⟨atEnd.pix_length, ?_, atEnd.vmin_length, ?_⟩,
    windowAtEnd.length⟩
  · simp only [column, fills, bind, Except.bind]
    exact runs
  · intro column row left right top bottom
    have sameDone : (column < x + 1 ∨ column = x + 1 ∧ row < 0) ↔
        (column < x ∨ column = x ∧ row < h) := by omega
    simp only [sameDone]
    exact atEnd.blurred column row left right top bottom
  · have offsets := atEnd.offsets
    rw [if_neg (by omega)]
    rwa [ite_self] at offsets

theorem ColumnsAt.column_error (columns : ColumnsAt 1 h radius pix 0 0 state)
    (sized : Sized 1 h radius pix) (hasRows : HasRows 1 h radius pix rgb)
    (overflows : 2147483648 ≤ h + radius)
    (length : (state.window.stack.length : ℤ) = 2 * radius + 1) :
    ∃ failure,
      column 1 h radius (table radius) rgb 0 state = .error failure := by
  have small := sized.height_small
  have limited := sized.moderate.small
  have one : (0 : ℤ) < 1 := by omega
  obtain ⟨window, yp, fills, start, atZero, yi⟩ :=
    columns.column_start sized hasRows le_rfl one length
  obtain ⟨failure, fails⟩ :=
    @forRange_error _ _ 0 h (columnStep 1 h radius (table radius) rgb 0)
      { state with
        window := { window with stackpointer := radius }, yi := 0 }
      (fun y next => ColumnsAt 1 h radius pix 0 y next ∧
        next.window.At (columnValues 1 h radius pix 0) radius y ∧
        next.yi = wrapInt (place 1 0 y))
      (2147483648 - radius - 1) (by omega) (by omega) ⟨start, atZero, yi⟩
      (fun y next above below holds => holds.1.step sized hasRows holds.2.1
        holds.2.2 le_rfl one above (by omega) (by omega))
      (fun next holds => holds.1.step_error sized holds.2.1 holds.2.2
        (by omega) (by omega) (by omega))
  refine ⟨failure, ?_⟩
  simp only [column, fills, bind, Except.bind]
  exact fails

/-- The state in front of the first column. -/
theorem columnsAt_start (sized : Sized w h radius pix) {rows : Rows}
    (atEnd : RowsAt w h radius pix 0 h rows) :
    ColumnsAt w h radius pix 0 0
      { window := rows.window, pix, vmin := rows.vmin, yi := rows.yi } := by
  have area := sized.area
  refine ⟨sized.length, ?_, atEnd.vmin_length, ?_⟩
  · intro column row left right top bottom
    obtain ⟨nonneg, inside⟩ := place_bounds left right top bottom
    have found := sized.arrayRead_place left right top bottom
    rw [wrapInt_of_range (by omega) (by omega)] at found
    rw [if_neg (by omega), found]
  · rw [if_pos rfl]
    exact writtenTo_zero _ _

end Columns

end DripStone.Blur
