import DripStone.Blur.Window

/-!
# The pass along the rows

In front of each pixel the window and the sums belong to this pixel, and the
arrays `r`, `g` and `b` have the averages of all the pixels in front of it.
-/

namespace DripStone.Blur

open DripStone.Library

/-- The nearest index of a line of this size. -/
def clamp (size index : ℤ) : ℤ :=
  min (size - 1) (max index 0)

theorem clamp_bounds {size : ℤ} (some : 1 ≤ size) (index : ℤ) :
    0 ≤ clamp size index ∧ clamp size index < size := by
  rw [clamp]
  omega

/-- The entry of the column `x` and the row `y`. -/
def place (w x y : ℤ) : ℤ :=
  y * w + x

section Places

variable {w h x y : ℤ}

theorem place_bounds (low : 0 ≤ x) (high : x < w) (above : 0 ≤ y)
    (below : y < h) : 0 ≤ place w x y ∧ place w x y < w * h := by
  have rows : 0 ≤ y * w := mul_nonneg above (by omega)
  have next : (y + 1) * w ≤ h * w :=
    mul_le_mul_of_nonneg_right (by omega) (by omega)
  rw [add_mul, one_mul, mul_comm h] at next
  rw [place]
  omega

theorem place_emod (low : 0 ≤ x) (high : x < w) : place w x y % w = x := by
  rw [place, add_comm, Int.add_mul_emod_self_right,
    Int.emod_eq_of_lt low high]

theorem place_ediv (low : 0 ≤ x) (high : x < w) : place w x y / w = y := by
  rw [place, add_comm, Int.add_mul_ediv_right _ _ (by omega),
    Int.ediv_eq_zero_of_lt low high, zero_add]

end Places

/-! ## The averages of the rows -/

/-- The pixel of the column `x` and the row `y`. -/
def pixelAt (w : ℤ) (pix : List Pixel) (x y : ℤ) : Pixel :=
  pix.getD (place w x y).toNat 0

/-- The channels along a row, which goes on with its first and its last
pixel. -/
def rowValues (w : ℤ) (pix : List Pixel) (y : ℤ) : ℤ → Rgb :=
  fun x => rgbOf (pixelAt w pix (clamp w x) y)

noncomputable def horizontal (w radius : ℤ) (pix : List Pixel) (x y : ℤ) :
    Rgb :=
  averageAt (rowValues w pix y) radius x

/-- The sizes of the image allow for the arrays of the source. -/
structure Sized (w h radius : ℤ) (pix : List Pixel) : Prop where
  width : 1 ≤ w
  height : 1 ≤ h
  length : (pix.length : ℤ) = w * h
  area : w * h < 2147483648
  above : radius * w < 2147483648
  moderate : Moderate radius

section Rows

variable {w h radius : ℤ} {pix : List Pixel} {x y : ℤ}

theorem Sized.width_small (sized : Sized w h radius pix) :
    w < 2147483648 := by
  have area := sized.area
  have grows : w * 1 ≤ w * h :=
    mul_le_mul_of_nonneg_left sized.height (by linarith [sized.width])
  omega

theorem Sized.height_small (sized : Sized w h radius pix) :
    h < 2147483648 := by
  have area := sized.area
  have grows : 1 * h ≤ w * h :=
    mul_le_mul_of_nonneg_right sized.width (by linarith [sized.height])
  omega

theorem Sized.arrayRead_place (sized : Sized w h radius pix) (low : 0 ≤ x)
    (high : x < w) (above : 0 ≤ y) (below : y < h) :
    arrayRead pix (wrapInt (place w x y)) = .ok (pixelAt w pix x y) := by
  have area := sized.area
  have length := sized.length
  obtain ⟨nonneg, inside⟩ := place_bounds low high above below
  have found : (place w x y).toNat < pix.length := by omega
  rw [wrapInt_of_range (by omega) (by omega), pixelAt,
    List.getD_eq_getElem _ _ found]
  exact arrayRead_of_getElem? nonneg (List.getElem?_eq_getElem found)

theorem isByte_rowValues (i : ℤ) (channel : Channel) :
    IsByte (rowValues w pix y i channel) :=
  isByte_rgbOf _ channel

/-! ## The steps of a row -/

/-- The state in front of the pixel of the column `x` and the row `y`, without
the window. -/
structure RowsAt (w h radius : ℤ) (pix : List Pixel) (x y : ℤ)
    (state : Rows) : Prop where
  rgb_length : (state.rgb.length : ℤ) = w * h
  averaged : WrittenTo (fun i => horizontal w radius pix (i % w) (i / w))
    (place w x y) state.rgb
  vmin_length : (state.vmin.length : ℤ) = max w h
  offsets : WrittenTo (fun i => min (i + radius + 1) (w - 1))
    (if y = 0 then x else w) state.vmin
  yi : state.yi = place w x y
  yw : state.yw = y * w

variable {state : Rows}

theorem rowFill_ok (sized : Sized w h radius pix) (above : 0 ≤ y)
    (below : y < h) {window : Window}
    (length : (window.stack.length : ℤ) = 2 * radius + 1) :
    ∃ filled, forRange (-radius) (radius + 1)
        (rowFill w radius pix (place w 0 y)) window.reset = .ok filled ∧
      filled.FilledTo (rowValues w pix y) radius (radius + 1) := by
  have positive := sized.moderate.positive
  have width := sized.width
  have small := sized.width_small
  refine forRange_ok (by omega) (Window.filledTo_reset _ length) ?_
  intro i window low high filledTo
  obtain ⟨next, fills, filledNext⟩ :=
    filledTo.fill sized.moderate low high
  obtain ⟨first, last⟩ := clamp_bounds width i
  have read : arrayRead pix
      (wrapInt (place w 0 y + min (wrapInt (w - 1)) (max i 0))) =
        .ok (pixelAt w pix (clamp w i) y) := by
    have reads := sized.arrayRead_place first last above below
    rw [place] at reads
    rw [place, add_zero, @wrapInt_of_range (w - 1) (by omega) (by omega)]
    exact reads
  refine ⟨next, ?_, filledNext⟩
  rw [rowFill, read]
  exact fills

/-- The average of the pixel is written before the window moves on. -/
theorem RowsAt.write (rows : RowsAt w h radius pix x y state)
    (low : 0 ≤ x) (high : x < w) (above : 0 ≤ y) (below : y < h) :
    ∃ rgb, arrayWrite state.rgb state.yi (horizontal w radius pix x y) =
        .ok rgb ∧
      (rgb.length : ℤ) = w * h ∧
      WrittenTo (fun i => horizontal w radius pix (i % w) (i / w))
        (place w (x + 1) y) rgb := by
  have length := rows.rgb_length
  obtain ⟨nonneg, inside⟩ := place_bounds low high above below
  have written := rows.averaged.write nonneg (by omega)
  simp only [place_emod low high, place_ediv low high] at written
  have next : place w (x + 1) y = place w x y + 1 := by
    rw [place, place, add_assoc]
  rw [rows.yi, arrayWrite_eq nonneg (by omega), next]
  exact ⟨_, rfl, by rw [List.length_set, length], written⟩

/-- The offset of the pixel that enters is computed in the first row. -/
theorem RowsAt.offset (rows : RowsAt w h radius pix x y state)
    (sized : Sized w h radius pix) (low : 0 ≤ x) (high : x < w)
    (fits : x + radius + 1 < 2147483648) :
    ∃ vmin, setOffset y x
        (min (wrapInt (x + radius + 1)) (wrapInt (w - 1))) state.vmin =
          .ok vmin ∧
      (vmin.length : ℤ) = max w h ∧
      WrittenTo (fun i => min (i + radius + 1) (w - 1))
        (if y = 0 then x + 1 else w) vmin := by
  have positive := sized.moderate.positive
  have small := sized.width_small
  have length := rows.vmin_length
  have offsets := rows.offsets
  rw [setOffset]
  by_cases isFirst : y = 0
  · rw [if_pos isFirst] at offsets ⊢
    rw [if_pos isFirst, wrapInt_of_range (by omega) (by omega),
      wrapInt_of_range (by omega) (by omega), arrayWrite_eq low (by omega)]
    exact ⟨_, rfl, by rw [List.length_set, length],
      offsets.write low (by omega)⟩
  · rw [if_neg isFirst] at offsets ⊢
    rw [if_neg isFirst]
    exact ⟨_, rfl, length, offsets⟩

theorem RowsAt.step (rows : RowsAt w h radius pix x y state)
    (sized : Sized w h radius pix)
    (atX : state.window.At (rowValues w pix y) radius x) (low : 0 ≤ x)
    (high : x < w) (above : 0 ≤ y) (below : y < h)
    (fits : x + radius + 1 < 2147483648) :
    ∃ next, rowStep w radius (table radius) pix y x state = .ok next ∧
      RowsAt w h radius pix (x + 1) y next ∧
      next.window.At (rowValues w pix y) radius (x + 1) := by
  have positive := sized.moderate.positive
  have area := sized.area
  obtain ⟨nonneg, inside⟩ := place_bounds low high above below
  have averaged : average (table radius) state.window.sum =
      .ok (horizontal w radius pix x y) := by
    rw [atX.sum]
    exact average_eq sized.moderate isByte_rowValues
  obtain ⟨rgb, writes, rgbLength, rgbWritten⟩ :=
    rows.write low high above below
  obtain ⟨left, window, leaves, enters, atNext⟩ := atX.slide sized.moderate
  obtain ⟨vmin, computes, vminLength, offsets⟩ :=
    rows.offset sized low high fits
  have offset : arrayRead vmin x =
      .ok (min (x + radius + 1) (w - 1)) := by
    apply offsets x low
    split <;> omega
  have read : arrayRead pix
      (wrapInt (state.yw + min (x + radius + 1) (w - 1))) =
        .ok (pixelAt w pix (clamp w (x + radius + 1)) y) := by
    have sameOffset : min (x + radius + 1) (w - 1) =
        clamp w (x + radius + 1) := by
      rw [clamp]
      omega
    obtain ⟨first, last⟩ := clamp_bounds sized.width (x + radius + 1)
    rw [rows.yw, sameOffset]
    exact sized.arrayRead_place first last above below
  refine ⟨⟨window, rgb, vmin, wrapInt (state.yi + 1), state.yw⟩, ?_,
    ⟨rgbLength, rgbWritten, vminLength, offsets, ?_, rows.yw⟩, atNext⟩
  · simp only [rowStep, averaged, writes, leaves, computes, offset, read,
      bind, Except.bind]
    simp only [rowValues] at enters
    rw [enters]
    rfl
  · rw [rows.yi, wrapInt_of_range (by omega) (by omega), place, place,
      add_assoc]

/-- An offset that overflows is negative. -/
theorem RowsAt.step_error (rows : RowsAt w h radius pix x 0 state)
    (sized : Sized w h radius pix)
    (atX : state.window.At (rowValues w pix 0) radius x) (low : 0 ≤ x)
    (high : x < w) (overflows : x + radius + 1 = 2147483648) :
    ∃ failure,
      rowStep w radius (table radius) pix 0 x state = .error failure := by
  have height := sized.height
  have small := sized.width_small
  have length := rows.vmin_length
  have averaged : average (table radius) state.window.sum =
      .ok (horizontal w radius pix x 0) := by
    rw [atX.sum]
    exact average_eq sized.moderate isByte_rowValues
  obtain ⟨rgb, writes, -⟩ := rows.write low high le_rfl (by omega)
  obtain ⟨left, -, leaves, -⟩ := atX.slide sized.moderate
  have negative : min (wrapInt (x + radius + 1)) (wrapInt (w - 1)) =
      -2147483648 := by
    rw [wrapInt_of_overflow (by omega) (by omega),
      wrapInt_of_range (by omega) (by omega)]
    omega
  have offset := @arrayRead_set_self _ state.vmin x (-2147483648) low
    (by omega)
  have outside : arrayRead pix (wrapInt (state.yw + -2147483648)) =
      .error .indexOutOfBounds := by
    rw [rows.yw, zero_mul, zero_add, wrapInt_of_range le_rfl (by omega)]
    exact arrayRead_of_neg (by omega)
  refine ⟨.indexOutOfBounds, ?_⟩
  simp only [rowStep, averaged, writes, leaves, setOffset, if_pos, negative,
    arrayWrite_eq low (show x < state.vmin.length by omega), offset, outside,
    bind, Except.bind]

/-! ## The runs of the rows -/

theorem RowsAt.row_start (rows : RowsAt w h radius pix 0 y state)
    (sized : Sized w h radius pix) (above : 0 ≤ y) (below : y < h)
    (length : (state.window.stack.length : ℤ) = 2 * radius + 1) :
    ∃ window, forRange (-radius) (radius + 1)
        (rowFill w radius pix state.yi) state.window.reset = .ok window ∧
      Window.At (rowValues w pix y) radius 0
        { window with stackpointer := radius } := by
  rw [rows.yi]
  obtain ⟨window, fills, filledTo⟩ := rowFill_ok sized above below length
  exact ⟨window, fills, filledTo.at_zero sized.moderate⟩

theorem RowsAt.row_ok (rows : RowsAt w h radius pix 0 y state)
    (sized : Sized w h radius pix) (fits : w + radius < 2147483648)
    (above : 0 ≤ y) (below : y < h)
    (length : (state.window.stack.length : ℤ) = 2 * radius + 1) :
    ∃ next, row w radius (table radius) pix y state = .ok next ∧
      RowsAt w h radius pix 0 (y + 1) next ∧
      (next.window.stack.length : ℤ) = 2 * radius + 1 := by
  have area := sized.area
  have width := sized.width
  obtain ⟨window, fills, atZero⟩ :=
    rows.row_start sized above below length
  have start : RowsAt w h radius pix 0 y
      { state with window := { window with stackpointer := radius } } :=
    ⟨rows.rgb_length, rows.averaged, rows.vmin_length, rows.offsets,
      rows.yi, rows.yw⟩
  obtain ⟨final, runs, atEnd, windowAtEnd⟩ :=
    @forRange_ok _ _ 0 w (rowStep w radius (table radius) pix y)
      { state with window := { window with stackpointer := radius } }
      (fun x next => RowsAt w h radius pix x y next ∧
        next.window.At (rowValues w pix y) radius x)
      (by omega) ⟨start, atZero⟩
      (fun x next low high holds => holds.1.step sized holds.2 low high above
        below (by omega))
  have nextRow : place w w y = place w 0 (y + 1) := by
    rw [place, place, add_mul, one_mul, add_zero]
  have last := @place_bounds w h (w - 1) y (by omega) (by omega) above below
  have yw : wrapInt (final.yw + w) = (y + 1) * w := by
    rw [place] at last
    rw [atEnd.yw, add_mul, one_mul, wrapInt_of_range (by omega) (by omega)]
  refine ⟨{ final with yw := wrapInt (final.yw + w) }, ?_, ?_,
    windowAtEnd.length⟩
  · simp only [row, fills, runs, bind, Except.bind]
    rfl
  · refine ⟨atEnd.rgb_length, nextRow ▸ atEnd.averaged, atEnd.vmin_length, ?_,
      nextRow ▸ atEnd.yi, yw⟩
    have offsets := atEnd.offsets
    rw [if_neg (by omega)]
    rwa [ite_self] at offsets

theorem RowsAt.row_error (rows : RowsAt w h radius pix 0 0 state)
    (sized : Sized w h radius pix) (overflows : 2147483648 ≤ w + radius)
    (length : (state.window.stack.length : ℤ) = 2 * radius + 1) :
    ∃ failure, row w radius (table radius) pix 0 state = .error failure := by
  have small := sized.width_small
  have limited := sized.moderate.small
  obtain ⟨window, fills, atZero⟩ :=
    rows.row_start sized le_rfl (by linarith [sized.height]) length
  have start : RowsAt w h radius pix 0 0
      { state with window := { window with stackpointer := radius } } :=
    ⟨rows.rgb_length, rows.averaged, rows.vmin_length, rows.offsets,
      rows.yi, rows.yw⟩
  obtain ⟨failure, fails⟩ :=
    @forRange_error _ _ 0 w (rowStep w radius (table radius) pix 0)
      { state with window := { window with stackpointer := radius } }
      (fun x next => RowsAt w h radius pix x 0 next ∧
        next.window.At (rowValues w pix 0) radius x)
      (2147483648 - radius - 1) (by omega) (by omega) ⟨start, atZero⟩
      (fun x next low high holds => holds.1.step sized holds.2 low
        (by omega) le_rfl (by linarith [sized.height]) (by omega))
      (fun next holds => holds.1.step_error sized holds.2 (by omega)
        (by omega) (by omega))
  refine ⟨failure, ?_⟩
  simp only [row, fills, fails, bind, Except.bind]

end Rows

section Pass

variable {w h radius : ℤ} {pix : List Pixel}

/-- The state in front of the first row. -/
def firstRow (w h radius : ℤ) : Rows where
  window := ⟨List.replicate (2 * radius + 1).toNat fun _ => 0, 0,
    fun _ => 0, fun _ => 0, fun _ => 0⟩
  rgb := List.replicate (w * h).toNat fun _ => 0
  vmin := List.replicate (max w h).toNat 0
  yi := 0
  yw := 0

theorem rowsAt_firstRow (sized : Sized w h radius pix) :
    RowsAt w h radius pix 0 0 (firstRow w h radius) := by
  have area := sized.length
  have width := sized.width
  have start : place w 0 0 = 0 := by
    rw [place, zero_mul, add_zero]
  refine ⟨?_, ?_, ?_, ?_, start.symm, (zero_mul w).symm⟩
  · simp only [firstRow, List.length_replicate]
    omega
  · rw [start]
    exact writtenTo_zero _ _
  · simp only [firstRow, List.length_replicate]
    omega
  · rw [if_pos rfl]
    exact writtenTo_zero _ _

theorem length_firstRow (sized : Sized w h radius pix) :
    ((firstRow w h radius).window.stack.length : ℤ) = 2 * radius + 1 := by
  have positive := sized.moderate.positive
  simp only [firstRow, List.length_replicate]
  omega

theorem rows_ok (sized : Sized w h radius pix)
    (fits : w + radius < 2147483648) :
    ∃ rows, forRange 0 h (row w radius (table radius) pix)
        (firstRow w h radius) = .ok rows ∧
      RowsAt w h radius pix 0 h rows ∧
      (rows.window.stack.length : ℤ) = 2 * radius + 1 :=
  @forRange_ok _ _ 0 h _ (firstRow w h radius)
    (fun y rows => RowsAt w h radius pix 0 y rows ∧
      (rows.window.stack.length : ℤ) = 2 * radius + 1)
    (by linarith [sized.height])
    ⟨rowsAt_firstRow sized, length_firstRow sized⟩
    (fun _ _ above below holds =>
      holds.1.row_ok sized fits above below holds.2)

theorem rows_error (sized : Sized w h radius pix)
    (overflows : 2147483648 ≤ w + radius) :
    ∃ failure, forRange 0 h (row w radius (table radius) pix)
      (firstRow w h radius) = .error failure := by
  obtain ⟨failure, fails⟩ := (rowsAt_firstRow sized).row_error sized
    overflows (length_firstRow sized)
  have some := sized.height
  rw [forRange_of_lt (by omega), fails]
  exact ⟨failure, rfl⟩

end Pass

end DripStone.Blur
