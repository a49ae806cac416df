import DripStone.Blur.Columns

/-!
# The blurred image

The blur is the average along the columns of the averages along the rows, as
long as the offsets in front of the window are `int` values.
-/

namespace DripStone.Blur

open DripStone.Library

section Runs

variable {w h radius : ℤ} {pix : List Pixel}

theorem Sized.stackBlur_eq (sized : Sized w h radius pix) :
    stackBlur w h radius pix =
      (forRange 0 h (row w radius (table radius) pix)
        (firstRow w h radius)).bind fun rows =>
          (forRange 0 w (column w h radius (table radius) rows.rgb)
            { window := rows.window, pix, vmin := rows.vmin,
              yi := rows.yi }).bind fun columns => .ok columns.pix := by
  have positive := sized.moderate.positive
  have length := sized.length
  have area := sized.area
  have width := sized.width
  have size : wrapInt (w * h) = w * h :=
    wrapInt_of_range (by omega) (by omega)
  simp only [stackBlur, size, sized.moderate.div_eq,
    newArray_eq (show 0 ≤ w * h by omega),
    newArray_eq (show 0 ≤ max w h by omega),
    newArray_eq (show 0 ≤ 2 * radius + 1 by omega),
    quotients_eq sized.moderate, bind, Except.bind]
  rfl

theorem stackBlur_ok (sized : Sized w h radius pix)
    (fitsRow : w + radius < 2147483648)
    (fitsColumn : h + radius < 2147483648) :
    ∃ columns, stackBlur w h radius pix = .ok columns.pix ∧
      ColumnsAt w h radius pix w 0 columns := by
  obtain ⟨rows, runs, atEnd, length⟩ := rows_ok sized fitsRow
  obtain ⟨columns, runsOn, atLast, -⟩ :=
    @forRange_ok _ _ 0 w (column w h radius (table radius) rows.rgb)
      { window := rows.window, pix, vmin := rows.vmin, yi := rows.yi }
      (fun x next => ColumnsAt w h radius pix x 0 next ∧
        (next.window.stack.length : ℤ) = 2 * radius + 1)
      (by linarith [sized.width])
      ⟨columnsAt_start sized atEnd, length⟩
      (fun x next low high holds => holds.1.column_ok sized
        (atEnd.hasRows sized) fitsColumn low high holds.2)
  refine ⟨columns, ?_, atLast⟩
  rw [sized.stackBlur_eq, runs]
  simp only [Except.bind, runsOn]

/-- A column that is too high is the only one. -/
theorem stackBlur_error (sized : Sized w h radius pix)
    (overflows : 2147483648 ≤ w + radius ∨ 2147483648 ≤ h + radius) :
    ∃ failure, stackBlur w h radius pix = .error failure := by
  by_cases fitsRow : w + radius < 2147483648
  · have tooHigh : 2147483648 ≤ h + radius := by omega
    have single : w = 1 := by
      have width := sized.width
      have area := sized.area
      have limited := sized.moderate.small
      by_contra several
      have rows : 2 * h ≤ w * h :=
        mul_le_mul_of_nonneg_right (by omega) (by omega)
      omega
    subst single
    obtain ⟨rows, runs, atEnd, length⟩ := rows_ok sized fitsRow
    obtain ⟨failure, fails⟩ := (columnsAt_start sized atEnd).column_error
      sized (atEnd.hasRows sized) tooHigh length
    refine ⟨failure, ?_⟩
    rw [sized.stackBlur_eq, runs]
    simp only [Except.bind]
    rw [forRange_of_lt (by omega), fails]
    rfl
  · obtain ⟨failure, fails⟩ := rows_error sized (by omega)
    rw [sized.stackBlur_eq, fails]
    exact ⟨failure, rfl⟩

end Runs

/-- Each channel is averaged along the rows and then along the columns, each
average rounded down; the alpha byte stays. -/
structure Blurred (image : Bitmap) (radius : ℤ) (blurred : List Pixel) :
    Prop where
  length : blurred.length = image.pixels.length
  channels : ∀ x y, 0 ≤ x → x < image.width → 0 ≤ y → y < image.height →
    rgbOf (pixelAt image.width blurred x y) =
      vertical image.width image.height radius image.pixels x y
  alpha : ∀ x y, 0 ≤ x → x < image.width → 0 ≤ y → y < image.height →
    pixelAt image.width blurred x y &&& 0xff000000#32 =
      pixelAt image.width image.pixels x y &&& 0xff000000#32

theorem ColumnsAt.isBlurred {image : Bitmap} {radius : ℤ} {columns : Columns}
    (atEnd : ColumnsAt image.width image.height radius image.pixels
      image.width 0 columns) (moderate : Moderate radius) :
    Blurred image radius columns.pix := by
  have packed : ∀ x y, 0 ≤ x → x < image.width → 0 ≤ y → y < image.height →
      pixelAt image.width columns.pix x y =
        pack (pixelAt image.width image.pixels x y)
          (vertical image.width image.height radius image.pixels x y) := by
    intro x y low high above below
    have found := getElem?_of_arrayRead
      (atEnd.blurred x y low high above below)
    rw [if_pos (Or.inl high)] at found
    rw [pixelAt, List.getD_eq_getElem?_getD, found, Option.getD_some]
  have bytes : ∀ x y channel, IsByte
      (vertical image.width image.height radius image.pixels x y channel) :=
    fun x y => isByte_averageAt moderate (isByte_columnValues moderate)
  refine ⟨?_, ?_, ?_⟩
  · have length := atEnd.pix_length
    rw [← image.length_pixels] at length
    omega
  · intro x y low high above below
    rw [packed x y low high above below, rgbOf_pack (bytes x y)]
  · intro x y low high above below
    rw [packed x y low high above below, pack_and_alpha (bytes x y)]

theorem Bitmap.sized (image : Bitmap) {radius : ℤ} (positive : 1 ≤ radius)
    (area : image.width * image.height < 2147483648)
    (above : radius * image.width < 2147483648)
    (table : 256 * (radius + 1) ^ 2 < 2147483648) :
    Sized image.width image.height radius image.pixels :=
  ⟨image.width_pos, image.height_pos, image.length_pixels, area, above,
    positive, table⟩

theorem blur_eq (image : Bitmap) {radius : ℤ} (positive : 1 ≤ radius) :
    blur image radius = (stackBlur image.width image.height radius
      image.pixels).map some :=
  if_neg (by omega)

/-- The blur fails where an offset in front of the window overflows. -/
theorem blur_of_overflow (image : Bitmap) {radius : ℤ}
    (sized : Sized image.width image.height radius image.pixels)
    (overflows : 2147483648 ≤ image.width + radius ∨
      2147483648 ≤ image.height + radius) :
    ∃ failure, blur image radius = .error failure := by
  obtain ⟨failure, fails⟩ := stackBlur_error sized overflows
  rw [blur_eq image sized.moderate.positive, fails]
  exact ⟨failure, rfl⟩

theorem blur_iff (image : Bitmap) {radius : ℤ} (positive : 1 ≤ radius)
    (area : image.width * image.height < 2147483648)
    (above : radius * image.width < 2147483648)
    (table : 256 * (radius + 1) ^ 2 < 2147483648) :
    (∃ blurred, blur image radius = .ok (some blurred) ∧
      Blurred image radius blurred) ↔
    image.width + radius < 2147483648 ∧
      image.height + radius < 2147483648 := by
  have sized := image.sized positive area above table
  constructor
  · intro result
    obtain ⟨blurred, isBlur, -⟩ := result
    by_contra tooLong
    obtain ⟨failure, fails⟩ := blur_of_overflow image sized (by omega)
    rw [fails] at isBlur
    cases isBlur
  · intro fits
    obtain ⟨columns, isBlur, atEnd⟩ := stackBlur_ok sized fits.1 fits.2
    refine ⟨columns.pix, ?_, atEnd.isBlurred sized.moderate⟩
    rw [blur_eq image positive, isBlur]
    rfl

/-- One white pixel next to a black one. -/
def twoPixels : Bitmap where
  width := 2
  height := 1
  pixels := [0xffffffff#32, 0xff000000#32]
  width_pos := by decide
  height_pos := by decide
  length_pixels := by decide

theorem blur_twoPixels : ∃ blurred, blur twoPixels 3 = .ok (some blurred) ∧
    Blurred twoPixels 3 blurred :=
  (blur_iff twoPixels (by decide) (by decide) (by decide) (by decide)).mpr
    ⟨by decide, by decide⟩

/-- One column of pixels. -/
def tallImage : Bitmap where
  width := 1
  height := 2147483645
  pixels := List.replicate 2147483645 0
  width_pos := by decide
  height_pos := by decide
  length_pixels := by
    rw [List.length_replicate]
    rfl

theorem tallImage_fails :
    (tallImage.width * tallImage.height < 2147483648 ∧
      3 * tallImage.width < 2147483648 ∧
      256 * (3 + 1 : ℤ) ^ 2 < 2147483648) ∧
    ¬ ∃ blurred, blur tallImage 3 = .ok (some blurred) ∧
      Blurred tallImage 3 blurred := by
  have sized := tallImage.sized (by decide : (1 : ℤ) ≤ 3) (by decide)
    (by decide) (by decide)
  obtain ⟨failure, fails⟩ := blur_of_overflow tallImage sized
    (Or.inr (by decide))
  refine ⟨⟨by decide, by decide, by decide⟩, ?_⟩
  intro result
  obtain ⟨blurred, isBlur, -⟩ := result
  rw [fails] at isBlur
  cases isBlur

end DripStone.Blur
