import DripStone.Library.IntLoop

/-!
# The stack blur

Two passes over the image, along the rows and along the columns.  Each keeps
the last `2 * radius + 1` pixels in a ring and updates three sums for each
channel instead of adding up the window of each pixel.
-/

namespace DripStone.Blur

open DripStone.Library

/-! ## Pixels -/

abbrev Pixel := BitVec 32

inductive Channel where
  | red
  | green
  | blue
deriving DecidableEq, Repr

/-- A value for each channel: an entry of `stack`, or `rsum, gsum, bsum`. -/
abbrev Rgb := Channel → Int

/-- `(p & 0xff0000) >> 16`, `(p & 0x00ff00) >> 8` and `p & 0x0000ff` -/
def rgbOf (p : Pixel) : Rgb
  | .red => ((p &&& 0xff0000#32).sshiftRight 16).toInt
  | .green => ((p &&& 0x00ff00#32).sshiftRight 8).toInt
  | .blue => (p &&& 0x0000ff#32).toInt

/-- `0xff000000 & p`, with the three channels in place. -/
def pack (p : Pixel) (rgb : Rgb) : Pixel :=
  (0xff000000#32 &&& p) ||| BitVec.ofInt 32 (rgb .red) <<< 16 |||
    BitVec.ofInt 32 (rgb .green) <<< 8 ||| BitVec.ofInt 32 (rgb .blue)

namespace Rgb

def add (first second : Rgb) : Rgb :=
  fun channel => wrapInt (first channel + second channel)

def sub (first second : Rgb) : Rgb :=
  fun channel => wrapInt (first channel - second channel)

def mul (rgb : Rgb) (factor : Int) : Rgb :=
  fun channel => wrapInt (rgb channel * factor)

/-- One array access for each channel. -/
def ofReads (get : Channel → Except ArrayError Int) :
    Except ArrayError Rgb := do
  let red ← get .red
  let green ← get .green
  let blue ← get .blue
  pure fun
    | .red => red
    | .green => green
    | .blue => blue

end Rgb

/-! ## The ring and the sums -/

/-- `stack` and `stackpointer`, and `rsum`, `rinsum`, `routsum` with those of
the other channels. -/
structure Window where
  stack : List Rgb
  stackpointer : Int
  sum : Rgb
  insum : Rgb
  outsum : Rgb

namespace Window

def reset (window : Window) : Window :=
  { window with sum := fun _ => 0, insum := fun _ => 0, outsum := fun _ => 0 }

/-- The pixel at the distance `i` of the first pixel of the line. -/
def fill (radius i : Int) (sir : Rgb) (window : Window) :
    Except ArrayError Window := do
  let stack ← arrayWrite window.stack (wrapInt (i + radius)) sir
  let rbs := wrapInt (wrapInt (radius + 1) - |i|)
  let sum := window.sum.add (sir.mul rbs)
  if 0 < i then
    pure { window with stack, sum, insum := window.insum.add sir }
  else
    pure { window with stack, sum, outsum := window.outsum.add sir }

/-- The pixel behind the window leaves the sums; its place in the ring. -/
def leave (radius div : Int) (window : Window) :
    Except ArrayError (Int × Window) := do
  let stackstart := wrapInt (window.stackpointer - radius + div)
  let sir ← arrayRead window.stack (stackstart.tmod div)
  pure (stackstart.tmod div, { window with
    sum := window.sum.sub window.outsum
    outsum := window.outsum.sub sir })

/-- The pixel in front of the window enters at this place. -/
def enter (div place : Int) (sir : Rgb) (window : Window) :
    Except ArrayError Window := do
  let stack ← arrayWrite window.stack place sir
  let insum := window.insum.add sir
  let stackpointer := (wrapInt (window.stackpointer + 1)).tmod div
  -- the first pass takes the pointer modulo `div` once more
  let sir ← arrayRead stack stackpointer
  pure {
    stack
    stackpointer
    sum := window.sum.add insum
    insum := insum.sub sir
    outsum := window.outsum.add sir }

end Window

/-- `if (line == 0) vmin[index] = offset` -/
def setOffset (line index offset : Int) (vmin : List Int) :
    Except ArrayError (List Int) :=
  if line = 0 then arrayWrite vmin index offset else pure vmin

section Passes

variable (w h radius : Int)

def div : Int := wrapInt (radius + radius + 1)

/-- `divsum = (div + 1) >> 1; divsum *= divsum` -/
def divsum : Int :=
  let half := wrapInt (div radius + 1) / 2
  wrapInt (half * half)

/-- `dv[i] = i / divsum` for `0 ≤ i < 256 * divsum` -/
def quotients : Except ArrayError (List Int) :=
  (newArray (wrapInt (256 * divsum radius)) 0).map fun zeros =>
    zeros.mapIdx fun i _ => (i : Int) / divsum radius

variable (dv : List Int)

def average (sum : Rgb) : Except ArrayError Rgb :=
  Rgb.ofReads fun channel => arrayRead dv (sum channel)

/-! ## The rows -/

structure Rows where
  window : Window
  -- the arrays `r`, `g` and `b`
  rgb : List Rgb
  vmin : List Int
  yi : Int
  yw : Int

def rowFill (pix : List Pixel) (yi i : Int) (window : Window) :
    Except ArrayError Window := do
  let p ← arrayRead pix (wrapInt (yi + min (wrapInt (w - 1)) (max i 0)))
  window.fill radius i (rgbOf p)

def rowStep (pix : List Pixel) (y x : Int) (state : Rows) :
    Except ArrayError Rows := do
  let averaged ← average dv state.window.sum
  let rgb ← arrayWrite state.rgb state.yi averaged
  let (place, window) ← state.window.leave radius (div radius)
  let vmin ← setOffset y x
    (min (wrapInt (x + radius + 1)) (wrapInt (w - 1))) state.vmin
  let offset ← arrayRead vmin x
  let p ← arrayRead pix (wrapInt (state.yw + offset))
  let window ← window.enter (div radius) place (rgbOf p)
  pure { window, rgb, vmin, yi := wrapInt (state.yi + 1), yw := state.yw }

def row (pix : List Pixel) (y : Int) (state : Rows) :
    Except ArrayError Rows := do
  let window ← forRange (-radius) (radius + 1)
    (rowFill w radius pix state.yi) state.window.reset
  let state ← forRange 0 w (rowStep w radius dv pix y) { state with
    window := { window with stackpointer := radius } }
  pure { state with yw := wrapInt (state.yw + w) }

/-! ## The columns -/

structure Columns where
  window : Window
  pix : List Pixel
  vmin : List Int
  yi : Int

/-- The state is the window and `yp`. -/
def columnFill (rgb : List Rgb) (x i : Int) (state : Window × Int) :
    Except ArrayError (Window × Int) := do
  let sir ← arrayRead rgb (wrapInt (max 0 state.2 + x))
  let window ← state.1.fill radius i sir
  pure (window,
    if i < wrapInt (h - 1) then wrapInt (state.2 + w) else state.2)

def columnStep (rgb : List Rgb) (x y : Int) (state : Columns) :
    Except ArrayError Columns := do
  let p ← arrayRead state.pix state.yi
  let averaged ← average dv state.window.sum
  let pix ← arrayWrite state.pix state.yi (pack p averaged)
  let (place, window) ← state.window.leave radius (div radius)
  let vmin ← setOffset x y (wrapInt
    (min (wrapInt (y + wrapInt (radius + 1))) (wrapInt (h - 1)) * w))
    state.vmin
  let offset ← arrayRead vmin y
  let sir ← arrayRead rgb (wrapInt (x + offset))
  let window ← window.enter (div radius) place sir
  pure { window, pix, vmin, yi := wrapInt (state.yi + w) }

def column (rgb : List Rgb) (x : Int) (state : Columns) :
    Except ArrayError Columns := do
  let (window, _) ← forRange (-radius) (radius + 1)
    (columnFill w h radius rgb x)
    (state.window.reset, wrapInt (-radius * w))
  forRange 0 h (columnStep w h radius dv rgb x) { state with
    window := { window with stackpointer := radius }
    yi := x }

/-! ## `BlurUtils.blur` -/

def stackBlur (pix : List Pixel) : Except ArrayError (List Pixel) := do
  let rgb ← newArray (wrapInt (w * h)) fun _ => 0
  let vmin ← newArray (max w h) 0
  let dv ← quotients radius
  let stack ← newArray (div radius) fun _ => 0
  let rows ← forRange 0 h (row w radius dv pix) {
    window := ⟨stack, 0, fun _ => 0, fun _ => 0, fun _ => 0⟩
    rgb
    vmin
    yi := 0
    yw := 0 }
  let columns ← forRange 0 w (column w h radius dv rows.rgb) {
    window := rows.window
    pix
    vmin := rows.vmin
    yi := rows.yi }
  pure columns.pix

end Passes

/-- A bitmap with its pixels row by row. -/
structure Bitmap where
  width : Int
  height : Int
  pixels : List Pixel
  width_pos : 1 ≤ width
  height_pos : 1 ≤ height
  length_pixels : (pixels.length : Int) = width * height

/-- The pixels of the bitmap that is returned, without a value for `null`. -/
def blur (toTransform : Bitmap) (radius : Int) :
    Except ArrayError (Option (List Pixel)) :=
  if radius < 1 then .ok none
  else
    (stackBlur toTransform.width toTransform.height radius
      toTransform.pixels).map some

end DripStone.Blur
