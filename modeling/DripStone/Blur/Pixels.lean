import DripStone.Blur.StackBlur

/-!
# The channels of a pixel

The value of a channel is a byte, and packing three bytes gives a pixel with
these channels and with the old alpha byte.
-/

namespace DripStone.Blur

/-- A value of a channel. -/
def IsByte (value : Int) : Prop :=
  0 ≤ value ∧ value ≤ 255

/-! ## Taking a pixel apart -/

theorem toInt_sshiftRight {p : Pixel} (positive : p.toNat < 2147483648)
    (shift : Nat) :
    (p.sshiftRight shift).toInt = (p.toNat / 2 ^ shift : ℕ) := by
  have sign : p.msb = false := by
    rw [BitVec.msb_eq_false_iff_two_mul_lt]
    omega
  have smaller : p.toNat / 2 ^ shift ≤ p.toNat := Nat.div_le_self _ _
  have shifted : (p >>> shift).toNat = p.toNat / 2 ^ shift := by
    rw [BitVec.toNat_ushiftRight, Nat.shiftRight_eq_div_pow]
  rw [BitVec.sshiftRight_eq_of_msb_false sign,
    BitVec.toInt_eq_toNat_of_lt (by omega), shifted]

theorem toNat_and_le (p mask : Pixel) : (p &&& mask).toNat ≤ mask.toNat := by
  rw [BitVec.toNat_and]
  exact Nat.and_le_right

theorem isByte_rgbOf (p : Pixel) (channel : Channel) :
    IsByte (rgbOf p channel) := by
  cases channel with
  | red =>
      have masked : _ ≤ 0xff0000 := toNat_and_le p 0xff0000#32
      rw [rgbOf, toInt_sshiftRight (by omega)]
      constructor <;> omega
  | green =>
      have masked : _ ≤ 0x00ff00 := toNat_and_le p 0x00ff00#32
      rw [rgbOf, toInt_sshiftRight (by omega)]
      constructor <;> omega
  | blue =>
      have masked : _ ≤ 0x0000ff := toNat_and_le p 0x0000ff#32
      rw [rgbOf, BitVec.toInt_eq_toNat_of_lt (by omega)]
      constructor <;> omega

/-! ## Packing the channels -/

section Pack

variable (p : Pixel) (red green blue : BitVec 8)

/-- `pack` for channels that are bytes. -/
def packBytes : Pixel :=
  (0xff000000#32 &&& p) ||| red.setWidth 32 <<< 16 |||
    green.setWidth 32 <<< 8 ||| blue.setWidth 32

theorem packBytes_and_red :
    packBytes p red green blue &&& 0xff0000#32 = red.setWidth 32 <<< 16 := by
  ext i inside
  interval_cases i <;> simp [packBytes]

theorem packBytes_and_green :
    packBytes p red green blue &&& 0x00ff00#32 = green.setWidth 32 <<< 8 := by
  ext i inside
  interval_cases i <;> simp [packBytes]

theorem packBytes_and_blue :
    packBytes p red green blue &&& 0x0000ff#32 = blue.setWidth 32 := by
  ext i inside
  interval_cases i <;> simp [packBytes]

theorem packBytes_and_alpha :
    packBytes p red green blue &&& 0xff000000#32 = p &&& 0xff000000#32 := by
  ext i inside
  interval_cases i <;> simp [packBytes]

end Pack

theorem toInt_setWidth_shiftLeft (byte : BitVec 8) {shift : Nat}
    (small : shift ≤ 16) :
    ((byte.setWidth 32 <<< shift).sshiftRight shift).toInt = byte.toNat := by
  have bound : byte.toNat < 256 := byte.isLt
  have factor : 2 ^ shift ≤ 2 ^ 16 := Nat.pow_le_pow_right (by omega) small
  have product : byte.toNat * 2 ^ shift ≤ 255 * 2 ^ 16 :=
    Nat.mul_le_mul (by omega) factor
  have shifted : (byte.setWidth 32 <<< shift).toNat =
      byte.toNat * 2 ^ shift := by
    rw [BitVec.toNat_shiftLeft, BitVec.toNat_setWidth_of_le (by omega),
      Nat.shiftLeft_eq, Nat.mod_eq_of_lt (by omega)]
  rw [toInt_sshiftRight (by omega), shifted,
    Nat.mul_div_cancel _ (Nat.two_pow_pos shift)]

theorem ofInt_of_isByte {value : Int} (isByte : IsByte value) :
    BitVec.ofInt 32 value = (BitVec.ofInt 8 value).setWidth 32 ∧
      ((BitVec.ofInt 8 value).toNat : ℤ) = value := by
  obtain ⟨low, high⟩ := isByte
  obtain ⟨byte, rfl⟩ := Int.eq_ofNat_of_zero_le low
  have small : byte % 256 = byte := Nat.mod_eq_of_lt (by omega)
  constructor
  · apply BitVec.eq_of_toNat_eq
    simp
    omega
  · simp
    omega

section PackRgb

variable {rgb : Rgb} (bytes : ∀ channel, IsByte (rgb channel)) (p : Pixel)
include bytes

theorem pack_eq :
    pack p rgb = packBytes p (BitVec.ofInt 8 (rgb .red))
      (BitVec.ofInt 8 (rgb .green)) (BitVec.ofInt 8 (rgb .blue)) := by
  rw [pack, (ofInt_of_isByte (bytes .red)).1,
    (ofInt_of_isByte (bytes .green)).1, (ofInt_of_isByte (bytes .blue)).1]
  rfl

theorem rgbOf_pack : rgbOf (pack p rgb) = rgb := by
  funext channel
  have byte := (ofInt_of_isByte (bytes channel)).2
  rw [pack_eq bytes]
  cases channel with
  | red =>
      rw [rgbOf, packBytes_and_red, toInt_setWidth_shiftLeft _ le_rfl, byte]
  | green =>
      rw [rgbOf, packBytes_and_green, toInt_setWidth_shiftLeft _ (by omega),
        byte]
  | blue =>
      have unshifted := toInt_setWidth_shiftLeft
        (BitVec.ofInt 8 (rgb .blue)) (Nat.zero_le 16)
      rw [BitVec.shiftLeft_zero, BitVec.sshiftRight_zero] at unshifted
      rw [rgbOf, packBytes_and_blue, unshifted, byte]

theorem pack_and_alpha :
    pack p rgb &&& 0xff000000#32 = p &&& 0xff000000#32 := by
  rw [pack_eq bytes, packBytes_and_alpha]

end PackRgb

end DripStone.Blur
