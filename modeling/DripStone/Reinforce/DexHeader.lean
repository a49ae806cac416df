import DripStone.Library.JavaText
import DripStone.Library.ListParts

/-!
# The header of a dex file

Each field of the header lies in the range that a later field is computed
from: the size in that of the signature, both in that of the checksum.  They
are therefore written from the back to the front.
-/

namespace DripStone.Reinforce

open DripStone.Library

/-! ## `Utils` -/

/-- A Java array of bytes. -/
abbrev ByteArray := { bytes : List JByte // bytes.length < 2 ^ 31 }

inductive Failure where
  | arrayIndexOutOfBoundsException
  | illegalArgumentException
deriving DecidableEq, Repr

/-- SHA-1 and Adler-32 of the platform. -/
structure Digests where
  sha1 : List JByte → List JByte
  adler32 : List JByte → BitVec 64
  length_sha1 : ∀ input, (sha1 input).length = 20

/-- `(byte) ((value >> shift) & 0xFF)` -/
def byteAt (value : JInt) (shift : Nat) : JByte :=
  ((value.sshiftRight shift) &&& 0xFF).setWidth 8

/-- `src & 0xFF` -/
def unsigned (src : JByte) : JInt := src.signExtend 32 &&& 0xFF

def int2Bytes (value : JInt) : List JByte :=
  [byteAt value 0, byteAt value 8, byteAt value 16, byteAt value 24]

def bytes2Int (src : List JByte) : Except ArrayFailure JInt := do
  let first ← arrayGet src 0
  let second ← arrayGet src 1
  let third ← arrayGet src 2
  let fourth ← arrayGet src 3
  pure (unsigned first ||| unsigned second <<< 8 |||
    unsigned third <<< 16 ||| unsigned fourth <<< 24)

/-- `System.arraycopy(src, 0, dest, destPos, length)` -/
def arraycopy (src dest : List JByte) (destPos length : Nat) :
    Except Failure (List JByte) :=
  if length ≤ src.length ∧ destPos + length ≤ dest.length then
    .ok (overwrite dest destPos (src.take length))
  else .error .arrayIndexOutOfBoundsException

/-- The bytes that `update(newDex, offset, newDex.length - offset)` takes. -/
def update (newDex : List JByte) (offset : Nat) :
    Except Failure (List JByte) :=
  if offset ≤ newDex.length then .ok (newDex.drop offset)
  else .error .illegalArgumentException

def changeFileSize (newDex : List JByte) : Except Failure (List JByte) :=
  arraycopy (int2Bytes (BitVec.ofNat 32 newDex.length)) newDex 32 4

variable (digests : Digests)

def changeSignature (newDex : List JByte) :
    Except Failure (List JByte) := do
  let input ← update newDex 32
  arraycopy (digests.sha1 input) newDex 12 20

def changeCheckSum (newDex : List JByte) :
    Except Failure (List JByte) := do
  let input ← update newDex 12
  let value := (digests.adler32 input).setWidth 32
  arraycopy (int2Bytes value) newDex 8 4

def changeHeader (newDex : List JByte) : Except Failure (List JByte) := do
  let sized ← changeFileSize newDex
  let signed ← changeSignature digests sized
  changeCheckSum digests signed

/-! ## Little-endian bytes -/

/-- The lowest four bytes of a number, the least significant first. -/
def littleEndian (value : Nat) : List JByte :=
  [0, 8, 16, 24].map fun shift => BitVec.ofNat 8 (value / 2 ^ shift)

theorem setWidth_and_mask (value : JInt) :
    (value &&& 0xFF).setWidth 8 = value.setWidth 8 := by
  apply BitVec.eq_of_toNat_eq
  have masked := Nat.and_two_pow_sub_one_eq_mod value.toNat 8
  simp only [BitVec.toNat_setWidth, BitVec.toNat_and]
  have mask : BitVec.toNat (255 : BitVec 32) = 2 ^ 8 - 1 := rfl
  rw [mask, masked]
  omega

theorem byteAt_eq (value : JInt) {shift : Nat} (inside : shift + 8 ≤ 32) :
    byteAt value shift = BitVec.ofNat 8 (value.toNat / 2 ^ shift) := by
  rw [byteAt, setWidth_and_mask]
  apply BitVec.eq_of_getLsbD_eq
  intro i inByte
  have source : shift + i < 32 := by omega
  have notBehind : ¬ 32 ≤ i := by omega
  rw [BitVec.getLsbD_setWidth, BitVec.getLsbD_sshiftRight,
    BitVec.getLsbD_ofNat, Nat.testBit_div_two_pow]
  simp [source, notBehind, inByte, Nat.add_comm, BitVec.testBit_toNat]

theorem int2Bytes_eq (value : JInt) :
    int2Bytes value = littleEndian value.toNat := by
  simp only [int2Bytes, littleEndian, List.map_cons, List.map_nil]
  rw [byteAt_eq value (by decide), byteAt_eq value (by decide),
    byteAt_eq value (by decide), byteAt_eq value (by decide)]

theorem unsigned_eq : ∀ src : JByte, unsigned src = src.setWidth 32 := by
  decide

theorem toNat_unsigned (src : JByte) :
    (unsigned src).toNat = src.toNat := by
  have small := src.isLt
  rw [unsigned_eq, BitVec.toNat_setWidth]
  omega

theorem toNat_unsigned_shiftLeft (src : JByte) {shift : Nat}
    (inside : shift + 8 ≤ 32) :
    (unsigned src <<< shift).toNat = 2 ^ shift * src.toNat := by
  have small := src.isLt
  have bound : src.toNat * 2 ^ shift < 2 ^ 32 := by
    calc src.toNat * 2 ^ shift < 2 ^ 8 * 2 ^ shift :=
          Nat.mul_lt_mul_of_pos_right small (Nat.two_pow_pos shift)
      _ = 2 ^ (8 + shift) := (Nat.pow_add 2 8 shift).symm
      _ ≤ 2 ^ 32 := Nat.pow_le_pow_right (by decide) (by omega)
  rw [BitVec.toNat_shiftLeft, toNat_unsigned, Nat.shiftLeft_eq,
    Nat.mod_eq_of_lt bound, Nat.mul_comm]

/-- `bytes2Int` reads the bytes as a little-endian number. -/
theorem bytes2Int_eq (first second third fourth : JByte) :
    bytes2Int [first, second, third, fourth] =
      .ok (BitVec.ofNat 32 (first.toNat + 2 ^ 8 * second.toNat +
        2 ^ 16 * third.toNat + 2 ^ 24 * fourth.toNat)) := by
  have smallFirst := first.isLt
  have smallSecond := second.isLt
  have smallThird := third.isLt
  have smallFourth := fourth.isLt
  have read : bytes2Int [first, second, third, fourth] =
      .ok (unsigned first ||| unsigned second <<< 8 |||
        unsigned third <<< 16 ||| unsigned fourth <<< 24) := rfl
  rw [read]
  congr 1
  apply BitVec.eq_of_toNat_eq
  -- the bytes do not overlap, so that "or" adds them
  rw [BitVec.toNat_or, BitVec.toNat_or, BitVec.toNat_or, toNat_unsigned,
    toNat_unsigned_shiftLeft _ (by decide),
    toNat_unsigned_shiftLeft _ (by decide),
    toNat_unsigned_shiftLeft _ (by decide), Nat.or_comm first.toNat,
    ← Nat.two_pow_add_eq_or_of_lt (by omega),
    Nat.or_comm (_ + first.toNat),
    ← Nat.two_pow_add_eq_or_of_lt (by omega),
    Nat.or_comm (_ + (_ + first.toNat)),
    ← Nat.two_pow_add_eq_or_of_lt (by omega), BitVec.toNat_ofNat]
  omega

theorem bytes2Int_int2Bytes (value : JInt) :
    bytes2Int (int2Bytes value) = .ok value := by
  have small := value.isLt
  rw [int2Bytes_eq, littleEndian]
  simp only [List.map_cons, List.map_nil]
  rw [bytes2Int_eq]
  congr 1
  apply BitVec.eq_of_toNat_eq
  simp only [BitVec.toNat_ofNat]
  omega

theorem int2Bytes_bytes2Int {src : List JByte} (four : src.length = 4) :
    (bytes2Int src).map int2Bytes = .ok src := by
  obtain ⟨first, second, third, fourth, rfl⟩ :=
    List.length_eq_four.mp four
  have smallFirst := first.isLt
  have smallSecond := second.isLt
  have smallThird := third.isLt
  have smallFourth := fourth.isLt
  rw [bytes2Int_eq, Except.map, int2Bytes_eq]
  congr 1
  simp only [littleEndian, List.map_cons, List.map_nil, List.cons.injEq,
    and_true]
  refine ⟨?_, ?_, ?_, ?_⟩ <;> apply BitVec.eq_of_toNat_eq <;>
    simp only [BitVec.toNat_ofNat] <;> omega

/-! ## The three steps -/

/-- The header fields of a dex file that was `before`. -/
structure HeaderRepaired (before after : List JByte) : Prop where
  sameLength : after.length = before.length
  fileSize : slice after 32 4 = littleEndian before.length
  readBack : bytes2Int (slice after 32 4) =
    .ok (BitVec.ofNat 32 before.length)
  signature : slice after 12 20 = digests.sha1 (after.drop 32)
  checkSum : slice after 8 4 =
    littleEndian (digests.adler32 (after.drop 12)).toNat
  kept : ∀ index, index < 8 ∨ 36 ≤ index → after[index]? = before[index]?

variable {digests}

theorem arraycopy_eq {src dest : List JByte} {destPos length : Nat}
    (whole : src.length = length) (fits : destPos + length ≤ dest.length) :
    arraycopy src dest destPos length = .ok (overwrite dest destPos src) := by
  rw [arraycopy, if_pos ⟨whole.ge, fits⟩, List.take_of_length_le whole.le]

theorem length_int2Bytes (value : JInt) : (int2Bytes value).length = 4 := rfl

theorem changeFileSize_eq {newDex : List JByte}
    (long : 36 ≤ newDex.length) :
    changeFileSize newDex = .ok (overwrite newDex 32
      (int2Bytes (BitVec.ofNat 32 newDex.length))) :=
  arraycopy_eq (length_int2Bytes _) (by omega)

theorem changeSignature_eq {newDex : List JByte}
    (long : 36 ≤ newDex.length) :
    changeSignature digests newDex = .ok (overwrite newDex 12
      (digests.sha1 (newDex.drop 32))) := by
  have input : update newDex 32 = .ok (newDex.drop 32) :=
    if_pos (by omega)
  rw [changeSignature, input]
  exact arraycopy_eq (digests.length_sha1 _) (by omega)

theorem changeCheckSum_eq {newDex : List JByte}
    (long : 36 ≤ newDex.length) :
    changeCheckSum digests newDex = .ok (overwrite newDex 8
      (int2Bytes ((digests.adler32 (newDex.drop 12)).setWidth 32))) := by
  have input : update newDex 12 = .ok (newDex.drop 12) :=
    if_pos (by omega)
  rw [changeCheckSum, input]
  exact arraycopy_eq (length_int2Bytes _) (by omega)

/-- A number and its lowest 32 bits have the same four bytes. -/
theorem littleEndian_setWidth (value : BitVec 64) :
    littleEndian (value.setWidth 32).toNat = littleEndian value.toNat := by
  simp only [littleEndian, List.map_cons, List.map_nil, List.cons.injEq,
    and_true, BitVec.toNat_setWidth]
  refine ⟨?_, ?_, ?_, ?_⟩ <;> apply BitVec.eq_of_toNat_eq <;>
    simp only [BitVec.toNat_ofNat] <;> omega

/-- Each step leaves the fields of the steps before it as they are. -/
theorem headerRepaired_of_overwrites {newDex size sha1 sum : List JByte}
    (long : 36 ≤ newDex.length) (fourSize : size.length = 4)
    (twenty : sha1.length = 20) (fourSum : sum.length = 4)
    {sized signed repaired : List JByte}
    (isSized : sized = overwrite newDex 32 size)
    (isSigned : signed = overwrite sized 12 sha1)
    (isRepaired : repaired = overwrite signed 8 sum) :
    repaired.length = newDex.length ∧ slice repaired 32 4 = size ∧
      slice repaired 12 20 = sha1 ∧ slice repaired 8 4 = sum ∧
      repaired.drop 32 = sized.drop 32 ∧ repaired.drop 12 = signed.drop 12 ∧
      ∀ index, index < 8 ∨ 36 ≤ index →
        repaired[index]? = newDex[index]? := by
  have fitsSize : 32 + size.length ≤ newDex.length := by omega
  have lengthSized := length_overwrite fitsSize
  rw [← isSized] at lengthSized
  have fitsSha1 : 12 + sha1.length ≤ sized.length := by omega
  have lengthSigned := length_overwrite fitsSha1
  rw [← isSigned] at lengthSigned
  have fitsSum : 8 + sum.length ≤ signed.length := by omega
  have lengthRepaired := length_overwrite fitsSum
  rw [← isRepaired] at lengthRepaired
  refine ⟨by omega, ?_, ?_, ?_, ?_, ?_, ?_⟩
  · rw [isRepaired, slice_overwrite_of_le fitsSum (by omega), isSigned,
      slice_overwrite_of_le fitsSha1 (by omega), isSized, ← fourSize]
    exact slice_overwrite_self fitsSize
  · rw [isRepaired, slice_overwrite_of_le fitsSum (by omega), isSigned,
      ← twenty]
    exact slice_overwrite_self fitsSha1
  · rw [isRepaired, ← fourSum]
    exact slice_overwrite_self fitsSum
  · rw [isRepaired, drop_overwrite_of_le fitsSum (by omega), isSigned,
      drop_overwrite_of_le fitsSha1 (by omega)]
  · rw [isRepaired, drop_overwrite_of_le fitsSum (by omega)]
  · intro index outside
    rw [isRepaired, getElem?_overwrite_of_outside fitsSum (by omega),
      isSigned, getElem?_overwrite_of_outside fitsSha1 (by omega), isSized,
      getElem?_overwrite_of_outside fitsSize (by omega)]

theorem changeHeader_spec {newDex : List JByte}
    (long : 36 ≤ newDex.length) (short : newDex.length < 2 ^ 31) :
    ∃ repaired, changeHeader digests newDex = .ok repaired ∧
      HeaderRepaired digests newDex repaired := by
  have lengthSized : (overwrite newDex 32
      (int2Bytes (BitVec.ofNat 32 newDex.length))).length =
        newDex.length := length_overwrite long
  obtain ⟨sized, isSized⟩ : ∃ sized, sized = overwrite newDex 32
    (int2Bytes (BitVec.ofNat 32 newDex.length)) := ⟨_, rfl⟩
  rw [← isSized] at lengthSized
  obtain ⟨signed, isSigned⟩ : ∃ signed, signed = overwrite sized 12
    (digests.sha1 (sized.drop 32)) := ⟨_, rfl⟩
  have fitsSha1 : 12 + (digests.sha1 (sized.drop 32)).length ≤
      sized.length := by
    rw [digests.length_sha1]
    omega
  have lengthSigned := length_overwrite fitsSha1
  rw [← isSigned, lengthSized] at lengthSigned
  have runs : changeHeader digests newDex = .ok (overwrite signed 8
      (int2Bytes
        ((digests.adler32 (signed.drop 12)).setWidth 32))) := by
    rw [changeHeader, changeFileSize_eq long, ← isSized]
    have signs := @changeSignature_eq digests sized
      (long.trans lengthSized.ge)
    rw [← isSigned] at signs
    have sums := @changeCheckSum_eq digests signed
      (long.trans lengthSigned.ge)
    simp only [bind, Except.bind, signs, sums]
  obtain ⟨sameLength, size, sha1, sum, dropSized, dropSigned, kept⟩ :=
    headerRepaired_of_overwrites long (length_int2Bytes _)
      (digests.length_sha1 _) (length_int2Bytes _) isSized isSigned rfl
  refine ⟨_, runs, sameLength, ?_, ?_, ?_, ?_, kept⟩
  · rw [size, int2Bytes_eq, BitVec.toNat_ofNat,
      Nat.mod_eq_of_lt (by omega)]
  · rw [size, bytes2Int_int2Bytes]
  · rw [sha1, dropSized]
  · rw [sum, dropSigned, int2Bytes_eq, littleEndian_setWidth]

/-- The header of every dex file is repaired, and the conversions between
numbers and bytes undo each other. -/
theorem header_repaired (digests : Digests) (newDex : ByteArray)
    (long : 36 ≤ newDex.1.length) :
    (∃ repaired, changeHeader digests newDex.1 = .ok repaired ∧
        HeaderRepaired digests newDex.1 repaired) ∧
      (∀ value, bytes2Int (int2Bytes value) = .ok value) ∧
      ∀ src : List JByte, src.length = 4 →
        (bytes2Int src).map int2Bytes = .ok src :=
  ⟨changeHeader_spec long newDex.2, bytes2Int_int2Bytes,
    fun _ four => int2Bytes_bytes2Int four⟩

/-- The header of a file of zeros that has no data behind its header. -/
theorem header_repaired_zeros :
    (∃ repaired,
        changeHeader
            ⟨fun _ => List.replicate 20 7, fun _ => 1, fun _ => rfl⟩
            (List.replicate 36 0) = .ok repaired ∧
          HeaderRepaired
            ⟨fun _ => List.replicate 20 7, fun _ => 1, fun _ => rfl⟩
            (List.replicate 36 0) repaired) ∧
      (∀ value, bytes2Int (int2Bytes value) = .ok value) ∧
      ∀ src : List JByte, src.length = 4 →
        (bytes2Int src).map int2Bytes = .ok src :=
  header_repaired ⟨fun _ => List.replicate 20 7, fun _ => 1, fun _ => rfl⟩
    ⟨List.replicate 36 0, by decide⟩ (by decide)

end DripStone.Reinforce
