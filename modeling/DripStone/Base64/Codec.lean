import DripStone.Library.JavaText

/-!
# `Base64Utils`

`encode` turns three bytes into four characters and pads the last group.
`decode` reads the bytes of the string in four phases, one for each character
of a group.  Every phase is a `do`-`while` loop: it reads a byte before it
looks at the length, skips the bytes that the reverse table maps to `-1`, and
leaves the whole loop when the string ends inside the skipped part.
-/

namespace DripStone.Base64

open DripStone.Library

def base64EncodeChars : List JChar :=
  [0x41, 0x42, 0x43, 0x44, 0x45, 0x46, 0x47, 0x48, 0x49, 0x4A, 0x4B, 0x4C,
    0x4D, 0x4E, 0x4F, 0x50, 0x51, 0x52, 0x53, 0x54, 0x55, 0x56, 0x57, 0x58,
    0x59, 0x5A, 0x61, 0x62, 0x63, 0x64, 0x65, 0x66, 0x67, 0x68, 0x69, 0x6A,
    0x6B, 0x6C, 0x6D, 0x6E, 0x6F, 0x70, 0x71, 0x72, 0x73, 0x74, 0x75, 0x76,
    0x77, 0x78, 0x79, 0x7A, 0x30, 0x31, 0x32, 0x33, 0x34, 0x35, 0x36, 0x37,
    0x38, 0x39, 0x2B, 0x2F]

def base64DecodeChars : List JByte :=
  [-1, -1, -1, -1, -1,
    -1, -1, -1, -1, -1, -1, -1, -1, -1, -1, -1, -1, -1, -1, -1, -1, -1,
    -1, -1, -1, -1, -1, -1, -1, -1, -1, -1, -1, -1, -1, -1, -1, -1, -1,
    -1, -1, -1, -1, 62, -1, -1, -1, 63, 52, 53, 54, 55, 56, 57, 58, 59,
    60, 61, -1, -1, -1, -1, -1, -1, -1, 0, 1, 2, 3, 4, 5, 6, 7, 8, 9,
    10, 11, 12, 13, 14, 15, 16, 17, 18, 19, 20, 21, 22, 23, 24, 25, -1,
    -1, -1, -1, -1, -1, 26, 27, 28, 29, 30, 31, 32, 33, 34, 35, 36, 37,
    38, 39, 40, 41, 42, 43, 44, 45, 46, 47, 48, 49, 50, 51, -1, -1, -1,
    -1, -1]

example :
    base64EncodeChars =
      "ABCDEFGHIJKLMNOPQRSTUVWXYZabcdefghijklmnopqrstuvwxyz0123456789+/".toList.map
        fun letter => BitVec.ofNat 16 letter.toNat := by
  decide

/-- The padding character `'='`. -/
def padding : JChar := 61

/-- `data[i] & 0xff`. -/
def unsigned (byte : JByte) : JInt := byte.signExtend 32 &&& 0xff

/-- `encode`, with the characters appended so far. -/
def encodeLoop : List JByte → List JChar → Except ArrayFailure (List JChar)
  | [], sb => .ok sb
  | [byte1], sb => do
      let b1 := unsigned byte1
      let char1 ← arrayGet base64EncodeChars (b1 >>> 2)
      let char2 ← arrayGet base64EncodeChars ((b1 &&& 0x3) <<< 4)
      .ok (sb ++ [char1, char2, padding, padding])
  | [byte1, byte2], sb => do
      let b1 := unsigned byte1
      let b2 := unsigned byte2
      let char1 ← arrayGet base64EncodeChars (b1 >>> 2)
      let char2 ← arrayGet base64EncodeChars
        (((b1 &&& 0x03) <<< 4) ||| ((b2 &&& 0xf0) >>> 4))
      let char3 ← arrayGet base64EncodeChars ((b2 &&& 0x0f) <<< 2)
      .ok (sb ++ [char1, char2, char3, padding])
  | byte1 :: byte2 :: byte3 :: rest, sb => do
      let b1 := unsigned byte1
      let b2 := unsigned byte2
      let b3 := unsigned byte3
      let char1 ← arrayGet base64EncodeChars (b1 >>> 2)
      let char2 ← arrayGet base64EncodeChars
        (((b1 &&& 0x03) <<< 4) ||| ((b2 &&& 0xf0) >>> 4))
      let char3 ← arrayGet base64EncodeChars
        (((b2 &&& 0x0f) <<< 2) ||| ((b3 &&& 0xc0) >>> 6))
      let char4 ← arrayGet base64EncodeChars (b3 &&& 0x3f)
      encodeLoop rest (sb ++ [char1, char2, char3, char4])

def encode (data : List JByte) : Except ArrayFailure (List JChar) :=
  encodeLoop data []

/-- Which character of a group is read next, with the sextet that its bits
are joined to. -/
inductive Phase where
  | b1
  | b2 (b1 : JInt)
  | b3 (b2 : JInt)
  | b4 (b3 : JInt)
deriving DecidableEq, Repr

/-- `base64DecodeChars[index]`, widened to an `int`. -/
def decodeChar (index : JInt) : Except ArrayFailure JInt := do
  let sextet ← arrayGet base64DecodeChars index
  .ok (sextet.signExtend 32)

/-- `decode`, from a phase on, with the bytes not read yet and the characters
appended so far.  Only the first phase looks at the length before it reads. -/
def decodeLoop : Phase → List JByte → List JChar →
    Except ArrayFailure (List JChar)
  | .b1, [], sb => .ok sb
  | .b2 _, [], _ => .error .arrayIndexOutOfBoundsException
  | .b3 _, [], _ => .error .arrayIndexOutOfBoundsException
  | .b4 _, [], _ => .error .arrayIndexOutOfBoundsException
  | .b1, byte :: rest, sb => do
      let b1 ← decodeChar (byte.signExtend 32)
      if b1 = -1 then
        if rest = [] then .ok sb else decodeLoop .b1 rest sb
      else
        decodeLoop (.b2 b1) rest sb
  | .b2 b1, byte :: rest, sb => do
      let b2 ← decodeChar (byte.signExtend 32)
      if b2 = -1 then
        if rest = [] then .ok sb else decodeLoop (.b2 b1) rest sb
      else
        decodeLoop (.b3 b2) rest
          (sb ++ [((b1 <<< 2) ||| ((b2 &&& 0x30) >>> 4)).setWidth 16])
  | .b3 b2, byte :: rest, sb =>
      if byte.signExtend 32 = (61 : JInt) then
        .ok sb
      else do
        let b3 ← decodeChar (byte.signExtend 32)
        if b3 = -1 then
          if rest = [] then .ok sb else decodeLoop (.b3 b2) rest sb
        else
          decodeLoop (.b4 b3) rest
            (sb ++
              [(((b2 &&& 0x0f) <<< 4) ||| ((b3 &&& 0x3c) >>> 2)).setWidth 16])
  | .b4 b3, byte :: rest, sb =>
      if byte.signExtend 32 = (61 : JInt) then
        .ok sb
      else do
        let b4 ← decodeChar (byte.signExtend 32)
        if b4 = -1 then
          if rest = [] then .ok sb else decodeLoop (.b4 b3) rest sb
        else
          decodeLoop .b1 rest
            (sb ++ [(((b3 &&& 0x03) <<< 6) ||| b4).setWidth 16])

def decode (str : List JChar) : Except ArrayFailure (List JByte) := do
  let sb ← decodeLoop .b1 (usAscii.getBytes str) []
  .ok (iso88591.getBytes sb)

end DripStone.Base64
