import DripStone.Library.JavaText

/-!
# The message digest MD5

A message is padded to blocks of 64 bytes, and each block moves four words of
32 bits through 64 steps.  A `MessageDigest` collects bytes until its digest
is taken.
-/

namespace DripStone.Library

namespace Md5

abbrev Word := BitVec 32

structure Registers where
  a : Word
  b : Word
  c : Word
  d : Word
deriving DecidableEq, Repr

def initial : Registers :=
  ⟨0x67452301, 0xefcdab89, 0x98badcfe, 0x10325476⟩

/-- The integer parts of `2 ^ 32 * |sin (i + 1)|`. -/
def sines : List Word := [
  0xd76aa478, 0xe8c7b756, 0x242070db, 0xc1bdceee, 0xf57c0faf, 0x4787c62a,
  0xa8304613, 0xfd469501, 0x698098d8, 0x8b44f7af, 0xffff5bb1, 0x895cd7be,
  0x6b901122, 0xfd987193, 0xa679438e, 0x49b40821, 0xf61e2562, 0xc040b340,
  0x265e5a51, 0xe9b6c7aa, 0xd62f105d, 0x02441453, 0xd8a1e681, 0xe7d3fbc8,
  0x21e1cde6, 0xc33707d6, 0xf4d50d87, 0x455a14ed, 0xa9e3e905, 0xfcefa3f8,
  0x676f02d9, 0x8d2a4c8a, 0xfffa3942, 0x8771f681, 0x6d9d6122, 0xfde5380c,
  0xa4beea44, 0x4bdecfa9, 0xf6bb4b60, 0xbebfbc70, 0x289b7ec6, 0xeaa127fa,
  0xd4ef3085, 0x04881d05, 0xd9d4d039, 0xe6db99e5, 0x1fa27cf8, 0xc4ac5665,
  0xf4292244, 0x432aff97, 0xab9423a7, 0xfc93a039, 0x655b59c3, 0x8f0ccc92,
  0xffeff47d, 0x85845dd1, 0x6fa87e4f, 0xfe2ce6e0, 0xa3014314, 0x4e0811a1,
  0xf7537e82, 0xbd3af235, 0x2ad7d2bb, 0xeb86d391]

/-- The shift amounts of the four rounds. -/
def shifts : List (List Nat) :=
  [[7, 12, 17, 22], [5, 9, 14, 20], [4, 11, 16, 23], [6, 10, 15, 21]]

/-- The nonlinear function of a round, and the word of the block it adds. -/
def mix (registers : Registers) (i : Nat) : Word × Nat :=
  let ⟨_, b, c, d⟩ := registers
  match i / 16 with
  | 0 => (b &&& c ||| ~~~b &&& d, i)
  | 1 => (d &&& b ||| ~~~d &&& c, (5 * i + 1) % 16)
  | 2 => (b ^^^ c ^^^ d, (3 * i + 5) % 16)
  | _ => (c ^^^ (b ||| ~~~d), 7 * i % 16)

def step (block : List Word) (registers : Registers) (i : Nat) : Registers :=
  let mixed := mix registers i
  let sum := registers.a + mixed.1 + sines.getD i 0 +
    block.getD mixed.2 0
  let amount := (shifts.getD (i / 16) []).getD (i % 4) 0
  ⟨registers.d, registers.b + sum.rotateLeft amount, registers.b,
    registers.c⟩

/-- A word from its bytes, the lowest one first. -/
def word (bytes : List JByte) : Word :=
  bytes.foldr (fun byte rest => rest <<< 8 ||| byte.setWidth 32) 0

/-- The bytes of a word, the lowest one first. -/
def wordBytes (word : Word) : List JByte :=
  (List.range 4).map fun i => (word >>> (8 * i)).setWidth 8

def words (block : List JByte) : List Word :=
  (List.range 16).map fun i => word ((block.drop (4 * i)).take 4)

def compress (registers : Registers) (block : List JByte) : Registers :=
  let last := (List.range 64).foldl (step (words block)) registers
  ⟨registers.a + last.a, registers.b + last.b, registers.c + last.c,
    registers.d + last.d⟩

/-- The bit `1`, zeros, and the number of bits in 64 bits. -/
def padding (length : Nat) : List JByte :=
  let bits := BitVec.ofNat 64 (8 * length)
  let zeros : List JByte := List.replicate ((119 - length % 64) % 64) 0
  0x80 :: zeros ++
    (List.range 8).map fun i => (bits >>> (8 * i)).setWidth 8

def blocks (bytes : List JByte) : List (List JByte) :=
  (List.range (bytes.length / 64)).map fun i => (bytes.drop (64 * i)).take 64

def registerBytes (registers : Registers) : List JByte :=
  wordBytes registers.a ++ wordBytes registers.b ++ wordBytes registers.c ++
    wordBytes registers.d

end Md5

open Md5 in
def md5 (message : List JByte) : List JByte :=
  registerBytes
    ((blocks (message ++ padding message.length)).foldl compress initial)

@[simp]
theorem length_md5 (message : List JByte) : (md5 message).length = 16 := by
  rw [md5, Md5.registerBytes]
  simp [Md5.wordBytes]

example : md5 [] =
    [0xd4, 0x1d, 0x8c, 0xd9, 0x8f, 0x00, 0xb2, 0x04, 0xe9, 0x80, 0x09, 0x98,
      0xec, 0xf8, 0x42, 0x7e] := by
  decide +kernel

/-! ## Message digests -/

/-- The bytes that have been fed since the last digest. -/
structure MessageDigest where
  fed : List JByte
deriving DecidableEq, Repr

namespace MessageDigest

/-- `MessageDigest.getInstance`. -/
def getInstance : MessageDigest :=
  ⟨[]⟩

def update (digest : MessageDigest) (input : List JByte) : MessageDigest :=
  ⟨digest.fed ++ input⟩

/-- `digest`, which also resets the object. -/
def digest (digest : MessageDigest) : List JByte × MessageDigest :=
  (md5 digest.fed, getInstance)

theorem digest_update (messageDigest : MessageDigest) (input : List JByte) :
    (messageDigest.update input).digest =
      (md5 (messageDigest.fed ++ input), getInstance) := rfl

end MessageDigest

end DripStone.Library
