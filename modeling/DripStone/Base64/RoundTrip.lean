import DripStone.Base64.Codec
import DripStone.Library.ListParts

/-!
# Decoding a noisy encoding

The decoder returns the bytes from every string that is an encoding with
characters outside the alphabet inserted.  One lemma for each phase says that
the phase skips the noise in front of the next letter; a group of letters then
gives back its bytes by four bit identities, and an induction over the groups
gives the whole string.
-/

namespace DripStone.Base64

open DripStone.Library

/-- A character outside the alphabet that is not the padding. -/
def IsNoise (letter : JChar) : Prop :=
  letter ∉ base64EncodeChars ∧ letter ≠ padding

instance : DecidablePred IsNoise := fun letter =>
  inferInstanceAs
    (Decidable (letter ∉ base64EncodeChars ∧ letter ≠ padding))

/-- A byte that every phase skips. -/
def IsNoiseByte (byte : JByte) : Prop :=
  decodeChar (byte.signExtend 32) = .ok (-1) ∧
    byte.signExtend 32 ≠ (61 : JInt)

/-! ## The two tables -/

/-- The letter of a sextet. -/
def letterOf (sextet : JInt) : JChar :=
  base64EncodeChars.getD sextet.toNat 0

/-- The two tables, entry by entry. -/
private theorem tables : ∀ value : Fin 64,
    arrayGet base64EncodeChars (BitVec.ofNat 32 value) =
        .ok (letterOf (BitVec.ofNat 32 value)) ∧
      decodeChar
          ((usAscii.byteOf (letterOf (BitVec.ofNat 32 value))).signExtend 32) =
        .ok (BitVec.ofNat 32 value) ∧
      (usAscii.byteOf (letterOf (BitVec.ofNat 32 value))).signExtend 32 ≠
        (61 : JInt) ∧
      (letterOf (BitVec.ofNat 32 value)).toNat < 0x80 := by
  decide +kernel

theorem arrayGet_letterOf {sextet : JInt} (small : sextet.toNat < 64) :
    arrayGet base64EncodeChars sextet = .ok (letterOf sextet) := by
  simpa using (tables ⟨sextet.toNat, small⟩).1

/-- The reverse table undoes the letters. -/
theorem decodeChar_letterOf {sextet : JInt} (small : sextet.toNat < 64) :
    decodeChar ((usAscii.byteOf (letterOf sextet)).signExtend 32) =
      .ok sextet := by
  simpa using (tables ⟨sextet.toNat, small⟩).2.1

theorem letterOf_ne_padding {sextet : JInt} (small : sextet.toNat < 64) :
    (usAscii.byteOf (letterOf sextet)).signExtend 32 ≠ (61 : JInt) := by
  simpa using (tables ⟨sextet.toNat, small⟩).2.2.1

theorem letterOf_lt {sextet : JInt} (small : sextet.toNat < 64) :
    (letterOf sextet).toNat < 0x80 := by
  simpa using (tables ⟨sextet.toNat, small⟩).2.2.2

theorem isNoiseByte_question : IsNoiseByte 63 :=
  ⟨rfl, by simp⟩

/-- A noise character becomes a noise byte. -/
theorem isNoiseByte_of_isNoise {letter : JChar} (noise : IsNoise letter) :
    IsNoiseByte (usAscii.byteOf letter) := by
  by_cases ascii : letter.toNat < 0x80
  · have every : ∀ value : Fin 0x80,
        IsNoise (BitVec.ofNat 16 value) →
          decodeChar
              ((usAscii.byteOf (BitVec.ofNat 16 value)).signExtend 32) =
            .ok (-1) ∧
          (usAscii.byteOf (BitVec.ofNat 16 value)).signExtend 32 ≠
            (61 : JInt) := by decide +kernel
    simpa [IsNoiseByte] using
      every ⟨letter.toNat, ascii⟩ (by simpa using noise)
  · have replaced : usAscii.byteOf letter = 63 := by
      rw [SingleByteCharset.byteOf, usAscii, if_neg ascii]
    rw [replaced]
    exact isNoiseByte_question

/-! ## Sextets -/

theorem unsigned_eq (byte : JByte) : unsigned byte = byte.setWidth 32 := by
  have every : ∀ byte : JByte, unsigned byte = byte.setWidth 32 := by
    decide +kernel
  exact every byte

section Sextets

variable (byte1 byte2 byte3 : JByte)

def sextet1 : JInt := unsigned byte1 >>> 2

def sextet2 : JInt :=
  ((unsigned byte1 &&& 0x03) <<< 4) ||| ((unsigned byte2 &&& 0xf0) >>> 4)

def sextet3 : JInt :=
  ((unsigned byte2 &&& 0x0f) <<< 2) ||| ((unsigned byte3 &&& 0xc0) >>> 6)

def sextet4 : JInt := unsigned byte3 &&& 0x3f

/-- The second sextet of a group of one byte. -/
theorem sextet2_zero :
    sextet2 byte1 0 = (unsigned byte1 &&& 0x03) <<< 4 := by
  simp [sextet2, unsigned]

/-- The third sextet of a group of two bytes. -/
theorem sextet3_zero :
    sextet3 byte2 0 = (unsigned byte2 &&& 0x0f) <<< 2 := by
  simp [sextet3, unsigned]

private theorem lt_of_masked {sextet : JInt}
    (masked : sextet &&& 0x3f = sextet) : sextet.toNat < 64 := by
  rw [← masked, BitVec.toNat_and]
  exact Nat.and_lt_two_pow (n := 6) _ (by simp)

theorem sextet1_lt : (sextet1 byte1).toNat < 64 := by
  refine lt_of_masked ?_
  ext i _
  rw [sextet1, unsigned_eq]
  interval_cases i <;> simp

theorem sextet2_lt : (sextet2 byte1 byte2).toNat < 64 := by
  refine lt_of_masked ?_
  ext i _
  rw [sextet2, unsigned_eq, unsigned_eq]
  interval_cases i <;> simp

theorem sextet3_lt : (sextet3 byte2 byte3).toNat < 64 := by
  refine lt_of_masked ?_
  ext i _
  rw [sextet3, unsigned_eq, unsigned_eq]
  interval_cases i <;> simp

theorem sextet4_lt : (sextet4 byte3).toNat < 64 := by
  refine lt_of_masked ?_
  ext i _
  rw [sextet4, unsigned_eq]
  interval_cases i <;> simp

/-- What the second phase appends. -/
theorem join_sextet1_sextet2 :
    ((sextet1 byte1 <<< 2) |||
        ((sextet2 byte1 byte2 &&& 0x30) >>> 4)).setWidth 16 =
      byte1.setWidth 16 := by
  ext i _
  rw [sextet1, sextet2, unsigned_eq, unsigned_eq]
  interval_cases i <;> simp

/-- What the third phase appends. -/
theorem join_sextet2_sextet3 :
    (((sextet2 byte1 byte2 &&& 0x0f) <<< 4) |||
        ((sextet3 byte2 byte3 &&& 0x3c) >>> 2)).setWidth 16 =
      byte2.setWidth 16 := by
  ext i _
  rw [sextet2, sextet3, unsigned_eq, unsigned_eq, unsigned_eq]
  interval_cases i <;> simp

/-- What the fourth phase appends. -/
theorem join_sextet3_sextet4 :
    (((sextet3 byte2 byte3 &&& 0x03) <<< 6) |||
        sextet4 byte3).setWidth 16 =
      byte3.setWidth 16 := by
  ext i _
  rw [sextet3, sextet4, unsigned_eq, unsigned_eq]
  interval_cases i <;> simp

end Sextets

/-! ## The encoding -/

/-- The characters `encode` appends. -/
def encoded : List JByte → List JChar
  | [] => []
  | [byte1] =>
      [letterOf (sextet1 byte1), letterOf (sextet2 byte1 0), padding, padding]
  | [byte1, byte2] =>
      [letterOf (sextet1 byte1), letterOf (sextet2 byte1 byte2),
        letterOf (sextet3 byte2 0), padding]
  | byte1 :: byte2 :: byte3 :: rest =>
      letterOf (sextet1 byte1) :: letterOf (sextet2 byte1 byte2) ::
        letterOf (sextet3 byte2 byte3) :: letterOf (sextet4 byte3) ::
          encoded rest

theorem encodeLoop_eq (data : List JByte) (sb : List JChar) :
    encodeLoop data sb = .ok (sb ++ encoded data) := by
  induction data, sb using encodeLoop.induct with
  | case1 sb => simp [encodeLoop, encoded]
  | case2 byte1 sb =>
      have letter1 := arrayGet_letterOf (sextet1_lt byte1)
      have letter2 := arrayGet_letterOf (sextet2_lt byte1 0)
      rw [sextet1] at letter1
      rw [sextet2_zero] at letter2
      simp only [encodeLoop, letter1, letter2, encoded, sextet1,
        sextet2_zero]
      rfl
  | case3 byte1 byte2 sb =>
      have letter1 := arrayGet_letterOf (sextet1_lt byte1)
      have letter2 := arrayGet_letterOf (sextet2_lt byte1 byte2)
      have letter3 := arrayGet_letterOf (sextet3_lt byte2 0)
      rw [sextet1] at letter1
      rw [sextet2] at letter2
      rw [sextet3_zero] at letter3
      simp only [encodeLoop, letter1, letter2, letter3, encoded, sextet1,
        sextet2, sextet3_zero]
      rfl
  | case4 byte1 byte2 byte3 rest sb inductionHypothesis =>
      have letter1 := arrayGet_letterOf (sextet1_lt byte1)
      have letter2 := arrayGet_letterOf (sextet2_lt byte1 byte2)
      have letter3 := arrayGet_letterOf (sextet3_lt byte2 byte3)
      have letter4 := arrayGet_letterOf (sextet4_lt byte3)
      rw [sextet1] at letter1
      rw [sextet2] at letter2
      rw [sextet3] at letter3
      rw [sextet4] at letter4
      simp only [encodeLoop, letter1, letter2, letter3, letter4, encoded,
        sextet1, sextet2, sextet3, sextet4]
      refine (inductionHypothesis _ _ _ _).trans ?_
      simp

theorem encode_eq (data : List JByte) : encode data = .ok (encoded data) := by
  rw [encode, encodeLoop_eq, List.nil_append]

theorem encoded_lt (data : List JByte) :
    ∀ letter ∈ encoded data, letter.toNat < 0x80 := by
  induction data using encoded.induct with
  | case1 => simp [encoded]
  | case2 byte1 =>
      simp [encoded, letterOf_lt, sextet1_lt, sextet2_lt, padding]
  | case3 byte1 byte2 =>
      simp [encoded, letterOf_lt, sextet1_lt, sextet2_lt, sextet3_lt,
        padding]
  | case4 byte1 byte2 byte3 rest inductionHypothesis =>
      simpa [encoded, letterOf_lt, sextet1_lt, sextet2_lt, sextet3_lt,
        sextet4_lt] using inductionHypothesis

/-! ## Noise -/

/-- Noise characters become noise bytes; a surrogate pair becomes one. -/
theorem inserted_getBytes {clean noisy : List JChar}
    (ascii : ∀ letter ∈ clean, letter.toNat < 0x80)
    (inserted : Inserted IsNoise clean noisy) :
    Inserted IsNoiseByte (clean.map usAscii.byteOf)
      (usAscii.getBytes noisy) := by
  induction noisy using SingleByteCharset.getBytes.induct
    generalizing clean with
  | case1 =>
      cases inserted
      exact .nil
  | case2 unit =>
      cases inserted with
      | keep _ inRest =>
          cases inRest
          exact .keep _ .nil
      | insert noise inRest =>
          cases inRest
          exact .insert (isNoiseByte_of_isNoise noise) .nil
  | case3 unit next rest pair inductionHypothesis =>
      rw [SingleByteCharset.getBytes, if_pos pair]
      have unitHigh : 0xD800 ≤ unit.toNat := by
        simp [SingleByteCharset.isHighSurrogate] at pair
        omega
      have nextLow : 0xDC00 ≤ next.toNat := by
        simp [SingleByteCharset.isLowSurrogate] at pair
        omega
      cases inserted with
      | keep _ inRest =>
          have := ascii unit List.mem_cons_self
          omega
      | insert noise inRest =>
          cases inRest with
          | keep _ inRest =>
              have := ascii next List.mem_cons_self
              omega
          | insert noise inRest =>
              exact .insert isNoiseByte_question
                (inductionHypothesis ascii inRest)
  | case4 unit next rest notPair inductionHypothesis =>
      rw [SingleByteCharset.getBytes, if_neg notPair]
      cases inserted with
      | keep _ inRest =>
          exact .keep _ (inductionHypothesis
            (fun letter inClean =>
              ascii letter (List.mem_cons_of_mem _ inClean)) inRest)
      | insert noise inRest =>
          exact .insert (isNoiseByte_of_isNoise noise)
            (inductionHypothesis ascii inRest)

/-! ## The phases -/

section Phases

attribute [local simp] decodeLoop

variable {skipped rest : List JByte} {sb : List JChar} {sextet : JInt}

private theorem ok_bind {α β : Type} (value : α)
    (continuation : α → Except ArrayFailure β) :
    (Except.ok value >>= continuation) = continuation value := rfl

/-- Step lemma: a phase reads past a noise byte that is not the last byte. -/
theorem decodeLoop_noise_cons (phase : Phase) {byte : JByte}
    (noise : IsNoiseByte byte) (more : rest ≠ []) :
    decodeLoop phase (byte :: rest) sb = decodeLoop phase rest sb := by
  obtain ⟨skips, notPadding⟩ := noise
  cases phase with
  | b1 | b2 =>
      rw [decodeLoop, skips, ok_bind, if_pos rfl, if_neg more]
  | b3 | b4 =>
      rw [decodeLoop, if_neg notPadding, skips, ok_bind, if_pos rfl,
        if_neg more]

/-- Every phase reads past the noise in front of another byte. -/
theorem decodeLoop_skip (phase : Phase) (byte : JByte)
    (noise : ∀ extra ∈ skipped, IsNoiseByte extra) :
    decodeLoop phase (skipped ++ byte :: rest) sb =
      decodeLoop phase (byte :: rest) sb := by
  induction skipped with
  | nil => rfl
  | cons extra tail inductionHypothesis =>
      rw [List.cons_append,
        decodeLoop_noise_cons phase (noise extra List.mem_cons_self)
          (by simp),
        inductionHypothesis fun other inTail =>
          noise other (List.mem_cons_of_mem extra inTail)]

/-- The loop ends in noise. -/
theorem decodeLoop_trailing
    (noise : ∀ extra ∈ skipped, IsNoiseByte extra) :
    decodeLoop .b1 skipped sb = .ok sb := by
  induction skipped with
  | nil => rfl
  | cons extra tail inductionHypothesis =>
      by_cases last : tail = []
      · rw [decodeLoop, (noise extra List.mem_cons_self).1, ok_bind,
          if_pos rfl, if_pos last]
      · rw [decodeLoop_noise_cons .b1 (noise extra List.mem_cons_self) last]
        exact inductionHypothesis fun other inTail =>
          noise other (List.mem_cons_of_mem extra inTail)

private theorem ne_minus_one (small : sextet.toNat < 64) :
    sextet ≠ -1 := by
  rintro rfl
  simp at small

theorem decodeLoop_b1_letter (small : sextet.toNat < 64) :
    decodeLoop .b1 (usAscii.byteOf (letterOf sextet) :: rest) sb =
      decodeLoop (.b2 sextet) rest sb := by
  rw [decodeLoop, decodeChar_letterOf small, ok_bind,
    if_neg (ne_minus_one small)]

theorem decodeLoop_b2_letter {b1 : JInt} (small : sextet.toNat < 64) :
    decodeLoop (.b2 b1) (usAscii.byteOf (letterOf sextet) :: rest) sb =
      decodeLoop (.b3 sextet) rest
        (sb ++ [((b1 <<< 2) ||| ((sextet &&& 0x30) >>> 4)).setWidth 16]) := by
  rw [decodeLoop, decodeChar_letterOf small, ok_bind,
    if_neg (ne_minus_one small)]

theorem decodeLoop_b3_letter {b2 : JInt} (small : sextet.toNat < 64) :
    decodeLoop (.b3 b2) (usAscii.byteOf (letterOf sextet) :: rest) sb =
      decodeLoop (.b4 sextet) rest
        (sb ++ [(((b2 &&& 0x0f) <<< 4) |||
          ((sextet &&& 0x3c) >>> 2)).setWidth 16]) := by
  rw [decodeLoop, if_neg (letterOf_ne_padding small),
    decodeChar_letterOf small, ok_bind, if_neg (ne_minus_one small)]

theorem decodeLoop_b4_letter {b3 : JInt} (small : sextet.toNat < 64) :
    decodeLoop (.b4 b3) (usAscii.byteOf (letterOf sextet) :: rest) sb =
      decodeLoop .b1 rest
        (sb ++ [(((b3 &&& 0x03) <<< 6) ||| sextet).setWidth 16]) := by
  rw [decodeLoop, if_neg (letterOf_ne_padding small),
    decodeChar_letterOf small, ok_bind, if_neg (ne_minus_one small)]

/-- The third phase returns at the padding. -/
theorem decodeLoop_b3_padding {b2 : JInt} :
    decodeLoop (.b3 b2) (usAscii.byteOf padding :: rest) sb = .ok sb := by
  have isPadding :
      (usAscii.byteOf padding).signExtend 32 = (61 : JInt) := rfl
  rw [decodeLoop, if_pos isPadding]

/-- So does the fourth. -/
theorem decodeLoop_b4_padding {b3 : JInt} :
    decodeLoop (.b4 b3) (usAscii.byteOf padding :: rest) sb = .ok sb := by
  have isPadding :
      (usAscii.byteOf padding).signExtend 32 = (61 : JInt) := rfl
  rw [decodeLoop, if_pos isPadding]

end Phases

/-! ## The round trip -/

/-- The loop invariant at the start of a group: what is left of the noisy
encoding appends what is left of the bytes. -/
theorem decodeLoop_encoded (data noisy : List JByte) (sb : List JChar)
    (inserted : Inserted IsNoiseByte
      ((encoded data).map usAscii.byteOf) noisy) :
    decodeLoop .b1 noisy sb =
      .ok (sb ++ data.map fun byte => byte.setWidth 16) := by
  induction data using encoded.induct generalizing noisy sb with
  | case1 =>
      rw [decodeLoop_trailing inserted.noise_of_nil]
      simp
  | case2 byte1 =>
      simp only [encoded, List.map_cons] at inserted
      obtain ⟨skip1, rest1, rfl, noise1, after1⟩ := inserted.split_cons
      obtain ⟨skip2, rest2, rfl, noise2, after2⟩ := after1.split_cons
      obtain ⟨skip3, rest3, rfl, noise3, after3⟩ := after2.split_cons
      rw [decodeLoop_skip _ _ noise1, decodeLoop_b1_letter (sextet1_lt _),
        decodeLoop_skip _ _ noise2, decodeLoop_b2_letter (sextet2_lt _ _),
        decodeLoop_skip _ _ noise3, decodeLoop_b3_padding,
        join_sextet1_sextet2]
      rfl
  | case3 byte1 byte2 =>
      simp only [encoded, List.map_cons] at inserted
      obtain ⟨skip1, rest1, rfl, noise1, after1⟩ := inserted.split_cons
      obtain ⟨skip2, rest2, rfl, noise2, after2⟩ := after1.split_cons
      obtain ⟨skip3, rest3, rfl, noise3, after3⟩ := after2.split_cons
      obtain ⟨skip4, rest4, rfl, noise4, after4⟩ := after3.split_cons
      rw [decodeLoop_skip _ _ noise1, decodeLoop_b1_letter (sextet1_lt _),
        decodeLoop_skip _ _ noise2, decodeLoop_b2_letter (sextet2_lt _ _),
        decodeLoop_skip _ _ noise3, decodeLoop_b3_letter (sextet3_lt _ _),
        decodeLoop_skip _ _ noise4, decodeLoop_b4_padding,
        join_sextet1_sextet2, join_sextet2_sextet3]
      simp
  | case4 byte1 byte2 byte3 rest inductionHypothesis =>
      simp only [encoded, List.map_cons] at inserted
      obtain ⟨skip1, rest1, rfl, noise1, after1⟩ := inserted.split_cons
      obtain ⟨skip2, rest2, rfl, noise2, after2⟩ := after1.split_cons
      obtain ⟨skip3, rest3, rfl, noise3, after3⟩ := after2.split_cons
      obtain ⟨skip4, rest4, rfl, noise4, after4⟩ := after3.split_cons
      rw [decodeLoop_skip _ _ noise1, decodeLoop_b1_letter (sextet1_lt _),
        decodeLoop_skip _ _ noise2, decodeLoop_b2_letter (sextet2_lt _ _),
        decodeLoop_skip _ _ noise3, decodeLoop_b3_letter (sextet3_lt _ _),
        decodeLoop_skip _ _ noise4, decodeLoop_b4_letter (sextet4_lt _),
        inductionHypothesis _ _ after4, join_sextet1_sextet2,
        join_sextet2_sextet3, join_sextet3_sextet4]
      simp

/-- The characters the decoder builds are the bytes again. -/
theorem getBytes_iso88591 (data : List JByte) :
    iso88591.getBytes (data.map fun byte => byte.setWidth 16) = data := by
  have back : ∀ byte : JByte,
      iso88591.byteOf (byte.setWidth 16) = byte := by
    intro byte
    have small : (byte.setWidth 16).toNat < 0x100 := by
      rw [BitVec.toNat_setWidth]
      omega
    rw [SingleByteCharset.byteOf, iso88591, if_pos small]
    simp
  rw [SingleByteCharset.getBytes_of_small, List.map_map]
  · exact (List.map_congr_left fun byte _ => back byte).trans
      (List.map_id data)
  · intro unit member
    obtain ⟨byte, _, rfl⟩ := List.mem_map.mp member
    have small := byte.isLt
    rw [BitVec.toNat_setWidth]
    omega

/-- `encode` succeeds, and `decode` returns the bytes from its result with any
noise inserted, in particular from the result itself. -/
theorem decode_noisy_encode (data : List JByte) :
    ∃ str, encode data = .ok str ∧
      (∀ noisy, Inserted IsNoise str noisy → decode noisy = .ok data) ∧
      decode str = .ok data := by
  have every : ∀ noisy, Inserted IsNoise (encoded data) noisy →
      decode noisy = .ok data := by
    intro noisy inserted
    have bytes := inserted_getBytes (encoded_lt data) inserted
    rw [decode, decodeLoop_encoded data _ [] bytes, List.nil_append]
    change Except.ok (iso88591.getBytes _) = _
    rw [getBytes_iso88591]
  exact ⟨encoded data, encode_eq data, every,
    every _ (Inserted.refl _)⟩

/-- Noise inside the group, inside the padding and behind it: `"/w=="` with a
line feed, a surrogate pair and a space. -/
theorem decode_noisy_of_one_byte :
    decode [0x2F, 0x0A, 0x77, 0xD83D, 0xDE00, 0x3D, 0x20, 0x3D] =
      .ok [0xFF] := by
  obtain ⟨str, isEncoded, noisy, _⟩ := decode_noisy_encode [0xFF]
  have letters : encode [0xFF] = .ok [0x2F, 0x77, 0x3D, 0x3D] := by decide
  obtain rfl := Except.ok.inj (letters.symm.trans isEncoded)
  refine noisy _ ?_
  exact .keep _ <| .insert (by decide) <| .keep _ <|
    .insert (by decide) <| .insert (by decide) <| .keep _ <|
      .insert (by decide) <| .keep _ .nil

end DripStone.Base64
