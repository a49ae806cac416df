import DripStone.Base64.RoundTrip

/-!
# Decoding any string

A group of letters may be cut off by the end of the string.  The decoder then
returns the bytes that are complete if something that it skips follows the
last letter of the group, and reads behind the end of the data otherwise.
-/

namespace DripStone.Base64

open DripStone.Library

/-! ## The bytes of a string -/

/-- The six bits of a letter. -/
def sextetOf (letter : JChar) : Option (BitVec 6) :=
  (base64EncodeChars.idxOf? letter).map (BitVec.ofNat 6)

def sextets (str : List JChar) : List (BitVec 6) :=
  str.filterMap sextetOf

/-- What is in front of the padding that closes a group, from behind `count`
letters on. -/
def content : Nat → List JChar → List JChar
  | _, [] => []
  | count, letter :: rest =>
      if letter = padding ∧ 2 ≤ count % 4 then []
      else
        letter :: content
          (if letter ∈ base64EncodeChars then count + 1 else count) rest

section Bytes

variable (first second third fourth : BitVec 6)

def firstByte : JByte :=
  first.setWidth 8 <<< 2 ||| (second >>> 4).setWidth 8

def secondByte : JByte :=
  second.setWidth 8 <<< 4 ||| (third >>> 2).setWidth 8

def thirdByte : JByte :=
  third.setWidth 8 <<< 6 ||| fourth.setWidth 8

end Bytes

/-- The bytes of all complete groups, and those that the letters of the last
group determine. -/
def wholeBytes : List (BitVec 6) → List JByte
  | first :: second :: third :: fourth :: rest =>
      firstByte first second :: secondByte second third ::
        thirdByte third fourth :: wholeBytes rest
  | [first, second, third] =>
      [firstByte first second, secondByte second third]
  | [first, second] => [firstByte first second]
  | [_] => []
  | [] => []

/-- From behind `count` letters on, the string does not end with a letter
inside a group, or padding closes a group before its end. -/
def EndsOutsideGroup (count : Nat) (str : List JChar) : Prop :=
  content count str ≠ str ∨ (count + (sextets str).length) % 4 = 0 ∨
    ∃ last ∈ str.getLast?, last ∉ base64EncodeChars

/-! ## The letters -/

private theorem sextetOf_letterOf : ∀ value : Fin 64,
    sextetOf (letterOf (BitVec.ofNat 32 value)) =
      some (BitVec.ofNat 6 value) := by
  decide +kernel

theorem exists_sextet {letter : JChar}
    (isLetter : letter ∈ base64EncodeChars) :
    ∃ sextet : BitVec 6, letter = letterOf (sextet.setWidth 32) ∧
      sextetOf letter = some sextet := by
  obtain ⟨index, inside, isEntry⟩ := List.mem_iff_getElem.mp isLetter
  have small : index < 64 := inside
  have sameIndex : (BitVec.ofNat 6 index).setWidth 32 =
      BitVec.ofNat 32 index := by
    apply BitVec.eq_of_toNat_eq
    simp
    omega
  have isLetterOf : letterOf (BitVec.ofNat 32 index) = letter := by
    have unsignedIndex : (BitVec.ofNat 32 index).toNat = index := by
      rw [BitVec.toNat_ofNat]
      omega
    rw [letterOf, unsignedIndex, List.getD_eq_getElem _ _ inside, isEntry]
  refine ⟨BitVec.ofNat 6 index, ?_, ?_⟩
  · rw [sameIndex, isLetterOf]
  · rw [← isLetterOf]
    exact sextetOf_letterOf ⟨index, small⟩

theorem sextetOf_of_not_mem {letter : JChar}
    (isOther : letter ∉ base64EncodeChars) : sextetOf letter = none := by
  rw [sextetOf, List.idxOf?_eq_none_iff.mpr isOther]
  rfl

theorem setWidth_lt (sextet : BitVec 6) :
    (sextet.setWidth 32 : JInt).toNat < 64 := by
  have small := sextet.isLt
  rw [BitVec.toNat_setWidth]
  omega

section Join

variable (first second : BitVec 6)

theorem join_firstByte :
    ((((first.setWidth 32 : JInt) <<< 2) |||
      ((second.setWidth 32 &&& 0x30) >>> 4)).setWidth 16 : JChar) =
        (firstByte first second).setWidth 16 := by
  ext i inside
  interval_cases i <;> simp [firstByte]

theorem join_secondByte :
    (((((first.setWidth 32 : JInt) &&& 0x0f) <<< 4) |||
      ((second.setWidth 32 &&& 0x3c) >>> 2)).setWidth 16 : JChar) =
        (secondByte first second).setWidth 16 := by
  ext i inside
  interval_cases i <;> simp [secondByte]

theorem join_thirdByte :
    (((((first.setWidth 32 : JInt) &&& 0x03) <<< 6) |||
      second.setWidth 32).setWidth 16 : JChar) =
        (thirdByte first second).setWidth 16 := by
  ext i inside
  interval_cases i <;> simp [thirdByte]

end Join

/-! ## The data of a string -/

/-- Only the first byte and the loop over the others matter. -/
theorem decodeLoop_cons_congr {rest other : List JByte}
    (same : ∀ phase sb, decodeLoop phase rest sb = decodeLoop phase other sb)
    (sameEnd : rest = [] ↔ other = []) (phase : Phase) (byte : JByte)
    (sb : List JChar) :
    decodeLoop phase (byte :: rest) sb =
      decodeLoop phase (byte :: other) sb := by
  cases phase <;> simp only [decodeLoop, same, sameEnd]

theorem decodeLoop_last (phase : Phase) {byte : JByte}
    (noise : IsNoiseByte byte) (sb : List JChar) :
    decodeLoop phase [byte] sb = .ok sb := by
  obtain ⟨skips, notPadding⟩ := noise
  cases phase with
  | b1 | b2 =>
      rw [decodeLoop, skips]
      rfl
  | b3 | b4 =>
      rw [decodeLoop, if_neg notPadding, skips]
      rfl

/-- The decoder does not notice that a surrogate pair is one character. -/
theorem decodeLoop_getBytes (str : List JChar) :
    (∀ phase sb, decodeLoop phase (usAscii.getBytes str) sb =
      decodeLoop phase (str.map usAscii.byteOf) sb) ∧
    (usAscii.getBytes str = [] ↔ str.map usAscii.byteOf = []) := by
  fun_induction SingleByteCharset.getBytes usAscii str with
  | case1 => exact ⟨fun _ _ => rfl, Iff.rfl⟩
  | case2 unit => exact ⟨fun _ _ => rfl, by simp⟩
  | case3 unit next rest isPair inductionHypothesis =>
      have replaced : ∀ surrogate : JChar, 0x80 ≤ surrogate.toNat →
          usAscii.byteOf surrogate = 63 :=
        fun surrogate large => if_neg (Nat.not_lt.mpr large)
      simp only [SingleByteCharset.isHighSurrogate,
        SingleByteCharset.isLowSurrogate, Bool.and_eq_true,
        decide_eq_true_eq] at isPair
      obtain ⟨same, sameEnd⟩ := inductionHypothesis
      refine ⟨fun phase sb => ?_, by simp⟩
      rw [List.map_cons, List.map_cons, replaced unit (by omega),
        replaced next (by omega),
        @decodeLoop_noise_cons (63 :: rest.map usAscii.byteOf) sb phase 63
          isNoiseByte_question (by simp)]
      exact decodeLoop_cons_congr same sameEnd phase 63 sb
  | case4 unit next rest notPair inductionHypothesis =>
      obtain ⟨same, sameEnd⟩ := inductionHypothesis
      exact ⟨fun phase sb =>
        decodeLoop_cons_congr same sameEnd phase (usAscii.byteOf unit) sb,
        by simp⟩

/-! ## The run of the decoder -/

/-- The letters of the group that has begun, of which the last one is not
used up. -/
inductive Pending where
  | none
  | one (first : BitVec 6)
  | two (second : BitVec 6)
  | three (third : BitVec 6)

namespace Pending

def phase : Pending → Phase
  | .none => .b1
  | .one first => .b2 (first.setWidth 32)
  | .two second => .b3 (second.setWidth 32)
  | .three third => .b4 (third.setWidth 32)

def count : Pending → Nat
  | .none => 0
  | .one _ => 1
  | .two _ => 2
  | .three _ => 3

def push (sextet : BitVec 6) : Pending → Pending
  | .none => .one sextet
  | .one _ => .two sextet
  | .two _ => .three sextet
  | .three _ => .none

/-- The byte that the next letter completes. -/
def completed (sextet : BitVec 6) : Pending → List JByte
  | .none => []
  | .one first => [firstByte first sextet]
  | .two second => [secondByte second sextet]
  | .three third => [thirdByte third sextet]

def bytes : Pending → List (BitVec 6) → List JByte
  | _, [] => []
  | pending, sextet :: rest =>
      pending.completed sextet ++ bytes (pending.push sextet) rest

theorem bytes_none (sextets : List (BitVec 6)) :
    Pending.none.bytes sextets = wholeBytes sextets := by
  fun_induction wholeBytes sextets with
  | case1 first second third fourth rest inductionHypothesis =>
      rw [← inductionHypothesis]
      rfl
  | case2 | case3 | case4 | case5 => rfl

theorem count_push (pending : Pending) (sextet : BitVec 6) :
    (pending.push sextet).count % 4 = (pending.count + 1) % 4 := by
  cases pending <;> simp [push, count]

/-- Step lemma: a letter. -/
theorem decodeLoop_letter (pending : Pending) (sextet : BitVec 6)
    (rest : List JByte) (sb : List JChar) :
    decodeLoop pending.phase
        (usAscii.byteOf (letterOf (sextet.setWidth 32)) :: rest) sb =
      decodeLoop (pending.push sextet).phase rest
        (sb ++ (pending.completed sextet).map (·.setWidth 16)) := by
  have small := setWidth_lt sextet
  cases pending with
  | none =>
      rw [phase, decodeLoop_b1_letter small, completed, List.map_nil,
        List.append_nil]
      rfl
  | one first =>
      rw [phase, decodeLoop_b2_letter small, join_firstByte]
      rfl
  | two second =>
      rw [phase, decodeLoop_b3_letter small, join_secondByte]
      rfl
  | three third =>
      rw [phase, decodeLoop_b4_letter small, join_thirdByte]
      rfl

/-- Step lemma: padding in front of the third letter is skipped. -/
theorem decodeLoop_early_padding {pending : Pending}
    (early : pending.count < 2) (rest : List JByte) (sb : List JChar) :
    decodeLoop pending.phase (usAscii.byteOf padding :: rest) sb =
      if rest = [] then .ok sb else decodeLoop pending.phase rest sb := by
  cases pending with
  | none | one => rfl
  | two | three => exact absurd early (by rw [count]; omega)

/-- Step lemma: later padding closes the group. -/
theorem decodeLoop_late_padding {pending : Pending}
    (late : 2 ≤ pending.count) (rest : List JByte) (sb : List JChar) :
    decodeLoop pending.phase (usAscii.byteOf padding :: rest) sb = .ok sb := by
  cases pending with
  | none | one => exact absurd late (by rw [count]; omega)
  | two => exact decodeLoop_b3_padding
  | three => exact decodeLoop_b4_padding

end Pending

/-! ## The end of the string -/

section Ends

variable {count : Nat} {unit : JChar} {rest : List JChar}

theorem content_congr {other : Nat} (same : count % 4 = other % 4)
    (str : List JChar) : content count str = content other str := by
  induction str generalizing count other with
  | nil => rfl
  | cons letter rest inductionHypothesis =>
      rw [content, content, same]
      split
      · rfl
      · split
        · rw [@inductionHypothesis (count + 1) (other + 1) (by omega)]
        · rw [inductionHypothesis same]

theorem content_letter (isLetter : unit ∈ base64EncodeChars) :
    content count (unit :: rest) = unit :: content (count + 1) rest := by
  have notPadding : unit ≠ padding := by
    rintro rfl
    exact absurd isLetter (by decide)
  rw [content, if_neg fun closes => notPadding closes.1, if_pos isLetter]

theorem content_skipped (isOther : unit ∉ base64EncodeChars)
    (notClosing : ¬(unit = padding ∧ 2 ≤ count % 4)) :
    content count (unit :: rest) = unit :: content count rest := by
  rw [content, if_neg notClosing, if_neg isOther]

theorem sextets_skipped (isOther : unit ∉ base64EncodeChars) :
    sextets (unit :: rest) = sextets rest :=
  List.filterMap_cons_none (sextetOf_of_not_mem isOther)

theorem endsOutsideGroup_letter {sextet : BitVec 6}
    (isLetter : unit ∈ base64EncodeChars) (six : sextetOf unit = some sextet) :
    EndsOutsideGroup count (unit :: rest) ↔
      EndsOutsideGroup (count + 1) rest := by
  have letters : sextets (unit :: rest) = sextet :: sextets rest :=
    List.filterMap_cons_some six
  have sameCount : count + ((sextets rest).length + 1) =
      count + 1 + (sextets rest).length := by omega
  have sameLast : (∃ last ∈ (unit :: rest).getLast?,
      last ∉ base64EncodeChars) ↔
        ∃ last ∈ rest.getLast?, last ∉ base64EncodeChars := by
    cases rest with
    | nil => simp [isLetter]
    | cons next others => rw [List.getLast?_cons_cons]
  rw [EndsOutsideGroup, EndsOutsideGroup, content_letter isLetter, letters,
    List.length_cons, sameCount, sameLast, ne_eq, List.cons.injEq]
  simp only [true_and, ne_eq]

theorem endsOutsideGroup_skipped (isOther : unit ∉ base64EncodeChars)
    (notClosing : ¬(unit = padding ∧ 2 ≤ count % 4)) :
    EndsOutsideGroup count (unit :: rest) ↔
      rest = [] ∨ EndsOutsideGroup count rest := by
  rw [EndsOutsideGroup, EndsOutsideGroup, content_skipped isOther notClosing,
    sextets_skipped isOther, ne_eq, List.cons.injEq]
  cases rest with
  | nil => simp [isOther]
  | cons next others =>
      rw [List.getLast?_cons_cons]
      simp only [true_and, ne_eq, reduceCtorEq, false_or]

end Ends

/-- The result of the decoder, from a group that has begun on. -/
def Decoded (pending : Pending) (str : List JChar) (sb : List JChar) : Prop :=
  (EndsOutsideGroup pending.count str →
    decodeLoop pending.phase (str.map usAscii.byteOf) sb =
      .ok (sb ++ (pending.bytes (sextets (content pending.count str))).map
        (·.setWidth 16))) ∧
  (¬EndsOutsideGroup pending.count str →
    ∃ failure, decodeLoop pending.phase (str.map usAscii.byteOf) sb =
      .error failure)

section Run

variable {pending : Pending} {unit : JChar} {rest sb : List JChar}

theorem decoded_nil (pending : Pending) (sb : List JChar) :
    Decoded pending [] sb := by
  cases pending with
  | none =>
      refine ⟨fun _ => ?_, fun inside => absurd ?_ inside⟩
      · rw [Pending.bytes.eq_def]
        simp [content, sextets, Pending.phase, decodeLoop]
      · exact Or.inr (Or.inl rfl)
  | one | two | three =>
      refine ⟨fun ends => ?_, fun _ => ⟨_, rfl⟩⟩
      simp [EndsOutsideGroup, content, sextets, Pending.count] at ends

theorem decoded_skipped (isOther : unit ∉ base64EncodeChars)
    (notClosing : ¬(unit = padding ∧ 2 ≤ pending.count % 4))
    (skips : decodeLoop pending.phase
        (usAscii.byteOf unit :: rest.map usAscii.byteOf) sb =
      if rest.map usAscii.byteOf = [] then .ok sb
      else decodeLoop pending.phase (rest.map usAscii.byteOf) sb)
    (later : Decoded pending rest sb) :
    Decoded pending (unit :: rest) sb := by
  rw [Decoded, endsOutsideGroup_skipped isOther notClosing,
    content_skipped isOther notClosing, sextets_skipped isOther, List.map_cons,
    skips]
  by_cases isLast : rest = []
  · subst isLast
    refine ⟨fun _ => ?_, fun inside => absurd (Or.inl rfl) inside⟩
    rw [if_pos List.map_nil, content, sextets, List.filterMap_nil]
    cases pending <;> simp [Pending.bytes]
  · have more : rest.map usAscii.byteOf ≠ [] := by
      simpa using isLast
    rw [if_neg more]
    simp only [isLast, false_or]
    exact later

theorem decoded_letter (isLetter : unit ∈ base64EncodeChars)
    (later : ∀ pending sb, Decoded pending rest sb) :
    Decoded pending (unit :: rest) sb := by
  obtain ⟨sextet, isUnit, six⟩ := exists_sextet isLetter
  have sameCount := pending.count_push sextet
  have reads := pending.decodeLoop_letter sextet
    (rest.map usAscii.byteOf) sb
  rw [← isUnit] at reads
  have sameContent := content_congr sameCount rest
  have sameEnd : EndsOutsideGroup (pending.count + 1) rest ↔
      EndsOutsideGroup (pending.push sextet).count rest := by
    rw [EndsOutsideGroup, EndsOutsideGroup, ← sameContent, Nat.add_mod,
      ← sameCount, ← Nat.add_mod]
  have letters : sextets (unit :: content (pending.count + 1) rest) =
      sextet :: sextets (content (pending.count + 1) rest) :=
    List.filterMap_cons_some six
  have next := later (pending.push sextet)
    (sb ++ (pending.completed sextet).map (·.setWidth 16))
  rw [Decoded] at next
  rw [Decoded, endsOutsideGroup_letter isLetter six, sameEnd,
    content_letter isLetter, letters, List.map_cons, reads, ← sameContent,
    Pending.bytes, List.map_append, ← List.append_assoc]
  exact next

theorem decoded_padding (later : Decoded pending rest sb) :
    Decoded pending (padding :: rest) sb := by
  have isOther : padding ∉ base64EncodeChars := by decide
  have small : pending.count % 4 = pending.count :=
    Nat.mod_eq_of_lt (by cases pending <;> simp [Pending.count])
  by_cases early : pending.count < 2
  · refine decoded_skipped isOther (by omega) ?_ later
    exact Pending.decodeLoop_early_padding early _ sb
  · have closes : content pending.count (padding :: rest) = [] := by
      rw [content, if_pos ⟨rfl, by omega⟩]
    have ends : EndsOutsideGroup pending.count (padding :: rest) := by
      rw [EndsOutsideGroup, closes]
      exact Or.inl (by simp)
    have returns := @Pending.decodeLoop_late_padding pending (by omega)
      (rest.map usAscii.byteOf) sb
    refine ⟨fun _ => ?_, fun inside => absurd ends inside⟩
    rw [List.map_cons, returns, closes, sextets, List.filterMap_nil]
    cases pending <;> simp [Pending.bytes]

theorem decoded (pending : Pending) (str sb : List JChar) :
    Decoded pending str sb := by
  induction str generalizing pending sb with
  | nil => exact decoded_nil pending sb
  | cons unit rest inductionHypothesis =>
      by_cases isLetter : unit ∈ base64EncodeChars
      · exact decoded_letter isLetter inductionHypothesis
      · by_cases isPadding : unit = padding
        · rw [isPadding]
          exact decoded_padding (inductionHypothesis pending sb)
        · have noise := isNoiseByte_of_isNoise ⟨isLetter, isPadding⟩
          refine decoded_skipped isLetter (fun closes => isPadding closes.1)
            ?_ (inductionHypothesis pending sb)
          by_cases isLast : rest.map usAscii.byteOf = []
          · rw [if_pos isLast, isLast]
            exact decodeLoop_last _ noise sb
          · rw [if_neg isLast]
            exact decodeLoop_noise_cons _ noise isLast

end Run

/-- The decoder returns the whole bytes exactly from the strings that do not
end with a letter inside a group. -/
theorem decode_eq_wholeBytes_iff (str : List JChar) :
    decode str = .ok (wholeBytes (sextets (content 0 str))) ↔
      EndsOutsideGroup 0 str := by
  have result := decoded .none str []
  rw [Decoded, Pending.count, Pending.phase, Pending.bytes_none,
    List.nil_append, ← (decodeLoop_getBytes str).1] at result
  constructor
  · intro returns
    by_contra inside
    obtain ⟨failure, fails⟩ := result.2 inside
    rw [decode, fails] at returns
    cases returns
  · intro ends
    rw [decode, result.1 ends]
    change Except.ok (iso88591.getBytes _) = _
    rw [getBytes_iso88591]

/-- A space behind the letters keeps the decoder inside the data. -/
example : decode [0x51, 0x51, 0x20] = .ok [0x41] := by
  decide

theorem decode_two_letters :
    wholeBytes (sextets (content 0 [0x51, 0x51])) = [0x41] ∧
      decode [0x51, 0x51] = .error .arrayIndexOutOfBoundsException := by
  decide

end DripStone.Base64
