import DripStone.Library.JavaText

/-!
# `ByteArrayScanner`

A scanner reads one token after the other from a buffer of bytes.  It is a list
of tokens: the pieces between the delimiters, without an empty one at the end,
and every call takes one, whether it likes it or not.
-/

namespace DripStone.NetSpeed

open DripStone.Library

inductive ScanFailure where
  | illegalStateException (message : String)
  -- `Reading past end of input stream at `, and the offset
  | noSuchElementException (offset : Nat)
  -- `Invalid int in buffer at `, and the offset
  | numberFormatException (offset : Nat)
  | arrayIndexOutOfBoundsException
deriving DecidableEq, Repr

structure ByteArrayScanner where
  mData : Option (List JByte)
  mCurrentOffset : Nat
  mTotalLength : Nat
  mDelimiter : JChar
  mDelimiterSet : Bool

inductive ScanCall where
  | nextString
  | nextStringEquals (str : JString)
  | nextInt
  | skip
deriving DecidableEq, Repr

inductive ScanResult where
  | string (value : JString)
  | equals (value : Bool)
  | int (value : JInt)
  | nothing
deriving DecidableEq, Repr

/-- A signed byte against a character. -/
def sameUnit (byte : JByte) (unit : JChar) : Bool :=
  byte.toInt = unit.toNat

/-- `indexOf` between an offset and so many bytes behind it. -/
def indexOf (data : List JByte) (ch : JChar) :
    Nat → Nat → Except ScanFailure (Option Nat)
  | 0, _ => .ok none
  | count + 1, start =>
      match data[start]? with
      | none => .error .arrayIndexOutOfBoundsException
      | some byte =>
          if sameUnit byte ch then .ok (some start)
          else indexOf data ch count (start + 1)

/-- `parseInt` of so many bytes behind an offset; the value wraps. -/
def parseInt (buffer : List JByte) :
    Nat → Nat → JInt → Except ScanFailure JInt
  | 0, _, result => .ok result
  | count + 1, start, result =>
      match buffer[start]? with
      | none => .error .arrayIndexOutOfBoundsException
      | some byte =>
          let digit := byte.toInt - 48
          if digit < 0 ∨ 9 < digit then .error (.numberFormatException start)
          else parseInt buffer count (start + 1)
            (result * 10 + BitVec.ofInt 32 digit)

/-- The loop of `nextStringEquals`. -/
def equalsFrom (data : List JByte) :
    JString → Nat → Except ScanFailure Bool
  | [], _ => .ok true
  | unit :: str, offset =>
      match data[offset]? with
      | none => .error .arrayIndexOutOfBoundsException
      | some byte =>
          if sameUnit byte unit then equalsFrom data str (offset + 1)
          else .ok false

namespace ByteArrayScanner

def reset (scanner : ByteArrayScanner) (buffer : List JByte) (length : Nat) :
    ByteArrayScanner :=
  { scanner with
    mData := some buffer
    mCurrentOffset := 0
    mTotalLength := length
    mDelimiterSet := false }

def delimitedBy (scanner : ByteArrayScanner) (delimiter : JChar) :
    ByteArrayScanner :=
  { scanner with mDelimiter := delimiter, mDelimiterSet := true }

def useDelimiter (scanner : ByteArrayScanner) (delimiter : JChar) :
    Except ScanFailure ByteArrayScanner :=
  if scanner.mData.isNone then
    .error (.illegalStateException "Must call reset first")
  else .ok (scanner.delimitedBy delimiter)

/-- `advance`: the buffer, the length of the token and the scanner behind
it. -/
def advance (scanner : ByteArrayScanner) :
    Except ScanFailure (List JByte × Nat × ByteArrayScanner) :=
  match scanner.mData with
  | none => .error (.illegalStateException "Must call reset first")
  | some data =>
      if ¬ scanner.mDelimiterSet then
        .error (.illegalStateException "Must call useDelimiter first")
      else if scanner.mTotalLength ≤ scanner.mCurrentOffset then
        .error (.noSuchElementException scanner.mCurrentOffset)
      else
        (indexOf data scanner.mDelimiter
          (scanner.mTotalLength - scanner.mCurrentOffset)
          scanner.mCurrentOffset).map fun
          | none => (data, scanner.mTotalLength - scanner.mCurrentOffset,
              { scanner with mCurrentOffset := scanner.mTotalLength })
          | some index => (data, index - scanner.mCurrentOffset,
              { scanner with mCurrentOffset := index + 1 })

/-- What a call returns for the token that was passed; `decode` is
`new String`. -/
def resultOf (decode : List JByte → JString) (data : List JByte)
    (offset length : Nat) : ScanCall → Except ScanFailure ScanResult
  | .nextString => .ok (.string (decode ((data.drop offset).take length)))
  | .nextStringEquals str =>
      if str.length ≠ length then .ok (.equals false)
      else (equalsFrom data str offset).map .equals
  | .nextInt => (parseInt data length offset 0).map .int
  | .skip => .ok .nothing

def call (decode : List JByte → JString) (scanner : ByteArrayScanner)
    (scanCall : ScanCall) :
    Except ScanFailure ScanResult × ByteArrayScanner :=
  match scanner.advance with
  | .error failure => (.error failure, scanner)
  | .ok (data, length, next) =>
      (resultOf decode data scanner.mCurrentOffset length scanCall, next)

/-- The outcomes of calls, one after the other. -/
def callAll (decode : List JByte → JString) :
    ByteArrayScanner → List ScanCall → List (Except ScanFailure ScanResult)
  | _, [] => []
  | scanner, scanCall :: calls =>
      (scanner.call decode scanCall).1 ::
        callAll decode (scanner.call decode scanCall).2 calls

end ByteArrayScanner

/-! ## Tokens -/

/-- A token and the offset it stands at. -/
structure Token where
  offset : Nat
  bytes : List JByte

def isDigit (byte : JByte) : Bool :=
  48 ≤ byte.toInt && byte.toInt ≤ 57

/-- The number that digits stand for. -/
def decimalValue (digits : List JByte) : Nat :=
  digits.foldl (fun value digit => 10 * value + (digit.toNat - 48)) 0

/-- The pieces between the delimiters with their offsets; an empty piece at
the end is no token. -/
def tokensAt (delimiter : JChar) (offset : Nat) :
    List (List JByte) → List Token
  | [] => []
  | [[]] => []
  | piece :: rest =>
      ⟨offset, piece⟩ :: tokensAt delimiter (offset + piece.length + 1) rest

def tokens (delimiter : JChar) (bytes : List JByte) : List Token :=
  tokensAt delimiter 0 (bytes.splitOnP (sameUnit · delimiter))

/-- What a call makes of a token. -/
def Token.read (decode : List JByte → JString) (token : Token) :
    ScanCall → Except ScanFailure ScanResult
  | .nextString => .ok (.string (decode token.bytes))
  | .nextStringEquals str =>
      .ok (.equals (List.Forall₂ (fun byte unit => sameUnit byte unit = true)
        token.bytes str : Bool))
  | .nextInt =>
      match token.bytes.findIdx? fun byte => !isDigit byte with
      | some index => .error (.numberFormatException (token.offset + index))
      | none => .ok (.int (BitVec.ofNat 32 (decimalValue token.bytes)))
  | .skip => .ok .nothing

/-- Calls on a list of tokens in a buffer of a length: each takes one, and
none is left behind the last. -/
def readAll (decode : List JByte → JString) (length : Nat) :
    List Token → List ScanCall → List (Except ScanFailure ScanResult)
  | _, [] => []
  | [], _ :: calls =>
      .error (.noSuchElementException length) :: readAll decode length [] calls
  | token :: rest, scanCall :: calls =>
      token.read decode scanCall :: readAll decode length rest calls

/-! ## Reading in the buffer -/

section Buffer

variable {data piece rest : List JByte} {start : Nat} {ch : JChar}

theorem getElem?_of_drop {byte : JByte}
    (here : data.drop start = byte :: rest) : data[start]? = some byte := by
  have first := congrArg (fun bytes => bytes[0]?) here
  rwa [List.getElem?_drop, Nat.add_zero] at first

theorem drop_succ_of_drop {byte : JByte}
    (here : data.drop start = byte :: rest) : data.drop (start + 1) = rest := by
  rw [← List.drop_drop, here, List.drop_one, List.tail_cons]

/-- The search passes over a piece without the character. -/
theorem indexOf_append (count : Nat) (here : data.drop start = piece ++ rest)
    (absent : ∀ byte ∈ piece, sameUnit byte ch = false) :
    indexOf data ch (piece.length + count) start =
      indexOf data ch count (start + piece.length) := by
  induction piece generalizing start with
  | nil => rw [List.length_nil, Nat.zero_add, Nat.add_zero]
  | cons byte piece inductionHypothesis =>
      have further := inductionHypothesis (drop_succ_of_drop here)
        fun other inPiece => absent other (List.mem_cons_of_mem _ inPiece)
      have different := absent byte List.mem_cons_self
      have arranged : (byte :: piece).length + count =
          piece.length + count + 1 := by
        rw [List.length_cons]
        omega
      have shifted : start + (byte :: piece).length =
          start + 1 + piece.length := by
        rw [List.length_cons]
        omega
      rw [arranged, indexOf, getElem?_of_drop here, shifted, ← further]
      exact if_neg (Bool.not_eq_true _ ▸ different)

theorem digit_of_isDigit {byte : JByte} (digit : isDigit byte = true) :
    byte.toInt = byte.toNat ∧ 48 ≤ byte.toNat ∧ byte.toNat ≤ 57 := by
  rw [isDigit, Bool.and_eq_true, decide_eq_true_iff, decide_eq_true_iff]
    at digit
  have value := BitVec.toInt_eq_toNat_cond byte
  have small := byte.isLt
  split at value <;> omega

/-- The value so far and the digits that follow. -/
theorem parseInt_drop (value : Nat) (here : data.drop start = piece ++ rest) :
    parseInt data piece.length start (BitVec.ofNat 32 value) =
      match piece.findIdx? fun byte => !isDigit byte with
      | some index => .error (.numberFormatException (start + index))
      | none => .ok (BitVec.ofNat 32 (piece.foldl
          (fun value digit => 10 * value + (digit.toNat - 48)) value)) := by
  induction piece generalizing start value with
  | nil => rfl
  | cons byte piece inductionHypothesis =>
      rw [List.length_cons, parseInt, getElem?_of_drop here,
        List.findIdx?_cons]
      cases digit : isDigit byte with
      | false =>
          have out : byte.toInt - 48 < 0 ∨ 9 < byte.toInt - 48 := by
            rw [isDigit, Bool.and_eq_false_iff, decide_eq_false_iff_not,
              decide_eq_false_iff_not] at digit
            omega
          simp only [out, ↓reduceIte, Bool.not_false]
          rfl
      | true =>
          obtain ⟨same, low, high⟩ := digit_of_isDigit digit
          have inside : ¬(byte.toInt - 48 < 0 ∨ 9 < byte.toInt - 48) := by
            omega
          have next : BitVec.ofNat 32 value * 10 +
              BitVec.ofInt 32 (byte.toInt - 48) =
                BitVec.ofNat 32 (10 * value + (byte.toNat - 48)) := by
            have natural :
                byte.toInt - 48 = ((byte.toNat - 48 : Nat) : Int) := by
              omega
            rw [natural, BitVec.ofInt_natCast, BitVec.ofNat_add,
              BitVec.ofNat_mul, BitVec.mul_comm]
            rfl
          simp only [inside, ↓reduceIte, Bool.not_true, Bool.false_eq_true]
          rw [next, inductionHypothesis _ (drop_succ_of_drop here),
            List.foldl_cons]
          cases piece.findIdx? fun byte => !isDigit byte with
          | none => rfl
          | some index =>
              simp only [Option.map_some, Except.error.injEq,
                ScanFailure.numberFormatException.injEq]
              omega

theorem equalsFrom_drop {str : JString} (sameLength : str.length = piece.length)
    (here : data.drop start = piece ++ rest) :
    equalsFrom data str start =
      .ok (List.Forall₂ (fun byte unit => sameUnit byte unit = true)
        piece str : Bool) := by
  induction piece generalizing start str with
  | nil =>
      rw [List.length_nil, List.length_eq_zero_iff] at sameLength
      rw [sameLength]
      rfl
  | cons byte piece inductionHypothesis =>
      cases str with
      | nil => cases sameLength
      | cons unit str =>
          rw [equalsFrom, getElem?_of_drop here]
          have further := inductionHypothesis (Nat.succ.inj sameLength)
            (drop_succ_of_drop here)
          cases same : sameUnit byte unit with
          | false => simp [List.forall₂_cons, same]
          | true => simpa [List.forall₂_cons, same] using further

end Buffer

/-! ## The scanner as a list of tokens -/

section Scanner

variable {data : List JByte} {delimiter : JChar} {length : Nat}
variable {scanner : ByteArrayScanner}

/-- A scanner within the first bytes of a buffer. -/
structure Scans (data : List JByte) (delimiter : JChar) (length : Nat)
    (scanner : ByteArrayScanner) : Prop where
  mData : scanner.mData = some data
  mDelimiter : scanner.mDelimiter = delimiter
  mDelimiterSet : scanner.mDelimiterSet = true
  mTotalLength : scanner.mTotalLength = length
  inBuffer : length ≤ data.length
  inLength : scanner.mCurrentOffset ≤ length

/-- What is left to scan. -/
def ByteArrayScanner.left (scanner : ByteArrayScanner) (data : List JByte)
    (length : Nat) : List JByte :=
  (data.take length).drop scanner.mCurrentOffset

def ByteArrayScanner.tokens (scanner : ByteArrayScanner) (data : List JByte)
    (delimiter : JChar) (length : Nat) : List Token :=
  tokensAt delimiter scanner.mCurrentOffset
    ((scanner.left data length).splitOnP (sameUnit · delimiter))

theorem tokensAt_cons {offset : Nat} {piece : List JByte}
    {rest : List (List JByte)} (more : piece ≠ [] ∨ rest ≠ []) :
    tokensAt delimiter offset (piece :: rest) =
      ⟨offset, piece⟩ ::
        tokensAt delimiter (offset + piece.length + 1) rest := by
  cases piece with
  | nil =>
      cases rest with
      | nil => simp at more
      | cons next rest => rfl
  | cons byte piece =>
      cases rest <;> rfl

/-- The result for a token is what is read in it. -/
theorem resultOf_eq_read (decode : List JByte → JString)
    {piece rest : List JByte} {offset : Nat}
    (here : data.drop offset = piece ++ rest) (scanCall : ScanCall) :
    ByteArrayScanner.resultOf decode data offset piece.length scanCall =
      Token.read decode ⟨offset, piece⟩ scanCall := by
  cases scanCall with
  | nextString =>
      rw [ByteArrayScanner.resultOf, here, List.take_left, Token.read]
  | nextStringEquals str =>
      rw [ByteArrayScanner.resultOf, Token.read]
      split
      · next different =>
          have never : ¬ List.Forall₂
              (fun byte unit => sameUnit byte unit = true) piece str :=
            fun equal => different equal.length_eq.symm
          simp only [never, decide_false]
      · next same =>
          rw [equalsFrom_drop (not_not.mp same) here]
          rfl
  | nextInt =>
      rw [ByteArrayScanner.resultOf, Token.read,
        show (0 : JInt) = BitVec.ofNat 32 0 from rfl, parseInt_drop 0 here]
      cases piece.findIdx? fun byte => !isDigit byte <;> rfl
  | skip => rfl

/-- What is left begins with a piece; it ends it or a delimiter follows. -/
theorem exists_piece (delimiter : JChar) {bytes : List JByte}
    (nonempty : bytes ≠ []) :
    ∃ piece, (∀ byte ∈ piece, sameUnit byte delimiter = false) ∧
      (bytes = piece ∨ ∃ byte rest, sameUnit byte delimiter = true ∧
        bytes = piece ++ byte :: rest) := by
  induction bytes with
  | nil => exact absurd rfl nonempty
  | cons byte bytes inductionHypothesis =>
      cases isDelimiter : sameUnit byte delimiter with
      | true =>
          exact ⟨[], fun _ impossible => (by cases impossible),
            Or.inr ⟨byte, bytes, isDelimiter, rfl⟩⟩
      | false =>
          by_cases empty : bytes = []
          · refine ⟨[byte], ?_, Or.inl (by rw [empty])⟩
            intro other inPiece
            rwa [List.mem_singleton.mp inPiece]
          · obtain ⟨piece, absent, ends⟩ := inductionHypothesis empty
            refine ⟨byte :: piece, ?_, ?_⟩
            · intro other inPiece
              rcases List.mem_cons.mp inPiece with rfl | inRest
              · exact isDelimiter
              · exact absent other inRest
            · rcases ends with rfl | ⟨last, rest, isLast, rfl⟩
              · exact Or.inl rfl
              · exact Or.inr ⟨last, rest, isLast, rfl⟩

theorem drop_of_left (scans : Scans data delimiter length scanner) :
    data.drop scanner.mCurrentOffset =
      scanner.left data length ++ data.drop length := by
  rw [ByteArrayScanner.left, List.drop_take]
  conv_lhs => rw [← List.take_append_drop
    (length - scanner.mCurrentOffset) (data.drop scanner.mCurrentOffset)]
  rw [List.drop_drop, Nat.add_sub_cancel' scans.inLength]

theorem length_left (scans : Scans data delimiter length scanner) :
    (scanner.left data length).length =
      length - scanner.mCurrentOffset := by
  rw [ByteArrayScanner.left, List.length_drop, List.length_take,
    Nat.min_eq_left scans.inBuffer]

theorem call_of_finished (decode : List JByte → JString)
    (scans : Scans data delimiter length scanner)
    (finished : scanner.left data length = []) (scanCall : ScanCall) :
    scanner.call decode scanCall =
      (.error (.noSuchElementException length), scanner) := by
  have size := length_left scans
  rw [finished, List.length_nil] at size
  have atEnd : scanner.mCurrentOffset = length := by
    have := scans.inLength
    omega
  rw [ByteArrayScanner.call, ByteArrayScanner.advance, scans.mData]
  simp only [scans.mDelimiterSet, not_true_eq_false, ↓reduceIte,
    scans.mTotalLength, atEnd, le_refl]

theorem advance_of_left (scans : Scans data delimiter length scanner)
    (unfinished : scanner.left data length ≠ []) :
    scanner.advance =
      (indexOf data delimiter (length - scanner.mCurrentOffset)
        scanner.mCurrentOffset).map fun
        | none => (data, length - scanner.mCurrentOffset,
            { scanner with mCurrentOffset := length })
        | some index => (data, index - scanner.mCurrentOffset,
            { scanner with mCurrentOffset := index + 1 }) := by
  have size := length_left scans
  have positive := List.length_pos_iff.mpr unfinished
  have running : ¬ length ≤ scanner.mCurrentOffset := by omega
  rw [ByteArrayScanner.advance, scans.mData]
  simp only [scans.mDelimiterSet, not_true_eq_false, ↓reduceIte,
    scans.mTotalLength, running, scans.mDelimiter]

/-- Without a delimiter all that is left is the last token. -/
theorem advance_of_last (scans : Scans data delimiter length scanner)
    (unfinished : scanner.left data length ≠ [])
    (absent : ∀ byte ∈ scanner.left data length,
      sameUnit byte delimiter = false) :
    scanner.advance = .ok (data, (scanner.left data length).length,
      { scanner with mCurrentOffset := length }) := by
  have passed := indexOf_append 0 (drop_of_left scans) absent
  rw [Nat.add_zero, length_left scans] at passed
  rw [advance_of_left scans unfinished, passed, length_left scans]
  rfl

/-- A token ends before the first delimiter. -/
theorem advance_of_piece {piece rest : List JByte} {byte : JByte}
    (scans : Scans data delimiter length scanner)
    (absent : ∀ byte ∈ piece, sameUnit byte delimiter = false)
    (isDelimiter : sameUnit byte delimiter = true)
    (whole : scanner.left data length = piece ++ byte :: rest) :
    scanner.advance = .ok (data, piece.length,
      { scanner with
        mCurrentOffset := scanner.mCurrentOffset + piece.length + 1 }) := by
  have unfinished : scanner.left data length ≠ [] := by
    rw [whole]
    simp
  have size := length_left scans
  rw [whole, List.length_append, List.length_cons] at size
  have here := drop_of_left scans
  rw [whole, List.append_assoc, List.cons_append] at here
  have passed := indexOf_append (rest.length + 1) here absent
  have atDelimiter : data.drop (scanner.mCurrentOffset + piece.length) =
      byte :: (rest ++ data.drop length) := by
    rw [← List.drop_drop, here, List.drop_left]
  rw [advance_of_left scans unfinished, ← size, passed, indexOf,
    getElem?_of_drop atDelimiter]
  simp only [isDelimiter, ↓reduceIte, Except.map, Nat.add_sub_cancel_left]

/-- A call with something left takes the first token. -/
theorem call_of_left (decode : List JByte → JString)
    (scans : Scans data delimiter length scanner)
    (unfinished : scanner.left data length ≠ []) (scanCall : ScanCall) :
    ∃ token, scanner.tokens data delimiter length =
        token :: (scanner.call decode scanCall).2.tokens data delimiter
          length ∧
      (scanner.call decode scanCall).1 = token.read decode scanCall ∧
      Scans data delimiter length (scanner.call decode scanCall).2 := by
  have here := drop_of_left scans
  obtain ⟨piece, absent, whole | ⟨byte, rest, isDelimiter, whole⟩⟩ :=
    exists_piece delimiter unfinished
  · refine ⟨⟨scanner.mCurrentOffset, piece⟩, ?_⟩
    have advanced := advance_of_last scans unfinished (whole ▸ absent)
    have nonempty : piece ≠ [] := whole ▸ unfinished
    rw [ByteArrayScanner.call, advanced, whole]
    rw [whole] at here
    refine ⟨?_, resultOf_eq_read decode here scanCall, ?_⟩
    · have atEnd : (data.take length).drop length = [] := by
        rw [List.drop_eq_nil_iff]
        exact List.length_take_le _ _
      rw [ByteArrayScanner.tokens, whole, List.splitOnP_eq_singleton absent,
        tokensAt_cons (Or.inl nonempty), ByteArrayScanner.tokens,
        ByteArrayScanner.left, atEnd]
      rfl
    · exact ⟨scans.mData, scans.mDelimiter, scans.mDelimiterSet,
        scans.mTotalLength, scans.inBuffer, le_rfl⟩
  · refine ⟨⟨scanner.mCurrentOffset, piece⟩, ?_⟩
    have size := length_left scans
    rw [whole, List.length_append, List.length_cons] at size
    rw [ByteArrayScanner.call,
      advance_of_piece scans absent isDelimiter whole]
    rw [whole, List.append_assoc] at here
    refine ⟨?_, resultOf_eq_read decode here scanCall, ?_⟩
    · have behind : (data.take length).drop
          (scanner.mCurrentOffset + piece.length + 1) = rest := by
        rw [ByteArrayScanner.left] at whole
        rw [Nat.add_assoc, ← List.drop_drop, whole, ← List.drop_drop,
          List.drop_left]
        rfl
      rw [ByteArrayScanner.tokens, whole,
        List.splitOnP_append_cons_of_forall_mem absent byte isDelimiter,
        tokensAt_cons (Or.inr (List.splitOnP_ne_nil _ _)),
        ByteArrayScanner.tokens, ByteArrayScanner.left, behind]
    · refine ⟨scans.mData, scans.mDelimiter, scans.mDelimiterSet,
        scans.mTotalLength, scans.inBuffer, ?_⟩
      show scanner.mCurrentOffset + piece.length + 1 ≤ length
      omega

theorem callAll_eq_readAll (decode : List JByte → JString)
    (scans : Scans data delimiter length scanner) (calls : List ScanCall) :
    scanner.callAll decode calls =
      readAll decode length (scanner.tokens data delimiter length) calls := by
  induction calls generalizing scanner with
  | nil => rw [ByteArrayScanner.callAll, readAll]
  | cons scanCall calls inductionHypothesis =>
      rw [ByteArrayScanner.callAll]
      by_cases finished : scanner.left data length = []
      · rw [call_of_finished decode scans finished,
          inductionHypothesis scans]
        have none : scanner.tokens data delimiter length = [] := by
          rw [ByteArrayScanner.tokens, finished]
          rfl
        rw [none, readAll]
      · obtain ⟨token, isFirst, result, further⟩ :=
          call_of_left decode scans finished scanCall
        rw [isFirst, readAll, result, inductionHypothesis further]

theorem useDelimiter_reset (before : ByteArrayScanner) (data : List JByte)
    (length : Nat) (delimiter : JChar) :
    (before.reset data length).useDelimiter delimiter =
      .ok ((before.reset data length).delimitedBy delimiter) :=
  if_neg Bool.false_ne_true

theorem callAll_delimitedBy (decode : List JByte → JString)
    (before : ByteArrayScanner) (inBuffer : length ≤ data.length)
    (delimiter : JChar) (calls : List ScanCall) :
    ((before.reset data length).delimitedBy delimiter).callAll decode calls =
      readAll decode length (tokens delimiter (data.take length)) calls :=
  callAll_eq_readAll decode
    ⟨rfl, rfl, rfl, rfl, inBuffer, Nat.zero_le length⟩ calls

/-- After `reset` and `useDelimiter` the calls, whatever they are, read the
tokens of the first bytes of the buffer one by one, and then find none. -/
theorem scanner_reads_tokens (decode : List JByte → JString)
    (before : ByteArrayScanner) (inBuffer : length ≤ data.length)
    (delimiter : JChar) (calls : List ScanCall) :
    ((before.reset data length).useDelimiter delimiter).map
        (·.callAll decode calls) =
      .ok (readAll decode length
        (tokens delimiter (data.take length)) calls) := by
  rw [useDelimiter_reset, Except.map,
    callAll_delimitedBy decode before inBuffer]

/-- A decoding of bytes one by one. -/
def latin (bytes : List JByte) : JString :=
  bytes.map (·.setWidth 16)

/-- `a,,b,` has three tokens. -/
theorem scanner_reads_threeTokens :
    (((ByteArrayScanner.mk none 0 0 0 false).reset
        [97, 44, 44, 98, 44, 0, 0] 5).useDelimiter 44).map
      (·.callAll latin [.nextString, .nextInt, .skip, .skip]) =
      .ok (readAll latin 5 (tokens 44 [97, 44, 44, 98, 44])
        [.nextString, .nextInt, .skip, .skip]) :=
  scanner_reads_tokens latin _ (by decide) _ _

end Scanner

/-! ## Numbers -/

section Numbers

/-- The decimal digits of a number as bytes. -/
def decimal (number : Nat) : List JByte :=
  (Nat.toDigits 10 number).map fun letter => BitVec.ofNat 8 letter.toNat

theorem toNat_of_isDigit {letter : Char} (digit : letter.isDigit = true) :
    (BitVec.ofNat 8 letter.toNat).toNat = letter.toNat ∧
      48 ≤ letter.toNat ∧ letter.toNat ≤ 57 := by
  rw [Char.isDigit, Bool.and_eq_true, decide_eq_true_iff,
    decide_eq_true_iff] at digit
  have low : 48 ≤ letter.toNat := digit.1
  have high : letter.toNat ≤ 57 := digit.2
  rw [BitVec.toNat_ofNat, Nat.mod_eq_of_lt (by omega)]
  exact ⟨rfl, low, high⟩

theorem isDigit_of_mem_decimal {number : Nat} {byte : JByte}
    (inDecimal : byte ∈ decimal number) : isDigit byte = true := by
  obtain ⟨letter, inDigits, rfl⟩ := List.mem_map.mp inDecimal
  obtain ⟨same, low, high⟩ := toNat_of_isDigit
    (Nat.isDigit_of_mem_toDigits (by decide) (le_refl 10) inDigits)
  have value := BitVec.toInt_eq_toNat_cond (BitVec.ofNat 8 letter.toNat)
  rw [if_pos (by omega)] at value
  rw [isDigit, value, same, Bool.and_eq_true, decide_eq_true_iff,
    decide_eq_true_iff]
  omega

theorem decimalValue_decimal (number : Nat) :
    decimalValue (decimal number) = number := by
  have fold : ∀ (letters : List Char) (value : Nat),
      (∀ letter ∈ letters, letter.isDigit = true) →
        (letters.map fun letter => BitVec.ofNat 8 letter.toNat).foldl
            (fun value digit => 10 * value + (digit.toNat - 48)) value =
          Nat.ofDigitChars 10 letters value := by
    intro letters
    induction letters with
    | nil => exact fun value _ => (Nat.ofDigitChars_nil).symm
    | cons letter letters inductionHypothesis =>
        intro value digits
        obtain ⟨same, -⟩ :=
          toNat_of_isDigit (digits letter List.mem_cons_self)
        rw [List.map_cons, List.foldl_cons, Nat.ofDigitChars_cons, same]
        exact inductionHypothesis _ fun other inRest =>
          digits other (List.mem_cons_of_mem _ inRest)
  rw [decimalValue, decimal, fold _ _ fun letter inDigits =>
    Nat.isDigit_of_mem_toDigits (by decide) (le_refl 10) inDigits]
  exact Nat.ofDigitChars_ten_toDigits

theorem decimal_ne_nil (number : Nat) : decimal number ≠ [] := by
  rw [decimal, Ne, List.map_eq_nil_iff]
  exact Nat.toDigits_ne_nil

theorem read_decimal (decode : List JByte → JString) (offset number : Nat) :
    Token.read decode ⟨offset, decimal number⟩ .nextInt =
      .ok (.int (BitVec.ofNat 32 number)) := by
  have allDigits : (decimal number).findIdx? (fun byte => !isDigit byte) =
      none := by
    rw [List.findIdx?_eq_none_iff]
    intro byte inDecimal
    rw [isDigit_of_mem_decimal inDecimal]
    rfl
  simp only [Token.read, allDigits, decimalValue_decimal]

theorem readAll_nil (decode : List JByte → JString) (length : Nat)
    (calls : List ScanCall) :
    readAll decode length [] calls =
      calls.map fun _ => .error (.noSuchElementException length) := by
  induction calls with
  | nil => rfl
  | cons call calls inductionHypothesis =>
      rw [readAll, inductionHypothesis]
      rfl

theorem readAll_decimals (decode : List JByte → JString) (length : Nat)
    (delimiter : JChar) (numbers : List Nat) (further : List ScanCall)
    (offset : Nat) :
    readAll decode length
        (tokensAt delimiter offset (numbers.map decimal))
        (List.replicate numbers.length .nextInt ++ further) =
      numbers.map (fun number => .ok (.int (BitVec.ofNat 32 number))) ++
        further.map fun _ => .error (.noSuchElementException length) := by
  induction numbers generalizing offset with
  | nil => exact readAll_nil decode length further
  | cons number numbers inductionHypothesis =>
      rw [List.map_cons, tokensAt_cons (Or.inl (decimal_ne_nil number)),
        List.length_cons, List.replicate_succ, List.cons_append, readAll,
        read_decimal, inductionHypothesis]
      rfl

theorem sameUnit_eq {separator : JByte} {delimiter : JChar}
    (separates : sameUnit separator delimiter = true) :
    (sameUnit · delimiter) = (· == separator) := by
  funext byte
  rw [sameUnit, decide_eq_true_iff] at separates
  rw [sameUnit, Bool.eq_iff_iff, decide_eq_true_iff, beq_iff_eq, ← separates]
  exact BitVec.toInt_inj

theorem splitOnP_decimals {numbers : List Nat} {separator : JByte}
    {delimiter : JChar} (nonempty : numbers ≠ [])
    (separates : sameUnit separator delimiter = true)
    (noDigit : isDigit separator = false) :
    ([separator].intercalate (numbers.map decimal)).splitOnP
        (sameUnit · delimiter) = numbers.map decimal := by
  rw [sameUnit_eq separates]
  apply List.splitOn_intercalate
  · intro digits inDecimals inDigits
    obtain ⟨number, -, rfl⟩ := List.mem_map.mp inDecimals
    have digit := isDigit_of_mem_decimal inDigits
    rw [noDigit] at digit
    cases digit
  · rwa [Ne, List.map_eq_nil_iff]

/-- Numbers written in decimal with a separator that is no digit are read back,
each to 32 bits, and every further call finds nothing more. -/
theorem scanner_reads_numbers (decode : List JByte → JString)
    (before : ByteArrayScanner) (numbers : List Nat)
    (further : List ScanCall) {separator : JByte} {delimiter : JChar}
    (separates : sameUnit separator delimiter = true)
    (noDigit : isDigit separator = false) :
    let bytes := [separator].intercalate (numbers.map decimal)
    ((before.reset bytes bytes.length).useDelimiter delimiter).map
        (·.callAll decode
          (List.replicate numbers.length .nextInt ++ further)) =
      .ok (numbers.map (fun number => .ok (.int (BitVec.ofNat 32 number))) ++
        further.map fun _ =>
          .error (.noSuchElementException bytes.length)) := by
  intro bytes
  have pieces : tokens delimiter bytes =
      tokensAt delimiter 0 (numbers.map decimal) := by
    rw [tokens]
    by_cases none : numbers = []
    · rw [show bytes = [] by simp [bytes, none], none]
      rfl
    · rw [splitOnP_decimals none separates noDigit]
  rw [useDelimiter_reset, Except.map, callAll_delimitedBy decode before le_rfl,
    List.take_length, pieces, readAll_decimals]

/-- `10 2048`, with a blank between, and two calls more. -/
theorem scanner_reads_twoNumbers :
    let bytes := [(32 : JByte)].intercalate ([10, 2048].map decimal)
    (((ByteArrayScanner.mk none 0 0 0 false).reset bytes
        bytes.length).useDelimiter 32).map
        (·.callAll latin
          (List.replicate 2 .nextInt ++ [.nextInt, .nextString])) =
      .ok ([10, 2048].map (fun number => .ok (.int (BitVec.ofNat 32 number))) ++
        [.error (.noSuchElementException bytes.length),
          .error (.noSuchElementException bytes.length)]) :=
  scanner_reads_numbers latin _ [10, 2048] [.nextInt, .nextString] (by decide)
    (by decide)

end Numbers

end DripStone.NetSpeed
