import DripStone.Library.Md5
import DripStone.Library.Mealy

/-!
# `MD5Utils`

All calls of `getMD5` share one `MessageDigest`.  A file that cannot be read
to its end leaves its bytes in it, and the next call that returns a value
takes the digest of those bytes and its own.
-/

namespace DripStone.MD5Utils

open DripStone.Library

/-! ## Hexadecimal digits -/

def HEXDIGITS : JString :=
  ['0', '1', '2', '3', '4', '5', '6', '7', '8', '9', 'a', 'b', 'c', 'd', 'e',
    'f'].map fun digit => BitVec.ofNat 16 digit.toNat

/-- `appendHexPair`; the byte is widened to an `int` before it is masked. -/
def appendHexPair (bt : JByte) (stringbuffer : JString) : JString :=
  let wide : JInt := bt.signExtend 32
  let c0 := HEXDIGITS.getD ((wide &&& 0xf0).sshiftRight 4).toNat 0
  let c1 := HEXDIGITS.getD (wide &&& 0xf).toNat 0
  stringbuffer ++ [c0, c1]

/-- `bufferToHex(bytes, m, n)` -/
def bufferToHexRange (bytes : List JByte) (m n : Nat) : JString :=
  ((bytes.drop m).take n).foldl
    (fun stringbuffer bt => appendHexPair bt stringbuffer) []

def bufferToHex (bytes : List JByte) : JString :=
  bufferToHexRange bytes 0 bytes.length

/-! ## Files -/

/-- What one `read` into the buffer returns. -/
structure Chunk where
  bytes : List JByte
  positive : 0 < bytes.length
  atMostBuffer : bytes.length ≤ 1024

inductive Ending where
  | readThrows
  | closeThrows
  | closed
deriving DecidableEq, Repr

/-- How the reading of a file goes. -/
inductive FileAccess where
  | fileNotFound
  | opened (chunks : List Chunk) (ending : Ending)

/-- The bytes that are read. -/
def FileAccess.bytes : FileAccess → List JByte
  | .fileNotFound => []
  | .opened chunks _ => chunks.flatMap Chunk.bytes

/-! ## `getMD5` -/

def getMD5OfBytes (bytes : List JByte) (messageDigest : MessageDigest) :
    JString × MessageDigest :=
  let (taken, next) := (messageDigest.update bytes).digest
  (bufferToHex taken, next)

/-- The loop of the `read` calls. -/
def readAll : List Chunk → MessageDigest → MessageDigest
  | [], messageDigest => messageDigest
  | buffer :: rest, messageDigest =>
      readAll rest (messageDigest.update buffer.bytes)

def getMD5OfFile (file : FileAccess) (messageDigest : MessageDigest) :
    JString × MessageDigest :=
  match file with
  | .fileNotFound => ([], messageDigest)
  | .opened chunks .readThrows => ([], readAll chunks messageDigest)
  | .opened chunks .closeThrows => ([], readAll chunks messageDigest)
  | .opened chunks .closed =>
      let (taken, next) := (readAll chunks messageDigest).digest
      (bufferToHex taken, next)

inductive Call where
  | string (s : JString)
  | bytes (array : List JByte)
  | file (access : FileAccess)

section Charset

-- `String.getBytes`, in the default charset
variable (getBytes : JString → List JByte)

def getMD5 (call : Call) (messageDigest : MessageDigest) :
    JString × MessageDigest :=
  match call with
  | .string s => getMD5OfBytes (getBytes s) messageDigest
  | .bytes array => getMD5OfBytes array messageDigest
  | .file access => getMD5OfFile access messageDigest

/-- The shared object after calls, from its creation on. -/
def messageDigestAfter (calls : List Call) : MessageDigest :=
  calls.foldl
    (fun messageDigest call => (getMD5 getBytes call messageDigest).2)
    .getInstance

/-- The input of a call. -/
def Call.input : Call → List JByte
  | .string s => getBytes s
  | .bytes array => array
  | .file access => access.bytes

/-! ## The law -/

/-- Two digits for each byte, the high one first. -/
def lowerHex (digest : List JByte) : JString :=
  (digest.flatMap fun byte =>
    [Nat.digitChar (byte.toNat / 16), Nat.digitChar (byte.toNat % 16)]).map
      fun digit => BitVec.ofNat 16 digit.toNat

/-- A value that is returned is the digest of the call's own input. -/
def ReturnsOwn (before : List Call) (call : Call) : Prop :=
  let result := (getMD5 getBytes call (messageDigestAfter getBytes before)).1
  result ≠ [] →
    result = lowerHex (md5 (call.input getBytes)) ∧ result.length = 32

/-- The call comes to its end. -/
def Call.Completes : Call → Prop
  | .file .fileNotFound => False
  | .file (.opened _ ending) => ending = .closed
  | _ => True

instance (call : Call) : Decidable call.Completes :=
  match call with
  | .string _ => .isTrue trivial
  | .bytes _ => .isTrue trivial
  | .file .fileNotFound => .isFalse id
  | .file (.opened _ ending) => inferInstanceAs (Decidable (ending = .closed))

/-- The bytes read by the calls that failed since the last one that did
not. -/
def leftover (before : List Call) : List JByte :=
  before.foldl
    (fun fed call =>
      if call.Completes then [] else fed ++ call.input getBytes) []

/-- If the call completes, the failed calls in front of it had read
nothing. -/
def StartsClean (before : List Call) (call : Call) : Prop :=
  call.Completes → leftover getBytes before = []

/-! ## Hexadecimal digits -/

theorem appendHexPair_eq (bt : JByte) (stringbuffer : JString) :
    appendHexPair bt stringbuffer = stringbuffer ++ lowerHex [bt] := by
  have pairs : ∀ value : Fin 256,
      appendHexPair (BitVec.ofFin value) [] =
        lowerHex [BitVec.ofFin value] := by
    decide +kernel
  have pair := pairs bt.toFin
  rw [appendHexPair, ← pair, appendHexPair]
  rfl

theorem lowerHex_append (first rest : List JByte) :
    lowerHex (first ++ rest) = lowerHex first ++ lowerHex rest := by
  rw [lowerHex, List.flatMap_append, List.map_append, lowerHex, lowerHex]

/-- Spec lemma: `bufferToHex`. -/
theorem bufferToHex_eq (bytes : List JByte) :
    bufferToHex bytes = lowerHex bytes := by
  rw [bufferToHex, bufferToHexRange, List.drop_zero, List.take_length]
  induction bytes using List.reverseRecOn with
  | nil => rfl
  | append_singleton initial bt inductionHypothesis =>
      rw [List.foldl_concat, inductionHypothesis, appendHexPair_eq,
        lowerHex_append]

theorem length_lowerHex (digest : List JByte) :
    (lowerHex digest).length = 2 * digest.length := by
  induction digest with
  | nil => rfl
  | cons byte rest inductionHypothesis =>
      have split := lowerHex_append [byte] rest
      rw [List.singleton_append] at split
      rw [split, List.length_append, inductionHypothesis, List.length_cons]
      change 2 + 2 * rest.length = 2 * (rest.length + 1)
      omega

/-! ## What a call does -/

theorem readAll_eq (chunks : List Chunk) (messageDigest : MessageDigest) :
    readAll chunks messageDigest =
      messageDigest.update (chunks.flatMap Chunk.bytes) := by
  induction chunks generalizing messageDigest with
  | nil => simp [readAll, MessageDigest.update]
  | cons buffer rest inductionHypothesis =>
      rw [readAll, inductionHypothesis]
      simp [MessageDigest.update]

/-- Spec lemma: a call that completes takes the digest of all bytes that have
been fed. -/
theorem getMD5_of_completes {call : Call} (completes : call.Completes)
    (messageDigest : MessageDigest) :
    getMD5 getBytes call messageDigest =
      (lowerHex (md5 (messageDigest.fed ++ call.input getBytes)),
        .getInstance) := by
  have ofBytes : ∀ bytes, getMD5OfBytes bytes messageDigest =
      (lowerHex (md5 (messageDigest.fed ++ bytes)), .getInstance) := by
    intro bytes
    rw [getMD5OfBytes, MessageDigest.digest_update, ← bufferToHex_eq]
  cases call with
  | string s => exact ofBytes _
  | bytes array => exact ofBytes _
  | file access =>
      cases access with
      | fileNotFound => exact completes.elim
      | opened chunks ending =>
          have isClosed : ending = .closed := completes
          subst isClosed
          rw [getMD5, getMD5OfFile, readAll_eq, MessageDigest.digest_update,
            ← bufferToHex_eq]
          rfl

/-- Spec lemma: a call that fails leaves what it has read. -/
theorem getMD5_of_fails {call : Call} (fails : ¬call.Completes)
    (messageDigest : MessageDigest) :
    getMD5 getBytes call messageDigest =
      ([], messageDigest.update (call.input getBytes)) := by
  cases call with
  | string s => exact absurd trivial fails
  | bytes array => exact absurd trivial fails
  | file access =>
      cases access with
      | fileNotFound =>
          simp [getMD5, getMD5OfFile, Call.input, FileAccess.bytes,
            MessageDigest.update]
      | opened chunks ending =>
          cases ending with
          | closed => exact absurd rfl fails
          | readThrows => rw [getMD5, getMD5OfFile, readAll_eq]; rfl
          | closeThrows => rw [getMD5, getMD5OfFile, readAll_eq]; rfl

/-! ## Runs -/

/-- Run lemma: the shared object holds what the failed calls have read. -/
theorem fed_messageDigestAfter (before : List Call) :
    (messageDigestAfter getBytes before).fed = leftover getBytes before := by
  induction before using List.reverseRecOn with
  | nil => rfl
  | append_singleton before call inductionHypothesis =>
      rw [messageDigestAfter, List.foldl_concat, leftover, List.foldl_concat,
        ← messageDigestAfter, ← leftover]
      by_cases completes : call.Completes
      · rw [getMD5_of_completes getBytes completes, if_pos completes]
        rfl
      · rw [getMD5_of_fails getBytes completes, if_neg completes,
          ← inductionHypothesis]
        rfl

/-- The value of any call in any run. -/
theorem getMD5_after (before : List Call) (call : Call) :
    (getMD5 getBytes call (messageDigestAfter getBytes before)).1 =
      if call.Completes then
        lowerHex (md5 (leftover getBytes before ++ call.input getBytes))
      else [] := by
  rw [← fed_messageDigestAfter]
  split
  · next completes => rw [getMD5_of_completes getBytes completes]
  · next fails => rw [getMD5_of_fails getBytes fails]

/-- If no call that completes comes after a failed one that had read bytes,
each value is the digest of its own input. -/
theorem returnsOwn_of_startsClean {calls : List Call}
    (clean : AtEvery (StartsClean getBytes) calls) :
    AtEvery (ReturnsOwn getBytes) calls := by
  refine clean.mono fun before call startsClean => ?_
  rw [ReturnsOwn, getMD5_after]
  intro returned
  split at returned
  · next completes =>
      rw [if_pos completes, startsClean completes, List.nil_append,
        length_lowerHex, length_md5]
      exact ⟨rfl, rfl⟩
  · exact absurd rfl returned

end Charset

/-- A file that throws at the first `read`, a whole file and an array. -/
theorem returnsOwn_threeCalls :
    AtEvery (ReturnsOwn usAscii.getBytes)
      [.file (.opened [] .readThrows),
        .file (.opened [⟨[0x61], by decide, by decide⟩] .closed),
        .bytes [0x62]] := by
  refine returnsOwn_of_startsClean usAscii.getBytes ?_
  rw [atEvery_cons, atEvery_cons, atEvery_cons]
  exact ⟨fun _ => rfl, fun _ => rfl, fun _ => rfl, atEvery_nil _⟩

/-- One byte is read of a file, then `read` throws. -/
def broken : FileAccess :=
  .opened [⟨[0x61], by decide, by decide⟩] .readThrows

theorem broken_spoils_next :
    ¬AtEvery (ReturnsOwn usAscii.getBytes) [.file broken, .bytes [0x62]] := by
  intro every
  have wrong := every [.file broken] (.bytes [0x62]) [] rfl
  rw [ReturnsOwn, getMD5_after] at wrong
  have differs : lowerHex (md5 [0x61, 0x62]) ≠ lowerHex (md5 [0x62]) := by
    decide +kernel
  have returned : lowerHex (md5 [0x61, 0x62]) ≠ [] := by
    decide +kernel
  exact differs (wrong returned).1

end DripStone.MD5Utils
