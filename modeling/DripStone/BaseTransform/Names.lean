import DripStone.Library.Paths

/-!
# Names and path texts

The names that `DigestUtils` derives from a path, the tests of `ClassUtils`
and the textual replacement that finds the destination of a class file.
-/

namespace DripStone.BaseTransform

open DripStone.Library

abbrev Bytes := List UInt8

inductive Failure where
  | ioException
  | fileNotFoundException
  | zipException
  | stringIndexOutOfBoundsException
deriving DecidableEq, Repr

def absolutePath (file : Path) : Text :=
  '/' :: textOf file

def getName (file : Path) : Name :=
  file.getLastD []

/-! ## `DigestUtils` -/

/-- `Hex.encodeHexString`. -/
def encodeHexString (bytes : Bytes) : Text :=
  bytes.flatMap fun byte =>
    [Nat.digitChar (byte.toNat / 16), Nat.digitChar (byte.toNat % 16)]

/-- `toByteArray`, in UTF-8. -/
def toByteArray (text : Text) : Bytes :=
  text.flatMap String.utf8EncodeChar

/-- Eight hexadecimal digits of the path, that is its first four bytes. -/
def getMd5ByFilePath (file : Path) : Except Failure Text :=
  let hex := encodeHexString (toByteArray (absolutePath file))
  if 8 ≤ hex.length then .ok (hex.take 8)
  else .error .stringIndexOutOfBoundsException

def generateJarFileName (jarFile : Path) : Except Failure Text :=
  (getMd5ByFilePath jarFile).map fun digits =>
    digits ++ '_' :: getName jarFile

def generateClassFileName (classFile : Path) : Except Failure Text :=
  (getMd5ByFilePath classFile).map fun digits =>
    digits ++ '_' :: getName classFile

theorem length_encodeHexString (bytes : Bytes) :
    (encodeHexString bytes).length = 2 * bytes.length := by
  induction bytes with
  | nil => rfl
  | cons byte rest inductionHypothesis =>
      rw [encodeHexString] at inductionHypothesis ⊢
      rw [List.flatMap_cons, List.length_append, inductionHypothesis,
        List.length_cons, List.length_cons, List.length_cons,
        List.length_nil]
      omega

private theorem digitChar_inj {first second : Nat} (inFirst : first < 16)
    (inSecond : second < 16)
    (same : Nat.digitChar first = Nat.digitChar second) :
    first = second := by
  have table : ∀ one < 16, ∀ other < 16,
      Nat.digitChar one = Nat.digitChar other → one = other := by
    decide
  exact table first inFirst second inSecond same

theorem encodeHexString_injective :
    Function.Injective encodeHexString := by
  intro first second same
  induction first generalizing second with
  | nil =>
      cases second with
      | nil => rfl
      | cons byte rest => simp [encodeHexString] at same
  | cons byte rest inductionHypothesis =>
      cases second with
      | nil => simp [encodeHexString] at same
      | cons other others =>
          simp only [encodeHexString, List.flatMap_cons, List.cons_append,
            List.nil_append, List.cons.injEq] at same
          obtain ⟨high, low, inRest⟩ := same
          have inByte := byte.toNat_lt
          have inOther := other.toNat_lt
          have sameHigh := digitChar_inj (by omega) (by omega) high
          have sameLow := digitChar_inj (by omega) (by omega) low
          have sameByte : byte = other := by
            apply UInt8.toNat_inj.mp
            omega
          rw [sameByte, inductionHypothesis inRest]

theorem take_encodeHexString (bytes : Bytes) (count : Nat) :
    (encodeHexString bytes).take (2 * count) =
      encodeHexString (bytes.take count) := by
  induction count generalizing bytes with
  | zero => simp [encodeHexString]
  | succ count inductionHypothesis =>
      cases bytes with
      | nil => simp [encodeHexString]
      | cons byte rest =>
          have atRest := inductionHypothesis rest
          have doubled : 2 * (count + 1) = 2 * count + 1 + 1 := by omega
          rw [encodeHexString] at atRest ⊢
          rw [doubled, List.flatMap_cons, List.take_succ_cons,
            encodeHexString, List.flatMap_cons]
          simp only [List.cons_append, List.nil_append,
            List.take_succ_cons, atRest]
          rfl

/-- The first bytes of a path, as many as its name shows. -/
def pathStart (file : Path) : Bytes :=
  (toByteArray (absolutePath file)).take 4

/-- A path with as many bytes as its name shows. -/
def LongPath (file : Path) : Prop :=
  4 ≤ (toByteArray (absolutePath file)).length

instance (file : Path) : Decidable (LongPath file) :=
  inferInstanceAs (Decidable (_ ≤ _))

theorem getMd5ByFilePath_eq (file : Path) :
    getMd5ByFilePath file =
      if LongPath file then .ok (encodeHexString (pathStart file))
      else .error .stringIndexOutOfBoundsException := by
  have lengths := length_encodeHexString (toByteArray (absolutePath file))
  have digits := take_encodeHexString (toByteArray (absolutePath file)) 4
  have long : 8 ≤ (encodeHexString
      (toByteArray (absolutePath file))).length ↔ LongPath file := by
    rw [lengths, LongPath]
    omega
  simp only [getMd5ByFilePath, long, pathStart, ← digits]

/-- The name of a jar in the output and in the temporary directory. -/
def jarName (jarFile : Path) : Text :=
  encodeHexString (pathStart jarFile) ++ '_' :: getName jarFile

theorem generateJarFileName_of_long {jarFile : Path}
    (long : LongPath jarFile) :
    generateJarFileName jarFile = .ok (jarName jarFile) := by
  rw [generateJarFileName, getMd5ByFilePath_eq, if_pos long]
  rfl

theorem generateJarFileName_of_not_long {jarFile : Path}
    (short : ¬ LongPath jarFile) :
    generateJarFileName jarFile =
      .error .stringIndexOutOfBoundsException := by
  rw [generateJarFileName, getMd5ByFilePath_eq, if_neg short]
  rfl

theorem generateClassFileName_of_long {classFile : Path}
    (long : LongPath classFile) :
    generateClassFileName classFile = .ok (jarName classFile) :=
  generateJarFileName_of_long long

/-- Two jars get one name when their paths start with the same four bytes
and end in the same name. -/
theorem jarName_eq_iff {first second : Path} (longFirst : LongPath first)
    (longSecond : LongPath second) :
    jarName first = jarName second ↔
      pathStart first = pathStart second ∧
        getName first = getName second := by
  have lengths : ∀ file : Path, LongPath file →
      (encodeHexString (pathStart file)).length = 8 := by
    intro file long
    rw [length_encodeHexString, pathStart, List.length_take]
    rw [LongPath] at long
    omega
  constructor
  · intro same
    have sameLength :=
      (lengths first longFirst).trans (lengths second longSecond).symm
    obtain ⟨sameDigits, sameNames⟩ := List.append_inj same sameLength
    exact ⟨encodeHexString_injective sameDigits,
      (List.cons.inj sameNames).2⟩
  · rintro ⟨sameStart, sameName⟩
    rw [jarName, jarName, sameStart, sameName]

/-! ## `ClassUtils` -/

/-- `text.contains(part)`. -/
def contains (text part : Text) : Bool :=
  part <:+: text

def endsWith (text suffix : Text) : Bool :=
  suffix <:+ text

def isAndroidGeneratedClass (className : Text) : Bool :=
  contains className "R$".toList ||
    contains className "R2$".toList ||
    contains className "R.class".toList ||
    contains className "R2.class".toList ||
    className = "BuildConfig.class".toList

/-- `isLegalClass(fileName)`. -/
def isLegalClass (fileName : Text) : Bool :=
  endsWith fileName ".class".toList && !isAndroidGeneratedClass fileName

/-- `isLegalJar`, of a file with this content. -/
def isLegalJar (file : Path) (content : Bytes) : Bool :=
  0 < content.length &&
    getName file ≠ "R.jar".toList &&
    endsWith (getName file) ".jar".toList

/-! ## `String.replace` -/

/-- The text with each occurrence replaced, from the left; the first argument
counts the characters of an occurrence that are still to be passed. -/
def replaceFrom (oldValue newValue : Text) : Nat → Text → Text
  | _, [] => []
  | skipped + 1, _ :: rest => replaceFrom oldValue newValue skipped rest
  | 0, first :: rest =>
      if oldValue <+: first :: rest then
        newValue ++ replaceFrom oldValue newValue (oldValue.length - 1) rest
      else first :: replaceFrom oldValue newValue 0 rest

/-- `text.replace(oldValue, newValue)`. -/
def replace (text oldValue newValue : Text) : Text :=
  replaceFrom oldValue newValue 0 text

private theorem replaceFrom_length (oldValue newValue passed rest : Text) :
    replaceFrom oldValue newValue passed.length (passed ++ rest) =
      replaceFrom oldValue newValue 0 rest := by
  induction passed with
  | nil => rfl
  | cons first passed inductionHypothesis => exact inductionHypothesis

theorem replace_append {oldValue : Text} (some : oldValue ≠ [])
    (rest newValue : Text) :
    replace (oldValue ++ rest) oldValue newValue =
      newValue ++ replace rest oldValue newValue := by
  cases oldValue with
  | nil => exact absurd rfl some
  | cons first passed =>
      have found : first :: passed <+: first :: (passed ++ rest) :=
        List.prefix_append (first :: passed) rest
      rw [replace, List.cons_append, replaceFrom, if_pos found]
      have skipped :=
        replaceFrom_length (first :: passed) newValue passed rest
      rw [List.length_cons, Nat.add_sub_cancel, skipped]
      rfl

theorem replace_of_not_infix {text oldValue : Text}
    (absent : ¬ oldValue <:+: text) (newValue : Text) :
    replace text oldValue newValue = text := by
  induction text with
  | nil => rfl
  | cons first rest inductionHypothesis =>
      have notHere : ¬ oldValue <+: first :: rest :=
        fun here => absent here.isInfix
      have notBehind : ¬ oldValue <:+: rest :=
        fun behind =>
          absent (behind.trans (List.suffix_cons first rest).isInfix)
      rw [replace, replaceFrom, if_neg notHere]
      exact congrArg (first :: ·) (inductionHypothesis notBehind)

theorem head_replace (newValue oldValue : Text) (rest : Text)
    (startsWith : newValue.head? = some '/') :
    ∃ behind, replace ('/' :: rest) oldValue newValue = '/' :: behind := by
  rw [replace, replaceFrom]
  by_cases here : oldValue <+: '/' :: rest
  · rw [if_pos here]
    cases newValue with
    | nil => simp at startsWith
    | cons first behind =>
        have isSlash : first = '/' := by simpa using startsWith
        exact ⟨_, by rw [isSlash]; rfl⟩
  · rw [if_neg here]
    exact ⟨_, rfl⟩

/-! ## Texts of paths -/

theorem textOf_append_append {path rest : Path} (some : path ≠ [])
    (more : rest ≠ []) :
    textOf (path ++ rest) = textOf path ++ '/' :: textOf rest := by
  induction rest using List.reverseRecOn with
  | nil => exact absurd rfl more
  | append_singleton rest last inductionHypothesis =>
      by_cases single : rest = []
      · subst single
        rw [List.nil_append, textOf_append some]
        simp [textOf, List.intercalate]
      · have longer : path ++ rest ≠ [] := by simp [some]
        rw [← List.append_assoc, textOf_append longer,
          inductionHypothesis single, textOf_append single]
        simp

theorem absolutePath_append {path rest : Path} (some : path ≠ [])
    (more : rest ≠ []) :
    absolutePath (path ++ rest) =
      absolutePath path ++ '/' :: textOf rest := by
  rw [absolutePath, textOf_append_append some more]
  rfl

theorem namesOf_absolutePath {path : Path}
    (plain : ∀ name ∈ path, Plain name) :
    namesOf (absolutePath path) = path := by
  rw [absolutePath, namesOf_slash, namesOf_textOf plain]

end DripStone.BaseTransform
