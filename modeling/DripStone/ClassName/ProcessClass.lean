import DripStone.Library.FixedRegex
import DripStone.Library.JavaText
import DripStone.Library.Paths

/-!
# The class name of `processClass`

The build plugins cut the path of a class file at the name of the variant, and
take what follows the first match of that name for the class name.  The name
is read as a regular expression, and the whole path is searched.
-/

namespace DripStone.ClassName

open DripStone.Library

inductive Failure where
  | arrayIndexOutOfBoundsException
  | stringIndexOutOfBoundsException
deriving DecidableEq, Repr

/-! ## Names of variants -/

/-- What `.` does not match. -/
def lineTerminators : List Char :=
  ['\n', '\r', '\u0085', '\u2028', '\u2029']

/-- The letters with a meaning of their own in a regular expression, the dot
apart. -/
def metacharacters : List Char :=
  ['\\', '^', '$', '|', '?', '*', '+', '(', ')', '[', ']', '\x7b', '\x7d']

/-- The name of a variant, or of its directory. -/
structure VariantName where
  letters : Text
  nonempty : letters ≠ []
  plain : ∀ letter ∈ letters, letter ∉ metacharacters

/-- What one letter of a name matches, as part of a regular expression. -/
def matchesLetter (letter other : Char) : Bool :=
  if letter = '.' then other ∉ lineTerminators else other = letter

/-- `Pattern.compile`, of the name of a variant. -/
def compile (variantName : VariantName) : FixedRegex Char where
  tests := variantName.letters.map matchesLetter
  nonempty := by simpa using variantName.nonempty

@[simp]
theorem length_compile (variantName : VariantName) :
    (compile variantName).tests.length = variantName.letters.length :=
  List.length_map _

theorem matchesLetter_self (letter : Char) :
    matchesLetter letter letter = true := by
  rw [matchesLetter]
  split
  · next dot =>
      rw [dot]
      decide
  · exact decide_eq_true rfl

theorem startsWith_self (letters rest : Text) :
    FixedRegex.startsWith (letters.map matchesLetter) (letters ++ rest) =
      true := by
  induction letters with
  | nil => rfl
  | cons letter letters inductionHypothesis =>
      rw [List.map_cons, List.cons_append, FixedRegex.startsWith,
        matchesLetter_self, inductionHypothesis, Bool.and_self]

/-- A name is one of the texts that it matches. -/
theorem lookingAt_self (variantName : VariantName) (rest : Text) :
    (compile variantName).LookingAt (variantName.letters ++ rest) :=
  startsWith_self variantName.letters rest

/-! ## The three copies -/

/-- `text.substring(1)`, which drops one unit. -/
def substringOne (text : Text) : Except Failure JString :=
  match utf16 text with
  | [] => .error .stringIndexOutOfBoundsException
  | _ :: rest => .ok rest

/-- `filePath.split(dirName)[1].substring(1)` -/
def splitClassName (dirName : VariantName) (filePath : Text) :
    Except Failure JString :=
  match ((compile dirName).split filePath)[1]? with
  | none => .error .arrayIndexOutOfBoundsException
  | some part => substringOne part

/-- `HotfixPlugin.processClass`, with `variant.getDirName()` -/
def hotfixClassName (dirName : VariantName) (filePath : Text) :
    Except Failure JString :=
  splitClassName dirName filePath

/-- `TraceMethodPlugin.processClass` -/
def traceMethodClassName (variantName : VariantName) (path : Text) :
    Except Failure JString :=
  splitClassName variantName path

/-- `AopTracePlugin.processClass` -/
def aopTraceClassName (variantName : VariantName) (path : Text) :
    Except Failure JString :=
  splitClassName variantName path

section OneFile

variable {variantName : VariantName} {filePath className : Text}

theorem substringOne_eq_ok_iff {text : Text} :
    substringOne text = .ok (utf16 className) ↔
      ∃ letter : Char, letter.toNat < 0x10000 ∧ text = letter :: className := by
  constructor
  · intro returned
    rw [substringOne] at returned
    split at returned
    · cases returned
    · next unit rest units =>
        rw [Except.ok.inj returned] at units
        obtain ⟨letter, isText, isUnit⟩ := utf16_eq_cons_iff.mp units
        refine ⟨letter, ?_, isText⟩
        by_contra above
        rw [unitsOf, if_neg above] at isUnit
        cases isUnit
  · rintro ⟨letter, basic, rfl⟩
    rw [substringOne, utf16_cons, unitsOf, if_pos basic]
    rfl

/-- Spec lemma: the class name follows one letter, of one unit, behind the
first match, and ends at the second match or with the path. -/
theorem splitClassName_eq_ok_iff :
    splitClassName variantName filePath = .ok (utf16 className) ↔
      ∃ before letter after, letter.toNat < 0x10000 ∧
        (compile variantName).cut filePath = some (before, after) ∧
          ((compile variantName).cut after = none ∧
              letter :: className = after ∨
            ∃ rest, (compile variantName).cut after =
              some (letter :: className, rest)) := by
  have second (letter : Char) := @FixedRegex.getElem?_one_split Char
    (compile variantName) filePath (letter :: className)
    (List.cons_ne_nil _ _)
  constructor
  · intro returned
    rw [splitClassName] at returned
    split at returned
    · cases returned
    · next part found =>
        obtain ⟨letter, basic, rfl⟩ := substringOne_eq_ok_iff.mp returned
        obtain ⟨before, after, isCut, here⟩ := (second letter).mp found
        exact ⟨before, letter, after, basic, isCut, here⟩
  · rintro ⟨before, letter, after, basic, isCut, here⟩
    have found := (second letter).mpr ⟨before, after, isCut, here⟩
    rw [splitClassName, found]
    exact substringOne_eq_ok_iff.mpr ⟨letter, basic, rfl⟩

/-! ## Class files of a variant -/

/-- The path of a class file in the output directory of a variant. -/
def classFilePath (outputDir : Text) (variantName : VariantName)
    (relativePath : Text) : Text :=
  outputDir ++ '/' :: (variantName.letters ++ '/' :: relativePath)

/-- The name of the variant matches nowhere before its directory, and nowhere
behind it. -/
structure OnlyMatch (outputDir : Text) (variantName : VariantName)
    (relativePath : Text) : Prop where
  before : ∀ index < outputDir.length + 1,
    ¬(compile variantName).LookingAt
      ((classFilePath outputDir variantName relativePath).drop index)
  behind : ∀ index,
    ¬(compile variantName).LookingAt (('/' :: relativePath).drop index)

/-- By accident, the path within the directory also stands, behind a letter of
one unit, between two matches of which the first comes before the directory. -/
def Echo (outputDir : Text) (variantName : VariantName)
    (relativePath : Text) : Prop :=
  ∃ before found letter after second rest,
    before.length < outputDir.length + 1 ∧ letter.toNat < 0x10000 ∧
      (compile variantName).FirstMatch
        (classFilePath outputDir variantName relativePath)
        before found after ∧
      (compile variantName).FirstMatch after
        (letter :: relativePath) second rest

variable {outputDir relativePath : Text}

theorem classFilePath_eq_append :
    classFilePath outputDir variantName relativePath =
      (outputDir ++ ['/']) ++ variantName.letters ++
        '/' :: relativePath := by
  simp [classFilePath]

theorem length_outputDir_append :
    (outputDir ++ ['/']).length = outputDir.length + 1 := by
  simp

/-- A first match that is found at the directory is the directory. -/
theorem after_of_at_directory {before found after : Text}
    (isFirst : (compile variantName).FirstMatch
      (classFilePath outputDir variantName relativePath) before found after)
    (atDirectory : before.length = outputDir.length + 1) :
    after = '/' :: relativePath := by
  have split := isFirst.split
  have width := isFirst.width
  rw [length_compile] at width
  rw [classFilePath_eq_append] at split
  have sameLengths : ((outputDir ++ ['/']) ++ variantName.letters).length =
      (before ++ found).length := by
    rw [List.length_append, length_outputDir_append, List.length_append,
      atDirectory, width]
  exact ((List.append_inj split sameLengths).2).symm

/-- Without an earlier match the directory is the first. -/
theorem OnlyMatch.firstMatch
    (only : OnlyMatch outputDir variantName relativePath) :
    (compile variantName).FirstMatch
      (classFilePath outputDir variantName relativePath)
      (outputDir ++ ['/']) variantName.letters ('/' :: relativePath) where
  split := classFilePath_eq_append
  width := (length_compile variantName).symm
  looking := lookingAt_self variantName _
  first := by
    rw [length_outputDir_append]
    exact only.before

theorem splitClassName_of_onlyMatch
    (only : OnlyMatch outputDir variantName relativePath) :
    splitClassName variantName
      (classFilePath outputDir variantName relativePath) =
        .ok (utf16 relativePath) := by
  rw [splitClassName_eq_ok_iff]
  exact ⟨outputDir ++ ['/'], '/', '/' :: relativePath, by decide,
    FixedRegex.cut_eq_some_iff.mpr ⟨_, only.firstMatch⟩,
    Or.inl ⟨FixedRegex.cut_eq_none_iff.mpr only.behind, rfl⟩⟩

theorem splitClassName_of_echo
    (echo : Echo outputDir variantName relativePath) :
    splitClassName variantName
      (classFilePath outputDir variantName relativePath) =
        .ok (utf16 relativePath) := by
  obtain ⟨before, found, letter, after, second, rest, _, basic, isFirst,
    isSecond⟩ := echo
  rw [splitClassName_eq_ok_iff]
  exact ⟨before, letter, after, basic,
    FixedRegex.cut_eq_some_iff.mpr ⟨found, isFirst⟩,
    Or.inr ⟨rest, FixedRegex.cut_eq_some_iff.mpr ⟨second, isSecond⟩⟩⟩

/-- A path with an earlier match is too long to end in the class name. -/
theorem length_before_of_ends {before found after : Text} {letter : Char}
    (isFirst : (compile variantName).FirstMatch
      (classFilePath outputDir variantName relativePath) before found after)
    (ends : letter :: relativePath = after) :
    before.length = outputDir.length + 1 := by
  have lengths := congrArg List.length isFirst.split
  have width := isFirst.width
  rw [length_compile] at width
  rw [← ends, classFilePath_eq_append] at lengths
  simp only [List.length_append, List.length_cons, List.length_nil] at lengths
  omega

/-- A second match behind the directory would cut the class name short. -/
theorem length_before_of_second {before found after second rest : Text}
    {letter : Char}
    (isFirst : (compile variantName).FirstMatch
      (classFilePath outputDir variantName relativePath) before found after)
    (isSecond : (compile variantName).FirstMatch after
      (letter :: relativePath) second rest) :
    before.length < outputDir.length + 1 := by
  have lengths := congrArg List.length isFirst.split
  have widthFirst := isFirst.width
  have widthSecond := isSecond.width
  have lengthsAfter := congrArg List.length isSecond.split
  have nonempty := @FixedRegex.width_pos Char (compile variantName)
  rw [length_compile] at widthFirst
  rw [classFilePath_eq_append] at lengths
  simp only [List.length_append, List.length_cons, List.length_nil]
    at lengths lengthsAfter
  omega

/-- The name is found by the position of the directory, or by accident. -/
theorem splitClassName_eq_relativePath_iff :
    splitClassName variantName
      (classFilePath outputDir variantName relativePath) =
        .ok (utf16 relativePath) ↔
      OnlyMatch outputDir variantName relativePath ∨
        Echo outputDir variantName relativePath := by
  constructor
  · intro returned
    obtain ⟨before, letter, after, basic, isCut, here⟩ :=
      splitClassName_eq_ok_iff.mp returned
    obtain ⟨found, isFirst⟩ := FixedRegex.cut_eq_some_iff.mp isCut
    rcases here with ⟨never, ends⟩ | ⟨rest, again⟩
    · have atDirectory := length_before_of_ends isFirst ends
      refine Or.inl ⟨?_, ?_⟩
      · rw [← atDirectory]
        exact isFirst.first
      · rw [← after_of_at_directory isFirst atDirectory]
        exact FixedRegex.cut_eq_none_iff.mp never
    · obtain ⟨second, isSecond⟩ := FixedRegex.cut_eq_some_iff.mp again
      exact Or.inr ⟨before, found, letter, after, second, rest,
        length_before_of_second isFirst isSecond, basic, isFirst, isSecond⟩
  · rintro (only | echo)
    · exact splitClassName_of_onlyMatch only
    · exact splitClassName_of_echo echo

end OneFile

/-! ## The class files of one directory -/

inductive Plugin where
  | hotfix
  | traceMethod
  | aopTrace
deriving DecidableEq, Repr

/-- The class name in the `processClass` of a plugin. -/
def Plugin.className :
    Plugin → VariantName → Text → Except Failure JString
  | .hotfix => hotfixClassName
  | .traceMethod => traceMethodClassName
  | .aopTrace => aopTraceClassName

theorem Plugin.className_eq (plugin : Plugin) :
    plugin.className = splitClassName := by
  cases plugin with
  | hotfix => rfl
  | traceMethod => rfl
  | aopTrace => rfl

/-- A plugin names the class files of a directory by their paths in it. -/
structure NamedByPath (plugin : Plugin) (outputDir : Text)
    (variantName : VariantName) (classFiles : Set Text) : Prop where
  named : ∀ file ∈ classFiles,
    plugin.className variantName
      (classFilePath outputDir variantName file) = .ok (utf16 file)
  different : ∀ one ∈ classFiles, ∀ other ∈ classFiles, one ≠ other →
    plugin.className variantName
        (classFilePath outputDir variantName one) ≠
      plugin.className variantName
        (classFilePath outputDir variantName other)
  inBounds : ∀ file ∈ classFiles, ∀ failure,
    plugin.className variantName
      (classFilePath outputDir variantName file) ≠ .error failure

/-- Names that are paths are different, and no error. -/
theorem NamedByPath.of_named {plugin : Plugin} {outputDir : Text}
    {variantName : VariantName} {classFiles : Set Text}
    (named : ∀ file ∈ classFiles,
      plugin.className variantName
        (classFilePath outputDir variantName file) = .ok (utf16 file)) :
    NamedByPath plugin outputDir variantName classFiles where
  named := named
  different := by
    intro one inOne other inOther distinct same
    rw [named one inOne, named other inOther] at same
    exact distinct (utf16_injective (Except.ok.inj same))
  inBounds := by
    intro file inFiles failure raised
    rw [named file inFiles] at raised
    cases raised

/-- Every plugin names the class files of a directory by their paths in it
when the name of the variant matches only its directory, for each of them. -/
theorem namedByPath_iff (outputDir : Text) (variantName : VariantName)
    (classFiles : Set Text) :
    (∀ plugin, NamedByPath plugin outputDir variantName classFiles) ↔
      ∀ file ∈ classFiles,
        OnlyMatch outputDir variantName file ∨
          Echo outputDir variantName file := by
  constructor
  · intro law file inFiles
    rw [← splitClassName_eq_relativePath_iff, ← Plugin.className_eq .hotfix]
    exact (law .hotfix).named file inFiles
  · intro positions plugin
    refine NamedByPath.of_named fun file inFiles => ?_
    rw [plugin.className_eq, splitClassName_eq_relativePath_iff]
    exact positions file inFiles

/-! ## A package with the name of the variant -/

def debugName : VariantName where
  letters := ['d', 'e', 'b', 'u', 'g']
  nonempty := by decide
  plain := by simp [metacharacters]

/-- The rest of a path behind its package `com.debug` is lost. -/
theorem debugPackage_className {outputDir classFile rest : Text}
    (first : (compile debugName).cut
        (classFilePath outputDir debugName classFile) =
      some (outputDir ++ ['/'], '/' :: classFile))
    (second : (compile debugName).cut ('/' :: classFile) =
      some ("/com/".toList, rest)) (plugin : Plugin) :
    plugin.className debugName
        (classFilePath outputDir debugName classFile) =
      .ok (utf16 "com/".toList) := by
  rw [plugin.className_eq, splitClassName_eq_ok_iff]
  exact ⟨_, '/', _, by decide, first, Or.inr ⟨rest, second⟩⟩

set_option maxRecDepth 4000 in
/-- Two classes of the package `com.debug` get one name. -/
theorem debugPackage_not_namedByPath :
    (∀ plugin : Plugin,
      plugin.className debugName (classFilePath "/app/classes".toList
          debugName "com/debug/A.class".toList) =
        plugin.className debugName (classFilePath "/app/classes".toList
          debugName "com/debug/B.class".toList)) ∧
      ∀ plugin, ¬NamedByPath plugin "/app/classes".toList debugName
        {"com/debug/A.class".toList, "com/debug/B.class".toList} := by
  have ofA := @debugPackage_className "/app/classes".toList
    "com/debug/A.class".toList "/A.class".toList (by decide) (by decide)
  have ofB := @debugPackage_className "/app/classes".toList
    "com/debug/B.class".toList "/B.class".toList (by decide) (by decide)
  have same (plugin : Plugin) := (ofA plugin).trans (ofB plugin).symm
  refine ⟨same, fun plugin law => ?_⟩
  exact law.different _ (Set.mem_insert _ _) _
    (Set.mem_insert_of_mem _ rfl) (by decide) (same plugin)

end DripStone.ClassName
