import DripStone.HotfixPlugin.Instrumentation
import DripStone.HotfixPlugin.Patches

/-!
# Builds that recompile nothing

Each build instruments what the build before has left.  Whether its hashes
stay, and its patch stays empty, depends on the constructors.
-/

namespace DripStone.HotfixPlugin

open DripStone.Library

variable {ClassFile Other : Type}

section Law

variable (tools : Tools ClassFile) (asm : Asm ClassFile Other)
  (ext : HotfixExt) (files : List (InputFile ClassFile))
  (conversion : Nat → Conversion) (outputDir : OutputDir ClassFile)

/-! ## The law -/

def buildOf (number : Nat) : Build ClassFile :=
  ⟨classesIn asm ext files number, conversion number⟩

/-- What some builds leave in the output directory. -/
def dirAfter : Nat → OutputDir ClassFile
  | 0 => outputDir
  | number + 1 =>
      ((buildOf asm ext files conversion number).run tools
        (dirAfter number)).1

/-- The generator of a build, when all its classes were compared. -/
def generatorOf (number : Nat) : PatchGenerator ClassFile :=
  checkClasses tools
    (.new (dirAfter tools asm ext files conversion outputDir number).hexFile)
    (classesIn asm ext files number)

/-- Every `RETURN` of a constructor, in a fixable class, has the constant in
front of it so many times. -/
def EachReturn (ldcs : Nat) : Prop :=
  ∀ entry ∈ files.flatMap (fixable ext),
    ∀ before ∈ initReturns (asm.methods entry.byteCode), before = ldcs

structure Idempotent (count : Nat) : Prop where
  oneLdc : ∀ number < count,
    EachReturn asm ext (filesAfter asm ext files (number + 1)) 1
  sameHexs : ∀ number, number + 1 < count → ∀ className,
    (newHexs tools (classesIn asm ext files (number + 1))).get className =
      (newHexs tools (classesIn asm ext files number)).get className
  notPatched : ∀ number, number + 1 < count →
    ∀ entry ∈ classesIn asm ext files (number + 1),
      entry.className ∉
        ((generatorOf tools asm ext files conversion outputDir
          (number + 1)).output.getD []).map Instrumented.className

/-- No constructor of a fixable class returns. -/
def NoReturn : Prop :=
  ∀ entry ∈ files.flatMap (fixable ext),
    initReturns (asm.methods entry.byteCode) = []

/-- The jars with a doubled name, which no build replaces, and the other
files. -/
def doubledJars : List (InputFile ClassFile) :=
  files.filter InputFile.isDoubled

def singleFiles : List (InputFile ClassFile) :=
  files.filter fun file => !file.isDoubled

/-- The hash of an instrumented class. -/
def hexOf (entry : Instrumented ClassFile) : Text :=
  tools.hex (referHackWhenInit asm entry.byteCode)

/-- The classes that a build comes to have names without colons and line
breaks, and those of one name have one hash. -/
structure Recalled : Prop where
  plain : ∀ entry ∈ files.flatMap (reached ext), PlainText entry.className
  oneHex : ∀ entry ∈ files.flatMap (reached ext),
    ∀ other ∈ files.flatMap (reached ext),
      entry.className = other.className →
        hexOf tools asm entry = hexOf tools asm other

/-- No name of them leaves a line that is read, and a build without recorded
hashes compares nothing. -/
def NothingRead : Prop :=
  ∀ entry ∈ files.flatMap (reached ext), Unread entry.className

/-- What the files have to be for so many builds. -/
def Repeatable : Nat → Prop
  | 0 => True
  | 1 => EachReturn asm ext (singleFiles files) 0 ∧
      EachReturn asm ext (doubledJars files) 1
  | _ + 2 => NoReturn asm ext (singleFiles files) ∧
      EachReturn asm ext (doubledJars files) 1 ∧
      (Recalled tools asm ext files ∨ NothingRead ext files)

end Law

/-! ## Names and hashes -/

section Hexs

variable {tools : Tools ClassFile} {classes : List (Instrumented ClassFile)}

theorem newHexs_eq :
    newHexs tools classes =
      (classes.map fun entry =>
        (entry.className, tools.hex entry.byteCode)).foldl
        (fun hexs pair => Hexs.put hexs pair.1 pair.2) [] := by
  rw [newHexs, List.foldl_map]

theorem nodup_newHexs : ((newHexs tools classes).map Prod.fst).Nodup := by
  rw [newHexs_eq]
  exact nodup_foldl_put (List.nodup_nil (α := Text))

theorem mem_newHexs {pair : Text × Text}
    (isPair : pair ∈ newHexs tools classes) :
    ∃ entry ∈ classes,
      pair = (entry.className, tools.hex entry.byteCode) := by
  rw [newHexs_eq] at isPair
  rcases mem_foldl_put isPair with isNew | isOld
  · obtain ⟨entry, isClass, isPair⟩ := List.mem_map.mp isNew
    exact ⟨entry, isClass, isPair.symm⟩
  · cases isOld

/-- The hash of the last class of a name is recorded. -/
theorem get_newHexs {entry : Instrumented ClassFile}
    (isClass : entry ∈ classes) :
    ∃ other ∈ classes, other.className = entry.className ∧
      (newHexs tools classes).get entry.className =
        some (tools.hex other.byteCode) := by
  induction classes using List.reverseRecOn with
  | nil => cases isClass
  | append_singleton classes last inductionHypothesis =>
      rw [newHexs, List.foldl_append, List.foldl_cons, List.foldl_nil,
        ← newHexs, Hexs.get_put]
      by_cases same : entry.className = last.className
      · exact ⟨last, by simp, same.symm, if_pos same⟩
      · rcases List.mem_append.mp isClass with isEarlier | isLast
        · obtain ⟨other, isOther, isName, isHex⟩ :=
            inductionHypothesis isEarlier
          exact ⟨other, List.mem_append_left _ isOther, isName,
            (if_neg same).trans isHex⟩
        · exact absurd (congrArg _ (List.mem_singleton.mp isLast)) same

/-- Each class has the recorded hash, as it is read back, exactly when the
names are plain and those of one name have one hash. -/
theorem get_readHex_iff
    (hexPlain : ∀ byteCode,
      PlainText (tools.hex byteCode) ∧ tools.hex byteCode ≠ []) :
    (∀ entry ∈ classes,
      (readHex (writeHex tools.order (newHexs tools classes))).get
        entry.className = some (tools.hex entry.byteCode)) ↔
      (∀ entry ∈ classes, PlainText entry.className) ∧
        ∀ entry ∈ classes, ∀ other ∈ classes,
          entry.className = other.className →
            tools.hex entry.byteCode = tools.hex other.byteCode := by
  constructor
  · intro recorded
    refine ⟨fun entry isClass => ?_, fun entry isClass other isOther same => ?_⟩
    · exact plain_of_mem_readHex (Hexs.mem_of_get (recorded entry isClass))
    · have first := recorded entry isClass
      rw [same, recorded other isOther] at first
      exact (Option.some.inj first).symm
  · rintro ⟨plain, oneHex⟩ entry isClass
    have plainEntries : ∀ pair ∈ newHexs tools classes, PlainEntry pair := by
      intro pair isPair
      obtain ⟨other, isOther, rfl⟩ := mem_newHexs isPair
      exact ⟨plain other isOther, hexPlain other.byteCode⟩
    obtain ⟨other, isOther, isName, isHex⟩ := get_newHexs isClass
    rw [get_readHex_writeHex tools.order plainEntries nodup_newHexs, isHex,
      oneHex other isOther entry isClass isName]

theorem noHexs_iff
    (hexPlain : ∀ byteCode,
      PlainText (tools.hex byteCode) ∧ tools.hex byteCode ≠ []) :
    readHex (writeHex tools.order (newHexs tools classes)) = [] ↔
      ∀ entry ∈ classes, Unread entry.className := by
  rw [readHex_eq_nil tools.order]
  · constructor
    · intro unread entry isClass
      obtain ⟨other, _, _, isHex⟩ := get_newHexs isClass
      exact unread (entry.className, tools.hex other.byteCode)
        (Hexs.mem_of_get isHex)
    · intro unread pair isPair
      obtain ⟨entry, isClass, rfl⟩ := mem_newHexs isPair
      exact unread entry isClass
  · intro pair isPair
    obtain ⟨entry, _, rfl⟩ := mem_newHexs isPair
    exact hexPlain entry.byteCode

/-- Spec lemma: no class is put out exactly when none differs. -/
theorem notPatched_iff {generator : PatchGenerator ClassFile}
    (closed : generator.output = none) :
    (∀ entry ∈ classes, entry.className ∉
        ((checkClasses tools generator classes).output.getD []).map
          Instrumented.className) ↔
      ∀ entry ∈ classes, ¬generator.Differs entry.className
        (tools.hex entry.byteCode) := by
  have nothing : generator.output.getD [] = [] := by rw [closed]; rfl
  simp only [names_checkClasses, nothing, List.map_nil, List.not_mem_nil,
    false_or]
  constructor
  · intro notIn entry isClass differs
    exact notIn entry isClass ⟨entry, isClass, rfl, differs⟩
  · rintro same entry isClass ⟨other, isOther, isName, differs⟩
    exact same other isOther (isName ▸ differs)

/-- No class differs from what the build before has recorded of the same
classes exactly when all are read back, or none. -/
theorem noneDiffers_iff
    (hexPlain : ∀ byteCode,
      PlainText (tools.hex byteCode) ∧ tools.hex byteCode ≠ []) :
    (∀ entry ∈ classes,
      ¬(PatchGenerator.new (some (writeHex tools.order
          (newHexs tools classes))) : PatchGenerator ClassFile).Differs
        entry.className (tools.hex entry.byteCode)) ↔
      ((∀ entry ∈ classes, PlainText entry.className) ∧
        ∀ entry ∈ classes, ∀ other ∈ classes,
          entry.className = other.className →
            tools.hex entry.byteCode = tools.hex other.byteCode) ∨
      ∀ entry ∈ classes, Unread entry.className := by
  rw [← get_readHex_iff hexPlain, ← noHexs_iff hexPlain]
  simp only [PatchGenerator.Differs, PatchGenerator.noHexs,
    PatchGenerator.new, Option.map_some, Option.getD_some]
  by_cases empty :
      readHex (writeHex tools.order (newHexs tools classes)) = []
  · simp [empty]
  · simp [empty]

end Hexs

/-! ## Any number of builds -/

section Builds

variable {tools : Tools ClassFile} {asm : Asm ClassFile Other}
  {ext : HotfixExt} {files : List (InputFile ClassFile)}
  {conversion : Nat → Conversion} {outputDir : OutputDir ClassFile}

theorem iterate_instrument (entry : Instrumented ClassFile) (count : Nat) :
    (instrument asm)^[count] entry =
      ⟨entry.className, (referHackWhenInit asm)^[count] entry.byteCode⟩ := by
  induction count with
  | zero => rfl
  | succ count inductionHypothesis =>
      rw [Function.iterate_succ_apply', inductionHypothesis,
        Function.iterate_succ_apply']
      rfl

theorem mem_singleFiles {file : InputFile ClassFile} :
    file ∈ singleFiles files ↔ file ∈ files ∧ file.isDoubled = false := by
  rw [singleFiles, List.mem_filter, Bool.not_eq_true']

theorem mem_doubledJars {file : InputFile ClassFile} :
    file ∈ doubledJars files ↔ file ∈ files ∧ file.isDoubled = true :=
  List.mem_filter

/-- Behind some builds each `RETURN` has as many more constants, but in a jar
with a doubled name. -/
theorem eachReturn_filesAfter {number ldcs : Nat} :
    EachReturn asm ext (filesAfter asm ext files number) ldcs ↔
      (∀ entry ∈ (singleFiles files).flatMap (fixable ext),
        ∀ before ∈ initReturns (asm.methods entry.byteCode),
          before + number = ldcs) ∧
      EachReturn asm ext (doubledJars files) ldcs := by
  have single {file : InputFile ClassFile} (isSingle : file.isDoubled = false) :
      (∀ entry ∈ fixable ext ((processFile asm ext)^[number] file),
        ∀ before ∈ initReturns (asm.methods entry.byteCode),
          before = ldcs) ↔
        ∀ entry ∈ fixable ext file,
          ∀ before ∈ initReturns (asm.methods entry.byteCode),
            before + number = ldcs := by
    simp only [fixable_iterate isSingle, List.forall_mem_map,
      iterate_instrument, initReturns_iterate]
  simp only [EachReturn, filesAfter_eq, List.forall_mem_flatMap,
    List.forall_mem_map, mem_singleFiles, mem_doubledJars]
  constructor
  · refine fun each => ⟨?_, ?_⟩
    · rintro file ⟨isFile, isSingle⟩
      exact (single isSingle).mp (each file isFile)
    · rintro file ⟨isFile, doubled⟩
      have here := each file isFile
      rwa [iterate_processFile_of_doubled doubled] at here
  · rintro ⟨singles, doubles⟩ file isFile
    cases isDoubled : file.isDoubled with
    | false => exact (single isDoubled).mpr (singles file ⟨isFile, isDoubled⟩)
    | true =>
        rw [iterate_processFile_of_doubled isDoubled]
        exact doubles file ⟨isFile, isDoubled⟩

theorem oneLdc_first :
    EachReturn asm ext (filesAfter asm ext files 1) 1 ↔
      EachReturn asm ext (singleFiles files) 0 ∧
        EachReturn asm ext (doubledJars files) 1 := by
  rw [eachReturn_filesAfter]
  refine and_congr_left fun _ => ?_
  rw [EachReturn]
  simp only [Nat.add_eq_right]

theorem noReturn_of_oneLdc_second
    (oneLdc : EachReturn asm ext (filesAfter asm ext files 2) 1) :
    NoReturn asm ext (singleFiles files) := by
  rw [eachReturn_filesAfter] at oneLdc
  intro entry isFixable
  refine List.eq_nil_iff_forall_not_mem.mpr fun before isReturn => ?_
  have counted := oneLdc.1 entry isFixable before isReturn
  omega

theorem oneLdc_of_noReturn (noReturn : NoReturn asm ext (singleFiles files))
    (oneLdc : EachReturn asm ext (doubledJars files) 1) (number : Nat) :
    EachReturn asm ext (filesAfter asm ext files number) 1 := by
  rw [eachReturn_filesAfter]
  refine ⟨fun entry isFixable before isReturn => ?_, oneLdc⟩
  rw [noReturn entry isFixable] at isReturn
  cases isReturn

/-- Without a `RETURN` every build has the classes of the first one. -/
theorem classesIn_of_noReturn
    (noReturn : NoReturn asm ext (singleFiles files)) (number : Nat) :
    classesIn asm ext files number = classesIn asm ext files 0 := by
  rw [classesIn, classesIn, processed, processed, filesAfter_eq,
    filesAfter_eq, List.flatMap_map, List.flatMap_map]
  refine List.flatMap_congr fun file isFile => ?_
  rw [Function.iterate_zero, id]
  cases isDoubled : file.isDoubled with
  | true => rw [iterate_processFile_of_doubled isDoubled]
  | false =>
      have still : ((processFile asm ext)^[number] file).isDoubled = false :=
        (isDoubled_iterate number).trans isDoubled
      rw [checkedOf_eq, checkedOf_eq, reached_of_single still,
        reached_of_single isDoubled, fixable_iterate isDoubled, List.map_map]
      refine List.map_congr_left fun entry isFixable => ?_
      have none : initReturns (asm.methods entry.byteCode) = [] :=
        noReturn entry (List.mem_flatMap.mpr
          ⟨file, mem_singleFiles.mpr ⟨isFile, isDoubled⟩, isFixable⟩)
      rw [Function.comp_apply, ← Function.iterate_succ_apply' (instrument asm),
        iterate_instrument, referHackWhenInit_iterate none number]
      rfl

theorem hexFile_dirAfter (number : Nat) :
    (dirAfter tools asm ext files conversion outputDir
        (number + 1)).hexFile =
      some (writeHex tools.order
        (newHexs tools (classesIn asm ext files number))) :=
  hexFile_run

theorem classesIn_first :
    classesIn asm ext files 0 =
      (files.flatMap (reached ext)).map (instrument asm) := by
  rw [classesIn, processed, filesAfter_eq, List.flatMap_map,
    List.map_flatMap]
  refine List.flatMap_congr fun file _ => ?_
  exact checkedOf_eq

/-- No class of a later build is put out exactly when the names and the hashes
are read back, or nothing is read. -/
theorem recalled_iff
    (hexPlain : ∀ byteCode,
      PlainText (tools.hex byteCode) ∧ tools.hex byteCode ≠ [])
    (noReturn : NoReturn asm ext (singleFiles files)) (number : Nat) :
    (∀ entry ∈ classesIn asm ext files (number + 1), entry.className ∉
        ((generatorOf tools asm ext files conversion outputDir
          (number + 1)).output.getD []).map Instrumented.className) ↔
      Recalled tools asm ext files ∨ NothingRead ext files := by
  rw [generatorOf, notPatched_iff rfl, hexFile_dirAfter,
    classesIn_of_noReturn noReturn, classesIn_of_noReturn noReturn number,
    noneDiffers_iff hexPlain, classesIn_first]
  simp only [List.forall_mem_map]
  refine or_congr ?_ Iff.rfl
  exact ⟨fun both => ⟨both.1, both.2⟩, fun law => ⟨law.plain, law.oneHex⟩⟩

/-- Builds of the same files repeat what the first has done exactly when the
files that are written have no `RETURN`, the jars that are left have one
constant before each, and the names and hashes are read back. -/
theorem idempotent_iff (tools : Tools ClassFile) (asm : Asm ClassFile Other)
    (ext : HotfixExt) (files : List (InputFile ClassFile))
    (conversion : Nat → Conversion) (outputDir : OutputDir ClassFile)
    (hexPlain : ∀ byteCode,
      PlainText (tools.hex byteCode) ∧ tools.hex byteCode ≠ [])
    (count : Nat) :
    Idempotent tools asm ext files conversion outputDir count ↔
      Repeatable tools asm ext files count := by
  constructor
  · intro law
    match count with
    | 0 => trivial
    | 1 => exact oneLdc_first.mp (law.oneLdc 0 Nat.one_pos)
    | count + 2 =>
        have noReturn := noReturn_of_oneLdc_second
          (law.oneLdc 1 (Nat.one_lt_succ_succ count))
        have oneLdc := oneLdc_first.mp
          (law.oneLdc 0 (Nat.zero_lt_succ (count + 1)))
        refine ⟨noReturn, oneLdc.2, ?_⟩
        exact (recalled_iff hexPlain noReturn 0).mp
          (law.notPatched 0 (Nat.one_lt_succ_succ count))
  · intro repeatable
    match count with
    | 0 =>
        exact ⟨fun _ before => absurd before (Nat.not_lt_zero _),
          fun _ before => absurd before (Nat.not_lt_zero _),
          fun _ before => absurd before (Nat.not_lt_zero _)⟩
    | 1 =>
        refine ⟨fun number isFirst => ?_, fun _ before => ?_,
          fun _ before => ?_⟩
        · rw [Nat.lt_one_iff.mp isFirst]
          exact oneLdc_first.mpr repeatable
        · exact absurd (Nat.lt_of_succ_lt_succ before) (Nat.not_lt_zero _)
        · exact absurd (Nat.lt_of_succ_lt_succ before) (Nat.not_lt_zero _)
    | count + 2 =>
        obtain ⟨noReturn, oneLdc, readBack⟩ := repeatable
        refine ⟨fun number _ => oneLdc_of_noReturn noReturn oneLdc _,
          fun number _ className => ?_, fun number _ => ?_⟩
        · rw [classesIn_of_noReturn noReturn (number + 1),
            classesIn_of_noReturn noReturn number]
        · exact (recalled_iff hexPlain noReturn number).mpr readBack

end Builds

/-! ## One constructor -/

/-- A class file of nothing but its methods; other instructions are of one
kind. -/
def plainAsm : Asm (List (MethodNode Unit)) Unit where
  methods := id
  write _ nodes := nodes
  methods_write _ _ := rfl
  write_write _ _ := rfl

/-- The number of the instructions for the hash, in strokes. -/
def lengthTools : Tools (List (MethodNode Unit)) where
  hex nodes :=
    '0' :: List.replicate (nodes.flatMap MethodNode.insns).length '1'
  order := .lastFirst

theorem lengthTools_plain (nodes : List (MethodNode Unit)) :
    PlainText (lengthTools.hex nodes) ∧ lengthTools.hex nodes ≠ [] := by
  refine ⟨⟨?_, ?_, ?_⟩, List.cons_ne_nil _ _⟩
  all_goals
    rw [lengthTools, List.mem_cons, List.mem_replicate]
    rintro (same | ⟨_, same⟩)
    · revert same
      decide
    · revert same
      decide

def everyClass : HotfixExt :=
  ⟨none, []⟩

def compiledClass : List (InputFile (List (MethodNode Unit))) :=
  [.classFile "com/A.class".toList [⟨initName, [.ret]⟩]]

/-- An interface, and a jar with a class twice that has its constant. -/
def interfaceAndJar : List (InputFile (List (MethodNode Unit))) :=
  [.classFile "com/I.class".toList [],
    .jar [⟨"com/A.class".toList, [⟨initName, [.ldcAntilazyLoad, .ret]⟩]⟩,
      ⟨"com/A.class".toList, [⟨initName, [.ldcAntilazyLoad, .ret]⟩]⟩]]

theorem interfaceAndJar_idempotent :
    Idempotent lengthTools plainAsm everyClass interfaceAndJar
      (fun _ => .succeeds) .new 3 := by
  refine (idempotent_iff _ _ _ _ _ _ lengthTools_plain 3).mpr
    ⟨?_, ?_, Or.inl ⟨?_, ?_⟩⟩
  · unfold NoReturn
    decide
  · unfold EachReturn
    decide
  · unfold PlainText
    decide
  · decide

/-- The second build of a class with a constructor loads the constant twice,
and puts the class into a patch. -/
theorem twoBuilds_not_idempotent :
    ((generatorOf lengthTools plainAsm everyClass compiledClass
        (fun _ => .succeeds) .new 1).output.getD []).map
          Instrumented.className = ["com/A.class".toList] ∧
      ¬Idempotent lengthTools plainAsm everyClass compiledClass
        (fun _ => .succeeds) .new 2 := by
  refine ⟨by decide, fun law => ?_⟩
  have twice := law.oneLdc 1 Nat.one_lt_two
  unfold EachReturn at twice
  revert twice
  decide

end DripStone.HotfixPlugin
