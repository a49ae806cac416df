import DripStone.HotfixPlugin.PatchGenerator

/-!
# `referHackWhenInit`

The classes of a build are instrumented where they lie, so the next build
finds them instrumented.  In front of each `RETURN` of a constructor a
constant is loaded.
-/

namespace DripStone.HotfixPlugin

open DripStone.Library

/-! ## Methods -/

inductive Insn (Other : Type) where
  -- `LDC` of the type `AntilazyLoad`
  | ldcAntilazyLoad
  | ret
  | other (insn : Other)
deriving DecidableEq, Repr

structure MethodNode (Other : Type) where
  name : Text
  insns : List (Insn Other)
deriving DecidableEq, Repr

def initName : Text :=
  "<init>".toList

section Methods

variable {Other : Type}

/-- `visitInsn`, in a constructor. -/
def insertLdc : List (Insn Other) → List (Insn Other)
  | [] => []
  | .ret :: rest => .ldcAntilazyLoad :: .ret :: insertLdc rest
  | .ldcAntilazyLoad :: rest => .ldcAntilazyLoad :: insertLdc rest
  | .other insn :: rest => .other insn :: insertLdc rest

def visitMethod (method : MethodNode Other) : MethodNode Other :=
  if method.name = initName then
    { method with insns := insertLdc method.insns }
  else method

/-- How many of the constants stand right before each `RETURN`, behind some
that were counted. -/
def ldcsBeforeReturns : Nat → List (Insn Other) → List Nat
  | _, [] => []
  | count, .ret :: rest => count :: ldcsBeforeReturns 0 rest
  | count, .ldcAntilazyLoad :: rest => ldcsBeforeReturns (count + 1) rest
  | _, .other _ :: rest => ldcsBeforeReturns 0 rest

/-- The same for the constructors of a class. -/
def initReturns (methods : List (MethodNode Other)) : List Nat :=
  methods.flatMap fun method =>
    if method.name = initName then ldcsBeforeReturns 0 method.insns else []

variable {insns : List (Insn Other)} {methods : List (MethodNode Other)}

/-- One more constant stands before each `RETURN`. -/
theorem ldcsBeforeReturns_insertLdc (count : Nat) :
    ldcsBeforeReturns count (insertLdc insns) =
      (ldcsBeforeReturns count insns).map (· + 1) := by
  induction insns generalizing count with
  | nil => rfl
  | cons insn rest inductionHypothesis =>
      cases insn with
      | ldcAntilazyLoad => exact inductionHypothesis (count + 1)
      | ret => exact congrArg ((count + 1) :: ·) (inductionHypothesis 0)
      | other insn => exact inductionHypothesis 0

theorem insertLdc_of_noReturn {count : Nat}
    (none : ldcsBeforeReturns count insns = []) : insertLdc insns = insns := by
  induction insns generalizing count with
  | nil => rfl
  | cons insn rest inductionHypothesis =>
      cases insn with
      | ldcAntilazyLoad =>
          exact congrArg (.ldcAntilazyLoad :: ·) (inductionHypothesis none)
      | ret => cases none
      | other insn =>
          exact congrArg (.other insn :: ·) (inductionHypothesis none)

theorem initReturns_visitMethod :
    initReturns (methods.map visitMethod) =
      (initReturns methods).map (· + 1) := by
  induction methods with
  | nil => rfl
  | cons method rest inductionHypothesis =>
      rw [initReturns] at inductionHypothesis ⊢
      rw [initReturns, List.map_cons, List.flatMap_cons, List.flatMap_cons,
        List.map_append, inductionHypothesis, initReturns]
      refine congrArg (· ++ _) ?_
      by_cases isInit : method.name = initName
      · rw [visitMethod, if_pos isInit, if_pos isInit, if_pos isInit,
          ldcsBeforeReturns_insertLdc]
      · rw [visitMethod, if_neg isInit, if_neg isInit, List.map_nil]

theorem map_visitMethod_of_noReturn (none : initReturns methods = []) :
    methods.map visitMethod = methods := by
  refine (List.map_congr_left fun method isMethod => ?_).trans
    (List.map_id methods)
  rw [visitMethod, id]
  split
  · next isInit =>
      rw [initReturns, List.flatMap_eq_nil_iff] at none
      have here := none method isMethod
      rw [if_pos isInit] at here
      rw [insertLdc_of_noReturn here]
  · rfl

end Methods

/-! ## Class files -/

/-- What the reader and the writer of class files do: what was written is read
again, and written again in the same bytes. -/
structure Asm (ClassFile Other : Type) where
  methods : ClassFile → List (MethodNode Other)
  write : ClassFile → List (MethodNode Other) → ClassFile
  methods_write : ∀ classFile nodes, methods (write classFile nodes) = nodes
  write_write : ∀ classFile nodes,
    write (write classFile nodes) nodes = write classFile nodes

section ClassFiles

variable {ClassFile Other : Type} (asm : Asm ClassFile Other)

def referHackWhenInit (classFile : ClassFile) : ClassFile :=
  asm.write classFile ((asm.methods classFile).map visitMethod)

variable {asm} {classFile : ClassFile}

theorem methods_referHackWhenInit :
    asm.methods (referHackWhenInit asm classFile) =
      (asm.methods classFile).map visitMethod :=
  asm.methods_write _ _

/-- After some builds there are as many more constants. -/
theorem initReturns_iterate (count : Nat) :
    initReturns (asm.methods ((referHackWhenInit asm)^[count] classFile)) =
      (initReturns (asm.methods classFile)).map (· + count) := by
  induction count with
  | zero => simp
  | succ count inductionHypothesis =>
      rw [Function.iterate_succ_apply', methods_referHackWhenInit,
        initReturns_visitMethod, inductionHypothesis, List.map_map]
      refine List.map_congr_left fun before _ => ?_
      exact Nat.add_assoc before count 1

/-- Without a `RETURN` the second build writes what the first has written. -/
theorem referHackWhenInit_iterate
    (none : initReturns (asm.methods classFile) = []) (count : Nat) :
    (referHackWhenInit asm)^[count + 1] classFile =
      referHackWhenInit asm classFile := by
  have unchanged := map_visitMethod_of_noReturn none
  have written : referHackWhenInit asm classFile =
      asm.write classFile (asm.methods classFile) := by
    rw [referHackWhenInit, unchanged]
  induction count with
  | zero => rfl
  | succ count inductionHypothesis =>
      rw [Function.iterate_succ_apply', inductionHypothesis, written,
        referHackWhenInit, asm.methods_write, unchanged, asm.write_write]

end ClassFiles

/-! ## The files of the task -/

/-- `HotfixExt` -/
structure HotfixExt where
  applicationName : Option Text
  fixPrefix : List Text

def isAndroidClz (className : Text) : Bool :=
  "android".toList <+: className || "androidx".toList <+: className

def HotfixExt.isFixClz (ext : HotfixExt) (className : Text) : Bool :=
  (if ext.fixPrefix = [] then !isAndroidClz className
    else ext.fixPrefix.any fun part => part <:+: className) &&
    ext.applicationName ≠ some className

/-- A class file under the name that `processClass` splits off its path, or a
jar with its entries as `entries` and `getInputStream` give them. -/
inductive InputFile (ClassFile : Type) where
  | classFile (className : Text) (content : ClassFile)
  | jar (entries : List (Instrumented ClassFile))

section Task

variable {ClassFile Other : Type} (asm : Asm ClassFile Other)
  (ext : HotfixExt)

/-- The entries of a jar that are instrumented. -/
def HotfixExt.isFixEntry (entryName : Text) : Bool :=
  ".class".toList <:+ entryName && ext.isFixClz entryName &&
    !("com/enjoy/patch".toList <+: entryName)

def instrument (entry : Instrumented ClassFile) : Instrumented ClassFile :=
  { entry with byteCode := referHackWhenInit asm entry.byteCode }

def processEntry (entry : Instrumented ClassFile) : Instrumented ClassFile :=
  if ext.isFixEntry entry.className then instrument asm entry else entry

/-- The loop of `processJar`, behind some names: the classes that it hands to
`checkClass`, and the entries of the new jar.  At a name that was there before
`putNextEntry` throws, and no new jar replaces the old one. -/
def processEntries (names : List Text) :
    List (Instrumented ClassFile) →
      List (Instrumented ClassFile) × Option (List (Instrumented ClassFile))
  | [] => ([], some [])
  | entry :: rest =>
      if entry.className ∈ names then ([], none)
      else
        let behind := processEntries (entry.className :: names) rest
        (if ext.isFixEntry entry.className then
            instrument asm entry :: behind.1
          else behind.1,
          behind.2.map (processEntry asm ext entry :: ·))

/-- `processClass` and `processJar`: the file that is left. -/
def processFile : InputFile ClassFile → InputFile ClassFile
  | .classFile className content =>
      .classFile className
        (if ext.isFixClz className then referHackWhenInit asm content
        else content)
  | .jar entries => .jar ((processEntries asm ext [] entries).2.getD entries)

/-- The classes that they hand to `checkClass`, in their order. -/
def checkedOf : InputFile ClassFile → List (Instrumented ClassFile)
  | .classFile className content =>
      if ext.isFixClz className then [instrument asm ⟨className, content⟩]
      else []
  | .jar entries => (processEntries asm ext [] entries).1

def processed (files : List (InputFile ClassFile)) :
    List (Instrumented ClassFile) :=
  files.flatMap (checkedOf asm ext)

/-- The files that some builds leave. -/
def filesAfter (files : List (InputFile ClassFile)) (count : Nat) :
    List (InputFile ClassFile) :=
  (List.map (processFile asm ext))^[count] files

/-- The classes of the builds, counted from nought. -/
def classesIn (files : List (InputFile ClassFile)) (number : Nat) :
    List (Instrumented ClassFile) :=
  processed asm ext (filesAfter asm ext files number)

/-! ## Doubled names -/

/-- The entries in front of the first one whose name was there before. -/
def undoubled (names : List Text) :
    List (Instrumented ClassFile) → List (Instrumented ClassFile)
  | [] => []
  | entry :: rest =>
      if entry.className ∈ names then []
      else entry :: undoubled (entry.className :: names) rest

def InputFile.isDoubled : InputFile ClassFile → Bool
  | .classFile _ _ => false
  | .jar entries => !decide (entries.map Instrumented.className).Nodup

/-- The classes of a file that are to be instrumented, as they are. -/
def fixable : InputFile ClassFile → List (Instrumented ClassFile)
  | .classFile className content =>
      if ext.isFixClz className then [⟨className, content⟩] else []
  | .jar entries => entries.filter fun entry => ext.isFixEntry entry.className

/-- Those of them that a build comes to. -/
def reached : InputFile ClassFile → List (Instrumented ClassFile)
  | .classFile className content => fixable ext (.classFile className content)
  | .jar entries => fixable ext (.jar (undoubled [] entries))

variable {asm ext} {file : InputFile ClassFile}
  {entries : List (Instrumented ClassFile)}

theorem checked_processEntries (names : List Text) :
    (processEntries asm ext names entries).1 =
      ((undoubled names entries).filter fun entry =>
        ext.isFixEntry entry.className).map (instrument asm) := by
  induction entries generalizing names with
  | nil => rfl
  | cons entry rest inductionHypothesis =>
      rw [processEntries, undoubled]
      by_cases isThere : entry.className ∈ names
      · rw [if_pos isThere, if_pos isThere]
        rfl
      · rw [if_neg isThere, if_neg isThere, List.filter_cons]
        by_cases isFix : ext.isFixEntry entry.className = true
        · rw [if_pos isFix]
          refine (if_pos isFix).trans ?_
          exact congrArg (instrument asm entry :: ·) (inductionHypothesis _)
        · rw [if_neg isFix]
          refine (if_neg isFix).trans ?_
          exact inductionHypothesis _

theorem written_processEntries (names : List Text) :
    (processEntries asm ext names entries).2 =
      if (entries.map Instrumented.className).Nodup ∧
          ∀ entry ∈ entries, entry.className ∉ names then
        some (entries.map (processEntry asm ext))
      else none := by
  induction entries generalizing names with
  | nil => rfl
  | cons entry rest inductionHypothesis =>
      rw [processEntries]
      by_cases isThere : entry.className ∈ names
      · rw [if_pos isThere, if_neg]
        exact fun once => once.2 entry List.mem_cons_self isThere
      · rw [if_neg isThere]
        refine (congrArg (Option.map _) (inductionHypothesis _)).trans ?_
        by_cases once : (rest.map Instrumented.className).Nodup ∧
            ∀ other ∈ rest, other.className ∉ entry.className :: names
        · have onceMore : ((entry :: rest).map Instrumented.className).Nodup ∧
              ∀ other ∈ entry :: rest, other.className ∉ names := by
            simp only [List.mem_cons, not_or] at once
            refine ⟨List.nodup_cons.mpr ⟨fun inRest => ?_, once.1⟩, ?_⟩
            · obtain ⟨other, isOther, isName⟩ := List.mem_map.mp inRest
              exact (once.2 other isOther).1 isName
            · exact List.forall_mem_cons.mpr
                ⟨isThere, fun other isOther => (once.2 other isOther).2⟩
          rw [if_pos once, if_pos onceMore]
          rfl
        · rw [if_neg once, if_neg]
          · rfl
          · rintro ⟨onceMore, apart⟩
            obtain ⟨notInRest, onceInRest⟩ := List.nodup_cons.mp onceMore
            refine once ⟨onceInRest, fun other isOther isMet => ?_⟩
            rcases List.mem_cons.mp isMet with isName | isMet
            · exact notInRest (isName ▸ List.mem_map_of_mem isOther)
            · exact apart other (List.mem_cons_of_mem _ isOther) isMet

theorem undoubled_of_nodup {names : List Text}
    (once : (entries.map Instrumented.className).Nodup)
    (apart : ∀ entry ∈ entries, entry.className ∉ names) :
    undoubled names entries = entries := by
  induction entries generalizing names with
  | nil => rfl
  | cons entry rest inductionHypothesis =>
      obtain ⟨notInRest, onceInRest⟩ := List.nodup_cons.mp once
      rw [undoubled, if_neg (apart entry List.mem_cons_self),
        inductionHypothesis onceInRest]
      intro other isOther isMet
      rcases List.mem_cons.mp isMet with isName | isMet
      · exact notInRest (isName ▸ List.mem_map_of_mem isOther)
      · exact apart other (List.mem_cons_of_mem _ isOther) isMet

/-! ## One file -/

/-- Spec lemma: the classes that are handed on were reached. -/
theorem checkedOf_eq :
    checkedOf asm ext file = (reached ext file).map (instrument asm) := by
  cases file with
  | classFile className content =>
      rw [checkedOf, reached, fixable]
      split
      · rfl
      · rfl
  | jar entries => exact checked_processEntries []

/-- A jar with a doubled name is left as it was. -/
theorem processFile_of_doubled (doubled : file.isDoubled = true) :
    processFile asm ext file = file := by
  cases file with
  | classFile className content => cases doubled
  | jar entries =>
      simp only [InputFile.isDoubled, Bool.not_eq_true',
        decide_eq_false_iff_not] at doubled
      rw [processFile, written_processEntries, if_neg fun once =>
        doubled once.1, Option.getD_none]

theorem processFile_jar (single : (InputFile.jar entries).isDoubled = false) :
    processFile asm ext (.jar entries) =
      .jar (entries.map (processEntry asm ext)) := by
  simp only [InputFile.isDoubled, Bool.not_eq_false',
    decide_eq_true_eq] at single
  rw [processFile, written_processEntries,
    if_pos ⟨single, fun _ _ => List.not_mem_nil⟩, Option.getD_some]

theorem isDoubled_processFile :
    (processFile asm ext file).isDoubled = file.isDoubled := by
  by_cases doubled : file.isDoubled = true
  · rw [processFile_of_doubled doubled]
  · rw [Bool.not_eq_true] at doubled
    cases file with
    | classFile className content => rfl
    | jar entries =>
        have sameNames : (entries.map (processEntry asm ext)).map
            Instrumented.className =
              entries.map Instrumented.className := by
          rw [List.map_map]
          refine List.map_congr_left fun entry _ => ?_
          rw [Function.comp_apply, processEntry]
          split
          · rfl
          · rfl
        rw [processFile_jar doubled, InputFile.isDoubled, sameNames]
        rfl

theorem reached_of_single (single : file.isDoubled = false) :
    reached ext file = fixable ext file := by
  cases file with
  | classFile className content => rfl
  | jar entries =>
      simp only [InputFile.isDoubled, Bool.not_eq_false',
        decide_eq_true_eq] at single
      rw [reached, undoubled_of_nodup single fun _ _ => List.not_mem_nil]

theorem fixable_processFile (single : file.isDoubled = false) :
    fixable ext (processFile asm ext file) =
      (fixable ext file).map (instrument asm) := by
  cases file with
  | classFile className content =>
      rw [processFile, fixable, fixable]
      split
      · rfl
      · rfl
  | jar entries =>
      rw [processFile_jar single, fixable, fixable]
      clear single
      induction entries with
      | nil => rfl
      | cons entry rest inductionHypothesis =>
          rw [List.map_cons, List.filter_cons, List.filter_cons,
            inductionHypothesis, processEntry]
          by_cases isFix : ext.isFixEntry entry.className = true
          · rw [if_pos isFix, if_pos isFix]
            exact if_pos isFix
          · rw [if_neg isFix, if_neg isFix, if_neg isFix]

/-! ## Some builds -/

theorem filesAfter_eq (files : List (InputFile ClassFile)) (count : Nat) :
    filesAfter asm ext files count =
      files.map (processFile asm ext)^[count] := by
  induction count with
  | zero => simp [filesAfter]
  | succ count inductionHypothesis =>
      rw [filesAfter, Function.iterate_succ_apply', ← filesAfter,
        inductionHypothesis, List.map_map]
      refine List.map_congr_left fun file _ => ?_
      rw [Function.iterate_succ_apply']
      rfl

/-- The builds leave a jar with a doubled name as it was. -/
theorem iterate_processFile_of_doubled (doubled : file.isDoubled = true)
    (count : Nat) : (processFile asm ext)^[count] file = file :=
  Function.iterate_fixed (processFile_of_doubled doubled) count

theorem isDoubled_iterate (count : Nat) :
    ((processFile asm ext)^[count] file).isDoubled = file.isDoubled := by
  induction count with
  | zero => rfl
  | succ count inductionHypothesis =>
      rw [Function.iterate_succ_apply', isDoubled_processFile,
        inductionHypothesis]

/-- Run lemma: the classes of the other files behind some builds. -/
theorem fixable_iterate (single : file.isDoubled = false) (count : Nat) :
    fixable ext ((processFile asm ext)^[count] file) =
      (fixable ext file).map ((instrument asm)^[count]) := by
  induction count with
  | zero => simp
  | succ count inductionHypothesis =>
      have still : ((processFile asm ext)^[count] file).isDoubled = false :=
        (isDoubled_iterate count).trans single
      rw [Function.iterate_succ_apply', fixable_processFile still,
        inductionHypothesis, List.map_map]
      refine List.map_congr_left fun entry _ => ?_
      rw [Function.iterate_succ_apply']
      rfl

end Task

end DripStone.HotfixPlugin
