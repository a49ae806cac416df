import Mathlib

/-!
# Path texts

A path text is a list of names between separators; separators that follow one
another, or end the text, separate nothing.  The names `.` and `..` mean the
directory they stand in and the one above it.
-/

namespace DripStone.Library

abbrev Text := List Char

instance lawfulBEqText : LawfulBEq Text :=
  inferInstance

abbrev Name := List Char

/-- An absolute path, from the root directory. -/
abbrev Path := List Name

def dot : Name := ['.']

def dotDot : Name := ['.', '.']

/-- A name that a directory can hold. -/
def Plain (name : Name) : Prop :=
  name ≠ [] ∧ '/' ∉ name ∧ name ≠ dot ∧ name ≠ dotDot

instance (name : Name) : Decidable (Plain name) :=
  inferInstanceAs (Decidable (_ ∧ _ ∧ _ ∧ _))

/-! ## The names of a text -/

def namesOf (text : Text) : List Name :=
  (text.splitOn '/').filter (· ≠ [])

@[simp]
theorem namesOf_nil : namesOf [] = [] := rfl

theorem namesOf_append_slash (initial suffix : Text) :
    namesOf (initial ++ '/' :: suffix) =
      namesOf initial ++ namesOf suffix := by
  rw [namesOf, List.splitOn_append_cons_self, List.filter_append]
  rfl

theorem namesOf_slash (suffix : Text) :
    namesOf ('/' :: suffix) = namesOf suffix := by
  have parts := namesOf_append_slash [] suffix
  simpa using parts

theorem namesOf_name {name : Name} (nonempty : name ≠ [])
    (unseparated : '/' ∉ name) : namesOf name = [name] := by
  rw [namesOf, List.splitOn_eq_singleton unseparated]
  simp [nonempty]

theorem Plain.namesOf {name : Name} (plain : Plain name) :
    namesOf name = [name] :=
  namesOf_name plain.1 plain.2.1

theorem noSlash_of_mem_splitOn {text : Text} {part : Text}
    (member : part ∈ text.splitOn '/') : '/' ∉ part := by
  induction text generalizing part with
  | nil =>
      rw [List.splitOn_nil, List.mem_singleton] at member
      rw [member]
      exact List.not_mem_nil
  | cons letter rest inductionHypothesis =>
      rw [List.splitOn_cons_eq_if_modifyHead] at member
      split at member
      · rcases List.mem_cons.mp member with rfl | later
        · exact List.not_mem_nil
        · exact inductionHypothesis later
      · next isOther =>
          cases parts : rest.splitOn '/' with
          | nil => exact absurd parts (List.splitOn_ne_nil '/' rest)
          | cons head tail =>
              rw [parts] at inductionHypothesis member
              rcases List.mem_cons.mp member with rfl | later
              · rw [List.mem_cons, not_or]
                exact ⟨fun same => isOther (by simp [← same]),
                  inductionHypothesis List.mem_cons_self⟩
              · exact inductionHypothesis (List.mem_cons_of_mem _ later)

/-- The names that a text can have. -/
def Named (names : List Name) : Prop :=
  ∀ name ∈ names, name ≠ [] ∧ '/' ∉ name

theorem named_namesOf (text : Text) : Named (namesOf text) := by
  intro name inNames
  rw [namesOf, List.mem_filter, decide_eq_true_iff] at inNames
  exact ⟨inNames.2, noSlash_of_mem_splitOn inNames.1⟩

/-- The text of a list of names. -/
def textOf (names : List Name) : Text :=
  ['/'].intercalate names

theorem textOf_cons_cons (first second : Name) (rest : List Name) :
    textOf (first :: second :: rest) =
      first ++ '/' :: textOf (second :: rest) := by
  simp [textOf, List.intercalate]

theorem head?_textOf {first : Name} {rest : List Name}
    (nonempty : first ≠ []) :
    (textOf (first :: rest)).head? = first.head? := by
  cases rest with
  | nil => simp [textOf, List.intercalate]
  | cons second rest =>
      rw [textOf_cons_cons, List.head?_append_of_ne_nil _ nonempty]

theorem Named.namesOf_textOf {names : List Name} (named : Named names) :
    namesOf (textOf names) = names := by
  induction names with
  | nil => rfl
  | cons first rest inductionHypothesis =>
      have atFirst := named first List.mem_cons_self
      have isFirst := namesOf_name atFirst.1 atFirst.2
      have atRest := inductionHypothesis fun name inRest =>
        named name (List.mem_cons_of_mem first inRest)
      cases rest with
      | nil =>
          simpa [textOf, List.intercalate] using isFirst
      | cons second rest =>
          rw [textOf_cons_cons, namesOf_append_slash, isFirst, atRest]
          rfl

theorem namesOf_textOf {names : List Name}
    (plain : ∀ name ∈ names, Plain name) : namesOf (textOf names) = names :=
  Named.namesOf_textOf fun name inNames =>
    ⟨(plain name inNames).1, (plain name inNames).2.1⟩

theorem textOf_append {names : List Name} (some : names ≠ [])
    (last : Name) :
    textOf (names ++ [last]) = textOf names ++ '/' :: last := by
  induction names with
  | nil => exact absurd rfl some
  | cons first rest inductionHypothesis =>
      cases rest with
      | nil => simp [textOf, List.intercalate]
      | cons second rest =>
          rw [List.cons_append, List.cons_append, textOf_cons_cons,
            textOf_cons_cons]
          have atRest := inductionHypothesis (List.cons_ne_nil second rest)
          rw [List.cons_append] at atRest
          rw [atRest, List.append_assoc]
          rfl

/-! ## Normalisation -/

/-- The place a name leads to. -/
def enter (here : Path) (name : Name) : Path :=
  if name = dot then here
  else if name = dotDot then here.dropLast
  else here ++ [name]

def normalize (start : Path) (names : List Name) : Path :=
  names.foldl enter start

@[simp]
theorem normalize_nil (start : Path) : normalize start [] = start := rfl

@[simp]
theorem normalize_cons (start : Path) (name : Name) (rest : List Name) :
    normalize start (name :: rest) = normalize (enter start name) rest := rfl

theorem normalize_append (start : Path) (names others : List Name) :
    normalize start (names ++ others) =
      normalize (normalize start names) others :=
  List.foldl_append

theorem Plain.enter {name : Name} (plain : Plain name) (here : Path) :
    enter here name = here ++ [name] := by
  rw [DripStone.Library.enter, if_neg plain.2.2.1, if_neg plain.2.2.2]

theorem normalize_of_plain {names : List Name}
    (plain : ∀ name ∈ names, Plain name) (start : Path) :
    normalize start names = start ++ names := by
  induction names generalizing start with
  | nil => simp
  | cons name rest inductionHypothesis =>
      have here := plain name List.mem_cons_self
      rw [normalize_cons, here.enter,
        inductionHypothesis fun other inRest =>
          plain other (List.mem_cons_of_mem name inRest)]
      simp

/-! ## `java.io.File` -/

/-- A pathname as Java holds it. -/
structure File where
  absolute : Bool
  names : List Name
deriving DecidableEq, Repr

namespace File

/-- `new File(pathname)`. -/
def ofText (pathname : Text) : File :=
  ⟨pathname.head? = some '/', namesOf pathname⟩

/-- `new File(parent, child)`. -/
def child (parent : File) (name : Text) : File :=
  { parent with names := parent.names ++ namesOf name }

theorem names_child {name : Name} (plain : Plain name) (file : File) :
    (file.child name).names = file.names ++ [name] := by
  rw [child, plain.namesOf]

def getPath (file : File) : Text :=
  (if file.absolute then ['/'] else []) ++ textOf file.names

def getName (file : File) : Name :=
  file.names.getLastD []

def getParentFile (file : File) : Option File :=
  match file.names with
  | [] => none
  | [_] => if file.absolute then some ⟨true, []⟩ else none
  | names => some { file with names := names.dropLast }

theorem getParentFile_eq_some {file parent : File}
    (isParent : file.getParentFile = some parent) :
    parent = { file with names := file.names.dropLast } := by
  obtain ⟨absolute, names⟩ := file
  unfold getParentFile at isParent
  cases names with
  | nil => simp at isParent
  | cons first rest =>
      cases rest with
      | nil =>
          cases absolute <;> simp at isParent
          rw [← isParent]
          rfl
      | cons second rest => exact (Option.some.inj isParent).symm

theorem getParentFile_concat {absolute : Bool} {names : List Name}
    (last : Name) (above : absolute = true ∨ names ≠ []) :
    (File.mk absolute (names ++ [last])).getParentFile =
      some ⟨absolute, names⟩ := by
  cases names with
  | nil =>
      rcases above with isAbsolute | more
      · rw [isAbsolute]
        rfl
      · exact absurd rfl more
  | cons first rest =>
      cases rest with
      | nil => rfl
      | cons second rest =>
          have whole : (first :: second :: rest ++ [last]).dropLast =
            first :: second :: rest := List.dropLast_concat
          exact congrArg (fun names => some (File.mk absolute names)) whole

/-- Where the names of a file start, under a working directory. -/
def start (workingDirectory : Path) (file : File) : Path :=
  if file.absolute then [] else workingDirectory

def normalized (workingDirectory : Path) (file : File) : Path :=
  normalize (file.start workingDirectory) file.names

/-- `dest + File.separator + name`. -/
theorem ofText_join {destination : Text} (named : destination ≠ [])
    (name : Text) :
    ofText (destination ++ '/' :: name) =
      (ofText destination).child name := by
  cases destination with
  | nil => exact absurd rfl named
  | cons first rest =>
      rw [ofText, namesOf_append_slash]
      rfl

/-! ### Absolute paths -/

/-- `getAbsolutePath`, under a working directory. -/
def getAbsolutePath (workingDirectory : Path) (file : File) : Text :=
  if file.absolute then file.getPath
  else (File.mk true (workingDirectory ++ file.names)).getPath

/-- The pathname of a file, read again. -/
theorem ofText_getPath {file : File} (named : Named file.names) :
    ofText file.getPath = file := by
  obtain ⟨absolute, names⟩ := file
  cases absolute with
  | true =>
      show File.mk _ (namesOf ('/' :: textOf names)) = _
      rw [namesOf_slash, named.namesOf_textOf]
      simp [getPath]
  | false =>
      show File.mk (decide ((textOf names).head? = some '/'))
        (namesOf (textOf names)) = _
      have relative : (textOf names).head? ≠ some '/' := by
        cases names with
        | nil => simp [textOf, List.intercalate]
        | cons first rest =>
            obtain ⟨nonempty, noSlash⟩ := named first List.mem_cons_self
            rw [head?_textOf nonempty]
            exact fun starts => noSlash (List.mem_of_head? starts)
      rw [named.namesOf_textOf, decide_eq_false relative]

/-- The absolute pathname of a file, read again. -/
theorem ofText_getAbsolutePath {workingDirectory : Path} {file : File}
    (namedDirectory : file.absolute = false → Named workingDirectory)
    (named : Named file.names) :
    ofText (file.getAbsolutePath workingDirectory) =
      ⟨true, file.start workingDirectory ++ file.names⟩ := by
  obtain ⟨absolute, names⟩ := file
  cases absolute with
  | true => exact ofText_getPath named
  | false =>
      refine ofText_getPath fun name inNames => ?_
      rcases List.mem_append.mp inNames with above | below
      · exact namedDirectory rfl name above
      · exact named name below

end File

/-! ## Enumerations -/

/-- The paths at and below `root` that have a property, each once. -/
structure Enumerates (holds : Path → Prop) (root : Path)
    (paths : List Path) : Prop where
  mem_iff : ∀ path, path ∈ paths ↔ root <+: path ∧ holds path
  nodup : paths.Nodup

section Enumerates

variable {holds : Path → Prop} {root : Path}

theorem enumerates_nil (nowhere : ∀ rest, ¬holds (root ++ rest)) :
    Enumerates holds root [] where
  mem_iff := by
    intro path
    refine iff_of_false List.not_mem_nil fun ⟨⟨rest, isPath⟩, there⟩ => ?_
    exact nowhere rest (isPath ▸ there)
  nodup := List.nodup_nil

theorem enumerates_singleton (here : holds root)
    (alone : ∀ rest ≠ [], ¬holds (root ++ rest)) :
    Enumerates holds root [root] where
  mem_iff := by
    intro path
    rw [List.mem_singleton]
    constructor
    · rintro rfl
      exact ⟨List.prefix_rfl, here⟩
    · rintro ⟨⟨rest, rfl⟩, there⟩
      by_contra below
      exact alone rest (fun isEmpty => below (by simp [isEmpty])) there
  nodup := List.nodup_singleton root

theorem eq_of_prefix_concat {name other : Name} {path : Path}
    (first : root ++ [name] <+: path) (second : root ++ [other] <+: path) :
    name = other := by
  have lengths : (root ++ [name]).length = (root ++ [other]).length := by
    simp
  have same := List.prefix_of_prefix_length_le first second lengths.le
  simpa using same.eq_of_length lengths

/-- What is not at `root` is below one of its names. -/
theorem enumerates_flatMap {names : List Name} {paths : Name → List Path}
    (nodup : names.Nodup) (notHere : ¬holds root)
    (complete : ∀ name rest, holds (root ++ name :: rest) → name ∈ names)
    (each : ∀ name ∈ names,
      Enumerates holds (root ++ [name]) (paths name)) :
    Enumerates holds root (names.flatMap paths) where
  mem_iff := by
    intro path
    rw [List.mem_flatMap]
    constructor
    · rintro ⟨name, inNames, inPaths⟩
      obtain ⟨below, there⟩ := ((each name inNames).mem_iff path).mp inPaths
      exact ⟨(List.prefix_append _ _).trans below, there⟩
    · rintro ⟨⟨rest, rfl⟩, there⟩
      cases rest with
      | nil =>
          rw [List.append_nil] at there
          exact absurd there notHere
      | cons name rest =>
          have inNames := complete name rest there
          refine ⟨name, inNames, ((each name inNames).mem_iff _).mpr ?_⟩
          exact ⟨⟨rest, by simp⟩, there⟩
  nodup := by
    rw [List.nodup_flatMap]
    constructor
    · intro name inNames
      exact (each name inNames).nodup
    · apply nodup.pairwise_of_forall_ne
      intro first inFirst second inSecond different path isFirst isSecond
      have one := (((each first inFirst).mem_iff path).mp isFirst).1
      have two := (((each second inSecond).mem_iff path).mp isSecond).1
      exact different (eq_of_prefix_concat one two)

end Enumerates

end DripStone.Library
