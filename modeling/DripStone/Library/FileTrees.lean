import DripStone.Library.FileSystem

/-!
# Trees of files

The files of a file system as a partial map, the removal of whole trees, and
the walk over a tree.
-/

namespace DripStone.Library

namespace FileSystem

variable {Content : Type}

/-! ## The content of a file -/

def fileAt (files : FileSystem Content) (path : Path) : Option Content :=
  match files.find path with
  | some (.file content) => some content
  | _ => none

theorem fileAt_eq_some_iff {files : FileSystem Content} {path : Path}
    {content : Content} :
    files.fileAt path = some content ↔
      files.find path = some (.file content) := by
  unfold fileAt
  cases found : files.find path with
  | none => simp
  | some entry => cases entry <;> simp

theorem fileAt_eq_none_iff {files : FileSystem Content} {path : Path} :
    files.fileAt path = none ↔
      files.find path = none ∨ files.find path = some .directory := by
  unfold fileAt
  cases found : files.find path with
  | none => simp
  | some entry => cases entry <;> simp

theorem fileAt_congr {files others : FileSystem Content} {path : Path}
    (same : files.find path = others.find path) :
    files.fileAt path = others.fileAt path := by
  unfold fileAt
  rw [same]

/-- Below a file there is no file. -/
theorem fileAt_append_eq_none {files : FileSystem Content} {path rest : Path}
    (isFile : files.fileAt path ≠ none) (more : rest ≠ []) :
    files.fileAt (path ++ rest) = none := by
  have noDirectory : files.find path ≠ some .directory := by
    intro directory
    exact isFile (fileAt_eq_none_iff.mpr (Or.inr directory))
  have absent := files.find_eq_none_of_append noDirectory more
  exact fileAt_eq_none_iff.mpr (Or.inl absent)

/-! ## Removing a tree -/

private theorem lookup_foldl_erase
    (nodes : AList (fun _ : Path => Entry Content)) (keys : List Path)
    (path : Path) :
    (keys.foldl (fun nodes key => nodes.erase key) nodes).lookup path =
      if path ∈ keys then none else nodes.lookup path := by
  induction keys generalizing nodes with
  | nil => simp
  | cons key rest inductionHypothesis =>
      rw [List.foldl_cons, inductionHypothesis]
      by_cases inRest : path ∈ rest
      · simp [inRest]
      · by_cases same : path = key
        · subst same
          simp [inRest, AList.lookup_erase]
        · simp [inRest, same, AList.lookup_erase_ne same]

/-- The nodes that are not gone. -/
def remaining (files : FileSystem Content) (gone : Path → Bool) :
    AList (fun _ : Path => Entry Content) :=
  (files.nodes.keys.filter gone).foldl
    (fun nodes key => nodes.erase key) files.nodes

theorem lookup_remaining (files : FileSystem Content) (gone : Path → Bool)
    (path : Path) :
    (files.remaining gone).lookup path =
      if gone path then none else files.find path := by
  rw [remaining, lookup_foldl_erase]
  simp only [List.mem_filter]
  by_cases isGone : gone path = true
  · rw [if_pos isGone]
    by_cases listed : path ∈ files.nodes.keys
    · rw [if_pos ⟨listed, isGone⟩]
    · rw [if_neg fun both => listed both.1]
      exact AList.lookup_eq_none.mpr listed
  · rw [if_neg isGone, if_neg fun both => isGone both.2]
    rfl

/-- What lies below a gone path is gone. -/
def Closed (gone : Path → Bool) : Prop :=
  gone [] = false ∧ ∀ path name, gone path = true →
    gone (path ++ [name]) = true

def removeWhere (files : FileSystem Content) (gone : Path → Bool)
    (closed : Closed gone) : FileSystem Content where
  nodes := files.remaining gone
  root := by
    rw [lookup_remaining, closed.1]
    exact files.root
  parents := by
    intro path name exists_
    rw [lookup_remaining] at exists_ ⊢
    by_cases below : gone (path ++ [name]) = true
    · rw [if_pos below] at exists_
      exact absurd rfl exists_
    · rw [if_neg below] at exists_
      rw [if_neg fun above => below (closed.2 path name above)]
      exact files.parents path name exists_
  plain := by
    intro path exists_
    rw [lookup_remaining] at exists_
    by_cases isGone : gone path = true
    · rw [if_pos isGone] at exists_
      exact absurd rfl exists_
    · rw [if_neg isGone] at exists_
      exact files.plain path exists_

theorem find_removeWhere (files : FileSystem Content) {gone : Path → Bool}
    (closed : Closed gone) (path : Path) :
    (files.removeWhere gone closed).find path =
      if gone path then none else files.find path :=
  files.lookup_remaining gone path

private theorem closed_tree {path : Path} (below : path ≠ []) :
    Closed fun other => decide (path <+: other) := by
  constructor
  · simpa using below
  · intro other name isBelow
    have longer := (of_decide_eq_true isBelow).trans
      (List.prefix_append other [name])
    exact decide_eq_true longer

/-- A file, or a directory with all it holds, deleted. -/
def removeTree (files : FileSystem Content) (path : Path) :
    FileSystem Content :=
  if below : path ≠ [] then
    files.removeWhere (fun other => decide (path <+: other))
      (closed_tree below)
  else files

theorem find_removeTree {files : FileSystem Content} {path : Path}
    (below : path ≠ []) (other : Path) :
    (files.removeTree path).find other =
      if path <+: other then none else files.find other := by
  rw [removeTree, dif_pos below, find_removeWhere]
  simp

private theorem closed_below (path : Path) :
    Closed fun other => decide (path <+: other ∧ other ≠ path) := by
  constructor
  · simp [eq_comm]
  · intro other name isBelow
    have shorter := (of_decide_eq_true isBelow).1
    refine decide_eq_true
      ⟨shorter.trans (List.prefix_append other [name]), ?_⟩
    intro same
    rw [← same] at shorter
    have lengths := shorter.length_le
    rw [List.length_append, List.length_singleton] at lengths
    omega

/-- All that a directory holds, deleted. -/
def removeBelow (files : FileSystem Content) (path : Path) :
    FileSystem Content :=
  files.removeWhere (fun other => decide (path <+: other ∧ other ≠ path))
    (closed_below path)

/-! ## Walking a tree -/

/-- `walkTopDown`, to a depth. -/
def walk (files : FileSystem Content) : Nat → Path → List Path
  | 0, path => [path]
  | depth + 1, path =>
      path :: (files.list path).flatMap fun name =>
        files.walk depth (path ++ [name])

def walkTopDown (files : FileSystem Content) (path : Path) : List Path :=
  files.walk files.height path

theorem prefix_of_mem_walk {files : FileSystem Content} {depth : Nat}
    {path other : Path} (walked : other ∈ files.walk depth path) :
    path <+: other := by
  induction depth generalizing path with
  | zero =>
      rw [walk, List.mem_singleton] at walked
      rw [walked]
  | succ depth inductionHypothesis =>
      rw [walk, List.mem_cons, List.mem_flatMap] at walked
      rcases walked with here | ⟨name, _, below⟩
      · rw [here]
      · exact (List.prefix_append path [name]).trans
          (inductionHypothesis below)

private theorem mem_walk {files : FileSystem Content} {depth : Nat}
    {path rest : Path} (exists_ : files.find (path ++ rest) ≠ none)
    (shallow : rest.length ≤ depth) :
    path ++ rest ∈ files.walk depth path := by
  induction depth generalizing path rest with
  | zero =>
      have here : rest = [] := List.length_eq_zero_iff.mp (by omega)
      simp [here, walk]
  | succ depth inductionHypothesis =>
      rw [walk, List.mem_cons]
      cases rest with
      | nil => exact Or.inl (List.append_nil path)
      | cons name rest =>
          right
          have regrouped : path ++ name :: rest = path ++ [name] ++ rest := by
            simp
          have next := files.find_next exists_
          rw [regrouped] at exists_ ⊢
          rw [List.length_cons] at shallow
          rw [List.mem_flatMap]
          refine ⟨name, (files.mem_list_iff path name).mpr next, ?_⟩
          exact inductionHypothesis exists_ (by omega)

/-- The walk comes to all that exists below its start. -/
theorem mem_walkTopDown {files : FileSystem Content} {path other : Path}
    (isBelow : path <+: other) (exists_ : files.find other ≠ none) :
    other ∈ files.walkTopDown path := by
  obtain ⟨rest, rfl⟩ := isBelow
  apply mem_walk exists_
  have bounded := length_le_height exists_
  rw [List.length_append] at bounded
  omega

theorem prefix_of_mem_walkTopDown {files : FileSystem Content}
    {path other : Path} (walked : other ∈ files.walkTopDown path) :
    path <+: other :=
  prefix_of_mem_walk walked

end FileSystem

end DripStone.Library
