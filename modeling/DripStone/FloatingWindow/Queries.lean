import DripStone.Library.Fallible

/-!
# `FloatingWindowManager`

Which windows float over an activity is found by the tokens of the windows.
Three functions do so, each with a test of its own.
-/

namespace DripStone.FloatingWindow

open DripStone.Library

/-- `WindowManagerGlobal`: each window has a view, and a token or none. -/
structure Windows (View Token : Type) where
  views : List View
  params : List (Option Token)
  sameLength : views.length = params.length
  distinct : views.Nodup

/-- The decor view of an activity, with its `windowToken`. -/
structure Activity (View Token : Type) where
  decorView : View
  windowToken : Option Token

inductive Failure where
  | indexOutOfBoundsException
deriving DecidableEq, Repr

variable {View Token : Type}

/-- `list[index]` -/
def get {Item : Type} (list : List Item) (index : Nat) :
    Except Failure Item :=
  match list[index]? with
  | some item => .ok item
  | none => .error .indexOutOfBoundsException

section Code

variable [DecidableEq View] [DecidableEq Token]
  (windows : Windows View Token) (activity : Activity View Token)

/-! ## The three functions -/

def targetIndex : Option Nat :=
  windows.views.findIdx? fun view => view = activity.decorView

def targetToken : Except Failure (Option Token) :=
  match targetIndex windows activity with
  | some index => get windows.params index
  -- `mParams[-1]`
  | none => .error .indexOutOfBoundsException

def hasFloatWindowByToken : Except Failure Bool := do
  let targetToken ← targetToken windows activity
  let tokens := windows.params.filter fun token =>
    token = activity.windowToken || token = none || token = targetToken
  pure (1 < tokens.length)

/-- The views of the windows, of those with an index, that pass a test. -/
def viewsOf (windows : Windows View Token)
    (test : Option Token → Nat → Bool) : Except Failure (List View) :=
  (windows.params.zipIdx.filter fun window => test window.1 window.2).mapM
    fun window => get windows.views window.2

def getFloatWindowViewByToken : Except Failure (List View) := do
  let targetToken ← targetToken windows activity
  viewsOf windows fun token index =>
    some index ≠ targetIndex windows activity &&
      (token = activity.windowToken || token = none || token = targetToken)

def listWindowViewByToken : Except Failure (List View) := do
  let targetToken ← targetToken windows activity
  let floatView ← viewsOf windows fun token _ =>
    token = activity.windowToken || token = targetToken
  let sysViewStack ← viewsOf windows fun token _ => token = none
  pure (floatView ++ sysViewStack.reverse)

end Code

/-! ## The law -/

namespace Windows

/-- The views, each with the token of its window. -/
def tokens (windows : Windows View Token) : List (View × Option Token) :=
  windows.views.zip windows.params

end Windows

section Law

variable [DecidableEq View]

/-- The windows of an activity: its own, and those that float over it. -/
def shown (windows : Windows View Token) (decorView : View)
    (floating : List View) : List (View × Option Token) :=
  windows.tokens.filter fun window =>
    window.1 = decorView || window.1 ∈ floating

/-- What the answers of the three functions have to do with each other. -/
structure Agree (windows : Windows View Token) (decorView : View)
    (has : Bool) (floating listed : List View) : Prop where
  has_iff : has = true ↔ floating ≠ []
  notItself : decorView ∉ floating
  listed_iff : ∀ view, view ∈ listed ↔ view = decorView ∨ view ∈ floating
  once : listed.Nodup
  -- with a token in the order of the windows, then the others in reverse
  ordered : listed =
    (((shown windows decorView floating).filter (·.2.isSome)).map
      Prod.fst) ++
    (((shown windows decorView floating).filter (·.2.isNone)).map
      Prod.fst).reverse

end Law

/-! ## The windows that are found -/

section Found

variable {windows : Windows View Token}

theorem map_fst_tokens : windows.tokens.map Prod.fst = windows.views :=
  List.map_fst_zip windows.sameLength.le

theorem map_snd_tokens : windows.tokens.map Prod.snd = windows.params :=
  List.map_snd_zip windows.sameLength.ge

theorem getElem?_tokens {window : View × Option Token} {index : Nat} :
    windows.tokens[index]? = some window ↔
      windows.views[index]? = some window.1 ∧
        windows.params[index]? = some window.2 := by
  rw [Windows.tokens, List.getElem?_zip_eq_some]

/-- Spec lemma: the views are those of the windows that pass. -/
theorem viewsOf_eq (test : Option Token → Nat → Bool) :
    viewsOf windows test =
      .ok ((windows.tokens.zipIdx.filter fun window =>
        test window.1.2 window.2).map fun window => window.1.1) := by
  rw [viewsOf, ← map_snd_tokens, List.zipIdx_map, List.filter_map,
    mapM_eq_ok_iff, List.forall₂_map_left_iff, List.forall₂_map_right_iff]
  refine List.forall₂_same.mpr fun window isFound => ?_
  have isWindow := List.mem_zipIdx_iff_getElem?.mp
    (List.mem_of_mem_filter isFound)
  rw [Prod.map_snd, id, get, (getElem?_tokens.mp isWindow).1]

theorem viewsOf_tokens (test : Option Token → Bool) :
    viewsOf windows (fun token _ => test token) =
      .ok ((windows.tokens.filter fun window => test window.2).map
        Prod.fst) := by
  rw [viewsOf_eq]
  conv => rhs; rw [← List.zipIdx_map_fst 0 windows.tokens, List.filter_map]
  rw [List.map_map]
  rfl

variable [DecidableEq View] {activity : Activity View Token}

/-- The index of the decor view is found, and found once. -/
theorem exists_targetIndex (isListed : activity.decorView ∈ windows.views) :
    ∃ index, targetIndex windows activity = some index ∧
      ∀ view other, windows.views[other]? = some view →
        (other = index ↔ view = activity.decorView) := by
  cases found : targetIndex windows activity with
  | none =>
      rw [targetIndex, List.findIdx?_eq_none_iff] at found
      simpa using found _ isListed
  | some index =>
      obtain ⟨within, isDecor, _⟩ :=
        List.findIdx?_eq_some_iff_getElem.mp found
      refine ⟨index, rfl, fun view other isView => ?_⟩
      obtain ⟨otherWithin, rfl⟩ := List.getElem?_eq_some_iff.mp isView
      rw [← of_decide_eq_true isDecor]
      exact (windows.distinct.getElem_inj_iff).symm

end Found

/-! ## Agreement -/

/-- The decor view is that of a window, and no token of it is missing. -/
structure Attached (windows : Windows View Token)
    (activity : Activity View Token) : Prop where
  isListed : activity.decorView ∈ windows.views
  windowToken : activity.windowToken ≠ none
  ownToken : ∀ window ∈ windows.tokens,
    window.1 = activity.decorView → window.2 ≠ none

section Agreement

variable [DecidableEq View] [DecidableEq Token]
  {windows : Windows View Token} {activity : Activity View Token}
  {target : Option Token}

/-- The token is none, or one of the activity. -/
def isMatch (activity : Activity View Token) (target token : Option Token) :
    Bool :=
  token = activity.windowToken || token = none || token = target

def matching (windows : Windows View Token) (activity : Activity View Token)
    (target : Option Token) : List (View × Option Token) :=
  windows.tokens.filter fun window => isMatch activity target window.2

omit [DecidableEq Token] in
theorem exists_targetToken (attached : Attached windows activity) :
    ∃ target, targetToken windows activity = .ok target ∧ target ≠ none ∧
      (activity.decorView, target) ∈ windows.tokens := by
  obtain ⟨index, found, atIndex⟩ := exists_targetIndex attached.isListed
  obtain ⟨position, isDecor⟩ := List.mem_iff_getElem?.mp attached.isListed
  have isIndex := (atIndex _ position isDecor).mpr rfl
  rw [isIndex] at isDecor
  have within : index < windows.params.length := by
    rw [← windows.sameLength]
    exact (List.getElem?_eq_some_iff.mp isDecor).1
  have isToken := List.getElem?_eq_getElem within
  have isWindow : (activity.decorView, windows.params[index]) ∈
      windows.tokens :=
    List.mem_of_getElem? (getElem?_tokens.mpr ⟨isDecor, isToken⟩)
  refine ⟨windows.params[index], ?_,
    attached.ownToken _ isWindow rfl, isWindow⟩
  rw [targetToken, found]
  show get windows.params index = _
  rw [get, isToken]

theorem hasFloatWindowByToken_eq
    (found : targetToken windows activity = .ok target) :
    hasFloatWindowByToken windows activity =
      .ok (1 < (matching windows activity target).length) := by
  have sameLength : (matching windows activity target).length =
      (windows.params.filter (isMatch activity target)).length := by
    rw [matching, ← map_snd_tokens, List.filter_map, List.length_map]
    rfl
  rw [hasFloatWindowByToken, found, sameLength]
  rfl

theorem getFloatWindowViewByToken_eq (attached : Attached windows activity)
    (found : targetToken windows activity = .ok target) :
    getFloatWindowViewByToken windows activity =
      .ok (((matching windows activity target).map Prod.fst).filter
        fun view => view ≠ activity.decorView) := by
  obtain ⟨index, isTarget, atIndex⟩ := exists_targetIndex attached.isListed
  have sameTest : ∀ window ∈ windows.tokens.zipIdx,
      (decide (some window.2 ≠ targetIndex windows activity) &&
        isMatch activity target window.1.2) =
      (decide (window.1.1 ≠ activity.decorView) &&
        isMatch activity target window.1.2) := by
    intro window isWindow
    have isView := (getElem?_tokens.mp
      (List.mem_zipIdx_iff_getElem?.mp isWindow)).1
    rw [isTarget]
    simp only [Ne, Option.some_inj, atIndex _ _ isView]
  rw [getFloatWindowViewByToken, found]
  simp only [bind, Except.bind]
  rw [viewsOf_eq]
  refine congrArg Except.ok ?_
  calc (windows.tokens.zipIdx.filter _).map (fun window => window.1.1)
      = (windows.tokens.zipIdx.filter fun window =>
          decide (window.1.1 ≠ activity.decorView) &&
            isMatch activity target window.1.2).map
          (fun window => window.1.1) :=
        congrArg (List.map _) (List.filter_congr sameTest)
    _ = (windows.tokens.filter fun window =>
          decide (window.1 ≠ activity.decorView) &&
            isMatch activity target window.2).map Prod.fst := by
        conv => rhs; rw [← List.zipIdx_map_fst 0 windows.tokens]
        rw [List.filter_map, List.map_map]
        rfl
    _ = _ := by
        rw [matching, List.filter_map, List.filter_filter]
        rfl

theorem listWindowViewByToken_eq
    (found : targetToken windows activity = .ok target)
    (isToken : activity.windowToken ≠ none) (isTarget : target ≠ none) :
    listWindowViewByToken windows activity =
      .ok ((((matching windows activity target).filter
          (·.2.isSome)).map Prod.fst) ++
        (((matching windows activity target).filter
          (·.2.isNone)).map Prod.fst).reverse) := by
  have withToken : (matching windows activity target).filter (·.2.isSome) =
      windows.tokens.filter fun window =>
        window.2 = activity.windowToken || window.2 = target := by
    rw [matching, List.filter_filter]
    refine List.filter_congr fun window _ => ?_
    rw [isMatch]
    rcases window with ⟨view, _ | token⟩
    · simp [isToken.symm, isTarget.symm]
    · simp
  have withoutToken : (matching windows activity target).filter
      (·.2.isNone) = windows.tokens.filter fun window => window.2 = none := by
    rw [matching, List.filter_filter]
    refine List.filter_congr fun window _ => ?_
    rw [isMatch]
    rcases window with ⟨view, _ | token⟩
    · simp
    · simp
  rw [listWindowViewByToken, found, withToken, withoutToken]
  simp only [bind, Except.bind]
  rw [viewsOf_tokens (fun token =>
    decide (token = activity.windowToken) || decide (token = target)),
    viewsOf_tokens (fun token => decide (token = none))]
  rfl

theorem shown_eq (isOwn : (activity.decorView, target) ∈ windows.tokens) :
    shown windows activity.decorView
        (((matching windows activity target).map Prod.fst).filter
          fun view => view ≠ activity.decorView) =
      matching windows activity target := by
  refine List.filter_congr fun window isWindow => ?_
  have oneToken {other : View × Option Token}
      (isOther : other ∈ windows.tokens) (sameView : other.1 = window.1) :
      other = window := by
    refine List.inj_on_of_nodup_map ?_ isOther isWindow sameView
    rw [map_fst_tokens]
    exact windows.distinct
  rw [Bool.eq_iff_iff, Bool.or_eq_true, decide_eq_true_iff,
    decide_eq_true_iff, List.mem_filter, List.mem_map]
  constructor
  · rintro (isDecor | ⟨⟨other, isMatching, sameView⟩, _⟩)
    · rw [← oneToken isOwn isDecor.symm]
      simp [isMatch]
    · obtain ⟨isOther, passes⟩ := List.mem_filter.mp isMatching
      rw [← oneToken isOther sameView]
      exact passes
  · intro passes
    by_cases isDecor : window.1 = activity.decorView
    · exact Or.inl isDecor
    · refine Or.inr ⟨⟨window, List.mem_filter.mpr ⟨isWindow, passes⟩, rfl⟩, ?_⟩
      exact decide_eq_true isDecor

omit [DecidableEq View] [DecidableEq Token] in
/-- Nothing of the windows is lost when those without a token are put last. -/
theorem perm_of_tokenFirst (found : List (View × Option Token)) :
    ((found.filter (·.2.isSome)).map Prod.fst ++
      ((found.filter (·.2.isNone)).map Prod.fst).reverse).Perm
      (found.map Prod.fst) := by
  have reversed := (List.reverse_perm
    ((found.filter (·.2.isNone)).map Prod.fst)).append_left
      ((found.filter (·.2.isSome)).map Prod.fst)
  refine reversed.trans ?_
  rw [← List.map_append]
  simpa only [Option.not_isSome] using (List.filter_append_perm
    (fun window : View × Option Token => window.2.isSome)
    found).map Prod.fst

/-- The three functions find the windows of an activity, and agree. -/
theorem queries_agree (windows : Windows View Token)
    (activity : Activity View Token)
    (attached : Attached windows activity) :
    ∃ has floating listed,
      hasFloatWindowByToken windows activity = .ok has ∧
        getFloatWindowViewByToken windows activity = .ok floating ∧
        listWindowViewByToken windows activity = .ok listed ∧
        Agree windows activity.decorView has floating listed := by
  obtain ⟨target, found, isTarget, isOwn⟩ := exists_targetToken attached
  refine ⟨_, _, _, hasFloatWindowByToken_eq found,
    getFloatWindowViewByToken_eq attached found,
    listWindowViewByToken_eq found attached.windowToken isTarget, ?_⟩
  have isShown := shown_eq isOwn
  have allListed := perm_of_tokenFirst (matching windows activity target)
  have once : ((matching windows activity target).map Prod.fst).Nodup :=
    windows.distinct.sublist (map_fst_tokens ▸
      List.filter_sublist.map Prod.fst)
  have isView : activity.decorView ∈
      (matching windows activity target).map Prod.fst :=
    List.mem_map_of_mem (List.mem_filter.mpr ⟨isOwn, by simp [isMatch]⟩)
  constructor
  case has_iff =>
    have others : ((matching windows activity target).map Prod.fst).filter
        (fun view => view ≠ activity.decorView) =
          ((matching windows activity target).map Prod.fst).erase
            activity.decorView := by
      rw [once.erase_eq_filter]
      refine List.filter_congr fun view _ => ?_
      rw [Bool.eq_iff_iff, decide_eq_true_iff, bne_iff_ne]
    rw [others, decide_eq_true_iff, ← List.length_pos_iff,
      List.length_erase_of_mem isView, List.length_map]
    omega
  case notItself => simp
  case listed_iff =>
    intro view
    rw [allListed.mem_iff, List.mem_filter, decide_eq_true_iff]
    by_cases isDecor : view = activity.decorView
    · simp [isDecor, isView]
    · simp [isDecor]
  case once => exact allListed.nodup_iff.mpr once
  case ordered => rw [isShown]

end Agreement

/-! ## A dialog and a toast -/

/-- Under the window of the activity lies another; a dialog has the token of
the activity, and a toast has none. -/
def fourWindows : Windows Nat Nat where
  views := [0, 1, 2, 3]
  params := [some 7, some 8, none, some 8]
  sameLength := rfl
  distinct := by decide

theorem fourWindows_agree :
    ∃ has floating listed,
      hasFloatWindowByToken fourWindows ⟨1, some 9⟩ = .ok has ∧
        getFloatWindowViewByToken fourWindows ⟨1, some 9⟩ = .ok floating ∧
        listWindowViewByToken fourWindows ⟨1, some 9⟩ = .ok listed ∧
        Agree fourWindows 1 has floating listed :=
  queries_agree fourWindows ⟨1, some 9⟩
    ⟨by decide, by decide, by decide⟩

example : listWindowViewByToken fourWindows ⟨1, some 9⟩ = .ok [1, 3, 2] := by
  decide

end DripStone.FloatingWindow
