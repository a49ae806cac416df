import Mathlib

/-!
# `RepoPagingSource`

The keys of the source are page numbers, and a page is as long as its load
asks for.  The first load asks for `initialLoadSize` items and the next key is
that of the second page, whatever size the later loads have.
-/

namespace DripStone.Paging3

/-- `PagingConfig` of the library; both sizes are positive. -/
structure PagingConfig where
  pageSize : Nat
  initialLoadSize : Nat := 3 * pageSize
  pageSize_pos : 0 < pageSize
  initialLoadSize_pos : 0 < initialLoadSize := by omega

/-- The configuration of `Repository.getPagingData`. -/
def getPagingData : PagingConfig :=
  { pageSize := 50, pageSize_pos := by decide }

structure LoadParams where
  key : Option Nat
  loadSize : Nat
deriving DecidableEq, Repr

/-- `LoadResult.Page` -/
structure Page (Repo : Type) where
  data : List Repo
  prevKey : Option Nat
  nextKey : Option Nat
deriving DecidableEq, Repr

variable {Repo : Type}

/-- The answer of a server with a fixed list. -/
def searchRepos (repos : List Repo) (page perPage : Nat) : List Repo :=
  (repos.drop ((page - 1) * perPage)).take perPage

/-- `RepoPagingSource.load` -/
def load (repos : List Repo) (params : LoadParams) : Page Repo :=
  let page := params.key.getD 1
  let pageSize := params.loadSize
  let repoItems := searchRepos repos page pageSize
  { data := repoItems
    prevKey := if page > 1 then some (page - 1) else none
    nextKey := if repoItems ≠ [] then some (page + 1) else none }

/-- Loads of `pageSize` items that follow `nextKey`, as long as there is
one. -/
def follow (repos : List Repo) (pageSize : Nat) :
    Nat → Option Nat → List (Page Repo)
  | 0, _ => []
  | _ + 1, none => []
  | count + 1, some key =>
      let page := load repos ⟨some key, pageSize⟩
      page :: follow repos pageSize count page.nextKey

/-- The pages of some number of loads. -/
def pages (repos : List Repo) (config : PagingConfig) :
    Nat → List (Page Repo)
  | 0 => []
  | count + 1 =>
      let first := load repos ⟨none, config.initialLoadSize⟩
      first :: follow repos config.pageSize count first.nextKey

/-- All items of some pages. -/
def items (pages : List (Page Repo)) : List Repo :=
  pages.flatMap Page.data

/-- The last page names no next one. -/
def Finished (pages : List (Page Repo)) : Prop :=
  ∃ last ∈ pages.getLast?, last.nextKey = none

/-- The pages are a part of the list from its start on without repetitions,
and all of it when there is no next page. -/
structure Enumerates (repos : List Repo) (pages : List (Page Repo)) :
    Prop where
  isPrefix : items pages <+: repos
  distinct : (items pages).Nodup
  whole : Finished pages → items pages = repos

/-! ## Pages of one size -/

theorem finished_cons_iff {page : Page Repo} {rest : List (Page Repo)} :
    Finished (page :: rest) ↔
      if rest = [] then page.nextKey = none else Finished rest := by
  cases rest with
  | nil => simp [Finished]
  | cons next more => simp [Finished]

theorem load_data (repos : List Repo) (page size : Nat) :
    (load repos ⟨some (page + 1), size⟩).data =
      (repos.drop (page * size)).take size := rfl

theorem load_nextKey_eq_none_iff {repos : List Repo} {page size : Nat}
    (positive : 0 < size) :
    (load repos ⟨some (page + 1), size⟩).nextKey = none ↔
      repos.length ≤ page * size := by
  simp only [load, searchRepos, Option.getD_some, Nat.add_sub_cancel]
  rw [ite_eq_right_iff]
  simp only [reduceCtorEq, imp_false, not_not]
  rw [List.take_eq_nil_iff, List.drop_eq_nil_iff]
  omega

theorem load_nextKey_of_more {repos : List Repo} {page size : Nat}
    (positive : 0 < size) (more : page * size < repos.length) :
    (load repos ⟨some (page + 1), size⟩).nextKey = some (page + 2) := by
  have named : (load repos ⟨some (page + 1), size⟩).nextKey ≠ none := by
    rw [Ne, load_nextKey_eq_none_iff positive]
    omega
  simp only [load] at named ⊢
  rw [Ne, ite_eq_right_iff] at named
  push Not at named
  rw [if_pos named.1]
  rfl

/-- Loads of one size read on where the page before ended. -/
theorem items_follow (repos : List Repo) {size : Nat} (positive : 0 < size)
    (count page : Nat) :
    items (follow repos size count (some (page + 1))) =
        (repos.drop (page * size)).take (count * size) ∧
      (Finished (follow repos size count (some (page + 1))) →
        items (follow repos size count (some (page + 1))) =
          repos.drop (page * size)) := by
  induction count generalizing page with
  | zero => simp [follow, items, Finished]
  | succ count inductionHypothesis =>
      rw [follow, finished_cons_iff, items, List.flatMap_cons, load_data]
      rcases Nat.lt_or_ge (page * size) repos.length with more | ended
      · rw [load_nextKey_of_more positive more]
        obtain ⟨further, whole⟩ := inductionHypothesis (page + 1)
        have behind : repos.drop ((page + 1) * size) =
            (repos.drop (page * size)).drop size := by
          rw [List.drop_drop, Nat.succ_mul]
        rw [behind] at further whole
        have split := List.take_append_drop size (repos.drop (page * size))
        constructor
        · rw [← items, further, Nat.succ_mul, Nat.add_comm, List.take_add]
        · intro finished
          split_ifs at finished
          rw [← items, whole finished, split]
      · have none_ := (load_nextKey_eq_none_iff positive).mpr ended
        have nothing : repos.drop (page * size) = [] :=
          List.drop_eq_nil_iff.mpr ended
        rw [none_, nothing]
        cases count <;> simp [follow]

/-! ## The first page -/

theorem load_first (repos : List Repo) (size : Nat) :
    load repos ⟨none, size⟩ = load repos ⟨some (0 + 1), size⟩ := rfl

theorem items_pages (repos : List Repo) (config : PagingConfig)
    {count : Nat} (some_ : repos ≠ []) :
    items (pages repos config (count + 1)) =
      repos.take config.initialLoadSize ++
        (repos.drop config.pageSize).take (count * config.pageSize) := by
  have more := List.length_pos_iff.mpr some_
  rw [pages, items, List.flatMap_cons, load_first, load_data,
    load_nextKey_of_more config.initialLoadSize_pos (by omega), ← items,
    (items_follow repos config.pageSize_pos count 1).1]
  simp

/-! ## The law -/

variable {repos : List Repo} {config : PagingConfig}

theorem Enumerates.of_items_eq {pages : List (Page Repo)}
    (distinct : repos.Nodup) (same : items pages = repos) :
    Enumerates repos pages :=
  ⟨same ▸ List.prefix_rfl, same ▸ distinct, fun _ => same⟩

theorem Enumerates.of_items_take {pages : List (Page Repo)} {count : Nat}
    (distinct : repos.Nodup) (same : items pages = repos.take count)
    (whole : Finished pages → items pages = repos) :
    Enumerates repos pages :=
  ⟨same ▸ List.take_prefix count repos,
    same ▸ distinct.sublist (List.take_sublist count repos), whole⟩

theorem pages_of_nil (config : PagingConfig) (count : Nat) :
    items (pages ([] : List Repo) config count) = [] := by
  cases count with
  | zero => rfl
  | succ count =>
      cases count <;> simp [pages, load, searchRepos, follow, items]

/-- One load, loads of one size, and lists that fit into a first load and a
later one are enumerated. -/
theorem enumerates_of_fits (distinct : repos.Nodup) {count : Nat}
    (fits : count ≤ 1 ∨ config.initialLoadSize = config.pageSize ∨
      repos.length ≤ min config.initialLoadSize config.pageSize) :
    Enumerates repos (pages repos config count) := by
  by_cases none_ : repos = []
  · subst none_
    exact .of_items_eq distinct (pages_of_nil config count)
  rcases fits with few | sameSize | short
  · interval_cases count
    · exact ⟨List.nil_prefix, List.nodup_nil, fun finished => by
        simp [pages, Finished] at finished⟩
    · apply Enumerates.of_items_take distinct
      · have first := @items_pages _ repos config 0 none_
        simpa using first
      · intro finished
        have ended : (load repos
            ⟨none, config.initialLoadSize⟩).nextKey = none := by
          simpa [pages, follow, Finished] using finished
        rw [load_first,
          load_nextKey_eq_none_iff config.initialLoadSize_pos] at ended
        have more := List.length_pos_iff.mpr none_
        omega
  · cases count with
    | zero =>
        exact ⟨List.nil_prefix, List.nodup_nil, fun finished => by
          simp [pages, Finished] at finished⟩
    | succ count =>
        have followed : pages repos config (count + 1) =
            follow repos config.pageSize (count + 1) (some (0 + 1)) := by
          rw [pages, sameSize]
          rfl
        obtain ⟨read, whole⟩ :=
          items_follow repos config.pageSize_pos (count + 1) 0
        rw [followed]
        exact .of_items_take distinct (by simpa using read)
          (by simpa using whole)
  · cases count with
    | zero =>
        exact ⟨List.nil_prefix, List.nodup_nil, fun finished => by
          simp [pages, Finished] at finished⟩
    | succ count =>
        have read := @items_pages _ repos config count none_
        rw [List.take_of_length_le (by omega),
          List.drop_eq_nil_iff.mpr (by omega), List.take_nil,
          List.append_nil] at read
        exact .of_items_eq distinct read

/-- Otherwise the second load repeats items, leaves some out or ends the list
too early. -/
theorem fits_of_enumerates (distinct : repos.Nodup) {count : Nat}
    (enumerates : Enumerates repos (pages repos config count)) :
    count ≤ 1 ∨ config.initialLoadSize = config.pageSize ∨
      repos.length ≤ min config.initialLoadSize config.pageSize := by
  by_contra unfit
  push Not at unfit
  obtain ⟨several, otherSize, long⟩ := unfit
  obtain ⟨later, rfl⟩ : ∃ later, count = later + 2 :=
    ⟨count - 2, by omega⟩
  have some_ : repos ≠ [] := by
    rintro rfl
    simp at long
  have read := @items_pages _ repos config (later + 1) some_
  obtain ⟨isPrefix, noRepetition, whole⟩ := enumerates
  have first := config.initialLoadSize_pos
  have size := config.pageSize_pos
  have asked : 0 < (later + 1) * config.pageSize :=
    Nat.mul_pos (Nat.succ_pos _) size
  rcases Nat.lt_or_ge config.pageSize config.initialLoadSize with
    larger | smaller
  · -- the second page starts inside the first
    have inside : config.pageSize < repos.length := by omega
    rw [read, List.nodup_append] at noRepetition
    have inFirst : repos[config.pageSize] ∈
        repos.take config.initialLoadSize :=
      List.mem_take_iff_getElem.mpr ⟨config.pageSize, by omega, rfl⟩
    have inSecond : repos[config.pageSize] ∈
        (repos.drop config.pageSize).take
          ((later + 1) * config.pageSize) := by
      rw [List.mem_take_iff_getElem]
      exact ⟨0, by rw [List.length_drop]; omega, by simp⟩
    exact noRepetition.2.2 _ inFirst _ inSecond rfl
  · rcases Nat.lt_or_ge config.pageSize repos.length with more | ended
    · -- the second page starts behind the end of the first
      have atStart : (items (pages repos config (later + 2)))[
          config.initialLoadSize]? = some repos[config.pageSize] := by
        rw [read, List.getElem?_append_right (by simp), List.length_take,
          Nat.min_eq_left (by omega), Nat.sub_self,
          List.getElem?_take_of_lt asked, List.getElem?_drop]
        simp [more]
      obtain ⟨behind, append⟩ := isPrefix
      have inList : repos[config.initialLoadSize]? =
          some repos[config.pageSize] := by
        rw [← atStart, ← List.getElem?_append_left
          (List.getElem?_eq_some_iff.mp atStart).1, append]
      obtain ⟨inside, sameItem⟩ := List.getElem?_eq_some_iff.mp inList
      exact otherSize ((List.Nodup.getElem_inj_iff distinct).mp sameItem)
    · -- the second page is empty, and the first was not everything
      have second := load_nextKey_of_more first
        (by omega : 0 * config.initialLoadSize < repos.length)
      have ends := (load_nextKey_eq_none_iff size).mpr
        (by omega : repos.length ≤ 1 * config.pageSize)
      have finished :
          Finished (pages repos config (later + 2)) := by
        rw [pages, load_first, second, follow, ends]
        cases later <;> simp [Finished, follow, ends]
      have lengths := congrArg List.length (whole finished)
      rw [read, List.drop_eq_nil_iff.mpr ended] at lengths
      simp at lengths
      omega

theorem nodup_zipIdx (repos : List Repo) : repos.zipIdx.Nodup := by
  apply List.Nodup.of_map Prod.snd
  rw [List.zipIdx_map_snd]
  exact List.nodup_range'

/-- The pages of a fixed list, each item with its place in the list, are
enumerated if and only if there is one load at most, all loads are of one size,
or the list fits into a page of either size. -/
theorem enumerates_iff_fits (repos : List Repo) (config : PagingConfig)
    (count : Nat) :
    Enumerates repos.zipIdx (pages repos.zipIdx config count) ↔
      count ≤ 1 ∨ config.initialLoadSize = config.pageSize ∨
        repos.length ≤ min config.initialLoadSize config.pageSize := by
  have distinct := nodup_zipIdx repos
  rw [← List.length_zipIdx (l := repos) (i := 0)]
  exact ⟨fits_of_enumerates distinct, enumerates_of_fits distinct⟩

/-- The second load of a list that is longer than one page. -/
theorem getPagingData_repeats :
    ¬ Enumerates (List.replicate 51 ()).zipIdx
      (pages (List.replicate 51 ()).zipIdx getPagingData 2) := by
  intro enumerates
  have fits := fits_of_enumerates (nodup_zipIdx _) enumerates
  rw [List.length_zipIdx, List.length_replicate] at fits
  exact absurd fits (by decide)

end DripStone.Paging3
