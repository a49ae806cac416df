import DripStone.ItemClicks.UniversalAdapter

/-!
# Clicks on what is shown

The position that a listener keeps is right as long as the holder of the item
stays where it was bound.
-/

namespace DripStone.ItemClicks

open DripStone.Library

variable {Item : Type}

/-! ## Histories -/

inductive Event (Item : Type) where
  | bind (holder position : Nat)
  | recycle (holder : Nat)
  -- with the holders that are visible behind the call, and their positions
  | setDatas (list : Option (List Item)) (bindings : List (Nat × Nat))
  | addDatas (list : Option (List Item)) (bindings : List (Nat × Nat))
  | remove (i : Int) (bindings : List (Nat × Nat))
  -- by position, without binding again
  | moved (fromPosition toPosition : Nat)
  | removed (position : Nat)

/-- The histories of an adapter, from its constructor on. -/
def histories (datas : Option (List Item)) :
    Guarded (UniversalAdapter Item) (Event Item) where
  start := ⟨datas, fun _ => none⟩
  step adapter event :=
    match event with
    | .bind holder position => adapter.onBindViewHolder holder position
    | .recycle holder => some (adapter.recycled holder)
    | .setDatas list bindings => some (adapter.setDatas list bindings)
    | .addDatas list bindings => some (adapter.addDatas list bindings)
    | .remove i bindings => some (adapter.remove i bindings)
    | .moved fromPosition toPosition =>
        adapter.moved fromPosition toPosition
    | .removed position => adapter.removed position

/-! ## The law -/

/-- Both clicks on each bound holder give what it shows, and where this is. -/
def ClicksHit (adapter : UniversalAdapter Item) : Prop :=
  ∀ index holder, adapter.holders index = some holder →
    adapter.onClick holder = .ok (holder.shown, holder.adapterPosition) ∧
      adapter.onLongClick holder = .ok (holder.shown, holder.adapterPosition)

/-- What is moved or removed by position shifts no bound holder. -/
def Undisturbed (adapter : UniversalAdapter Item) : Event Item → Prop
  | .moved fromPosition toPosition =>
      fromPosition < adapter.getItemCount →
        toPosition < adapter.getItemCount →
          ∀ index holder, adapter.holders index = some holder →
            movedIndex fromPosition toPosition holder.adapterPosition =
              holder.adapterPosition
  | .removed position =>
      position < adapter.getItemCount →
        ∀ index holder, adapter.holders index = some holder →
          holder.adapterPosition ≤ position
  | _ => True

/-! ## What each event keeps -/

/-- The holders show what is at their positions. -/
def Shows (adapter : UniversalAdapter Item) : Prop :=
  ∀ index holder, adapter.holders index = some holder →
    ∃ datas, adapter.mDatas = some datas ∧
      datas[holder.adapterPosition]? = some holder.shown

/-- Each holder is where it was bound. -/
def Settled (adapter : UniversalAdapter Item) : Prop :=
  ∀ index holder, adapter.holders index = some holder →
    holder.position = holder.adapterPosition

section Events

variable {adapter next : UniversalAdapter Item}

/-- Spec lemma: the clicks hit what is shown exactly when the holders are
settled. -/
theorem clicksHit_iff_settled (shows_ : Shows adapter) :
    ClicksHit adapter ↔ Settled adapter := by
  refine forall_congr' fun index => forall_congr' fun holder => ?_
  refine forall_congr' fun isBound => ?_
  obtain ⟨datas, isDatas, isShown⟩ := shows_ index holder isBound
  have found : adapter.getData holder.adapterPosition = .ok holder.shown := by
    rw [UniversalAdapter.getData, isDatas]
    simp only [isShown]
  constructor
  · rintro ⟨clicked, _⟩
    rw [UniversalAdapter.onClick] at clicked
    cases atPosition : adapter.getData holder.position with
    | error failure =>
        rw [atPosition] at clicked
        cases clicked
    | ok item =>
        rw [atPosition] at clicked
        exact congrArg Prod.snd (Except.ok.inj clicked)
  · intro settled
    rw [UniversalAdapter.onClick, UniversalAdapter.onLongClick, settled,
      found]
    exact ⟨rfl, rfl⟩

theorem shows_rebound (bindings : List (Nat × Nat)) :
    Shows (adapter.rebound bindings) := by
  intro index holder isBound
  obtain ⟨position, _, rest⟩ := Option.bind_eq_some_iff.mp isBound
  obtain ⟨datas, isDatas, rest⟩ := Option.bind_eq_some_iff.mp rest
  obtain ⟨item, isItem, isHolder⟩ := Option.bind_eq_some_iff.mp rest
  refine ⟨datas, isDatas, ?_⟩
  rw [← Option.some_inj.mp isHolder]
  exact isItem

theorem settled_rebound (bindings : List (Nat × Nat)) :
    Settled (adapter.rebound bindings) := by
  intro index holder isBound
  obtain ⟨position, _, rest⟩ := Option.bind_eq_some_iff.mp isBound
  obtain ⟨datas, isDatas, rest⟩ := Option.bind_eq_some_iff.mp rest
  obtain ⟨item, isItem, isHolder⟩ := Option.bind_eq_some_iff.mp rest
  rw [← Option.some_inj.mp isHolder]

/-- A holder behind a binding is the new one, or was bound before. -/
theorem bound_cases {holder position index : Nat} {other : Holder Item}
    (bound : adapter.onBindViewHolder holder position = some next)
    (isBound : next.holders index = some other) :
    next.mDatas = adapter.mDatas ∧
      ((∃ datas item, adapter.mDatas = some datas ∧
        datas[position]? = some item ∧ other = ⟨position, item, position⟩) ∨
        adapter.holders index = some other) := by
  obtain ⟨datas, isDatas, rest⟩ := Option.bind_eq_some_iff.mp bound
  obtain ⟨item, isItem, isNext⟩ := Option.bind_eq_some_iff.mp rest
  have holders : next.holders = Function.update adapter.holders holder
      (some ⟨position, item, position⟩) := by
    rw [← Option.some_inj.mp isNext]
  rw [holders] at isBound
  refine ⟨by rw [← Option.some_inj.mp isNext], ?_⟩
  rcases eq_or_ne index holder with rfl | another
  · rw [Function.update_self] at isBound
    exact Or.inl ⟨datas, item, isDatas, isItem,
      (Option.some_inj.mp isBound).symm⟩
  · rw [Function.update_of_ne another] at isBound
    exact Or.inr isBound

theorem shows_bind {holder position : Nat} (showing : Shows adapter)
    (bound : adapter.onBindViewHolder holder position = some next) :
    Shows next := by
  intro index other isBound
  obtain ⟨sameDatas, cases_⟩ := bound_cases bound isBound
  rw [sameDatas]
  rcases cases_ with ⟨datas, item, isDatas, isItem, rfl⟩ | wasBound
  · exact ⟨datas, isDatas, isItem⟩
  · exact showing index other wasBound

theorem settled_bind {holder position : Nat} (settled : Settled adapter)
    (bound : adapter.onBindViewHolder holder position = some next) :
    Settled next := by
  intro index other isBound
  rcases (bound_cases bound isBound).2 with ⟨_, _, _, _, rfl⟩ | wasBound
  · rfl
  · exact settled index other wasBound

theorem wasBound_of_recycled {holder index : Nat} {other : Holder Item}
    (isBound : (adapter.recycled holder).holders index = some other) :
    adapter.holders index = some other := by
  rw [UniversalAdapter.recycled] at isBound
  simp only [Function.update_apply] at isBound
  split at isBound
  · cases isBound
  · exact isBound

/-- A change of the data either binds all holders anew or changes nothing. -/
theorem remove_cases (adapter : UniversalAdapter Item) (i : Int)
    (bindings : List (Nat × Nat)) :
    (∃ changed : UniversalAdapter Item,
      adapter.remove i bindings = changed.rebound bindings) ∨
      adapter.remove i bindings = adapter := by
  rw [UniversalAdapter.remove]
  split
  · split
    · exact Or.inl ⟨_, rfl⟩
    · exact Or.inr rfl
  · exact Or.inr rfl

theorem addDatas_cases (adapter : UniversalAdapter Item)
    (list : Option (List Item)) (bindings : List (Nat × Nat)) :
    (∃ changed : UniversalAdapter Item,
      adapter.addDatas list bindings = changed.rebound bindings) ∨
      adapter.addDatas list bindings = adapter := by
  cases list with
  | none => exact Or.inr rfl
  | some temp => exact Or.inl ⟨_, rfl⟩

theorem exists_moved {fromPosition toPosition : Nat}
    (isMoved : adapter.moved fromPosition toPosition = some next) :
    ∃ datas, adapter.mDatas = some datas ∧ fromPosition < datas.length ∧
      toPosition < datas.length ∧
      next.mDatas = some (moveItem datas fromPosition toPosition) ∧
      ∀ index, next.holders index =
        (adapter.holders index).map fun bound =>
          { bound with
            adapterPosition :=
              movedIndex fromPosition toPosition bound.adapterPosition } := by
  obtain ⟨datas, isDatas, rest⟩ := Option.bind_eq_some_iff.mp isMoved
  obtain ⟨⟨isFrom, isTo⟩, isNext⟩ := Option.ite_none_right_eq_some.mp rest
  rw [← Option.some_inj.mp isNext]
  exact ⟨datas, isDatas, isFrom, isTo, rfl, fun _ => rfl⟩

theorem exists_removed {position : Nat}
    (isRemoved : adapter.removed position = some next) :
    ∃ datas, adapter.mDatas = some datas ∧ position < datas.length ∧
      next.mDatas = some (datas.eraseIdx position) ∧
      ∀ index, next.holders index =
        (adapter.holders index).bind fun bound =>
          (erasedIndex position bound.adapterPosition).map fun behind =>
            { bound with adapterPosition := behind } := by
  obtain ⟨datas, isDatas, rest⟩ := Option.bind_eq_some_iff.mp isRemoved
  obtain ⟨inside, isNext⟩ := Option.ite_none_right_eq_some.mp rest
  rw [← Option.some_inj.mp isNext]
  exact ⟨datas, isDatas, inside, rfl, fun _ => rfl⟩

theorem shows_moved {fromPosition toPosition : Nat} (showing : Shows adapter)
    (isMoved : adapter.moved fromPosition toPosition = some next) :
    Shows next := by
  obtain ⟨datas, isDatas, isFrom, isTo, isNext, holders⟩ :=
    exists_moved isMoved
  intro index holder isBound
  rw [holders] at isBound
  obtain ⟨before, wasBound, rfl⟩ := Option.map_eq_some_iff.mp isBound
  obtain ⟨_, same, isShown⟩ := showing index before wasBound
  rw [isDatas] at same
  cases same
  exact ⟨_, isNext, (getElem?_movedIndex isFrom isTo).trans isShown⟩

theorem shows_removed {position : Nat} (showing : Shows adapter)
    (isRemoved : adapter.removed position = some next) : Shows next := by
  obtain ⟨datas, isDatas, _, isNext, holders⟩ := exists_removed isRemoved
  intro index holder isBound
  rw [holders] at isBound
  obtain ⟨before, wasBound, rest⟩ := Option.bind_eq_some_iff.mp isBound
  obtain ⟨behind, isBehind, rfl⟩ := Option.map_eq_some_iff.mp rest
  obtain ⟨_, same, isShown⟩ := showing index before wasBound
  rw [isDatas] at same
  cases same
  exact ⟨_, isNext, (getElem?_erasedIndex isBehind).trans isShown⟩

/-- Step lemma: whatever happens, the holders show what is at their
positions. -/
theorem shows_step {datas : Option (List Item)} {event : Event Item}
    (showing : Shows adapter)
    (stepped : (histories datas).step adapter event = some next) :
    Shows next := by
  cases event with
  | bind holder position => exact shows_bind showing stepped
  | recycle holder =>
      rw [← Option.some_inj.mp stepped]
      exact fun index other isBound =>
        showing index other (wasBound_of_recycled isBound)
  | setDatas list bindings =>
      rw [← Option.some_inj.mp stepped]
      exact shows_rebound bindings
  | addDatas list bindings =>
      rw [← Option.some_inj.mp stepped]
      rcases addDatas_cases adapter list bindings with
        ⟨changed, isChanged⟩ | same
      · rw [isChanged]
        exact shows_rebound bindings
      · rw [same]
        exact showing
  | remove i bindings =>
      rw [← Option.some_inj.mp stepped]
      rcases remove_cases adapter i bindings with
        ⟨changed, isChanged⟩ | same
      · rw [isChanged]
        exact shows_rebound bindings
      · rw [same]
        exact showing
  | moved fromPosition toPosition => exact shows_moved showing stepped
  | removed position => exact shows_removed showing stepped

theorem getItemCount_eq {datas : List Item}
    (isDatas : adapter.mDatas = some datas) :
    adapter.getItemCount = datas.length := by
  rw [UniversalAdapter.getItemCount, isDatas]

theorem settled_moved_iff {fromPosition toPosition : Nat}
    (settled : Settled adapter)
    (isMoved : adapter.moved fromPosition toPosition = some next) :
    Settled next ↔ Undisturbed adapter (.moved fromPosition toPosition) := by
  obtain ⟨datas, isDatas, isFrom, isTo, _, holders⟩ := exists_moved isMoved
  rw [← getItemCount_eq isDatas] at isFrom isTo
  constructor
  · intro settledNext _ _ index holder isBound
    have stillBound : next.holders index = some { holder with
        adapterPosition :=
          movedIndex fromPosition toPosition holder.adapterPosition } := by
      rw [holders, isBound]
      rfl
    have moved := settledNext index _ stillBound
    exact moved.symm.trans (settled index holder isBound)
  · intro undisturbed index holder isBound
    rw [holders] at isBound
    obtain ⟨before, wasBound, rfl⟩ := Option.map_eq_some_iff.mp isBound
    exact (settled index before wasBound).trans
      (undisturbed isFrom isTo index before wasBound).symm

theorem settled_removed_iff {position : Nat} (settled : Settled adapter)
    (isRemoved : adapter.removed position = some next) :
    Settled next ↔ Undisturbed adapter (.removed position) := by
  obtain ⟨datas, isDatas, inside, _, holders⟩ := exists_removed isRemoved
  rw [← getItemCount_eq isDatas] at inside
  constructor
  · intro settledNext _ index holder isBound
    cases isBehind : erasedIndex position holder.adapterPosition with
    | none =>
        -- the holder of the item itself
        rw [erasedIndex] at isBehind
        split at isBehind
        · cases isBehind
        · split at isBehind
          · next same => exact same.le
          · cases isBehind
    | some behind =>
        have stillBound : next.holders index =
            some { holder with adapterPosition := behind } := by
          rw [holders, isBound, Option.bind_some, isBehind]
          rfl
        have moved := settledNext index _ stillBound
        rw [← erasedIndex_eq_self_iff isBehind]
        exact moved.symm.trans (settled index holder isBound)
  · intro undisturbed index holder isBound
    rw [holders] at isBound
    obtain ⟨before, wasBound, rest⟩ := Option.bind_eq_some_iff.mp isBound
    obtain ⟨behind, isBehind, rfl⟩ := Option.map_eq_some_iff.mp rest
    have same := (erasedIndex_eq_self_iff isBehind).mpr
      (undisturbed inside index before wasBound)
    exact (settled index before wasBound).trans same.symm

/-- Step lemma: the holders stay settled exactly when the event shifts
none. -/
theorem settled_step_iff {datas : Option (List Item)} {event : Event Item}
    (settled : Settled adapter)
    (stepped : (histories datas).step adapter event = some next) :
    Settled next ↔ Undisturbed adapter event := by
  cases event with
  | bind holder position =>
      exact iff_of_true (settled_bind settled stepped) trivial
  | recycle holder =>
      rw [← Option.some_inj.mp stepped]
      exact iff_of_true (fun index other isBound =>
        settled index other (wasBound_of_recycled isBound)) trivial
  | setDatas list bindings =>
      rw [← Option.some_inj.mp stepped]
      exact iff_of_true (settled_rebound bindings) trivial
  | addDatas list bindings =>
      rw [← Option.some_inj.mp stepped]
      refine iff_of_true ?_ trivial
      rcases addDatas_cases adapter list bindings with
        ⟨changed, isChanged⟩ | same
      · rw [isChanged]
        exact settled_rebound bindings
      · rw [same]
        exact settled
  | remove i bindings =>
      rw [← Option.some_inj.mp stepped]
      refine iff_of_true ?_ trivial
      rcases remove_cases adapter i bindings with
        ⟨changed, isChanged⟩ | same
      · rw [isChanged]
        exact settled_rebound bindings
      · rw [same]
        exact settled
  | moved fromPosition toPosition => exact settled_moved_iff settled stepped
  | removed position => exact settled_removed_iff settled stepped

/-- Where there is no such position nothing is shifted. -/
theorem undisturbed_of_none {datas : Option (List Item)}
    {event : Event Item}
    (impossible : (histories datas).step adapter event = none) :
    Undisturbed adapter event := by
  cases event with
  | moved fromPosition toPosition =>
      intro isFrom isTo
      cases isDatas : adapter.mDatas with
      | none => simp [UniversalAdapter.getItemCount, isDatas] at isFrom
      | some list =>
          rw [getItemCount_eq isDatas] at isFrom isTo
          simp [histories, UniversalAdapter.moved, isDatas, isFrom,
            isTo] at impossible
  | removed position =>
      intro inside
      cases isDatas : adapter.mDatas with
      | none => simp [UniversalAdapter.getItemCount, isDatas] at inside
      | some list =>
          rw [getItemCount_eq isDatas] at inside
          simp [histories, UniversalAdapter.removed, isDatas,
            inside] at impossible
  | _ => trivial

end Events

/-! ## Any history -/

/-- In a history the clicks hit what is shown exactly when no holder is
shifted by a position that was moved or removed. -/
theorem clicksHit_iff_undisturbed (datas : Option (List Item))
    (history : List (Event Item)) :
    (histories datas).Along ((histories datas).Leads ClicksHit) history ↔
      (histories datas).Along Undisturbed history := by
  refine Guarded.along_leads_iff (fun adapter =>
    Shows adapter ∧ Settled adapter) ⟨?_, ?_⟩ ?_ ?_ ?_
  · rintro _ _ ⟨⟩
  · rintro _ _ ⟨⟩
  · rintro adapter event next ⟨showing, settled⟩ undisturbed stepped
    exact ⟨shows_step showing stepped,
      (settled_step_iff settled stepped).mpr undisturbed⟩
  · rintro adapter event next ⟨showing, settled⟩ stepped
    exact (clicksHit_iff_settled (shows_step showing stepped)).trans
      (settled_step_iff settled stepped)
  · exact fun adapter event => undisturbed_of_none

/-- The second of two items is clicked when the first was removed. -/
theorem staleClick_misses :
    (∃ adapter holder,
      (histories (some ['a', 'b'])).after
        [.bind 0 0, .bind 1 1, .removed 0] = some adapter ∧
      adapter.holders 1 = some holder ∧
      adapter.onLongClick holder = .ok ('b', 0) ∧
      adapter.onClick holder = .error .indexOutOfBoundsException) ∧
    ¬(histories (some ['a', 'b'])).Along
      ((histories (some ['a', 'b'])).Leads ClicksHit)
      [.bind 0 0, .bind 1 1, .removed 0] := by
  refine ⟨⟨_, ⟨1, 'b', 0⟩, rfl, rfl, rfl, rfl⟩, fun along => ?_⟩
  have leads := along [.bind 0 0, .bind 1 1] (.removed 0) [] _ rfl rfl
  have clicked := (leads _ rfl 1 ⟨1, 'b', 0⟩ rfl).1
  cases clicked

end DripStone.ItemClicks
