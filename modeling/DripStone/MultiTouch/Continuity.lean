import DripStone.MultiTouch.OnTouchEvent

/-!
# Dragging with several fingers

Fingers come and go while the drawing is dragged.  Its offset is what the
fingers that it followed have moved, one after the other.
-/

namespace DripStone.MultiTouch

open DripStone.Library

variable {Coordinate : Type} [AddCommGroup Coordinate]

/-! ## Streams -/

/-- The pointers that are pressed behind an event, the last one first, if the
event may come where some are pressed. -/
def accept (pressed : List Nat) (event : MotionEvent Coordinate) :
    Option (List Nat) :=
  let ids := event.pointers.map Pointer.id
  match event.actionMasked with
  | .down => if pressed = [] ∧ ids = [0] then some [0] else none
  | .move => if pressed ≠ [] ∧ ids.Perm pressed then some pressed else none
  | .pointerDown =>
      ids[event.actionIndex]?.bind fun id =>
        if pressed ≠ [] ∧ id ∉ pressed ∧ ids.Perm (id :: pressed) then
          some (id :: pressed)
        else none
  | .pointerUp =>
      ids[event.actionIndex]?.bind fun id =>
        if 2 ≤ pressed.length ∧ ids.Perm pressed then some (pressed.erase id)
        else none
  | .up => if pressed.length = 1 ∧ ids.Perm pressed then some [] else none
  | .cancel => if pressed ≠ [] ∧ ids.Perm pressed then some [] else none

/-- How far a pointer has moved while it was followed: from where it was when
it was taken up to where the last `ACTION_MOVE` has shown it. -/
structure Drag (Coordinate : Type) where
  first : Point Coordinate
  last : Point Coordinate

def Drag.displacement (drag : Drag Coordinate) : Point Coordinate :=
  drag.last - drag.first

def travelled (drags : List (Drag Coordinate)) : Point Coordinate :=
  (drags.map Drag.displacement).sum

def MotionEvent.pointOf (event : MotionEvent Coordinate) (id : Nat) :
    Option (Point Coordinate) :=
  (event.pointers.find? fun pointer => pointer.id = id).map Pointer.point

/-- The drags behind an event, the last one first: a drag begins with a stream
or with another pointer to follow, and goes on where that pointer moves.  The
displacement is measured between the samples of `ACTION_MOVE`; a movement that
only an `ACTION_POINTER_DOWN` or `ACTION_POINTER_UP` shows is not in it. -/
def dragsAfter (drags : List (Drag Coordinate))
    (event : MotionEvent Coordinate) (before after : Nat) :
    List (Drag Coordinate) :=
  match event.pointOf after with
  | none => drags
  | some point =>
      match event.actionMasked, drags with
      | .down, _ => ⟨point, point⟩ :: drags
      | .move, drag :: rest => { drag with last := point } :: rest
      | _, _ => if before = after then drags else ⟨point, point⟩ :: drags

/-- A view on the screen, with what was done to it. -/
structure Session (Coordinate : Type) where
  view : Except Failure (MultiTouchEvent Coordinate)
  pressed : List Nat
  -- the pointer that was pressed last
  latest : Nat
  drags : List (Drag Coordinate)

def isPress (event : MotionEvent Coordinate) : Bool :=
  event.actionMasked = .down || event.actionMasked = .pointerDown

def Session.touched (session : Session Coordinate)
    (event : MotionEvent Coordinate) (pressed : List Nat) :
    Session Coordinate :=
  let latest :=
    if isPress event then pressed.headD session.latest else session.latest
  match session.view with
  | .error failure => ⟨.error failure, pressed, latest, session.drags⟩
  | .ok view =>
      match view.onTouchEvent event with
      | .error failure => ⟨.error failure, pressed, latest, session.drags⟩
      | .ok next =>
          ⟨.ok next, pressed, latest,
            dragsAfter session.drags event view.currentPointId
              next.currentPointId⟩

/-- Streams of events, one after the other. -/
def streams : Guarded (Session Coordinate) (MotionEvent Coordinate) where
  start := ⟨.ok .new, [], 0, []⟩
  step session event :=
    (accept session.pressed event).map (session.touched event)

/-! ## The law -/

/-- The view has not failed, it follows the right pointer, and the drawing is
where the drags have brought it. -/
structure Follows (session : Session Coordinate)
    (view : MultiTouchEvent Coordinate) : Prop where
  isView : session.view = .ok view
  isPressed : session.pressed ≠ [] → view.currentPointId ∈ session.pressed
  isLatest : session.latest ∈ session.pressed →
    view.currentPointId = session.latest
  offset_eq : view.offset = travelled session.drags

/-- The drawing moves with `ACTION_MOVE` only. -/
def Still (session : Session Coordinate) (view : MultiTouchEvent Coordinate) :
    Prop :=
  ∀ event next moved, event.actionMasked ≠ .move →
    streams.step session event = some next → next.view = .ok moved →
      moved.offset = view.offset

/-! ## Pointers of an event -/

section Pointers

variable {event : MotionEvent Coordinate} {pointer : Pointer Coordinate}

omit [AddCommGroup Coordinate] in
theorem getPointer_eq {index : Nat}
    (isPointer : event.pointers[index]? = some pointer) :
    event.getPointer index = .ok pointer := by
  rw [MotionEvent.getPointer, if_neg (Int.natCast_nonneg index).not_gt,
    Int.toNat_natCast, isPointer]

omit [AddCommGroup Coordinate] in
theorem pointOf_eq (distinct : (event.pointers.map Pointer.id).Nodup)
    (isPointer : pointer ∈ event.pointers) :
    event.pointOf pointer.id = some pointer.point := by
  rw [MotionEvent.pointOf]
  cases found : event.pointers.find? fun other => other.id = pointer.id with
  | none =>
      have absent := List.find?_eq_none.mp found pointer isPointer
      simp at absent
  | some other =>
      have sameId : other.id = pointer.id := by
        simpa using List.find?_some found
      rw [Option.map_some, List.inj_on_of_nodup_map distinct
        (List.mem_of_find?_eq_some found) isPointer sameId]

omit [AddCommGroup Coordinate] in
theorem exists_findPointerIndex {id : Nat}
    (isId : id ∈ event.pointers.map Pointer.id) :
    ∃ (index : Nat) (pointer : Pointer Coordinate),
      event.findPointerIndex id = index ∧
        event.pointers[index]? = some pointer ∧ pointer.id = id := by
  obtain ⟨pointer, isPointer, rfl⟩ := List.mem_map.mp isId
  rw [MotionEvent.findPointerIndex]
  cases found : event.pointers.findIdx? fun other =>
      other.id = pointer.id with
  | none =>
      have absent := List.findIdx?_eq_none_iff.mp found pointer isPointer
      simp at absent
  | some index =>
      obtain ⟨within, sameId, _⟩ :=
        List.findIdx?_eq_some_iff_getElem.mp found
      exact ⟨index, event.pointers[index], rfl,
        List.getElem?_eq_getElem within, of_decide_eq_true sameId⟩

omit [AddCommGroup Coordinate] in
theorem exists_pointer {index id : Nat}
    (isId : (event.pointers.map Pointer.id)[index]? = some id) :
    ∃ pointer, event.pointers[index]? = some pointer ∧ pointer.id = id := by
  rw [List.getElem?_map] at isId
  exact Option.map_eq_some_iff.mp isId

end Pointers

/-! ## One event -/

/-- Together with the law: where the pointer that is followed began. -/
structure Invariant (session : Session Coordinate)
    (view : MultiTouchEvent Coordinate) : Prop where
  follows : Follows session view
  distinct : session.pressed.Nodup
  begun : session.pressed ≠ [] → ∃ drag rest,
    session.drags = drag :: rest ∧ view.down = drag.first ∧
      view.lastOffset = travelled rest

section Step

variable {session : Session Coordinate}
  {view next : MultiTouchEvent Coordinate} {event : MotionEvent Coordinate}
  {pointer : Pointer Coordinate} {pressed : List Nat}

theorem touched_eq (isView : session.view = .ok view)
    (handled : view.onTouchEvent event = .ok next) :
    session.touched event pressed =
      ⟨.ok next, pressed,
        if isPress event then pressed.headD session.latest
          else session.latest,
        dragsAfter session.drags event view.currentPointId
          next.currentPointId⟩ := by
  rw [Session.touched, isView]
  simp only [handled]

omit [AddCommGroup Coordinate] in
theorem currentPointId_follow :
    (view.follow pointer).currentPointId = pointer.id := rfl

omit [AddCommGroup Coordinate] in
theorem dragsAfter_of_ne {drags : List (Drag Coordinate)}
    {point : Point Coordinate} {before after : Nat}
    (isPoint : event.pointOf after = some point)
    (notMove : event.actionMasked ≠ .move) (another : before ≠ after) :
    dragsAfter drags event before after = ⟨point, point⟩ :: drags := by
  rw [dragsAfter, isPoint]
  cases isAction : event.actionMasked with
  | down => rfl
  | move => exact absurd isAction notMove
  | _ => exact if_neg another

omit [AddCommGroup Coordinate] in
theorem dragsAfter_self {drags : List (Drag Coordinate)} {followed : Nat}
    (notDown : event.actionMasked ≠ .down)
    (notMove : event.actionMasked ≠ .move) :
    dragsAfter drags event followed followed = drags := by
  rw [dragsAfter]
  cases event.pointOf followed with
  | none => rfl
  | some point =>
      cases isAction : event.actionMasked with
      | down => exact absurd isAction notDown
      | move => exact absurd isAction notMove
      | _ => exact if_pos rfl

theorem travelled_cons_self (point : Point Coordinate)
    (drags : List (Drag Coordinate)) :
    travelled (⟨point, point⟩ :: drags) = travelled drags := by
  rw [travelled, List.map_cons, List.sum_cons, Drag.displacement, sub_self,
    zero_add, travelled]

/-- A pointer that is followed anew leaves the drawing where it is. -/
theorem Invariant.follow {latest : Nat} (holds : Invariant session view)
    (distinct : pressed.Nodup) (isPressed : pointer.id ∈ pressed)
    (isLatest : latest ∈ pressed → pointer.id = latest) :
    Invariant ⟨.ok (view.follow pointer), pressed, latest,
      ⟨pointer.point, pointer.point⟩ :: session.drags⟩
      (view.follow pointer) := by
  refine ⟨⟨rfl, fun _ => isPressed, isLatest, ?_⟩, distinct, fun _ =>
    ⟨_, _, rfl, rfl, holds.follows.offset_eq⟩⟩
  rw [travelled_cons_self]
  exact holds.follows.offset_eq

/-- What an event has to leave behind it. -/
def Handled (session : Session Coordinate)
    (view : MultiTouchEvent Coordinate) (event : MotionEvent Coordinate)
    (pressed : List Nat) : Prop :=
  ∃ next, Invariant (session.touched event pressed) next ∧
    (event.actionMasked ≠ .move → next.offset = view.offset)

theorem handled_down (holds : Invariant session view)
    (isDown : event.actionMasked = .down)
    (ids : event.pointers.map Pointer.id = [0]) :
    Handled session view event [0] := by
  obtain ⟨pointer, isOnly, isZero⟩ := List.map_eq_singleton_iff.mp ids
  have isFirst : event.pointers[0]? = some pointer := by rw [isOnly]; rfl
  have followed : view.onTouchEvent event = .ok (view.follow pointer) := by
    rw [MultiTouchEvent.onTouchEvent, isDown]
    have isRead : event.getPointer 0 = .ok pointer := getPointer_eq isFirst
    simp only [isRead, bind, Except.bind, pure, Except.pure]
    rw [MultiTouchEvent.follow, isZero]
  have isPoint : event.pointOf pointer.id = some pointer.point :=
    pointOf_eq (by rw [ids]; exact List.nodup_singleton 0)
      (List.mem_of_getElem? isFirst)
  refine ⟨view.follow pointer, ?_, fun _ => rfl⟩
  rw [touched_eq holds.follows.isView followed, dragsAfter]
  simp only [MultiTouchEvent.follow, isPoint, isDown]
  refine holds.follow (List.nodup_singleton 0) ?_ ?_
  · rw [isZero]
    exact List.mem_singleton_self 0
  · rw [if_pos (by simp [isPress, isDown]), isZero]
    exact fun _ => rfl

theorem handled_move (holds : Invariant session view)
    (isMove : event.actionMasked = .move) (pressing : session.pressed ≠ [])
    (ids : (event.pointers.map Pointer.id).Perm session.pressed) :
    Handled session view event session.pressed := by
  have isFollowed := holds.follows.isPressed pressing
  obtain ⟨index, pointer, isIndex, isPointer, sameId⟩ :=
    exists_findPointerIndex (ids.mem_iff.mpr isFollowed)
  have isPoint : event.pointOf view.currentPointId = some pointer.point := by
    rw [← sameId]
    exact pointOf_eq (ids.nodup_iff.mpr holds.distinct)
      (List.mem_of_getElem? isPointer)
  obtain ⟨drag, rest, isDrags, isDown, isLast⟩ := holds.begun pressing
  have moved : view.onTouchEvent event = .ok { view with
      offset := view.lastOffset + pointer.point - view.down } := by
    rw [MultiTouchEvent.onTouchEvent, isMove]
    simp only [isIndex, getPointer_eq isPointer, bind, Except.bind, pure,
      Except.pure]
  refine ⟨{ view with
    offset := view.lastOffset + pointer.point - view.down }, ?_,
    fun notMove => absurd isMove notMove⟩
  rw [touched_eq holds.follows.isView moved, dragsAfter]
  simp only [isPoint, isMove, isDrags]
  rw [if_neg (by simp [isPress, isMove])]
  refine ⟨⟨rfl, fun _ => isFollowed, holds.follows.isLatest, ?_⟩,
    holds.distinct, fun _ => ⟨_, _, rfl, isDown, isLast⟩⟩
  show view.lastOffset + pointer.point - view.down = _
  rw [travelled, List.map_cons, List.sum_cons, ← travelled, isLast, isDown,
    Drag.displacement]
  abel

theorem handled_pointerDown {id : Nat} (holds : Invariant session view)
    (isDown : event.actionMasked = .pointerDown)
    (isId : (event.pointers.map Pointer.id)[event.actionIndex]? = some id)
    (pressing : session.pressed ≠ []) (isNew : id ∉ session.pressed)
    (ids : (event.pointers.map Pointer.id).Perm (id :: session.pressed)) :
    Handled session view event (id :: session.pressed) := by
  obtain ⟨pointer, isPointer, rfl⟩ := exists_pointer isId
  have distinct := List.nodup_cons.mpr ⟨isNew, holds.distinct⟩
  have isPoint : event.pointOf pointer.id = some pointer.point :=
    pointOf_eq (ids.nodup_iff.mpr distinct) (List.mem_of_getElem? isPointer)
  have followed : view.onTouchEvent event = .ok (view.follow pointer) := by
    rw [MultiTouchEvent.onTouchEvent, isDown]
    simp only [getPointer_eq isPointer, bind, Except.bind, pure, Except.pure]
  have another : view.currentPointId ≠ pointer.id := fun same =>
    isNew (same ▸ holds.follows.isPressed pressing)
  refine ⟨view.follow pointer, ?_, fun _ => rfl⟩
  rw [touched_eq holds.follows.isView followed, currentPointId_follow,
    dragsAfter_of_ne isPoint (by simp [isDown]) another]
  refine holds.follow distinct List.mem_cons_self ?_
  rw [if_pos (by simp [isPress, isDown])]
  exact fun _ => rfl

omit [AddCommGroup Coordinate] in
/-- The index that takes over is that of another pointer. -/
theorem exists_other {index : Nat} (several : 2 ≤ event.pointers.length)
    (within : index < event.pointers.length) :
    ∃ other : Nat, other ≠ index ∧ other < event.pointers.length ∧
      (if (index : Int) = event.pointerCount - 1 then event.pointerCount - 2
        else (index : Int) + 1) = other := by
  rw [MotionEvent.pointerCount]
  by_cases isLast : index = event.pointers.length - 1
  · refine ⟨event.pointers.length - 2, by omega, by omega, ?_⟩
    rw [if_pos (by omega)]
    omega
  · exact ⟨index + 1, by omega, by omega, by rw [if_neg (by omega)]; rfl⟩

theorem handled_same (holds : Invariant session view)
    (kept : view.onTouchEvent event = .ok view)
    (notMove : event.actionMasked ≠ .move) (notPress : isPress event = false)
    (isSublist : pressed.Sublist session.pressed)
    (stays : pressed ≠ [] → view.currentPointId ∈ pressed) :
    Handled session view event pressed := by
  have notDown : event.actionMasked ≠ .down := fun isDown => by
    simp [isPress, isDown] at notPress
  refine ⟨view, ?_, fun _ => rfl⟩
  rw [touched_eq holds.follows.isView kept, dragsAfter_self notDown notMove,
    notPress]
  refine ⟨⟨rfl, stays, fun isPressed => ?_, holds.follows.offset_eq⟩,
    holds.distinct.sublist isSublist, fun pressing => ?_⟩
  · exact holds.follows.isLatest (isSublist.subset isPressed)
  · refine holds.begun fun none => pressing ?_
    rw [none] at isSublist
    exact List.sublist_nil.mp isSublist

theorem handled_pointerUp {id : Nat} (holds : Invariant session view)
    (isUp : event.actionMasked = .pointerUp)
    (isId : (event.pointers.map Pointer.id)[event.actionIndex]? = some id)
    (several : 2 ≤ session.pressed.length)
    (ids : (event.pointers.map Pointer.id).Perm session.pressed) :
    Handled session view event (session.pressed.erase id) := by
  obtain ⟨pointer, isPointer, rfl⟩ := exists_pointer isId
  have pressing : session.pressed ≠ [] := fun none => by simp [none] at several
  have isFollowed := holds.follows.isPressed pressing
  have isErased : (session.pressed.erase pointer.id).Sublist
      session.pressed := List.erase_sublist
  by_cases leaves : pointer.id = view.currentPointId
  · have sameLength : event.pointers.length = session.pressed.length := by
      rw [← ids.length_eq, List.length_map]
    obtain ⟨position, another, within, isPosition⟩ := exists_other
      (sameLength ▸ several) (List.getElem?_eq_some_iff.mp isPointer).1
    have isOther := List.getElem?_eq_getElem within
    have distinctIds := ids.nodup_iff.mpr holds.distinct
    have otherId : event.pointers[position].id ≠ pointer.id := by
      intro sameId
      have inIds : position < (event.pointers.map Pointer.id).length := by
        rw [List.length_map]
        exact within
      refine another ((List.getElem?_inj inIds distinctIds).mp ?_)
      rw [isId, List.getElem?_map, isOther, Option.map_some, sameId]
    have isPressed : event.pointers[position].id ∈
        session.pressed.erase pointer.id := by
      rw [holds.distinct.mem_erase_iff]
      exact ⟨otherId, ids.mem_iff.mp
        (List.mem_map_of_mem (List.getElem_mem within))⟩
    have followed : view.onTouchEvent event =
        .ok (view.follow event.pointers[position]) := by
      rw [MultiTouchEvent.onTouchEvent, isUp]
      simp only [getPointer_eq isPointer, bind, Except.bind, pure,
        Except.pure]
      rw [if_pos leaves]
      simp only [isPosition, getPointer_eq isOther]
    refine ⟨view.follow event.pointers[position], ?_, fun _ => rfl⟩
    rw [touched_eq holds.follows.isView followed, currentPointId_follow,
      dragsAfter_of_ne (pointOf_eq distinctIds (List.getElem_mem within))
        (by simp [isUp]) (fun same => otherId (same.symm.trans leaves.symm))]
    refine holds.follow (holds.distinct.sublist isErased) isPressed ?_
    rw [if_neg (by simp [isPress, isUp])]
    intro isLatest
    have wasLatest := holds.follows.isLatest (isErased.subset isLatest)
    rw [← wasLatest, ← leaves, holds.distinct.mem_erase_iff] at isLatest
    exact absurd rfl isLatest.1
  · have kept : view.onTouchEvent event = .ok view := by
      rw [MultiTouchEvent.onTouchEvent, isUp]
      simp only [getPointer_eq isPointer, bind, Except.bind, pure,
        Except.pure]
      rw [if_neg leaves]
    refine handled_same holds kept (by simp [isUp])
      (by simp [isPress, isUp]) isErased fun _ => ?_
    rw [holds.distinct.mem_erase_iff]
    exact ⟨fun same => leaves same.symm, isFollowed⟩

/-- Step lemma: every event that may come is handled. -/
theorem handled_of_accept (holds : Invariant session view)
    (accepted : accept session.pressed event = some pressed) :
    Handled session view event pressed := by
  rw [accept] at accepted
  cases isAction : event.actionMasked with
  | down =>
      simp only [isAction, Option.ite_none_right_eq_some,
        Option.some_inj] at accepted
      obtain ⟨⟨_, ids⟩, rfl⟩ := accepted
      exact handled_down holds isAction ids
  | move =>
      simp only [isAction, Option.ite_none_right_eq_some,
        Option.some_inj] at accepted
      obtain ⟨⟨pressing, ids⟩, rfl⟩ := accepted
      exact handled_move holds isAction pressing ids
  | pointerDown =>
      simp only [isAction, Option.bind_eq_some_iff,
        Option.ite_none_right_eq_some, Option.some_inj] at accepted
      obtain ⟨id, isId, ⟨pressing, isNew, ids⟩, rfl⟩ := accepted
      exact handled_pointerDown holds isAction isId pressing isNew ids
  | pointerUp =>
      simp only [isAction, Option.bind_eq_some_iff,
        Option.ite_none_right_eq_some, Option.some_inj] at accepted
      obtain ⟨id, isId, ⟨several, ids⟩, rfl⟩ := accepted
      exact handled_pointerUp holds isAction isId several ids
  | up =>
      simp only [isAction, Option.ite_none_right_eq_some,
        Option.some_inj] at accepted
      obtain ⟨_, rfl⟩ := accepted
      have kept : view.onTouchEvent event = .ok view := by
        rw [MultiTouchEvent.onTouchEvent, isAction]
        rfl
      exact handled_same holds kept (by simp [isAction])
        (by simp [isPress, isAction]) (List.nil_sublist _)
        (fun pressing => absurd rfl pressing)
  | cancel =>
      simp only [isAction, Option.ite_none_right_eq_some,
        Option.some_inj] at accepted
      obtain ⟨_, rfl⟩ := accepted
      have kept : view.onTouchEvent event = .ok view := by
        rw [MultiTouchEvent.onTouchEvent, isAction]
        rfl
      exact handled_same holds kept (by simp [isAction])
        (by simp [isPress, isAction]) (List.nil_sublist _)
        (fun pressing => absurd rfl pressing)

end Step

/-! ## Any number of events -/

/-- Run lemma: behind every stream the view has not failed. -/
theorem exists_invariant {history : List (MotionEvent Coordinate)}
    {session : Session Coordinate}
    (isHistory : streams.after history = some session) :
    ∃ view, Invariant session view := by
  refine Guarded.after_induction (fun _ session =>
    ∃ view, Invariant session view) ?_ ?_ isHistory
  · refine ⟨.new, ⟨rfl, fun pressing => absurd rfl pressing, ?_, rfl⟩,
      List.nodup_nil, fun pressing => absurd rfl pressing⟩
    exact fun isPressed => absurd isPressed List.not_mem_nil
  · rintro _ state event next ⟨view, holds⟩ stepped
    obtain ⟨pressed, accepted, rfl⟩ := Option.map_eq_some_iff.mp stepped
    obtain ⟨moved, holdsNext, _⟩ := handled_of_accept holds accepted
    exact ⟨moved, holdsNext⟩

/-- Whatever the fingers do, the view follows one that is pressed, the last
one while it stays, and the drawing moves with `ACTION_MOVE` only, to where
the drags bring it. -/
theorem follows_of_streams (history : List (MotionEvent Coordinate))
    (session : Session Coordinate)
    (isHistory : streams.after history = some session) :
    ∃ view, Follows session view ∧ Still session view := by
  obtain ⟨view, holds⟩ := exists_invariant isHistory
  refine ⟨view, holds.follows, fun event next moved notMove stepped isNext =>
    ?_⟩
  obtain ⟨pressed, accepted, rfl⟩ := Option.map_eq_some_iff.mp stepped
  obtain ⟨handled, holdsNext, still⟩ := handled_of_accept holds accepted
  have same := holdsNext.follows.isView.symm.trans isNext
  rw [← Except.ok.inj same]
  exact still notMove

/-! ## Two fingers -/

/-- The second finger takes the drawing over, and leaves it to the first.  In
the events of both the finger that is followed has moved a little. -/
def twoFingers : List (MotionEvent Int) :=
  [⟨.down, 0, [⟨0, (10, 10)⟩]⟩,
    ⟨.move, 0, [⟨0, (15, 12)⟩]⟩,
    ⟨.pointerDown, 1, [⟨0, (16, 13)⟩, ⟨1, (40, 40)⟩]⟩,
    ⟨.move, 0, [⟨0, (16, 13)⟩, ⟨1, (45, 40)⟩]⟩,
    ⟨.pointerUp, 1, [⟨0, (17, 14)⟩, ⟨1, (47, 41)⟩]⟩,
    ⟨.move, 0, [⟨0, (18, 12)⟩]⟩,
    ⟨.up, 0, [⟨0, (18, 12)⟩]⟩]

theorem twoFingers_follows :
    ∃ session, streams.after twoFingers = some session ∧
      ∃ view, Follows session view ∧ Still session view := by
  have isStream : (streams.after twoFingers).isSome = true := by decide
  obtain ⟨session, isHistory⟩ := Option.isSome_iff_exists.mp isStream
  exact ⟨session, isHistory, follows_of_streams twoFingers session isHistory⟩

example : ((streams.after twoFingers).map fun session =>
    travelled session.drags) = some (11, 0) := by
  decide

end DripStone.MultiTouch
