import DripStone.VCardParse.MapInfo

/-!
# An entry without a type

What a card reports when an entry without the parameter `TYPE` is added to one
of its lists.
-/

namespace DripStone.VCardParse

open DripStone.Library

/-! ## Lists of writes -/

section Performing

variable {write : Write} {writes : List Write} {failure : Failure}
  {state : Report}

theorem perform_of_failure (fails : write.failure? = some failure) :
    write.perform state = .error failure state := by
  cases write with
  | untyped kind =>
      rw [← Option.some.inj fails]
      rfl
  | ofField field value =>
      cases value with
      | none =>
          rw [← Option.some.inj fails]
          rfl
      | some value => cases fails

/-- A write that does not fail leaves some field with a value. -/
theorem perform_ok (succeeds : write.failure? = none) :
    ∃ left, write.perform state = .ok PUnit.unit left ∧
      (∃ field, left field ≠ none) := by
  cases write with
  | untyped kind => cases succeeds
  | ofField field value =>
      cases value with
      | none => cases succeeds
      | some value =>
          refine ⟨Function.update state field (some value), rfl, field, ?_⟩
          rw [Function.update_self]
          exact Option.some_ne_none value

/-- The first failure ends the writes. -/
theorem forM_perform_of_failure
    (first : writes.findSome? Write.failure? = some failure) :
    ∃ left, forM writes Write.perform state = .error failure left := by
  induction writes generalizing state with
  | nil => cases first
  | cons write rest inductionHypothesis =>
      rw [List.forM_cons]
      cases here : write.failure? with
      | some other =>
          rw [List.findSome?_cons, here] at first
          rw [← Option.some.inj first]
          exact ⟨state, Action.bind_of_error (perform_of_failure here)⟩
      | none =>
          rw [List.findSome?_cons, here] at first
          obtain ⟨left, returned, _⟩ := @perform_ok write state here
          obtain ⟨last, failedLater⟩ := @inductionHypothesis left first
          exact ⟨last, (Action.bind_of_ok returned).trans failedLater⟩

/-- Without a failure, what was written is there. -/
theorem forM_perform_ok
    (noFailure : writes.findSome? Write.failure? = none) :
    ∃ left, forM writes Write.perform state = .ok PUnit.unit left ∧
      (writes = [] ∧ left = state ∨
        writes ≠ [] ∧ ∃ field, left field ≠ none) := by
  induction writes generalizing state with
  | nil => exact ⟨state, rfl, Or.inl ⟨rfl, rfl⟩⟩
  | cons write rest inductionHypothesis =>
      rw [List.forM_cons]
      cases here : write.failure? with
      | some other =>
          rw [List.findSome?_cons, here] at noFailure
          cases noFailure
      | none =>
          rw [List.findSome?_cons, here] at noFailure
          obtain ⟨middle, returned, written⟩ := @perform_ok write state here
          obtain ⟨left, finished, either⟩ :=
            @inductionHypothesis middle noFailure
          refine ⟨left, (Action.bind_of_ok returned).trans finished,
            Or.inr ⟨List.cons_ne_nil _ _, ?_⟩⟩
          rcases either with ⟨_, same⟩ | ⟨_, more⟩
          · rw [same]
            exact written
          · exact more

end Performing

/-! ## What is reported -/

section Reported

variable {device : Device} {vcard : VCard} {failure : Failure}

theorem reported_of_failure
    (first : (writes device vcard).findSome? Write.failure? =
      some failure) :
    reported device vcard = failed (device.describe failure) := by
  obtain ⟨left, raised⟩ :=
    @forM_perform_of_failure _ _ (fun _ => none) first
  simp only [reported, mapInfo_eq, Action.bind_of_error raised]

theorem putCode_of_some {state : Report}
    (written : ∃ field, state field ≠ none) :
    ∃ left, putCode state = .ok PUnit.unit left ∧
      left .errCode = some codeSuccess := by
  obtain ⟨field, isSome⟩ := written
  have notEmpty : ¬∀ field ∈ Field.all, state field = none :=
    fun empty => isSome (empty field (Field.mem_all field))
  rw [putCode, Action.get_bind, if_neg notEmpty]
  exact ⟨_, rfl, rfl⟩

theorem putCode_of_empty :
    putCode (fun _ => none) =
      .ok PUnit.unit (failed contentIsEmpty) := by
  rw [putCode, Action.get_bind, if_pos fun _ _ => rfl]
  refine congrArg (EStateM.Result.ok PUnit.unit) ?_
  funext field
  cases field <;> rfl

/-- A card with something to report is reported as a success. -/
theorem reported_of_content
    (noFailure : (writes device vcard).findSome? Write.failure? = none)
    (some : writes device vcard ≠ []) :
    reported device vcard .errCode = .some codeSuccess := by
  obtain ⟨middle, performed, either⟩ :=
    @forM_perform_ok _ (fun _ => none) noFailure
  obtain ⟨left, coded, isSuccess⟩ :=
    putCode_of_some (either.resolve_left fun empty => some empty.1).2
  simp only [reported, mapInfo_eq, Action.bind_of_ok performed, coded]
  exact isSuccess

theorem reported_of_empty (none : writes device vcard = []) :
    reported device vcard = failed contentIsEmpty := by
  have performed : forM (writes device vcard) Write.perform
      (fun _ => .none) = .ok PUnit.unit fun _ => .none := by
    rw [none]
    rfl
  simp only [reported, mapInfo_eq, Action.bind_of_ok performed,
    putCode_of_empty]

end Reported

/-! ## The place of an entry -/

/-- An entry without a type, for a place in one of the lists. -/
structure Addition where
  kind : Kind
  index : Nat
  value : Option Text
deriving DecidableEq, Repr

def Addition.insertInto (addition : Addition) (entries : List Entry) :
    List Entry :=
  entries.take addition.index ++
    ⟨none, addition.value⟩ :: entries.drop addition.index

def VCard.add (vcard : VCard) (addition : Addition) : VCard :=
  match addition.kind with
  | .telephone =>
      { vcard with
        telephoneNumbers := addition.insertInto vcard.telephoneNumbers }
  | .address =>
      { vcard with addresses := addition.insertInto vcard.addresses }
  | .email => { vcard with emails := addition.insertInto vcard.emails }

section Place

variable (device : Device) (vcard : VCard) (addition : Addition)

/-- What is written before the place of the entry is come to. -/
def writesBefore : List Write :=
  match addition.kind with
  | .telephone =>
      nameWrites vcard ++
        (vcard.telephoneNumbers.take addition.index).flatMap
          (entryWrites device .telephone)
  | .address =>
      nameWrites vcard ++ telephoneWrites device vcard ++
        (vcard.addresses.take addition.index).flatMap
          (entryWrites device .address)
  | .email =>
      nameWrites vcard ++ telephoneWrites device vcard ++
        addressWrites device vcard ++
        (vcard.emails.take addition.index).flatMap
          (entryWrites device .email)

/-- What is to be written behind it. -/
def writesBehind : List Write :=
  match addition.kind with
  | .telephone =>
      (vcard.telephoneNumbers.drop addition.index).flatMap
          (entryWrites device .telephone) ++
        addressWrites device vcard ++ emailWrites device vcard ++
        organizationWrites vcard
  | .address =>
      (vcard.addresses.drop addition.index).flatMap
          (entryWrites device .address) ++
        emailWrites device vcard ++ organizationWrites vcard
  | .email =>
      (vcard.emails.drop addition.index).flatMap
          (entryWrites device .email) ++
        organizationWrites vcard

theorem flatMap_take_append_drop {α β : Type} (items : List α)
    (index : Nat) (written : α → List β) (rest : List β) :
    (items.take index).flatMap written ++
        ((items.drop index).flatMap written ++ rest) =
      items.flatMap written ++ rest := by
  rw [← List.append_assoc, ← List.flatMap_append, List.take_append_drop]

theorem writes_eq_append :
    writes device vcard =
      writesBefore device vcard addition ++
        writesBehind device vcard addition := by
  rw [writes, writesBefore, writesBehind]
  cases addition.kind with
  | telephone =>
      simp only [List.append_assoc, flatMap_take_append_drop]
      rfl
  | address =>
      simp only [List.append_assoc, flatMap_take_append_drop]
      rfl
  | email =>
      simp only [List.append_assoc, flatMap_take_append_drop]
      rfl

theorem writes_add :
    writes device (vcard.add addition) =
      writesBefore device vcard addition ++
        .untyped addition.kind :: writesBehind device vcard addition := by
  rw [writesBefore, writesBehind, VCard.add]
  cases addition.kind with
  | telephone =>
      simp [writes, nameWrites, telephoneWrites, addressWrites, emailWrites,
        organizationWrites, Addition.insertInto, entryWrites]
  | address =>
      simp [writes, nameWrites, telephoneWrites, addressWrites, emailWrites,
        organizationWrites, Addition.insertInto, entryWrites]
  | email =>
      simp [writes, nameWrites, telephoneWrites, addressWrites, emailWrites,
        organizationWrites, Addition.insertInto, entryWrites]

end Place

/-! ## The law -/

/-- The first exception that a list of writes meets. -/
def firstFailure (writes : List Write) : Option Failure :=
  writes.findSome? Write.failure?

/-- A property throws, or there is no property to report. -/
def ReportsNothing (device : Device) (vcard : VCard) : Prop :=
  firstFailure (writes device vcard) ≠ none ∨ writes device vcard = []

/-- An exception comes before the place of the entry, or the first one behind
it has the same text as that of the entry. -/
def ThrowsAlike (device : Device) (vcard : VCard) (addition : Addition) :
    Prop :=
  firstFailure (writesBefore device vcard addition) ≠ none ∨
    ∃ failure,
      firstFailure (writesBehind device vcard addition) = some failure ∧
        device.describe failure =
          device.describe (.typeIsNull addition.kind)

section Law

variable {device : Device} {vcard : VCard} {addition : Addition}

/-- A card with the entry always throws. -/
theorem reported_add :
    reported device (vcard.add addition) =
      failed (device.describe
        ((firstFailure (writesBefore device vcard addition)).getD
          (.typeIsNull addition.kind))) := by
  refine reported_of_failure ?_
  rw [writes_add, List.findSome?_append, firstFailure]
  cases (writesBefore device vcard addition).findSome? Write.failure? with
  | some failure => rfl
  | none => rfl

theorem firstFailure_writes :
    firstFailure (writes device vcard) =
      (firstFailure (writesBefore device vcard addition)).or
        (firstFailure (writesBehind device vcard addition)) := by
  rw [firstFailure, writes_eq_append device vcard addition,
    List.findSome?_append]
  rfl

theorem failed_inj {first second : Text}
    (same : failed first = failed second) : first = second :=
  Option.some.inj (congrFun same .errMsg)

theorem failed_congr {first second : Text} {field : Field}
    (other : field ≠ .errMsg) :
    failed first field = failed second field := by
  cases field with
  | errMsg => exact absurd rfl other
  | id | lastName | userName | title | tell | phone | call | fax | address
  | email | organization | errCode => rfl

/-- A report is one of a failure, or has the code of a success. -/
theorem reported_cases :
    (∃ failure, firstFailure (writes device vcard) = some failure ∧
        reported device vcard = failed (device.describe failure)) ∨
      firstFailure (writes device vcard) = none ∧
        (writes device vcard = [] ∧
            reported device vcard = failed contentIsEmpty ∨
          writes device vcard ≠ [] ∧
            reported device vcard .errCode = some codeSuccess) := by
  cases first : firstFailure (writes device vcard) with
  | some failure => exact Or.inl ⟨failure, rfl, reported_of_failure first⟩
  | none =>
      refine Or.inr ⟨rfl, ?_⟩
      by_cases empty : writes device vcard = []
      · exact Or.inl ⟨empty, reported_of_empty empty⟩
      · exact Or.inr ⟨empty, reported_of_content first empty⟩

theorem reported_ne_failed_of_content (message : Text)
    (isSuccess : reported device vcard .errCode = some codeSuccess) :
    reported device vcard .errCode ≠ failed message .errCode := by
  rw [isSuccess]
  intro same
  exact absurd (Option.some.inj same) (by decide)

/-- The fields of the card and the code stay exactly when nothing of the card
is reported anyway. -/
theorem reported_add_fields_iff :
    (∀ field, field ≠ .errMsg → reported device vcard field =
        reported device (vcard.add addition) field) ↔
      ReportsNothing device vcard := by
  rw [reported_add]
  rcases @reported_cases device vcard with
    ⟨failure, first, isFailed⟩ | ⟨first, ⟨empty, isFailed⟩ | ⟨some, success⟩⟩
  · rw [isFailed]
    refine iff_of_true (fun field other => failed_congr other) ?_
    rw [ReportsNothing, first]
    exact Or.inl (Option.some_ne_none failure)
  · rw [isFailed]
    exact iff_of_true (fun field other => failed_congr other) (Or.inr empty)
  · refine iff_of_false (fun same => ?_) (fun nothing => ?_)
    · exact reported_ne_failed_of_content _ success
        (same .errCode (by decide))
    · exact nothing.elim (fun fails => fails first) some

/-- The whole report stays exactly when the card throws the same anyway. -/
theorem reported_add_iff :
    reported device vcard = reported device (vcard.add addition) ↔
      ThrowsAlike device vcard addition := by
  have split := @firstFailure_writes device vcard addition
  rw [reported_add, ThrowsAlike]
  cases before : firstFailure (writesBefore device vcard addition) with
  | some failure =>
      rw [before, Option.some_or] at split
      rw [reported_of_failure split]
      exact iff_of_true rfl (Or.inl (Option.some_ne_none failure))
  | none =>
      rw [before, Option.none_or] at split
      rw [Option.getD_none, ← split]
      simp only [ne_eq, not_true, false_or]
      rcases @reported_cases device vcard with
        ⟨failure, first, isFailed⟩ |
          ⟨first, ⟨empty, isFailed⟩ | ⟨some, success⟩⟩
      · rw [isFailed, first]
        constructor
        · exact fun same => ⟨failure, rfl, failed_inj same⟩
        · rintro ⟨other, isOther, same⟩
          rw [Option.some.inj isOther, same]
      · rw [isFailed, first]
        refine iff_of_false (fun same => ?_) (by simp)
        exact device.describe_ne _ (failed_inj same).symm
      · rw [first]
        refine iff_of_false (fun same => ?_) (by simp)
        exact reported_ne_failed_of_content _ success (congrFun same .errCode)

end Law

/-! ## Framing and isolation -/

section Parsing

variable (device : Device) (parse : Text → Except Text (Option VCard))

/-- A text is framed exactly when its flags are in order, if it is valid; and
an entry without a type leaves alone what is reported exactly when nothing is
reported anyway, and the text of the exception when it is the same. -/
theorem framed_and_isolated_iff (data : Text) {first second : Text}
    {vcard : VCard} {addition : Addition}
    (isCard : parse (rectifyData first) = .ok (some vcard))
    (isLarger : parse (rectifyData second) =
      .ok (some (vcard.add addition))) :
    (Framed data ↔ (isValid data = true → FlagsInOrder data)) ∧
      ((∀ field, field ≠ .errMsg →
          onParse device parse first field =
            onParse device parse second field) ↔
        ReportsNothing device vcard) ∧
      (onParse device parse first = onParse device parse second ↔
        ThrowsAlike device vcard addition) := by
  have ofFirst : onParse device parse first = reported device vcard := by
    simp only [onParse, isCard]
  have ofSecond : onParse device parse second =
      reported device (vcard.add addition) := by
    simp only [onParse, isLarger]
  rw [ofFirst, ofSecond]
  exact ⟨framed_iff data, reported_add_fields_iff, reported_add_iff⟩

end Parsing

/-! ## A card with one telephone -/

def someDevice : Device where
  toLowerCase text := text.map Char.toLower
  describe _ := "java.lang.NullPointerException".toList
  describe_ne _ := by decide

def oneTelephone : VCard where
  extendedId := none
  structuredName := none
  formattedName := none
  titles := []
  telephoneNumbers := [⟨some "WORK".toList, some ['1']⟩]
  addresses := []
  emails := []
  organization := none

def otherTelephone : Addition :=
  ⟨.telephone, 0, some ['2']⟩

def oneTelephoneText : Text :=
  flagBegin ++ "\nTEL;TYPE=WORK:1\n".toList ++ flagEnd

def twoTelephonesText : Text :=
  flagBegin ++ "\nTEL:2\nTEL;TYPE=WORK:1\n".toList ++ flagEnd

/-- What the parser has for these two texts. -/
def parseTelephones (text : Text) : Except Text (Option VCard) :=
  if text = oneTelephoneText then .ok (some oneTelephone)
  else if text = twoTelephonesText then
    .ok (some (oneTelephone.add otherTelephone))
  else .ok none

set_option maxRecDepth 8000 in
theorem parseTelephones_texts :
    parseTelephones (rectifyData oneTelephoneText) = .ok (some oneTelephone) ∧
      parseTelephones (rectifyData twoTelephonesText) =
        .ok (some (oneTelephone.add otherTelephone)) := by
  have one : rectifyData oneTelephoneText = oneTelephoneText := by decide
  have two : rectifyData twoTelephonesText = twoTelephonesText := by decide
  have different : twoTelephonesText ≠ oneTelephoneText := by decide
  rw [one, two, parseTelephones, parseTelephones, if_pos rfl,
    if_neg different, if_pos rfl]
  exact ⟨rfl, rfl⟩

theorem oneTelephone_framed_and_isolated :
    (Framed flagBegin ↔ (isValid flagBegin = true →
        FlagsInOrder flagBegin)) ∧
      ((∀ field, field ≠ .errMsg →
          onParse someDevice parseTelephones oneTelephoneText field =
            onParse someDevice parseTelephones twoTelephonesText field) ↔
        ReportsNothing someDevice oneTelephone) ∧
      (onParse someDevice parseTelephones oneTelephoneText =
          onParse someDevice parseTelephones twoTelephonesText ↔
        ThrowsAlike someDevice oneTelephone otherTelephone) :=
  framed_and_isolated_iff someDevice parseTelephones flagBegin
    parseTelephones_texts.1 parseTelephones_texts.2

/-- Flags in the wrong order leave an opening flag alone; and the second
telephone hides the first one. -/
theorem wrongOrder_and_hiddenTelephone :
    (isValid (flagEnd ++ flagBegin) = true ∧
        rectifyData (flagEnd ++ flagBegin) = flagBegin ∧
        ¬Framed (flagEnd ++ flagBegin)) ∧
      onParse someDevice parseTelephones oneTelephoneText .tell = some ['1'] ∧
      onParse someDevice parseTelephones twoTelephonesText .tell = none := by
  have valid : isValid (flagEnd ++ flagBegin) = true := by decide
  have rectified : rectifyData (flagEnd ++ flagBegin) = flagBegin := by decide
  refine ⟨⟨valid, rectified, fun framed => ?_⟩, ?_, ?_⟩
  · have closed := (framed valid).2
    rw [rectified] at closed
    exact absurd closed (by decide)
  · simp only [onParse, parseTelephones_texts.1]
    rfl
  · simp only [onParse, parseTelephones_texts.2]
    rfl

end DripStone.VCardParse
