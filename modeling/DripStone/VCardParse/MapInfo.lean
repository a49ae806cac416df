import DripStone.Library.Action
import DripStone.VCardParse.RectifyData

/-!
# `onParse` and `mapInfo`

The properties of a parsed card are put into one map, under the keys that are
reported.  A property without a type, or without a value where one is put,
throws, and then nothing of the card is reported.
-/

namespace DripStone.VCardParse

open DripStone.Library

/-! ## Cards -/

/-- The keys of `VCardConst`. -/
inductive Field where
  | id
  | lastName
  | userName
  | title
  | tell
  | phone
  | call
  | fax
  | address
  | email
  | organization
  | errCode
  | errMsg
deriving DecidableEq, Repr

def Field.all : List Field :=
  [.id, .lastName, .userName, .title, .tell, .phone, .call, .fax, .address,
    .email, .organization, .errCode, .errMsg]

theorem Field.mem_all (field : Field) : field ∈ Field.all := by
  cases field <;> decide

/-- A telephone, an address or an e-mail: the parameter `TYPE` and the value
that is read. -/
structure Entry where
  type : Option Text
  value : Option Text
deriving DecidableEq, Repr

structure StructuredName where
  family : Option Text
  given : Option Text
  additionalNames : List (Option Text)
deriving DecidableEq, Repr

/-- The properties that are read; a property may be there without a value. -/
structure VCard where
  extendedId : Option (Option Text)
  structuredName : Option StructuredName
  formattedName : Option (Option Text)
  titles : List (Option Text)
  telephoneNumbers : List Entry
  addresses : List Entry
  emails : List Entry
  organization : Option (List (Option Text))
deriving DecidableEq, Repr

/-- The lists whose entries have a type. -/
inductive Kind where
  | telephone
  | address
  | email
deriving DecidableEq, Repr

/-- The null that an exception is about. -/
inductive Failure where
  | typeIsNull (kind : Kind)
  | valueIsNull (field : Field)
deriving DecidableEq, Repr

/-! ## `mapInfo` -/

abbrev Report := Field → Option Text

abbrev Call := Action Failure Report

def codeSuccess : Text := ['1']

def codeFail : Text := ['0']

def contentIsEmpty : Text :=
  "content is empty".toList

/-- `result[field] = value` -/
def put (field : Field) : Option Text → Call PUnit
  | none => throw (.valueIsNull field)
  | some value => modify fun result =>
      Function.update result field (some value)

def StructuredName.lastName (name : StructuredName) : Text :=
  let lastName :=
    match name.given with
    | some given => name.family.getD [] ++ ';' :: given
    | none => name.family.getD [] ++ [';']
  name.additionalNames.foldl
    (fun lastName additional =>
      match additional with
      | some additional => lastName ++ ';' :: additional
      | none => lastName)
    lastName

/-- The key for a type, in lower case. -/
def Kind.fieldOf : Kind → Text → Option Field
  | .telephone, type =>
      if type = "work".toList then some .tell
      else if type = "cell".toList then some .phone
      else if type = "home".toList then some .call
      else if type = "fax".toList then some .fax
      else none
  | .address, type =>
      if type = "work".toList then some .address else none
  | .email, type =>
      if type = "internet".toList then some .email else none

/-- The device: its locale, and the texts of its exceptions. -/
structure Device where
  toLowerCase : Text → Text
  describe : Failure → Text
  -- the text of an exception begins with its class
  describe_ne : ∀ failure, describe failure ≠ contentIsEmpty

section MapInfo

variable (device : Device)

/-- The body of the loops. -/
def putEntry (kind : Kind) (entry : Entry) : Call PUnit :=
  match entry.type with
  | none => throw (.typeIsNull kind)
  | some type =>
      match kind.fieldOf (device.toLowerCase type) with
      | none => pure PUnit.unit
      | some field => put field entry.value

/-- What `mapInfo` puts last. -/
def putCode : Call PUnit := do
  let result ← get
  if ∀ field ∈ Field.all, result field = none then
    put .errCode (some codeFail)
    put .errMsg (some contentIsEmpty)
  else
    put .errCode (some codeSuccess)
    put .errMsg (some "success".toList)

/-- `mapInfo`, on a map that is empty at first. -/
def mapInfo (vcard : VCard) : Call PUnit := do
  forM vcard.extendedId.toList (put .id)
  forM vcard.structuredName.toList fun name =>
    put .lastName (some name.lastName)
  forM vcard.formattedName.toList (put .userName)
  forM vcard.titles.head?.toList (put .title)
  forM vcard.telephoneNumbers (putEntry device .telephone)
  forM vcard.addresses (putEntry device .address)
  forM vcard.emails (putEntry device .email)
  forM vcard.organization.toList fun values =>
    forM values.head?.toList (put .organization)
  putCode

/-! ## `onParse` -/

/-- The map that says only what went wrong. -/
def failed (message : Text) : Report
  | .errCode => some codeFail
  | .errMsg => some message
  | _ => none

/-- The map for a parsed card. -/
def reported (vcard : VCard) : Report :=
  match mapInfo device vcard fun _ => none with
  | .ok _ result => result
  | .error failure _ => failed (device.describe failure)

/-- `onParse`, up to the JSON text of the map; the parser throws, with some
text, or has a first card or none. -/
def onParse (parse : Text → Except Text (Option VCard)) (data : Text) :
    Report :=
  match parse (rectifyData data) with
  | .ok (some vcard) => reported device vcard
  | .ok none => failed "failed".toList
  | .error message => failed message

end MapInfo

/-! ## A card as a list of writes -/

/-- What `mapInfo` does with one property. -/
inductive Write where
  | untyped (kind : Kind)
  | ofField (field : Field) (value : Option Text)
deriving DecidableEq, Repr

namespace Write

/-- The exception that a write throws. -/
def failure? : Write → Option Failure
  | .untyped kind => some (.typeIsNull kind)
  | .ofField field none => some (.valueIsNull field)
  | .ofField _ (some _) => none

def perform : Write → Call PUnit
  | .untyped kind => throw (.typeIsNull kind)
  | .ofField field value => put field value

end Write

section Writes

variable (device : Device)

def entryWrites (kind : Kind) (entry : Entry) : List Write :=
  match entry.type with
  | none => [.untyped kind]
  | some type =>
      match kind.fieldOf (device.toLowerCase type) with
      | none => []
      | some field => [.ofField field entry.value]

def nameWrites (vcard : VCard) : List Write :=
  vcard.extendedId.toList.map (.ofField .id) ++
    vcard.structuredName.toList.map
      (fun name => .ofField .lastName (some name.lastName)) ++
    vcard.formattedName.toList.map (.ofField .userName) ++
    vcard.titles.head?.toList.map (.ofField .title)

def telephoneWrites (vcard : VCard) : List Write :=
  vcard.telephoneNumbers.flatMap (entryWrites device .telephone)

def addressWrites (vcard : VCard) : List Write :=
  vcard.addresses.flatMap (entryWrites device .address)

def emailWrites (vcard : VCard) : List Write :=
  vcard.emails.flatMap (entryWrites device .email)

def organizationWrites (vcard : VCard) : List Write :=
  vcard.organization.toList.flatMap fun values =>
    values.head?.toList.map (.ofField .organization)

/-- All that `mapInfo` writes for the properties, in its order. -/
def writes (vcard : VCard) : List Write :=
  nameWrites vcard ++ telephoneWrites device vcard ++
    addressWrites device vcard ++ emailWrites device vcard ++
    organizationWrites vcard

theorem forM_map {α : Type} (items : List α) (written : α → Write) :
    forM (items.map written) Write.perform =
      forM items fun item => (written item).perform := by
  induction items with
  | nil => rfl
  | cons item rest inductionHypothesis =>
      rw [List.map_cons, List.forM_cons, List.forM_cons,
        inductionHypothesis]

theorem forM_entryWrites (kind : Kind) (entry : Entry) :
    forM (entryWrites device kind entry) Write.perform =
      putEntry device kind entry := by
  cases typed : entry.type with
  | none => simp [entryWrites, putEntry, typed, Write.perform]
  | some type =>
      cases known : kind.fieldOf (device.toLowerCase type) with
      | none => simp [entryWrites, putEntry, typed, known]
      | some field =>
          simp [entryWrites, putEntry, typed, known, Write.perform]

theorem forM_flatMap {α : Type} (items : List α) (written : α → List Write) :
    forM (items.flatMap written) Write.perform =
      forM items fun item => forM (written item) Write.perform := by
  induction items with
  | nil => rfl
  | cons item rest inductionHypothesis =>
      rw [List.flatMap_cons, List.forM_append, inductionHypothesis,
        List.forM_cons]

/-- `mapInfo` performs its writes one after the other. -/
theorem mapInfo_eq (vcard : VCard) :
    mapInfo device vcard =
      forM (writes device vcard) Write.perform >>= fun _ => putCode := by
  simp only [writes, nameWrites, telephoneWrites, addressWrites, emailWrites,
    organizationWrites, List.forM_append, forM_flatMap, forM_entryWrites,
    forM_map, Write.perform, bind_assoc]
  rfl

end Writes

end DripStone.VCardParse
