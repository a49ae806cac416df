import DripStone.Library.ScriptLiteral

/-!
# The callback of a web page

A response travels to the page inside a script: `handleCallback` puts it
between quotes as it is, and the page reads it as a string literal.
-/

namespace DripStone.WebView

open DripStone.Library
open DripStone.Library.ScriptLiteral

/-- The code units of a text of the source. -/
def units (text : String) : List JChar :=
  text.toList.map fun letter => BitVec.ofNat 16 letter.toNat

def trigger (callbackName response : List JChar) : List JChar :=
  units "javascript:" ++ (units "webviewjs.callback('" ++ callbackName ++
    units "','" ++ response ++ units "')")

/-- `BaseWebView.handleCallback`: the script that is evaluated, if any. -/
def handleCallback (callbackName response : List JChar) :
    Option (List JChar) :=
  if response = [] then none else some (trigger callbackName response)

/-! ## The page -/

/-- A call `webviewjs.callback(callbackname, response)`. -/
structure Call where
  callbackname : List JChar
  response : List JChar
deriving DecidableEq, Repr

/-- What follows a token. -/
def expect (token text : List JChar) : Option (List JChar) :=
  if token <+: text then some (text.drop token.length) else none

/-- A script that is one call of `webviewjs.callback` on two string literals,
behind the label `javascript`. -/
def parseScript (script : List JChar) : Option Call := do
  let rest ← expect (units "javascript:") script
  let rest ← expect (units "webviewjs.callback(") rest
  let (callbackname, rest) ← readLiteral rest
  let rest ← expect (units ",") rest
  let (response, rest) ← readLiteral rest
  let rest ← expect (units ")") rest
  if rest = [] then some ⟨callbackname, response⟩ else none

/-- How a call of a callback ends; a callback may go by whatever it knows. -/
inductive CallEnd where
  | returnsFalse
  -- with anything else, `undefined` included
  | returns
  | throws
deriving DecidableEq, Repr

/-- Whether the callback stays registered: what it throws leaves
`webviewjs.callback` before the `delete`. -/
def CallEnd.keeps : CallEnd → Bool
  | .returnsFalse | .throws => true
  | .returns => false

/-- What is registered under a name; its callback may be `undefined`. -/
structure CallbackObject where
  isDefined : Bool
deriving DecidableEq, Repr

/-- A page with what it has registered; `calls` are those of the callbacks, each
with the name, the response and its end. -/
structure Page where
  callbacks : List JChar → Option CallbackObject
  calls : List (List JChar × List JChar × CallEnd)

namespace Page

/-- `webviewjs.callback`; a callback that is called ends this way. -/
def callback (page : Page) (callbackname response : List JChar)
    (callEnd : CallEnd) : Page :=
  match page.callbacks callbackname with
  | some ⟨true⟩ =>
      { callbacks :=
          if callEnd.keeps then page.callbacks
          else Function.update page.callbacks callbackname none
        calls := page.calls ++ [(callbackname, response, callEnd)] }
  | some ⟨false⟩ | none => page

/-- What a script does that is one call; nothing is said of other scripts. -/
def evaluateJavascript (page : Page) (script : List JChar)
    (callEnd : CallEnd) : Option Page :=
  (parseScript script).map fun call =>
    page.callback call.callbackname call.response callEnd

end Page

/-! ## Reading the script back -/

theorem expect_eq_some_iff {token text rest : List JChar} :
    expect token text = some rest ↔ text = token ++ rest := by
  rw [expect]
  constructor
  · intro reads
    split_ifs at reads with isPrefix
    obtain ⟨behind, rfl⟩ := isPrefix
    simpa using Option.some.inj reads
  · rintro rfl
    simp

theorem readLiteral_eq_some_iff {text value rest : List JChar} :
    readLiteral text = some (value, rest) ↔
      ∃ body, text = singleQuote :: body ∧
        readBody body = some (value, rest) := by
  cases text with
  | nil => simp [readLiteral]
  | cons unit body =>
      by_cases isQuote : unit = singleQuote
      · simp [readLiteral, isQuote]
      · simp [readLiteral, isQuote]

theorem trigger_eq (callbackName response : List JChar) :
    trigger callbackName response =
      units "javascript:" ++ (units "webviewjs.callback(" ++
        singleQuote :: (callbackName ++ singleQuote :: (units "," ++
          singleQuote :: (response ++ singleQuote :: units ")")))) := by
  have opening : units "webviewjs.callback('" =
      units "webviewjs.callback(" ++ [singleQuote] := by decide
  have between : units "','" =
      singleQuote :: (units "," ++ [singleQuote]) := by decide
  have closing : units "')" = singleQuote :: units ")" := by decide
  rw [trigger, opening, between, closing]
  simp

theorem parseScript_eq_some_iff {script : List JChar} {call : Call} :
    parseScript script = some call ↔
      ∃ first second last,
        script = units "javascript:" ++ (units "webviewjs.callback(" ++
          singleQuote :: first) ∧
        readBody first =
          some (call.callbackname, units "," ++ singleQuote :: second) ∧
        readBody second = some (call.response, last) ∧
        last = units ")" := by
  obtain ⟨callbackname, response⟩ := call
  simp only [parseScript, bind, Option.bind_eq_some_iff, Prod.exists,
    expect_eq_some_iff, readLiteral_eq_some_iff]
  constructor
  · rintro ⟨_, rfl, _, rfl, name, _, ⟨first, rfl, readsFirst⟩, _, rfl, text,
      _, ⟨second, rfl, readsSecond⟩, last, rfl, whole⟩
    split_ifs at whole with isLast
    obtain ⟨rfl, rfl⟩ := Call.mk.inj (Option.some.inj whole)
    exact ⟨first, second, _, rfl, readsFirst, readsSecond, by
      rw [isLast, List.append_nil]⟩
  · rintro ⟨first, second, _, rfl, readsFirst, readsSecond, rfl⟩
    exact ⟨_, rfl, _, rfl, _, _, ⟨first, rfl, readsFirst⟩, _, rfl, _, _,
      ⟨second, rfl, readsSecond⟩, [], by simp, by simp⟩

/-- A script is read back as the call it was built for if and only if both
strings are plain. -/
theorem parseScript_trigger_iff (callbackName response : List JChar) :
    parseScript (trigger callbackName response) =
        some ⟨callbackName, response⟩ ↔
      Plain callbackName ∧ Plain response := by
  rw [parseScript_eq_some_iff]
  constructor
  · rintro ⟨first, second, last, same, readsFirst, readsSecond, isLast⟩
    rw [trigger_eq] at same
    obtain rfl := (List.cons.inj
      (List.append_cancel_left (List.append_cancel_left same))).2
    obtain ⟨_, plainName⟩ := readBody_length readsFirst
    obtain ⟨atMost, plainResponse⟩ := readBody_length readsSecond
    obtain ⟨atLeast, _⟩ := readBody_length readsFirst
    -- the two literals have no room for anything but the two strings
    simp only [List.length_append, List.length_cons, isLast] at *
    exact ⟨(plainName (by omega)).2, (plainResponse (by omega)).2⟩
  · rintro ⟨plainName, plainResponse⟩
    exact ⟨_, _, _, trigger_eq callbackName response,
      readBody_of_plain plainName _, readBody_of_plain plainResponse _, rfl⟩

/-- Every response arrives at the page as it was sent, in the one call that
the script makes, if and only if neither it nor the name of the callback has a
quote, a backslash or a line break. -/
theorem transported_iff_plain (callbackName : List JChar)
    {response : List JChar} (nonempty : response ≠ []) :
    (handleCallback callbackName response).bind parseScript =
        some ⟨callbackName, response⟩ ↔
      Plain callbackName ∧ Plain response := by
  rw [handleCallback, if_neg nonempty, Option.bind_some]
  exact parseScript_trigger_iff callbackName response

theorem transported_of_number :
    (handleCallback (units "nativetojs_callback_1_2") (units "42")).bind
        parseScript =
        some ⟨units "nativetojs_callback_1_2", units "42"⟩ ↔
      Plain (units "nativetojs_callback_1_2") ∧ Plain (units "42") :=
  transported_iff_plain _ (by decide)

/-- The JSON text `"a\"b"`: its backslash does not arrive. -/
theorem json_string_changed :
    (handleCallback (units "name")
        [0x22, 0x61, 0x5C, 0x22, 0x62, 0x22]).bind parseScript ≠
      some ⟨units "name", [0x22, 0x61, 0x5C, 0x22, 0x62, 0x22]⟩ := by
  intro arrives
  rw [handleCallback, if_neg (by decide), Option.bind_some] at arrives
  have plain := ((parseScript_trigger_iff _ _).mp arrives).2
  exact absurd (plain backslash (by decide)) (by decide)

end DripStone.WebView
