import DripStone.WebView.Callback
import DripStone.WebView.Connection

/-!
# The bridge of a web page

A page asks for a command with `takeNativeActionWithCallback`.  The request
waits in a handler of the web process, the command runs in the web process or
in the main process, and each of its results waits in the main looper until
`handleCallback` brings it to the page.  How a callback ends is chosen with
each result that is run.
-/

namespace DripStone.WebView

open DripStone.Library
open DripStone.Library.ScriptLiteral

/-- What `takeNativeAction` is called with. -/
structure Request where
  name : Text
  param : Text
  callbackname : Option (List JChar)

/-- A command that has been executed; it may have any number of results. -/
structure Running where
  -- the main process it runs in, none for the web process
  place : Option Binder
  callbackName : Option (List JChar)
deriving DecidableEq, Repr

structure Bridge where
  page : Page
  processes : Processes
  -- whether the view has a `WebViewCallBack`
  webViewCallBack : Bool
  -- the requests posted by `takeNativeAction`
  requests : List Request
  running : List Running
  -- the results posted by `handleCallback` of `CommandDispatcher`
  results : List (Option (List JChar) × List JChar)

inductive BridgeEvent where
  | process (event : Event)
  | registerdWebViewCallBack
  | takeNativeAction (commandname parameters : Text)
  | takeNativeActionWithCallback (commandname parameters : Text)
      (time random : Nat) (callback : CallbackObject)
  | runRequest
  | onResult (command : Running) (response : List JChar)
  | runResult (callEnd : CallEnd)

/-- The name under which a page registers a callback. -/
def callbackname (time random : Nat) : List JChar :=
  units "nativetojs_callback_" ++ (units (toString time) ++
    (units "_" ++ units (toString random)))

/-- `webviewjs.callbacks[callbackname] = {callback:callback}` -/
def Page.register (page : Page) (name : List JChar)
    (callback : CallbackObject) : Page :=
  { page with callbacks := Function.update page.callbacks name (some callback) }

namespace Bridge

def initial (commands : List Text) : Bridge where
  page := ⟨fun _ => none, []⟩
  processes := .initial commands
  webViewCallBack := false
  requests := []
  running := []
  results := []

/-- `CommandDispatcher.exec`; a call to a main process that has died throws,
and the exception is caught. -/
def exec (bridge : Bridge) (request : Request) : Bridge :=
  match bridge.processes.exec request.name request.param with
  | .webviewProcess _ _ => { bridge with
      running := bridge.running ++ [⟨none, request.callbackname⟩] }
  | .sent binder _ _ =>
      if binder ∈ bridge.processes.died then bridge
      else { bridge with
        running := bridge.running ++ [⟨some binder, request.callbackname⟩] }
  | .nothing => bridge

/-- A result on the main looper: Java writes a name that is null as `null`. -/
def handleCallback (bridge : Bridge) (callbackName : Option (List JChar))
    (response : List JChar) (callEnd : CallEnd) : Option Bridge :=
  match WebView.handleCallback (callbackName.getD (units "null"))
      response with
  | none => some bridge
  | some script =>
      (bridge.page.evaluateJavascript script callEnd).map fun page =>
        { bridge with page := page }

def step (bridge : Bridge) : BridgeEvent → Option Bridge
  | .process event => (bridge.processes.step event).map fun processes =>
      { bridge with processes := processes }
  | .registerdWebViewCallBack => some { bridge with webViewCallBack := true }
  | .takeNativeAction commandname parameters => some { bridge with
      requests := bridge.requests ++ [⟨commandname, parameters, none⟩] }
  | .takeNativeActionWithCallback commandname parameters time random
      callback => some { bridge with
        page := bridge.page.register (callbackname time random) callback
        requests := bridge.requests ++
          [⟨commandname, parameters, some (callbackname time random)⟩] }
  | .runRequest =>
      match bridge.requests with
      | [] => none
      | request :: rest =>
          let taken := { bridge with requests := rest }
          some (if bridge.webViewCallBack then taken.exec request else taken)
  | .onResult command response =>
      if command ∈ bridge.running ∧
          (∀ binder ∈ command.place, binder ∉ bridge.processes.died) then
        some { bridge with
          results := bridge.results ++ [(command.callbackName, response)] }
      else none
  | .runResult callEnd =>
      match bridge.results with
      | [] => none
      | (callbackName, response) :: rest =>
          handleCallback { bridge with results := rest } callbackName response
            callEnd

end Bridge

end DripStone.WebView
