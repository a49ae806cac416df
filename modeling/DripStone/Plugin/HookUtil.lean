import DripStone.Library.Guarded
import DripStone.Library.Paths

/-!
# `HookUtil`

An activity of a plugin is not declared in the manifest.  A proxy of the
activity manager puts its intent into one for `ProxyActivity`, and a callback
of the handler of `ActivityThread` takes it out again before the launch.
-/

namespace DripStone.Plugin

open DripStone.Library

/-- What an intent carries besides the extra `target_intent`; its flag is the
extra `is_hook_activity`, false by default. -/
structure Extras (Data : Type) where
  component : Option (Text × Text)
  isHookActivity : Bool
  others : Data
deriving DecidableEq, Repr

inductive Intent (Data : Type) where
  | plain (extras : Extras Data)
  | targeting (extras : Extras Data) (targetIntent : Intent Data)
deriving DecidableEq, Repr

namespace Intent

variable {Data : Type}

def extras : Intent Data → Extras Data
  | .plain extras => extras
  | .targeting extras _ => extras

/-- `getParcelableExtra(TARGET_INTENT)` -/
def targetIntent : Intent Data → Option (Intent Data)
  | .plain _ => none
  | .targeting _ target => some target

/-- `proxyIntent`; `mProxyAppPackageName` and `mProxyActivityClassName` are
its component. -/
def proxyIntent [Inhabited Data] (proxyConfig : Text × Text)
    (intent : Intent Data) : Intent Data :=
  .targeting ⟨some proxyConfig, true, default⟩ intent

end Intent

/-! ## The activity manager -/

inductive InvocationFailure where
  | arrayIndexOutOfBoundsException
deriving DecidableEq, Repr

/-- An argument of a method of the activity manager. -/
inductive Argument (Data Value : Type) where
  | intent (intent : Intent Data)
  | other (value : Value)
deriving DecidableEq, Repr

section Manager

variable {Data Value : Type} [Inhabited Data]

/-- The loop over `args`: the first intent is replaced if it is tagged. -/
def replaceIntent (proxyConfig : Text × Text) :
    List (Argument Data Value) →
      Except InvocationFailure (List (Argument Data Value))
  | [] => .error .arrayIndexOutOfBoundsException
  | .intent intent :: rest =>
      .ok (.intent (if intent.extras.isHookActivity then
        intent.proxyIntent proxyConfig else intent) :: rest)
  | .other value :: rest =>
      (replaceIntent proxyConfig rest).map (.other value :: ·)

/-- `InvocationHandler.invoke`, the same in `hookIActivityManager` and in
`hookIActivityTaskManager`, up to the arguments that the instance behind the
proxy is called with. -/
def invoke (proxyConfig : Text × Text) (method : String)
    (args : List (Argument Data Value)) :
    Except InvocationFailure (List (Argument Data Value)) :=
  if method = "startActivity" then replaceIntent proxyConfig args
  else .ok args

/-- Each call of `hookAMS` puts a proxy in front of the one before. -/
def invokeAll (proxyConfig : Text × Text) (method : String) :
    Nat → List (Argument Data Value) →
      Except InvocationFailure (List (Argument Data Value))
  | 0, args => .ok args
  | proxies + 1, args =>
      (invoke proxyConfig method args).bind
        (invokeAll proxyConfig method proxies)

end Manager

/-! ## The handler of `ActivityThread` -/

/-- A part of `mActivityCallbacks`. -/
inductive CallbackItem (Data : Type) where
  | launchActivityItem (mIntent : Option (Intent Data))
  | other
deriving DecidableEq, Repr

inductive Message (Data : Type) where
  -- `LAUNCH_ACTIVITY`, 100, with the intent of an `ActivityClientRecord`
  | launchActivity (intent : Option (Intent Data))
  -- `EXECUTE_TRANSACTION`, 159
  | executeTransaction (mActivityCallbacks : Option (List (CallbackItem Data)))
  | other
deriving DecidableEq, Repr

section Handler

variable {Data : Type}

/-- What replaces an intent, unless reading its component or the intent
itself throws a `NullPointerException`. -/
def replacement (intent : Option (Intent Data)) : Option (Intent Data) :=
  intent.bind fun proxyIntent =>
    proxyIntent.extras.component.map fun _ =>
      if proxyIntent.extras.isHookActivity then
        proxyIntent.targetIntent.getD proxyIntent
      else proxyIntent

/-- The loop over `mActivityCallbacks`; an exception ends it. -/
def replaceIntents : List (CallbackItem Data) → List (CallbackItem Data)
  | [] => []
  | .other :: rest => .other :: replaceIntents rest
  | .launchActivityItem mIntent :: rest =>
      match replacement mIntent with
      | none => .launchActivityItem mIntent :: rest
      | some intent => .launchActivityItem intent :: replaceIntents rest

/-- `Handler.Callback.handleMessage`: the message that the handler goes on
with. -/
def handleMessage : Message Data → Message Data
  | .launchActivity intent => .launchActivity (replacement intent <|> intent)
  | .executeTransaction mActivityCallbacks =>
      .executeTransaction (mActivityCallbacks.map replaceIntents)
  | .other => .other

end Handler

/-! ## The process -/

/-- `mProxyAppPackageName` and `mProxyActivityClassName` at the start. -/
def defaultProxyConfig : Text × Text :=
  ("com.example.walkerdemo".toList,
    "com.example.walkerdemo.plugin.ProxyActivity".toList)

structure HookedProcess (Data : Type) where
  proxyConfig : Text × Text
  -- the proxies in front of the activity manager
  proxies : Nat
  -- whether the handler has the callback
  hooked : Bool
  -- `HookPluginFragment.sPluginLoaded`
  sPluginLoaded : Bool
  -- the intents that the activity manager was called with
  starting : List (Intent Data)
  -- the intents of the activities launched
  launched : List (Option (Intent Data))

/-- `HookPluginFragment` and the activities that are started; the system
launches an activity with a message, whenever and if it wants to. -/
inductive HookEvent (Data Value : Type) where
  | onAttach (packageName activityName : Text)
  | loadingPlugin
  | startActivity (leading : List Value) (intent : Intent Data)
      (trailing : List Value)
  | launch (started : Nat) (before after : Nat)

/-- The intent among the arguments, as the activity manager reads it. -/
def intentOf {Data Value : Type} :
    List (Argument Data Value) → Option (Intent Data)
  | [] => none
  | .intent intent :: _ => some intent
  | .other _ :: rest => intentOf rest

/-- The message for a launch: until Android 8.1 it is that of one activity. -/
def launchMessage {Data : Type} (sdkInt before after : Nat)
    (intent : Intent Data) : Message Data :=
  if sdkInt < 28 then .launchActivity (some intent)
  else .executeTransaction (some (List.replicate before .other ++
    .launchActivityItem (some intent) :: List.replicate after .other))

/-- The intent of the activity that is launched with a message. -/
def launchedIntent {Data : Type} : Message Data → Option (Intent Data)
  | .launchActivity intent => intent
  | .executeTransaction mActivityCallbacks =>
      mActivityCallbacks.bind fun items => items.findSome? fun
        | .launchActivityItem mIntent => mIntent
        | .other => none
  | .other => none

namespace HookedProcess

variable {Data Value : Type} [Inhabited Data]

/-- The process before any hook. -/
def initial : HookedProcess Data where
  proxyConfig := defaultProxyConfig
  proxies := 0
  hooked := false
  sPluginLoaded := false
  starting := []
  launched := []

def startActivity (process : HookedProcess Data) (leading : List Value)
    (intent : Intent Data) (trailing : List Value) :
    Option (HookedProcess Data) :=
  match invokeAll process.proxyConfig "startActivity" process.proxies
      (leading.map .other ++ .intent intent :: trailing.map .other) with
  | .error _ => none
  | .ok args => (intentOf args).map fun sent =>
      { process with starting := process.starting ++ [sent] }

def launch (process : HookedProcess Data) (sdkInt : Nat)
    (sent : Intent Data) (before after : Nat) : HookedProcess Data :=
  let message := launchMessage sdkInt before after sent
  { process with
    launched := process.launched ++ [launchedIntent
      (if process.hooked then handleMessage message else message)] }

def step (sdkInt : Nat) (process : HookedProcess Data) :
    HookEvent Data Value → Option (HookedProcess Data)
  | .onAttach packageName activityName =>
      some (if process.sPluginLoaded then process
      else { process with
        proxyConfig := (packageName, activityName)
        proxies := process.proxies + 1
        hooked := true })
  | .loadingPlugin => some { process with sPluginLoaded := true }
  | .startActivity leading intent trailing =>
      process.startActivity leading intent trailing
  | .launch started before after =>
      process.starting[started]?.map fun sent =>
        process.launch sdkInt sent before after

end HookedProcess

def hookedProcess (Data Value : Type) [Inhabited Data] (sdkInt : Nat) :
    Guarded (HookedProcess Data) (HookEvent Data Value) where
  start := .initial
  step := HookedProcess.step sdkInt

end DripStone.Plugin
