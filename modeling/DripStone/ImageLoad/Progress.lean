import DripStone.Library.Mealy
import DripStone.Library.Paths

/-!
# The progress of an image

`GlideLoadMgr` loads images into views, `ProgressManager` keeps the listener
of a url, and every `ProgressResponseBody` counts the bytes that are read and
posts to the main looper that there are more.

What Glide does is left to the events: where it finishes a load, and which
responses it opens and reads.  A listener may load images while it is called;
what its caller still has to do waits until the call returns.
-/

namespace DripStone.ImageLoad

open DripStone.Library

/-! ## Calls of the listeners -/

/-- What `onProgress` of a listener is told. -/
structure Report where
  isComplete : Bool
  percentage : Int
  bytesRead : Int
  totalBytes : Int
deriving DecidableEq, Repr

/-- What the runs show: a listener that is put into `listenersMap`, a call of a
listener, kept under a url, what `read` of a body returns, and a call of the
listener that all bodies have. -/
inductive Output (Listener : Type) where
  | added (url : Text) (listener : Listener)
  | onProgress (url : Text) (listener : Listener) (report : Report)
  | returned (body : Nat) (bytesRead : Option Nat)
  | internalProgress (body bytesRead : Nat)

structure ProgressResponseBody where
  url : Text
  contentLength : Int
  totalBytesRead : Nat
  lastTotalBytesRead : Nat

/-- What `loadUrl` does when `loadImage` has returned. -/
structure UrlLoad (Listener : Type) where
  view : Int
  url : Text
  loadListener : Option Listener

/-- A call of a listener that has not returned, whether the listener of the url
is removed then, and the `loadUrl` that it was made in, if any. -/
structure Call (Listener : Type) where
  url : Text
  removes : Bool
  load : Option (UrlLoad Listener)

/-- The main thread and the bodies; `urlMap` has the hash codes of views. -/
structure Process (Listener : Type) where
  urlMap : Int → Option Text
  listenersMap : Text → Option Listener
  -- the innermost first
  calls : List (Call Listener)
  bodies : List ProgressResponseBody
  -- the bodies whose progress is posted to `mainThreadHandler`
  posted : List Nat

namespace Process

variable {Listener : Type}

def new : Process Listener where
  urlMap := fun _ => none
  listenersMap := fun _ => none
  calls := []
  bodies := []
  posted := []

/-! ## `ProgressManager` -/

/-- `onProgress` of a listener begins. -/
def call (process : Process Listener) (listener : Listener)
    (report : Report) (made : Call Listener) :
    Process Listener × List (Output Listener) :=
  ({ process with calls := made :: process.calls },
    [.onProgress made.url listener report])

/-- What a listener is told when it is added. -/
def firstReport : Report := ⟨false, 1, 0, 0⟩

/-- `listenersMap.put` -/
def put (process : Process Listener) (url : Text) (listener : Listener) :
    Process Listener :=
  { process with
    listenersMap := Function.update process.listenersMap url (some listener) }

def addListener (process : Process Listener) (url : Text)
    (listener : Listener) : Process Listener × List (Output Listener) :=
  if url = [] then (process, [])
  else
    let called := (process.put url listener).call listener firstReport
      ⟨url, false, none⟩
    (called.1, .added url listener :: called.2)

def removeListener (process : Process Listener) (url : Text) :
    Process Listener :=
  if url = [] then process
  else
    { process with
      listenersMap := Function.update process.listenersMap url none }

def getProgressListener (process : Process Listener) (url : Text) :
    Option Listener :=
  if url = [] then none else process.listenersMap url

/-- `LISTENER`; the percentage is calculated with floats. -/
def onProgress (percentageOf : Int → Int → Int)
    (process : Process Listener) (url : Text) (bytesRead totalBytes : Int) :
    Process Listener × List (Output Listener) :=
  match process.getProgressListener url with
  | none => (process, [])
  | some listener =>
      let percentage := percentageOf bytesRead totalBytes
      let isComplete : Bool := 100 ≤ percentage
      process.call listener ⟨isComplete, percentage, bytesRead, totalBytes⟩
        ⟨url, isComplete, none⟩

/-! ## `GlideLoadMgr` -/

/-- What `loadUrl` does behind `loadImage`. -/
def keep (process : Process Listener) (load : UrlLoad Listener) :
    Process Listener × List (Output Listener) :=
  let kept := { process with
    urlMap := Function.update process.urlMap load.view (some load.url) }
  match load.loadListener with
  | none => (kept, [])
  | some listener => kept.addListener load.url listener

def goOn (process : Process Listener) :
    Option (UrlLoad Listener) → Process Listener × List (Output Listener)
  | none => (process, [])
  | some load => process.keep load

/-- The listener that `onLoadFailed` and `onResourceReady` of the target of a
view find, with its url. -/
def target (process : Process Listener) (view : Int) :
    Option (Text × Listener) :=
  (process.urlMap view).bind fun url =>
    (process.getProgressListener url).map fun listener => (url, listener)

/-- `onLoadFailed` and `onResourceReady`, in a `loadUrl` if Glide has finished
before `into` returns. -/
def finished (process : Process Listener) (view : Int)
    (load : Option (UrlLoad Listener)) :
    Process Listener × List (Output Listener) :=
  match process.target view with
  | none => process.goOn load
  | some (url, listener) =>
      process.call listener ⟨true, 100, 0, 0⟩ ⟨url, true, load⟩

def loadImage (process : Process Listener) (view : Int)
    (immediately : Bool) : Process Listener × List (Output Listener) :=
  if immediately then process.finished view none else (process, [])

/-- The url and the listener are only kept once the image is loaded. -/
def loadUrl (process : Process Listener) (view : Int) (url : Text)
    (loadListener : Option Listener) (immediately : Bool) :
    Process Listener × List (Output Listener) :=
  let load := ⟨view, url, loadListener⟩
  if immediately then process.finished view (some load)
  else process.keep load

/-- The innermost call of a listener returns: its url may have another
listener by now. -/
def returned (process : Process Listener) :
    Process Listener × List (Output Listener) :=
  match process.calls with
  | [] => (process, [])
  | made :: rest =>
      let left := { process with calls := rest }
      let removed := if made.removes then left.removeListener made.url else left
      removed.goOn made.load

/-! ## `ProgressResponseBody` -/

/-- The source of a body reads some bytes, or none at the end. -/
def read (process : Process Listener) (body : Nat)
    (bytesRead : Option Nat) : Process Listener × List (Output Listener) :=
  match process.bodies[body]? with
  | none => (process, [])
  | some source =>
      let total := source.totalBytesRead + bytesRead.getD 0
      if source.lastTotalBytesRead ≠ total then
        ({ process with
            bodies := process.bodies.set body { source with
              totalBytesRead := total, lastTotalBytesRead := total }
            posted := process.posted ++ [body] },
          [.returned body bytesRead])
      else (process, [.returned body bytesRead])

/-- The main looper runs the first of the posted calls, which reads the field
`totalBytesRead` only now; while a listener is called it runs none. -/
def runPosted (percentageOf : Int → Int → Int)
    (process : Process Listener) :
    Process Listener × List (Output Listener) :=
  match process.calls, process.posted with
  | [], body :: rest =>
      match process.bodies[body]? with
      | none => (process, [])
      | some source =>
          let called := { process with posted := rest }.onProgress
            percentageOf source.url source.totalBytesRead
            source.contentLength
          (called.1,
            .internalProgress body source.totalBytesRead :: called.2)
  | _, _ => (process, [])

end Process

/-! ## Runs -/

/-- `loadImage` stands for `loadFile` and `loadRes`; `returned` ends the
innermost call of a listener. -/
inductive Event (Listener : Type) where
  | loadUrl (view : Int) (url : Text) (loadListener : Option Listener)
      (immediately : Bool)
  | loadImage (view : Int) (immediately : Bool)
  | finished (view : Int)
  | returned
  | opened (url : Text) (contentLength : Int)
  | read (body : Nat) (bytesRead : Option Nat)
  | runPosted

variable {Listener : Type}

def Process.step (percentageOf : Int → Int → Int)
    (process : Process Listener) :
    Event Listener → Process Listener × List (Output Listener)
  | .loadUrl view url loadListener immediately =>
      process.loadUrl view url loadListener immediately
  | .loadImage view immediately => process.loadImage view immediately
  | .finished view => process.finished view none
  | .returned => process.returned
  | .opened url contentLength =>
      ({ process with
          bodies := process.bodies ++ [⟨url, contentLength, 0, 0⟩] }, [])
  | .read body bytesRead => process.read body bytesRead
  | .runPosted => process.runPosted percentageOf

/-- The main thread and the threads that read, in any order. -/
def loading (percentageOf : Int → Int → Int) :
    Mealy (Process Listener) (Event Listener) (Output Listener) where
  step := Process.step percentageOf

end DripStone.ImageLoad
