import DripStone.Library.Mealy
import DripStone.Library.Paths

/-!
# `MyRetrofit`

A call on a service goes to the `ServiceMethod` of its method, which is built
from the annotations at the first call and kept.  The builders of the address
and of the form are lists that only grow.
-/

namespace DripStone.Retrofit

open DripStone.Library

inductive Annotation where
  | get (value : Text)
  | post (value : Text)
  | field (value : Text)
  | query (value : Text)
deriving DecidableEq, Repr

/-- The annotations of a method and of its parameters. -/
structure Signature where
  methodAnnotations : List Annotation
  parameterAnnotations : List (List Annotation)

inductive ParameterHandler where
  | queryParameterHandler (key : Text)
  | filedParameterHandler (key : Text)
deriving DecidableEq, Repr

/-- A builder of addresses: the link and the parameters added to it. -/
structure UrlBuilder (Url : Type) where
  link : Url
  added : List (Text × Text)
deriving DecidableEq, Repr

structure ServiceMethod (Url : Type) where
  relativeUrl : Option Text
  hasBody : Bool
  parameterHandler : List (Option ParameterHandler)
  formBuild : Option (List (Text × Text))
  httpMethod : Option Text
  urlBuilder : Option (UrlBuilder Url)

structure Request (Url : Type) where
  url : UrlBuilder Url
  method : Text
  body : Option (List (Text × Text))
deriving DecidableEq, Repr

inductive Failure where
  | nullPointerException
deriving DecidableEq, Repr

/-! ## `ServiceMethod.Builder` -/

/-- The method, the relative address and whether there is a body, as the
annotations of the method are gone through. -/
def parseMethod (methodAnnotations : List Annotation) :
    Option Text × Option Text × Bool :=
  methodAnnotations.foldl (fun parsed annotation =>
    match annotation with
    | .post value => (some "POST".toList, some value, true)
    | .get value => (some "GET".toList, some value, false)
    | _ => parsed) (none, none, false)

/-- The handler of a parameter; the last of its annotations counts. -/
def parseParameter (annotations : List Annotation) :
    Option ParameterHandler :=
  annotations.foldl (fun handler annotation =>
    match annotation with
    | .field value => some (.filedParameterHandler value)
    | .query value => some (.queryParameterHandler value)
    | _ => handler) none

def build (Url : Type) (signature : Signature) : ServiceMethod Url :=
  let parsed := parseMethod signature.methodAnnotations
  { relativeUrl := parsed.2.1
    hasBody := parsed.2.2
    parameterHandler := signature.parameterAnnotations.map parseParameter
    formBuild := if parsed.2.2 then some [] else none
    httpMethod := parsed.1
    urlBuilder := none }

/-! ## `ServiceMethod` -/

namespace ServiceMethod

variable {Url : Type}

section Invoke

-- `baseUrl.newBuilder`, of a link that may not resolve
variable (newBuilder : Text → Option Url)

/-- The builder of the address, made when there is none; it stays null for a
link that does not resolve. -/
def urlBuilderOrNew (serviceMethod : ServiceMethod Url) :
    Option (UrlBuilder Url) :=
  match serviceMethod.urlBuilder with
  | some urlBuilder => some urlBuilder
  | none =>
      (serviceMethod.relativeUrl.bind newBuilder).map fun link => ⟨link, []⟩

/-- `none` is a `NullPointerException`. -/
def addQueryParameter (serviceMethod : ServiceMethod Url)
    (key value : Text) : Option (ServiceMethod Url) :=
  (serviceMethod.urlBuilderOrNew newBuilder).map fun urlBuilder =>
    { serviceMethod with
      urlBuilder :=
        some { urlBuilder with added := urlBuilder.added ++ [(key, value)] } }

def addFiledParameter (serviceMethod : ServiceMethod Url)
    (key value : Text) : Option (ServiceMethod Url) :=
  serviceMethod.formBuild.map fun fields =>
    { serviceMethod with formBuild := some (fields ++ [(key, value)]) }

def apply (handler : ParameterHandler) (serviceMethod : ServiceMethod Url)
    (value : Text) : Option (ServiceMethod Url) :=
  match handler with
  | .queryParameterHandler key =>
      serviceMethod.addQueryParameter newBuilder key value
  | .filedParameterHandler key => serviceMethod.addFiledParameter key value

/-- The loop over the parameters: the service method it leaves, and whether it
went through.  A parameter without a handler and a null argument end it. -/
def applyAll (serviceMethod : ServiceMethod Url) :
    List (Option ParameterHandler) → List (Option Text) →
      ServiceMethod Url × Bool
  | [], _ => (serviceMethod, true)
  | some handler :: handlers, some value :: args =>
      match apply newBuilder handler serviceMethod value with
      | some applied => applied.applyAll handlers args
      | none => (serviceMethod, false)
  | _ :: _, _ => (serviceMethod, false)

/-- `invoke`: the service method it leaves, and the request of the call. -/
def invoke (serviceMethod : ServiceMethod Url)
    (args : List (Option Text)) :
    ServiceMethod Url × Except Failure (Request Url) :=
  match serviceMethod.applyAll newBuilder serviceMethod.parameterHandler
      args with
  | (applied, false) => (applied, .error .nullPointerException)
  | (applied, true) =>
      match applied.urlBuilderOrNew newBuilder with
      | none => (applied, .error .nullPointerException)
      | some urlBuilder =>
          let left := { applied with urlBuilder := some urlBuilder }
          match left.httpMethod with
          | none => (left, .error .nullPointerException)
          | some method =>
              (left, .ok ⟨urlBuilder, method, left.formBuild⟩)

end Invoke

end ServiceMethod

/-! ## `MyRetrofit` -/

/-- A call of a proxy; an argument is given as its text. -/
structure ProxyCall (Method : Type) where
  method : Method
  args : List (Option Text)

structure MyRetrofit (Method Url : Type) where
  serviceMethodCache : Method → Option (ServiceMethod Url)

def MyRetrofit.new (Method Url : Type) : MyRetrofit Method Url :=
  ⟨fun _ => none⟩

section Proxy

variable {Method Url : Type} [DecidableEq Method]
  (signature : Method → Signature) (newBuilder : Text → Option Url)

def MyRetrofit.loadServiceMethod (myRetrofit : MyRetrofit Method Url)
    (method : Method) : ServiceMethod Url :=
  match myRetrofit.serviceMethodCache method with
  | some serviceMethod => serviceMethod
  | none => build Url (signature method)

/-- A retrofit under calls; its trace is their requests. -/
def machine :
    Mealy (MyRetrofit Method Url) (ProxyCall Method)
      (Except Failure (Request Url)) where
  step myRetrofit call :=
    let invoked :=
      (myRetrofit.loadServiceMethod signature call.method).invoke newBuilder
        call.args
    (⟨Function.update myRetrofit.serviceMethodCache call.method
        (some invoked.1)⟩, [invoked.2])

end Proxy

end DripStone.Retrofit
