import DripStone.Retrofit.Model

/-!
# One call after others

What a call adds to the builders stays in them, so that the request of a later
call on the same method carries it too.
-/

namespace DripStone.Retrofit

open DripStone.Library

/-! ## What a call adds -/

/-- The parameters among some handlers with their values. -/
def queries (parameters : List (ParameterHandler × Text)) :
    List (Text × Text) :=
  parameters.filterMap fun parameter =>
    match parameter.1 with
    | .queryParameterHandler key => some (key, parameter.2)
    | .filedParameterHandler _ => none

/-- The form fields among some handlers with their values. -/
def fields (parameters : List (ParameterHandler × Text)) :
    List (Text × Text) :=
  parameters.filterMap fun parameter =>
    match parameter.1 with
    | .queryParameterHandler _ => none
    | .filedParameterHandler key => some (key, parameter.2)

/-- The annotated parameters with their arguments, in order. -/
def carried (handlers : List (Option ParameterHandler))
    (args : List (Option Text)) : List (ParameterHandler × Text) :=
  (handlers.zip args).filterMap fun parameter =>
    match parameter with
    | (some handler, some value) => some (handler, value)
    | _ => none

/-- What the loop over the parameters adds before it ends, and whether it goes
through, when it can add for the accepted handlers. -/
def contributed (accepts : ParameterHandler → Bool) :
    List (Option ParameterHandler) → List (Option Text) →
      List (ParameterHandler × Text) × Bool
  | [], _ => ([], true)
  | some handler :: handlers, some value :: args =>
      if accepts handler then
        ((handler, value) :: (contributed accepts handlers args).1,
          (contributed accepts handlers args).2)
      else ([], false)
  | _ :: _, _ => ([], false)

theorem contributed_eq_carried {accepts : ParameterHandler → Bool}
    {handlers : List (Option ParameterHandler)} {args : List (Option Text)}
    (through : (contributed accepts handlers args).2 = true) :
    (contributed accepts handlers args).1 = carried handlers args := by
  induction handlers generalizing args with
  | nil => rfl
  | cons first handlers inductionHypothesis =>
      cases first with
      | none => simp [contributed] at through
      | some handler =>
          cases args with
          | nil => simp [contributed] at through
          | cons arg args =>
              cases arg with
              | none => simp [contributed] at through
              | some value =>
                  by_cases accepted : accepts handler = true
                  · simp only [contributed, accepted, ↓reduceIte] at through ⊢
                    rw [inductionHypothesis through]
                    rfl
                  · simp [contributed, accepted] at through

section ServiceMethod

variable {Url : Type} (newBuilder : Text → Option Url)

/-- The handlers that can add: a parameter of the address when the link
resolves, a form field when there is a body. -/
def ServiceMethod.accepts (serviceMethod : ServiceMethod Url) :
    ParameterHandler → Bool
  | .queryParameterHandler _ =>
      (serviceMethod.relativeUrl.bind newBuilder).isSome
  | .filedParameterHandler _ => serviceMethod.hasBody

def ServiceMethod.query (serviceMethod : ServiceMethod Url) :
    List (Text × Text) :=
  (serviceMethod.urlBuilder.map UrlBuilder.added).getD []

def ServiceMethod.form (serviceMethod : ServiceMethod Url) :
    List (Text × Text) :=
  serviceMethod.formBuild.getD []

/-- A service method of a signature, at any time. -/
structure Built (signature : Signature)
    (serviceMethod : ServiceMethod Url) : Prop where
  relativeUrl : serviceMethod.relativeUrl =
    (build Url signature).relativeUrl
  hasBody : serviceMethod.hasBody = (build Url signature).hasBody
  parameterHandler : serviceMethod.parameterHandler =
    (build Url signature).parameterHandler
  httpMethod : serviceMethod.httpMethod = (build Url signature).httpMethod
  formBuild : serviceMethod.formBuild.isSome =
    (build Url signature).hasBody
  link : ∀ urlBuilder, serviceMethod.urlBuilder = some urlBuilder →
    (build Url signature).relativeUrl.bind newBuilder =
      some urlBuilder.link

theorem built_build (signature : Signature) :
    Built newBuilder signature (build Url signature) where
  relativeUrl := rfl
  hasBody := rfl
  parameterHandler := rfl
  httpMethod := rfl
  formBuild := by
    cases body : (parseMethod signature.methodAnnotations).2.2 with
    | true => simp [build, body]
    | false => simp [build, body]
  link := by
    intro urlBuilder isBuilder
    exact absurd isBuilder (by simp [build])

variable {newBuilder} {signature : Signature}
  {serviceMethod : ServiceMethod Url}

theorem Built.accepts_eq (built : Built newBuilder signature serviceMethod) :
    serviceMethod.accepts newBuilder =
      (build Url signature).accepts newBuilder := by
  funext handler
  cases handler with
  | queryParameterHandler key =>
      rw [ServiceMethod.accepts, ServiceMethod.accepts, built.relativeUrl]
  | filedParameterHandler key =>
      rw [ServiceMethod.accepts, ServiceMethod.accepts, built.hasBody]

/-- The builder of the address, where the link resolves. -/
theorem Built.urlBuilderOrNew_eq
    (built : Built newBuilder signature serviceMethod) :
    serviceMethod.urlBuilderOrNew newBuilder =
      ((build Url signature).relativeUrl.bind newBuilder).map
        fun link => ⟨link, serviceMethod.query⟩ := by
  cases present : serviceMethod.urlBuilder with
  | none =>
      simp [ServiceMethod.urlBuilderOrNew, ServiceMethod.query, present,
        built.relativeUrl]
  | some urlBuilder =>
      rw [built.link urlBuilder present]
      simp [ServiceMethod.urlBuilderOrNew, ServiceMethod.query, present]

theorem Built.of_urlBuilder
    (built : Built newBuilder signature serviceMethod)
    (urlBuilder : UrlBuilder Url)
    (resolved : (build Url signature).relativeUrl.bind newBuilder =
      some urlBuilder.link) :
    Built newBuilder signature
      { serviceMethod with urlBuilder := some urlBuilder } where
  relativeUrl := built.relativeUrl
  hasBody := built.hasBody
  parameterHandler := built.parameterHandler
  httpMethod := built.httpMethod
  formBuild := built.formBuild
  link := by
    intro other same
    rw [← Option.some.inj same]
    exact resolved

/-- A handler that is accepted adds one entry; any other ends the call. -/
theorem Built.apply_cases
    (built : Built newBuilder signature serviceMethod)
    (handler : ParameterHandler) (value : Text) :
    ((build Url signature).accepts newBuilder handler = true ∧
      ∃ applied, ServiceMethod.apply newBuilder handler serviceMethod value =
          some applied ∧
        Built newBuilder signature applied ∧
        applied.query = serviceMethod.query ++ queries [(handler, value)] ∧
        applied.form = serviceMethod.form ++ fields [(handler, value)]) ∨
    ((build Url signature).accepts newBuilder handler = false ∧
      ServiceMethod.apply newBuilder handler serviceMethod value = none) := by
  rw [← built.accepts_eq]
  cases handler with
  | queryParameterHandler key =>
      rw [ServiceMethod.accepts, built.relativeUrl, ServiceMethod.apply,
        ServiceMethod.addQueryParameter, built.urlBuilderOrNew_eq]
      cases resolved : (build Url signature).relativeUrl.bind newBuilder with
      | none => exact Or.inr ⟨rfl, rfl⟩
      | some link =>
          left
          refine ⟨rfl, _, rfl, ?_, ?_, ?_⟩
          · exact built.of_urlBuilder
              ⟨link, serviceMethod.query ++ [(key, value)]⟩ resolved
          · simp [ServiceMethod.query, queries]
          · simp [ServiceMethod.form, fields]
  | filedParameterHandler key =>
      have isBody := built.formBuild.trans built.hasBody.symm
      simp only [ServiceMethod.apply, ServiceMethod.addFiledParameter,
        ServiceMethod.accepts]
      cases present : serviceMethod.formBuild with
      | none =>
          right
          rw [present] at isBody
          exact ⟨isBody.symm, rfl⟩
      | some entries =>
          left
          rw [present] at isBody
          refine ⟨isBody.symm, _, rfl, ?_, ?_, ?_⟩
          · have some := built.formBuild
            rw [present] at some
            exact ⟨built.relativeUrl, built.hasBody, built.parameterHandler,
              built.httpMethod, some, built.link⟩
          · simp [ServiceMethod.query, queries]
          · simp [ServiceMethod.form, fields, present]

/-- The loop adds what it contributes to what was there. -/
theorem Built.applyAll
    (built : Built newBuilder signature serviceMethod)
    (handlers : List (Option ParameterHandler)) (args : List (Option Text)) :
    (serviceMethod.applyAll newBuilder handlers args).2 =
        (contributed ((build Url signature).accepts newBuilder)
          handlers args).2 ∧
      Built newBuilder signature
        (serviceMethod.applyAll newBuilder handlers args).1 ∧
      (serviceMethod.applyAll newBuilder handlers args).1.query =
        serviceMethod.query ++
          queries (contributed ((build Url signature).accepts newBuilder)
            handlers args).1 ∧
      (serviceMethod.applyAll newBuilder handlers args).1.form =
        serviceMethod.form ++
          fields (contributed ((build Url signature).accepts newBuilder)
            handlers args).1 := by
  induction handlers generalizing serviceMethod args with
  | nil =>
      simp [ServiceMethod.applyAll, contributed, queries, fields, built]
  | cons first handlers inductionHypothesis =>
      cases first with
      | none =>
          simp [ServiceMethod.applyAll, contributed, queries, fields, built]
      | some handler =>
          cases args with
          | nil =>
              simp [ServiceMethod.applyAll, contributed, queries, fields,
                built]
          | cons arg args =>
              cases arg with
              | none =>
                  simp [ServiceMethod.applyAll, contributed, queries, fields,
                    built]
              | some value =>
                  rcases built.apply_cases handler value with
                    ⟨accepted, applied, isApplied, builtApplied, query,
                      form⟩ | ⟨refused, failed⟩
                  · obtain ⟨through, builtRest, queryRest, formRest⟩ :=
                      inductionHypothesis builtApplied args
                    simp only [ServiceMethod.applyAll, isApplied, contributed,
                      accepted, ↓reduceIte]
                    refine ⟨through, builtRest, ?_, ?_⟩
                    · rw [queryRest, query, List.append_assoc, queries,
                        queries, queries, ← List.filterMap_append]
                      rfl
                    · rw [formRest, form, List.append_assoc, fields, fields,
                        fields, ← List.filterMap_append]
                      rfl
                  · simp [ServiceMethod.applyAll, failed, contributed,
                      refused, queries, fields, built]

/-! ## One call -/

section Call

variable (newBuilder) (signature)

/-- What a call with these arguments adds, and whether it goes through. -/
def contributionOf (args : List (Option Text)) :
    List (ParameterHandler × Text) × Bool :=
  contributed ((build Url signature).accepts newBuilder)
    (build Url signature).parameterHandler args

/-- A call that builds a request: every parameter is annotated and accepted,
no argument is null, the link resolves and the method is `GET` or `POST`. -/
def Answerable (args : List (Option Text)) : Prop :=
  (contributionOf newBuilder signature args).2 = true ∧
    (build Url signature).relativeUrl.bind newBuilder ≠ none ∧
    (build Url signature).httpMethod ≠ none

/-- The request of a call, after others that left these entries. -/
def requestAfter (query form : List (Text × Text))
    (args : List (Option Text)) : Except Failure (Request Url) :=
  match (contributionOf newBuilder signature args).2,
      (build Url signature).relativeUrl.bind newBuilder,
      (build Url signature).httpMethod with
  | true, some link, some method =>
      .ok ⟨⟨link, query ++ queries (contributionOf newBuilder signature
          args).1⟩, method,
        if (build Url signature).hasBody then
          some (form ++ fields (contributionOf newBuilder signature args).1)
        else none⟩
  | _, _, _ => .error .nullPointerException

end Call

theorem Built.formBuild_eq
    (built : Built newBuilder signature serviceMethod) :
    serviceMethod.formBuild =
      if (build Url signature).hasBody then some serviceMethod.form
      else none := by
  have isBody := built.formBuild
  rw [← isBody]
  cases present : serviceMethod.formBuild with
  | none => simp
  | some entries => simp [ServiceMethod.form, present]

theorem Built.invoke (built : Built newBuilder signature serviceMethod)
    (args : List (Option Text)) :
    (serviceMethod.invoke newBuilder args).2 =
        requestAfter newBuilder signature serviceMethod.query
          serviceMethod.form args ∧
      Built newBuilder signature (serviceMethod.invoke newBuilder args).1 ∧
      (serviceMethod.invoke newBuilder args).1.query =
        serviceMethod.query ++
          queries (contributionOf newBuilder signature args).1 ∧
      (serviceMethod.invoke newBuilder args).1.form =
        serviceMethod.form ++
          fields (contributionOf newBuilder signature args).1 := by
  have loop := built.applyAll serviceMethod.parameterHandler args
  rw [built.parameterHandler] at loop
  rw [contributionOf, requestAfter, contributionOf]
  rw [ServiceMethod.invoke, built.parameterHandler]
  rcases applying : serviceMethod.applyAll newBuilder
    (build Url signature).parameterHandler args with ⟨applied, through⟩
  rw [applying] at loop
  obtain ⟨sameEnd, builtApplied, query, form⟩ := loop
  simp only at sameEnd builtApplied query form
  rw [← sameEnd]
  cases through with
  | false => exact ⟨rfl, builtApplied, query, form⟩
  | true =>
      simp only
      rw [builtApplied.urlBuilderOrNew_eq]
      cases resolved : (build Url signature).relativeUrl.bind newBuilder with
      | none => exact ⟨rfl, builtApplied, query, form⟩
      | some link =>
          have builtLeft :=
            builtApplied.of_urlBuilder ⟨link, applied.query⟩ resolved
          simp only [Option.map_some]
          rw [← builtApplied.httpMethod]
          refine ⟨?_, ?_, ?_, ?_⟩
          · cases applied.httpMethod with
            | none => rfl
            | some method =>
                simp only
                rw [builtApplied.formBuild_eq, query, form]
          · split
            · exact builtLeft
            · exact builtLeft
          · cases applied.httpMethod with
            | none => exact query
            | some method => exact query
          · cases applied.httpMethod with
            | none => exact form
            | some method => exact form

end ServiceMethod

/-! ## A sequence of calls -/

section Calls

variable {Method Url : Type} [DecidableEq Method]
  (signature : Method → Signature) (newBuilder : Text → Option Url)

/-- The service method of a method, after some calls. -/
def loadedAfter (before : List (ProxyCall Method)) (method : Method) :
    ServiceMethod Url :=
  ((machine signature newBuilder).run (.new Method Url)
    before).loadServiceMethod signature method

/-- The answer to a call after some others. -/
def answer (before : List (ProxyCall Method)) (call : ProxyCall Method) :
    Except Failure (Request Url) :=
  ((loadedAfter signature newBuilder before call.method).invoke newBuilder
    call.args).2

/-- A call gets the request that a fresh retrofit builds for it, which has the
parameters and the fields of its own arguments. -/
structure Independent (before : List (ProxyCall Method))
    (call : ProxyCall Method) : Prop where
  same : answer signature newBuilder before call =
    answer signature newBuilder [] call
  exact : ∀ request,
    answer signature newBuilder before call = .ok request →
      request.url.added = queries (carried
        (build Url (signature call.method)).parameterHandler call.args) ∧
      request.body =
        if (build Url (signature call.method)).hasBody then
          some (fields (carried
            (build Url (signature call.method)).parameterHandler call.args))
        else none

/-- The earlier calls on the method added nothing, or the call builds no
request. -/
def Untouched (before : List (ProxyCall Method))
    (call : ProxyCall Method) : Prop :=
  (∀ earlier ∈ before, earlier.method = call.method →
    (contributionOf newBuilder (signature call.method) earlier.args).1 =
      []) ∨
  ¬ Answerable newBuilder (signature call.method) call.args

/-- What the calls on a method have added. -/
def addedBefore (before : List (ProxyCall Method)) (method : Method) :
    List (ParameterHandler × Text) :=
  before.flatMap fun earlier =>
    if earlier.method = method then
      (contributionOf newBuilder (signature method) earlier.args).1
    else []

variable {signature newBuilder}

theorem loadedAfter_concat (before : List (ProxyCall Method))
    (call : ProxyCall Method) (method : Method) :
    loadedAfter signature newBuilder (before ++ [call]) method =
      if call.method = method then
        ((loadedAfter signature newBuilder before call.method).invoke
          newBuilder call.args).1
      else loadedAfter signature newBuilder before method := by
  rw [loadedAfter, (machine signature newBuilder).run_concat]
  by_cases same : call.method = method
  · subst same
    simp [machine, MyRetrofit.loadServiceMethod, loadedAfter]
  · have other : ¬ method = call.method := fun equal => same equal.symm
    simp [machine, MyRetrofit.loadServiceMethod, loadedAfter, same,
      Function.update_of_ne other]

theorem queries_append (first second : List (ParameterHandler × Text)) :
    queries (first ++ second) = queries first ++ queries second :=
  List.filterMap_append

theorem fields_append (first second : List (ParameterHandler × Text)) :
    fields (first ++ second) = fields first ++ fields second :=
  List.filterMap_append

/-- The builders hold what the earlier calls on the method have added. -/
theorem loadedAfter_built (before : List (ProxyCall Method))
    (method : Method) :
    Built newBuilder (signature method)
        (loadedAfter signature newBuilder before method) ∧
      (loadedAfter signature newBuilder before method).query =
        queries (addedBefore signature newBuilder before method) ∧
      (loadedAfter signature newBuilder before method).form =
        fields (addedBefore signature newBuilder before method) := by
  induction before using List.reverseRecOn with
  | nil =>
      refine ⟨built_build newBuilder (signature method), rfl, ?_⟩
      show (build Url (signature method)).form = []
      rw [ServiceMethod.form, build]
      cases (parseMethod (signature method).methodAnnotations).2.2 <;> rfl
  | append_singleton before call inductionHypothesis =>
      obtain ⟨built, query, form⟩ := inductionHypothesis
      rw [loadedAfter_concat, addedBefore, List.flatMap_append,
        List.flatMap_singleton, queries_append, fields_append,
        ← addedBefore]
      by_cases same : call.method = method
      · subst same
        obtain ⟨_, builtLeft, queryLeft, formLeft⟩ := built.invoke call.args
        rw [if_pos rfl, if_pos rfl, queryLeft, formLeft, query, form]
        exact ⟨builtLeft, rfl, rfl⟩
      · rw [if_neg same, if_neg same]
        simpa [queries, fields] using ⟨built, query, form⟩

theorem answer_eq (before : List (ProxyCall Method))
    (call : ProxyCall Method) :
    answer signature newBuilder before call =
      requestAfter newBuilder (signature call.method)
        (queries (addedBefore signature newBuilder before call.method))
        (fields (addedBefore signature newBuilder before call.method))
        call.args := by
  obtain ⟨built, query, form⟩ :=
    @loadedAfter_built _ _ _ signature newBuilder before call.method
  rw [answer, (built.invoke call.args).1, query, form]

theorem requestAfter_of_not_answerable {signature : Signature}
    {args : List (Option Text)}
    (unanswerable : ¬ Answerable newBuilder signature args)
    (query form : List (Text × Text)) :
    requestAfter newBuilder signature query form args =
      .error .nullPointerException := by
  rw [requestAfter]
  split
  · rename_i through resolved named
    exact absurd ⟨through, by simp [resolved], by simp [named]⟩ unanswerable
  · rfl

theorem requestAfter_of_answerable {signature : Signature}
    {args : List (Option Text)}
    (answerable : Answerable newBuilder signature args) :
    ∃ link method, ∀ query form,
      requestAfter newBuilder signature query form args =
        .ok ⟨⟨link, query ++ queries
            (carried (build Url signature).parameterHandler args)⟩, method,
          if (build Url signature).hasBody then
            some (form ++ fields
              (carried (build Url signature).parameterHandler args))
          else none⟩ := by
  obtain ⟨through, resolved, named⟩ := answerable
  obtain ⟨link, isLink⟩ := Option.ne_none_iff_exists'.mp resolved
  obtain ⟨method, isMethod⟩ := Option.ne_none_iff_exists'.mp named
  refine ⟨link, method, ?_⟩
  intro query form
  have whole := contributed_eq_carried through
  rw [requestAfter, through, isLink, isMethod, ← whole]
  rfl

theorem accepts_of_mem_contributed {accepts : ParameterHandler → Bool}
    {handlers : List (Option ParameterHandler)} {args : List (Option Text)}
    {parameter : ParameterHandler × Text}
    (added : parameter ∈ (contributed accepts handlers args).1) :
    accepts parameter.1 = true := by
  induction handlers generalizing args with
  | nil => simp [contributed] at added
  | cons first handlers inductionHypothesis =>
      cases first with
      | none => simp [contributed] at added
      | some handler =>
          cases args with
          | nil => simp [contributed] at added
          | cons arg args =>
              cases arg with
              | none => simp [contributed] at added
              | some value =>
                  by_cases accepted : accepts handler = true
                  · simp only [contributed, accepted, ↓reduceIte,
                      List.mem_cons] at added
                    rcases added with rfl | inRest
                    · exact accepted
                    · exact inductionHypothesis inRest
                  · simp [contributed, accepted] at added

/-- Entries that show in neither list are none: a form field shows when there
is a body, and without one none is added. -/
theorem addedBefore_eq_nil {before : List (ProxyCall Method)}
    {method : Method}
    (noQuery : queries (addedBefore signature newBuilder before method) = [])
    (noField : (build Url (signature method)).hasBody = true →
      fields (addedBefore signature newBuilder before method) = []) :
    addedBefore signature newBuilder before method = [] := by
  apply List.eq_nil_iff_forall_not_mem.mpr
  rintro ⟨handler, value⟩ added
  cases handler with
  | queryParameterHandler key =>
      have shows : (key, value) ∈
          queries (addedBefore signature newBuilder before method) :=
        List.mem_filterMap.mpr ⟨_, added, rfl⟩
      rw [noQuery] at shows
      exact absurd shows List.not_mem_nil
  | filedParameterHandler key =>
      have shows : (key, value) ∈
          fields (addedBefore signature newBuilder before method) :=
        List.mem_filterMap.mpr ⟨_, added, rfl⟩
      have isBody : (build Url (signature method)).hasBody = true := by
        obtain ⟨earlier, _, contributes⟩ := List.mem_flatMap.mp added
        by_cases same : earlier.method = method
        · rw [if_pos same] at contributes
          exact accepts_of_mem_contributed contributes
        · rw [if_neg same] at contributes
          exact absurd contributes List.not_mem_nil
      rw [noField isBody] at shows
      exact absurd shows List.not_mem_nil

theorem addedBefore_eq_nil_iff {before : List (ProxyCall Method)}
    {method : Method} :
    addedBefore signature newBuilder before method = [] ↔
      ∀ earlier ∈ before, earlier.method = method →
        (contributionOf newBuilder (signature method) earlier.args).1 =
          [] := by
  rw [addedBefore, List.flatMap_eq_nil_iff]
  constructor
  · intro each earlier isEarlier same
    have atEarlier := each earlier isEarlier
    rwa [if_pos same] at atEarlier
  · intro each earlier isEarlier
    by_cases same : earlier.method = method
    · rw [if_pos same]
      exact each earlier isEarlier same
    · rw [if_neg same]

theorem independent_iff_untouched (before : List (ProxyCall Method))
    (call : ProxyCall Method) :
    Independent signature newBuilder before call ↔
      Untouched signature newBuilder before call := by
  rw [Untouched, ← addedBefore_eq_nil_iff]
  by_cases answerable : Answerable newBuilder (signature call.method)
      call.args
  · obtain ⟨link, method, request⟩ := requestAfter_of_answerable answerable
    have fresh : answer signature newBuilder [] call = _ :=
      (answer_eq [] call).trans (request _ _)
    have later : answer signature newBuilder before call = _ :=
      (answer_eq before call).trans (request _ _)
    constructor
    · intro independent
      have same := independent.same
      rw [fresh, later] at same
      have requests := Except.ok.inj same
      have added := congrArg (fun request => request.url.added) requests
      have body := congrArg Request.body requests
      have noQuery :
          queries (addedBefore signature newBuilder before call.method) =
            [] :=
        List.append_cancel_right added
      refine Or.inl (addedBefore_eq_nil noQuery ?_)
      intro isBody
      simp only [isBody, ↓reduceIte, Option.some.injEq] at body
      exact List.append_cancel_right body
    · rintro (nothing | unanswerable)
      · rw [nothing] at later
        refine ⟨later.trans fresh.symm, ?_⟩
        intro built isBuilt
        rw [later] at isBuilt
        rw [← Except.ok.inj isBuilt]
        exact ⟨rfl, rfl⟩
      · exact absurd answerable unanswerable
  · have fails : ∀ earlier, answer signature newBuilder earlier call =
        .error .nullPointerException := by
      intro earlier
      rw [answer_eq]
      exact requestAfter_of_not_answerable answerable _ _
    constructor
    · intro _
      exact Or.inr answerable
    · intro _
      refine ⟨(fails before).trans (fails []).symm, ?_⟩
      intro request isRequest
      rw [fails before] at isRequest
      exact absurd isRequest (by simp)

/-- Every call of a sequence is independent of the earlier ones if and only if
the earlier ones on its method added nothing, or it builds no request. -/
theorem calls_independent_iff_untouched (signature : Method → Signature)
    (newBuilder : Text → Option Url) (calls : List (ProxyCall Method)) :
    AtEvery (Independent signature newBuilder) calls ↔
      AtEvery (Untouched signature newBuilder) calls := by
  constructor
  · intro independent
    exact independent.mono fun before call =>
      (independent_iff_untouched before call).mp
  · intro untouched
    exact untouched.mono fun before call =>
      (independent_iff_untouched before call).mpr

end Calls

/-- `getNewsList(@Query("key") String, @Query("type") String)`. -/
def getNewsList : Signature where
  methodAnnotations := [.get "toutiao/index".toList]
  parameterAnnotations :=
    [[.query "key".toList], [.query "type".toList]]

def newsCall (channelId : Text) : ProxyCall Unit :=
  ⟨(), [some "k".toList, some channelId]⟩

/-- The second list of news is asked for with the first channel, too. -/
theorem second_call_carries_first :
    ¬ AtEvery (Independent (fun _ => getNewsList) some)
      [newsCall "top".toList, newsCall "sport".toList] := by
  intro independent
  have same := (independent [newsCall "top".toList]
    (newsCall "sport".toList) [] rfl).same
  exact absurd same (by decide)

end DripStone.Retrofit
