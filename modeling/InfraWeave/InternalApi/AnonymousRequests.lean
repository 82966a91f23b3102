import InfraWeave.InternalApi.Router

/-!
# Requests without an identity

A request without the headers of a user should come to nothing but the catalogue of modules, stacks,
providers and policies, and the token bridge.
-/

namespace InfraWeave
namespace InternalApi

open EnvAwsDirect Program Text

structure Anonymous (request : HttpRequest) : Prop where
  user : request.headers.get "x-auth-user" = none
  claims : request.headers.get "x-infraweave-verified-claims" = none

/-- A table of the catalogue. -/
def isCatalogueTable (table : String) : Bool :=
  toLowercase table = "modules" || toLowercase table = "policies"

/-- A read of the catalogue, or a request to the identity provider.  Whoever is given a signed URL
reads the object. -/
def Public (env : FunctionEnv) : ProviderOp → Prop
  | .readDb table _ _ => isCatalogueTable table = true
  | .getObject bucket _ => env.bucketName "modules" = .ok bucket
  | .presignGet bucket _ => env.bucketName "modules" = .ok bucket
  | .identityProvider _ => True
  | _ => False

/-- Whatever the calls are answered, only public operations are called. -/
def Harmless (api : RouterApi) (request : HttpRequest) : Prop :=
  (router api request).Within (Public api.env)

/-- The step of an event calls public operations only. -/
def PublicStep (env : FunctionEnv) : Step → Prop
  | .answered _ => True
  | .call op _ _ => Public env op
  | .copy _ _ _ => False

/-- An event that is sent to the route of the functions asks for public operations only. -/
def PublicEvent (api : RouterApi) (request : HttpRequest) : Prop :=
  ∀ params payload step,
    api.matchRoute request.method request.path = some (.anyone .lambdaInvocation, params) →
    api.readJson request.headers request.body = .ok payload →
    eventStep api.env api.projectId api.region payload = .ok step → PublicStep api.env step

section

variable {api : RouterApi} {request : HttpRequest} {params : Params}

theorem view_of_anonymous (h : Anonymous request) :
    request.headers.view.xAuthUser = none ∧
      request.headers.view.xInfraweaveVerifiedClaims = none := by
  unfold HeaderMap.view HeaderMap.text
  rw [h.user, h.claims]
  exact ⟨rfl, rfl⟩

/-! ## Operations of the catalogue -/

theorem within_extracting {α : Type} {allowed : ProviderOp → Prop} {x : Except Response α}
    {next : α → Effects Response} (h : ∀ a, x = .ok a → (next a).Within allowed) :
    (extracting x next).Within allowed := by
  cases x with
  | ok a => exact h a rfl
  | error response => exact within_done _

theorem within_withParams {α : Type} {allowed : ProviderOp → Prop} {read : Except String α}
    {next : α → Effects (Except String Json)} (h : ∀ a, read = .ok a → (next a).Within allowed) :
    (withParams read next).Within allowed := by
  cases read with
  | ok a => exact h a rfl
  | error e => exact within_done _

theorem within_queryAll {container : String} (hcatalogue : isCatalogueTable container = true)
    (query : Query) (payload : Json) :
    (queryAll api container query payload).Within (Public api.env) :=
  within_call_iff.2 ⟨hcatalogue, fun _ => within_done _⟩

theorem within_queryOne {env : FunctionEnv} {container : String}
    (hcatalogue : isCatalogueTable container = true) (query : Query) (notFound : String) :
    (queryOne container query notFound).Within (Public env) :=
  within_call_iff.2 ⟨hcatalogue, fun _ => within_done _⟩

theorem within_resultResponse {allowed : ProviderOp → Prop}
    {handler : Effects (Except String Json)} (h : handler.Within allowed) :
    (resultResponse handler).Within allowed :=
  within_bind h fun _ => within_done _

theorem within_downloadResponse {allowed : ProviderOp → Prop}
    {handler : Effects (Except String Json)} (h : handler.Within allowed) :
    (downloadResponse handler).Within allowed := by
  refine within_bind h fun result => ?_
  cases result with
  | ok content => exact within_done _
  | error e => exact within_done _

/-- The object of a record is read from the bucket of the modules. -/
theorem within_downloadOf {noun : String} {version : Effects (Except String Json)}
    (h : version.Within (Public api.env)) :
    (downloadOf api noun version).Within (Public api.env) := by
  refine within_bind h fun record => within_withParams fun object hobject => ?_
  refine within_call_iff.2 ⟨?_, fun _ => within_done _⟩
  cases record with
  | error e => cases hobject
  | ok record =>
      simp only [Except.bind] at hobject
      cases hkey : (record.get? "s3_key").bind Json.asStr with
      | none =>
          rw [hkey] at hobject
          cases hobject
      | some s3Key =>
          rw [hkey] at hobject
          cases hbucket : api.env.bucketName "modules" with
          | error e =>
              rw [hbucket] at hobject
              cases hobject
          | ok bucket =>
              rw [hbucket] at hobject
              rw [← Except.ok.inj hobject]
              exact hbucket

theorem isCatalogueTable_modules : isCatalogueTable "modules" = true := by
  decide +kernel

theorem isCatalogueTable_policies : isCatalogueTable "policies" = true := by
  decide +kernel

/-! ## Open routes -/

theorem within_handleAuthToken (body : Json) :
    (handleAuthToken api body).Within (Public api.env) := by
  have htoken : ∀ request failed, (tokenResponse request failed).Within (Public api.env) := by
    intro request failed
    refine within_call_iff.2 ⟨trivial, fun answer => ?_⟩
    cases answer with
    | ok response => exact within_done _
    | error e => exact within_done _
  unfold handleAuthToken
  cases optionalText body "code" with
  | some code => exact htoken _ _
  | none =>
      dsimp only
      by_cases hrefresh : optionalText body "grant_type" = some "refresh_token"
      · rw [if_pos hrefresh]
        cases optionalText body "refresh_token" with
        | none => exact within_done _
        | some refreshToken => exact htoken _ _
      · rw [if_neg hrefresh]
        exact htoken _ _

theorem within_getProjects (h : Anonymous request) :
    (getProjects api request).Within (Public api.env) := by
  unfold getProjects
  refine within_extracting fun query _ => ?_
  simp only [(view_of_anonymous h).1]
  exact within_done _

/-- Every open route but that of the functions is public. -/
theorem within_openHandler (h : Anonymous request) {route : OpenRoute}
    (hroute : route ≠ .lambdaInvocation) :
    (openHandler api route request params).Within (Public api.env) := by
  have hall := @within_queryAll api "modules" isCatalogueTable_modules
  have hpolicies := @within_queryAll api "policies" isCatalogueTable_policies
  have hone := @within_queryOne api.env "modules" isCatalogueTable_modules
  have hmodule : (getModuleVersionImpl api (modulePayload params)).Within (Public api.env) :=
    within_withParams fun _ _ => hone _ _
  have hstack : (getStackVersionImpl api (stackPayload params)).Within (Public api.env) :=
    within_withParams fun _ _ => hone _ _
  have hprovider : (getProviderVersionImpl api (providerPayload params)).Within (Public api.env) :=
    within_withParams fun _ _ => hone _ _
  cases route with
  | lambdaInvocation => exact absurd rfl hroute
  | authToken => exact within_extracting fun body _ => within_handleAuthToken body
  | metaInfo => exact within_done _
  | moduleList => exact within_extracting fun _ _ => within_resultResponse (hall _ _)
  | projectList => exact within_getProjects h
  | stackList => exact within_extracting fun _ _ => within_resultResponse (hall _ _)
  | providerList => exact within_extracting fun _ _ => within_resultResponse (hall _ _)
  | moduleVersion => exact within_resultResponse hmodule
  | moduleDownload => exact within_downloadResponse (within_downloadOf hmodule)
  | stackVersion => exact within_resultResponse hstack
  | stackDownload => exact within_downloadResponse (within_downloadOf hstack)
  | moduleVersions =>
      exact within_extracting fun _ _ =>
        within_resultResponse (within_withParams fun _ _ => hall _ _)
  | stackVersions =>
      exact within_extracting fun _ _ =>
        within_resultResponse (within_withParams fun _ _ => hall _ _)
  | providerVersion => exact within_resultResponse hprovider
  | providerDownload => exact within_downloadResponse (within_downloadOf hprovider)
  | policyList =>
      exact within_extracting fun _ _ =>
        within_resultResponse (within_withParams fun _ _ => hpolicies _ _)
  | policyVersion =>
      exact within_resultResponse (within_withParams fun _ _ =>
        within_queryOne isCatalogueTable_policies _ _)

/-! ## Guarded routes -/

theorem within_protectedRoute (h : Anonymous request) (route : ProtectedRoute) :
    (protectedRoute api route request params).Within (Public api.env) := by
  refine within_extracting fun u hok => ?_
  obtain ⟨_, huser, -⟩ := bind_eq_ok_iff.1 hok
  unfold ensureAuthenticatedUser at huser
  rw [(view_of_anonymous h).1] at huser
  cases huser

theorem within_publishRoute (h : Anonymous request) (route : PublishRoute) :
    (publishRoute api route request params).Within (Public api.env) := by
  refine within_extracting fun body _ => within_extracting fun subject _ => ?_
  obtain ⟨resourceType, name, track⟩ := subject
  refine within_extracting fun u hok => ?_
  have hnone : extractVerifiedClaims api.auth.codec request.headers.view = none := by
    unfold extractVerifiedClaims
    rw [(view_of_anonymous h).2]
    rfl
  unfold ensurePublishAccess at hok
  simp only [hnone] at hok
  cases hok

/-! ## The route of the functions -/

theorem within_run_iff {step : Step} :
    step.run.Within (Public api.env) ↔ PublicStep api.env step := by
  unfold Program.Within
  simp only [mayCall_run_iff]
  cases step with
  | answered response => exact iff_of_true (fun _ h => absurd h id) trivial
  | call op failure respond =>
      refine ⟨fun h => h op rfl, fun h op' hop => ?_⟩
      rw [show op' = op from hop]
      exact h
  | copy url bucket key => exact iff_of_false (fun h => h (.fetch url) (Or.inl rfl)) id

theorem within_handleLambdaInvocation_iff {payload : Json} :
    (handleLambdaInvocation api payload).Within (Public api.env) ↔
      ∀ step, eventStep api.env api.projectId api.region payload = .ok step →
        PublicStep api.env step := by
  have hhandler : (handleLambdaInvocation api payload).Within (Public api.env) ↔
      (runFunction api.env api.projectId api.region payload).Within (Public api.env) := by
    refine ⟨within_of_bind, fun h => within_bind h fun result => ?_⟩
    cases result with
    | ok response => exact within_done _
    | error e => exact within_done _
  rw [hhandler]
  unfold runFunction
  cases heq : eventStep api.env api.projectId api.region payload with
  | error e => exact iff_of_true (within_done _) fun step h => by cases h
  | ok step =>
      refine within_run_iff.trans ⟨fun h step' hstep => ?_, fun h => h step rfl⟩
      rw [← Except.ok.inj hstep]
      exact h

/-- An anonymous request is harmless if and only if it does not bring the route of the functions an
event that asks for more than the catalogue. -/
theorem harmless_iff_publicEvent (api : RouterApi) (request : HttpRequest)
    (h : Anonymous request) : Harmless api request ↔ PublicEvent api request := by
  unfold Harmless router
  cases hmatch : api.matchRoute request.method request.path with
  | none =>
      refine iff_of_true (within_done _) fun params payload step hroute => ?_
      cases hmatch.symm.trans hroute
  | some matched =>
      obtain ⟨route, params⟩ := matched
      have hother : route ≠ .anyone .lambdaInvocation → PublicEvent api request := by
        intro hne params' payload step hroute
        exact absurd (congrArg Prod.fst (Option.some.inj (hmatch.symm.trans hroute))) hne
      cases route with
      | guarded route => exact iff_of_true (within_protectedRoute h route) (hother (by simp))
      | publishing route => exact iff_of_true (within_publishRoute h route) (hother (by simp))
      | anyone route =>
          by_cases hroute : route = .lambdaInvocation
          · subst hroute
            constructor
            · intro hwithin params' payload step _ hread hstep
              have hhandler : (handleLambdaInvocation api payload).Within (Public api.env) := by
                simpa [openHandler, hread, extracting] using hwithin
              exact within_handleLambdaInvocation_iff.1 hhandler step hstep
            · intro hevent
              refine within_extracting fun payload hread => ?_
              exact within_handleLambdaInvocation_iff.2 fun step hstep =>
                hevent params payload step hmatch hread hstep
          · exact iff_of_true (within_openHandler h hroute) (hother fun heq =>
              hroute (Route.anyone.inj heq))

end

/-! ## Two anonymous requests -/

/-- The text `{"event":"insert_db","table":"deployments","data":{"PK":"DEPLOYMENT#1"}}`. -/
def insertEvent : Json :=
  .ofFields [("event", .string "insert_db"), ("table", .string "deployments"),
    ("data", .ofFields [("PK", .string "DEPLOYMENT#1")])]

/-- A router with the routes of this section, that reads every body as the same event. -/
def smallApi : RouterApi where
  auth := { codec := ⟨fun _ => none, fun _ => none⟩, allowedProjectsClaimKey := "allowed_projects" }
  checkPublish := fun _ _ _ _ => false
  env :=
    { testMode := false
      dynamodbEndpoint := none
      s3Endpoint := none
      bucketName := fun kind => .ok kind
      bucketNameForRegion := fun kind _ => .ok kind
      decodeBase64 := fun _ => .ok ()
      jsonText := fun _ => "" }
  projectId := "123456789012"
  region := "us-west-2"
  queries :=
    ⟨fun _ _ _ => [], fun _ _ _ => [], [], [], fun _ => [], fun _ _ _ => [], fun _ _ _ => [],
      fun _ _ _ => [], fun _ _ => [], fun _ _ _ _ => [], fun _ _ _ _ => []⟩
  metaInfo := .null
  refreshStatus := fun _ => 500
  matchRoute := fun method path =>
    if method = "POST" ∧ path = "/2015-03-31/functions/api/invocations" then
      some (.anyone .lambdaInvocation, [("function_name", "api")])
    else if method = "GET" ∧ path = "/api/v1/modules" then some (.anyone .moduleList, [])
    else none
  readJson := fun _ _ => .ok insertEvent
  protectedHandler := fun _ _ _ => .done (errorResponse 500 "")
  publishHandler := fun _ _ _ => .done (errorResponse 500 "")

def listModules : HttpRequest where
  method := "GET"
  path := "/api/v1/modules"
  query := []
  headers := .empty
  body := ""

theorem harmless_listModules : Harmless smallApi listModules := by
  refine (harmless_iff_publicEvent smallApi listModules ⟨rfl, rfl⟩).2 fun params payload step h => ?_
  have hroute : smallApi.matchRoute "GET" "/api/v1/modules" = some (.anyone .moduleList, []) := rfl
  have hne : Route.anyone .moduleList = .anyone .lambdaInvocation :=
    congrArg Prod.fst (Option.some.inj (hroute.symm.trans h))
  exact absurd (Route.anyone.inj hne) (by decide)

def insertRequest : HttpRequest where
  method := "POST"
  path := "/2015-03-31/functions/api/invocations"
  query := []
  headers := .empty
  body := "\x7b\"event\":\"insert_db\",\"table\":\"deployments\",\"data\":" ++
    "\x7b\"PK\":\"DEPLOYMENT#1\"\x7d\x7d"

/-- A row of the table of the deployments is written for a request without headers. -/
theorem insertRequest_not_harmless :
    Anonymous insertRequest ∧
      (router smallApi insertRequest).MayCall
        (.insertDb "deployments" (.ofFields [("PK", .string "DEPLOYMENT#1")]) (some "us-west-2")) ∧
      ¬ Harmless smallApi insertRequest := by
  have hcall : (router smallApi insertRequest).MayCall
      (.insertDb "deployments" (.ofFields [("PK", .string "DEPLOYMENT#1")]) (some "us-west-2")) := by
    have hrouter : router smallApi insertRequest = handleLambdaInvocation smallApi insertEvent := rfl
    rw [hrouter]
    refine mayCall_bind_left ((mayCall_runFunction_iff _ _ _).2 ⟨_, rfl, ?_⟩)
    exact rfl
  exact ⟨⟨rfl, rfl⟩, hcall, fun h => h _ hcall⟩

end InternalApi
end InfraWeave
