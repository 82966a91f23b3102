import InfraWeave.EnvAwsDirect.Events
import InfraWeave.InternalApi.EntryPoints

/-!
# The router

`create_router` merges three groups of routes.  The protected ones are behind `authMiddleware`, the
publishing ones ask for access once their body is read, the others are open.  What the guarded
handlers do is not part of this module; the open ones are programs over the operations of the
provider.
-/

namespace InfraWeave
namespace InternalApi

open EnvAwsDirect

/-! ## Routes -/

inductive OpenRoute where
  | lambdaInvocation
  | authToken
  | metaInfo
  | moduleList
  | projectList
  | stackList
  | providerList
  | moduleVersion
  | moduleDownload
  | stackVersion
  | stackDownload
  | moduleVersions
  | stackVersions
  | providerVersion
  | providerDownload
  | policyList
  | policyVersion
  deriving DecidableEq

inductive ProtectedRoute where
  | project (route : ProjectRoute)
  | providerContent
  | apply
  | plan
  | destroy
  | reapply

inductive PublishRoute where
  | deprecateModule
  | deprecateStack
  | publishModule
  | publishStack
  | publishProvider
  | publishPolicy

inductive Route where
  | anyone (route : OpenRoute)
  | guarded (route : ProtectedRoute)
  | publishing (route : PublishRoute)

structure HttpRequest where
  method : String
  path : String
  query : Params
  headers : HeaderMap
  body : String

/-- The query builders of the open routes. -/
structure PublicQueries where
  getAllLatestModulesQuery : String → Bool → Bool → Query
  getAllLatestStacksQuery : String → Bool → Bool → Query
  getAllLatestProvidersQuery : Query
  getAllProjectsQuery : Query
  getAllPoliciesQuery : String → Query
  getPolicyQuery : String → String → String → Query
  getModuleVersionQuery : String → String → String → Query
  getStackVersionQuery : String → String → String → Query
  getProviderVersionQuery : String → String → Query
  getAllModuleVersionsQuery : String → String → Bool → Bool → Query
  getAllStackVersionsQuery : String → String → Bool → Bool → Query

structure RouterApi where
  auth : AuthConfig
  checkPublish : Json → String → String → Option String → Bool
  env : FunctionEnv
  projectId : String
  region : String
  queries : PublicQueries
  /-- The region, the service and its version. -/
  metaInfo : Json
  /-- The status of the identity provider that the error of a refresh carries. -/
  refreshStatus : String → Nat
  /-- The route of a method and a path, with the parameters of its pattern. -/
  matchRoute : String → String → Option (Route × Params)
  readJson : HeaderMap → String → Except Response Json
  protectedHandler : ProtectedRoute → HttpRequest → Params → Effects Response
  publishHandler : PublishRoute → Params → Json → Effects Response

/-! ## Open routes -/

def pathParam (params : Params) (name : String) : String :=
  (params.lookup name).getD ""

/-- The fields of a payload that come from the path. -/
def pathPayload (params : Params) (fields : List (String × String)) : Json :=
  .ofFields (fields.map fun (field, name) => (field, .string (pathParam params name)))

structure ModulePaginationQuery extends PaginationQuery where
  includeDeprecated : Option Bool
  includeDev000 : Option Bool

def optionalBool (query : Params) (name : String) : Except Response (Option Bool) := do
  match ← optionalField query name with
  | none => .ok none
  | some text =>
      if text = "true" then .ok (some true)
      else if text = "false" then .ok (some false)
      else .error queryRejection

def modulePaginationQuery (query : Params) : Except Response ModulePaginationQuery := do
  let pagination ← paginationQuery query
  let includeDeprecated ← optionalBool query "include_deprecated"
  let includeDev000 ← optionalBool query "include_dev000"
  return { toPaginationQuery := pagination, includeDeprecated, includeDev000 }

def addBool (name : String) (value : Option Bool) (payload : Json) : Json :=
  match value with
  | some b => payload.set name (.bool b)
  | none => payload

def ModulePaginationQuery.addTo (query : ModulePaginationQuery) (payload : Json) : Json :=
  addBool "include_dev000" query.includeDev000
    (addBool "include_deprecated" query.includeDeprecated (query.toPaginationQuery.addTo payload))

def boolField (payload : Json) (name : String) (default : Bool) : Bool :=
  ((payload.get? name).bind Json.asBool).getD default

section

variable (api : RouterApi)

def queryAll (container : String) (query : Query) (payload : Json) : Effects (Except String Json) :=
  .call (.readDb container (.object (pageQuery api.auth.codec query payload))
    ((payload.get? "region").bind Json.asStr)) .done

/-- The first item of a query; every error is that there is none. -/
def queryOne (container : String) (query : Query) (notFound : String) :
    Effects (Except String Json) :=
  .call (.readDb container (.object query) none) fun response =>
    .done ((response.bind firstItem).mapError fun _ => notFound)

/-- A handler that needs parameters of its payload. -/
def withParams {α : Type} (read : Except String α) (next : α → Effects (Except String Json)) :
    Effects (Except String Json) :=
  match read with
  | .ok a => next a
  | .error e => .done (.error e)

def getParams₂ (payload : Json) (a b : String) : Except String (String × String) := do
  let x ← getParam payload a
  let y ← getParam payload b
  return (x, y)

def getParams₃ (payload : Json) (a b c : String) : Except String (String × String × String) := do
  let x ← getParam payload a
  let (y, z) ← getParams₂ payload b c
  return (x, y, z)

def getModulesImpl (payload : Json) : Effects (Except String Json) :=
  queryAll api "modules" (api.queries.getAllLatestModulesQuery ""
    (boolField payload "include_deprecated" false) (boolField payload "include_dev000" true)) payload

def getStacksImpl (payload : Json) : Effects (Except String Json) :=
  queryAll api "modules" (api.queries.getAllLatestStacksQuery ""
    (boolField payload "include_deprecated" false) (boolField payload "include_dev000" true)) payload

def getProvidersImpl (payload : Json) : Effects (Except String Json) :=
  queryAll api "modules" api.queries.getAllLatestProvidersQuery payload

def getPoliciesImpl (payload : Json) : Effects (Except String Json) :=
  withParams (getParam payload "environment") fun environment =>
    queryAll api "policies" (api.queries.getAllPoliciesQuery environment) payload

def getPolicyVersionImpl (payload : Json) : Effects (Except String Json) :=
  withParams (getParams₃ payload "policy_name" "environment" "policy_version")
    fun (name, environment, version) =>
      queryOne "policies" (api.queries.getPolicyQuery name environment version) "Policy not found"

def getModuleVersionImpl (payload : Json) : Effects (Except String Json) :=
  withParams (getParams₃ payload "module_name" "track" "module_version")
    fun (name, track, version) =>
      queryOne "modules" (api.queries.getModuleVersionQuery name track version) "Module not found"

def getStackVersionImpl (payload : Json) : Effects (Except String Json) :=
  withParams (getParams₃ payload "stack_name" "track" "stack_version")
    fun (name, track, version) =>
      queryOne "modules" (api.queries.getStackVersionQuery name track version) "Stack not found"

def getProviderVersionImpl (payload : Json) : Effects (Except String Json) :=
  withParams (getParams₂ payload "provider" "version") fun (provider, version) =>
    queryOne "modules" (api.queries.getProviderVersionQuery provider version) "Provider not found"

def getAllVersionsForModuleImpl (payload : Json) : Effects (Except String Json) :=
  withParams (getParams₂ payload "module" "track") fun (module, track) =>
    queryAll api "modules" (api.queries.getAllModuleVersionsQuery module track
      (boolField payload "include_deprecated" false) (boolField payload "include_dev000" true))
      payload

def getAllVersionsForStackImpl (payload : Json) : Effects (Except String Json) :=
  withParams (getParams₂ payload "stack" "track") fun (stack, track) =>
    queryAll api "modules" (api.queries.getAllStackVersionsQuery stack track
      (boolField payload "include_deprecated" false) (boolField payload "include_dev000" true))
      payload

/-- The object of a record; those of stacks and providers are in the bucket of the modules too. -/
def downloadOf (noun : String) (version : Effects (Except String Json)) :
    Effects (Except String Json) :=
  version >>= fun record =>
    withParams (record.bind fun record =>
      match (record.get? "s3_key").bind Json.asStr with
      | some s3Key => (api.env.bucketName "modules").map fun bucket => (bucket, s3Key)
      | none => .error (noun ++ " has no s3_key")) fun (bucket, s3Key) =>
        .call (.getObject bucket s3Key) .done

/-- The projects of the configuration, as far as they are allowed. -/
def keepAllowed (payload result : Json) : Json :=
  match payload.get? "allowed_projects", payload.get? "user_id" with
  | none, none => result
  | allowed, _ =>
      let allowed := ((allowed.bind Json.asArray).getD []).filterMap Json.asStr
      match (result.get? "Items").bind Json.asArray with
      | some items =>
          result.set "Items" (.array (items.filter fun item =>
            allowed.contains (((item.get? "project" <|> item.get? "project_id").bind
              Json.asStr).getD "")))
      | none => result

def getProjectsImpl (payload : Json) : Effects (Except String Json) :=
  queryAll api "config" api.queries.getAllProjectsQuery payload >>= fun result =>
    .done (result.map (keepAllowed payload))

def resultResponse (handler : Effects (Except String Json)) : Effects Response :=
  handler >>= fun result => .done (handleResult result)

/-- The handlers of downloads answer their errors themselves. -/
def downloadResponse (handler : Effects (Except String Json)) : Effects Response :=
  handler >>= fun
    | .ok content => .done { status := 200, nextToken := none, body := content }
    | .error e => .done (errorResponse 500 e)

/-- An extractor that fails answers the request. -/
def extracting {α : Type} (x : Except Response α) (next : α → Effects Response) :
    Effects Response :=
  match x with
  | .ok a => next a
  | .error response => .done response

/-- The projects are those of the user, of whom there has to be one. -/
def getProjects (request : HttpRequest) : Effects Response :=
  extracting (paginationQuery request.query) fun query =>
    let headers := request.headers.view
    match headers.xAuthUser with
    | none => .done (errorResponse 401 "Missing authentication user context")
    | some userId =>
        let payload : Json := .object [("user_id", .string userId)]
        let payload :=
          match ((extractJwtClaims api.auth.codec headers).bind
              (·.get? api.auth.allowedProjectsClaimKey)).bind Json.asStr with
          | some allowedProjectsStr =>
              match parseAllowedProjects allowedProjectsStr with
              | [] => payload
              | projects => payload.set "allowed_projects" (.array (projects.map .string))
          | none => payload
        resultResponse (getProjectsImpl api (query.addTo payload))

def optionalText (body : Json) (name : String) : Option String :=
  (body.get? name).bind Json.asStr

def tokenResponse (request : TokenRequest) (failed : String → Response) : Effects Response :=
  .call (.identityProvider request) fun
    | .ok response => .done { status := 200, nextToken := none, body := response }
    | .error e => .done (failed e)

/-- A failed refresh keeps the status of the identity provider. -/
def refreshFailure (status : Nat) (message : String) : Response where
  status := status
  nextToken := none
  body := .object [("error", .string message), ("success", .bool false)]

def handleAuthToken (body : Json) : Effects Response :=
  match optionalText body "code" with
  | some code =>
      tokenResponse (.exchangeCode code (optionalText body "redirect_uri")
        (optionalText body "code_verifier")) fun e =>
          errorResponse 400 ("Failed to exchange code for tokens: " ++ e)
  | none =>
      if optionalText body "grant_type" = some "refresh_token" then
        match optionalText body "refresh_token" with
        | none => .done (refreshFailure 400 "Missing refresh_token field")
        | some refreshToken =>
            tokenResponse (.refresh refreshToken) fun e =>
              refreshFailure (api.refreshStatus e) ("Failed to refresh tokens: " ++ e)
      else
        tokenResponse (.signInUrl (optionalText body "redirect_uri")
          (optionalText body "code_challenge") (optionalText body "code_challenge_method")) fun e =>
            errorResponse 500 ("Failed to generate sign-in URL: " ++ e)

def handleLambdaInvocation (payload : Json) : Effects Response :=
  runFunction api.env api.projectId api.region payload >>= fun
    | .ok response => .done { status := 200, nextToken := none, body := response }
    | .error e => .done (errorResponse 500 e)

/-- The payload of a list of modules or stacks. -/
def withModulePagination (request : HttpRequest) (payload : Json)
    (handler : Json → Effects (Except String Json)) : Effects Response :=
  extracting (modulePaginationQuery request.query) fun query =>
    resultResponse (handler (query.addTo payload))

def withPagination (request : HttpRequest) (payload : Json)
    (handler : Json → Effects (Except String Json)) : Effects Response :=
  extracting (paginationQuery request.query) fun query =>
    resultResponse (handler (query.addTo payload))

def modulePayload (params : Params) : Json :=
  pathPayload params [("track", "track"), ("module_name", "module_name"),
    ("module_version", "module_version")]

def stackPayload (params : Params) : Json :=
  pathPayload params [("track", "track"), ("stack_name", "stack_name"),
    ("stack_version", "stack_version")]

def providerPayload (params : Params) : Json :=
  pathPayload params [("track", "track"), ("provider", "provider"), ("version", "version")]

def openHandler (route : OpenRoute) (request : HttpRequest) (params : Params) : Effects Response :=
  match route with
  | .lambdaInvocation =>
      extracting (api.readJson request.headers request.body) (handleLambdaInvocation api)
  | .authToken => extracting (api.readJson request.headers request.body) (handleAuthToken api)
  | .metaInfo => .done { status := 200, nextToken := none, body := api.metaInfo }
  | .moduleList => withModulePagination request (.object []) (getModulesImpl api)
  | .projectList => getProjects api request
  | .stackList => withModulePagination request (.object []) (getStacksImpl api)
  | .providerList => withPagination request (.object []) (getProvidersImpl api)
  | .moduleVersion => resultResponse (getModuleVersionImpl api (modulePayload params))
  | .moduleDownload =>
      downloadResponse (downloadOf api "Module" (getModuleVersionImpl api (modulePayload params)))
  | .stackVersion => resultResponse (getStackVersionImpl api (stackPayload params))
  | .stackDownload =>
      downloadResponse (downloadOf api "Stack" (getStackVersionImpl api (stackPayload params)))
  | .moduleVersions =>
      withModulePagination request (pathPayload params [("track", "track"), ("module", "module")])
        (getAllVersionsForModuleImpl api)
  | .stackVersions =>
      withModulePagination request (pathPayload params [("track", "track"), ("stack", "stack")])
        (getAllVersionsForStackImpl api)
  | .providerVersion => resultResponse (getProviderVersionImpl api (providerPayload params))
  | .providerDownload =>
      downloadResponse
        (downloadOf api "Provider" (getProviderVersionImpl api (providerPayload params)))
  | .policyList =>
      withPagination request (pathPayload params [("environment", "environment")])
        (getPoliciesImpl api)
  | .policyVersion =>
      resultResponse (getPolicyVersionImpl api (pathPayload params
        [("environment", "environment"), ("policy_name", "policy_name"),
         ("policy_version", "policy_version")]))

/-! ## Guarded routes -/

/-- Only the routes of one project have it in their path. -/
def protectedRoute (route : ProtectedRoute) (request : HttpRequest) (params : Params) :
    Effects Response :=
  extracting (authMiddleware api.auth request.headers.view (params.lookup "project")) fun _ =>
    api.protectedHandler route request params

/-- What axum answers when a JSON body does not deserialize. -/
def jsonRejection : Response :=
  { status := 422, nextToken := none,
    body := .string "Failed to deserialize the JSON body into the target type" }

def PublishError.response : PublishError → Response
  | .refused response => response
  | .badRequest message => errorResponse 400 message
  | .module _ => errorResponse 500 ""
  | .other message => errorResponse 500 message

/-- The fields of the body of a published module or stack. -/
def publishModuleBody (body : Json) : Option PublishModuleBody := do
  let zipBase64 ← Serde.field body "zip_base64" Json.asStr
  let module ← body.get? "module"
  let track ← Serde.optionalField body "track" Json.asStr
  let version ← Serde.optionalField body "version" Json.asStr
  let jobId ← Serde.optionalField body "job_id" Json.asStr
  return { zipBase64, module, track, version, jobId }

/-- A type, a name and a track that access is asked for. -/
abbrev Subject := String × String × Option String

def deprecatedSubject (resourceType : String) (params : Params) (body : Json) :
    Except Response Subject :=
  match Serde.optionalField body "message" Json.asStr with
  | some _ =>
      .ok (resourceType, pathParam params resourceType, some (pathParam params "track"))
  | none => .error jsonRejection

def publishedSubject (resourceType : String) (body : Json) : Except Response Subject :=
  match publishModuleBody body with
  | none => .error jsonRejection
  | some read =>
      match publishModuleResource read resourceType with
      | .ok (name, track, _) => .ok (resourceType, name, some track)
      | .error e => .error e.response

/-- Providers and policies are named by a field of their record. -/
def namedSubject (resourceType nameField : String) (body : Json) : Except Response Subject :=
  match (body.get? "zip_base64").bind Json.asStr, body.get? resourceType with
  | some _, some record =>
      .ok (resourceType, ((record.get? nameField).bind Json.asStr).getD "unknown", none)
  | _, _ => .error jsonRejection

def publishSubject (route : PublishRoute) (params : Params) (body : Json) :
    Except Response Subject :=
  match route with
  | .deprecateModule => deprecatedSubject "module" params body
  | .deprecateStack => deprecatedSubject "stack" params body
  | .publishModule => publishedSubject "module" body
  | .publishStack => publishedSubject "stack" body
  | .publishProvider => namedSubject "provider" "name" body
  | .publishPolicy => namedSubject "policy" "policy" body

def publishRoute (route : PublishRoute) (request : HttpRequest) (params : Params) :
    Effects Response :=
  extracting (api.readJson request.headers request.body) fun body =>
    extracting (publishSubject route params body) fun (resourceType, name, track) =>
      extracting ((ensurePublishAccess ⟨api.auth.codec, api.checkPublish⟩ request.headers.view
        resourceType name track).mapError PublishError.response) fun _ =>
          api.publishHandler route params body

/-! ## The whole router -/

/-- A path or a method without a route is answered by the router. -/
def router (request : HttpRequest) : Effects Response :=
  match api.matchRoute request.method request.path with
  | none => .done { status := 404, nextToken := none, body := .null }
  | some (.anyone route, params) => openHandler api route request params
  | some (.guarded route, params) => protectedRoute api route request params
  | some (.publishing route, params) => publishRoute api route request params

end

end InternalApi
end InfraWeave
