import InfraWeave.InternalApi.ApiCommon

/-!
# The routes with a project segment

Each route builds the JSON payload of its query from the path and the query string, and runs the
query behind `authMiddleware`.  `serve` is the whole of it: its state lists the workload accounts
that were handed out.
-/

namespace InfraWeave
namespace InternalApi

open Text

/-- The query builders of the build. -/
structure Queries where
  getDeploymentAndDependentsQuery : String → String → String → String → Bool → Query
  getPlanDeploymentQuery : String → String → String → String → String → Query
  getAllDeploymentsQuery : String → String → String → Bool → Query
  getDeploymentsUsingModuleQuery : String → String → String → String → Bool → Query
  getEventsQuery : String → String → String → String → Option String → Query
  getChangeRecordsForDeploymentQuery : String → String → String → String → String → Query
  getChangeRecordsQuery : String → String → String → String → String → String → Query
  getDeploymentHistoryPlansQuery : String → String → Option String → Query
  getDeploymentHistoryDeletedQuery : String → String → Option String → Query

structure Api where
  auth : AuthConfig
  db : Backend
  queries : Queries

/-! ## Responses -/

def validHeaderValue (s : String) : Bool :=
  s.toList.all fun c => (32 ≤ c.toNat && c.toNat < 127) || c == '\t'

/-- `handle_result`, for errors that carry a message only. -/
def handleResult : Except String Json → Response
  | .ok (.object fields) =>
      match fields.lookup "Items" with
      | some items =>
          { status := 200
            nextToken := ((fields.lookup "next_token").bind Json.asStr).filter validHeaderValue
            body := items }
      | none => { status := 200, nextToken := none, body := .object fields }
  | .ok response => { status := 200, nextToken := none, body := response }
  | .error message =>
      errorResponse (if contains (toLowercase message) "not found" then 404 else 500) message

def respond (handler : Handler Json) : StateM Accounts Response := do
  return handleResult (← handler.run)

/-- The graph handlers answer their errors themselves. -/
def respondGraph (handler : Handler Json) : StateM Accounts Response := do
  match ← handler.run with
  | .ok graph => return { status := 200, nextToken := none, body := graph }
  | .error message => return errorResponse 500 message

def orRespond {α : Type} (x : Except Response α) (next : α → StateM Accounts Response) :
    StateM Accounts Response :=
  match x with
  | .ok a => next a
  | .error response => pure response

/-! ## Query strings -/

/-- What axum answers when a query string does not deserialize. -/
def queryRejection : Response :=
  { status := 400, nextToken := none, body := .string "Failed to deserialize query string" }

abbrev Params := List (String × String)

/-- The value of an optional field; a repeated field is an error. -/
def optionalField (query : Params) (name : String) : Except Response (Option String) :=
  match query.filter (·.1 = name) with
  | [] => .ok none
  | [(_, value)] => .ok (some value)
  | _ => .error queryRejection

def requiredField (query : Params) (name : String) : Except Response String := do
  match ← optionalField query name with
  | some value => .ok value
  | none => .error queryRejection

structure PaginationQuery where
  limit : Option Int
  nextToken : Option String

def paginationQuery (query : Params) : Except Response PaginationQuery := do
  let nextToken ← optionalField query "next_token"
  match ← optionalField query "limit" with
  | none => return { limit := none, nextToken }
  | some text =>
      match parseI64 text with
      | some limit => return { limit := some limit, nextToken }
      | none => .error queryRejection

def PaginationQuery.addTo (query : PaginationQuery) (payload : Json) : Json :=
  let payload :=
    match query.limit with
    | some limit => payload.set "limit" (.number (.int limit))
    | none => payload
  match query.nextToken with
  | some nextToken => payload.set "next_token" (.string nextToken)
  | none => payload

/-! ## Paths below the region -/

/-- `env1/env2/dep1/dep2`. -/
def deploymentPath (rest : String) : Except Response (String × String) :=
  match split '/' rest with
  | [env1, env2, dep1, dep2] => .ok (env1 ++ "/" ++ env2, dep1 ++ "/" ++ dep2)
  | parts => .error <| errorResponse 400 <|
      "Invalid path format. Expected exactly 4 segments (env1/env2/dep1/dep2), got " ++
        toString parts.length

/-- `env1/env2/dep1/dep2/job_id`. -/
def planPath (rest : String) : Except Response (String × String × String) :=
  match split '/' rest with
  | [env1, env2, dep1, dep2, jobId] => .ok (env1 ++ "/" ++ env2, dep1 ++ "/" ++ dep2, jobId)
  | parts => .error <| errorResponse 400 <|
      if parts.length < 3 then
        "Invalid path format. Expected .../environment/deployment/job_id, got " ++ rest
      else
        "Invalid path format. Expected exactly 5 segments (env1/env2/dep1/dep2/job_id), got " ++
          toString parts.length

/-- `env1/env2/dep1/dep2/job_id/change_type`. -/
def changeRecordPath (rest : String) : Except Response (String × String × String × String) :=
  match split '/' rest with
  | [env1, env2, dep1, dep2, jobId, changeType] =>
      .ok (env1 ++ "/" ++ env2, dep1 ++ "/" ++ dep2, jobId, changeType)
  | parts => .error <| errorResponse 400 <|
      "Invalid path format. Expected exactly 6 segments " ++
        "(env1/env2/dep1/dep2/job_id/change_type), got " ++ toString parts.length

/-! ## Deployments -/

def describePlanDeployment (api : Api) (project region rest : String) :
    StateM Accounts Response :=
  orRespond (planPath rest) fun (environment, deploymentId, jobId) =>
    respond <| getPlanDeploymentImpl api.db
      (.ofFields [("project", .string project), ("region", .string region),
        ("environment", .string environment), ("deployment_id", .string deploymentId),
        ("job_id", .string jobId)])
      api.queries.getPlanDeploymentQuery

def describeDeployment (api : Api) (project region rest : String) : StateM Accounts Response :=
  orRespond (deploymentPath rest) fun (environment, deploymentId) =>
    respond <| describeDeploymentImpl api.db
      (.ofFields [("project", .string project), ("region", .string region),
        ("environment", .string environment), ("deployment_id", .string deploymentId)])
      api.queries.getDeploymentAndDependentsQuery

def projectList (project : String) : List String :=
  ((split ',' project).map trim).filter (· ≠ "")

def setProjects (projects : List String) (project : String) (payload : Json) : Json :=
  if 1 < projects.length then payload.set "projects" (.array (projects.map .string))
  else payload.set "project" (.string project)

/-- Support comma-separated projects in the path. -/
def getDeployments (api : Api) (project region : String) (query : Params) :
    StateM Accounts Response :=
  orRespond (paginationQuery query) fun query =>
    let payload := query.addTo <| setProjects (projectList project) project <|
      .ofFields [("region", .string region)]
    respond <| getDeploymentsImpl api.auth.codec api.db payload api.queries.getAllDeploymentsQuery

def getDeploymentsForModule (api : Api) (project region module : String) (query : Params) :
    StateM Accounts Response :=
  orRespond (paginationQuery query) fun query =>
    let payload := query.addTo <| setProjects (split ',' project) project <|
      .ofFields [("region", .string region), ("module", .string module)]
    respond <| getDeploymentsForModuleImpl api.auth.codec api.db payload
      api.queries.getDeploymentsUsingModuleQuery

structure DeploymentHistoryQuery where
  page : PaginationQuery
  environment : Option String
  type : String

def deploymentHistoryQuery (query : Params) : Except Response DeploymentHistoryQuery := do
  return { page := ← paginationQuery query
           environment := ← optionalField query "environment"
           type := ← requiredField query "type" }

def getDeploymentsHistory (api : Api) (project region : String) (query : Params) :
    StateM Accounts Response :=
  orRespond (deploymentHistoryQuery query) fun query =>
    let payload := Json.ofFields [("project", .string project), ("region", .string region)]
    let payload :=
      match query.environment with
      | some environment => payload.set "environment" (.string environment)
      | none => payload
    let payload := query.page.addTo (payload.set "type" (.string query.type))
    respond <| getDeploymentHistoryImpl api.auth.codec api.db payload
      api.queries.getDeploymentHistoryPlansQuery api.queries.getDeploymentHistoryDeletedQuery

/-! ## Jobs -/

/-- Both job routes look up the account of the project without a workload scope. -/
def readLogs (api : Api) (project region jobId : String) (query : Params) :
    StateM Accounts Response :=
  orRespond (paginationQuery query) fun query =>
    respond <| reply <| api.db.readLogs <| query.addTo <|
      .ofFields [("project_id", .string project), ("region", .string region),
        ("job_id", .string jobId)]

def getJobStatusHttp (api : Api) (project region rest : String) : StateM Accounts Response :=
  respond <| reply <| api.db.getJobStatus <|
    .ofFields [("job_id", .string (.ofList (rest.toList.dropWhile (· == '/')))),
      ("project", .string project), ("region", .string region)]

/-! ## Events and change records -/

def getEvents (api : Api) (project region rest : String) (query : Params) :
    StateM Accounts Response :=
  orRespond (do return (← paginationQuery query, ← optionalField query "event_type"))
    fun (query, eventType) =>
      orRespond (deploymentPath rest) fun (environment, deploymentId) =>
        let payload := query.addTo <|
          .ofFields [("project", .string project), ("region", .string region),
            ("environment", .string environment), ("deployment_id", .string deploymentId)]
        let payload :=
          match eventType with
          | some eventType => payload.set "event_type" (.string eventType)
          | none => payload
        respond <| getEventsImpl api.auth.codec api.db payload api.queries.getEventsQuery

def getChangeRecords (api : Api) (project region rest : String) (query : Params) :
    StateM Accounts Response :=
  orRespond (do return (← paginationQuery query, ← requiredField query "change_type"))
    fun (query, changeType) =>
      orRespond (deploymentPath rest) fun (environment, deploymentId) =>
        let payload := query.addTo <|
          .ofFields [("project", .string project), ("region", .string region),
            ("environment", .string environment), ("deployment_id", .string deploymentId),
            ("change_type", .string changeType)]
        respond <| getChangeRecordsImpl api.auth.codec api.db payload
          api.queries.getChangeRecordsForDeploymentQuery

def changeRecordPayload (project region environment deploymentId jobId changeType : String) :
    Json :=
  .ofFields [("project", .string project), ("region", .string region),
    ("environment", .string environment), ("deployment_id", .string deploymentId),
    ("job_id", .string jobId), ("change_type", .string changeType)]

def getChangeRecord (api : Api) (project region rest : String) : StateM Accounts Response :=
  orRespond (changeRecordPath rest) fun (environment, deploymentId, jobId, changeType) =>
    respond <| getChangeRecordImpl api.db
      (changeRecordPayload project region environment deploymentId jobId changeType)
      api.queries.getChangeRecordsQuery

/-! ## Graphs -/

def planRawJsonKey (changeRecord : Json) : Except String String :=
  match (changeRecord.get? "plan_raw_json_key").bind Json.asStr with
  | some planKey => .ok planKey
  | none => .error "Change record has no plan_raw_json_key"

def changeRecordGraphKey (planKey : String) : Except String String :=
  if contains planKey "_mutate_output.json" then
    .ok (replace planKey "_mutate_output.json" "_graph.dot")
  else if contains planKey "_plan_output.json" then
    .ok (replace planKey "_plan_output.json" "_graph.dot")
  else .error ("Unknown plan key format: " ++ planKey)

/-- The graph of a plan or of a state, from the two files in the bucket of the change records. -/
def downloadGraph (db : Backend) (region contentKey graphKey : String) : Handler Json := do
  let containerName ← reply (db.getBucketNameForRegion "change_records" region)
  let content ← reply (db.downloadFileAsStringFromRegion (← get) containerName contentKey region)
  let graphContent ← reply (db.downloadFileAsStringFromRegion (← get) containerName graphKey region)
  match db.processGraph content graphContent with
  | .ok graph => return graph
  | .error e => throw ("Failed to process graph: " ++ e)

def changeRecordGraph (db : Backend) (queries : Queries) (payload : Json) : Handler Json := do
  let project ← reply (getParam payload "project")
  withWorkloadAccount project do
    let changeRecord ← getChangeRecordImpl db payload queries.getChangeRecordsQuery
    let planKey ← reply (planRawJsonKey changeRecord)
    let graphKey ← reply (changeRecordGraphKey planKey)
    match (payload.get? "region").bind Json.asStr with
    | some region => downloadGraph db region planKey graphKey
    | none => throw "Missing region in payload"

def getChangeRecordGraph (api : Api) (project region rest : String) : StateM Accounts Response :=
  orRespond (changeRecordPath rest) fun (environment, deploymentId, jobId, changeType) =>
    respondGraph <| changeRecordGraph api.db api.queries
      (changeRecordPayload project region environment deploymentId jobId changeType)

def deploymentGraph (db : Backend) (queries : Queries) (payload : Json) : Handler Json := do
  let project ← reply (getParam payload "project")
  withWorkloadAccount project do
    let region ← reply (getParam payload "region")
    let deploymentId ← reply (getParam payload "deployment_id")
    let environment ← reply (getParam payload "environment")
    let jobId ← reply (getParam payload "job_id")
    let crResp ← queryWorkloadAccount db project "change_records"
      (queries.getChangeRecordsQuery project region environment deploymentId jobId "MUTATE")
      (some region)
    match ((crResp.get? "Items").bind Json.asArray).bind List.head? with
    | some changeRecord => do
        let planKey ← reply (planRawJsonKey changeRecord)
        downloadGraph db region (replace planKey "_mutate_output.json" "_state_output.json")
          (replace planKey "_mutate_output.json" "_graph.dot")
    | none => throw ("Change record not found for job_id: " ++ jobId)

/-- Merge query params into payload. -/
def mergeParams (params : Params) (payload : Json) : Json :=
  params.foldl (fun payload (k, v) => payload.set k (.string v)) payload

def getDeploymentGraph (api : Api) (project region rest : String) (params : Params) :
    StateM Accounts Response :=
  orRespond (deploymentPath rest) fun (environment, deploymentId) =>
    respondGraph <| deploymentGraph api.db api.queries <| mergeParams params <|
      .ofFields [("project", .string project), ("region", .string region),
        ("environment", .string environment), ("deployment_id", .string deploymentId)]

/-! ## The router -/

inductive ProjectRoute where
  | deployment
  | deployments
  | deploymentsModule
  | deploymentsHistory
  | plan
  | logs
  | events
  | changeRecords
  | changeRecord
  | changeRecordGraph
  | deploymentGraph
  | jobStatus
  deriving DecidableEq

/-- A request to a route with a `{project}` segment.  `rest` is what follows the region, if the
route has anything there: `{*rest}`, `{module}` or `{job_id}`. -/
structure ProjectRequest where
  route : ProjectRoute
  headers : Headers
  project : String
  region : String
  rest : String
  query : Params

def routeHandler (api : Api) (request : ProjectRequest) : StateM Accounts Response :=
  let { route, project, region, rest, query, .. } := request
  match route with
  | .deployment => describeDeployment api project region rest
  | .deployments => getDeployments api project region query
  | .deploymentsModule => getDeploymentsForModule api project region rest query
  | .deploymentsHistory => getDeploymentsHistory api project region query
  | .plan => describePlanDeployment api project region rest
  | .logs => readLogs api project region rest query
  | .events => getEvents api project region rest query
  | .changeRecords => getChangeRecords api project region rest query
  | .changeRecord => getChangeRecord api project region rest
  | .changeRecordGraph => getChangeRecordGraph api project region rest
  | .deploymentGraph => getDeploymentGraph api project region rest query
  | .jobStatus => getJobStatusHttp api project region rest

def serve (api : Api) (request : ProjectRequest) : StateM Accounts Response :=
  orRespond (authMiddleware api.auth request.headers (some request.project)) fun _ =>
    routeHandler api request

/-- The workload accounts that serving a request hands out. -/
def handedAccounts (api : Api) (request : ProjectRequest) : Accounts :=
  ((serve api request).run []).2

end InternalApi
end InfraWeave
