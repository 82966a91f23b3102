import InfraWeave.InternalApi.HttpAuthz

/-!
# Queries on behalf of a project

The route implementations shared by the AWS and Azure builds.  A `Handler` runs against a backend
that is not part of the program (its replies are a function of what was asked, and of what was asked
before); its state lists the workload accounts that were handed to `withWorkloadAccount` and
`queryWorkloadAccount`, in order.  The query builders of the two builds differ, so they are
parameters, as they are in the source.
-/

namespace InfraWeave
namespace InternalApi

open Text

abbrev Accounts := List String

abbrev Handler := ExceptT String (StateM Accounts)

/-- A query is a JSON object. -/
abbrev Query := List (String × Json)

structure Backend where
  queryTable : Accounts → String → Query → Option String → Except String Json
  livenessCheck : Accounts → Json → Json
  getBucketNameForRegion : String → String → Except String String
  downloadFileAsStringFromRegion : Accounts → String → String → String → Except String String
  processGraph : String → String → Except String Json
  readLogs : Json → Except String Json
  getJobStatus : Json → Except String Json

def reply {α : Type} (x : Except String α) : Handler α :=
  ExceptT.mk (pure x)

def withWorkloadAccount {α : Type} (workloadAccount : String) (future : Handler α) : Handler α := do
  modify (· ++ [workloadAccount])
  future

def queryWorkloadAccount (db : Backend) (workloadAccount container : String) (query : Query)
    (region : Option String) : Handler Json :=
  withWorkloadAccount workloadAccount do
    reply (db.queryTable (← get) container query region)

/-- `get_param!`. -/
def getParam (payload : Json) (name : String) : Except String String :=
  match (payload.get? name).bind Json.asStr with
  | some v => .ok v
  | none => .error ("Missing '" ++ name ++ "' parameter")

/-- The limit and the start key of a page, added to its query. -/
def pageQuery (codec : Codec) (query : Query) (payload : Json) : Query :=
  let query :=
    match (payload.get? "limit").bind Json.asI64 with
    | some limit => OrderedMap.insert "Limit" (.number (.int limit)) query
    | none => query
  match ((payload.get? "next_token").bind Json.asStr).bind codec.standardJson with
  | some key => OrderedMap.insert "ExclusiveStartKey" key query
  | none => query

def queryAllForWorkload (codec : Codec) (db : Backend) (workloadAccount container : String)
    (query : Query) (payload : Json) : Handler Json :=
  queryWorkloadAccount db workloadAccount container (pageQuery codec query payload)
    ((payload.get? "region").bind Json.asStr)

/-- The first item of a response. -/
def firstItem (response : Json) : Except String Json :=
  match (response.get? "Items").bind Json.asArray with
  | some (item :: _) => .ok item
  | some [] => .error "Item not found"
  | none => .error "Invalid response from query_table"

def queryOneForWorkload (db : Backend) (workloadAccount container : String) (query : Query)
    (region : Option String) : Handler Json := do
  let response ← queryWorkloadAccount db workloadAccount container query region
  reply (firstItem response)

def liveRecord (db : Backend) (record : Json) : Handler Json := do
  return db.livenessCheck (← get) record

def describeDeploymentImpl (db : Backend) (payload : Json)
    (qb : String → String → String → String → Bool → Query) : Handler Json := do
  let project ← reply (getParam payload "project")
  let region ← reply (getParam payload "region")
  let deploymentId ← reply (getParam payload "deployment_id")
  let environment ← reply (getParam payload "environment")
  let record ← ExceptT.adapt (fun _ => "Deployment not found")
    (queryOneForWorkload db project "deployments"
      (qb project region deploymentId environment true) (some region))
  liveRecord db record

def getPlanDeploymentImpl (db : Backend) (payload : Json)
    (qb : String → String → String → String → String → Query) : Handler Json := do
  let project ← reply (getParam payload "project")
  let region ← reply (getParam payload "region")
  let deploymentId ← reply (getParam payload "deployment_id")
  let environment ← reply (getParam payload "environment")
  let jobId ← reply (getParam payload "job_id")
  let record ← ExceptT.adapt (fun _ => "Plan deployment not found")
    (queryOneForWorkload db project "deployments"
      (qb project region deploymentId environment jobId) (some region))
  liveRecord db record

/-! ## Lists of deployments -/

/-- `join_all`: every future runs to its end, whatever the others return. -/
def joinAll {α : Type} : List (Handler α) → StateM Accounts (List (Except String α))
  | [] => pure []
  | future :: futures => do
      let result ← future.run
      let results ← joinAll futures
      return result :: results

def itemsOf (val : Json) : List Json :=
  ((val.get? "Items").bind Json.asArray).getD []

def aggregateItems (results : List (Except String Json)) : Except String Json := do
  let vals ← results.mapM id
  let allItems := vals.flatMap itemsOf
  return .ofFields [("Items", .array allItems), ("Count", .number (.int allItems.length))]

def includeDeleted (payload : Json) : Bool :=
  ((payload.get? "include_deleted").bind Json.asBool).getD false

/-- One query for each project of the payload's list, the results in one. -/
def queryProjects (codec : Codec) (db : Backend) (projects : List Json) (query : String → Query)
    (payload : Json) : Handler Json := do
  let futures := (projects.filterMap Json.asStr).map fun project =>
    queryAllForWorkload codec db project "deployments" (query project) payload
  let results ← ExceptT.lift (joinAll futures)
  reply (aggregateItems results)

def getDeploymentsImpl (codec : Codec) (db : Backend) (payload : Json)
    (qb : String → String → String → Bool → Query) : Handler Json := do
  let region ← reply (getParam payload "region")
  match (payload.get? "projects").bind Json.asArray with
  | some projects =>
      queryProjects codec db projects (fun project => qb project region "" (includeDeleted payload))
        payload
  | none =>
      let project ← reply (getParam payload "project")
      queryAllForWorkload codec db project "deployments"
        (qb project region "" (includeDeleted payload)) payload

def getDeploymentsForModuleImpl (codec : Codec) (db : Backend) (payload : Json)
    (qb : String → String → String → String → Bool → Query) : Handler Json :=
  match (payload.get? "projects").bind Json.asArray with
  | some projects => do
      let region ← reply (getParam payload "region")
      let module ← reply (getParam payload "module")
      queryProjects codec db projects
        (fun project => qb project region module "" (includeDeleted payload)) payload
  | none => do
      let project ← reply (getParam payload "project")
      let region ← reply (getParam payload "region")
      let module ← reply (getParam payload "module")
      queryAllForWorkload codec db project "deployments"
        (qb project region module "" (includeDeleted payload)) payload

/-! ## Events, change records and history -/

def getEventsImpl (codec : Codec) (db : Backend) (payload : Json)
    (qb : String → String → String → String → Option String → Query) : Handler Json := do
  let project ← reply (getParam payload "project")
  let region ← reply (getParam payload "region")
  let deploymentId ← reply (getParam payload "deployment_id")
  let environment ← reply (getParam payload "environment")
  queryAllForWorkload codec db project "events"
    (qb project region deploymentId environment ((payload.get? "event_type").bind Json.asStr))
    payload

def normalizeChangeType (changeType : String) : String :=
  if toLowercase changeType ∈ ["apply", "destroy", "mutate"] then "MUTATE"
  else if toLowercase changeType = "plan" then "PLAN"
  else changeType

def getChangeRecordsImpl (codec : Codec) (db : Backend) (payload : Json)
    (qb : String → String → String → String → String → Query) : Handler Json := do
  let changeType ← reply (getParam payload "change_type")
  let project ← reply (getParam payload "project")
  let region ← reply (getParam payload "region")
  let environment ← reply (getParam payload "environment")
  let deploymentId ← reply (getParam payload "deployment_id")
  queryAllForWorkload codec db project "change_records"
    (qb project region environment deploymentId (normalizeChangeType changeType)) payload

def getChangeRecordImpl (db : Backend) (payload : Json)
    (qb : String → String → String → String → String → String → Query) : Handler Json := do
  let project ← reply (getParam payload "project")
  let region ← reply (getParam payload "region")
  let environment ← reply (getParam payload "environment")
  let deploymentId ← reply (getParam payload "deployment_id")
  let jobId ← reply (getParam payload "job_id")
  let changeType ← reply (getParam payload "change_type")
  let pkPrefix := normalizeChangeType changeType
  let ask := fun kind => queryOneForWorkload db project "change_records"
    (qb project region environment deploymentId jobId kind) (some region)
  let result ← ExceptT.lift <|
    if pkPrefix ≠ "PLAN" then (ask "MUTATE").run else pure (.error "Skipping MUTATE for PLAN")
  match result with
  | .ok changeRecord => return changeRecord
  | .error _ => ExceptT.adapt (fun _ => "Change record not found") (ask pkPrefix)

/-- The items of a history, newest first. -/
def sortByEpoch (result : Json) : Json :=
  let epoch := fun item : Json =>
    match item.get? "epoch" with
    | some (.number (.int n)) => if 0 ≤ n ∧ n < 18446744073709551616 then n else 0
    | _ => 0
  match (result.get? "Items").bind Json.asArray with
  | some items => result.set "Items" (.array (items.mergeSort fun a b => epoch b ≤ epoch a))
  | none => result

def getDeploymentHistoryImpl (codec : Codec) (db : Backend) (payload : Json)
    (plansQb deletedQb : String → String → Option String → Query) : Handler Json := do
  let project ← reply (getParam payload "project")
  let region ← reply (getParam payload "region")
  let environment := (payload.get? "environment").bind Json.asStr
  let historyType ← reply (getParam payload "type")
  let query ← reply <|
    if historyType = "plans" then .ok (plansQb project region environment)
    else if historyType = "deleted" then .ok (deletedQb project region environment)
    else .error "Invalid type parameter. Must be 'plans' or 'deleted'"
  let result ← queryAllForWorkload codec db project "deployments" query payload
  return sortByEpoch result

end InternalApi
end InfraWeave
