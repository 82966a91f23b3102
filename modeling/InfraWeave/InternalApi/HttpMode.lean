import InfraWeave.Defs.Infra
import InfraWeave.EnvCommon.DestroyInfra
import InfraWeave.EnvCommon.DriftCheck
import InfraWeave.InternalApi.ClaimValidation
import InfraWeave.InternalApi.HttpRouter

/-!
# Requests on existing deployments, direct and over HTTP

A deployment is destroyed, or checked for drift, with a claim that is made from its record.  A client
in direct mode reads the record and starts the job itself; in HTTP mode it reads the record over the
API and posts the claim.  The API reads the record with another query.
-/

namespace InfraWeave
namespace InternalApi

open EnvCommon
open Program Request

/-! ## Jobs -/

/-- The services that run jobs and store the records of requests. -/
structure JobServices where
  getJobStatus : String → Except String (Option JobStatus)
  runFunction : ApiInfraPayload → Except String RunnerResponse
  sendDeployment : DeploymentStatusHandler → Except String Nat
  /-- A runner that has been started has a job. -/
  named : ∀ payload response, runFunction payload = .ok response →
    ∃ jobId, jobId ≠ "" ∧ response.jobId = some jobId

namespace JobServices

variable (jobs : JobServices) (t : Deployments) (handler : WorkloadHandler)

/-- What a client is answered.  The last two requests are those of runners. -/
def answer : (request : Request) → request.Answer
  | .getDeployment deploymentId environment includeDeleted =>
      handler.getDeployment t deploymentId environment includeDeleted
  | .getJobStatus jobId => jobs.getJobStatus jobId
  | .runFunction payload => jobs.runFunction payload
  | .sendDeployment record => jobs.sendDeployment record
  | .getCurrentJobId => .error "not in a job"
  | .terraform _ => ⟨.failed, rfl, "", .null, [], false, none⟩

/-- A job whose status is not known counts as one that runs. -/
def stillRuns (jobId : String) : Bool :=
  match jobs.getJobStatus jobId with
  | .ok (some status) => status.isRunning
  | _ => true

end JobServices

/-- What an accepted request leads to: the payloads that are started, and the records that are
inserted. -/
structure Started where
  payloads : List ApiInfraPayload
  records : List DeploymentStatusHandler

def startedPayload : Request → Option ApiInfraPayload
  | .runFunction payload => some payload
  | _ => none

def insertedRecord : Request → Option DeploymentStatusHandler
  | .sendDeployment record => some record
  | _ => none

def accepted {ε α : Type} : Except ε α × List Request → Option Started
  | (.ok _, requests) =>
      some ⟨requests.filterMap startedPayload, requests.filterMap insertedRecord⟩
  | (.error _, _) => none

/-- The job for which a deployment is busy. -/
def busyJob (t : Deployments) (handler : WorkloadHandler) (deploymentId environment : String) :
    Option String :=
  ((t.live (getDeploymentIdentifier handler.projectId handler.region deploymentId
    environment)).filter fun d => d.status.isBusy).map DeploymentResp.jobId

namespace JobServices

variable (jobs : JobServices) {t : Deployments} (handler : WorkloadHandler)

/-- A claim for a deployment that is not busy is started, and then its record is inserted. -/
def start (prepared : ApiInfraPayloadWithVariables) : Option Started :=
  match jobs.runFunction prepared.payload with
  | .error _ => none
  | .ok response =>
      let record := DeploymentStatusHandler.ofRequest prepared (responseJobId response)
      match jobs.sendDeployment record with
      | .error _ => none
      | .ok _ => some ⟨[prepared.payload], [record]⟩

def submit (t : Deployments) (prepared : ApiInfraPayloadWithVariables) : Option Started :=
  if (busyJob t handler prepared.payload.deploymentId prepared.payload.environment).any
    jobs.stillRuns then none
  else jobs.start prepared

/-- The deployment is only read, and it is in progress when its job still runs. -/
theorem eval_isDeploymentInProgress (h : t.WellFormed) (deploymentId environment : String) :
    let checked :=
      (isDeploymentInProgress deploymentId environment true false).eval (jobs.answer t handler)
    checked.1.1 = (busyJob t handler deploymentId environment).any jobs.stillRuns ∧
      checked.2.filterMap startedPayload = [] ∧ checked.2.filterMap insertedRecord = [] := by
  have hread : jobs.answer t handler (.getDeployment deploymentId environment false) =
      .ok (t.live (getDeploymentIdentifier handler.projectId handler.region deploymentId
        environment)) :=
    Deployments.getDeployment_eq handler deploymentId environment h false
  unfold isDeploymentInProgress busyJob
  simp only [eval_call, hread]
  generalize t.live _ = found
  cases found with
  | none => exact ⟨rfl, rfl, rfl⟩
  | some deployment =>
      cases hbusy : deployment.status.isBusy with
      | false => simp [hbusy, Option.filter, startedPayload, insertedRecord]
      | true =>
          -- The status of the job decides.
          rcases hstatus : jobs.getJobStatus deployment.jobId with e | _ | status
          · simp [hbusy, hstatus, answer, stillRuns, Option.filter, startedPayload, insertedRecord]
          · simp [hbusy, hstatus, answer, stillRuns, Option.filter, startedPayload, insertedRecord]
          · cases hrunning : status.isRunning <;>
              simp [hbusy, hstatus, hrunning, answer, stillRuns, Option.filter, startedPayload,
                insertedRecord]

/-- The job of a response is the one that it names. -/
theorem responseJobId_eq {response : RunnerResponse} {jobId : String} (hne : jobId ≠ "")
    (h : response.jobId = some jobId) : responseJobId response = jobId := by
  simp [responseJobId, h, Option.filter, hne]

theorem accepted_submitClaimJob (h : t.WellFormed) (prepared : ApiInfraPayloadWithVariables) :
    accepted ((submitClaimJob prepared).eval (jobs.answer t handler)) =
      jobs.submit handler t prepared := by
  have hchecked := jobs.eval_isDeploymentInProgress handler h prepared.payload.deploymentId
    prepared.payload.environment
  unfold submitClaimJob submit
  rw [eval_bind]
  generalize Program.eval _ (isDeploymentInProgress _ _ true false) = checked at hchecked
  obtain ⟨⟨inProgress, text, status, deployment⟩, requests⟩ := checked
  obtain ⟨hbusy, hpayloads, hrecords⟩ := hchecked
  dsimp only at hbusy hpayloads hrecords ⊢
  rw [← hbusy]
  cases inProgress with
  | true => rfl
  | false =>
      simp only [Bool.false_eq_true, if_false, eval_call, answer]
      unfold start
      cases hrun : jobs.runFunction prepared.payload with
      | error e => rfl
      | ok response =>
          obtain ⟨jobId, hne, hjob⟩ := jobs.named _ _ hrun
          simp only [hjob, responseJobId_eq hne hjob]
          cases hsend : jobs.sendDeployment (.ofRequest prepared jobId) with
          | error e => simp [insertRequestEvent, answer, hsend, accepted, Except.map]
          | ok epoch =>
              simp [insertRequestEvent, answer, hsend, accepted, Except.map, startedPayload,
                hpayloads, hrecords]
              rfl

theorem accepted_runClaimAuthorized (h : t.WellFormed)
    (prepared : ApiInfraPayloadWithVariables) :
    accepted ((runClaimAuthorized prepared).eval (jobs.answer t handler)) =
      jobs.submit handler t prepared := by
  have hchecked := jobs.eval_isDeploymentInProgress handler h prepared.payload.deploymentId
    prepared.payload.environment
  unfold runClaimAuthorized submit
  rw [eval_bind]
  generalize Program.eval _ (isDeploymentInProgress _ _ true false) = checked at hchecked
  obtain ⟨⟨inProgress, text, status, deployment⟩, requests⟩ := checked
  obtain ⟨hbusy, hpayloads, hrecords⟩ := hchecked
  dsimp only at hbusy hpayloads hrecords ⊢
  rw [← hbusy]
  cases inProgress with
  | true => rfl
  | false =>
      simp only [Bool.false_eq_true, if_false, eval_call, answer]
      unfold start
      cases hrun : jobs.runFunction prepared.payload with
      | error e => rfl
      | ok response =>
          obtain ⟨jobId, hne, hjob⟩ := jobs.named _ _ hrun
          simp only [responseJobId_eq hne hjob, hne, if_false]
          cases hsend : jobs.sendDeployment (.ofRequest prepared jobId) with
          | error e => simp [insertRequestEvent, answer, hsend, accepted, Except.map]
          | ok epoch =>
              simp [insertRequestEvent, answer, hsend, accepted, Except.map, startedPayload,
                hpayloads, hrecords]
              rfl

end JobServices

/-! ## The API -/

/-- The server, with what the client of a path reaches there.  A deployment has the project, the region
and the rest of its path, a module has its track, name and version. -/
structure HttpServer extends RouteServices where
  deploymentRoute : String → Option (String × String × String)
  moduleRoute : String → Option (String × String × String)
  /-- A payload is read as the one that was written. -/
  readPayload_toJson : ∀ payload : ApiInfraPayload, readPayload payload.toJson = .ok payload

/-- A deployment that is asked for in both modes, by one user in one state of the tables. -/
structure BothModes where
  server : HttpServer
  headers : Headers
  getUserId : Except String String
  store : RegionStore
  calls : List SetDeployment
  handler : WorkloadHandler
  environment : String
  deploymentId : String

/-- A request for a deployment.  The last one is the body of the destroy route that names the
deployment, and stands for a direct request to destroy it. -/
inductive ExistingRequest where
  | destroy (extraData : Json) (overrideVersion : Option String)
  | driftcheck (remediate : Bool) (extraData : Json)
  | selector

def ExistingRequest.overrideVersion : ExistingRequest → Option String
  | destroy _ overrideVersion => overrideVersion
  | _ => none

namespace BothModes

variable (m : BothModes)

def table : Deployments :=
  Deployments.run m.calls

def services : RouteServices :=
  m.server.toRouteServices

def client : ClaimServices :=
  { m.server.claims with getUserId := m.getUserId }

/-! ## Direct mode -/

def directRequest : ExistingRequest → Except String ApiInfraPayloadWithVariables
  | .destroy extraData overrideVersion =>
      destroyRequest m.client m.handler m.store m.table m.deploymentId m.environment extraData
        overrideVersion
  | .driftcheck remediate extraData =>
      driftcheckRequest m.client m.handler m.table m.deploymentId m.environment remediate extraData
  | .selector =>
      destroyRequest m.client m.handler m.store m.table m.deploymentId m.environment .null none

def direct (jobs : JobServices) (request : ExistingRequest) : Option Started :=
  match m.directRequest request with
  | .error _ => none
  | .ok prepared => accepted ((submitClaimJob prepared).eval (jobs.answer m.table m.handler))

/-! ## HTTP mode -/

/-- `GET /api/v1/deployment/{project}/{region}/{rest}`. -/
def serveDescribe (path : String) : Except Response DescribedDeployment :=
  match m.server.deploymentRoute path with
  | none => .error (errorResponse 404 "")
  | some (project, region, rest) => do
      authMiddleware m.server.auth m.headers (some project)
      let (environment, deploymentId) ← deploymentPath rest
      (describeDeploymentAws m.server.getJobStatus m.table project region environment
        deploymentId).mapError fun e => handleResult (.error e)

/-- What the client makes of a response that is no success, up to the body that it quotes. -/
def apiError (response : Response) : String :=
  if response.status = 401 then
    "Authentication failed (401 Unauthorized). Your token may have expired. " ++
      "Please run 'infraweave login' to re-authenticate."
  else "API request failed with status " ++ toString response.status

def describePath : String :=
  "/api/v1/deployment/" ++ m.handler.projectId ++ "/" ++ m.handler.region ++ "/" ++ m.environment ++
    "/" ++ m.deploymentId

/-- No deployment is one answer of the API, and an error another. -/
def httpDescribeDeployment : Except String (Option DescribedDeployment) :=
  match m.serveDescribe m.describePath with
  | .ok described => .ok (some described)
  | .error response =>
      let message := ((response.body.get? "error").bind Json.asStr).getD ""
      if response.status = 404 ∨
          response.status = 500 ∧ Text.contains message "Deployment not found" then .ok none
      else .error (apiError response)

/-- `GET /api/v1/module/{track}/{module_name}/{module_version}`. -/
def serveModuleVersion (path : String) : Except String ModuleResp :=
  match m.server.moduleRoute path with
  | none => .error "Module not found"
  | some (track, name, version) => do
      (authMiddleware m.server.auth m.headers none).mapError apiError
      match ← m.server.claims.registry.getModuleVersion m.store name track version with
      | some record => .ok record
      | none => .error "Module not found"

def httpVerifyModuleVersion (module moduleVersion : String) : Except String Unit := do
  let track ← claimedTrack m.client.registry moduleVersion
  let path := "/api/v1/module/" ++ track ++ "/" ++ module ++ "/" ++ moduleVersion
  let _ ← (m.serveModuleVersion path).mapError fun e =>
    "Module version " ++ moduleVersion ++ " does not exist or failed to verify: " ++ e
  .ok ()

def httpExisting : Except String DeploymentResp :=
  match m.httpDescribeDeployment with
  | .error e => .error ("Failed to describe deployment: " ++ e)
  | .ok none => .error "Failed to describe deployment, deployment was not found"
  | .ok (some described) =>
      (parseDeployment described).mapError fun e => "Failed to parse deployment: " ++ e

/-- `destroy_infra` in HTTP mode, up to the claim that it submits. -/
def httpDestroyRequest (extraData : Json) (overrideVersion : Option String) :
    Except String ApiInfraPayloadWithVariables := do
  let deployment ← m.httpExisting
  match overrideVersion with
  | none =>
      .ok (destroyPayload m.client deployment m.deploymentId deployment.moduleVersion extraData)
  | some version => do
      m.httpVerifyModuleVersion deployment.module version
      .ok (destroyPayload m.client deployment m.deploymentId version extraData)

/-- `driftcheck_infra` in HTTP mode, up to the claim that it submits. -/
def httpDriftcheckRequest (remediate : Bool) (extraData : Json) :
    Except String ApiInfraPayloadWithVariables := do
  let deployment ← m.httpExisting
  .ok (driftcheckPayload m.client deployment m.deploymentId remediate extraData)

/-- What a post to one of the routes that start jobs leads to.  The server works in the project and
the region of the payload. -/
def post (jobs : JobServices) (route : ClaimRoute) (body : Json) : Option Started :=
  match routePayload m.services m.table m.headers route body with
  | .error _ => none
  | .ok prepared =>
      accepted ((serveClaimRoute m.services m.table m.headers route body).eval
        (jobs.answer m.table ⟨prepared.payload.projectId, prepared.payload.region⟩))

def preparedBody (prepared : ApiInfraPayloadWithVariables) : Json :=
  .object [("payload", prepared.payload.toJson), ("variables", prepared.vars)]

/-- The route of a command. -/
def commandRoute (command : String) : Option ClaimRoute :=
  [ClaimRoute.apply, .plan, .destroy].find? fun route => route.command = command

def httpSubmitClaimJob (jobs : JobServices) (prepared : ApiInfraPayloadWithVariables) :
    Option Started :=
  if prepared.payload.projectId = "http-mode-no-project" then none
  else
    match commandRoute prepared.payload.command with
    | none => none
    | some route => m.post jobs route (preparedBody prepared)

def selectorBody : Json :=
  .object
    [("project", .string m.handler.projectId), ("region", .string m.handler.region),
      ("environment", .string m.environment), ("deployment_id", .string m.deploymentId)]

def overHttp (jobs : JobServices) (request : ExistingRequest) : Option Started :=
  match request with
  | .destroy extraData overrideVersion =>
      match m.httpDestroyRequest extraData overrideVersion with
      | .error _ => none
      | .ok prepared => m.httpSubmitClaimJob jobs prepared
  | .driftcheck remediate extraData =>
      match m.httpDriftcheckRequest remediate extraData with
      | .error _ => none
      | .ok prepared => m.httpSubmitClaimJob jobs prepared
  | .selector => m.post jobs .destroy m.selectorBody

/-- A request is accepted in both modes or in none, and leads to the same. -/
def Agree (request : ExistingRequest) : Prop :=
  ∀ jobs, m.direct jobs request = m.overHttp jobs request

/-! ## When the modes agree -/

variable (request : ExistingRequest)

def identifier : String :=
  getDeploymentIdentifier m.handler.projectId m.handler.region m.deploymentId m.environment

/-- The record of a deployment, deleted or not, on which no other deployment depends. -/
def StoredAlone (project region environment deploymentId : String) (record : DeploymentResp) :
    Prop :=
  m.table.stored (getDeploymentIdentifier project region deploymentId environment) = some record ∧
    ∀ dependent, m.table.item (dependentKey (getDeploymentIdentifier project region deploymentId
      environment) dependent) = none

/-- The API finds the record under the names that it takes from the path. -/
def Routed (record : DeploymentResp) : Prop :=
  ∃ project region rest environment deploymentId,
    m.server.deploymentRoute m.describePath = some (project, region, rest) ∧
    authMiddleware m.server.auth m.headers (some project) = .ok () ∧
    deploymentPath rest = .ok (environment, deploymentId) ∧
    m.StoredAlone project region environment deploymentId record

/-- A body that names the deployment leaves no name empty. -/
def Named (record : DeploymentResp) : Prop :=
  m.handler.projectId ≠ "" ∧ m.handler.region ≠ "" ∧ m.environment ≠ "" ∧ m.deploymentId ≠ "" ∧
    ensureAccess m.server.auth m.headers m.handler.projectId = .ok () ∧
    m.StoredAlone m.handler.projectId m.handler.region m.environment m.deploymentId record

def Described (record : DeploymentResp) : Prop :=
  match request with
  | .selector => m.Named record
  | _ => m.Routed record

/-- The version that replaces the one of the record, if it is to be replaced, is in the registry. -/
def VersionFound (record : DeploymentResp) : Prop :=
  ∀ version ∈ request.overrideVersion, ∃ track module,
    claimedTrack m.client.registry version = .ok track ∧
      m.client.registry.getModuleVersion m.store record.module track version = .ok (some module)

/-- The API finds the version that replaces the one of the record. -/
def VersionServed (record : DeploymentResp) : Prop :=
  ∀ version ∈ request.overrideVersion, ∃ track name servedTrack servedVersion module,
    claimedTrack m.client.registry version = .ok track ∧
      m.server.moduleRoute ("/api/v1/module/" ++ track ++ "/" ++ record.module ++ "/" ++ version) =
        some (servedTrack, name, servedVersion) ∧
      authMiddleware m.server.auth m.headers none = .ok () ∧
      m.server.claims.registry.getModuleVersion m.store name servedTrack servedVersion =
        .ok (some module)

/-- A claim that is posted is one for a project of the caller. -/
def Admitted (record : DeploymentResp) : Prop :=
  request = .selector ∨ record.projectId ≠ "http-mode-no-project" ∧
    ensureAccess m.server.auth m.headers record.projectId = .ok ()

/-- The two records have in common what a claim is made of. -/
structure SameClaim (record served : DeploymentResp) : Prop where
  module : m.server.claims.toLowercase record.module = m.server.claims.toLowercase served.module
  moduleVersion : request.overrideVersion = none → record.moduleVersion = served.moduleVersion
  moduleType : record.moduleType = served.moduleType
  moduleTrack : record.moduleTrack = served.moduleTrack
  environment : record.environment = served.environment
  projectId : record.projectId = served.projectId
  region : record.region = served.region
  driftDetection : record.driftDetection = served.driftDetection
  dependencies : record.dependencies = served.dependencies
  cpu : record.cpu = served.cpu
  memory : record.memory = served.memory
  reference : record.reference = served.reference
  vars : record.vars = served.vars
  /-- The identity of the server and the name in the record stand in a claim that only names the
  deployment. -/
  named : request = .selector → m.deploymentId = served.deploymentId ∧
    m.getUserId.toOption.getD "cli" = m.server.claims.getUserId.toOption.getD "api"

/-- What is live is described and accepted, for the same claim and the same job; and what is described
and accepted is live. -/
structure Agreeable : Prop where
  live : ∀ record, m.table.live m.identifier = some record → m.VersionFound request record →
    ∃ served, m.Described request served ∧ m.VersionServed request served ∧
      m.Admitted request served ∧ m.SameClaim request record served ∧
      busyJob m.table m.handler m.deploymentId record.environment =
        busyJob m.table ⟨served.projectId, served.region⟩ m.deploymentId served.environment
  described : ∀ served, m.Described request served → m.VersionServed request served →
    m.Admitted request served →
    ∃ record, m.table.live m.identifier = some record ∧ m.VersionFound request record

/-! ### Direct mode -/

/-- The claim of a record in direct mode. -/
def directClaim (record : DeploymentResp) : ApiInfraPayloadWithVariables :=
  match request with
  | .destroy extraData overrideVersion =>
      destroyPayload m.client record m.deploymentId (overrideVersion.getD record.moduleVersion)
        extraData
  | .driftcheck remediate extraData =>
      driftcheckPayload m.client record m.deploymentId remediate extraData
  | .selector =>
      destroyPayload m.client record m.deploymentId record.moduleVersion .null

def httpClaim (record : DeploymentResp) : ApiInfraPayloadWithVariables :=
  match request with
  | .selector => existingPayload m.services "destroy" record
  | _ => m.directClaim request record

theorem directClaim_eq_httpClaim_iff (record served : DeploymentResp) :
    m.directClaim request record = m.httpClaim request served ↔
      m.SameClaim request record served := by
  constructor
  · intro h
    cases request with
    | destroy extraData overrideVersion =>
        simp only [directClaim, httpClaim, destroyPayload, client,
          ApiInfraPayloadWithVariables.mk.injEq, ApiInfraPayload.mk.injEq] at h
        constructor
        case moduleVersion =>
          intro hnone
          obtain rfl : overrideVersion = none := hnone
          simp_all
        all_goals simp_all
    | driftcheck remediate extraData =>
        simp only [directClaim, httpClaim, driftcheckPayload, client,
          ApiInfraPayloadWithVariables.mk.injEq, ApiInfraPayload.mk.injEq] at h
        constructor <;> simp_all
    | selector =>
        simp only [directClaim, httpClaim, destroyPayload, existingPayload, client, services,
          ApiInfraPayloadWithVariables.mk.injEq, ApiInfraPayload.mk.injEq] at h
        constructor <;> simp_all
  · intro h
    obtain ⟨⟩ := h
    cases request with
    | destroy extraData overrideVersion =>
        cases overrideVersion <;>
          simp_all [directClaim, httpClaim, destroyPayload, client, ExistingRequest.overrideVersion]
    | driftcheck remediate extraData =>
        simp_all [directClaim, httpClaim, driftcheckPayload, client, ExistingRequest.overrideVersion]
    | selector =>
        simp_all [directClaim, httpClaim, destroyPayload, existingPayload, client, services,
          ExistingRequest.overrideVersion]

theorem wellFormed_table : m.table.WellFormed :=
  Deployments.wellFormed_run m.calls

theorem getDeployment_eq_live :
    m.handler.getDeployment m.table m.deploymentId m.environment false =
      .ok (m.table.live m.identifier) :=
  Deployments.getDeployment_eq m.handler m.deploymentId m.environment m.wellFormed_table false

theorem verifyModuleVersion_eq_ok_iff {services : ClaimServices} {s : RegionStore}
    {module version : String} :
    verifyModuleVersion services s module version = .ok () ↔ ∃ track record,
      claimedTrack services.registry version = .ok track ∧
        services.registry.getModuleVersion s module track version = .ok (some record) := by
  unfold verifyModuleVersion
  rw [bind_eq_ok_iff]
  refine exists_congr fun track => ?_
  rcases hfound : services.registry.getModuleVersion s module track version with e | _ | record <;>
    simp

/-- In direct mode the record has to be live. -/
theorem directRequest_eq_ok_iff {prepared : ApiInfraPayloadWithVariables} :
    m.directRequest request = .ok prepared ↔ ∃ record, m.table.live m.identifier = some record ∧
      m.VersionFound request record ∧ m.directClaim request record = prepared := by
  have hread := m.getDeployment_eq_live
  unfold directRequest directClaim VersionFound
  generalize m.table.live m.identifier = found at hread
  cases request with
  | destroy extraData overrideVersion =>
      simp only [destroyRequest, hread]
      cases found with
      | none => simp
      | some deployment =>
          cases overrideVersion with
          | none => simp [ExistingRequest.overrideVersion]
          | some version =>
              have hverify : verifyModuleVersion m.client m.store deployment.module version = .ok () ↔
                  _ := verifyModuleVersion_eq_ok_iff
              simp [ExistingRequest.overrideVersion, bind_eq_ok_iff, hverify]
  | driftcheck remediate extraData =>
      simp only [driftcheckRequest, hread]
      cases found <;> simp [ExistingRequest.overrideVersion]
  | selector =>
      simp only [destroyRequest, hread]
      cases found <;> simp [ExistingRequest.overrideVersion]

/-- A direct request is one job, of the claim of its record, or it is refused. -/
theorem direct_cases :
    (∃ record, m.table.live m.identifier = some record ∧ m.VersionFound request record ∧
      ∀ jobs, m.direct jobs request =
        jobs.submit m.handler m.table (m.directClaim request record)) ∨
      (∀ record, m.table.live m.identifier = some record → ¬ m.VersionFound request record) ∧
        ∀ jobs, m.direct jobs request = none := by
  unfold direct
  cases hrequest : m.directRequest request with
  | ok prepared =>
      obtain ⟨record, hlive, hfound, hclaim⟩ := (m.directRequest_eq_ok_iff request).1 hrequest
      refine Or.inl ⟨record, hlive, hfound, fun jobs => ?_⟩
      rw [hclaim]
      exact jobs.accepted_submitClaimJob m.handler m.wellFormed_table prepared
  | error e =>
      refine Or.inr ⟨fun record hlive hfound => ?_, fun jobs => rfl⟩
      have hok := (m.directRequest_eq_ok_iff request).2 ⟨record, hlive, hfound, rfl⟩
      cases hok.symm.trans hrequest

/-! ### HTTP mode -/

/-- A record as it is described: where its job has stopped, it has failed. -/
def DescribedAs (record deployment : DeploymentResp) : Prop :=
  deployment = record ∨
    ∃ errorText, deployment = { record with status := .failed, errorText := errorText }

theorem parseDeployment_describedAs (getJobStatus : JobStatuses) (key : Key)
    (item : DeploymentItem) : ∃ deployment,
    parseDeployment (ecsLivenessCheck getJobStatus (key, .deployment item)) = .ok deployment ∧
      DescribedAs item.record deployment := by
  unfold ecsLivenessCheck
  dsimp only
  repeat' split
  all_goals first
    | exact ⟨_, rfl, Or.inr ⟨_, rfl⟩⟩
    | exact ⟨_, rfl, Or.inl rfl⟩

variable {request} in
/-- The claim of a record does not depend on its status. -/
theorem httpClaim_describedAs {record deployment : DeploymentResp}
    (h : DescribedAs record deployment) :
    m.httpClaim request deployment = m.httpClaim request record := by
  rcases h with rfl | ⟨errorText, rfl⟩
  · rfl
  · cases request <;> rfl

variable {request} in
theorem versionServed_describedAs {record deployment : DeploymentResp}
    (h : DescribedAs record deployment) :
    m.VersionServed request deployment ↔ m.VersionServed request record := by
  rcases h with rfl | ⟨errorText, rfl⟩ <;> rfl

/-- A deployment is loaded when it is stored and no other one depends on it. -/
theorem load_cases (project region environment deploymentId : String) :
    (∃ record deployment, m.StoredAlone project region environment deploymentId record ∧
      DescribedAs record deployment ∧ ∃ described,
        describeDeploymentAws m.server.getJobStatus m.table project region environment deploymentId =
          .ok described ∧ parseDeployment described = .ok deployment) ∨
      (∀ record, ¬ m.StoredAlone project region environment deploymentId record) ∧
        ∀ described deployment,
          describeDeploymentAws m.server.getJobStatus m.table project region environment
            deploymentId = .ok described → parseDeployment described ≠ .ok deployment := by
  rcases describeDeploymentAws_cases m.server.getJobStatus project region environment deploymentId
    m.wellFormed_table rfl with ⟨item, hitem, halone, hdescribe⟩ |
      ⟨dependent, item, hitem, hdescribe⟩ | ⟨hnone, hdescribe⟩
  · rcases parseDeployment_describedAs m.server.getJobStatus _ item with
      ⟨deployment, hparse, hchecked⟩
    exact Or.inl ⟨item.record, deployment,
      ⟨Deployments.stored_eq_some.2 ⟨item, hitem, rfl⟩, halone⟩, hchecked, _, hdescribe, hparse⟩
  · refine Or.inr ⟨fun record halone => ?_, fun described deployment hdescribed hparse => ?_⟩
    · cases (halone.2 dependent).symm.trans hitem
    · obtain rfl := Except.ok.inj (hdescribe.symm.trans hdescribed)
      cases hparse
  · refine Or.inr ⟨fun record halone => ?_, fun described deployment hdescribed _ => ?_⟩
    · obtain ⟨item, hitem, -⟩ := Deployments.stored_eq_some.1 halone.1
      cases hnone.symm.trans hitem
    · cases hdescribe.symm.trans hdescribed

theorem StoredAlone.unique {project region environment deploymentId : String}
    {a b : DeploymentResp} (ha : m.StoredAlone project region environment deploymentId a)
    (hb : m.StoredAlone project region environment deploymentId b) : a = b :=
  Option.some.inj (ha.1.symm.trans hb.1)

theorem Routed.unique {a b : DeploymentResp} (ha : m.Routed a) (hb : m.Routed b) : a = b := by
  obtain ⟨project, region, rest, environment, deploymentId, hroute, -, hpath, ha⟩ := ha
  obtain ⟨project', region', rest', environment', deploymentId', hroute', -, hpath', hb⟩ := hb
  obtain ⟨rfl, rfl, rfl⟩ : project = project' ∧ region = region' ∧ rest = rest' := by
    simpa using hroute.symm.trans hroute'
  obtain ⟨rfl, rfl⟩ : environment = environment' ∧ deploymentId = deploymentId' := by
    simpa using hpath.symm.trans hpath'
  exact ha.unique m hb

theorem serveDescribe_eq_ok_iff {path : String} {described : DescribedDeployment} :
    m.serveDescribe path = .ok described ↔ ∃ project region rest environment deploymentId,
      m.server.deploymentRoute path = some (project, region, rest) ∧
        authMiddleware m.server.auth m.headers (some project) = .ok () ∧
        deploymentPath rest = .ok (environment, deploymentId) ∧
        describeDeploymentAws m.server.getJobStatus m.table project region environment
          deploymentId = .ok described := by
  unfold serveDescribe
  cases hroute : m.server.deploymentRoute path with
  | none => simp
  | some names =>
      obtain ⟨project, region, rest⟩ := names
      simp only [bind_eq_ok_iff, mapError_eq_ok_iff]
      constructor
      · rintro ⟨⟨⟩, hauth, ⟨environment, deploymentId⟩, hpath, hdescribe⟩
        exact ⟨project, region, rest, environment, deploymentId, rfl, hauth, hpath, hdescribe⟩
      · rintro ⟨_, _, _, environment, deploymentId, hnames, hauth, hpath, hdescribe⟩
        cases hnames
        exact ⟨(), hauth, (environment, deploymentId), hpath, hdescribe⟩

theorem httpExisting_eq_ok_iff {deployment : DeploymentResp} :
    m.httpExisting = .ok deployment ↔ ∃ described, m.serveDescribe m.describePath = .ok described ∧
      parseDeployment described = .ok deployment := by
  unfold httpExisting httpDescribeDeployment
  cases m.serveDescribe m.describePath with
  | ok described => simp [mapError_eq_ok_iff]
  | error response =>
      by_cases hmissing : response.status = 404 ∨ response.status = 500 ∧
          Text.contains (((response.body.get? "error").bind Json.asStr).getD "")
            "Deployment not found"
      · simp [hmissing]
      · simp [hmissing]

/-- The API finds a deployment, as it is described, or it finds none. -/
theorem httpExisting_cases :
    (∃ record deployment, m.Routed record ∧ DescribedAs record deployment ∧
      m.httpExisting = .ok deployment) ∨
      (∀ record, ¬ m.Routed record) ∧ ∀ deployment, m.httpExisting ≠ .ok deployment := by
  by_cases hok : ∃ deployment, m.httpExisting = .ok deployment
  · obtain ⟨deployment, hdeployment⟩ := hok
    obtain ⟨described, hserved, hparse⟩ := m.httpExisting_eq_ok_iff.1 hdeployment
    obtain ⟨project, region, rest, environment, deploymentId, hroute, hauth, hpath, hdescribe⟩ :=
      m.serveDescribe_eq_ok_iff.1 hserved
    rcases m.load_cases project region environment deploymentId with
      ⟨record, loaded, halone, hchecked, _, hdescribe', hparse'⟩ | ⟨-, hnone⟩
    · cases hdescribe.symm.trans hdescribe'
      cases hparse.symm.trans hparse'
      exact Or.inl ⟨record, deployment,
        ⟨project, region, rest, environment, deploymentId, hroute, hauth, hpath, halone⟩, hchecked,
        hdeployment⟩
    · exact absurd hparse (hnone _ _ hdescribe)
  · refine Or.inr ⟨fun record hrouted => hok ?_, fun deployment h => hok ⟨deployment, h⟩⟩
    obtain ⟨project, region, rest, environment, deploymentId, hroute, hauth, hpath, halone⟩ := hrouted
    rcases m.load_cases project region environment deploymentId with
      ⟨_, loaded, -, -, described, hdescribe, hparse⟩ | ⟨hnone, -⟩
    · refine ⟨loaded, m.httpExisting_eq_ok_iff.2 ⟨described, ?_, hparse⟩⟩
      exact m.serveDescribe_eq_ok_iff.2
        ⟨project, region, rest, environment, deploymentId, hroute, hauth, hpath, hdescribe⟩
    · exact absurd halone (hnone record)

theorem httpVerifyModuleVersion_eq_ok_iff {module version : String} :
    m.httpVerifyModuleVersion module version = .ok () ↔
      ∃ track name servedTrack servedVersion record,
        claimedTrack m.client.registry version = .ok track ∧
          m.server.moduleRoute ("/api/v1/module/" ++ track ++ "/" ++ module ++ "/" ++ version) =
            some (servedTrack, name, servedVersion) ∧
          authMiddleware m.server.auth m.headers none = .ok () ∧
          m.server.claims.registry.getModuleVersion m.store name servedTrack servedVersion =
            .ok (some record) := by
  unfold httpVerifyModuleVersion serveModuleVersion
  rw [bind_eq_ok_iff]
  refine exists_congr fun track => ?_
  cases hroute : m.server.moduleRoute
    ("/api/v1/module/" ++ track ++ "/" ++ module ++ "/" ++ version) with
  | none => simp [hroute, Except.mapError]
  | some names =>
      obtain ⟨servedTrack, name, servedVersion⟩ := names
      cases hauth : authMiddleware m.server.auth m.headers none with
      | error response => simp [hroute, Except.mapError]
      | ok =>
          rcases hfound : m.server.claims.registry.getModuleVersion m.store name servedTrack
            servedVersion with e | _ | record
          · simp [hroute, Except.mapError, hfound]
          · simp [hroute, Except.mapError, hfound]
          · simp [hroute, Except.mapError, hfound]

theorem routePayload_preparedBody {route : ClaimRoute} {prepared : ApiInfraPayloadWithVariables}
    (hcommand : prepared.payload.command = route.command) :
    routePayload m.services m.table m.headers route (preparedBody prepared) =
      (ensureAccess m.server.auth m.headers prepared.payload.projectId).mapError .denied >>=
        fun _ => .ok prepared := by
  have hread := m.server.readPayload_toJson prepared.payload
  have hpayload : (preparedBody prepared).get? "payload" = some prepared.payload.toJson := rfl
  have hvars : (preparedBody prepared).get? "variables" = some prepared.vars := rfl
  simp [routePayload, isPrepared, runPreparedDeploymentAction, hpayload, hvars, hread, hcommand,
    Except.mapError, authorize, services]

/-- What a route accepts is submitted in the project and the region of the payload. -/
theorem post_eq (jobs : JobServices) (route : ClaimRoute) (body : Json) :
    m.post jobs route body =
      (routePayload m.services m.table m.headers route body).toOption.bind fun prepared =>
        jobs.submit ⟨prepared.payload.projectId, prepared.payload.region⟩ m.table prepared := by
  unfold post serveClaimRoute
  cases routePayload m.services m.table m.headers route body with
  | error refusal => rfl
  | ok prepared =>
      have hsubmit := jobs.accepted_runClaimAuthorized
        ⟨prepared.payload.projectId, prepared.payload.region⟩ m.wellFormed_table prepared
      simp only [eval_bind, Except.toOption, Option.bind_some, ← hsubmit]
      generalize Program.eval _ (runClaimAuthorized prepared) = result
      obtain ⟨response, requests⟩ := result
      cases response <;> simp [accepted, Except.mapError]

/-- A claim that is submitted over HTTP is one for a project of the caller. -/
theorem httpSubmitClaimJob_eq (jobs : JobServices) (route : ClaimRoute)
    {prepared : ApiInfraPayloadWithVariables} (hcommand : prepared.payload.command = route.command) :
    m.httpSubmitClaimJob jobs prepared =
      if prepared.payload.projectId ≠ "http-mode-no-project" ∧
          ensureAccess m.server.auth m.headers prepared.payload.projectId = .ok () then
        jobs.submit ⟨prepared.payload.projectId, prepared.payload.region⟩ m.table prepared
      else none := by
  have hroute : commandRoute prepared.payload.command = some route := by
    rw [hcommand]
    cases route <;> rfl
  unfold httpSubmitClaimJob
  simp only [hroute, post_eq, m.routePayload_preparedBody hcommand]
  by_cases hproject : prepared.payload.projectId = "http-mode-no-project"
  · simp [hproject]
  · cases ensureAccess m.server.auth m.headers prepared.payload.projectId with
    | error response => simp [hproject, Except.mapError, Except.toOption]
    | ok => simp [hproject, Except.mapError, Except.toOption]

/-! ### Both modes -/

/-- A record that the API finds may be submitted, as far as the override goes. -/
theorem httpDestroyRequest_eq_ok_iff {extraData : Json} {overrideVersion : Option String}
    {prepared : ApiInfraPayloadWithVariables} :
    m.httpDestroyRequest extraData overrideVersion = .ok prepared ↔ ∃ deployment,
      m.httpExisting = .ok deployment ∧
        m.VersionServed (.destroy extraData overrideVersion) deployment ∧
        m.httpClaim (.destroy extraData overrideVersion) deployment = prepared := by
  unfold httpDestroyRequest
  rw [bind_eq_ok_iff]
  refine exists_congr fun deployment => and_congr_right fun _ => ?_
  cases overrideVersion with
  | none => simp [VersionServed, ExistingRequest.overrideVersion, httpClaim, directClaim]
  | some version =>
      have hverify : m.httpVerifyModuleVersion deployment.module version = .ok () ↔ _ :=
        m.httpVerifyModuleVersion_eq_ok_iff
      rw [bind_eq_ok_iff, Unique.exists_iff, PUnit.default_eq_unit, hverify]
      simp [VersionServed, ExistingRequest.overrideVersion, httpClaim, directClaim]

/-- The claim that a client in HTTP mode submits. -/
theorem httpSubmitClaimJob_httpClaim (jobs : JobServices) (h : request ≠ .selector)
    (record : DeploymentResp) :
    m.httpSubmitClaimJob jobs (m.httpClaim request record) =
      if record.projectId ≠ "http-mode-no-project" ∧
          ensureAccess m.server.auth m.headers record.projectId = .ok () then
        jobs.submit ⟨record.projectId, record.region⟩ m.table (m.httpClaim request record)
      else none := by
  cases request with
  | destroy extraData overrideVersion =>
      exact m.httpSubmitClaimJob_eq jobs .destroy rfl
  | driftcheck remediate extraData =>
      cases remediate with
      | false => exact m.httpSubmitClaimJob_eq jobs .plan rfl
      | true => exact m.httpSubmitClaimJob_eq jobs .apply rfl
  | selector => exact absurd rfl h

/-- The client in HTTP mode submits the claim of the deployment that it reads. -/
theorem overHttp_of_served (jobs : JobServices) (h : request ≠ .selector)
    {deployment : DeploymentResp} (hexisting : m.httpExisting = .ok deployment)
    (hserved : m.VersionServed request deployment) :
    m.overHttp jobs request = m.httpSubmitClaimJob jobs (m.httpClaim request deployment) := by
  cases request with
  | destroy extraData overrideVersion =>
      have hrequest := m.httpDestroyRequest_eq_ok_iff.2 ⟨deployment, hexisting, hserved, rfl⟩
      simp [overHttp, hrequest]
  | driftcheck remediate extraData =>
      simp [overHttp, httpDriftcheckRequest, hexisting, httpClaim, directClaim]
  | selector => exact absurd rfl h

theorem overHttp_of_not_served (jobs : JobServices) (h : request ≠ .selector)
    (hnone : ∀ deployment, m.httpExisting = .ok deployment →
      ¬ m.VersionServed request deployment) : m.overHttp jobs request = none := by
  cases request with
  | destroy extraData overrideVersion =>
      cases hrequest : m.httpDestroyRequest extraData overrideVersion with
      | error e => simp [overHttp, hrequest]
      | ok prepared =>
          obtain ⟨deployment, hexisting, hserved, -⟩ := m.httpDestroyRequest_eq_ok_iff.1 hrequest
          exact absurd hserved (hnone deployment hexisting)
  | driftcheck remediate extraData =>
      cases hexisting : m.httpExisting with
      | error e => simp [overHttp, httpDriftcheckRequest, hexisting]
      | ok deployment =>
          have hserved : m.VersionServed (.driftcheck remediate extraData) deployment := by
            simp [VersionServed, ExistingRequest.overrideVersion]
          exact absurd hserved (hnone deployment hexisting)
  | selector => exact absurd rfl h

theorem bodyStringParam_eq_ok_iff {body : Json} {name text value : String} {others : List String}
    (h : body.get? name = some (.string text)) :
    bodyStringParam body (name :: others) = .ok value ↔ text ≠ "" ∧ text = value := by
  unfold bodyStringParam optionalBodyStringParam
  by_cases hempty : text = ""
  · simp [h, hempty, Json.asStr, Option.filter]
  · simp [h, hempty, Json.asStr, Option.filter]

/-- A body that names the deployment is accepted when the API can load it for the caller. -/
theorem routePayload_selectorBody_eq_ok_iff {prepared : ApiInfraPayloadWithVariables} :
    routePayload m.services m.table m.headers .destroy m.selectorBody = .ok prepared ↔
      m.handler.projectId ≠ "" ∧ m.handler.region ≠ "" ∧ m.environment ≠ "" ∧
        m.deploymentId ≠ "" ∧
        ensureAccess m.server.auth m.headers m.handler.projectId = .ok () ∧
        ∃ deployment, loadDeployment m.server.getJobStatus m.table m.handler.projectId
          m.handler.region m.environment m.deploymentId = .ok deployment ∧
            m.httpClaim .selector deployment = prepared := by
  have hproject : m.selectorBody.get? "project" = some (.string m.handler.projectId) := rfl
  have hregion : m.selectorBody.get? "region" = some (.string m.handler.region) := rfl
  have henvironment : m.selectorBody.get? "environment" = some (.string m.environment) := rfl
  have hdeployment : m.selectorBody.get? "deployment_id" = some (.string m.deploymentId) := rfl
  have hroute : routePayload m.services m.table m.headers .destroy m.selectorBody =
      deploymentActionFromExisting m.services m.table m.headers m.selectorBody "destroy" := rfl
  unfold deploymentActionFromExisting deploymentSelectorFromBody authorize at hroute
  simp only [hroute, bind_eq_ok_iff, mapError_eq_ok_iff, bodyStringParam_eq_ok_iff hproject,
    bodyStringParam_eq_ok_iff hregion, bodyStringParam_eq_ok_iff henvironment,
    bodyStringParam_eq_ok_iff hdeployment]
  constructor
  · rintro ⟨⟨_, _, _, _⟩, ⟨_, ⟨hp, rfl⟩, _, ⟨hr, rfl⟩, _, ⟨he, rfl⟩, _, ⟨hd, rfl⟩, hnames⟩, ⟨⟩,
      haccess, deployment, hload, hclaim⟩
    cases hnames
    exact ⟨hp, hr, he, hd, haccess, deployment, hload, Except.ok.inj hclaim⟩
  · rintro ⟨hp, hr, he, hd, haccess, deployment, hload, hclaim⟩
    exact ⟨(_, _, _, _), ⟨_, ⟨hp, rfl⟩, _, ⟨hr, rfl⟩, _, ⟨he, rfl⟩, _, ⟨hd, rfl⟩, rfl⟩, (), haccess,
      deployment, hload, congrArg Except.ok hclaim⟩

/-- The body that names the deployment starts a job of the record that is described, deleted or not. -/
theorem overHttp_selector_cases :
    (∃ served, m.Named served ∧ ∀ jobs, m.overHttp jobs .selector =
        jobs.submit ⟨served.projectId, served.region⟩ m.table (m.httpClaim .selector served)) ∨
      (∀ served, ¬ m.Named served) ∧ ∀ jobs, m.overHttp jobs .selector = none := by
  have hpost (jobs : JobServices) : m.overHttp jobs .selector = _ :=
    m.post_eq jobs .destroy m.selectorBody
  cases hroute : routePayload m.services m.table m.headers .destroy m.selectorBody with
  | ok prepared =>
      obtain ⟨hp, hr, he, hd, haccess, deployment, hload, hclaim⟩ :=
        m.routePayload_selectorBody_eq_ok_iff.1 hroute
      obtain ⟨described, hdescribe, hparse⟩ := bind_eq_ok_iff.1 hload
      rcases m.load_cases m.handler.projectId m.handler.region m.environment m.deploymentId with
        ⟨record, loaded, halone, hchecked, _, hdescribe', hparse'⟩ | ⟨-, hnone⟩
      · cases hdescribe.symm.trans hdescribe'
        cases hparse.symm.trans hparse'
        refine Or.inl ⟨record, ⟨hp, hr, he, hd, haccess, halone⟩, fun jobs => ?_⟩
        rw [hpost, hroute, ← hclaim, m.httpClaim_describedAs hchecked]
        rfl
      · exact absurd hparse (hnone _ _ hdescribe)
  | error refusal =>
      refine Or.inr ⟨fun served hnamed => ?_, fun jobs => by rw [hpost, hroute]; rfl⟩
      obtain ⟨hp, hr, he, hd, haccess, halone⟩ := hnamed
      rcases m.load_cases m.handler.projectId m.handler.region m.environment m.deploymentId with
        ⟨_, loaded, -, -, described, hdescribe, hparse⟩ | ⟨hnone, -⟩
      · have hload := bind_eq_ok_iff.2 ⟨described, hdescribe, hparse⟩
        have hok := m.routePayload_selectorBody_eq_ok_iff.2
          ⟨hp, hr, he, hd, haccess, loaded, hload, rfl⟩
        cases hok.symm.trans hroute
      · exact hnone served halone

/-- A request over HTTP is one job, of the claim of the record that the API finds, or it is refused. -/
theorem overHttp_cases :
    (∃ served, m.Described request served ∧ m.VersionServed request served ∧
      m.Admitted request served ∧ ∀ jobs, m.overHttp jobs request =
        jobs.submit ⟨served.projectId, served.region⟩ m.table (m.httpClaim request served)) ∨
      (∀ served, m.Described request served → m.VersionServed request served →
        ¬ m.Admitted request served) ∧ ∀ jobs, m.overHttp jobs request = none := by
  by_cases hselector : request = .selector
  · subst hselector
    have hserved (served : DeploymentResp) : m.VersionServed .selector served := by
      simp [VersionServed, ExistingRequest.overrideVersion]
    rcases m.overHttp_selector_cases with ⟨served, hnamed, hsubmit⟩ | ⟨hnone, hrefused⟩
    · exact Or.inl ⟨served, hnamed, hserved served, Or.inl rfl, hsubmit⟩
    · exact Or.inr ⟨fun served hnamed _ _ => hnone served hnamed, hrefused⟩
  · have hdescribed (served : DeploymentResp) :
        m.Described request served ↔ m.Routed served := by
      cases request with
      | selector => exact absurd rfl hselector
      | _ => rfl
    simp only [hdescribed, Admitted, hselector, false_or]
    rcases m.httpExisting_cases with
      ⟨record, deployment, hrouted, hchecked, hexisting⟩ | ⟨hnone, hrefused⟩
    · by_cases hserved : m.VersionServed request record
      · have hsubmit (jobs : JobServices) : m.overHttp jobs request =
            m.httpSubmitClaimJob jobs (m.httpClaim request record) := by
          have hdeployment := (m.versionServed_describedAs hchecked).2 hserved
          rw [m.overHttp_of_served request jobs hselector hexisting hdeployment,
            m.httpClaim_describedAs hchecked]
        simp only [m.httpSubmitClaimJob_httpClaim request _ hselector] at hsubmit
        split at hsubmit
        · rename_i hadmitted
          exact Or.inl ⟨record, hrouted, hserved, hadmitted, hsubmit⟩
        · rename_i hdenied
          refine Or.inr ⟨fun served hrouted' _ hadmitted => hdenied ?_, hsubmit⟩
          obtain rfl := hrouted.unique m hrouted'
          exact hadmitted
      · refine Or.inr ⟨fun served hrouted' hserved' _ => hserved ?_, fun jobs => ?_⟩
        · obtain rfl := hrouted.unique m hrouted'
          exact hserved'
        · refine m.overHttp_of_not_served request jobs hselector fun other hother hserved' => ?_
          obtain rfl := Except.ok.inj (hexisting.symm.trans hother)
          exact hserved ((m.versionServed_describedAs hchecked).1 hserved')
    · refine Or.inr ⟨fun served hrouted _ _ => hnone served hrouted, fun jobs => ?_⟩
      exact m.overHttp_of_not_served request jobs hselector fun deployment hexisting _ =>
        hrefused deployment hexisting

end BothModes

/-! ### Services that tell the modes apart -/

/-- Services where every request succeeds, and the jobs that still run are given. -/
def jobsRunning (runs : String → Bool) : JobServices where
  getJobStatus jobId := .ok (some ⟨jobId, runs jobId⟩)
  runFunction _ := .ok ⟨none, some "job"⟩
  sendDeployment _ := .ok 0
  named := by
    intro payload response h
    obtain rfl := Except.ok.inj h
    exact ⟨"job", by decide, rfl⟩

theorem submit_jobsRunning (runs : String → Bool) (handler : WorkloadHandler) (t : Deployments)
    (prepared : ApiInfraPayloadWithVariables) :
    (jobsRunning runs).submit handler t prepared =
      if (busyJob t handler prepared.payload.deploymentId prepared.payload.environment).any runs then
        none
      else some ⟨[prepared.payload], [.ofRequest prepared "job"]⟩ := by
  have hruns : (jobsRunning runs).stillRuns = runs := rfl
  simp only [JobServices.submit, hruns]
  rfl

/-- An option is known by the tests that its value passes. -/
theorem option_eq_of_any {α : Type} [DecidableEq α] {x y : Option α}
    (h : ∀ p : α → Bool, x.any p = y.any p) : x = y := by
  refine Option.ext fun a => ?_
  have hany (z : Option α) : z.any (fun b => b = a) = true ↔ z = some a := by
    cases z <;> simp
  rw [← hany x, ← hany y, h]

/-- Two claims are submitted alike when they are the same and wait for the same job. -/
theorem submit_agree_iff {t : Deployments} {handler handler' : WorkloadHandler}
    {prepared prepared' : ApiInfraPayloadWithVariables} :
    (∀ jobs : JobServices, jobs.submit handler t prepared = jobs.submit handler' t prepared') ↔
      prepared = prepared' ∧
        busyJob t handler prepared.payload.deploymentId prepared.payload.environment =
          busyJob t handler' prepared'.payload.deploymentId prepared'.payload.environment := by
  constructor
  · intro h
    have hruns (runs : String → Bool) := h (jobsRunning runs)
    simp only [submit_jobsRunning] at hruns
    have hsame : prepared = prepared' := by
      -- No job runs, so both are started.
      have hidle := hruns fun _ => false
      simp only [Option.any_false, Bool.false_eq_true, if_false, Option.some.injEq,
        Started.mk.injEq, List.cons.injEq, and_true] at hidle
      have hvars := congrArg DeploymentStatusHandler.vars hidle.2
      cases prepared
      cases prepared'
      simp_all [DeploymentStatusHandler.ofRequest]
    refine ⟨hsame, option_eq_of_any fun runs => ?_⟩
    have hequal := hruns runs
    subst hsame
    generalize busyJob t handler _ _ = job at hequal ⊢
    generalize busyJob t handler' _ _ = job' at hequal ⊢
    cases hjob : job.any runs <;> cases hjob' : job'.any runs <;> simp_all
  · rintro ⟨rfl, hbusy⟩ jobs
    simp only [JobServices.submit, hbusy]

namespace BothModes

variable (m : BothModes) (request : ExistingRequest)

variable {m request} in
theorem Described.unique {a b : DeploymentResp} (ha : m.Described request a)
    (hb : m.Described request b) : a = b := by
  cases request with
  | selector => exact ha.2.2.2.2.2.unique m hb.2.2.2.2.2
  | destroy extraData overrideVersion => exact Routed.unique m ha hb
  | driftcheck remediate extraData => exact Routed.unique m ha hb

@[simp] theorem directClaim_deploymentId (record : DeploymentResp) :
    (m.directClaim request record).payload.deploymentId = m.deploymentId := by
  cases request <;> rfl

@[simp] theorem directClaim_environment (record : DeploymentResp) :
    (m.directClaim request record).payload.environment = record.environment := by
  cases request <;> rfl

@[simp] theorem httpClaim_environment (record : DeploymentResp) :
    (m.httpClaim request record).payload.environment = record.environment := by
  cases request <;> rfl

variable {m request} in
theorem SameClaim.httpClaim_deploymentId {record served : DeploymentResp}
    (h : m.SameClaim request record served) :
    (m.httpClaim request served).payload.deploymentId = m.deploymentId := by
  cases request with
  | selector => exact (h.named rfl).1.symm
  | destroy extraData overrideVersion => rfl
  | driftcheck remediate extraData => rfl

end BothModes

/-! ## A deployment that is already deleted -/

/-- Paths without escapes, as the router takes them apart. -/
def plainDeploymentRoute (path : String) : Option (String × String × String) :=
  match Text.split '/' ((Text.stripPrefix "/api/v1/deployment/" path).getD "") with
  | project :: region :: part :: parts =>
      if project = "" ∨ region = "" then none
      else some (project, region, "/".intercalate (part :: parts))
  | _ => none

def plainModuleRoute (path : String) : Option (String × String × String) :=
  match Text.split '/' ((Text.stripPrefix "/api/v1/module/" path).getD "") with
  | [track, name, version] =>
      if track = "" ∨ name = "" ∨ version = "" then none else some (track, name, version)
  | _ => none

def localHttpServer : HttpServer where
  toRouteServices := { emptyRouteServices with readPayload := ApiInfraPayload.ofJson }
  deploymentRoute := plainDeploymentRoute
  moduleRoute := plainModuleRoute
  readPayload_toJson := ApiInfraPayload.ofJson_toJson

def deletedInBothModes : BothModes where
  server := localHttpServer
  headers := callerHeaders
  getUserId := .ok "alice"
  store := .empty
  calls := [{ applied with deployment := { webDeployment with deleted := true } }]
  handler := localWorkload
  environment := "cli/default"
  deploymentId := "web/a"

end InternalApi
end InfraWeave
