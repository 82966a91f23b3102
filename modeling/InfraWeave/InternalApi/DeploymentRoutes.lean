import InfraWeave.EnvCommon.ClaimJobs
import InfraWeave.EnvCommon.DeploymentIdentity
import InfraWeave.InternalApi.DescribeDeployment
import InfraWeave.InternalApi.HttpAuthz

/-!
# Routes that start jobs

A body of `/apply`, `/plan` or `/destroy` is a claim, the names of a deployment, or a payload that
the client has prepared.  All three end in the same job, but not all of them are checked.
-/

namespace InfraWeave
namespace InternalApi

open EnvCommon

/-- Why a body is refused. -/
inductive Refusal where
  | badRequest (message : String)
  | denied (response : Response)
  | failed (message : String)
  deriving DecidableEq

/-- What the routes are given: the readers of payloads and claims, the modules of each region, and
the services behind them. -/
structure RouteServices where
  claims : ClaimServices
  auth : AuthConfig
  getJobStatus : JobStatuses
  readPayload : Json → Except String ApiInfraPayload
  parseYaml : String → Except String Yaml
  toYaml : Json → Except String Yaml
  readManifest : Yaml → Except String DeploymentManifest
  modules : String → RegionStore

inductive ClaimRoute where
  | apply
  | plan
  | destroy
  deriving DecidableEq

def ClaimRoute.command : ClaimRoute → String
  | apply => "apply"
  | plan => "plan"
  | destroy => "destroy"

/-! ## Parameters of a body -/

/-- The first of the names under which there is a text; an empty text is as good as none. -/
def optionalBodyStringParam (body : Json) (names : List String) : Option String :=
  (names.findSome? fun name => (body.get? name).bind Json.asStr).filter (· ≠ "")

def bodyStringParam (body : Json) (names : List String) : Except Refusal String :=
  match optionalBodyStringParam body names with
  | some text => .ok text
  | none => .error (.badRequest ("Missing '" ++ "' or '".intercalate names ++ "' parameter"))

def bodyStringArrayParam (body : Json) (name : String) : Except Refusal (List String) :=
  match body.get? name with
  | some (.array values) => values.mapM fun value =>
      match value.asStr with
      | some text => .ok text
      | none => .error (.badRequest ("'" ++ name ++ "' must contain only strings"))
  | some _ => .error (.badRequest ("'" ++ name ++ "' must be an array of strings"))
  | none => .ok []

/-- `get` of a mapping. -/
def yamlField (key : String) : Yaml → Option Yaml
  | .mapping entries => YamlMapping.get? key entries
  | _ => none

def yamlText : Yaml → Option String
  | .string text => some text
  | _ => none

section

variable (services : RouteServices)

def bodyClaimParam (body : Json) : Except Refusal Yaml :=
  match body.get? "claim" <|> body.get? "manifest" <|> body.get? "deployment" with
  | none => .error (.badRequest "Missing 'claim' or 'manifest' parameter")
  | some claim =>
      match claim.asStr with
      | some text =>
          (services.parseYaml text).mapError fun e => .badRequest ("Invalid claim YAML: " ++ e)
      | none =>
          (services.toYaml claim).mapError fun e => .badRequest ("Invalid claim manifest: " ++ e)

/-- The region of the body goes before the one of the claim. -/
def regionFromClaimOrBody (body : Json) (claim : Yaml) : Except Refusal String :=
  match optionalBodyStringParam body ["region"] with
  | some region => .ok region
  | none =>
      match ((yamlField "spec" claim).bind (yamlField "region")).bind yamlText with
      | some region => .ok region
      | none => .error (.badRequest "Missing 'region' parameter")

def deploymentSelectorFromBody (body : Json) :
    Except Refusal (String × String × String × String) := do
  let project ← bodyStringParam body ["project", "project_id"]
  let region ← bodyStringParam body ["region"]
  let environment ← bodyStringParam body ["environment", "environment_id"]
  let deploymentId ← bodyStringParam body ["deployment_id"]
  .ok (project, region, environment, deploymentId)

/-! ## Routes -/

variable (t : Deployments) (headers : Headers)

def authorize (project : String) : Except Refusal Unit :=
  (ensureAccess services.auth headers project).mapError .denied

/-- The payload and the variables of the client are taken as they are. -/
def runPreparedDeploymentAction (body : Json) (expectedCommand : String) :
    Except Refusal ApiInfraPayloadWithVariables :=
  match body.get? "payload", body.get? "variables" with
  | none, _ => .error (.badRequest "Missing 'payload' field")
  | some _, none => .error (.badRequest "Missing 'variables' field")
  | some payloadValue, some vars => do
      let payload ← (services.readPayload payloadValue).mapError fun e =>
        .badRequest ("Invalid payload: " ++ e)
      if payload.command ≠ expectedCommand then
        .error (.badRequest ("Payload command '" ++ payload.command ++
          "' does not match endpoint command '" ++ expectedCommand ++ "'"))
      else do
        authorize services headers payload.projectId
        .ok ⟨payload, vars⟩

def isPrepared (body : Json) : Bool :=
  (body.get? "payload").isSome || (body.get? "variables").isSome

/-- A claim is checked in the region of the handler, and runs in its own. -/
def runClaimAction (body : Json) (command : String) :
    Except Refusal ApiInfraPayloadWithVariables := do
  let project ← bodyStringParam body ["project", "project_id"]
  let environment ← bodyStringParam body ["environment", "environment_id"]
  let claim ← bodyClaimParam services body
  let region ← regionFromClaimOrBody body claim
  let flags ← bodyStringArrayParam body "flags"
  authorize services headers project
  let reference := (optionalBodyStringParam body ["reference"]).getD ("api-" ++ command)
  let manifest ← (services.readManifest claim).mapError fun e =>
    .badRequest ("Failed to parse claim YAML to DeploymentManifest: " ++ e)
  let (_, prepared) ← (validateAndPrepareClaim services.claims ⟨project, region⟩
    (services.modules region) t manifest environment command flags .null reference).mapError
      .badRequest
  .ok prepared

/-- The payload that destroys a deployment. -/
def existingPayload (command : String) (deployment : DeploymentResp) :
    ApiInfraPayloadWithVariables where
  payload :=
    { command, flags := []
      module := services.claims.toLowercase deployment.module
      moduleVersion := deployment.moduleVersion
      moduleType := deployment.moduleType
      moduleTrack := deployment.moduleTrack
      name := ""
      environment := deployment.environment
      deploymentId := deployment.deploymentId
      projectId := deployment.projectId
      region := deployment.region
      driftDetection := deployment.driftDetection
      nextDriftCheckEpoch := -1
      annotations := .object []
      dependencies := deployment.dependencies
      initiatedBy := (services.claims.getUserId.toOption).getD "api"
      cpu := deployment.cpu
      memory := deployment.memory
      reference := deployment.reference
      extraData := .null }
  vars := deployment.vars

def deploymentActionFromExisting (body : Json) (command : String) :
    Except Refusal ApiInfraPayloadWithVariables := do
  let (project, region, environment, deploymentId) ← deploymentSelectorFromBody body
  authorize services headers project
  let deployment ← (loadDeployment services.getJobStatus t project region environment
    deploymentId).mapError .failed
  .ok (existingPayload services command deployment)

/-- What a route hands on to be started. -/
def routePayload (route : ClaimRoute) (body : Json) : Except Refusal ApiInfraPayloadWithVariables :=
  if isPrepared body then runPreparedDeploymentAction services headers body route.command
  else
    match route with
    | .destroy => deploymentActionFromExisting services t headers body route.command
    | _ => runClaimAction services t headers body route.command

def serveClaimRoute (route : ClaimRoute) (body : Json) :
    Remote (Except Refusal RunnerResponse) :=
  match routePayload services t headers route body with
  | .error refusal => .done (.error refusal)
  | .ok prepared => do
      let response ← runClaimAuthorized prepared
      .done (response.mapError .failed)

end

end InternalApi
end InfraWeave
