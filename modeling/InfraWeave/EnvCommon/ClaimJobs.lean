import InfraWeave.EnvCommon.DeploymentRuns
import InfraWeave.EnvCommon.DeploymentStatusHandler
import InfraWeave.Lib.Program
import Mathlib.Logic.Function.Basic

/-!
# Jobs of claims

A client that submits a claim reads the record of the deployment, starts a runner and stores the
record of its request; the runner reads the record, carries the claim out and stores the result.
Every one of these is a request to a remote service.
-/

namespace InfraWeave
namespace EnvCommon

/-- The answer of the service that starts runners. -/
structure RunnerResponse where
  taskArn : Option String
  jobId : Option String
  deriving DecidableEq

/-- What the runner knows when it has carried out a claim, or has given it up. -/
structure TerraformOutcome where
  status : DeploymentStatus
  isFinal : status.isFinal = true
  errorText : String
  output : Json
  policyResults : List Json
  deleted : Bool
  tfResources : Option (List String)

inductive Request where
  | getDeployment (deploymentId environment : String) (includeDeleted : Bool)
  | getJobStatus (jobId : String)
  | runFunction (payload : ApiInfraPayload)
  | sendDeployment (record : DeploymentStatusHandler)
  | getCurrentJobId
  | terraform (payload : ApiInfraPayload)

namespace Request

/-- A record that has been stored is answered by its epoch. -/
abbrev Answer : Request → Type
  | getDeployment _ _ _ => Except String (Option DeploymentResp)
  | getJobStatus _ => Except String (Option JobStatus)
  | runFunction _ => Except String RunnerResponse
  | sendDeployment _ => Except String Nat
  | getCurrentJobId => Except String String
  | terraform _ => TerraformOutcome

end Request

abbrev Remote :=
  Program Request Request.Answer

open Program Request

/-! ## Clients -/

/-- A deployment that cannot be read counts as one that is not in progress. -/
def isDeploymentInProgress (deploymentId environment : String) (jobCheck includeDeleted : Bool) :
    Remote (Bool × String × String × Option DeploymentResp) :=
  .call (.getDeployment deploymentId environment includeDeleted) fun
    | .error _ => .done (false, "", "", none)
    | .ok none => .done (false, "", "", none)
    | .ok (some deployment) =>
        let busy := (true, deployment.jobId, deployment.status.text, some deployment)
        if deployment.status.isBusy then
          if jobCheck then
            .call (.getJobStatus deployment.jobId) fun
              | .ok (some status) =>
                  if status.isRunning then .done busy
                  else .done (false, "", deployment.status.text, some deployment)
              | .ok none => .done busy
              | .error _ => .done busy
          else .done busy
        else .done (false, "", deployment.status.text, some deployment)

def insertRequestEvent (prepared : ApiInfraPayloadWithVariables) (jobId : String) :
    Remote (Except String Unit) :=
  .call (.sendDeployment (.ofRequest prepared jobId)) fun answer =>
    .done (answer.map fun _ => ())

/-- A response without a job ends the process. -/
def submitClaimJob (prepared : ApiInfraPayloadWithVariables) : Remote (Except String String) := do
  let (inProgress, jobId, _, _) ← isDeploymentInProgress prepared.payload.deploymentId
    prepared.payload.environment true false
  if inProgress then
    .done (.error ("A job for this deployment is already in progress: " ++ jobId))
  else
    .call (.runFunction prepared.payload) fun
      | .error e => .done (.error ("Failed to deploy claim: Failed to run mutate_infra: " ++ e))
      | .ok response =>
          match response.jobId with
          | none => .done (.error "called `Option::unwrap()` on a `None` value")
          | some jobId => do
              let inserted ← insertRequestEvent prepared jobId
              .done (inserted.map fun _ => jobId)

/-- The job of a response is taken from its task when the response does not name it. -/
def responseJobId (response : RunnerResponse) : String :=
  let taskArn := response.taskArn.getD ""
  match response.jobId.filter (· ≠ "") with
  | some jobId => jobId
  | none => (Text.split '/' taskArn).getLast?.getD taskArn

def runClaimAuthorized (prepared : ApiInfraPayloadWithVariables) :
    Remote (Except String RunnerResponse) := do
  let (inProgress, jobId, _, _) ← isDeploymentInProgress prepared.payload.deploymentId
    prepared.payload.environment true false
  if inProgress then
    .done (.error ("Deployment '" ++ prepared.payload.deploymentId ++ "' in environment '" ++
      prepared.payload.environment ++ "' already has job '" ++ jobId ++ "' in progress"))
  else
    .call (.runFunction prepared.payload) fun
      | .error e => .done (.error e)
      | .ok response =>
          let jobId := responseJobId response
          if jobId = "" then
            .done (.error "Runner response did not include a job identifier")
          else do
            let inserted ← insertRequestEvent prepared jobId
            .done (inserted.map fun _ => ⟨some (response.taskArn.getD ""), some jobId⟩)

/-! ## Runners -/

/-- The handler with which a runner begins; it does not know its job yet. -/
def initiateDeploymentStatusHandler (payload : ApiInfraPayload) : DeploymentStatusHandler :=
  { DeploymentStatusHandler.ofRequest ⟨payload, .null⟩ "unknown_jobid" with status := .initiated }

/-- The record that a runner stores last. -/
def finish (record : DeploymentStatusHandler) : Remote Unit :=
  .call (.sendDeployment record) fun _ => .done ()

def flushFailedStatus (record : DeploymentStatusHandler) (errorText : String) : Remote Unit :=
  finish { record with status := .failed, errorText }

/-- The runner of a claim that is applied or destroyed: a job other than the one that is stored
fails.  The steps that change the infrastructure are one request. -/
def runTerraformRunner (payload : ApiInfraPayload) : Remote Unit :=
  let record := initiateDeploymentStatusHandler payload
  .call (.getDeployment payload.deploymentId payload.environment false) fun
    | .error e => flushFailedStatus record ("Error getting deployment: " ++ e)
    | .ok none =>
        flushFailedStatus record
          ("Deployment not found: " ++ payload.deploymentId ++ " in " ++ payload.environment)
    | .ok (some deployment) =>
        let record := { record with vars := deployment.vars }
        .call (.getDeployment payload.deploymentId payload.environment false) fun
          | .error e => flushFailedStatus record ("Error getting initial deployment: " ++ e)
          | .ok initial =>
              let record :=
                { record with
                  output := (initial.map DeploymentResp.output).getD record.output
                  policyResults :=
                    (initial.map DeploymentResp.policyResults).getD record.policyResults }
              .call .getCurrentJobId fun
                | .error _ =>
                    flushFailedStatus record
                      "The job failed to fetch the job id, please retry again."
                | .ok jobId =>
                    let record := { record with jobId }
                    if jobId ≠ deployment.jobId then
                      flushFailedStatus record
                        ("Job ID does not match the one in the database, which means that the " ++
                          "variables cannot be trusted: " ++ jobId ++ " != " ++ deployment.jobId)
                    else
                      .call (.sendDeployment record) fun
                        | .error e =>
                            flushFailedStatus record ("Error inserting deployment: " ++ e)
                        | .ok _ =>
                            .call (.terraform payload) fun outcome =>
                              finish
                                { record with
                                  status := outcome.status
                                  errorText := outcome.errorText
                                  output := outcome.output
                                  policyResults := outcome.policyResults
                                  deleted := outcome.deleted
                                  tfResources := outcome.tfResources }

end EnvCommon
end InfraWeave
