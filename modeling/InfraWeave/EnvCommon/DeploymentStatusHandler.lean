import InfraWeave.EnvCommon.ApiInfra

/-!
# The record of a request

A status handler collects what is known about a request and stores the record of the deployment.
-/

namespace InfraWeave
namespace EnvCommon

structure DeploymentStatusHandler where
  command : String
  module : String
  moduleVersion : String
  moduleType : String
  moduleTrack : String
  status : DeploymentStatus
  environment : String
  deploymentId : String
  projectId : String
  region : String
  errorText : String
  jobId : String
  vars : Json
  driftDetection : DriftDetection
  hasDrifted : Bool
  isDriftCheck : Bool
  deleted : Bool
  dependencies : List Dependency
  output : Json
  policyResults : List Json
  initiatedBy : String
  cpu : String
  memory : String
  reference : String
  tfResources : Option (List String)

namespace DeploymentStatusHandler

/-- The handler that `insert_request_event` makes for a payload. -/
def ofRequest (prepared : ApiInfraPayloadWithVariables) (jobId : String) :
    DeploymentStatusHandler where
  command := prepared.payload.command
  module := prepared.payload.module
  moduleVersion := prepared.payload.moduleVersion
  moduleType := prepared.payload.moduleType
  moduleTrack := prepared.payload.moduleTrack
  status := .requested
  environment := prepared.payload.environment
  deploymentId := prepared.payload.deploymentId
  projectId := prepared.payload.projectId
  region := prepared.payload.region
  errorText := ""
  jobId
  vars := prepared.vars
  driftDetection := prepared.payload.driftDetection
  hasDrifted := false
  isDriftCheck := false
  deleted := false
  dependencies := prepared.payload.dependencies
  output := .null
  policyResults := []
  initiatedBy := prepared.payload.initiatedBy
  cpu := prepared.payload.cpu
  memory := prepared.payload.memory
  reference := prepared.payload.reference
  tfResources := none

variable (h : DeploymentStatusHandler)

def isPlan : Bool :=
  h.command = "plan"

def isFinalUpdate : Bool :=
  h.status.isFinal

/-- The durations of drift detection are read by a library, in milliseconds. -/
def getNextDriftCheckEpoch (parseDuration : String → Option Nat) (epoch : Nat) : Int :=
  if !h.driftDetection.enabled || h.driftDetection.interval.isEmpty then -1
  else if !h.isFinalUpdate then -1
  else if h.command = "destroy" then -1
  else
    match parseDuration h.driftDetection.interval with
    | some milliseconds => epoch + milliseconds
    | none => -1

def deployment (parseDuration : String → Option Nat) (epoch : Nat) : DeploymentResp where
  epoch
  deploymentId := h.deploymentId
  projectId := h.projectId
  region := h.region
  status := h.status
  jobId := h.jobId
  environment := h.environment
  module := h.module
  moduleVersion := h.moduleVersion
  moduleType := h.moduleType
  moduleTrack := h.moduleTrack
  vars := h.vars
  driftDetection := h.driftDetection
  nextDriftCheckEpoch := h.getNextDriftCheckEpoch parseDuration epoch
  hasDrifted := h.hasDrifted
  output := h.output
  policyResults := h.policyResults
  errorText := h.errorText
  deleted := h.deleted
  dependencies := h.dependencies
  initiatedBy := h.initiatedBy
  cpu := h.cpu
  memory := h.memory
  reference := h.reference
  tfResources := h.tfResources

/-- A drift check updates the record of the deployment too, after that of the plan. -/
def sendDeployment (parseDuration : String → Option Nat) (epoch : Nat) (t : Deployments)
    (handler : WorkloadHandler) : Outcome Transaction String Unit := do
  let deployment := h.deployment parseDuration epoch
  let first := setDeployment t handler deployment h.isPlan
  first.mapError ("Error inserting deployment: " ++ ·)
  if h.isDriftCheck && h.isFinalUpdate then
    (setDeployment (first.writes.foldl KeyedTable.transact t) handler deployment false).mapError
      ("Error inserting drifted deployment: " ++ ·)
  else pure ()

end DeploymentStatusHandler
end EnvCommon
end InfraWeave
