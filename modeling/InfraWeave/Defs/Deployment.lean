import InfraWeave.Defs.Yaml

/-!
# Deployments

The records of the deployments table, the claims that users write, and the requests that are made
from them.  Results of policies, and the data about a pull request that a request carries along,
are kept as JSON.  The `variables` of the source are `vars` here.
-/

namespace InfraWeave

inductive DeploymentStatus where
  | requested
  | initiated
  | successful
  | failed
  | error
  | failedInit
  | failedValidate
  | failedPlan
  | failedShowPlan
  | failedOutput
  | failedPrepare
  | failedIntegrityCheck
  | failedPolicy
  | waitingOnDependency
  | hasDependants
  | failedGraph
  deriving DecidableEq

namespace DeploymentStatus

def text : DeploymentStatus → String
  | requested => "requested"
  | initiated => "initiated"
  | successful => "successful"
  | failed => "failed"
  | error => "error"
  | failedInit => "failed_init"
  | failedValidate => "failed_validate"
  | failedPlan => "failed_plan"
  | failedShowPlan => "failed_show_plan"
  | failedOutput => "failed_output"
  | failedPrepare => "failed_prepare"
  | failedIntegrityCheck => "failed_integrity_check"
  | failedPolicy => "failed_policy"
  | waitingOnDependency => "waiting-on-dependency"
  | hasDependants => "has-dependants"
  | failedGraph => "failed_graph"

def isBusy : DeploymentStatus → Bool
  | requested => true
  | initiated => true
  | _ => false

/-- No more updates are expected. -/
def isFinal : DeploymentStatus → Bool
  | requested => false
  | initiated => false
  | _ => true

end DeploymentStatus

/-- `get_deployment_identifier`; its second branch is never taken. -/
def getDeploymentIdentifier (projectId region deploymentId environment : String) : String :=
  if environment.isEmpty then projectId ++ "::" ++ region
  else if environment.isEmpty && deploymentId.isEmpty then
    projectId ++ "::" ++ region ++ "::" ++ environment
  else projectId ++ "::" ++ region ++ "::" ++ environment ++ "::" ++ deploymentId

structure Dependency where
  projectId : String
  region : String
  deploymentId : String
  environment : String
  deriving DecidableEq

structure Dependent where
  projectId : String
  region : String
  dependentId : String
  environment : String
  deriving DecidableEq

def Dependency.identifier (d : Dependency) : String :=
  getDeploymentIdentifier d.projectId d.region d.deploymentId d.environment

def Dependent.identifier (d : Dependent) : String :=
  getDeploymentIdentifier d.projectId d.region d.dependentId d.environment

structure DriftDetection where
  enabled : Bool
  interval : String
  autoRemediate : Bool
  webhooks : List (Option String)
  deriving DecidableEq

def defaultDriftDetectionInterval : String :=
  "15m"

/-- A drift detection that is read from an empty object. -/
def DriftDetection.default : DriftDetection :=
  ⟨false, defaultDriftDetectionInterval, false, []⟩

structure DeploymentResp where
  epoch : Nat
  deploymentId : String
  status : DeploymentStatus
  jobId : String
  environment : String
  projectId : String
  region : String
  module : String
  moduleVersion : String
  moduleType : String
  moduleTrack : String
  driftDetection : DriftDetection
  nextDriftCheckEpoch : Int
  hasDrifted : Bool
  vars : Json
  output : Json
  policyResults : List Json
  errorText : String
  deleted : Bool
  dependencies : List Dependency
  initiatedBy : String
  cpu : String
  memory : String
  reference : String
  tfResources : Option (List String)
  deriving DecidableEq

def DeploymentResp.identifier (d : DeploymentResp) : String :=
  getDeploymentIdentifier d.projectId d.region d.deploymentId d.environment

/-! ## Claims -/

structure Metadata where
  name : String
  annotations : Option YamlMapping

structure DependencySpec where
  deploymentId : String
  environment : String
  deriving DecidableEq

structure DeploymentSpec where
  moduleVersion : Option String
  stackVersion : Option String
  region : String
  reference : Option String
  vars : YamlMapping
  dependencies : Option (List DependencySpec)
  driftDetection : Option DriftDetection

structure DeploymentManifest where
  metadata : Metadata
  apiVersion : String
  kind : String
  spec : DeploymentSpec

/-! ## Requests -/

structure ApiInfraPayload where
  command : String
  flags : List String
  module : String
  moduleVersion : String
  moduleType : String
  moduleTrack : String
  name : String
  environment : String
  deploymentId : String
  projectId : String
  region : String
  driftDetection : DriftDetection
  nextDriftCheckEpoch : Int
  annotations : Json
  dependencies : List Dependency
  initiatedBy : String
  cpu : String
  memory : String
  reference : String
  extraData : Json
  deriving DecidableEq

structure ApiInfraPayloadWithVariables where
  payload : ApiInfraPayload
  vars : Json
  deriving DecidableEq

structure JobStatus where
  jobId : String
  isRunning : Bool
  deriving DecidableEq

end InfraWeave
