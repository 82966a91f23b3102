import InfraWeave.Lib.Text

/-!
# Custom resources

The object that a user applies to a cluster: the operator reads its metadata and its status, hands
its specification on with a claim, and patches the status.  Absent fields of the status are `none`.
-/

namespace InfraWeave
namespace Operator

def finalizerName : String :=
  "deletion-handler.finalizer.infraweave.io"

structure ResourceStatus where
  resourceStatus : Option String
  lastDeploymentEvent : Option String
  lastCheck : Option String
  jobId : Option String
  deploymentId : Option String
  lastGeneration : Option Int
  logs : Option String
  retryCount : Option Int
  /-- In milliseconds. -/
  lastFailureEpoch : Option Nat
  deriving DecidableEq

namespace ResourceStatus

def empty : ResourceStatus :=
  ⟨none, none, none, none, none, none, none, none, none⟩

def currentJobId (s : ResourceStatus) : String :=
  s.jobId.getD ""

def currentDeploymentId (s : ResourceStatus) : String :=
  s.deploymentId.getD ""

def currentStatus (s : ResourceStatus) : String :=
  s.resourceStatus.getD ""

def observedGeneration (s : ResourceStatus) : Int :=
  s.lastGeneration.getD 0

def retries (s : ResourceStatus) : Int :=
  s.retryCount.getD 0

end ResourceStatus

/-- A merge patch of a status.  A field that is not in the patch stays as it is; only the time of the
last failure is ever set to null. -/
structure StatusPatch where
  resourceStatus : Option String := none
  lastDeploymentEvent : Option String := none
  lastCheck : Option String := none
  jobId : Option String := none
  deploymentId : Option String := none
  lastGeneration : Option Int := none
  logs : Option String := none
  retryCount : Option Int := none
  lastFailureEpoch : Option (Option Nat) := none

/-- The status after a merge patch. -/
def ResourceStatus.merge (s : ResourceStatus) (patch : StatusPatch) : ResourceStatus where
  resourceStatus := patch.resourceStatus.or s.resourceStatus
  lastDeploymentEvent := patch.lastDeploymentEvent.or s.lastDeploymentEvent
  lastCheck := patch.lastCheck.or s.lastCheck
  jobId := patch.jobId.or s.jobId
  deploymentId := patch.deploymentId.or s.deploymentId
  lastGeneration := patch.lastGeneration.or s.lastGeneration
  logs := patch.logs.or s.logs
  retryCount := patch.retryCount.or s.retryCount
  lastFailureEpoch := patch.lastFailureEpoch.getD s.lastFailureEpoch

/-- An object whose specification is a `σ`. -/
structure Resource (σ : Type) where
  name : Option String
  inNamespace : Option String
  generation : Option Int
  deletionTimestamp : Option String
  finalizers : List String
  spec : σ
  status : ResourceStatus
  deriving DecidableEq

namespace Resource

variable {σ : Type}

def namespaceOrDefault (r : Resource σ) : String :=
  r.inNamespace.getD "default"

def metadataGeneration (r : Resource σ) : Int :=
  r.generation.getD 0

def IsDeleted (r : Resource σ) : Prop :=
  r.deletionTimestamp.isSome = true

instance (r : Resource σ) : Decidable r.IsDeleted := by
  unfold IsDeleted
  infer_instance

def hasFinalizer (r : Resource σ) : Bool :=
  r.finalizers.contains finalizerName

def mergeStatus (r : Resource σ) (patch : StatusPatch) : Resource σ :=
  { r with status := r.status.merge patch }

/-- The status says that the job is one that destroys. -/
def isDestroyJob (r : Resource σ) : Bool :=
  Text.contains r.status.currentStatus "Delete"

/-- The check by which an edit counts as taken up already. -/
def GenerationUnchanged (r : Resource σ) : Prop :=
  r.status.observedGeneration = r.metadataGeneration ∧ 0 < r.status.observedGeneration

instance (r : Resource σ) : Decidable r.GenerationUnchanged := by
  unfold GenerationUnchanged
  infer_instance

end Resource
end Operator
end InfraWeave
