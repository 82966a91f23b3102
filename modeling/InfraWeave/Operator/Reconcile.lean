import InfraWeave.EnvCommon.ClaimJobs
import InfraWeave.Lib.Process
import InfraWeave.Operator.Resource
import Mathlib.Algebra.Group.Nat.Defs

/-!
# Reconciliation of a custom resource

The controller hands `reconcile` a copy of the resource from its cache, which may be older than the
object in the cluster.  Nothing is kept between two calls: what the operator knows of its job is in
the status of the resource.
-/

namespace InfraWeave
namespace Operator

open EnvCommon (Remote)

/-- Requests to the cluster are about the one object that the copy is a copy of. -/
inductive Operation (σ : Type) where
  | get
  | patchStatus (patch : StatusPatch)
  | patchFinalizers (finalizers : List String)
  | runClaim (resource : Resource σ) (environment command : String)
  | cloud (request : EnvCommon.Request)
  | getChangeRecord (environment deploymentId jobId changeType : String)
  | readLogs (jobId : String)
  | now

namespace Operation

/-- A claim is answered by the job and the deployment, a change record by its output, logs by their
messages, and the clock by milliseconds. -/
abbrev Answer {σ : Type} : Operation σ → Type
  | get => Except String (Resource σ)
  | patchStatus _ => Except String Unit
  | patchFinalizers _ => Except String Unit
  | runClaim _ _ _ => Except String (String × String)
  | cloud request => request.Answer
  | getChangeRecord _ _ _ _ => Except String String
  | readLogs _ => Except String (List String)
  | now => Nat

def isClaim {σ : Type} : Operation σ → Bool
  | runClaim _ _ _ => true
  | _ => false

end Operation

inductive Action where
  | awaitChange
  | requeue (seconds : Nat)
  deriving DecidableEq

abbrev Reconciliation (σ : Type) (α : Type) :=
  Process (Operation σ) Operation.Answer Unit String α

/-- The texts of points in time, given in milliseconds. -/
structure Clock where
  epochToTimestamp : Nat → String
  parseFromRfc3339 : String → Option Int

/-- The controller of the resources of one kind. -/
structure Controller where
  clusterId : String
  kind : String
  clock : Clock

namespace Controller

variable {σ α : Type}

open Process

def unwrap (x : Option α) : Reconciliation σ α :=
  match x with
  | some a => pure a
  | none => stop "called `Option::unwrap()` on a `None` value"

/-- The requests of a client of the deployments, made by the operator. -/
def onCloud : Remote α → Reconciliation σ α
  | .done a => pure a
  | .call request next => fun s => .call (.cloud request) fun answer => onCloud (next answer) s

/-! ## Requests -/

def get : Reconciliation σ (Resource σ) :=
  request .get id

def patchStatus (patch : StatusPatch) : Reconciliation σ Unit :=
  request (.patchStatus patch) id

def patchFinalizers (finalizers : List String) : Reconciliation σ Unit :=
  request (.patchFinalizers finalizers) id

/-- A refused claim does not stop the reconciliation yet. -/
def runClaim (resource : Resource σ) (environment command : String) :
    Reconciliation σ (Except String (String × String)) :=
  request (.runClaim resource environment command) .ok

def getChangeRecord (environment deploymentId jobId changeType : String) :
    Reconciliation σ (Option String) :=
  request (.getChangeRecord environment deploymentId jobId changeType) fun answer =>
    .ok answer.toOption

def readLogs (jobId : String) : Reconciliation σ (Except String (List String)) :=
  request (.readLogs jobId) .ok

def getEpoch : Reconciliation σ Nat :=
  request .now .ok

variable (c : Controller)

def getTimestamp : Reconciliation σ String := do
  let now ← getEpoch
  pure (c.clock.epochToTimestamp now)

/-! ## Patches of the status -/

/-- What a copy of the resource is the source of: its generation and the number of its retries. -/
def statusPatch (resource : Resource σ) (name status lastDeploymentUpdate message jobId now : String) :
    StatusPatch where
  resourceStatus := some status
  lastDeploymentEvent := some lastDeploymentUpdate
  lastCheck := some now
  jobId := some jobId
  deploymentId := some (Text.toLowercase c.kind ++ "/" ++ name)
  lastGeneration := some resource.metadataGeneration
  logs := some message
  retryCount := some resource.status.retries

def updateResourceStatus (resource : Resource σ) (status lastDeploymentUpdate message jobId : String) :
    Reconciliation σ Unit := do
  let name ← unwrap resource.name
  let now ← c.getTimestamp
  patchStatus (c.statusPatch resource name status lastDeploymentUpdate message jobId now)
  -- The object is read back, only to be printed.
  let _ ← get

def updateRetryCount (retryCount : Int) : Reconciliation σ Unit :=
  patchStatus { retryCount := some retryCount, jobId := some "" }

def resetRetryCount : Reconciliation σ Unit :=
  patchStatus { retryCount := some 0, jobId := some "", lastFailureEpoch := some none }

/-! ## Checks of a job -/

def fetchJobLogs (jobId : String) : Reconciliation σ String := do
  match ← readLogs jobId with
  | .ok [] => pure "No logs available yet - job is initializing..."
  | .ok logs =>
      pure (String.join ((logs.reverse.take 10).reverse.map fun message => message ++ "\n"))
  | .error _ => pure "No logs available yet - job is initializing..."

/-- The whole seconds since the last check, when the status names one. -/
def secondsSinceLastCheck (status : ResourceStatus) : Reconciliation σ (Option Int) :=
  let lastCheck := status.lastCheck.getD ""
  if lastCheck = "" then pure none
  else
    match c.clock.parseFromRfc3339 lastCheck with
    | none => pure none
    | some checked => do
        let now ← getEpoch
        pure (some (((now : Int) - checked).tdiv 1000))

/-- Between two full checks only the logs are fetched. -/
def fetchLogsOnly (jobId : String) : Reconciliation σ Action := do
  let logs ← fetchJobLogs jobId
  patchStatus { logs := some logs }
  pure (.requeue 10)

def updateTime (depl : Option DeploymentResp) : Reconciliation σ String :=
  match depl with
  | some d => pure (c.clock.epochToTimestamp d.epoch)
  | none => c.getTimestamp

def maxRetries : Int :=
  3

def twentyFourHoursMs : Nat :=
  24 * 60 * 60 * 1000

/-- The difference of two `u64` in a build without checks of overflow. -/
def wrappingSub (a b : Nat) : Nat :=
  (a + 2 ^ 64 - b) % 2 ^ 64

def isFailure (deplStatus : String) : Bool :=
  deplStatus == "failed" || deplStatus == "error"

/-- A failed job is retried three times, and again when 24 hours have passed.  The handlers of the
two commands differ in the copy that the number of retries is read from, and in whether the logs
are kept when no retry is left. -/
def handleFailure (resource : Resource σ) (heading deplStatus updateTime message jobId : String)
    (retryCount : Int) (keptLogs : Option String) : Reconciliation σ Action := do
  if retryCount < maxRetries then
    c.updateResourceStatus resource (heading ++ deplStatus) updateTime message jobId
    updateRetryCount (retryCount + 1)
    pure (.requeue (10 * 2 ^ retryCount.toNat * 60))
  else
    let lastFailureEpoch := resource.status.lastFailureEpoch.getD 0
    let nowEpoch ← getEpoch
    if lastFailureEpoch = 0 then
      patchStatus
        { lastFailureEpoch := some (some nowEpoch)
          resourceStatus := some (heading ++ deplStatus ++ " (max retries exhausted)")
          jobId := some ""
          logs := keptLogs }
      pure (.requeue (24 * 60 * 60))
    else if twentyFourHoursMs ≤ wrappingSub nowEpoch lastFailureEpoch then
      resetRetryCount
      pure (.requeue 10)
    else
      patchStatus
        { jobId := some ""
          resourceStatus := some (heading ++ deplStatus ++ " (cooling down)") }
      let remainingMs := twentyFourHoursMs - wrappingSub nowEpoch lastFailureEpoch
      pure (.requeue (max (remainingMs / 1000) 60))

/-! ## Applies -/

/-- The status says that there is a job, but does not name it. -/
def isStuckState (status : ResourceStatus) : Bool :=
  (Text.contains status.currentStatus "initiated" ||
    Text.contains status.currentStatus "in progress") && status.currentJobId == ""

def clearStuckState (fresh : Resource σ) : Reconciliation σ Action := do
  match ← c.secondsSinceLastCheck fresh.status with
  | some seconds =>
      if 30 < seconds then
        patchStatus { resourceStatus := some "Ready for reconciliation", jobId := some "" }
        pure (.requeue 5)
      else pure (.requeue 5)
  | none => pure (.requeue 5)

def startApplyJob (fresh : Resource σ) (environment : String) : Reconciliation σ Action := do
  match ← runClaim fresh environment "apply" with
  | .ok (jobId, _) =>
      c.updateResourceStatus fresh "Apply - initiated" (← c.getTimestamp)
        "Job submitted successfully" jobId
      pure (.requeue 10)
  | .error e =>
      c.updateResourceStatus fresh "Apply - failed" (← c.getTimestamp)
        ("Failed to start job: " ++ e) ""
      stop e

def applyMessage (depl : Option DeploymentResp) (changeRecord : Option String) : String :=
  let errorPart :=
    match depl with
    | some d => if d.errorText ≠ "" then "ERROR: " ++ d.errorText ++ "\n\n" else ""
    | none => ""
  match changeRecord with
  | some planStdOutput => errorPart ++ planStdOutput
  | none => if errorPart = "" then "Job completed" else errorPart

/-- The job has ended.  The status is patched from the copy of the cache. -/
def completeApplyJob (copy fresh : Resource σ) (environment deplStatus : String)
    (depl : Option DeploymentResp) : Reconciliation σ Action := do
  let jobId := fresh.status.currentJobId
  let updateTime ← c.updateTime depl
  let changeRecord ←
    getChangeRecord environment fresh.status.currentDeploymentId jobId "APPLY"
  let message := applyMessage depl changeRecord
  if isFailure deplStatus then
    c.handleFailure copy "Apply - " deplStatus updateTime message jobId fresh.status.retries
      (some message)
  else if deplStatus = "successful" then
    c.updateResourceStatus copy ("Apply - " ++ deplStatus) updateTime message ""
    if 0 < fresh.status.retries then
      resetRetryCount
    pure .awaitChange
  else
    c.updateResourceStatus copy ("Apply - " ++ deplStatus) updateTime message ""
    pure .awaitChange

def checkApplyJob (copy fresh : Resource σ) (environment : String) : Reconciliation σ Action := do
  let jobId := fresh.status.currentJobId
  let sinceLastCheck ← c.secondsSinceLastCheck fresh.status
  if sinceLastCheck.any (· < 25) then
    fetchLogsOnly jobId
  else
    let (inProgress, _, deplStatus, depl) ← onCloud (EnvCommon.isDeploymentInProgress
      fresh.status.currentDeploymentId environment false true)
    if !inProgress && depl.isNone && Text.contains fresh.status.currentStatus "initiated" then
      c.updateResourceStatus copy "Apply - pending" (← c.getTimestamp)
        "Waiting for job to start processing" jobId
      pure (.requeue 5)
    else if inProgress then
      let updateTime ← c.updateTime depl
      c.updateResourceStatus copy "Apply - in progress" updateTime
        (fresh.status.logs.getD "Checking job status...") jobId
      pure (.requeue 30)
    else
      c.completeApplyJob copy fresh environment deplStatus depl

def reconcileResourceNonblocking (copy : Resource σ) (environment : String) :
    Reconciliation σ Action := do
  let fresh ← get
  if fresh.status.currentJobId = "" then
    if isStuckState fresh.status then
      c.clearStuckState fresh
    else if fresh.GenerationUnchanged then
      pure .awaitChange
    else
      c.startApplyJob fresh environment
  else
    c.checkApplyJob copy fresh environment

/-! ## Deletions -/

def startDestroyJob (environment : String) : Reconciliation σ Action := do
  let fresh ← get
  match ← runClaim fresh environment "destroy" with
  | .ok (jobId, _) =>
      c.updateResourceStatus fresh "Delete - initiated" (← c.getTimestamp)
        "Destroy job submitted" jobId
      pure (.requeue 10)
  | .error e => stop e

def destroyMessage (depl : Option DeploymentResp) (deplStatus : String) : String :=
  let errorMessage :=
    match depl with
    | some d => if d.errorText ≠ "" then "ERROR: " ++ d.errorText else ""
    | none => ""
  if errorMessage = "" then
    if isFailure deplStatus then "Destroy operation failed" else "Destroy operation completed"
  else errorMessage

def removeFinalizer (copy : Resource σ) : Reconciliation σ Unit :=
  patchFinalizers (copy.finalizers.filter (· ≠ finalizerName))

def completeDestroyJob (copy : Resource σ) (deplStatus : String) (depl : Option DeploymentResp) :
    Reconciliation σ Action := do
  let updateTime ← c.updateTime depl
  let message := destroyMessage depl deplStatus
  if isFailure deplStatus then
    c.handleFailure copy "Delete - " deplStatus updateTime message copy.status.currentJobId
      copy.status.retries none
  else if deplStatus = "successful" then
    c.updateResourceStatus copy ("Delete - " ++ deplStatus) updateTime message ""
    removeFinalizer copy
    pure .awaitChange
  else
    pure .awaitChange

def checkDestroyJob (copy : Resource σ) (environment : String) : Reconciliation σ Action := do
  let jobId := copy.status.currentJobId
  let sinceLastCheck ← c.secondsSinceLastCheck copy.status
  if sinceLastCheck.any (· < 25) then
    fetchLogsOnly jobId
  else
    let (inProgress, _, deplStatus, depl) ← onCloud (EnvCommon.isDeploymentInProgress
      copy.status.currentDeploymentId environment false true)
    if inProgress then
      let updateTime ← c.updateTime depl
      c.updateResourceStatus copy "Delete - in progress" updateTime
        (copy.status.logs.getD "Destroying resources") jobId
      pure (.requeue 30)
    else
      c.completeDestroyJob copy deplStatus depl

/-- The handler trusts the status of the copy. -/
def handleResourceDeletionNonblocking (copy : Resource σ) (environment : String) :
    Reconciliation σ Action :=
  if !copy.isDestroyJob || copy.status.currentJobId == "" then
    c.startDestroyJob environment
  else
    c.checkDestroyJob copy environment

/-! ## Reconciliation -/

def addFinalizer : Reconciliation σ Unit :=
  patchFinalizers [finalizerName]

def environment (copy : Resource σ) : String :=
  "k8s-" ++ c.clusterId ++ "/" ++ copy.namespaceOrDefault

def reconcile (copy : Resource σ) : Reconciliation σ Action :=
  match copy.name with
  | none => stop "Resource has no name"
  | some _ =>
      if copy.IsDeleted then
        if copy.hasFinalizer then
          c.handleResourceDeletionNonblocking copy (c.environment copy)
        else pure .awaitChange
      else if copy.hasFinalizer then
        c.reconcileResourceNonblocking copy (c.environment copy)
      else do
        addFinalizer
        pure (.requeue 1)

end Controller
end Operator
end InfraWeave
