import InfraWeave.EnvCommon.ClaimJobs
import InfraWeave.TerraformRunner.Module
import InfraWeave.TerraformRunner.Opa

/-!
# The runner

The flow of a job: it reads the variables that were stored for it, tells that it has started, and
goes on with terraform.  What goes wrong on the way is caught, and stored as the status of the job
unless the step that failed has stored one.
-/

namespace InfraWeave
namespace TerraformRunner

open EnvCommon (DeploymentStatusHandler)
open Runner

variable (rt : Runtime)

/-! ## Before the flow -/

/-- A plan has a record of its own, under its job. -/
def getJobDeployment : Runner (Except String (Option DeploymentResp)) :=
  if rt.payload.command = "plan" then do
    let jobId ← propagate "Error getting current job id for plan: "
      (← Process.perform .getCurrentJobId)
    handled (← Process.perform
      (.getPlanDeployment rt.payload.deploymentId rt.payload.environment jobId))
  else do
    handled (← Process.perform
      (.getDeployment rt.payload.deploymentId rt.payload.environment false))

/-- The variables of the job, and the job that they were stored for. -/
def fetchDeploymentVariables : Runner (Json × String) := do
  match ← getJobDeployment rt with
  | .ok (some deployment) => pure (deployment.vars, deployment.jobId)
  | .ok none =>
      bail ("Deployment not found: " ++ rt.payload.deploymentId ++ " in " ++ rt.payload.environment)
  | .error e => bail ("Error getting deployment: " ++ e)

def getInitialDeployment : Runner (Option DeploymentResp) := do
  propagate "Error getting initial deployment: "
    (← Process.perform (.getDeployment rt.payload.deploymentId rt.payload.environment false))

/-- The handler is told the job only when it is known. -/
def getCurrentJobId : Runner String := do
  match ← handled (← Process.perform .getCurrentJobId) with
  | .ok jobId => do
      Process.update fun h => { h with jobId }
      pure jobId
  | .error e => do
      let _ ← attempt (reportStatus rt .failed
        "The job failed to fetch the job id, please retry again.")
      bail ("Failed to fetch current job id: " ++ e)

def jobIdMismatch (jobId jobIdForVariables : String) : String :=
  "Job ID does not match the one in the database, which means that the variables cannot be " ++
    "trusted: " ++ jobId ++ " != " ++ jobIdForVariables

def ensureValidJobId (jobId jobIdForVariables : String) : Runner Unit :=
  if jobId ≠ jobIdForVariables then do
    let _ ← attempt (reportStatus rt .failed (jobIdMismatch jobId jobIdForVariables))
    bail (jobIdMismatch jobId jobIdForVariables)
  else pure ()

/-! ## Dependencies and dependants -/

/-- A dependency that is not there, or cannot be read, is not handled. -/
def checkDependencyStatus (dependency : Dependency) : Runner (Except String Unit) := do
  let found ← handled (← Process.perform
    (.getDeployment dependency.deploymentId dependency.environment false))
  match found with
  | .ok (some deployment) =>
      if deployment.status = .successful then pure (.ok ())
      else pure (.error "Dependency not finished")
  | .ok none => abort "Deployment could not describe since it was not found"
  | .error _ => abort "Error getting deployment status"

def dependenciesNotFinished : List Dependency → Runner (List Dependency)
  | [] => pure []
  | dependency :: dependencies => do
      let status ← checkDependencyStatus dependency
      let rest ← dependenciesNotFinished dependencies
      match status with
      | .ok () => pure rest
      | .error _ => pure (dependency :: rest)

def checkDependencies : Runner Unit := do
  let notFinished ← dependenciesNotFinished rt.payload.dependencies
  if notFinished.isEmpty then pure ()
  else do
    setStatus .waitingOnDependency
    sendDeployment rt
    bail "Dependencies not finished"

def hasDependantsText : String :=
  "This deployment has other deployments depending on it, and hence cannot be removed until they " ++
    "are removed"

def checkDependants : Runner Unit := do
  let found ← handled (← Process.perform
    (.getDeploymentAndDependents rt.payload.deploymentId rt.payload.environment false))
  match found with
  | .error e =>
      fail rt .error ("Error getting deployment and dependants: " ++ e)
        "Error getting deployment and dependants"
  | .ok (_, dependants) =>
      if dependants.isEmpty then pure ()
      else fail rt .hasDependants hasDependantsText "This deployment has dependants"

/-! ## The flow -/

def checkRelatives : Runner Unit :=
  if rt.payload.command = "apply" then checkDependencies rt
  else if rt.payload.command = "destroy" then checkDependants rt
  else pure ()

/-- From the module to the policies: nothing is changed yet. -/
def prepareChange (jobId : String) : Runner (ModuleResp × String) := do
  let module ← getModule rt
  let _ ← handled (← Process.perform (.setUpProviderMirror module.tfLockProviders "linux_arm64"))
  downloadModule rt module
  terraformInit rt
  terraformValidate rt
  let planStdOutput ← terraformPlan rt
  terraformShow rt jobId module planStdOutput true
  terraformGraph rt jobId
  runOpaPolicyChecks rt
  pure (module, planStdOutput)

/-- What is left in the state is captured even when the change has failed.  A destroy that has
failed counts as done when nothing is left. -/
def settleChange (applyResult : Except String String) (resources : Option (List String)) :
    Runner Unit :=
  match applyResult with
  | .ok _ => pure ()
  | .error e =>
      if rt.payload.command = "destroy" ∧ resources = some [] then
        Process.update fun h => { h with deleted := true }
      else bail e

def performChange (jobId : String) (module : ModuleResp) (planStdOutput : String) :
    Runner Unit := do
  let applyResult ← attempt (terraformApplyDestroy rt)
  terraformShow rt jobId module planStdOutput false
  let resources ← terraformStateList
  Process.update fun h => { h with tfResources := resources }
  let applyOutput := match applyResult with
    | .ok stdout => stdout
    | .error _ => ""
  let _ ← attempt (recordApplyDestroyChanges rt jobId module applyOutput)
  settleChange rt applyResult resources
  if rt.payload.command = "apply" then terraformOutput rt
  else pure ()

def terraformFlow (jobId : String) : Runner Unit := do
  checkRelatives rt
  let (module, planStdOutput) ← prepareChange rt jobId
  if rt.payload.command = "apply" ∨ rt.payload.command = "destroy" then
    performChange rt jobId module planStdOutput
  else pure ()
  setStatus .successful
  sendDeployment rt

/-- Whether the job is a drift check is known only after its job. -/
def markDriftCheck : Runner Unit :=
  if rt.payload.command = "plan" ∧ refreshOnly rt = true then
    Process.update fun h => { h with isDriftCheck := true }
  else pure ()

def runRunnerInner : Runner Unit := do
  let (vars, jobIdForVariables) ← fetchDeploymentVariables rt
  Process.update fun h => { h with vars }
  orExit (← Process.perform (.storeTfVarsJson vars))
  orExit (← Process.perform .storeBackendFile)
  let initial ← getInitialDeployment rt
  Process.update fun h =>
    match initial with
    | some deployment =>
        { h with output := deployment.output, policyResults := deployment.policyResults }
    | none => h
  let jobId ← getCurrentJobId rt
  ensureValidJobId rt jobId jobIdForVariables
  markDriftCheck rt
  sendDeployment rt
  terraformFlow rt jobId

/-! ## After the flow -/

/-- An exit is not caught. -/
def crashGuarded (x : Runner Unit) : Runner (Except String Unit) :=
  x.catching fun
    | .failed text => some text
    | .panicked message => some ("Terraform runner panicked: " ++ message)
    | .exited _ => none

def flushFailedStatusIfNeeded (errorText : String) : Runner Unit := do
  let handler ← Process.state
  if handler.status.isFinal then pure ()
  else do
    let _ ← attempt (reportStatus rt .failed errorText)
    pure ()

def finishRunnerFlow (result : Except String Unit) : Runner (String × String) :=
  match result with
  | .ok () => pure ("success", "")
  | .error e => do
      flushFailedStatusIfNeeded rt e
      pure ("failure", e)

def jobDetails (jobId status errorText : String) : JobDetails where
  region := rt.payload.region
  environment := rt.payload.environment
  deploymentId := rt.payload.deploymentId
  jobId
  changeType := rt.payload.command.toUpper
  errorText
  status

def publishRunnerNotification (status errorText : String) : Runner Unit := do
  let handler ← Process.state
  propagate "" (← Process.perform
    (.publishNotification (jobDetails rt handler.jobId status errorText)))

def runTerraformRunner : Runner Unit := do
  let result ← crashGuarded (runRunnerInner rt)
  let (status, errorText) ← finishRunnerFlow rt result
  publishRunnerNotification rt status errorText

/-- The program of the process, from the handler with which it begins. -/
def runnerProgram :
    Program Operation Operation.Answer (Except Stop Unit × DeploymentStatusHandler) :=
  runTerraformRunner rt (EnvCommon.initiateDeploymentStatusHandler rt.payload)

end TerraformRunner
end InfraWeave
