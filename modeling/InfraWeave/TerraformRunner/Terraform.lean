import InfraWeave.Lib.Text
import InfraWeave.TerraformRunner.Operations

/-!
# Terraform commands of a runner

Every step stores the status with which it fails before it returns its error.
-/

namespace InfraWeave
namespace TerraformRunner

open EnvCommon Runner

variable (rt : Runtime)

/-! ## The record of the job -/

/-- A drift check updates the record of the deployment too, once it has ended. -/
def sendDeployment : Runner Unit := do
  let handler ← Process.state
  let epoch ← Process.perform .getEpoch
  let deployment := handler.deployment rt.parseDuration epoch
  propagate "Error inserting deployment: "
    (← Process.perform (.setDeployment deployment handler.isPlan))
  if handler.isDriftCheck && handler.isFinalUpdate then
    propagate "Error inserting drifted deployment: "
      (← Process.perform (.setDeployment deployment false))
  else pure ()

def reportStatus (status : DeploymentStatus) (errorText : String) : Runner Unit := do
  setStatus status
  setErrorText errorText
  sendDeployment rt

def fail {α : Type} (status : DeploymentStatus) (errorText message : String) : Runner α := do
  reportStatus rt status errorText
  bail message

/-- Most commands take the text of their error back once it is stored. -/
def failCommand {α : Type} (status : DeploymentStatus) (errorText message : String) :
    Runner α := do
  reportStatus rt status errorText
  setErrorText ""
  bail message

/-! ## Commands -/

def hasFlag (flag : String) : Bool :=
  rt.payload.flags.any (· = flag)

def refreshOnly : Bool :=
  hasFlag rt "-refresh-only"

/-- `run_terraform_command`, with its flags in their order. -/
def terraformCommand (command : String)
    (refreshOnly noLock destroy autoApprove noInput json planOut planIn init : Bool)
    (maxOutputLines : Option Nat) (extraEnvironmentVariables : Bool) : TerraformCommand where
  args :=
    [command, "-no-color"] ++ (if refreshOnly then ["-refresh-only"] else []) ++
      (if noInput then ["-input=false"] else []) ++
      (if autoApprove then ["-auto-approve"] else []) ++
      (if destroy then ["-destroy"] else []) ++
      (if json then ["-json"] else []) ++
      (if planIn then ["planfile"] else []) ++
      (if planOut then ["-out=planfile"] else []) ++
      (if noLock then ["-lock=false"] else [])
  backend := if init then some (rt.payload.deploymentId, rt.payload.environment) else none
  extraEnvironmentVariables
  maxOutputLines

def runTerraform (command : TerraformCommand) : Runner (Except String String) := do
  handled (← Process.perform (.terraform command))

def initCommand : TerraformCommand :=
  terraformCommand rt "init" false false false false false false false false true (some 50) false

def terraformInit : Runner Unit := do
  match ← runTerraform (initCommand rt) with
  | .ok _ => pure ()
  | .error e => fail rt .failedInit e ("Error running terraform init: " ++ e)

def validateCommand : TerraformCommand :=
  terraformCommand rt "validate" false false false false false false false false false (some 50)
    false

def terraformValidate : Runner Unit := do
  match ← runTerraform (validateCommand rt) with
  | .ok _ => pure ()
  | .error e => failCommand rt .failedValidate e ("Error running terraform validate: " ++ e)

def planCommand : TerraformCommand :=
  terraformCommand rt "plan" (refreshOnly rt)
    (hasFlag rt "-no-lock" || rt.payload.command = "plan")
    (hasFlag rt "-destroy" || rt.payload.command = "destroy")
    false true false true false false (some 500) true

def terraformPlan : Runner String := do
  match ← runTerraform (planCommand rt) with
  | .ok stdout => pure stdout
  | .error e => failCommand rt .failedPlan e ("Error running terraform plan: " ++ e)

/-! ## Files -/

/-- `std::fs::write(..).expect("Unable to write to file")`. -/
def writeFile (name content : String) : Runner Unit := do
  match ← handled (← Process.perform (.writeFile name content)) with
  | .ok () => pure ()
  | .error e => abort ("Unable to write to file: " ++ e)

/-- A file that cannot be uploaded is left out. -/
def uploadFileToChangeRecords (key content : String) : Runner Unit := do
  let _ ← handled (← Process.perform (.uploadFile key content))
  pure ()

def changeRecordKey (jobId suffix : String) : String :=
  rt.storageBasepath ++ rt.payload.environment ++ "/" ++ rt.payload.deploymentId ++ "/" ++ jobId ++
    "_" ++ suffix

def graphCommand : TerraformCommand :=
  terraformCommand rt "graph" false false false false false false false false false none false

def terraformGraph (jobId : String) : Runner Unit := do
  match ← runTerraform (graphCommand rt) with
  | .ok graph => do
      writeFile "./graph.dot" graph
      uploadFileToChangeRecords (changeRecordKey rt jobId "graph.dot") graph
  | .error e =>
      failCommand rt .failedGraph e ("Error running \"terraform graph\" command: " ++ e)

/-! ## Show -/

def showCommand (usePlanfile : Bool) : TerraformCommand :=
  terraformCommand rt "show" false false false false false true false usePlanfile false
    (some 5000) false

def showOutputFile (usePlanfile : Bool) : String :=
  if usePlanfile then "tf_plan.json" else "tf_state.json"

def sendWebhooks (message : String) : List (Option String) → Runner Unit
  | [] => pure ()
  | none :: webhooks => sendWebhooks message webhooks
  | some url :: webhooks => do
      let _ ← handled (← Process.perform (.postWebhook url message))
      sendWebhooks message webhooks

/-- `resource_drift` is unwrapped as an array. -/
def driftHasOccurred (content : Json) : Runner Bool :=
  match ((content.get? "resource_drift").getD (.array [])).asArray with
  | some drift => pure !drift.isEmpty
  | none => abort "called `Option::unwrap()` on a `None` value"

def recordDrift (content : Json) : Runner Unit :=
  if rt.payload.command = "plan" ∧ refreshOnly rt = true then do
    let hasDrifted ← driftHasOccurred content
    Process.update fun h => { h with hasDrifted }
    if hasDrifted then
      sendWebhooks ("Drift has occurred for " ++ rt.payload.deploymentId ++ " in " ++
        rt.payload.environment) rt.payload.driftDetection.webhooks
    else pure ()
  else pure ()

def infraChangeRecord (jobId : String) (module : ModuleResp)
    (planStdOutput key changeType : String)
    (resourceChanges : List ResourceChange.SanitizedResourceChange) (vars : Json) :
    InfraChangeRecord where
  deploymentId := rt.payload.deploymentId
  projectId := rt.payload.projectId
  region := rt.payload.region
  jobId
  module := module.module
  moduleVersion := module.version
  planStdOutput
  planRawJsonKey := key
  environment := rt.payload.environment
  changeType
  resourceChanges
  vars

/-- A record of changes that cannot be inserted is left out. -/
def recordPlanChanges (jobId : String) (module : ModuleResp) (planStdOutput : String)
    (content : Json) : Runner Unit := do
  let handler ← Process.state
  let changes := ResourceChange.sanitizeResourceChangesFromPlan rt.orders content (refreshOnly rt)
  let record := infraChangeRecord rt jobId module planStdOutput
    (changeRecordKey rt jobId "plan_output.json") "plan" changes handler.vars
  let _ ← handled (← Process.perform (.insertInfraChangeRecord record))
  pure ()

/-- With a plan file the plan is shown, else the state. -/
def terraformShow (jobId : String) (module : ModuleResp) (planStdOutput : String)
    (usePlanfile : Bool) : Runner Unit := do
  match ← runTerraform (showCommand rt usePlanfile) with
  | .ok stdout => do
      writeFile (showOutputFile usePlanfile) stdout
      let content ← match rt.parseJson stdout with
        | .ok content => pure content
        | .error e => abort ("called `Result::unwrap()` on an `Err` value: " ++ e)
      uploadFileToChangeRecords (changeRecordKey rt jobId
        (if usePlanfile then "plan_output.json" else "state_output.json")) stdout
      recordDrift rt content
      if usePlanfile then recordPlanChanges rt jobId module planStdOutput content
      else pure ()
  | .error e => failCommand rt .failedShowPlan e ("Error running terraform show: " ++ e)

/-! ## Apply and destroy -/

/-- The plan file is not an argument of the command. -/
def applyDestroyCommand : TerraformCommand :=
  terraformCommand rt rt.payload.command false false false true true false false false false
    (some 50) true

def terraformApplyDestroy : Runner String := do
  Process.update fun h => { h with command := rt.payload.command }
  match ← runTerraform (applyDestroyCommand rt) with
  | .ok stdout =>
      if rt.payload.command = "destroy" then do
        Process.update fun h => { h with deleted := true }
        pure stdout
      else pure stdout
  | .error e =>
      failCommand rt .error e ("Error running terraform " ++ rt.payload.command ++ ": " ++ e)

def stateListCommand : TerraformCommand where
  args := ["state", "list", "-no-color"]
  backend := none
  extraEnvironmentVariables := false
  maxOutputLines := some 10000

def resourcesOf (stdout : String) : List String :=
  ((Text.lines stdout).map Text.trim).filter (· ≠ "")

/-- Resources that cannot be listed are unknown. -/
def terraformStateList : Runner (Option (List String)) := do
  match ← runTerraform stateListCommand with
  | .ok stdout => pure (some (resourcesOf stdout))
  | .error _ => pure none

/-- The changes of the plan that was shown, with its text. -/
def approvedChanges : Runner (List ResourceChange.SanitizedResourceChange × String) := do
  match ← handled (← Process.perform (.readFile "./tf_plan.json")) with
  | .ok plan =>
      match rt.parseJson plan with
      | .ok content =>
          pure (ResourceChange.sanitizeResourceChangesFromPlan rt.orders content false, plan)
      | .error _ => pure ([], "")
  | .error _ => pure ([], "")

def recordApplyDestroyChanges (jobId : String) (module : ModuleResp) (applyOutput : String) :
    Runner Unit := do
  let (changes, raw) ← approvedChanges rt
  let key := changeRecordKey rt jobId "mutate_output.json"
  uploadFileToChangeRecords key raw
  let handler ← Process.state
  let record :=
    infraChangeRecord rt jobId module applyOutput key rt.payload.command changes handler.vars
  match ← handled (← Process.perform (.insertInfraChangeRecord record)) with
  | .ok () => pure ()
  | .error _ => bail "Failed to insert infra change record after apply/destroy"

/-! ## Outputs -/

def sanitizeOutputValue (v : Json) : Json :=
  match v with
  | .object _ =>
      match (v.get? "sensitive").bind Json.asBool with
      | some true => v.set "value" (.string "(output sanitized)")
      | _ => v
  | _ => v

def sanitizeTerraformOutput : Json → Json
  | .object fields => .object (fields.map fun (name, v) => (name, sanitizeOutputValue v))
  | output => output

def outputCommand : TerraformCommand :=
  terraformCommand rt "output" false false false false false true false false false (some 10000)
    false

def terraformOutput : Runner Unit := do
  match ← runTerraform (outputCommand rt) with
  | .ok stdout =>
      match rt.parseJson stdout with
      | .ok json => do
          setStatus .successful
          Process.update fun h => { h with output := sanitizeTerraformOutput json }
          sendDeployment rt
      | .error e =>
          bail ("Could not parse the terraform output json from stdout: " ++ e ++
            "\nString was:'" ++ stdout ++ "'")
  | .error e => fail rt .failedOutput e ("Error running terraform output: " ++ e)

end TerraformRunner
end InfraWeave
