import InfraWeave.Defs.Module
import InfraWeave.Defs.ResourceChange
import InfraWeave.EnvCommon.DeploymentStatusHandler
import InfraWeave.Lib.Process

/-!
# What a runner asks for

The operations of the terraform runner: requests to the cloud, commands and files.  A runner keeps
the status handler of its job as its state, and every operation may end in a panic.
-/

namespace InfraWeave
namespace TerraformRunner

open EnvCommon

inductive Reply (α : Type) where
  | value (a : α)
  | error (text : String)
  | panic (message : String)

/-- How a runner stops before its end.  The crash guard takes errors and panics alike; an exit ends
the process at once. -/
inductive Stop where
  | failed (text : String)
  | panicked (message : String)
  | exited (code : Nat)

/-- A terraform command.  Plans and changes are given the variables that describe the deployment. -/
structure TerraformCommand where
  args : List String
  backend : Option (String × String)
  extraEnvironmentVariables : Bool
  maxOutputLines : Option Nat
  deriving DecidableEq

structure InfraChangeRecord where
  deploymentId : String
  projectId : String
  region : String
  jobId : String
  module : String
  moduleVersion : String
  planStdOutput : String
  planRawJsonKey : String
  environment : String
  changeType : String
  resourceChanges : List ResourceChange.SanitizedResourceChange
  vars : Json

structure JobDetails where
  region : String
  environment : String
  deploymentId : String
  jobId : String
  changeType : String
  errorText : String
  status : String

inductive Operation where
  | getEpoch
  | getCurrentJobId
  | getDeployment (deploymentId environment : String) (includeDeleted : Bool)
  | getPlanDeployment (deploymentId environment jobId : String)
  | getDeploymentAndDependents (deploymentId environment : String) (includeDeleted : Bool)
  | setDeployment (deployment : DeploymentResp) (isPlan : Bool)
  | getModuleVersion (module track version : String)
  | checkModuleDeprecation (record : ModuleResp) (isStack : Bool)
      (module moduleVersion deploymentId environment : String)
  | setUpProviderMirror (providers : List TfLockProvider) (target : String)
  | downloadModuleZip (s3Key : String)
  | downloadModuleOci (artifacts : Json)
  | getAllPolicies (environment : String)
  | downloadPolicy (policy : PolicyResp)
  | getAllRegoFilenames
  | terraform (command : TerraformCommand)
  | opa (policyName : String) (regoFiles : List String)
  | storeTfVarsJson (vars : Json)
  | storeBackendFile
  | storeEnvAsJson
  | storePolicyInput (data : Json)
  | writeFile (name content : String)
  | readFile (name : String)
  | removeFile (name : String)
  | uploadFile (key content : String)
  | insertInfraChangeRecord (record : InfraChangeRecord)
  | postWebhook (url message : String)
  | publishNotification (details : JobDetails)

namespace Operation

abbrev Answer : Operation → Type
  | getEpoch => Nat
  | getCurrentJobId => Reply String
  | getDeployment _ _ _ => Reply (Option DeploymentResp)
  | getPlanDeployment _ _ _ => Reply (Option DeploymentResp)
  | getDeploymentAndDependents _ _ _ => Reply (Option DeploymentResp × List Dependent)
  | setDeployment _ _ => Reply Unit
  | getModuleVersion _ _ _ => Reply (Option ModuleResp)
  | checkModuleDeprecation _ _ _ _ _ _ => Reply Unit
  | setUpProviderMirror _ _ => Reply Unit
  | downloadModuleZip _ => Reply Unit
  | downloadModuleOci _ => Reply ModuleResp
  | getAllPolicies _ => Reply (List PolicyResp)
  | downloadPolicy _ => Reply Unit
  | getAllRegoFilenames => Reply (List String)
  | terraform _ => Reply String
  | opa _ _ => Reply String
  | storeTfVarsJson _ => Reply Unit
  | storeBackendFile => Reply Unit
  | storeEnvAsJson => Reply Unit
  | storePolicyInput _ => Reply Unit
  | writeFile _ _ => Reply Unit
  | readFile _ => Reply String
  | removeFile _ => Reply Unit
  | uploadFile _ _ => Reply Unit
  | insertInfraChangeRecord _ => Reply Unit
  | postWebhook _ _ => Reply Unit
  | publishNotification _ => Reply Unit

end Operation

/-- What a runner is given: its payload, the settings of its container, and the libraries that read
durations and JSON, print a module and iterate over hash sets. -/
structure Runtime where
  payload : ApiInfraPayload
  storageBasepath : String
  ociArtifactMode : Bool
  parseDuration : String → Option Nat
  parseJson : String → Except String Json
  prettyModule : ModuleResp → String
  orders : Nat → ResourceChange.KeyOrder

abbrev Runner (α : Type) :=
  Process Operation Operation.Answer DeploymentStatusHandler Stop α

namespace Runner

variable {α β : Type}

/-- An answer whose error is handled by the runner. -/
def handled : Reply α → Runner (Except String α)
  | .value a => pure (.ok a)
  | .error text => pure (.error text)
  | .panic message => Process.stop (.panicked message)

/-- An answer that is unwrapped. -/
def unwrap : Reply α → Runner α
  | .value a => pure a
  | .error text => Process.stop (.panicked text)
  | .panic message => Process.stop (.panicked message)

/-- An answer whose error is that of the step, after some words of its own. -/
def propagate (text : String) : Reply α → Runner α
  | .value a => pure a
  | .error e => Process.stop (.failed (text ++ e))
  | .panic message => Process.stop (.panicked message)

/-- A file that cannot be written ends the process. -/
def orExit : Reply α → Runner α
  | .value a => pure a
  | .error _ => Process.stop (.exited 1)
  | .panic message => Process.stop (.panicked message)

def bail (text : String) : Runner α :=
  Process.stop (.failed text)

def abort (message : String) : Runner α :=
  Process.stop (.panicked message)

/-- `match step.await { Ok(..) => .., Err(e) => .. }`. -/
def attempt (x : Runner α) : Runner (Except String α) :=
  x.catching fun
    | .failed text => some text
    | _ => none

def setStatus (status : DeploymentStatus) : Runner Unit :=
  Process.update fun h => { h with status }

def setErrorText (errorText : String) : Runner Unit :=
  Process.update fun h => { h with errorText }

end Runner

end TerraformRunner
end InfraWeave
