import InfraWeave.TerraformRunner.Terraform

/-!
# Policy checks

Every policy of the stable environment is evaluated on the plan that was shown.
-/

namespace InfraWeave
namespace TerraformRunner

open EnvCommon Runner

variable (rt : Runtime)

structure PolicyResult where
  policy : String
  version : String
  environment : String
  description : String
  policyName : String
  failed : Bool
  violations : Json
  deriving DecidableEq

/-- The fields in the order of their keys. -/
def PolicyResult.toJson (result : PolicyResult) : Json :=
  .object
    [("description", .string result.description),
     ("environment", .string result.environment),
     ("failed", .bool result.failed),
     ("policy", .string result.policy),
     ("policy_name", .string result.policyName),
     ("version", .string result.version),
     ("violations", result.violations)]

/-- The packages that deny something, with what they deny; there is none when a `deny` is not an
array. -/
def violationsOf : List (String × Json) → Option (List (String × Json))
  | [] => some []
  | (package, v) :: packages =>
      match v.get? "deny" with
      | none => violationsOf packages
      | some deny => do
          let items ← deny.asArray
          let rest ← violationsOf packages
          if items.isEmpty then some rest else some ((package, deny) :: rest)

/-- The result of a policy; a panic when the output of the command is not of the expected form. -/
def readOpaResult (policy : PolicyResp) (stdout : String) : Runner PolicyResult :=
  match rt.parseJson stdout with
  | .error e =>
      abort ("Could not parse the opa output json from stdout: " ++ e ++ "\nString was:'" ++ stdout)
  | .ok json =>
      match json.asObject.bind violationsOf with
      | none => abort "called `Option::unwrap()` on a `None` value"
      | some violations =>
          pure
            { policy := policy.policy
              version := policy.version
              environment := policy.environment
              description := policy.description
              policyName := policy.policyName
              failed := !violations.isEmpty
              violations := Json.ofFields violations }

def removeFiles : List String → Runner Unit
  | [] => pure ()
  | name :: names => do
      unwrap (← Process.perform (.removeFile name))
      removeFiles names

/-- A policy that cannot be evaluated ends the process, once its status is stored. -/
def evaluatePolicy (policy : PolicyResp) : Runner PolicyResult := do
  unwrap (← Process.perform (.downloadPolicy policy))
  unwrap (← Process.perform (.storePolicyInput policy.data))
  let regoFiles ← unwrap (← Process.perform .getAllRegoFilenames)
  match ← handled (← Process.perform (.opa policy.policy regoFiles)) with
  | .ok stdout => do
      let result ← readOpaResult rt policy stdout
      removeFiles regoFiles
      pure result
  | .error e => do
      reportStatus rt .failedPolicy e
      setErrorText ""
      Process.stop (.exited 0)

def evaluatePolicies : List PolicyResp → Runner (List PolicyResult)
  | [] => pure []
  | policy :: policies => do
      let result ← evaluatePolicy rt policy
      let results ← evaluatePolicies policies
      pure (result :: results)

def policyViolationsText : String :=
  "OPA Policy evaluation found policy violations"

def runOpaPolicyChecks : Runner Unit := do
  let _ ← handled (← Process.perform .storeEnvAsJson)
  let policies ← unwrap (← Process.perform (.getAllPolicies "stable"))
  let results ← evaluatePolicies rt policies
  Process.update fun h => { h with policyResults := results.map PolicyResult.toJson }
  if results.any PolicyResult.failed then
    fail rt .failedPolicy policyViolationsText policyViolationsText
  else pure ()

end TerraformRunner
end InfraWeave
