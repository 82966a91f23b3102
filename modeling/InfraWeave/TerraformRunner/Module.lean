import InfraWeave.TerraformRunner.Terraform

/-!
# The module of a job

A runner looks the module up, and downloads it from the artifacts that were published for it, or
from its zip file.
-/

namespace InfraWeave
namespace TerraformRunner

open EnvCommon Runner

variable (rt : Runtime)

/-- A module that is deprecated may still be used by a deployment that exists. -/
def getModule : Runner ModuleResp := do
  let payload := rt.payload
  let found ← handled (← Process.perform
    (.getModuleVersion payload.module payload.moduleTrack payload.moduleVersion))
  match found with
  | .error e => fail rt .failedInit e "Failed to get module"
  | .ok none => fail rt .failedInit "Module does not exist" "Module does not exist"
  | .ok (some module) => do
      let checked ← handled (← Process.perform (.checkModuleDeprecation module
        (payload.moduleType = "stack") payload.module payload.moduleVersion payload.deploymentId
        payload.environment))
      match checked with
      | .ok () => pure module
      | .error e => fail rt .failedInit e e

/-- The fields in which the registry may differ from the database. -/
def withoutIgnoredFields (module : ModuleResp) : ModuleResp :=
  { module with timestamp := "", ociArtifactSet := none, versionDiff := none }

def compareModuleIntegrity (moduleOci moduleFromDb : ModuleResp) : Runner Bool :=
  let oci := withoutIgnoredFields moduleOci
  let db := withoutIgnoredFields moduleFromDb
  if oci = db then pure true
  else
    fail rt .failedIntegrityCheck
      ("Error when checking module integrity; " ++ rt.prettyModule oci ++ " != " ++
        rt.prettyModule db)
      "Error when checking module integrity"

def downloadModule (moduleFromDb : ModuleResp) : Runner Unit :=
  if rt.ociArtifactMode then do
    let artifacts ← match moduleFromDb.ociArtifactSet with
      | some artifacts => pure artifacts
      | none => abort "called `Option::unwrap()` on a `None` value"
    let moduleOci ← match ← handled (← Process.perform (.downloadModuleOci artifacts)) with
      | .ok moduleOci => pure moduleOci
      | .error e => fail rt .failedPrepare e ("Error running terraform init: " ++ e)
    if ← compareModuleIntegrity rt moduleOci moduleFromDb then pure ()
    else
      bail ("Integrity error! The module metadata from OCI registry does not match the module " ++
        "in the database: \n" ++ rt.prettyModule moduleOci ++ "\n!=\n" ++
        rt.prettyModule moduleFromDb)
  else do
    propagate "" (← Process.perform (.downloadModuleZip moduleFromDb.s3Key))

end TerraformRunner
end InfraWeave
