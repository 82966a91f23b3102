import InfraWeave.EnvCommon.ApiInfra
import InfraWeave.EnvCommon.DeploymentRuns

/-!
# Requests to destroy

A deployment is destroyed with the variables of its record, not with those of a claim.
-/

namespace InfraWeave
namespace EnvCommon

variable (services : ClaimServices)

def verifyModuleVersion (s : RegionStore) (module moduleVersion : String) : Except String Unit := do
  let moduleVersionTrack ← claimedTrack services.registry moduleVersion
  match services.registry.getModuleVersion s module moduleVersionTrack moduleVersion with
  | .ok (some _) => .ok ()
  | .ok none => .error ("Module version " ++ moduleVersion ++ " does not exist")
  | .error e => .error ("Failed to verify module version: " ++ e)

/-- The track is that of the record, also where the version is another one. -/
def destroyPayload (deployment : DeploymentResp) (deploymentId moduleVersion : String)
    (extraData : Json) : ApiInfraPayloadWithVariables where
  payload :=
    { command := "destroy"
      flags := []
      module := services.toLowercase deployment.module
      moduleVersion
      moduleType := deployment.moduleType
      moduleTrack := deployment.moduleTrack
      name := ""
      environment := deployment.environment
      deploymentId
      projectId := deployment.projectId
      region := deployment.region
      driftDetection := deployment.driftDetection
      nextDriftCheckEpoch := -1
      annotations := .object []
      dependencies := deployment.dependencies
      initiatedBy := services.getUserId.toOption.getD "cli"
      cpu := deployment.cpu
      memory := deployment.memory
      reference := deployment.reference
      extraData }
  vars := deployment.vars

/-- What `destroy_infra` submits. -/
def destroyRequest (handler : WorkloadHandler) (s : RegionStore) (t : Deployments)
    (deploymentId environment : String) (extraData : Json) (overrideVersion : Option String) :
    Except String ApiInfraPayloadWithVariables :=
  match handler.getDeployment t deploymentId environment false with
  | .error e => .error ("Failed to describe deployment: " ++ e)
  | .ok none => .error "Failed to describe deployment, deployment was not found"
  | .ok (some deployment) =>
      match overrideVersion with
      | none => .ok (destroyPayload services deployment deploymentId deployment.moduleVersion extraData)
      | some version => do
          verifyModuleVersion services s deployment.module version
          .ok (destroyPayload services deployment deploymentId version extraData)

end EnvCommon
end InfraWeave
