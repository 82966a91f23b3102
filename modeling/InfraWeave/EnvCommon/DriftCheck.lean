import InfraWeave.EnvCommon.ApiInfra
import InfraWeave.EnvCommon.DeploymentRuns

/-!
# Drift checks

A drift check is a request that is made from the record of a deployment: a plan that only refreshes,
or an apply where the drift is to be remedied.
-/

namespace InfraWeave
namespace EnvCommon

variable (services : ClaimServices)

def driftcheckPayload (deployment : DeploymentResp) (deploymentId : String) (remediate : Bool)
    (extraData : Json) : ApiInfraPayloadWithVariables where
  payload :=
    { command := if remediate then "apply" else "plan"
      flags := if remediate then [] else ["-refresh-only"]
      module := services.toLowercase deployment.module
      moduleVersion := deployment.moduleVersion
      moduleType := deployment.moduleType
      moduleTrack := deployment.moduleTrack
      name := ""
      environment := deployment.environment
      deploymentId
      projectId := deployment.projectId
      region := deployment.region
      driftDetection := deployment.driftDetection
      nextDriftCheckEpoch := -1
      annotations := .object []
      dependencies := deployment.dependencies
      initiatedBy := services.getUserId.toOption.getD "cli"
      cpu := deployment.cpu
      memory := deployment.memory
      reference := deployment.reference
      extraData }
  vars := deployment.vars

/-- What `driftcheck_infra` submits. -/
def driftcheckRequest (handler : WorkloadHandler) (t : Deployments)
    (deploymentId environment : String) (remediate : Bool) (extraData : Json) :
    Except String ApiInfraPayloadWithVariables :=
  match handler.getDeployment t deploymentId environment false with
  | .error e => .error ("Failed to describe deployment: " ++ e)
  | .ok none => .error "Failed to describe deployment, deployment was not found"
  | .ok (some deployment) =>
      .ok (driftcheckPayload services deployment deploymentId remediate extraData)

variable {services}

/-- A drift check is made from the record of a deployment that is not deleted. -/
theorem driftcheckRequest_eq_ok {handler : WorkloadHandler} {t : Deployments}
    {deploymentId environment : String} {remediate : Bool} {extraData : Json}
    {prepared : ApiInfraPayloadWithVariables} (hwf : t.WellFormed)
    (h : driftcheckRequest services handler t deploymentId environment remediate extraData =
      .ok prepared) : ∃ deployment,
    t.stored (getDeploymentIdentifier handler.projectId handler.region deploymentId environment) =
        some deployment ∧ deployment.deleted = false ∧
      prepared = driftcheckPayload services deployment deploymentId remediate extraData := by
  unfold driftcheckRequest at h
  have hread := Deployments.getDeployment_eq handler deploymentId environment hwf false
  rw [hread] at h
  split at h
  · cases h
  · cases h
  · rename_i deployment hfound
    have hkept := Option.filter_eq_some_iff.1 (Except.ok.inj hfound)
    obtain ⟨hstored, hlive⟩ := hkept
    refine ⟨deployment, hstored, ?_, (Except.ok.inj h).symm⟩
    simpa using hlive

end EnvCommon
end InfraWeave
