import InfraWeave.EnvCommon.ApiDeployment

/-!
# What the keys of deployments say

Keys and index attributes join the names of a deployment with double colons.  A name is plain when
the double colon after it is the first one.
-/

namespace InfraWeave
namespace EnvCommon

/-- There is no double colon in the name followed by a colon. -/
def Plain (name : String) : Prop :=
  Separable "::".toList name.toList

theorem colons_ne_nil : "::".toList ≠ [] := by
  decide

theorem Plain.of_colon_notMem {name : String} (h : ':' ∉ name.toList) : Plain name :=
  separable_of_notMem h

/-- What stands before a name, without a colon, leaves it plain. -/
theorem Plain.append {before name : String} (h : Plain name) (hbefore : ':' ∉ before.toList) :
    Plain (before ++ name) := by
  unfold Plain
  rw [String.toList_append]
  exact Separable.append_left h hbefore

/-! ## Identifiers -/

theorem identifier_chars {environment : String} (h : environment ≠ "")
    (projectId region deploymentId : String) :
    (getDeploymentIdentifier projectId region deploymentId environment).toList =
      projectId.toList ++ ("::".toList ++ (region.toList ++ ("::".toList ++
        (environment.toList ++ ("::".toList ++ deploymentId.toList))))) := by
  have hne : environment.isEmpty = false := by simpa using h
  simp [getDeploymentIdentifier, hne]

theorem identifier_chars_empty (projectId region deploymentId : String) :
    (getDeploymentIdentifier projectId region deploymentId "").toList =
      projectId.toList ++ ("::".toList ++ region.toList) := by
  simp [getDeploymentIdentifier]

/-! ## Index attributes -/

def deletedPrefix (deleted isPlan : Bool) : String :=
  (if deleted then "1" else "0") ++ "|" ++ (if isPlan then "PLAN" else "DEPLOYMENT") ++ "#"

theorem getPayload_deletedPk (deployment : DeploymentResp) (isPlan : Bool) :
    (getPayload deployment isPlan).2.deletedPk =
      deletedPrefix deployment.deleted isPlan ++ deployment.identifier := by
  simp [getPayload, deletedPrefix, String.append_assoc]

theorem colon_notMem_deletedPrefix (deleted isPlan : Bool) :
    ':' ∉ (deletedPrefix deleted isPlan).toList := by
  cases deleted <;> cases isPlan <;> decide

/-- The four prefixes tell themselves apart. -/
theorem deletedPrefix_prefix_iff {deleted isPlan deleted' isPlan' : Bool} {cs cs' : List Char} :
    (deletedPrefix deleted isPlan).toList ++ cs <+: (deletedPrefix deleted' isPlan').toList ++ cs' ↔
      (deleted = deleted' ∧ isPlan = isPlan') ∧ cs <+: cs' := by
  cases deleted <;> cases isPlan <;> cases deleted' <;> cases isPlan' <;>
    simp [deletedPrefix, List.cons_prefix_cons]

theorem deletedPrefix_append_inj {deleted isPlan deleted' isPlan' : Bool} {cs cs' : List Char} :
    (deletedPrefix deleted isPlan).toList ++ cs = (deletedPrefix deleted' isPlan').toList ++ cs' ↔
      (deleted = deleted' ∧ isPlan = isPlan') ∧ cs = cs' := by
  cases deleted <;> cases isPlan <;> cases deleted' <;> cases isPlan' <;>
    simp [deletedPrefix]

/-- With a plain project and region, `deleted_PK_base` ends after the region. -/
theorem deletedPkBase_chars {deployment : DeploymentResp} (isPlan : Bool)
    (hproject : Plain deployment.projectId) (hregion : Plain deployment.region)
    (henvironment : deployment.environment ≠ "") :
    (getPayload deployment isPlan).2.deletedPkBase.toList =
      (deletedPrefix deployment.deleted isPlan).toList ++
        (deployment.projectId.toList ++ ("::".toList ++ deployment.region.toList)) := by
  have hbase : (getPayload deployment isPlan).2.deletedPkBase =
      firstTwoParts (getPayload deployment isPlan).2.deletedPk := rfl
  have hfirst := hproject.append (colon_notMem_deletedPrefix deployment.deleted isPlan)
  unfold Plain at hfirst hregion
  rw [String.toList_append] at hfirst
  rw [hbase, getPayload_deletedPk, firstTwoParts, String.toList_ofList, String.toList_append,
    DeploymentResp.identifier, identifier_chars henvironment, ← List.append_assoc,
    intercalate_take_two colons_ne_nil hfirst hregion, List.append_assoc]

/-- The base names the flag, the kind of the row, the project and the region. -/
theorem deletedPkBase_eq_iff {deployment : DeploymentResp} {isPlan : Bool}
    (hproject : Plain deployment.projectId) (hregion : Plain deployment.region)
    (henvironment : deployment.environment ≠ "") {projectId region : String}
    (hproject' : Plain projectId) (deleted' isPlan' : Bool) :
    (getPayload deployment isPlan).2.deletedPkBase =
        deletedPrefix deleted' isPlan' ++ (projectId ++ "::" ++ region) ↔
      (deployment.deleted = deleted' ∧ isPlan = isPlan') ∧
        deployment.projectId = projectId ∧ deployment.region = region := by
  rw [← String.toList_inj, deletedPkBase_chars isPlan hproject hregion henvironment]
  simp only [String.toList_append, List.append_assoc]
  rw [deletedPrefix_append_inj]
  refine and_congr_right fun _ => ?_
  constructor
  · intro heq
    obtain ⟨hp, hr⟩ := hproject.append_inj hproject' heq
    exact ⟨String.ext hp, String.ext hr⟩
  · rintro ⟨rfl, rfl⟩
    rfl

/-- The start of a deployment's identifier up to an environment, in its project and region. -/
theorem identifier_prefix_iff {deployment : DeploymentResp} (hplain : Plain deployment.environment)
    (hne : deployment.environment ≠ "") {environment : String} (hplain' : Plain environment) :
    (getDeploymentIdentifier deployment.projectId deployment.region "" environment).toList <+:
        deployment.identifier.toList ↔
      environment = "" ∨ deployment.environment = environment := by
  rw [DeploymentResp.identifier, identifier_chars hne]
  by_cases henvironment : environment = ""
  · subst henvironment
    rw [identifier_chars_empty]
    simp only [List.prefix_append_right_inj, true_or, iff_true]
    exact List.prefix_append _ _
  · rw [identifier_chars henvironment]
    simp only [List.prefix_append_right_inj]
    rw [hplain'.prefix_iff hplain]
    constructor
    · rintro ⟨heq, -⟩
      exact Or.inr (String.ext heq.symm)
    · rintro (heq | rfl)
      · exact absurd heq henvironment
      · exact ⟨rfl, List.nil_prefix⟩

/-- The partition of the modules of a region. -/
theorem modulePkBase_eq_iff {deployment : DeploymentResp} {isPlan : Bool}
    (hproject : Plain deployment.projectId) (hregion : '#' ∉ deployment.region.toList)
    {projectId region module : String} (hproject' : Plain projectId)
    (hregion' : '#' ∉ region.toList) :
    (getPayload deployment isPlan).2.modulePkBase =
        "MODULE#" ++ getDeploymentIdentifier projectId region "" "" ++ "#" ++ module ↔
      deployment.projectId = projectId ∧ deployment.region = region ∧
        deployment.module = module := by
  have hbase : (getPayload deployment isPlan).2.modulePkBase = "MODULE#" ++
      getDeploymentIdentifier deployment.projectId deployment.region "" "" ++ "#" ++
        deployment.module := rfl
  rw [hbase, ← String.toList_inj]
  simp only [String.toList_append, List.append_assoc, identifier_chars_empty,
    List.append_cancel_left_eq]
  constructor
  · intro heq
    obtain ⟨hp, hrest⟩ := hproject.append_inj hproject' heq
    have hr : Separable "#".toList deployment.region.toList := separable_of_notMem hregion
    have hr' : Separable "#".toList region.toList := separable_of_notMem hregion'
    obtain ⟨hr, hm⟩ := hr.append_inj hr' hrest
    exact ⟨String.ext hp, String.ext hr, String.ext hm⟩
  · rintro ⟨rfl, rfl, rfl⟩
    rfl

/-- Identifiers of plain names are equal only when the names are. -/
theorem identifier_inj {projectId region environment deploymentId : String}
    {projectId' region' environment' deploymentId' : String} (hproject : Plain projectId)
    (hproject' : Plain projectId') (hregion : Plain region) (hregion' : Plain region')
    (hplain : Plain environment) (hplain' : Plain environment') (hne : environment ≠ "")
    (hne' : environment' ≠ "") :
    getDeploymentIdentifier projectId region deploymentId environment =
        getDeploymentIdentifier projectId' region' deploymentId' environment' ↔
      projectId = projectId' ∧ region = region' ∧ environment = environment' ∧
        deploymentId = deploymentId' := by
  constructor
  · intro heq
    rw [← String.toList_inj, identifier_chars hne, identifier_chars hne'] at heq
    obtain ⟨hp, heq⟩ := hproject.append_inj hproject' heq
    obtain ⟨hr, heq⟩ := hregion.append_inj hregion' heq
    obtain ⟨he, hd⟩ := hplain.append_inj hplain' heq
    exact ⟨String.ext hp, String.ext hr, String.ext he, String.ext hd⟩
  · rintro ⟨rfl, rfl, rfl, rfl⟩
    rfl

end EnvCommon
end InfraWeave
