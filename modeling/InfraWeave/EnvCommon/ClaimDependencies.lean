import InfraWeave.EnvCommon.DeploymentIdentity

/-!
# The dependencies of a claim

A claim names a dependency by its deployment and its environment.  The record of a deployment has
both in its key, and so have the read that checks the dependency and the row that indexes it.
-/

namespace InfraWeave
namespace EnvCommon

open EnvAwsDirect

/-- The key of the deployment that a claim says it depends on, in lower case. -/
def namedKey (toLowercase : String → String) (projectId region : String)
    (d : DependencySpec) : String :=
  deploymentPk (getDeploymentIdentifier projectId region (toLowercase d.deploymentId)
    (toLowercase d.environment))

/-- The dependency is stored, checked and indexed under the key. -/
structure LeadsTo (dep : Dependency) (key : String) : Prop where
  stored : deploymentPk dep.identifier = key
  checked : .equals "PK" (.text key) ∈
    (getDeploymentQuery dep.projectId dep.region dep.deploymentId dep.environment
      false).keyCondition
  indexed : ∀ dependent, (dependentKey dep.identifier dependent).pk = key

/-- Each dependency of the claim leads to the deployment that it names. -/
def ClaimRequest.NamesDependencies (r : ClaimRequest) (prepared : ApiInfraPayloadWithVariables) :
    Prop :=
  List.Forall₂
    (fun d dep => LeadsTo dep
      (namedKey r.services.toLowercase r.handler.projectId r.claim.spec.region d))
    (r.claim.spec.dependencies.getD []) prepared.payload.dependencies

theorem ClaimRequest.dependencies_eq {r : ClaimRequest} {deploymentId : String}
    {prepared : ApiInfraPayloadWithVariables} (h : r.prepare = .ok (deploymentId, prepared)) :
    prepared.payload.dependencies = claimDependencies r.services.toLowercase r.handler.projectId
      r.claim.spec.region r.environment r.claim.spec := by
  simp only [prepare, validateAndPrepareClaim, bind_eq_ok_iff] at h
  obtain ⟨_, -, details, hdetails, ⟨isStack, moduleVersion⟩, -, track, -, record, -, _, -, _, -, _,
    -, _, -, _, -, heq⟩ := h
  obtain ⟨-, rfl⟩ := getDeploymentDetails_eq_ok hdetails
  obtain ⟨rfl, rfl⟩ := Prod.mk.inj (Except.ok.inj heq)
  rfl

/-- The environment of a claim is not empty. -/
theorem ClaimRequest.environment_ne {r : ClaimRequest} {deploymentId : String}
    {prepared : ApiInfraPayloadWithVariables} (h : r.prepare = .ok (deploymentId, prepared)) :
    r.environment ≠ "" := by
  obtain ⟨isStack, record, haccepted⟩ := r.accepted h
  obtain ⟨launcher, namespaceOf, henvironment, -, -⟩ :=
    isEnvironment_of_isName haccepted.validNamespace
  intro hempty
  rw [hempty] at henvironment
  simp at henvironment

/-- The environment that a dependency names is behind its deployment, and the environment of the
claim is in its place, so that the key is too long for the deployment that is named. -/
theorem dependency_key_ne {projectId region environment : String} (hne : environment ≠ "")
    (deploymentId named : String) :
    getDeploymentIdentifier projectId region (deploymentId ++ "/" ++ named) environment ≠
      getDeploymentIdentifier projectId region deploymentId named := by
  have hisEmpty : ∀ s : String, s ≠ "" → s.isEmpty = false := fun s hs => by simpa using hs
  intro heq
  have hlength := congrArg String.length heq
  have hcolons : "::".length = 2 := rfl
  by_cases hnamed : named = ""
  · subst hnamed
    simp [getDeploymentIdentifier, hisEmpty _ hne] at hlength
    omega
  · simp only [getDeploymentIdentifier, hisEmpty _ hne, hisEmpty _ hnamed, Bool.false_and,
      Bool.false_eq_true, if_false, String.length_append] at hlength
    have hpos : environment.length ≠ 0 := by simpa using hne
    have hslash : "/".length = 1 := rfl
    omega

/-- The dependencies of an accepted claim lead to the deployments that they name only when there
are none. -/
theorem namesDependencies_iff {r : ClaimRequest} {deploymentId : String}
    {prepared : ApiInfraPayloadWithVariables} (h : r.prepare = .ok (deploymentId, prepared)) :
    r.NamesDependencies prepared ↔ r.claim.spec.dependencies.getD [] = [] := by
  unfold ClaimRequest.NamesDependencies
  rw [ClaimRequest.dependencies_eq h, claimDependencies]
  constructor
  · intro hnames
    cases hdependencies : r.claim.spec.dependencies.getD [] with
    | nil => rfl
    | cons d dependencies =>
        rw [hdependencies, List.map_cons] at hnames
        obtain ⟨hfirst, -⟩ := List.forall₂_cons.1 hnames
        exact absurd (deploymentPk_injective hfirst.stored)
          (dependency_key_ne (ClaimRequest.environment_ne h) _ _)
  · intro hnone
    rw [hnone]
    exact List.Forall₂.nil

/-- A claim that depends on the deployment of another one. -/
def dependingClaim (dependencies : Option (List DependencySpec)) : ClaimRequest :=
  let r := webClaim "a" "eu-central-1" "cli/default"
  { r with claim := { r.claim with spec := { r.claim.spec with dependencies } } }

theorem namesDependencies_webClaim : ∃ id prepared,
    (dependingClaim none).prepare = .ok (id, prepared) ∧
      (dependingClaim none).NamesDependencies prepared := by
  obtain ⟨id, prepared, h⟩ : ∃ id prepared, (dependingClaim none).prepare = .ok (id, prepared) :=
    exists_prepare (by decide +kernel)
  exact ⟨id, prepared, h, (namesDependencies_iff h).2 rfl⟩

/-- The dependency is looked for under `cli/default::web/b/cli/default`. -/
theorem not_namesDependencies_dependingClaim : ∃ id prepared,
    (dependingClaim (some [⟨"web/b", "cli/default"⟩])).prepare = .ok (id, prepared) ∧
      ¬ (dependingClaim (some [⟨"web/b", "cli/default"⟩])).NamesDependencies prepared := by
  obtain ⟨id, prepared, h⟩ : ∃ id prepared,
      (dependingClaim (some [⟨"web/b", "cli/default"⟩])).prepare = .ok (id, prepared) :=
    exists_prepare (by decide +kernel)
  refine ⟨id, prepared, h, fun hnames => ?_⟩
  unfold ClaimRequest.NamesDependencies at hnames
  rw [ClaimRequest.dependencies_eq h] at hnames
  have hstored := (List.forall₂_cons.1 hnames).1.stored
  exact absurd hstored (by decide +kernel)

end EnvCommon
end InfraWeave
