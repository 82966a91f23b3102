import InfraWeave.EnvCommon.DeploymentIdentity
import InfraWeave.EnvCommon.DestroyInfra
import InfraWeave.Gitops.Gitops

/-!
# Pushes

For every group of changed manifests, a push starts a job or updates the reference of a deployment.
The three branches of the source build the names of the deployment on their own.
-/

namespace InfraWeave
namespace Gitops

open EnvCommon

/-- What becomes of a job that is submitted; a response without a job ends the process. -/
inductive Submitted where
  | job (jobId : String)
  | refused (message : String)
  | noJob
  deriving DecidableEq

/-- The modules of each region, the readers of documents and claims, and what submissions come
to. -/
structure PushServices where
  claims : ClaimServices
  modules : String → RegionStore
  parse : String → Option Yaml
  manifest : Yaml → Except String Manifest
  submit : ApiInfraPayloadWithVariables → Submitted

/-- A push to a repository: its project, when there is one, and whether GitHub takes the check run
of the group at hand. -/
structure Push where
  branch : String
  defaultBranch : String
  repoFullName : String
  repositoryUrl : String
  projectId : Option String
  extraData : Json
  checkRunPosted : Bool

structure Address where
  handler : WorkloadHandler
  environment : String
  deploymentId : String
  deriving DecidableEq

/-- A job that is submitted, or a record that is written. -/
inductive Effect where
  | submitted (prepared : ApiInfraPayloadWithVariables)
  | saved (handler : WorkloadHandler) (record : DeploymentResp)
  deriving DecidableEq

/-- The deployment that a group is about, and what is done. -/
structure Handled where
  address : Option Address
  effect : Option Effect
  deriving DecidableEq

def Push.onDefaultBranch (push : Push) : Bool :=
  push.branch = "refs/heads/" ++ push.defaultBranch

def Manifest.spaceName (manifest : Manifest) : String :=
  manifest.space.getD "default"

def repoDash (push : Push) : String :=
  Text.replace push.repoFullName "/" "-"

def fileUrl (push : Push) (file : FileChange) : String :=
  push.repositoryUrl ++ "/blob/" ++ push.defaultBranch ++ "/" ++ file.path

section

variable (services : PushServices) (t : Deployments) (push : Push)

/-- The environment of an apply or a destroy. -/
def environmentOf (manifest : Manifest) : String :=
  "github-" ++ services.claims.toLowercase (repoDash push) ++ "/" ++ manifest.spaceName

/-- The environment of a rename, in which the name of the repository is not in lower case. -/
def renameEnvironment (manifest : Manifest) : String :=
  "github-" ++ repoDash push ++ "/" ++ manifest.spaceName

def unwrapped (message : String) : Except String Handled :=
  .error ("called " ++ message)

def submitPrepared (address : Address) (prepared : ApiInfraPayloadWithVariables) :
    Except String Handled :=
  match services.submit prepared with
  | .noJob => unwrapped "`Option::unwrap()` on a `None` value"
  | _ => .ok ⟨some address, some (.submitted prepared)⟩

/-- The claim of a manifest, prepared for a command. -/
def pushedClaim (handler : WorkloadHandler) (manifest : Manifest) (environment command : String)
    (flags : List String) (file : FileChange) :
    Except String (String × ApiInfraPayloadWithVariables) :=
  validateAndPrepareClaim services.claims handler (services.modules handler.region) t
    manifest.toDeploymentManifest environment command flags push.extraData (fileUrl push file)

/-- A claim that fails is reported in the check run. -/
def runPushedClaim (handler : WorkloadHandler) (manifest : Manifest)
    (environment command : String) (flags : List String) (file : FileChange) :
    Except String Handled :=
  match pushedClaim services t push handler manifest environment command flags file with
  | .error _ => .ok ⟨none, none⟩
  | .ok (id, prepared) => submitPrepared services ⟨handler, environment, id⟩ prepared

/-- The document of a change, and its manifest; a document that is no manifest is reported. -/
def withManifest (canonical : String) (next : Manifest → Except String Handled) :
    Except String Handled :=
  match services.parse canonical with
  | none => unwrapped "`Result::unwrap()` on an `Err` value"
  | some yaml =>
      match services.manifest yaml with
      | .error _ => .ok ⟨none, none⟩
      | .ok manifest => next manifest

def applyChange (projectId : String) (file : FileChange) (manifest : Manifest) :
    Except String Handled :=
  let command := if push.onDefaultBranch then "apply" else "plan"
  runPushedClaim services t push ⟨projectId, manifest.spec.region⟩ manifest
    (environmentOf services push manifest) command [] file

def destroyChange (projectId : String) (file : FileChange) (manifest : Manifest) :
    Except String Handled :=
  let handler : WorkloadHandler := ⟨projectId, manifest.spec.region⟩
  match getDeploymentDetails services.claims.toLowercase (environmentOf services push manifest)
      manifest.toDeploymentManifest with
  | .error _ => unwrapped "`Result::unwrap()` on an `Err` value"
  | .ok (_, environment, deploymentId, _, _) =>
      if push.onDefaultBranch then
        let address : Address := ⟨handler, environment, deploymentId⟩
        match destroyRequest services.claims handler (services.modules handler.region) t deploymentId
            environment push.extraData none with
        | .error _ => .ok ⟨some address, none⟩
        | .ok prepared => submitPrepared services address prepared
      else
        runPushedClaim services t push handler manifest (environmentOf services push manifest) "plan"
          ["-destroy"] file

/-- Only the reference of the deployment is updated, whatever the branch. -/
def renameChange (projectId : String) (file : FileChange) (manifest : Manifest) :
    Except String Handled :=
  let handler : WorkloadHandler := ⟨projectId, manifest.spec.region⟩
  match getDeploymentDetails services.claims.toLowercase (renameEnvironment push manifest)
      manifest.toDeploymentManifest with
  | .error _ => unwrapped "`Result::unwrap()` on an `Err` value"
  | .ok (_, environment, deploymentId, _, _) =>
      match handler.getDeployment t deploymentId environment false with
      | .error _ => unwrapped "`Result::unwrap()` on an `Err` value"
      | .ok none => unwrapped "`Option::unwrap()` on a `None` value"
      | .ok (some deployment) =>
          let record := { deployment with reference := fileUrl push file }
          match (setDeployment t handler record false).result with
          | .error _ => unwrapped "`Result::unwrap()` on an `Err` value"
          | .ok _ => .ok ⟨some ⟨handler, environment, deploymentId⟩, some (.saved handler record)⟩

/-- What is done for the change of a group, in a project. -/
def handleChange (projectId : String) (group : GroupedFile) : Except String Handled :=
  match group.active, group.deleted, group.renamed with
  | some (file, canonical), _, _ =>
      withManifest services canonical (applyChange services t push projectId file)
  | none, some (file, canonical), _ =>
      withManifest services canonical (destroyChange services t push projectId file)
  | none, none, some (file, canonical) =>
      withManifest services canonical (renameChange services t push projectId file)
  | none, none, none => .ok ⟨none, none⟩

/-- Without a project the check run says so. -/
def handleInProject (group : GroupedFile) : Except String Handled :=
  match push.projectId with
  | none => .ok ⟨none, none⟩
  | some projectId => handleChange services t push projectId group

/-- The check run of a group is posted last. -/
def handleGroup (group : GroupedFile) : Except String Handled := do
  let handled ← handleInProject services t push group
  if push.checkRunPosted then .ok handled
  else unwrapped "`Result::unwrap()` on an `Err` value"

/-! ## What is asked -/

/-- The deployment that an apply of the manifest is about. -/
def applyAddress (projectId : String) (manifest : Manifest) : Address where
  handler := ⟨projectId, manifest.spec.region⟩
  environment := environmentOf services push manifest
  deploymentId := services.claims.toLowercase manifest.kind ++ "/" ++ manifest.metadata.name

/-- It writes the record of a deployment, or starts a job that is more than a plan. -/
def Effect.Mutates : Effect → Prop
  | .submitted prepared => prepared.payload.command ≠ "plan"
  | .saved _ _ => True

def GroupedFile.change (group : GroupedFile) : Option (FileChange × String) :=
  group.active <|> group.deleted <|> group.renamed

/-- The group is handled without a panic, at the deployment that an apply of a manifest with the
same key is about, and off the default branch it changes nothing. -/
structure Sound (group : GroupedFile) (handled : Handled) : Prop where
  run : handleGroup services t push group = .ok handled
  address : ∀ address projectId file canonical yaml manifest, handled.address = some address →
    push.projectId = some projectId → group.change = some (file, canonical) →
    services.parse canonical = some yaml → services.manifest yaml = .ok manifest →
    ∀ other : Manifest, other.key = manifest.key →
      address = applyAddress services push projectId other
  readOnly : push.onDefaultBranch = false →
    ∀ effect, handled.effect = some effect → ¬ effect.Mutates

/-! ## When it holds -/

/-- A job that is submitted for a prepared claim is answered with its id. -/
def Answered (result : Except String (String × ApiInfraPayloadWithVariables)) : Prop :=
  ∀ id prepared, result = .ok (id, prepared) → services.submit prepared ≠ .noJob

def Named (environment : String) (manifest : Manifest) : Prop :=
  ∃ details, getDeploymentDetails services.claims.toLowercase environment
    manifest.toDeploymentManifest = .ok details

def ApplySafe (projectId : String) (file : FileChange) (manifest : Manifest) : Prop :=
  Answered services (pushedClaim services t push ⟨projectId, manifest.spec.region⟩ manifest
    (environmentOf services push manifest) (if push.onDefaultBranch then "apply" else "plan") []
    file)

def DestroySafe (projectId : String) (file : FileChange) (manifest : Manifest) : Prop :=
  Named services (environmentOf services push manifest) manifest ∧
    if push.onDefaultBranch then
      ∀ prepared, destroyRequest services.claims ⟨projectId, manifest.spec.region⟩
          (services.modules manifest.spec.region) t
          (services.claims.toLowercase manifest.kind ++ "/" ++ manifest.metadata.name)
          (environmentOf services push manifest) push.extraData none = .ok prepared →
        services.submit prepared ≠ .noJob
    else
      Answered services (pushedClaim services t push ⟨projectId, manifest.spec.region⟩ manifest
        (environmentOf services push manifest) "plan" ["-destroy"] file)

/-- A rename is safe on the default branch, of a repository without capital letters, for a
deployment that exists and whose write is accepted. -/
structure RenameSafe (projectId : String) (file : FileChange) (manifest : Manifest) : Prop where
  defaultBranch : push.onDefaultBranch = true
  lowercase : services.claims.toLowercase (repoDash push) = repoDash push
  named : Named services (environmentOf services push manifest) manifest
  exists_deployment : ∃ deployment, WorkloadHandler.getDeployment
      ⟨projectId, manifest.spec.region⟩ t
      (services.claims.toLowercase manifest.kind ++ "/" ++ manifest.metadata.name)
      (environmentOf services push manifest) false = .ok (some deployment) ∧
    (setDeployment t ⟨projectId, manifest.spec.region⟩
      { deployment with reference := fileUrl push file } false).result = .ok ()

/-- The document can be read; if it is a manifest, the change of it is safe. -/
def Readable (canonical : String) (safe : Manifest → Prop) : Prop :=
  ∃ yaml, services.parse canonical = some yaml ∧
    ∀ manifest, services.manifest yaml = .ok manifest → safe manifest

def ChangeSafe (projectId : String) (group : GroupedFile) : Prop :=
  match group.active, group.deleted, group.renamed with
  | some (file, canonical), _, _ =>
      Readable services canonical (ApplySafe services t push projectId file)
  | none, some (file, canonical), _ =>
      Readable services canonical (DestroySafe services t push projectId file)
  | none, none, some (file, canonical) =>
      Readable services canonical (RenameSafe services t push projectId file)
  | none, none, none => True

def GroupSafe (group : GroupedFile) : Prop :=
  push.checkRunPosted = true ∧
    ∀ projectId, push.projectId = some projectId → ChangeSafe services t push projectId group

end

/-! ## Single changes -/

section

variable {services : PushServices} {t : Deployments} {push : Push} {projectId : String}
  {file : FileChange} {manifest : Manifest}

/-- The result of a change of the manifest is no panic, about the deployment of an apply, and
changes nothing off the default branch. -/
structure GoodResult (services : PushServices) (push : Push) (projectId : String)
    (manifest : Manifest) (result : Except String Handled) (handled : Handled) : Prop where
  run : result = .ok handled
  address : ∀ address, handled.address = some address →
    address = applyAddress services push projectId manifest
  readOnly : push.onDefaultBranch = false →
    ∀ effect, handled.effect = some effect → ¬ effect.Mutates

/-- The address of an apply depends on the key of the manifest only. -/
theorem applyAddress_of_key {other : Manifest} (h : other.key = manifest.key) :
    applyAddress services push projectId other = applyAddress services push projectId manifest := by
  have hkind : other.kind = manifest.kind := congrArg GroupKey.kind h
  have hname : other.metadata.name = manifest.metadata.name := congrArg GroupKey.name h
  have hspace : other.spaceName = manifest.spaceName := congrArg GroupKey.space h
  have hregion : other.spec.region = manifest.spec.region := congrArg GroupKey.region h
  unfold applyAddress environmentOf
  rw [hkind, hname, hspace, hregion]

theorem not_good_unwrapped {message : String} {handled : Handled} :
    ¬ GoodResult services push projectId manifest (unwrapped message) handled := by
  intro h
  cases h.run

/-- A claim keeps its command and its names. -/
theorem of_pushedClaim {handler : WorkloadHandler} {environment command id : String}
    {flags : List String} {prepared : ApiInfraPayloadWithVariables}
    (h : pushedClaim services t push handler manifest environment command flags file =
      .ok (id, prepared)) :
    id = services.claims.toLowercase manifest.kind ++ "/" ++ manifest.metadata.name ∧
      prepared.payload.command = command := by
  simp only [pushedClaim, validateAndPrepareClaim, bind_eq_ok_iff] at h
  obtain ⟨_, -, details, hdetails, _, -, _, -, _, -, _, -, _, -, _, -, _, -, _, -, heq⟩ := h
  obtain ⟨-, rfl⟩ := getDeploymentDetails_eq_ok hdetails
  obtain ⟨rfl, rfl⟩ := Prod.mk.inj (Except.ok.inj heq)
  exact ⟨rfl, rfl⟩

theorem good_submitPrepared_iff {address : Address} {prepared : ApiInfraPayloadWithVariables}
    (haddress : address = applyAddress services push projectId manifest)
    (hcommand : push.onDefaultBranch = false → prepared.payload.command = "plan") :
    (∃ handled, GoodResult services push projectId manifest
        (submitPrepared services address prepared) handled) ↔
      services.submit prepared ≠ .noJob := by
  have hgood : GoodResult services push projectId manifest
      (.ok ⟨some address, some (.submitted prepared)⟩) ⟨some address, some (.submitted prepared)⟩ := by
    refine ⟨rfl, fun other hother => ?_, fun hbranch effect heffect => ?_⟩
    · rw [← Option.some.inj hother]
      exact haddress
    · rw [← Option.some.inj heffect]
      exact not_not.2 (hcommand hbranch)
  unfold submitPrepared
  cases hsubmit : services.submit prepared with
  | noJob => exact iff_of_false (fun ⟨_, h⟩ => not_good_unwrapped h) fun h => h rfl
  | job jobId => exact iff_of_true ⟨_, hgood⟩ fun h => by cases h
  | refused message => exact iff_of_true ⟨_, hgood⟩ fun h => by cases h

/-- Nothing is done. -/
theorem good_nothing : GoodResult services push projectId manifest (.ok ⟨none, none⟩) ⟨none, none⟩ :=
  ⟨rfl, fun address h => absurd h.symm (Option.some_ne_none address),
    fun _ effect h => absurd h.symm (Option.some_ne_none effect)⟩

/-- A claim in the region and environment of an apply, with a command that plans off the default
branch. -/
theorem good_runPushedClaim_iff {command : String} {flags : List String}
    (hcommand : push.onDefaultBranch = false → command = "plan") :
    (∃ handled, GoodResult services push projectId manifest
        (runPushedClaim services t push ⟨projectId, manifest.spec.region⟩ manifest
          (environmentOf services push manifest) command flags file) handled) ↔
      Answered services (pushedClaim services t push ⟨projectId, manifest.spec.region⟩ manifest
        (environmentOf services push manifest) command flags file) := by
  unfold runPushedClaim Answered
  cases hclaim : pushedClaim services t push ⟨projectId, manifest.spec.region⟩ manifest
      (environmentOf services push manifest) command flags file with
  | error e => exact iff_of_true ⟨_, good_nothing⟩ fun id prepared h => by cases h
  | ok result =>
      obtain ⟨id, prepared⟩ := result
      obtain ⟨rfl, hprepared⟩ := of_pushedClaim hclaim
      have hplan : push.onDefaultBranch = false → prepared.payload.command = "plan" := by
        intro hbranch
        rw [hprepared]
        exact hcommand hbranch
      refine (good_submitPrepared_iff rfl hplan).trans ⟨fun h id' prepared' heq => ?_, fun h => ?_⟩
      · obtain ⟨rfl, rfl⟩ := Prod.mk.inj (Except.ok.inj heq)
        exact h
      · exact h _ prepared rfl

theorem good_applyChange_iff :
    (∃ handled, GoodResult services push projectId manifest
        (applyChange services t push projectId file manifest) handled) ↔
      ApplySafe services t push projectId file manifest := by
  refine good_runPushedClaim_iff fun hbranch => ?_
  rw [hbranch]
  rfl

theorem good_destroyChange_iff :
    (∃ handled, GoodResult services push projectId manifest
        (destroyChange services t push projectId file manifest) handled) ↔
      DestroySafe services t push projectId file manifest := by
  unfold destroyChange DestroySafe Named
  cases hdetails : getDeploymentDetails services.claims.toLowercase
      (environmentOf services push manifest) manifest.toDeploymentManifest with
  | error e =>
      refine iff_of_false (fun ⟨_, h⟩ => not_good_unwrapped h) fun h => ?_
      obtain ⟨⟨details, hnamed⟩, -⟩ := h
      cases hnamed
  | ok details =>
      obtain ⟨-, rfl⟩ := getDeploymentDetails_eq_ok hdetails
      rw [and_iff_right ⟨_, rfl⟩]
      dsimp only
      by_cases hbranch : push.onDefaultBranch = true
      · rw [if_pos hbranch, if_pos hbranch]
        have hcommand : ∀ {command : String}, push.onDefaultBranch = false → command = "plan" :=
          fun h => absurd (hbranch.symm.trans h) (by decide)
        cases hrequest : destroyRequest services.claims ⟨projectId, manifest.spec.region⟩
            (services.modules manifest.spec.region) t
            (services.claims.toLowercase manifest.kind ++ "/" ++ manifest.metadata.name)
            (environmentOf services push manifest) push.extraData none with
        | error e =>
            refine iff_of_true ⟨_, rfl, fun address h => (Option.some.inj h).symm,
              fun _ effect h => absurd h.symm (Option.some_ne_none effect)⟩ fun prepared h => ?_
            cases h
        | ok prepared =>
            refine (good_submitPrepared_iff rfl hcommand).trans ⟨fun h prepared' heq => ?_, fun h => ?_⟩
            · obtain rfl := Except.ok.inj heq
              exact h
            · exact h prepared rfl
      · rw [if_neg hbranch, if_neg hbranch]
        exact good_runPushedClaim_iff fun _ => rfl

/-- The environment of a rename is the one of an apply when the name of the repository is in lower
case. -/
theorem renameEnvironment_eq_iff :
    renameEnvironment push manifest = environmentOf services push manifest ↔
      services.claims.toLowercase (repoDash push) = repoDash push := by
  unfold renameEnvironment environmentOf
  constructor
  · intro h
    have hchars := congrArg String.toList h
    simp only [String.toList_append, List.append_assoc] at hchars
    have hrest := List.append_cancel_left hchars
    simp only [← List.append_assoc] at hrest
    exact String.ext (List.append_cancel_right (List.append_cancel_right hrest)).symm
  · intro h
    rw [h]

/-- What a rename comes to when it does not panic. -/
theorem renameChange_eq_ok {handled : Handled}
    (h : renameChange services t push projectId file manifest = .ok handled) :
    ∃ deployment, Named services (renameEnvironment push manifest) manifest ∧
      WorkloadHandler.getDeployment ⟨projectId, manifest.spec.region⟩ t
        (services.claims.toLowercase manifest.kind ++ "/" ++ manifest.metadata.name)
        (renameEnvironment push manifest) false = .ok (some deployment) ∧
      (setDeployment t ⟨projectId, manifest.spec.region⟩
        { deployment with reference := fileUrl push file } false).result = .ok () ∧
      handled =
        ⟨some ⟨⟨projectId, manifest.spec.region⟩, renameEnvironment push manifest,
            services.claims.toLowercase manifest.kind ++ "/" ++ manifest.metadata.name⟩,
          some (.saved ⟨projectId, manifest.spec.region⟩
            { deployment with reference := fileUrl push file })⟩ := by
  unfold renameChange at h
  cases hdetails : getDeploymentDetails services.claims.toLowercase
      (renameEnvironment push manifest) manifest.toDeploymentManifest with
  | error e =>
      rw [hdetails] at h
      cases h
  | ok details =>
      rw [hdetails] at h
      have hnamed : Named services (renameEnvironment push manifest) manifest := ⟨_, hdetails⟩
      obtain ⟨-, rfl⟩ := getDeploymentDetails_eq_ok hdetails
      dsimp only at h
      split at h
      · cases h
      · cases h
      · rename_i deployment hfound
        split at h
        · cases h
        · rename_i hsaved
          exact ⟨deployment, hnamed, hfound, hsaved, (Except.ok.inj h).symm⟩

/-- The other direction: a deployment that is found and accepted is written. -/
theorem renameChange_of_found {environment : String} {deployment : DeploymentResp}
    (henvironment : renameEnvironment push manifest = environment)
    (hnamed : Named services environment manifest)
    (hfound : WorkloadHandler.getDeployment ⟨projectId, manifest.spec.region⟩ t
      (services.claims.toLowercase manifest.kind ++ "/" ++ manifest.metadata.name) environment
      false = .ok (some deployment))
    (hsaved : (setDeployment t ⟨projectId, manifest.spec.region⟩
      { deployment with reference := fileUrl push file } false).result = .ok ()) :
    renameChange services t push projectId file manifest =
      .ok ⟨some ⟨⟨projectId, manifest.spec.region⟩, environment,
          services.claims.toLowercase manifest.kind ++ "/" ++ manifest.metadata.name⟩,
        some (.saved ⟨projectId, manifest.spec.region⟩
          { deployment with reference := fileUrl push file })⟩ := by
  obtain ⟨details, hdetails⟩ := hnamed
  unfold renameChange
  rw [henvironment, hdetails]
  obtain ⟨-, rfl⟩ := getDeploymentDetails_eq_ok hdetails
  dsimp only
  rw [hfound]
  dsimp only
  rw [hsaved]

theorem good_renameChange_iff :
    (∃ handled, GoodResult services push projectId manifest
        (renameChange services t push projectId file manifest) handled) ↔
      RenameSafe services t push projectId file manifest := by
  constructor
  · rintro ⟨handled, hgood⟩
    obtain ⟨deployment, hnamed, hfound, hsaved, rfl⟩ := renameChange_eq_ok hgood.run
    have henvironment : renameEnvironment push manifest = environmentOf services push manifest :=
      congrArg Address.environment (hgood.address _ rfl)
    rw [henvironment] at hnamed hfound
    refine ⟨?_, renameEnvironment_eq_iff.1 henvironment, hnamed, deployment, hfound, hsaved⟩
    by_contra hbranch
    exact hgood.readOnly (Bool.eq_false_iff.2 hbranch) _ rfl trivial
  · intro hsafe
    obtain ⟨deployment, hfound, hsaved⟩ := hsafe.exists_deployment
    have hrun := renameChange_of_found (renameEnvironment_eq_iff.2 hsafe.lowercase) hsafe.named
      hfound hsaved
    refine ⟨_, hrun, fun address h => (Option.some.inj h).symm, fun hbranch => ?_⟩
    exact absurd (hsafe.defaultBranch.symm.trans hbranch) (by decide)

/-! ## Groups -/

/-- A document with a good result for its manifest. -/
structure GoodDocument (services : PushServices) (push : Push) (projectId canonical : String)
    (result : Except String Handled) (handled : Handled) : Prop where
  run : result = .ok handled
  address : ∀ yaml manifest, services.parse canonical = some yaml →
    services.manifest yaml = .ok manifest → ∀ address, handled.address = some address →
      address = applyAddress services push projectId manifest
  readOnly : push.onDefaultBranch = false →
    ∀ effect, handled.effect = some effect → ¬ effect.Mutates

theorem good_withManifest_iff {canonical : String} {next : Manifest → Except String Handled}
    {safe : Manifest → Prop}
    (hnext : ∀ manifest, (∃ handled, GoodResult services push projectId manifest (next manifest)
      handled) ↔ safe manifest) :
    (∃ handled, GoodDocument services push projectId canonical
        (withManifest services canonical next) handled) ↔ Readable services canonical safe := by
  unfold withManifest Readable
  cases hparse : services.parse canonical with
  | none =>
      refine iff_of_false (fun ⟨handled, h⟩ => by cases h.run) fun h => ?_
      obtain ⟨yaml, hyaml, -⟩ := h
      cases hyaml
  | some yaml =>
      cases hmanifest : services.manifest yaml with
      | error e =>
          refine iff_of_true ⟨⟨none, none⟩, ?_⟩ ⟨yaml, rfl, fun manifest h => ?_⟩
          · simp only [hmanifest]
            exact ⟨rfl, fun _ _ _ _ address h => absurd h.symm (Option.some_ne_none address),
              fun _ effect h => absurd h.symm (Option.some_ne_none effect)⟩
          · rw [hmanifest] at h
            cases h
      | ok manifest =>
          simp only [hmanifest]
          constructor
          · rintro ⟨handled, hgood⟩
            refine ⟨yaml, rfl, fun manifest' h => ?_⟩
            obtain rfl := Except.ok.inj (hmanifest.symm.trans h)
            refine (hnext manifest).1 ⟨handled, hgood.run, ?_, hgood.readOnly⟩
            exact hgood.address yaml manifest hparse hmanifest
          · rintro ⟨yaml', hyaml, hsafe⟩
            obtain rfl := Option.some.inj hyaml
            obtain ⟨handled, hgood⟩ := (hnext manifest).2 (hsafe manifest hmanifest)
            refine ⟨handled, hgood.run, fun yaml' manifest' hyaml' hmanifest' => ?_, hgood.readOnly⟩
            obtain rfl := Option.some.inj (hparse.symm.trans hyaml')
            obtain rfl := Except.ok.inj (hmanifest.symm.trans hmanifest')
            exact hgood.address

/-- A change of a group with a good result. -/
structure GoodChange (services : PushServices) (t : Deployments) (push : Push) (projectId : String)
    (group : GroupedFile) (handled : Handled) : Prop where
  run : handleChange services t push projectId group = .ok handled
  address : ∀ file canonical yaml manifest, group.change = some (file, canonical) →
    services.parse canonical = some yaml → services.manifest yaml = .ok manifest →
    ∀ address, handled.address = some address →
      address = applyAddress services push projectId manifest
  readOnly : push.onDefaultBranch = false →
    ∀ effect, handled.effect = some effect → ¬ effect.Mutates

theorem goodChange_iff_document {group : GroupedFile} {canonical : String} {handled : Handled}
    {result : Except String Handled} (hchange : group.change = some (file, canonical))
    (hresult : handleChange services t push projectId group = result) :
    GoodChange services t push projectId group handled ↔
      GoodDocument services push projectId canonical result handled := by
  subst hresult
  constructor
  · intro h
    exact ⟨h.run, fun yaml manifest => h.address file canonical yaml manifest hchange, h.readOnly⟩
  · intro h
    refine ⟨h.run, fun file' canonical' yaml manifest hchange' => ?_, h.readOnly⟩
    obtain ⟨rfl, rfl⟩ := Prod.mk.inj (Option.some.inj (hchange.symm.trans hchange'))
    exact h.address yaml manifest

theorem goodChange_iff {group : GroupedFile} :
    (∃ handled, GoodChange services t push projectId group handled) ↔
      ChangeSafe services t push projectId group := by
  obtain ⟨key, active, deleted, renamed⟩ := group
  cases active with
  | some change =>
      obtain ⟨file, canonical⟩ := change
      refine (exists_congr fun handled => goodChange_iff_document rfl rfl).trans ?_
      exact good_withManifest_iff fun manifest => good_applyChange_iff
  | none =>
      cases deleted with
      | some change =>
          obtain ⟨file, canonical⟩ := change
          refine (exists_congr fun handled => goodChange_iff_document rfl rfl).trans ?_
          exact good_withManifest_iff fun manifest => good_destroyChange_iff
      | none =>
          cases renamed with
          | some change =>
              obtain ⟨file, canonical⟩ := change
              refine (exists_congr fun handled => goodChange_iff_document rfl rfl).trans ?_
              exact good_withManifest_iff fun manifest => good_renameChange_iff
          | none =>
              refine iff_of_true ⟨⟨none, none⟩, rfl, fun file canonical _ _ h => ?_,
                fun _ effect h => absurd h.symm (Option.some_ne_none effect)⟩ trivial
              exact absurd h.symm (Option.some_ne_none (file, canonical))

end

/-- A group is handled soundly if and only if GitHub takes its check run and its change is safe. -/
theorem sound_iff_groupSafe (services : PushServices) (t : Deployments) (push : Push)
    (group : GroupedFile) :
    (∃ handled, Sound services t push group handled) ↔ GroupSafe services t push group := by
  unfold GroupSafe
  cases hposted : push.checkRunPosted with
  | false =>
      refine iff_of_false (fun ⟨handled, h⟩ => ?_) fun h => Bool.false_ne_true h.1
      obtain ⟨_, -, hrun⟩ := bind_eq_ok_iff.1 h.run
      rw [hposted] at hrun
      cases hrun
  | true =>
      rw [and_iff_right rfl]
      cases hproject : push.projectId with
      | none =>
          have hrun : handleGroup services t push group = .ok ⟨none, none⟩ := by
            unfold handleGroup handleInProject
            rw [hproject, hposted]
            rfl
          refine iff_of_true ⟨⟨none, none⟩, hrun, fun address _ _ _ _ _ h => ?_, fun _ effect h => ?_⟩
            fun _ h => absurd h.symm (Option.some_ne_none _)
          · exact absurd h.symm (Option.some_ne_none address)
          · exact absurd h.symm (Option.some_ne_none effect)
      | some projectId =>
          have hrun : handleGroup services t push group =
              handleChange services t push projectId group := by
            unfold handleGroup handleInProject
            rw [hproject, hposted]
            change (handleChange services t push projectId group >>= fun handled => .ok handled) = _
            cases handleChange services t push projectId group with
            | error e => rfl
            | ok result => rfl
          have hsafe : (∀ projectId', some projectId = some projectId' →
              ChangeSafe services t push projectId' group) ↔
                ChangeSafe services t push projectId group :=
            ⟨fun h => h projectId rfl, fun h projectId' heq => Option.some.inj heq ▸ h⟩
          rw [hsafe, ← goodChange_iff]
          refine exists_congr fun handled => ⟨fun h => ?_, fun h => ?_⟩
          · refine ⟨hrun.symm.trans h.run, ?_, h.readOnly⟩
            intro file canonical yaml manifest hchange hparse hmanifest address haddress
            exact h.address address projectId file canonical yaml manifest haddress hproject hchange
              hparse hmanifest manifest rfl
          · refine ⟨hrun.trans h.run, ?_, h.readOnly⟩
            intro address projectId' file canonical yaml manifest haddress hproject' hchange hparse
              hmanifest other hkey
            obtain rfl := Option.some.inj (hproject.symm.trans hproject')
            rw [applyAddress_of_key hkey]
            exact h.address file canonical yaml manifest hchange hparse hmanifest address haddress

/-! ## A repository with capital letters -/

def webManifest : Manifest where
  metadata := ⟨"a", none⟩
  apiVersion := "infraweave.io/v1"
  kind := "Web"
  spec :=
    { moduleVersion := some "1.0.0"
      stackVersion := none
      region := "eu-central-1"
      reference := none
      vars := []
      dependencies := none
      driftDetection := none }
  space := none
  labels := none

/-- The answers for the one manifest; there is no registry, since a rename does not need one. -/
def renameServices : PushServices where
  claims := localClaimServices
  modules := fun _ => .empty
  parse := fun text => some (.string text)
  manifest := fun _ => .ok webManifest
  submit := fun _ => .refused "Failed to run mutate_infra"

def acmePush : Push where
  branch := "refs/heads/main"
  defaultBranch := "main"
  repoFullName := "Acme/Infra"
  repositoryUrl := "https://github.com/Acme/Infra"
  projectId := some "111111111111"
  extraData := .null
  checkRunPosted := true

def acmeRename : GroupedFile :=
  renameGroup webManifest.key ⟨webManifest.key, "web", ⟨"claims/web.yaml", "web"⟩⟩

/-- The deployment that an apply of the claim has stored. -/
def acmeDeployments : Deployments :=
  .run [{ applied with
    deployment := { webDeployment with environment := "github-acme-infra/default" } }]

/-- The deployment is there, but the rename looks for it under another environment, and panics. -/
theorem rename_not_sound :
    (WorkloadHandler.getDeployment ⟨"111111111111", "eu-central-1"⟩ acmeDeployments "web/a"
        (environmentOf renameServices acmePush webManifest) false).toOption.isSome = true ∧
      ¬ ∃ handled, Sound renameServices acmeDeployments acmePush acmeRename handled := by
  refine ⟨by decide +kernel, fun ⟨handled, h⟩ => ?_⟩
  have hpanic : handleGroup renameServices acmeDeployments acmePush acmeRename =
      .error "called `Option::unwrap()` on a `None` value" := by
    decide +kernel
  cases hpanic.symm.trans h.run

end Gitops
end InfraWeave
