import InfraWeave.InternalApi.DeploymentRoutes

/-!
# What the jobs of the routes have been checked for

In direct mode a claim is checked before its job is started, and a deployment is destroyed as it is
stored.  The routes guarantee the same only for some of the bodies that they accept.
-/

namespace InfraWeave
namespace InternalApi

open EnvAwsDirect EnvCommon

/-! ## Guarantees of the direct mode -/

/-- The version is one of the module, is not deprecated for a new deployment, and takes the
variables. -/
structure VersionPasses (claims : ClaimServices) (s : RegionStore) (handler : WorkloadHandler)
    (t : Deployments) (module version track deploymentId environment : String) (vars : Json) :
    Prop where
  tracked : getVersionTrack version = some track
  found : ∃ record, claims.registry.getModuleVersion s module track version = .ok (some record) ∧
    (record.deprecated = true → ∃ deployment,
      handler.getDeployment t deploymentId environment false = .ok (some deployment)) ∧
    verifyVariableExistenceAndType (isReference claims.conv) record vars = .ok () ∧
    verifyRequiredVariablesAreSet record vars = .ok ()

/-- What a claim has been checked for when its job is started. -/
structure ClaimGuarantee (services : RouteServices) (t : Deployments) (headers : Headers)
    (prepared : ApiInfraPayloadWithVariables) : Prop where
  authorized : ensureAccess services.auth headers prepared.payload.projectId = .ok ()
  environment : isName ("/".intercalate
    ((Text.split '/' prepared.payload.environment).drop 1)) = true
  version : ∃ module, prepared.payload.module = services.claims.toLowercase module ∧
    prepared.payload.deploymentId = module ++ "/" ++ prepared.payload.name ∧
    VersionPasses services.claims (services.modules prepared.payload.region)
      ⟨prepared.payload.projectId, prepared.payload.region⟩ t module prepared.payload.moduleVersion
      prepared.payload.moduleTrack prepared.payload.deploymentId prepared.payload.environment
      prepared.vars
  dependencies : ∀ d ∈ prepared.payload.dependencies, d.projectId = prepared.payload.projectId

/-- What is destroyed is a deployment that exists, as it is stored. -/
def DestroyGuarantee (services : RouteServices) (t : Deployments)
    (prepared : ApiInfraPayloadWithVariables) : Prop :=
  ∃ deployment, WorkloadHandler.getDeployment
      ⟨prepared.payload.projectId, prepared.payload.region⟩ t prepared.payload.deploymentId
      prepared.payload.environment false = .ok (some deployment) ∧
    prepared.payload.module = services.claims.toLowercase deployment.module ∧
    prepared.payload.moduleVersion = deployment.moduleVersion ∧
    prepared.payload.moduleType = deployment.moduleType ∧
    prepared.payload.moduleTrack = deployment.moduleTrack ∧
    prepared.payload.dependencies = deployment.dependencies ∧ prepared.vars = deployment.vars

section

variable (services : RouteServices) (t : Deployments) (headers : Headers)

def Guaranteed (route : ClaimRoute) (prepared : ApiInfraPayloadWithVariables) : Prop :=
  match route with
  | .destroy => DestroyGuarantee services t prepared
  | _ => ClaimGuarantee services t headers prepared

/-- Every job that is started, with the record that is stored for it, has been checked. -/
def NotBypassed (route : ClaimRoute) (body : Json) : Prop :=
  ∀ payload, Program.MayCall (.runFunction payload)
      (serveClaimRoute services t headers route body) →
    ∃ vars, Guaranteed services t headers route ⟨payload, vars⟩ ∧
      ∀ record, Program.MayCall (.sendDeployment record)
          (serveClaimRoute services t headers route body) →
        ∃ jobId, record = .ofRequest ⟨payload, vars⟩ jobId

/-! ## Bodies that are covered -/

/-- What the client has prepared would have passed. -/
def PreparedCovered (route : ClaimRoute) (body : Json) : Prop :=
  ∀ payloadValue vars payload, body.get? "payload" = some payloadValue →
    body.get? "variables" = some vars → services.readPayload payloadValue = .ok payload →
    payload.command = route.command →
    ensureAccess services.auth headers payload.projectId = .ok () →
      Guaranteed services t headers route ⟨payload, vars⟩

/-- The claim of a body, and the region of the handler that checks it. -/
structure ReadsClaim (body : Json) (project environment region : String)
    (manifest : DeploymentManifest) : Prop where
  project : bodyStringParam body ["project", "project_id"] = .ok project
  environment : bodyStringParam body ["environment", "environment_id"] = .ok environment
  claim : ∃ claim, bodyClaimParam services body = .ok claim ∧
    regionFromClaimOrBody body claim = .ok region ∧ services.readManifest claim = .ok manifest

/-- A claim that is accepted in another region passes in its own as well. -/
def ClaimCovered (body : Json) (command : String) : Prop :=
  ∀ project environment region manifest,
    ReadsClaim services body project environment region manifest →
    (∃ prepared, runClaimAction services t headers body command = .ok prepared) →
    region ≠ manifest.spec.region →
    ∀ isStack version track record, claimedVersion manifest.spec = .ok (isStack, version) →
      getVersionTrack version = some track →
      services.claims.registry.getModuleVersion (services.modules region)
        (services.claims.toLowercase manifest.kind) track version = .ok (some record) →
      VersionPasses services.claims (services.modules manifest.spec.region)
        ⟨project, manifest.spec.region⟩ t (services.claims.toLowercase manifest.kind) version track
        (services.claims.toLowercase manifest.kind ++ "/" ++ manifest.metadata.name) environment
        (terraformVariables services.claims.conv isStack record
          (providedVariables services.claims.conv manifest.spec))

/-- The deployment that is loaded has not been deleted. -/
def DestroyCovered (body : Json) : Prop :=
  ∀ project region environment deploymentId deployment,
    deploymentSelectorFromBody body = .ok (project, region, environment, deploymentId) →
    ensureAccess services.auth headers project = .ok () →
    loadDeployment services.getJobStatus t project region environment deploymentId =
      .ok deployment → deployment.deleted = false

def Covered (route : ClaimRoute) (body : Json) : Prop :=
  if isPrepared body then PreparedCovered services t headers route body
  else
    match route with
    | .destroy => DestroyCovered services t headers body
    | _ => ClaimCovered services t headers body route.command

end

/-! ## Requests of a job -/

/-- A busy check calls for nothing that changes a state. -/
theorem calls_isDeploymentInProgress {op : Request} {deploymentId environment : String}
    {jobCheck includeDeleted : Bool}
    (h : Program.MayCall op
      (isDeploymentInProgress deploymentId environment jobCheck includeDeleted)) :
    op = .getDeployment deploymentId environment includeDeleted ∨
      ∃ jobId, op = .getJobStatus jobId := by
  unfold isDeploymentInProgress at h
  rcases Program.mayCall_call_iff.1 h with h | ⟨answer, h⟩
  · exact Or.inl h
  · cases answer with
    | error e => exact absurd h (Program.not_mayCall_done _)
    | ok found =>
        cases found with
        | none => exact absurd h (Program.not_mayCall_done _)
        | some deployment =>
            dsimp only at h
            split at h
            · split at h
              · rcases Program.mayCall_call_iff.1 h with h | ⟨answer, h⟩
                · exact Or.inr ⟨deployment.jobId, h⟩
                · split at h
                  · split at h <;> exact absurd h (Program.not_mayCall_done _)
                  · exact absurd h (Program.not_mayCall_done _)
                  · exact absurd h (Program.not_mayCall_done _)
              · exact absurd h (Program.not_mayCall_done _)
            · exact absurd h (Program.not_mayCall_done _)

/-- The job that is started is the one that was prepared, and so is the record. -/
theorem calls_runClaimAuthorized {op : Request} {prepared : ApiInfraPayloadWithVariables}
    (h : Program.MayCall op (runClaimAuthorized prepared)) :
    (op = .getDeployment prepared.payload.deploymentId prepared.payload.environment false ∨
        ∃ jobId, op = .getJobStatus jobId) ∨
      op = .runFunction prepared.payload ∨
        ∃ jobId, op = .sendDeployment (.ofRequest prepared jobId) := by
  unfold runClaimAuthorized at h
  rcases Program.mayCall_bind h with h | ⟨⟨inProgress, jobId, _, _⟩, h⟩
  · exact Or.inl (calls_isDeploymentInProgress h)
  · dsimp only at h
    split at h
    · exact absurd h (Program.not_mayCall_done _)
    · rcases Program.mayCall_call_iff.1 h with h | ⟨answer, h⟩
      · exact Or.inr (Or.inl h)
      · cases answer with
        | error e => exact absurd h (Program.not_mayCall_done _)
        | ok response =>
            dsimp only at h
            split at h
            · exact absurd h (Program.not_mayCall_done _)
            · rcases Program.mayCall_bind h with h | ⟨inserted, h⟩
              · rcases Program.mayCall_call_iff.1 h with h | ⟨answer, h⟩
                · exact Or.inr (Or.inr ⟨_, h⟩)
                · exact absurd h (Program.not_mayCall_done _)
              · exact absurd h (Program.not_mayCall_done _)

section

variable {services : RouteServices} {t : Deployments} {headers : Headers} {route : ClaimRoute}
  {body : Json}

theorem mayCall_serveClaimRoute {op : Request} {prepared : ApiInfraPayloadWithVariables}
    (hroute : routePayload services t headers route body = .ok prepared)
    (h : Program.MayCall op (serveClaimRoute services t headers route body)) :
    Program.MayCall op (runClaimAuthorized prepared) := by
  unfold serveClaimRoute at h
  rw [hroute] at h
  rcases Program.mayCall_bind h with h | ⟨response, h⟩
  · exact h
  · exact absurd h (Program.not_mayCall_done _)

/-- Nothing is called for a body that is refused. -/
theorem not_mayCall_of_refused {op : Request} {refusal : Refusal}
    (hroute : routePayload services t headers route body = .error refusal) :
    ¬ Program.MayCall op (serveClaimRoute services t headers route body) := by
  unfold serveClaimRoute
  rw [hroute]
  exact Program.not_mayCall_done _

/-- An answer for which a deployment is not in progress lets the job start. -/
theorem mayCall_runFunction {prepared : ApiInfraPayloadWithVariables}
    (hroute : routePayload services t headers route body = .ok prepared) :
    Program.MayCall (.runFunction prepared.payload)
      (serveClaimRoute services t headers route body) := by
  unfold serveClaimRoute
  rw [hroute]
  refine .later (Request.getDeployment prepared.payload.deploymentId prepared.payload.environment
    false) _ (Except.ok none) ?_
  exact .now _

theorem mayCall_sendDeployment {prepared : ApiInfraPayloadWithVariables}
    (hroute : routePayload services t headers route body = .ok prepared) :
    Program.MayCall (.sendDeployment (.ofRequest prepared "1"))
      (serveClaimRoute services t headers route body) := by
  unfold serveClaimRoute
  rw [hroute]
  refine .later (Request.getDeployment prepared.payload.deploymentId prepared.payload.environment
    false) _ (Except.ok none) ?_
  refine .later (Request.runFunction prepared.payload) _ (Except.ok ⟨none, some "1"⟩) ?_
  exact .now _

theorem ofRequest_inj {prepared prepared' : ApiInfraPayloadWithVariables} {jobId jobId' : String}
    (h : DeploymentStatusHandler.ofRequest prepared jobId =
      DeploymentStatusHandler.ofRequest prepared' jobId') : prepared.vars = prepared'.vars :=
  congrArg DeploymentStatusHandler.vars h

/-- A route keeps to the checks when what it hands on has passed them. -/
theorem notBypassed_iff {prepared : ApiInfraPayloadWithVariables}
    (hroute : routePayload services t headers route body = .ok prepared) :
    NotBypassed services t headers route body ↔ Guaranteed services t headers route prepared := by
  constructor
  · intro h
    obtain ⟨vars, hguaranteed, hrecords⟩ := h prepared.payload (mayCall_runFunction hroute)
    obtain ⟨jobId, hrecord⟩ := hrecords _ (mayCall_sendDeployment hroute)
    obtain rfl : prepared.vars = vars := ofRequest_inj hrecord
    exact hguaranteed
  · intro hguaranteed payload hcalled
    have hpayload : payload = prepared.payload := by
      rcases calls_runClaimAuthorized (mayCall_serveClaimRoute hroute hcalled) with
        (h | ⟨jobId, h⟩) | h | ⟨jobId, h⟩
      · cases h
      · cases h
      · exact Request.runFunction.inj h
      · cases h
    subst hpayload
    refine ⟨prepared.vars, hguaranteed, fun record hrecord => ?_⟩
    rcases calls_runClaimAuthorized (mayCall_serveClaimRoute hroute hrecord) with
      (h | ⟨jobId, h⟩) | h | ⟨jobId, h⟩
    · cases h
    · cases h
    · cases h
    · exact ⟨jobId, Request.sendDeployment.inj h⟩

theorem notBypassed_of_refused {refusal : Refusal}
    (hroute : routePayload services t headers route body = .error refusal) :
    NotBypassed services t headers route body :=
  fun _ h => absurd h (not_mayCall_of_refused hroute)

/-! ## Prepared bodies -/

theorem authorize_eq_ok {project : String} {u : Unit} :
    authorize services headers project = .ok u ↔
      ensureAccess services.auth headers project = .ok () :=
  mapError_eq_ok_iff

/-- What is handed on for a prepared body is what the body holds. -/
theorem runPrepared_eq_ok {command : String} (prepared : ApiInfraPayloadWithVariables) :
    runPreparedDeploymentAction services headers body command = .ok prepared ↔
      ∃ payloadValue, body.get? "payload" = some payloadValue ∧
        body.get? "variables" = some prepared.vars ∧
        services.readPayload payloadValue = .ok prepared.payload ∧
        prepared.payload.command = command ∧
        ensureAccess services.auth headers prepared.payload.projectId = .ok () := by
  unfold runPreparedDeploymentAction
  cases hpayload : body.get? "payload" with
  | none => simp
  | some payloadValue =>
      cases hvars : body.get? "variables" with
      | none => simp
      | some vars =>
          dsimp only
          rw [bind_eq_ok_iff]
          constructor
          · rintro ⟨payload, hread, h⟩
            split at h
            · cases h
            · rename_i hcommand
              obtain ⟨_, hauthorized, h⟩ := bind_eq_ok_iff.1 h
              obtain rfl := Except.ok.inj h
              exact ⟨payloadValue, rfl, rfl, mapError_eq_ok_iff.1 hread, not_not.1 hcommand,
                authorize_eq_ok.1 hauthorized⟩
          · rintro ⟨payloadValue', hvalue, hvars', hread, hcommand, hauthorized⟩
            obtain rfl := Option.some.inj hvalue
            obtain rfl := Option.some.inj hvars'
            refine ⟨prepared.payload, mapError_eq_ok_iff.2 hread, ?_⟩
            rw [if_neg (not_not.2 hcommand)]
            exact bind_eq_ok_iff.2 ⟨(), authorize_eq_ok.2 hauthorized, rfl⟩

theorem notBypassed_iff_prepared (hprepared : isPrepared body = true) :
    NotBypassed services t headers route body ↔ PreparedCovered services t headers route body := by
  have hroute : routePayload services t headers route body =
      runPreparedDeploymentAction services headers body route.command := if_pos hprepared
  constructor
  · intro h payloadValue vars payload hvalue hvars hread hcommand hauthorized
    have hok := (runPrepared_eq_ok ⟨payload, vars⟩).2
      ⟨payloadValue, hvalue, hvars, hread, hcommand, hauthorized⟩
    exact (notBypassed_iff (hroute.trans hok)).1 h
  · intro h
    cases hrun : runPreparedDeploymentAction services headers body route.command with
    | error refusal => exact notBypassed_of_refused (hroute.trans hrun)
    | ok prepared =>
        refine (notBypassed_iff (hroute.trans hrun)).2 ?_
        obtain ⟨payloadValue, hvalue, hvars, hread, hcommand, hauthorized⟩ :=
          (runPrepared_eq_ok _).1 hrun
        exact h payloadValue _ _ hvalue hvars hread hcommand hauthorized

/-! ## Claims -/

/-- What an accepted claim has been checked for in the region of the handler, and what its payload
takes from it. -/
structure Prepares (claims : ClaimServices) (handler : WorkloadHandler) (s : RegionStore)
    (t : Deployments) (manifest : DeploymentManifest) (environment : String) (isStack : Bool)
    (version track : String) (record : ModuleResp) (prepared : ApiInfraPayloadWithVariables) :
    Prop where
  claimed : claimedVersion manifest.spec = .ok (isStack, version)
  tracked : getVersionTrack version = some track
  found : claims.registry.getModuleVersion s (claims.toLowercase manifest.kind) track version =
    .ok (some record)
  existing : record.deprecated = true → ∃ deployment, handler.getDeployment t
    (claims.toLowercase manifest.kind ++ "/" ++ manifest.metadata.name) environment false =
      .ok (some deployment)
  types : verifyVariableExistenceAndType (isReference claims.conv) record prepared.vars = .ok ()
  required : verifyRequiredVariablesAreSet record prepared.vars = .ok ()
  vars : prepared.vars = terraformVariables claims.conv isStack record
    (providedVariables claims.conv manifest.spec)
  validNamespace : isName ("/".intercalate ((Text.split '/' environment).drop 1)) = true
  module : prepared.payload.module = claims.toLowercase (claims.toLowercase manifest.kind)
  name : prepared.payload.name = manifest.metadata.name
  deploymentId : prepared.payload.deploymentId =
    claims.toLowercase manifest.kind ++ "/" ++ manifest.metadata.name
  moduleVersion : prepared.payload.moduleVersion = version
  moduleTrack : prepared.payload.moduleTrack = track
  projectId : prepared.payload.projectId = handler.projectId
  region : prepared.payload.region = manifest.spec.region
  environment : prepared.payload.environment = environment
  dependencies : ∀ d ∈ prepared.payload.dependencies, d.projectId = handler.projectId

theorem prepares_of_validate {claims : ClaimServices} {handler : WorkloadHandler} {s : RegionStore}
    {manifest : DeploymentManifest} {environment command : String} {flags : List String}
    {extraData : Json} {reference id : String} {prepared : ApiInfraPayloadWithVariables}
    (h : validateAndPrepareClaim claims handler s t manifest environment command flags extraData
      reference = .ok (id, prepared)) :
    ∃ isStack version track record,
      Prepares claims handler s t manifest environment isStack version track record prepared := by
  simp only [validateAndPrepareClaim, bind_eq_ok_iff] at h
  obtain ⟨_, -, details, hdetails, ⟨isStack, version⟩, hversion, track, htrack, record, hrecord,
    _, -, _, hdeprecation, _, htypes, _, hrequired, _, -, heq⟩ := h
  obtain ⟨hnamespace, rfl⟩ := getDeploymentDetails_eq_ok hdetails
  obtain ⟨-, rfl⟩ := Prod.mk.inj (Except.ok.inj heq)
  refine ⟨isStack, version, track, record,
    { claimed := hversion
      tracked := getVersionTrack_of_claimedTrack htrack
      found := getModuleVersion_of_claimedModule hrecord
      existing := existing_of_checkModuleDeprecation hdeprecation
      types := htypes
      required := hrequired
      vars := rfl
      validNamespace := hnamespace
      module := rfl
      name := rfl
      deploymentId := rfl
      moduleVersion := rfl
      moduleTrack := rfl
      projectId := rfl
      region := rfl
      environment := rfl
      dependencies := fun d hd => ?_ }⟩
  obtain ⟨spec, -, rfl⟩ := List.mem_map.1 hd
  rfl

/-- A claim that passed in one region is guaranteed in its own exactly when its version passes there
too. -/
theorem claimGuarantee_iff {handler : WorkloadHandler} {s : RegionStore}
    {manifest : DeploymentManifest} {environment version track : String} {isStack : Bool}
    {record : ModuleResp} {prepared : ApiInfraPayloadWithVariables}
    (hauthorized : ensureAccess services.auth headers handler.projectId = .ok ())
    (h : Prepares services.claims handler s t manifest environment isStack version track record
      prepared) :
    ClaimGuarantee services t headers prepared ↔
      VersionPasses services.claims (services.modules manifest.spec.region)
        ⟨handler.projectId, manifest.spec.region⟩ t (services.claims.toLowercase manifest.kind)
        version track (services.claims.toLowercase manifest.kind ++ "/" ++ manifest.metadata.name)
        environment prepared.vars := by
  constructor
  · intro hguarantee
    obtain ⟨module, -, hid, hpasses⟩ := hguarantee.version
    rw [h.deploymentId, h.name] at hid
    -- The module is what comes before the slash and the name.
    have hmodule : services.claims.toLowercase manifest.kind = module := by
      have hchars := congrArg String.toList hid
      simp only [String.toList_append, List.append_assoc] at hchars
      exact String.ext (List.append_cancel_right hchars)
    rw [h.projectId, h.region, h.moduleVersion, h.moduleTrack, h.deploymentId, h.environment,
      ← hmodule] at hpasses
    exact hpasses
  · intro hpasses
    refine ⟨?_, ?_, ⟨services.claims.toLowercase manifest.kind, h.module, ?_, ?_⟩, ?_⟩
    · rw [h.projectId]
      exact hauthorized
    · rw [h.environment]
      exact h.validNamespace
    · rw [h.deploymentId, h.name]
    · rw [h.projectId, h.region, h.moduleVersion, h.moduleTrack, h.deploymentId, h.environment]
      exact hpasses
    · rw [h.projectId]
      exact h.dependencies

theorem Prepares.passes {claims : ClaimServices} {handler : WorkloadHandler} {s : RegionStore}
    {manifest : DeploymentManifest} {environment version track : String} {isStack : Bool}
    {record : ModuleResp} {prepared : ApiInfraPayloadWithVariables}
    (h : Prepares claims handler s t manifest environment isStack version track record prepared) :
    VersionPasses claims s handler t (claims.toLowercase manifest.kind) version track
      (claims.toLowercase manifest.kind ++ "/" ++ manifest.metadata.name) environment
      prepared.vars :=
  ⟨h.tracked, record, h.found, h.existing, h.types, h.required⟩

theorem runClaimAction_eq_ok {command : String} {prepared : ApiInfraPayloadWithVariables}
    (h : runClaimAction services t headers body command = .ok prepared) :
    ∃ project environment region manifest,
      ReadsClaim services body project environment region manifest ∧
      ensureAccess services.auth headers project = .ok () ∧
      ∃ isStack version track record, Prepares services.claims ⟨project, region⟩
        (services.modules region) t manifest environment isStack version track record prepared := by
  simp only [runClaimAction, bind_eq_ok_iff] at h
  obtain ⟨project, hproject, environment, henvironment, claim, hclaim, region, hregion, flags, -,
    _, hauthorized, manifest, hmanifest, ⟨id, prepared'⟩, hprepared, heq⟩ := h
  obtain rfl := Except.ok.inj heq
  refine ⟨project, environment, region, manifest, ⟨hproject, henvironment, claim, hclaim, hregion,
    mapError_eq_ok_iff.1 hmanifest⟩, authorize_eq_ok.1 hauthorized, ?_⟩
  exact prepares_of_validate (mapError_eq_ok_iff.1 hprepared)

/-- A body is read in one way only. -/
theorem ReadsClaim.unique {project project' environment environment' region region' : String}
    {manifest manifest' : DeploymentManifest}
    (h : ReadsClaim services body project environment region manifest)
    (h' : ReadsClaim services body project' environment' region' manifest') :
    project = project' ∧ environment = environment' ∧ region = region' ∧ manifest = manifest' := by
  obtain ⟨claim, hclaim, hregion, hmanifest⟩ := h.claim
  obtain ⟨claim', hclaim', hregion', hmanifest'⟩ := h'.claim
  obtain rfl := Except.ok.inj (hclaim.symm.trans hclaim')
  exact ⟨Except.ok.inj (h.project.symm.trans h'.project),
    Except.ok.inj (h.environment.symm.trans h'.environment),
    Except.ok.inj (hregion.symm.trans hregion'), Except.ok.inj (hmanifest.symm.trans hmanifest')⟩

theorem notBypassed_iff_claim (hprepared : isPrepared body = false) (hroute : route ≠ .destroy) :
    NotBypassed services t headers route body ↔
      ClaimCovered services t headers body route.command := by
  have hpayload : routePayload services t headers route body =
      runClaimAction services t headers body route.command := by
    unfold routePayload
    rw [hprepared]
    cases route with
    | destroy => exact absurd rfl hroute
    | apply => rfl
    | plan => rfl
  have hguaranteed : ∀ prepared, Guaranteed services t headers route prepared ↔
      ClaimGuarantee services t headers prepared := by
    intro prepared
    cases route with
    | destroy => exact absurd rfl hroute
    | apply => exact Iff.rfl
    | plan => exact Iff.rfl
  constructor
  · intro h project environment region manifest hreads hok hregion isStack version track record
      hclaimed htracked hfound
    obtain ⟨prepared, hrun⟩ := hok
    obtain ⟨project', environment', region', manifest', hreads', hauthorized, isStack', version',
      track', record', hprepares⟩ := runClaimAction_eq_ok hrun
    obtain ⟨rfl, rfl, rfl, rfl⟩ := hreads.unique hreads'
    obtain ⟨rfl, rfl⟩ := Prod.mk.inj (Except.ok.inj (hclaimed.symm.trans hprepares.claimed))
    obtain rfl := Option.some.inj (htracked.symm.trans hprepares.tracked)
    obtain rfl := Option.some.inj (Except.ok.inj (hfound.symm.trans hprepares.found))
    rw [← hprepares.vars]
    refine (claimGuarantee_iff hauthorized hprepares).1 ?_
    exact (hguaranteed prepared).1 ((notBypassed_iff (hpayload.trans hrun)).1 h)
  · intro h
    cases hrun : runClaimAction services t headers body route.command with
    | error refusal => exact notBypassed_of_refused (hpayload.trans hrun)
    | ok prepared =>
        refine (notBypassed_iff (hpayload.trans hrun)).2 ((hguaranteed prepared).2 ?_)
        obtain ⟨project, environment, region, manifest, hreads, hauthorized, isStack, version,
          track, record, hprepares⟩ := runClaimAction_eq_ok hrun
        refine (claimGuarantee_iff hauthorized hprepares).2 ?_
        by_cases hregion : region = manifest.spec.region
        · rw [← hregion]
          exact hprepares.passes
        · rw [hprepares.vars]
          exact h project environment region manifest hreads ⟨prepared, hrun⟩ hregion isStack version
            track record hprepares.claimed hprepares.tracked hprepares.found

/-! ## Deployments that are destroyed -/

/-- A liveness check changes the status and the error text only. -/
theorem parseDeployment_eq_ok {getJobStatus : JobStatuses} {row : Key × DeploymentRow}
    {deployment : DeploymentResp}
    (h : parseDeployment (ecsLivenessCheck getJobStatus row) = .ok deployment) :
    ∃ item status errorText, row.2 = .deployment item ∧
      deployment = { item.record with status, errorText } := by
  obtain ⟨key, row⟩ := row
  cases row with
  | dependent item => cases h
  | deployment item =>
      unfold ecsLivenessCheck at h
      dsimp only at h
      repeat' split at h
      all_goals
        obtain rfl := Except.ok.inj h
        exact ⟨item, _, _, rfl, rfl⟩

/-- The deployment that is loaded is stored under its own names. -/
theorem stored_of_loadDeployment (hwf : t.WellFormed) {getJobStatus : JobStatuses}
    {project region environment deploymentId : String} {deployment : DeploymentResp}
    (h : loadDeployment getJobStatus t project region environment deploymentId = .ok deployment) :
    ∃ record status errorText, t.stored deployment.identifier = some record ∧
      deployment = { record with status, errorText } := by
  obtain ⟨described, hdescribed, hparsed⟩ := bind_eq_ok_iff.1 h
  unfold describeDeploymentAws at hdescribed
  split at hdescribed
  · rename_i row rows hread
    obtain rfl := Except.ok.inj hdescribed
    obtain ⟨item, status, errorText, hrow, rfl⟩ := parseDeployment_eq_ok hparsed
    obtain ⟨key, stored⟩ := row
    obtain rfl : stored = .deployment item := hrow
    have hrows : t.read (getDeploymentAndDependentsQuery project region deploymentId environment
        true) = .ok ((getDeploymentAndDependentsQuery project region deploymentId environment
          true).select deploymentKeys DeploymentRow.attr t.rows) :=
      Query.evaluate_of_accepted rfl rfl _ _
    have hmem : (key, DeploymentRow.deployment item) ∈ (getDeploymentAndDependentsQuery project
        region deploymentId environment true).select deploymentKeys DeploymentRow.attr t.rows := by
      rw [Except.ok.inj (hrows.symm.trans hread)]
      exact List.mem_cons_self
    obtain ⟨hitem, hpk⟩ := (mem_select_iff project region environment deploymentId).1 hmem
    obtain ⟨isPlan, hpayload⟩ := hwf key _ hitem
    have hkey : key = (getPayload item.record isPlan).1 := congrArg Prod.fst hpayload
    cases isPlan with
    | true => exact absurd hkey.symm (planKey_ne hpk)
    | false =>
        rw [getPayload_key] at hkey
        refine ⟨item.record, status, errorText, Deployments.stored_eq_some.2 ⟨item, ?_, rfl⟩, rfl⟩
        exact hkey ▸ hitem
  · cases hdescribed

theorem destroyGuarantee_iff (hwf : t.WellFormed) {getJobStatus : JobStatuses}
    {project region environment deploymentId command : String} {deployment : DeploymentResp}
    (h : loadDeployment getJobStatus t project region environment deploymentId = .ok deployment) :
    DestroyGuarantee services t (existingPayload services command deployment) ↔
      deployment.deleted = false := by
  obtain ⟨record, status, errorText, hstored, rfl⟩ := stored_of_loadDeployment hwf h
  have hread := Deployments.getDeployment_eq ⟨record.projectId, record.region⟩ record.deploymentId
    record.environment hwf false
  change t.stored record.identifier = some record at hstored
  change _ = Except.ok ((t.stored record.identifier).filter _) at hread
  rw [hstored, Option.filter_some] at hread
  constructor
  · rintro ⟨found, hfound, -⟩
    by_contra hdeleted
    have hnone : (false || !record.deleted) = false := by
      simpa using hdeleted
    rw [hnone, if_neg Bool.false_ne_true] at hread
    cases hread.symm.trans hfound
  · intro hdeleted
    have hkept : (false || !record.deleted) = true := by
      simpa using hdeleted
    rw [hkept, if_pos rfl] at hread
    exact ⟨record, hread, rfl, rfl, rfl, rfl, rfl, rfl⟩

theorem deploymentAction_eq_ok (command : String) {prepared : ApiInfraPayloadWithVariables} :
    deploymentActionFromExisting services t headers body command = .ok prepared ↔
      ∃ project region environment deploymentId deployment,
        deploymentSelectorFromBody body = .ok (project, region, environment, deploymentId) ∧
        ensureAccess services.auth headers project = .ok () ∧
        loadDeployment services.getJobStatus t project region environment deploymentId =
          .ok deployment ∧ prepared = existingPayload services command deployment := by
  simp only [deploymentActionFromExisting, bind_eq_ok_iff]
  constructor
  · rintro ⟨⟨project, region, environment, deploymentId⟩, hselector, _, hauthorized, deployment,
      hload, heq⟩
    exact ⟨project, region, environment, deploymentId, deployment, hselector,
      authorize_eq_ok.1 hauthorized, mapError_eq_ok_iff.1 hload, (Except.ok.inj heq).symm⟩
  · rintro ⟨project, region, environment, deploymentId, deployment, hselector, hauthorized, hload,
      rfl⟩
    exact ⟨(project, region, environment, deploymentId), hselector, (),
      authorize_eq_ok.2 hauthorized, deployment, mapError_eq_ok_iff.2 hload, rfl⟩

theorem notBypassed_iff_destroy (hwf : t.WellFormed) (hprepared : isPrepared body = false) :
    NotBypassed services t headers .destroy body ↔ DestroyCovered services t headers body := by
  have hroute : routePayload services t headers .destroy body =
      deploymentActionFromExisting services t headers body "destroy" := by
    unfold routePayload
    rw [hprepared]
    rfl
  constructor
  · intro h project region environment deploymentId deployment hselector hauthorized hload
    have hok := (deploymentAction_eq_ok "destroy").2
      ⟨project, region, environment, deploymentId, deployment, hselector, hauthorized, hload, rfl⟩
    exact (destroyGuarantee_iff hwf hload).1 ((notBypassed_iff (hroute.trans hok)).1 h)
  · intro h
    cases hrun : deploymentActionFromExisting services t headers body "destroy" with
    | error refusal => exact notBypassed_of_refused (hroute.trans hrun)
    | ok prepared =>
        refine (notBypassed_iff (hroute.trans hrun)).2 ?_
        obtain ⟨project, region, environment, deploymentId, deployment, hselector, hauthorized,
          hload, rfl⟩ := (deploymentAction_eq_ok _).1 hrun
        refine (destroyGuarantee_iff hwf hload).2 ?_
        exact h project region environment deploymentId deployment hselector hauthorized hload

end

/-- In every reachable table, the jobs of a route have been checked like those of the direct mode
exactly for the bodies that are covered. -/
theorem notBypassed_iff_covered (services : RouteServices) (calls : List SetDeployment)
    (headers : Headers) (route : ClaimRoute) (body : Json) :
    NotBypassed services (Deployments.run calls) headers route body ↔
      Covered services (Deployments.run calls) headers route body := by
  unfold Covered
  cases hprepared : isPrepared body with
  | true => exact notBypassed_iff_prepared hprepared
  | false =>
      cases route with
      | destroy => exact notBypassed_iff_destroy (Deployments.wellFormed_run calls) hprepared
      | apply => exact notBypassed_iff_claim hprepared (by decide)
      | plan => exact notBypassed_iff_claim hprepared (by decide)

/-! ## A payload for a module that does not exist -/

def unpublishedPayload : ApiInfraPayload where
  command := "apply"
  flags := []
  module := "web"
  moduleVersion := "1.0.0"
  moduleType := "module"
  moduleTrack := "stable"
  name := "a"
  environment := "cli/default"
  deploymentId := "web/a"
  projectId := "111111111111"
  region := "eu-central-1"
  driftDetection := .default
  nextDriftCheckEpoch := -1
  annotations := .object []
  dependencies := []
  initiatedBy := "alice"
  cpu := "1024"
  memory := "2048"
  reference := "api"
  extraData := .null

/-- The payload as the client writes it. -/
def unpublishedJson : Json :=
  .object
    [("annotations", .object []), ("command", .string "apply"), ("cpu", .string "1024"),
     ("dependencies", .array []), ("deployment_id", .string "web/a"),
     ("drift_detection", .object []), ("environment", .string "cli/default"),
     ("extra_data", .null), ("flags", .array []), ("initiated_by", .string "alice"),
     ("memory", .string "2048"), ("module", .string "web"), ("module_track", .string "stable"),
     ("module_type", .string "module"), ("module_version", .string "1.0.0"), ("name", .string "a"),
     ("next_drift_check_epoch", .number (.int (-1))), ("project_id", .string "111111111111"),
     ("reference", .string "api"), ("region", .string "eu-central-1")]

def unpublishedBody : Json :=
  .object [("payload", unpublishedJson), ("variables", .object [])]

/-- Services for callers with one project, in front of regions without modules. -/
def emptyRouteServices : RouteServices where
  claims := localClaimServices
  auth :=
    { codec :=
        { urlSafeJson := fun text =>
            if text = "e30" then
              some (.object [("custom:allowed_projects", .string "111111111111")])
            else none
          standardJson := fun _ => none }
      allowedProjectsClaimKey := "custom:allowed_projects" }
  getJobStatus := noStatuses
  readPayload := fun value =>
    if value = unpublishedJson then .ok unpublishedPayload else .error "missing field command"
  parseYaml := fun text => .ok (.string text)
  toYaml := fun _ => .ok .null
  readManifest := fun _ => .error "missing field metadata"
  modules := fun _ => .empty

def callerHeaders : Headers where
  xAuthUser := some "alice"
  xInfraweaveVerifiedClaims := some "e30"
  authorization := none

/-- The job starts, and there is no such module. -/
theorem not_notBypassed_unpublished :
    routePayload emptyRouteServices (Deployments.run []) callerHeaders .apply unpublishedBody =
        .ok ⟨unpublishedPayload, .object []⟩ ∧
      ¬ NotBypassed emptyRouteServices (Deployments.run []) callerHeaders .apply unpublishedBody := by
  have hroute : routePayload emptyRouteServices (Deployments.run []) callerHeaders .apply
      unpublishedBody = .ok ⟨unpublishedPayload, .object []⟩ := by
    decide +kernel
  refine ⟨hroute, fun h => ?_⟩
  obtain ⟨vars, hguaranteed, -⟩ := h unpublishedPayload (mayCall_runFunction hroute)
  obtain ⟨module, -, -, hpasses⟩ := ClaimGuarantee.version hguaranteed
  obtain ⟨record, hfound, -⟩ := hpasses.found
  have hnone : emptyRouteServices.claims.registry.getModuleVersion .empty module "stable" "1.0.0" =
      .ok none := rfl
  cases hnone.symm.trans hfound

end InternalApi
end InfraWeave
