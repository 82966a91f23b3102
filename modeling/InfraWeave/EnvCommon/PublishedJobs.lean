import InfraWeave.EnvCommon.DeploymentIdentity
import InfraWeave.EnvCommon.DeploymentStatusHandler
import InfraWeave.EnvCommon.DestroyInfra
import InfraWeave.EnvCommon.DriftCheck
import InfraWeave.EnvCommon.Immutability

/-!
# The versions that jobs name

Jobs are requested by claims, from the records of deployments, and by clients that hand over a
payload that they have prepared themselves.  A runner looks the module of its job up by the name,
the track and the version of the payload.
-/

namespace InfraWeave
namespace EnvCommon

/-- The clients in one region. -/
structure Clients where
  services : ClaimServices
  region : String
  /-- The claim that the text of `generate_deployment_claim` is read as. -/
  regenerate : DeploymentResp → ModuleResp → Except String DeploymentManifest
  parseDuration : String → Option Nat

/-! ## Applying again -/

section

variable (clients : Clients)

/-- The module or stack of a record, as the internal API looks it up. -/
def recordedModule (s : RegionStore) (deployment : DeploymentResp) : Except String ModuleResp :=
  if deployment.moduleType = "stack" ∨ deployment.moduleType = "module" then
    match clients.services.registry.getModuleVersion s deployment.module deployment.moduleTrack
      deployment.moduleVersion with
    | .ok (some record) => .ok record
    | _ => .error "Module not found"
  else .error ("Unsupported module type: " ++ deployment.moduleType)

/-- What `reapply_deployment_authorized` submits. -/
def reapplyRequest (handler : WorkloadHandler) (s : RegionStore) (t : Deployments)
    (deploymentId environment : String) : Except String ApiInfraPayloadWithVariables :=
  match handler.getDeployment t deploymentId environment true with
  | .ok (some deployment) => do
      let module ← recordedModule clients s deployment
      let claim ← clients.regenerate deployment module
      let (_, prepared) ← validateAndPrepareClaim clients.services
        ⟨deployment.projectId, deployment.region⟩ s t claim deployment.environment "apply" [] .null
        (if deployment.reference = "" then "api-reapply" else deployment.reference)
      .ok prepared
  | _ => .error "Deployment not found"

end

/-! ## Runs -/

/-- What happens in a region: an operation on the registry, a request for a job, or a record that
is stored for a job. -/
inductive JobAct where
  | registry (o : Operation)
  | claim (projectId : String) (claim : DeploymentManifest) (environment command : String)
      (flags : List String) (extraData : Json) (referenceFallback : String)
  | destroy (projectId deploymentId environment : String) (extraData : Json)
      (overrideVersion : Option String)
  | driftcheck (projectId deploymentId environment : String) (remediate : Bool) (extraData : Json)
  | reapply (projectId deploymentId environment : String)
  /-- A client of the internal API hands over a payload. -/
  | prepared (prepared : ApiInfraPayloadWithVariables)
  | save (h : DeploymentStatusHandler) (projectId : String) (epoch : Nat) (isPlan : Bool)
      (carriedOut : Nat)

structure Submissions where
  registry : RegistryState
  table : Deployments
  submitted : List ApiInfraPayload

def Submissions.empty : Submissions :=
  ⟨.empty, .empty, []⟩

/-- The name, the track and the version by which a runner looks its module up. -/
def versionName (p : ApiInfraPayload) : String × String × String :=
  (p.module, p.moduleTrack, p.moduleVersion)

def DeploymentStatusHandler.versionName (h : DeploymentStatusHandler) : String × String × String :=
  (h.module, h.moduleTrack, h.moduleVersion)

variable (clients : Clients)

def Submissions.store (s : Submissions) : RegionStore :=
  s.registry.registry clients.region

/-- The payload that is handed to `submit_claim_job`. -/
def JobAct.request (s : Submissions) : JobAct → Option ApiInfraPayload
  | registry _ => none
  | claim projectId manifest environment command flags extraData referenceFallback =>
      (validateAndPrepareClaim clients.services ⟨projectId, clients.region⟩ (s.store clients) s.table
        manifest environment command flags extraData referenceFallback).toOption.map fun accepted =>
          accepted.2.payload
  | destroy projectId deploymentId environment extraData overrideVersion =>
      (destroyRequest clients.services ⟨projectId, clients.region⟩ (s.store clients) s.table
        deploymentId environment extraData overrideVersion).toOption.map
          ApiInfraPayloadWithVariables.payload
  | driftcheck projectId deploymentId environment remediate extraData =>
      (driftcheckRequest clients.services ⟨projectId, clients.region⟩ s.table deploymentId
        environment remediate extraData).toOption.map ApiInfraPayloadWithVariables.payload
  | reapply projectId deploymentId environment =>
      (reapplyRequest clients ⟨projectId, clients.region⟩ (s.store clients) s.table deploymentId
        environment).toOption.map ApiInfraPayloadWithVariables.payload
  | prepared handed => some handed.payload
  | save _ _ _ _ _ => none

/-- A record is stored by a handler that was made for a job; it keeps the version of the job. -/
def Submissions.step (s : Submissions) (act : JobAct) : Submissions :=
  match act with
  | .registry o => { s with registry := s.registry.step clients.services.registry o }
  | .save h projectId epoch isPlan carriedOut =>
      if h.versionName ∈ s.submitted.map versionName then
        { s with table := s.table.step ⟨⟨projectId, clients.region⟩,
            h.deployment clients.parseDuration epoch, isPlan, carriedOut⟩ }
      else s
  | act => { s with submitted := s.submitted ++ (act.request clients s).toList }

/-- There is a record of the version. -/
def IsPublished (services : Services) (s : RegionStore) (name : String × String × String) : Prop :=
  ∃ record, services.getModuleVersion s name.1 name.2.1 name.2.2 = .ok (some record)

/-- Each payload names a version that there was when it was made, and each job finds its version
later on. -/
def NamesPublished (acts : List JobAct) : Prop :=
  let state := run (Submissions.step clients) .empty
  let published := fun (s : Submissions) (p : ApiInfraPayload) =>
    IsPublished clients.services.registry (s.store clients) (versionName p)
  (∀ before act after p, acts = before ++ act :: after →
    act.request clients (state before) = some p → published (state before) p) ∧
  ∀ p ∈ (state acts).submitted, published (state acts) p

/-- A version that a destroy is to use instead is on the track of the record, and a client hands
over a payload of a version that there is, in lower case. -/
def JobAct.Orderly (s : Submissions) : JobAct → Prop
  | destroy projectId deploymentId environment _ (some version) =>
      ∀ deployment, s.table.stored
          (getDeploymentIdentifier projectId clients.region deploymentId environment) =
            some deployment →
        verifyModuleVersion clients.services (s.store clients) deployment.module version = .ok () →
        getVersionTrack version = some deployment.moduleTrack
  | prepared handed =>
      IsPublished clients.services.registry (s.store clients) (versionName handed.payload) ∧
        clients.services.toLowercase handed.payload.module = handed.payload.module
  | _ => True

/-! ## Records of versions stay -/

theorem isPublished_iff {services : Services} {s : RegionStore} {module track version : String} :
    IsPublished services s (module, track, version) ↔ ∃ key record,
      getModuleVersionQuery module track version = some key ∧
        s.item .modules key = some (.module record) := by
  unfold IsPublished Services.getModuleVersion
  constructor
  · rintro ⟨record, h⟩
    split at h
    · rename_i key hkey
      exact ⟨key, record, hkey, getModule_eq_ok h⟩
    · cases h
  · rintro ⟨key, record, hkey, hrow⟩
    refine ⟨record, ?_⟩
    dsimp only
    rw [hkey]
    dsimp only
    rw [Services.getModule, hrow]

theorem isModuleVersion_of_query {module track version : String} {key : Key}
    (h : getModuleVersionQuery module track version = some key) : key.IsModuleVersion := by
  obtain ⟨v, -, rfl⟩ := Option.map_eq_some_iff.1 h
  exact ⟨module, track, rfl⟩

/-- The deprecations that have been read are of modules or stacks. -/
def DeprecatesModules (s : RegistryState) : Prop :=
  ∀ entry ∈ s.pending, ∃ key record, entry.2 = ⟨.modules, key, .module record⟩

theorem deprecatesModules_step {services : Services} {s : RegistryState}
    (h : DeprecatesModules s) (o : Operation) : DeprecatesModules (s.step services o) := by
  cases o with
  | publish handler op => exact h
  | readDeprecation handler kind name track version message =>
      simp only [RegistryState.step]
      split
      · rename_i put hput
        obtain ⟨key, existing, -, -, -, rfl⟩ := prepare_ok hput
        intro entry hentry
        rcases List.mem_append.1 hentry with hentry | hentry
        · exact h entry hentry
        · rw [List.mem_singleton.1 hentry]
          exact ⟨key, _, rfl⟩
      · exact h
  | putDeprecation index =>
      simp only [RegistryState.step]
      split
      · rename_i region rest put hentry
        intro entry hmem
        rcases List.mem_or_eq_of_mem_set hmem with hmem | rfl
        · exact h entry hmem
        · exact h (region :: rest, put) (List.mem_of_getElem? hentry)
      · exact h

/-- The record of a version may change, but is not removed. -/
theorem moduleVersion_step {services : Services} {s : RegistryState} (h : DeprecatesModules s)
    (o : Operation) {region : String} {key : Key} (hkey : key.IsModuleVersion)
    (hrow : ∃ record, (s.registry region).item .modules key = some (.module record)) :
    ∃ record, ((s.step services o).registry region).item .modules key = some (.module record) := by
  cases o with
  | publish handler op =>
      rcases publish_cases services ⟨s.registry, []⟩ handler op with
        ⟨-, hitems⟩ | ⟨release, v, -, -, -, -, hitems⟩
      · obtain ⟨record, hrecord⟩ := hrow
        exact ⟨record, (hitems region .modules key).trans hrecord⟩
      · have hitem : ((Catalogue.publish services ⟨s.registry, []⟩ (handler, op)).registry
            region).item .modules key = if region ∈ handler.allRegions ∧
              key = release.versionKey v then some release.item
            else (s.registry region).item .modules key := hitems.version hkey
        change ∃ record, ((Catalogue.publish services ⟨s.registry, []⟩ (handler, op)).registry
          region).item .modules key = some (.module record)
        rw [hitem]
        split
        · rename_i hput
          cases release with
          | module route record => exact ⟨record, rfl⟩
          | provider record =>
              exact absurd (hput.2 ▸ hkey) (not_isModuleVersion_provider record v)
        · exact hrow
  | readDeprecation handler kind name track version message =>
      simp only [RegistryState.step]
      split <;> exact hrow
  | putDeprecation index =>
      simp only [RegistryState.step]
      split
      · rename_i target rest put hentry
        obtain ⟨key', record', rfl⟩ : ∃ key record, put = ⟨.modules, key, .module record⟩ :=
          h _ (List.mem_of_getElem? hentry)
        change ∃ record, ((s.registry.apply (target, .transact [⟨.modules, key', .module record'⟩]))
          region).item .modules key = some (.module record)
        by_cases hregion : region = target
        · subst hregion
          rw [Registry.apply_self, RegionStore.apply, List.foldl_cons, List.foldl_nil,
            RegionStore.item_put]
          split
          · exact ⟨record', rfl⟩
          · exact hrow
        · rw [Registry.apply_of_ne s.registry hregion]
          exact hrow
      · exact hrow

theorem isPublished_step {services : Services} {s : RegistryState} (h : DeprecatesModules s)
    (o : Operation) {region : String} {name : String × String × String}
    (hname : IsPublished services (s.registry region) name) :
    IsPublished services ((s.step services o).registry region) name := by
  obtain ⟨key, record, hkey, hrow⟩ := isPublished_iff.1 hname
  obtain ⟨record', hrow'⟩ :=
    moduleVersion_step h o (isModuleVersion_of_query hkey) ⟨record, hrow⟩
  exact isPublished_iff.2 ⟨key, record', hkey, hrow'⟩

/-! ## What is requested -/

/-- A published version, whose name is in lower case. -/
def Named (services : ClaimServices) (s : RegionStore) (name : String × String × String) : Prop :=
  IsPublished services.registry s name ∧ services.toLowercase name.1 = name.1

def recordVersion (deployment : DeploymentResp) : String × String × String :=
  (deployment.module, deployment.moduleTrack, deployment.moduleVersion)

section

variable {services : ClaimServices} {s : RegionStore}

/-- The payload of an accepted claim names the version that was looked up. -/
theorem named_claim (hlower : ∀ t, services.toLowercase (services.toLowercase t) =
      services.toLowercase t) {handler : WorkloadHandler} {t : Deployments}
    {claim : DeploymentManifest} {environment command : String} {flags : List String}
    {extraData : Json} {referenceFallback : String} {prepared : String × ApiInfraPayloadWithVariables}
    (h : validateAndPrepareClaim services handler s t claim environment command flags extraData
      referenceFallback = .ok prepared) : Named services s (versionName prepared.2.payload) := by
  simp only [validateAndPrepareClaim, bind_eq_ok_iff] at h
  obtain ⟨_, -, details, hdetails, ⟨isStack, moduleVersion⟩, -, track, -, record, hrecord, _, -, _, -,
    _, -, _, -, _, -, heq⟩ := h
  obtain ⟨-, rfl⟩ := getDeploymentDetails_eq_ok hdetails
  obtain rfl := Except.ok.inj heq
  have hfound := getModuleVersion_of_claimedModule hrecord
  have hname : services.toLowercase (services.toLowercase claim.kind) =
      services.toLowercase claim.kind := hlower claim.kind
  refine ⟨⟨record, ?_⟩, hlower _⟩
  change services.registry.getModuleVersion s (services.toLowercase
    (services.toLowercase claim.kind)) track moduleVersion = .ok (some record)
  rw [hname]
  exact hfound

theorem isPublished_of_verify {module version : String}
    (h : verifyModuleVersion services s module version = .ok ()) : ∃ track,
      getVersionTrack version = some track ∧
        IsPublished services.registry s (module, track, version) := by
  obtain ⟨track, htrack, h⟩ := bind_eq_ok_iff.1 h
  refine ⟨track, getVersionTrack_of_claimedTrack htrack, ?_⟩
  split at h
  · rename_i record hfound
    exact ⟨record, hfound⟩
  · cases h
  · cases h

/-- A destroy is made from the record of a deployment that is not deleted. -/
theorem destroyRequest_eq_ok {handler : WorkloadHandler} {t : Deployments}
    {deploymentId environment : String} {extraData : Json} {overrideVersion : Option String}
    {prepared : ApiInfraPayloadWithVariables} (hwf : t.WellFormed)
    (h : destroyRequest services handler s t deploymentId environment extraData overrideVersion =
      .ok prepared) : ∃ deployment,
    t.stored (getDeploymentIdentifier handler.projectId handler.region deploymentId environment) =
        some deployment ∧
      (overrideVersion = none ∧ versionName prepared.payload =
          (services.toLowercase deployment.module, deployment.moduleTrack, deployment.moduleVersion) ∨
        ∃ version, overrideVersion = some version ∧
          verifyModuleVersion services s deployment.module version = .ok () ∧
          versionName prepared.payload =
            (services.toLowercase deployment.module, deployment.moduleTrack, version)) := by
  unfold destroyRequest at h
  rw [Deployments.getDeployment_eq handler deploymentId environment hwf false] at h
  split at h
  · cases h
  · cases h
  · rename_i deployment hfound
    have hstored := (Option.filter_eq_some_iff.1 (Except.ok.inj hfound)).1
    refine ⟨deployment, hstored, ?_⟩
    cases overrideVersion with
    | none =>
        obtain rfl := Except.ok.inj h
        exact Or.inl ⟨rfl, rfl⟩
    | some version =>
        obtain ⟨_, hverify, h⟩ := bind_eq_ok_iff.1 h
        obtain rfl := Except.ok.inj h
        exact Or.inr ⟨version, rfl, hverify, rfl⟩

theorem reapplyRequest_eq_ok {clients : Clients} {handler : WorkloadHandler} {t : Deployments}
    {deploymentId environment : String} {prepared : ApiInfraPayloadWithVariables}
    (h : reapplyRequest clients handler s t deploymentId environment = .ok prepared) :
    ∃ handler' claim environment' reference accepted,
      validateAndPrepareClaim clients.services handler' s t claim environment' "apply" [] .null
        reference = .ok accepted ∧ accepted.2 = prepared := by
  unfold reapplyRequest at h
  split at h
  · obtain ⟨module, -, h⟩ := bind_eq_ok_iff.1 h
    obtain ⟨claim, -, h⟩ := bind_eq_ok_iff.1 h
    obtain ⟨⟨id, accepted⟩, haccepted, h⟩ := bind_eq_ok_iff.1 h
    obtain rfl := Except.ok.inj h
    exact ⟨_, claim, _, _, _, haccepted, rfl⟩
  · cases h

end

/-! ## Runs -/

structure JobsInvariant (s : Submissions) : Prop where
  wellFormed : s.table.WellFormed
  deprecates : DeprecatesModules s.registry
  submitted : ∀ p ∈ s.submitted, Named clients.services (s.store clients) (versionName p)
  stored : ∀ key row, s.table.item key = some row → ∀ item, row = .deployment item →
    Named clients.services (s.store clients) (recordVersion item.record)

variable {clients}

theorem JobsInvariant.named_stored {s : Submissions} (hinv : JobsInvariant clients s)
    {identifier : String} {deployment : DeploymentResp}
    (h : s.table.stored identifier = some deployment) :
    Named clients.services (s.store clients) (recordVersion deployment) := by
  obtain ⟨item, hitem, rfl⟩ := Deployments.stored_eq_some.1 h
  exact hinv.stored _ _ hitem item rfl

theorem toOption_map_eq_some {ε α β : Type} {x : Except ε α} {f : α → β} {b : β}
    (h : x.toOption.map f = some b) : ∃ a, x = .ok a ∧ f a = b := by
  cases x with
  | error e => cases h
  | ok a => exact ⟨a, rfl, Option.some.inj h⟩

/-- Each request is for a version that is published when it is made. -/
theorem named_request (hlower : ∀ t, clients.services.toLowercase (clients.services.toLowercase t) =
      clients.services.toLowercase t) {s : Submissions} (hinv : JobsInvariant clients s)
    {act : JobAct} (hok : act.Orderly clients s) {p : ApiInfraPayload}
    (h : act.request clients s = some p) :
    Named clients.services (s.store clients) (versionName p) := by
  cases act with
  | registry o => cases h
  | save handler projectId epoch isPlan carriedOut => cases h
  | claim projectId manifest environment command flags extraData referenceFallback =>
      obtain ⟨accepted, haccepted, rfl⟩ := toOption_map_eq_some h
      exact named_claim hlower haccepted
  | destroy projectId deploymentId environment extraData overrideVersion =>
      obtain ⟨prepared, hprepared, rfl⟩ := toOption_map_eq_some h
      obtain ⟨deployment, hstored, hcases⟩ := destroyRequest_eq_ok hinv.wellFormed hprepared
      have hnamed := hinv.named_stored hstored
      have hmodule : clients.services.toLowercase deployment.module = deployment.module := hnamed.2
      rcases hcases with ⟨-, hname⟩ | ⟨version, rfl, hverify, hname⟩
      · rw [hname, hmodule]
        exact hnamed
      · -- The version was verified on its own track, which is that of the record.
        obtain ⟨track, htrack, hpublished⟩ := isPublished_of_verify hverify
        obtain rfl : track = deployment.moduleTrack :=
          Option.some.inj (htrack.symm.trans (hok deployment hstored hverify))
        rw [hname, hmodule]
        exact ⟨hpublished, hmodule⟩
  | driftcheck projectId deploymentId environment remediate extraData =>
      obtain ⟨prepared, hprepared, rfl⟩ := toOption_map_eq_some h
      obtain ⟨deployment, hstored, -, rfl⟩ := driftcheckRequest_eq_ok hinv.wellFormed hprepared
      have hnamed := hinv.named_stored hstored
      have hmodule : clients.services.toLowercase deployment.module = deployment.module := hnamed.2
      change Named clients.services (s.store clients) (clients.services.toLowercase deployment.module,
        deployment.moduleTrack, deployment.moduleVersion)
      rw [hmodule]
      exact hnamed
  | reapply projectId deploymentId environment =>
      obtain ⟨prepared, hprepared, rfl⟩ := toOption_map_eq_some h
      obtain ⟨_, _, _, _, accepted, haccepted, rfl⟩ := reapplyRequest_eq_ok hprepared
      exact named_claim hlower haccepted
  | prepared handed =>
      have hp : handed.payload = p := by simpa only [JobAct.request, Option.some_inj] using h
      simp only [JobAct.Orderly] at hok
      rw [← hp]
      exact ⟨hok.1, hok.2⟩

theorem jobsInvariant_step (hlower : ∀ t, clients.services.toLowercase
      (clients.services.toLowercase t) = clients.services.toLowercase t) (s : Submissions)
    (act : JobAct) (hinv : JobsInvariant clients s) (hok : act.Orderly clients s) :
    JobsInvariant clients (s.step clients act) := by
  -- A request adds its payload to those that were handed over.
  have hrequest : JobsInvariant clients
      { s with submitted := s.submitted ++ (act.request clients s).toList } := by
    refine ⟨hinv.wellFormed, hinv.deprecates, fun p hp => ?_, hinv.stored⟩
    rcases List.mem_append.1 hp with hp | hp
    · exact hinv.submitted p hp
    · exact named_request hlower hinv hok (Option.mem_toList.1 hp)
  cases act with
  | registry o =>
      have hnamed : ∀ name, Named clients.services (s.store clients) name →
          Named clients.services ((s.step clients (.registry o)).store clients) name :=
        fun name h => ⟨isPublished_step hinv.deprecates o h.1, h.2⟩
      exact
        { wellFormed := hinv.wellFormed
          deprecates := deprecatesModules_step hinv.deprecates o
          submitted := fun p hp => hnamed _ (hinv.submitted p hp)
          stored := fun key row hrow item hitem => hnamed _ (hinv.stored key row hrow item hitem) }
  | save handler projectId epoch isPlan carriedOut =>
      simp only [Submissions.step]
      split
      · rename_i hjob
        obtain ⟨p, hp, hversion⟩ := List.mem_map.1 hjob
        refine ⟨hinv.wellFormed.step _, hinv.deprecates, hinv.submitted, ?_⟩
        refine Deployments.forall_item_step hinv.wellFormed hinv.stored (fun isPlan item heq => ?_)
          fun dependency item item' heq => by cases heq
        obtain rfl := DeploymentRow.deployment.inj heq
        change Named clients.services (s.store clients) handler.versionName
        rw [← hversion]
        exact hinv.submitted p hp
      · exact hinv
  | claim | destroy | driftcheck | reapply | prepared => exact hrequest

theorem jobsInvariant_empty : JobsInvariant clients .empty where
  wellFormed := Deployments.wellFormed_empty
  deprecates _ h := by cases h
  submitted _ h := by cases h
  stored _ _ h := by cases h

/-- In a run whose overriding versions are on the tracks of the records, each job names a version
that is published when it is requested and that its runner finds. -/
theorem jobs_namePublished (clients : Clients) (acts : List JobAct)
    (hlower : ∀ t, clients.services.toLowercase (clients.services.toLowercase t) =
      clients.services.toLowercase t)
    (hok : Meets (Submissions.step clients) (fun s act => act.Orderly clients s) .empty acts) :
    NamesPublished clients acts := by
  have hrun : ∀ acts, Meets (Submissions.step clients) (fun s act => act.Orderly clients s) .empty
      acts → JobsInvariant clients (run (Submissions.step clients) .empty acts) := fun acts hok =>
    run_invariant (JobsInvariant clients) (jobsInvariant_step hlower) jobsInvariant_empty hok
  constructor
  · rintro before act after p rfl hrequest
    obtain ⟨hbefore, hact, -⟩ := (meets_append _ _ _).1 hok
    exact (named_request hlower (hrun before hbefore) hact hrequest).1
  · intro p hp
    exact ((hrun acts hok).submitted p hp).1

/-! ## A destroy on another track -/

def webClients : Clients where
  services := localClaimServices
  region := "eu-central-1"
  regenerate _ _ := .error "Failed to regenerate deployment claim"
  parseDuration _ := none

def publishModule (track version : String) : JobAct :=
  .registry (.publish localHandler (.serverModule (webModule track version) "YQ=="))

/-- The first version is applied and its record stored. -/
def webApplied : List JobAct :=
  let request := webClaim "a" "eu-central-1" "cli/default"
  [publishModule "stable" "1.0.0", publishModule "dev" "1.1.0-dev",
    .claim "111111111111" request.claim "cli/default" "apply" [] .null "",
    .save (.ofRequest (driftcheckPayload localClaimServices webDeployment "web/a" true .null) "job-1")
      "111111111111" 0 false 1]

def webDestroy (overrideVersion : Option String) : JobAct :=
  .destroy "111111111111" "web/a" "cli/default" .null overrideVersion

theorem jobs_namePublished_web :
    NamesPublished webClients (webApplied ++ [webDestroy none]) :=
  jobs_namePublished webClients (webApplied ++ [webDestroy none]) Text.toLowercase_toLowercase
    ⟨trivial, trivial, trivial, trivial, trivial, trivial⟩

/-- The version on the other track is verified, and looked up on the track of the record. -/
theorem not_namesPublished_web :
    ¬ NamesPublished webClients (webApplied ++ [webDestroy (some "1.1.0-dev")]) := by
  rintro ⟨hpublished, -⟩
  have hname : ((webDestroy (some "1.1.0-dev")).request webClients
      (run (Submissions.step webClients) .empty webApplied)).map versionName =
        some ("web", "stable", "1.1.0-dev") := by
    decide +kernel
  obtain ⟨p, hp, hversion⟩ := Option.map_eq_some_iff.1 hname
  obtain ⟨record, hrecord⟩ := hpublished webApplied _ [] p rfl hp
  rw [hversion] at hrecord
  have hmissing : localServices.getModuleVersion
      ((run (Submissions.step webClients) .empty webApplied).store webClients) "web" "stable"
        "1.1.0-dev" = .ok none := by
    decide +kernel
  rw [show webClients.services.registry = localServices from rfl, hmissing] at hrecord
  cases Except.ok.inj hrecord

end EnvCommon
end InfraWeave
