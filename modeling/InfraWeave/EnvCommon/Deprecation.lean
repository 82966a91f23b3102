import InfraWeave.EnvCommon.PublishedJobs

/-!
# Deprecations at work

Publishes and deprecations read the registry first and write to the regions afterwards, one write
at a time.  A job is checked twice: when it is submitted, where a version that is deprecated is
refused to a new deployment, and again by its runner.  All of them, and the records that are stored
for the jobs, take turns in any order.
-/

namespace InfraWeave
namespace EnvCommon

open Deployments

/-! ## Jobs -/

/-- What a client asks for.  A deployment that is applied again is applied with the claim that is
made from its record. -/
inductive JobOrder where
  | apply (projectId : String) (manifest : DeploymentManifest) (environment command : String)
      (flags : List String) (extraData : Json) (referenceFallback : String)
  | destroy (projectId deploymentId environment : String) (extraData : Json)
      (overrideVersion : Option String)
  | driftcheck (projectId deploymentId environment : String) (remediate : Bool) (extraData : Json)
  /-- A client of the internal API hands over a payload. -/
  | prepared (prepared : ApiInfraPayloadWithVariables)

inductive JobStage where
  | submitted (order : JobOrder)
  /-- The registry has been read, the deployment not yet. -/
  | lookedUp (order : JobOrder) (store : RegionStore)
  | rejected
  /-- The runner is started. -/
  | accepted (payload : ApiInfraPayload)
  | fetched (payload : ApiInfraPayload) (record : ModuleResp)
  | passed (payload : ApiInfraPayload)
  | failed (payload : ApiInfraPayload)

namespace JobOrder

def act : JobOrder → JobAct
  | apply projectId manifest environment command flags extraData referenceFallback =>
      .claim projectId manifest environment command flags extraData referenceFallback
  | destroy projectId deploymentId environment extraData overrideVersion =>
      .destroy projectId deploymentId environment extraData overrideVersion
  | driftcheck projectId deploymentId environment remediate extraData =>
      .driftcheck projectId deploymentId environment remediate extraData
  | prepared payload => .prepared payload

variable (clients : Clients)

/-- The payload that is made from what has been read. -/
def request (store : RegionStore) (table : Deployments) (order : JobOrder) :
    Option ApiInfraPayload :=
  order.act.request clients ⟨⟨fun _ => store, []⟩, table, []⟩

/-- The deployment that the order is about. -/
def target : JobOrder → String
  | apply projectId manifest environment _ _ _ _ =>
      getDeploymentIdentifier projectId clients.region
        (clients.services.toLowercase manifest.kind ++ "/" ++ manifest.metadata.name) environment
  | destroy projectId deploymentId environment _ _ =>
      getDeploymentIdentifier projectId clients.region deploymentId environment
  | driftcheck projectId deploymentId environment _ _ =>
      getDeploymentIdentifier projectId clients.region deploymentId environment
  | prepared handed =>
      getDeploymentIdentifier handed.payload.projectId clients.region handed.payload.deploymentId
        handed.payload.environment

/-- The name, the track and the version that the order itself names. -/
def version : JobOrder → Option (String × String × String)
  | apply _ manifest _ _ _ _ _ =>
      match claimedVersion manifest.spec with
      | .ok (_, version) => (getVersionTrack version).map fun track =>
          (clients.services.toLowercase manifest.kind, track, version)
      | .error _ => none
  | destroy _ _ _ _ _ => none
  | driftcheck _ _ _ _ _ => none
  | prepared handed => some (versionName handed.payload)

end JobOrder

/-- `get_module` of a runner asks for the deployment of the payload. -/
def runnerCheck (clients : Clients) (t : Deployments) (payload : ApiInfraPayload)
    (record : ModuleResp) : Except String Unit :=
  checkModuleDeprecation ⟨payload.projectId, clients.region⟩ t record
    (payload.moduleType = "stack") payload.module payload.moduleVersion payload.deploymentId
    payload.environment

/-- The next step of a job, with the registry and the table that it finds. -/
def JobStage.next (clients : Clients) (s : RegionStore) (t : Deployments) : JobStage → JobStage
  | submitted order => lookedUp order s
  | lookedUp order store =>
      match order.request clients store t with
      | some payload => accepted payload
      | none => rejected
  | accepted payload =>
      match clients.services.registry.getModuleVersion s payload.module payload.moduleTrack
        payload.moduleVersion with
      | .ok (some record) => fetched payload record
      | _ => failed payload
  | fetched payload record =>
      match runnerCheck clients t payload record with
      | .ok () => passed payload
      | .error _ => failed payload
  | stage => stage

/-- The payload of a job that has been started. -/
def JobStage.payload : JobStage → Option ApiInfraPayload
  | accepted payload => some payload
  | fetched payload _ => some payload
  | passed payload => some payload
  | failed payload => some payload
  | _ => none

/-- A handler that was made for the payload. -/
def DeploymentStatusHandler.Reports (h : DeploymentStatusHandler) (payload : ApiInfraPayload) :
    Prop :=
  h.versionName = EnvCommon.versionName payload ∧ h.projectId = payload.projectId ∧
    h.region = payload.region ∧ h.deploymentId = payload.deploymentId ∧
    h.environment = payload.environment

instance (h : DeploymentStatusHandler) (payload : ApiInfraPayload) :
    Decidable (h.Reports payload) :=
  inferInstanceAs (Decidable (_ ∧ _ ∧ _ ∧ _ ∧ _))

/-! ## The system -/

structure Platform where
  registry : Registry
  /-- What each publish and each deprecation has left to write. -/
  pending : List (List (String × Write))
  table : Deployments
  jobs : List JobStage

def Platform.empty : Platform :=
  ⟨.empty, [], .empty, []⟩

inductive PlatformAct where
  | publish (handler : GenericCloudHandler) (op : Publish)
  | deprecateVersion (handler : GenericCloudHandler) (kind : ModuleType)
      (name track version : String) (message : Option String)
  /-- The next write of a publish or a deprecation. -/
  | write (index : Nat)
  | submit (order : JobOrder)
  /-- The next step of a job. -/
  | advance (index : Nat)
  /-- A record is stored for a job. -/
  | save (index : Nat) (h : DeploymentStatusHandler) (epoch : Nat) (isPlan : Bool)
      (carriedOut : Nat)

/-- `deprecate_module` or `deprecate_stack`, by the route that was taken. -/
def deprecation (services : Services) (reg : Registry) (handler : GenericCloudHandler)
    (kind : ModuleType) (name track version : String) (message : Option String) :
    Publishing String Unit :=
  match kind with
  | .module => deprecateModule services reg handler name track version message
  | .stack => deprecateStack services reg handler name track version message

namespace Platform

variable (clients : Clients)

def store (s : Platform) : RegionStore :=
  s.registry clients.region

def step (s : Platform) : PlatformAct → Platform
  | .publish handler op =>
      { s with
        pending := s.pending ++ [(op.outcome clients.services.registry s.registry handler).writes] }
  | .deprecateVersion handler kind name track version message =>
      { s with
        pending := s.pending ++
          [(deprecation clients.services.registry s.registry handler kind name track version
            message).writes] }
  | .write index =>
      match s.pending[index]? with
      | some (w :: ws) =>
          { s with registry := s.registry.apply w, pending := s.pending.set index ws }
      | _ => s
  | .submit order => { s with jobs := s.jobs ++ [.submitted order] }
  | .advance index =>
      match s.jobs[index]? with
      | some stage =>
          { s with jobs := s.jobs.set index (stage.next clients (s.store clients) s.table) }
      | none => s
  | .save index h epoch isPlan carriedOut =>
      match (s.jobs[index]?).bind JobStage.payload with
      | some payload =>
          if h.Reports payload then
            { s with
              table := s.table.step ⟨⟨payload.projectId, clients.region⟩,
                h.deployment clients.parseDuration epoch, isPlan, carriedOut⟩ }
          else s
      | none => s

end Platform

/-! ## What is asked -/

def RowDeprecated (s : RegionStore) (key : Key) : Prop :=
  ∃ record, s.item .modules key = some (.module record) ∧ record.deprecated = true

/-- A record of a latest version names the version of this row. -/
def LatestNames (s : RegionStore) (key : Key) : Prop :=
  ∃ pk name track record, (pk = "LATEST_MODULE" ∨ pk = "LATEST_STACK") ∧
    s.item .modules ⟨pk, moduleId name track⟩ = some (.module record) ∧
    getModuleVersionQuery name track record.version = some key

/-- The version that the order names is deprecated. -/
def JobOrder.NamesDeprecated (clients : Clients) (s : RegionStore) (order : JobOrder) : Prop :=
  ∀ name, order.version clients = some name →
    ∃ key, getModuleVersionQuery name.1 name.2.1 name.2.2 = some key ∧ RowDeprecated s key

structure EffectiveDeprecation (clients : Clients) (acts : List PlatformAct) : Prop where
  latest : ∀ region key,
    LatestNames ((run (Platform.step clients) .empty acts).registry region) key →
      ¬ RowDeprecated ((run (Platform.step clients) .empty acts).registry region) key
  /-- A job for a deployment that there is not, submitted after the deprecation of its version. -/
  newJobs : ∀ before order after, acts = before ++ .submit order :: after →
    (run (Platform.step clients) .empty before).table.live (order.target clients) = none →
    order.NamesDeprecated clients ((run (Platform.step clients) .empty before).store clients) →
    ∀ payload, (run (Platform.step clients) .empty acts).jobs[
      (run (Platform.step clients) .empty before).jobs.length]? ≠ some (.passed payload)
  kept : ∀ before after, acts = before ++ after → ∀ region key, key.IsModuleVersion →
    RowDeprecated ((run (Platform.step clients) .empty before).registry region) key →
      RowDeprecated ((run (Platform.step clients) .empty acts).registry region) key

/-! ## The condition -/

/-- The write of a deprecation. -/
def Write.Marks (w : Write) (key : Key) : Prop :=
  ∃ record, w = .transact [⟨.modules, key, .module record⟩]

/-- The write of a publish, for the row of the version. -/
def Write.Releases (w : Write) (key : Key) : Prop :=
  ∃ record v, w = .transact (modulePuts record v) ∧
    key = ⟨moduleId record.module record.track, "VERSION#" ++ v⟩

namespace Platform

/-- The write is yet to be done. -/
def Writes (s : Platform) (region : String) (w : Write) : Prop :=
  ∃ ws ∈ s.pending, (region, w) ∈ ws

/-- A deprecation is about to write the row. -/
def Marks (s : Platform) (region : String) (key : Key) : Prop :=
  ∃ w, s.Writes region w ∧ w.Marks key

/-- A publish is about to write the row. -/
def Releases (s : Platform) (region : String) (key : Key) : Prop :=
  ∃ w, s.Writes region w ∧ w.Releases key

end Platform

/-- Versions that are deprecated, or about to be, are not published again, and nothing is published
as deprecated; a version is not deprecated while a latest record of a region names it, or while it
is being published; payloads are handed over for deployments that there are, or for versions that
are not deprecated; and no record of a new deployment is stored while an order for the deployment
has not been checked. -/
def Careful (clients : Clients) (s : Platform) : PlatformAct → Prop
  | .publish handler op => ∀ route record v,
      op.Offers clients.services.registry (s.registry handler.region) (.module route record) →
      Admitted clients.services.registry (s.registry handler.region) (.module route record) →
      zeroPadSemver record.version 3 = some v →
      record.deprecated = false ∧ ∀ region ∈ handler.allRegions,
        ¬ RowDeprecated (s.registry region)
            ⟨moduleId record.module record.track, "VERSION#" ++ v⟩ ∧
          ¬ s.Marks region ⟨moduleId record.module record.track, "VERSION#" ++ v⟩
  | .deprecateVersion handler _ name track version _ => ∀ key,
      getModuleVersionQuery name track version = some key → ∀ region ∈ handler.allRegions,
        ¬ LatestNames (s.registry region) key ∧ ¬ s.Releases region key
  | .submit (.prepared handed) =>
      (s.table.live ((JobOrder.prepared handed).target clients)).isSome = true ∨
        ¬ (JobOrder.prepared handed).NamesDeprecated clients (s.store clients)
  | .save _ h _ _ _ =>
      let identifier := getDeploymentIdentifier h.projectId h.region h.deploymentId h.environment
      h.deleted = true ∨ (s.table.live identifier).isSome = true ∨
        ∀ order, (.submitted order ∈ s.jobs ∨ ∃ store, .lookedUp order store ∈ s.jobs) →
          order.target clients ≠ identifier
  | _ => True

end EnvCommon
end InfraWeave
