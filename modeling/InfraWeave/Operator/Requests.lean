import InfraWeave.Operator.Reconcile

/-!
# The requests of the parts of a reconciliation

What a handler asks for depends on the answers, but all of its requests are of a few kinds.  Each
part is given with the requests that it may make.
-/

namespace InfraWeave
namespace Operator

open Process

variable {σ α : Type} {P : Operation σ → Prop}

/-- Requests that change neither the object nor a deployment are always permitted. -/
structure Permits (P : Operation σ → Prop) : Prop where
  get : P .get
  now : P .now
  readLogs : ∀ jobId, P (.readLogs jobId)
  cloud : ∀ request, P (.cloud request)
  getChangeRecord : ∀ environment deploymentId jobId changeType,
    P (.getChangeRecord environment deploymentId jobId changeType)

/-- A patch that says nothing of a generation and of a deployment, and clears the job if it names
one. -/
structure StatusPatch.IsMinor (patch : StatusPatch) (statuses : List String) : Prop where
  lastGeneration : patch.lastGeneration = none
  deploymentId : patch.deploymentId = none
  jobId : ∀ jobId, patch.jobId = some jobId → jobId = ""
  resourceStatus : ∀ status, patch.resourceStatus = some status → status ∈ statuses

def PermitsMinor (P : Operation σ → Prop) (statuses : List String) : Prop :=
  ∀ patch : StatusPatch, patch.IsMinor statuses → P (.patchStatus patch)

/-- The patches of a status, from a copy of the resource. -/
def PermitsStatus (P : Operation σ → Prop) (c : Controller) (resource : Resource σ)
    (status jobId : String) : Prop :=
  ∀ name lastDeploymentUpdate message now, resource.name = some name →
    P (.patchStatus (c.statusPatch resource name status lastDeploymentUpdate message jobId now))

theorem PermitsMinor.mono {statuses statuses' : List String} (h : PermitsMinor P statuses)
    (hsub : ∀ status ∈ statuses', status ∈ statuses) : PermitsMinor P statuses' :=
  fun patch hpatch => h patch { hpatch with
    resourceStatus := fun status hs => hsub status (hpatch.resourceStatus status hs) }

variable {c : Controller}

theorem only_get (h : Permits P) : Only P (Controller.get : Reconciliation σ (Resource σ)) :=
  only_request h.get id

theorem only_getEpoch (h : Permits P) : Only P (Controller.getEpoch : Reconciliation σ Nat) :=
  only_request h.now _

theorem only_getTimestamp (h : Permits P) : Only P (c.getTimestamp : Reconciliation σ String) :=
  (only_getEpoch h).bind fun _ => only_pure _

theorem only_patchStatus {patch : StatusPatch} (h : P (.patchStatus patch)) :
    Only P (Controller.patchStatus patch) :=
  only_request h id

theorem only_unwrap_bind {β : Type} {x : Option α} {f : α → Reconciliation σ β}
    (h : ∀ a, x = some a → Only P (f a)) : Only P (Controller.unwrap x >>= f) := by
  cases x with
  | none => exact fun _ => trivial
  | some a => exact h a rfl

theorem only_updateResourceStatus (h : Permits P) {resource : Resource σ} {status jobId : String}
    (hstatus : PermitsStatus P c resource status jobId) (lastDeploymentUpdate message : String) :
    Only P (c.updateResourceStatus resource status lastDeploymentUpdate message jobId) := by
  refine only_unwrap_bind fun name hname => (only_getTimestamp h).bind fun now => ?_
  have hpatch := only_patchStatus (hstatus name lastDeploymentUpdate message now hname)
  exact hpatch.bind fun _ => (only_get h).bind fun _ => only_pure _

theorem only_updateRetryCount (h : PermitsMinor P []) (retryCount : Int) :
    Only P (Controller.updateRetryCount retryCount : Reconciliation σ Unit) :=
  only_patchStatus (h _ ⟨rfl, rfl, fun _ hjob => (Option.some.inj hjob).symm, nofun⟩)

theorem only_resetRetryCount (h : PermitsMinor P []) :
    Only P (Controller.resetRetryCount : Reconciliation σ Unit) :=
  only_patchStatus (h _ ⟨rfl, rfl, fun _ hjob => (Option.some.inj hjob).symm, nofun⟩)

/-! ## Checks of a job -/

theorem only_fetchLogsOnly (h : Permits P) (hminor : PermitsMinor P []) (jobId : String) :
    Only P (Controller.fetchLogsOnly jobId : Reconciliation σ Action) := by
  have hlogs : Only P (Controller.fetchJobLogs jobId : Reconciliation σ String) := by
    refine (only_request (h.readLogs jobId) _).bind fun answer => ?_
    split <;> exact only_pure _
  refine hlogs.bind fun logs => (only_patchStatus ?_).bind fun _ => only_pure _
  exact hminor _ ⟨rfl, rfl, nofun, nofun⟩

theorem only_secondsSinceLastCheck (h : Permits P) (status : ResourceStatus) :
    Only P (c.secondsSinceLastCheck status : Reconciliation σ (Option Int)) := by
  unfold Controller.secondsSinceLastCheck
  dsimp only
  split
  · exact only_pure _
  · split
    · exact only_pure _
    · exact (only_getEpoch h).bind fun _ => only_pure _

theorem only_updateTime (h : Permits P) (depl : Option DeploymentResp) :
    Only P (c.updateTime depl : Reconciliation σ String) := by
  cases depl with
  | none => exact only_getTimestamp h
  | some d => exact only_pure _

/-- The statuses of a job that has failed. -/
def failureStatuses (heading deplStatus : String) : List String :=
  [heading ++ deplStatus ++ " (max retries exhausted)", heading ++ deplStatus ++ " (cooling down)"]

theorem only_handleFailure (h : Permits P) {resource : Resource σ} {heading deplStatus jobId : String}
    (hstatus : PermitsStatus P c resource (heading ++ deplStatus) jobId)
    (hminor : PermitsMinor P (failureStatuses heading deplStatus)) (updateTime message : String)
    (retryCount : Int) (keptLogs : Option String) :
    Only P (c.handleFailure resource heading deplStatus updateTime message jobId retryCount
      keptLogs) := by
  have hnone : PermitsMinor P [] := hminor.mono nofun
  unfold Controller.handleFailure
  split
  · refine (only_updateResourceStatus h hstatus _ _).bind fun _ => ?_
    exact (only_updateRetryCount hnone _).bind fun _ => only_pure _
  · refine (only_getEpoch h).bind fun nowEpoch => ?_
    split
    · refine (only_patchStatus ?_).bind fun _ => only_pure _
      refine hminor _ ⟨rfl, rfl, fun _ hjob => (Option.some.inj hjob).symm, ?_⟩
      intro status hs
      rw [← Option.some.inj hs]
      exact List.mem_cons_self
    · split
      · exact (only_resetRetryCount hnone).bind fun _ => only_pure _
      · refine (only_patchStatus ?_).bind fun _ => only_pure _
        refine hminor _ ⟨rfl, rfl, fun _ hjob => (Option.some.inj hjob).symm, ?_⟩
        intro status hs
        rw [← Option.some.inj hs]
        exact List.mem_cons_of_mem _ List.mem_cons_self

/-! ## Applies -/

theorem only_clearStuckState (h : Permits P) (hminor : PermitsMinor P ["Ready for reconciliation"])
    (fresh : Resource σ) : Only P (c.clearStuckState fresh) := by
  refine (only_secondsSinceLastCheck h _).bind fun seconds => ?_
  cases seconds with
  | none => exact only_pure _
  | some seconds =>
      dsimp only
      split
      · refine (only_patchStatus ?_).bind fun _ => only_pure _
        refine hminor _ ⟨rfl, rfl, fun _ hjob => (Option.some.inj hjob).symm, ?_⟩
        intro status hs
        rw [← Option.some.inj hs]
        exact List.mem_cons_self
      · exact only_pure _

/-- What `is_deployment_in_progress` says of a status is empty or the text of one. -/
def IsStatusText (deplStatus : String) : Prop :=
  deplStatus = "" ∨ ∃ status : DeploymentStatus, deplStatus = status.text

theorem only_inProgress_bind (h : Permits P) {deploymentId environment : String} {β : Type}
    {f : Bool × String × String × Option DeploymentResp → Reconciliation σ β}
    (hf : ∀ found, IsStatusText found.2.2.1 → Only P (f found)) :
    Only P (Controller.onCloud (EnvCommon.isDeploymentInProgress deploymentId environment false true)
      >>= f) := by
  intro s
  refine ⟨h.cloud _, fun answer => ?_⟩
  cases answer with
  | error e => exact hf _ (.inl rfl) s
  | ok found =>
      cases found with
      | none => exact hf _ (.inl rfl) s
      | some d =>
          by_cases hbusy : d.status.isBusy = true
          · simp only [hbusy, if_true]
            exact hf _ (.inr ⟨d.status, rfl⟩) s
          · simp only [hbusy]
            exact hf _ (.inr ⟨d.status, rfl⟩) s

/-- The statuses that are written of an apply. -/
structure PermitsApply (P : Operation σ → Prop) (c : Controller) (resource : Resource σ) :
    Prop where
  status : ∀ deplStatus jobId, IsStatusText deplStatus →
    PermitsStatus P c resource ("Apply - " ++ deplStatus) jobId
  pending : ∀ jobId, PermitsStatus P c resource "Apply - pending" jobId
  inProgress : ∀ jobId, PermitsStatus P c resource "Apply - in progress" jobId

theorem only_completeApplyJob (h : Permits P) {copy : Resource σ} {deplStatus : String}
    (htext : IsStatusText deplStatus) (hstatus : PermitsApply P c copy)
    (hminor : ∀ deplStatus, IsStatusText deplStatus →
      PermitsMinor P (failureStatuses "Apply - " deplStatus))
    (fresh : Resource σ) (environment : String) (depl : Option DeploymentResp) :
    Only P (c.completeApplyJob copy fresh environment deplStatus depl) := by
  have hcopy : ∀ jobId, PermitsStatus P c copy ("Apply - " ++ deplStatus) jobId := fun jobId =>
    hstatus.status deplStatus jobId htext
  refine (only_updateTime h depl).bind fun updateTime => ?_
  refine (only_request (h.getChangeRecord _ _ _ _) _).bind fun changeRecord => ?_
  dsimp only
  split
  · exact only_handleFailure h (hcopy _) (hminor deplStatus htext) _ _ _ _
  · split
    · refine (only_updateResourceStatus h (hcopy _) _ _).bind fun _ => ?_
      split
      · refine (only_resetRetryCount ?_).bind fun _ => only_pure _
        exact (hminor deplStatus htext).mono nofun
      · exact only_pure _
    · exact (only_updateResourceStatus h (hcopy _) _ _).bind fun _ => only_pure _

theorem only_checkApplyJob (h : Permits P) {copy : Resource σ} (hstatus : PermitsApply P c copy)
    (hminor : ∀ deplStatus, IsStatusText deplStatus →
      PermitsMinor P (failureStatuses "Apply - " deplStatus))
    (fresh : Resource σ) (environment : String) :
    Only P (c.checkApplyJob copy fresh environment) := by
  refine (only_secondsSinceLastCheck h _).bind fun seconds => ?_
  split
  · exact only_fetchLogsOnly h ((hminor "" (.inl rfl)).mono nofun) _
  · refine only_inProgress_bind h fun found htext => ?_
    dsimp only
    split
    · refine (only_getTimestamp h).bind fun now => ?_
      exact (only_updateResourceStatus h (hstatus.pending _) _ _).bind fun _ => only_pure _
    · split
      · refine (only_updateTime h _).bind fun updateTime => ?_
        exact (only_updateResourceStatus h (hstatus.inProgress _) _ _).bind fun _ => only_pure _
      · exact only_completeApplyJob h htext hstatus hminor fresh environment _

end Operator
end InfraWeave
