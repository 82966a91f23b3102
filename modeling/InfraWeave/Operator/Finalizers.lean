import InfraWeave.Operator.Cluster
import InfraWeave.Operator.Requests

/-!
# The end of a resource

The finalizer keeps a deleted resource in the cluster until its deployment is destroyed.  The
handler takes a destroy job to have succeeded when the METADATA record of the deployment says
successful, whoever has stored it.
-/

namespace InfraWeave
namespace Operator

open Process

variable {σ : Type}

/-- The operator is about to take its finalizer off the resource. -/
def System.RemovesFinalizer (s : System σ) : Prop :=
  ∃ finalizers p, finalizerName ∉ finalizers ∧ s.running = some p ∧
    p.Calls (.patchFinalizers finalizers)

namespace Controller

variable (c : Controller)

def metadataOf (w : Cluster σ) (r : Resource σ) : Option DeploymentResp :=
  w.metadata (c.deploymentId r) (c.environment r)

/-- A destroy job of the operator has succeeded, by the records of the deployment. -/
def HasDestroyed (w : Cluster σ) (r : Resource σ) : Prop :=
  ∃ job ∈ w.submitted, job.command = "destroy" ∧ job.resource ∈ w.versions ∧
    ∃ d ∈ w.records (c.deploymentId r) (c.environment r),
      d.jobId = job.jobId ∧ d.status = .successful

/-- The finalizer is taken off only when the deployment is destroyed. -/
def DestroysFirst (s : System σ) : Prop :=
  s.RemovesFinalizer → ∀ r, s.cluster.current = some r →
    c.HasDestroyed s.cluster r ∧ ∃ d, c.metadataOf s.cluster r = some d ∧ d.deleted = true

end Controller

def Cluster.HasDestroy (w : Cluster σ) : Prop :=
  ∃ job ∈ w.submitted, job.command = "destroy"

def Cluster.lastDestroy (w : Cluster σ) : Option (Job σ) :=
  (w.submitted.filter fun job => job.command == "destroy").getLast?

/-- Once the operator has submitted a destroy job, the records of the deployment are those of the
destroy job that it has submitted last, which is deleted when it is successful and stores no record
after that. -/
def Act.Undisturbed (c : Controller) (s : System σ) : Act σ → Prop
  | .event (.record d) => ∀ job, s.cluster.lastDestroy = some job →
      d.deploymentId = c.deploymentId job.resource → d.environment = c.environment job.resource →
        d.jobId = job.jobId ∧ (d.status = .successful → d.deleted = true) ∧
          ∀ m, s.cluster.metadata d.deploymentId d.environment = some m → m.status ≠ .successful
  | _ => True

section

variable (c : Controller) {w w' w'' : Cluster σ}

/-- The deployment is destroyed, and its last record says so. -/
structure Settled (w : Cluster σ) (r : Resource σ) : Prop where
  destroyed : c.HasDestroyed w r
  metadata : ∃ d, c.metadataOf w r = some d ∧ d.status = .successful ∧ d.deleted = true

structure DestroysKept (w : Cluster σ) : Prop where
  coherent : Coherent w
  /-- A status of a deletion is written for a destroy job only. -/
  status : ∀ v ∈ w.versions, v.isDestroyJob = true → w.HasDestroy
  deploymentId : ∀ v ∈ w.versions, v.status.currentJobId ≠ "" →
    v.status.currentDeploymentId = c.deploymentId v
  successful : w.HasDestroy → ∀ v ∈ w.versions, ∀ d, c.metadataOf w v = some d →
    d.status = .successful → Settled c w v

/-- Nobody undoes a destroy. -/
structure Beside (w w' : Cluster σ) : Prop where
  later : Later w w'
  settled : ∀ v ∈ w.versions, Settled c w v → Settled c w' v

/-- The requests of a reconciliation that removes no finalizer. -/
def Cluster.Writes (w : Cluster σ) : Operation σ → Prop
  | .patchStatus patch =>
      (∀ status, patch.resourceStatus = some status → Text.contains status "Delete" = true →
        w.HasDestroy) ∧
      (∀ jobId, patch.jobId = some jobId → jobId ≠ "" → patch.deploymentId.isSome = true) ∧
      ∀ deploymentId, patch.deploymentId = some deploymentId →
        ∃ v ∈ w.versions, deploymentId = c.deploymentId v
  | .patchFinalizers finalizers => finalizerName ∈ finalizers
  | .runClaim r environment _ => r ∈ w.versions ∧ environment = c.environment r
  | _ => True

def deleting : Environment (Operation σ) Operation.Answer (Cluster σ) :=
  Environment.interleaved
    { step := fun w op answer w' => DestroysKept c w ∧ c.Responds w op answer w'
      safe := fun w op => w.Writes c op ∨
        (∃ finalizers, op = .patchFinalizers finalizers) ∧ ∃ v ∈ w.versions, Settled c w v }
    (Beside c)

variable {c}

theorem Beside.refl (w : Cluster σ) : Beside c w w :=
  ⟨.refl w, fun _ _ h => h⟩

theorem Beside.trans (h : Beside c w w') (h' : Beside c w' w'') : Beside c w w'' :=
  ⟨h.later.trans h'.later, fun v hv hsettled =>
    h'.settled v (h.later.versions v hv) (h.settled v hv hsettled)⟩

theorem Cluster.HasDestroy.later (h : w.HasDestroy) (hlater : Later w w') : w'.HasDestroy := by
  obtain ⟨job, hjob, hcommand⟩ := h
  exact ⟨job, hlater.submitted job hjob, hcommand⟩

theorem Cluster.HasDestroy.exists_last (h : w.HasDestroy) :
    ∃ job ∈ w.submitted, w.lastDestroy = some job ∧ job.command = "destroy" := by
  obtain ⟨job, hjob, hcommand⟩ := h
  have hmem : job ∈ w.submitted.filter fun job => job.command == "destroy" :=
    List.mem_filter.2 ⟨hjob, by simp [hcommand]⟩
  obtain ⟨last, hlast⟩ := Option.isSome_iff_exists.1
    (List.getLast?_isSome.2 (List.ne_nil_of_mem hmem))
  have hin := List.mem_filter.1 (List.mem_of_getLast? hlast)
  exact ⟨last, hin.1, hlast, by simpa using hin.2⟩

theorem Cluster.Writes.later {op : Operation σ} (h : w.Writes c op) (hlater : Later w w') :
    w'.Writes c op := by
  cases op with
  | patchStatus patch =>
      obtain ⟨hstatus, hjob, hid⟩ := h
      refine ⟨fun status hs hcontains => (hstatus status hs hcontains).later hlater, hjob, ?_⟩
      intro deploymentId hdeployment
      obtain ⟨v, hv, heq⟩ := hid deploymentId hdeployment
      exact ⟨v, hlater.versions v hv, heq⟩
  | patchFinalizers finalizers => exact h
  | runClaim r environment command => exact ⟨hlater.versions r h.1, h.2⟩
  | get => trivial
  | cloud _ => trivial
  | getChangeRecord _ _ _ _ => trivial
  | readLogs _ => trivial
  | now => trivial

/-- A destroy stays as long as the records of the deployment stay. -/
theorem Settled.of_records {r : Resource σ} (h : Settled c w r) (hlater : Later w w')
    (hrecords : w'.records (c.deploymentId r) (c.environment r) =
      w.records (c.deploymentId r) (c.environment r)) : Settled c w' r := by
  obtain ⟨⟨job, hjob, hcommand, hversion, d, hd, hdjob, hstatus⟩, hmetadata⟩ := h
  refine ⟨⟨job, hlater.submitted job hjob, hcommand, hlater.versions _ hversion, d, ?_, hdjob,
    hstatus⟩, ?_⟩
  · rw [hrecords]
    exact hd
  · simpa only [Controller.metadataOf, Cluster.metadata, hrecords] using hmetadata

/-- All versions of the object are of one deployment. -/
structure SameDeployment (c : Controller) (r r' : Resource σ) : Prop where
  deploymentId : c.deploymentId r = c.deploymentId r'
  environment : c.environment r = c.environment r'

theorem sameDeployment_of_name {r r' : Resource σ} (hname : r.name = r'.name)
    (hnamespace : r.inNamespace = r'.inNamespace) : SameDeployment c r r' :=
  ⟨by simp [Controller.deploymentId, hname],
    by simp [Controller.environment, Resource.namespaceOrDefault, hnamespace]⟩

theorem Coherent.sameDeployment (h : Coherent w) {v v' : Resource σ} (hv : v ∈ w.versions)
    (hv' : v' ∈ w.versions) : SameDeployment c v v' :=
  sameDeployment_of_name (h.name_eq v hv v' hv').1 (h.name_eq v hv v' hv').2

theorem Settled.congr {r r' : Resource σ} (h : Settled c w r) (hsame : SameDeployment c r r') :
    Settled c w r' := by
  obtain ⟨⟨job, hjob, hcommand, hversion, hrecord⟩, hmetadata⟩ := h
  rw [hsame.deploymentId, hsame.environment] at hrecord
  refine ⟨⟨job, hjob, hcommand, hversion, hrecord⟩, ?_⟩
  simpa only [Controller.metadataOf, hsame.deploymentId, hsame.environment] using hmetadata

/-! ## What happens beside the operator -/

theorem beside_of_records (hlater : Later w w')
    (hrecords : ∀ v ∈ w.versions, w'.records (c.deploymentId v) (c.environment v) =
      w.records (c.deploymentId v) (c.environment v)) : Beside c w w' :=
  ⟨hlater, fun v hv hsettled => hsettled.of_records hlater (hrecords v hv)⟩

theorem DestroysKept.put (h : DestroysKept c w) {r r' : Resource σ} (hr : w.current = some r)
    (hfollows : Follows r r') (hstatus : r'.isDestroyJob = true → w.HasDestroy)
    (hid : r'.status.currentJobId ≠ "" → r'.status.currentDeploymentId = c.deploymentId r') :
    DestroysKept c (w.put r') := by
  have hmem := h.coherent.current_mem r hr
  have hsame : SameDeployment c r r' :=
    sameDeployment_of_name hfollows.name.symm hfollows.inNamespace.symm
  refine ⟨h.coherent.put hr hfollows, mem_put h.status hstatus, mem_put h.deploymentId hid, ?_⟩
  intro hdestroy
  have hbeside : Beside c w (w.put r') := beside_of_records (later_put w r') fun _ _ => rfl
  refine mem_put ?_ ?_
  · intro v hv d hd hsuccessful
    exact hbeside.settled v hv (h.successful hdestroy v hv d hd hsuccessful)
  · intro d hd hsuccessful
    have hold : c.metadataOf w r = some d := by
      rw [Controller.metadataOf, hsame.deploymentId, hsame.environment]
      exact hd
    exact (hbeside.settled r hmem (h.successful hdestroy r hmem d hold hsuccessful)).congr hsame

/-- A version with the status of the last one changes nothing. -/
theorem DestroysKept.put_of_status (h : DestroysKept c w) {r r' : Resource σ}
    (hr : w.current = some r) (hfollows : Follows r r') (hstatus : r'.status = r.status) :
    DestroysKept c (w.put r') := by
  have hmem := h.coherent.current_mem r hr
  refine h.put hr hfollows ?_ ?_
  · intro hdestroy
    simp only [Resource.isDestroyJob, hstatus] at hdestroy
    exact h.status r hmem hdestroy
  · intro hjob
    rw [hstatus] at hjob ⊢
    rw [h.deploymentId r hmem hjob]
    exact (sameDeployment_of_name hfollows.name.symm hfollows.inNamespace.symm).deploymentId

/-- The records of another deployment stay, and a record of the deployment is the first one then. -/
theorem records_store (d : DeploymentResp) (v : Resource σ) :
    (d.deploymentId = c.deploymentId v ∧ d.environment = c.environment v ∧
      (w.store d).records (c.deploymentId v) (c.environment v) =
        d :: w.records (c.deploymentId v) (c.environment v)) ∨
    (w.store d).records (c.deploymentId v) (c.environment v) =
      w.records (c.deploymentId v) (c.environment v) := by
  by_cases hkey : c.deploymentId v = d.deploymentId ∧ c.environment v = d.environment
  · exact .inl ⟨hkey.1.symm, hkey.2.symm, if_pos hkey⟩
  · exact .inr (if_neg hkey)

theorem DestroysKept.store {s : System σ} (h : DestroysKept c s.cluster) {d : DeploymentResp}
    (hok : Act.Undisturbed c s (.event (.record d))) :
    DestroysKept c (s.cluster.store d) ∧ Beside c s.cluster (s.cluster.store d) := by
  have hlater : Later s.cluster (s.cluster.store d) := ⟨fun _ hv => hv, fun _ hjob => hjob⟩
  -- A record of the deployment is one of the last destroy job.
  have hown : s.cluster.HasDestroy → ∀ v ∈ s.cluster.versions, d.deploymentId = c.deploymentId v →
      d.environment = c.environment v → ∃ job ∈ s.cluster.submitted, job.command = "destroy" ∧
        d.jobId = job.jobId ∧ (d.status = .successful → d.deleted = true) ∧
          ∀ m, c.metadataOf s.cluster v = some m → m.status ≠ .successful := by
    intro hdestroy v hv hid henvironment
    obtain ⟨job, hjob, hlast, hcommand⟩ := hdestroy.exists_last
    have hsame := h.coherent.sameDeployment (c := c) hv (h.coherent.job_mem job hjob)
    obtain ⟨hjobId, hdeleted, hnot⟩ := hok job hlast (hid.trans hsame.deploymentId)
      (henvironment.trans hsame.environment)
    refine ⟨job, hjob, hcommand, hjobId, hdeleted, ?_⟩
    rw [hid, henvironment] at hnot
    exact hnot
  constructor
  · refine ⟨⟨h.coherent.1, h.coherent.2, h.coherent.3, h.coherent.4, h.coherent.5, h.coherent.6⟩,
      h.status, h.deploymentId, ?_⟩
    intro hdestroy v hv m hm hsuccessful
    rcases records_store (c := c) (w := s.cluster) d v with ⟨hid, henvironment, hrecords⟩ | hrecords
    · obtain ⟨job, hjob, hcommand, hjobId, hdeleted, _⟩ := hown hdestroy v hv hid henvironment
      have heq : d = m := by
        simpa [Controller.metadataOf, Cluster.metadata, hrecords] using hm
      subst heq
      refine ⟨⟨job, hjob, hcommand, h.coherent.job_mem job hjob, d, ?_, hjobId, hsuccessful⟩, d, hm,
        hsuccessful, hdeleted hsuccessful⟩
      rw [hrecords]
      exact List.mem_cons_self
    · have hold : c.metadataOf s.cluster v = some m := by
        simpa only [Controller.metadataOf, Cluster.metadata, hrecords] using hm
      exact (h.successful hdestroy v hv m hold hsuccessful).of_records hlater hrecords
  · refine ⟨hlater, ?_⟩
    intro v hv hsettled
    rcases records_store (c := c) (w := s.cluster) d v with ⟨hid, henvironment, _⟩ | hrecords
    · obtain ⟨job, hjob, hcommand, _⟩ := hsettled.destroyed
      obtain ⟨_, _, _, _, _, hnot⟩ := hown ⟨job, hjob, hcommand⟩ v hv hid henvironment
      obtain ⟨m, hm, hsuccessful, _⟩ := hsettled.metadata
      exact absurd hsuccessful (hnot m hm)
    · exact hsettled.of_records hlater hrecords

theorem DestroysKept.happen [DecidableEq σ] {s : System σ} (h : DestroysKept c s.cluster)
    {e : Event σ} (hok : Act.Undisturbed c s (.event e)) :
    DestroysKept c (s.cluster.happen e) ∧ Beside c s.cluster (s.cluster.happen e) := by
  cases e with
  | edit spec finalizers =>
      cases hcurrent : s.cluster.current with
      | none => simpa [Cluster.happen, hcurrent] using ⟨h, Beside.refl s.cluster⟩
      | some r =>
          have hkept : DestroysKept c (s.cluster.put (Cluster.edited r spec finalizers)) :=
            h.put_of_status hcurrent (follows_edited r spec finalizers) rfl
          have hbeside : Beside c s.cluster (s.cluster.put (Cluster.edited r spec finalizers)) :=
            beside_of_records (later_put _ _) fun _ _ => rfl
          simpa [Cluster.happen, hcurrent] using ⟨hkept, hbeside⟩
  | delete deletionTimestamp =>
      cases hcurrent : s.cluster.current with
      | none => simpa [Cluster.happen, hcurrent] using ⟨h, Beside.refl s.cluster⟩
      | some r =>
          have hstatus : (Cluster.deleted r deletionTimestamp).status = r.status := by
            unfold Cluster.deleted
            split <;> rfl
          have hkept : DestroysKept c (s.cluster.put (Cluster.deleted r deletionTimestamp)) :=
            h.put_of_status hcurrent (follows_deleted r deletionTimestamp) hstatus
          have hbeside : Beside c s.cluster (s.cluster.put (Cluster.deleted r deletionTimestamp)) :=
            beside_of_records (later_put _ _) fun _ _ => rfl
          simpa [Cluster.happen, hcurrent] using ⟨hkept, hbeside⟩
  | record d => exact h.store hok
  | tick milliseconds =>
      have hlater := later_happen s.cluster (.tick milliseconds)
      have hbeside : Beside c s.cluster (s.cluster.happen (.tick milliseconds)) :=
        beside_of_records hlater fun _ _ => rfl
      have hcoherent := h.coherent.happen (.tick milliseconds)
      refine ⟨⟨hcoherent, h.status, h.deploymentId, ?_⟩, hbeside⟩
      intro hdestroy v hv d hd hsuccessful
      exact hbeside.settled v hv (h.successful hdestroy v hv d hd hsuccessful)

/-! ## What the operator does -/

theorem DestroysKept.merge (h : DestroysKept c w) {r : Resource σ} {patch : StatusPatch}
    (hr : w.current = some r) (hwrites : w.Writes c (.patchStatus patch)) :
    DestroysKept c (w.put (r.mergeStatus patch)) := by
  have hmem := h.coherent.current_mem r hr
  obtain ⟨hstatus, hjob, hid⟩ := hwrites
  refine h.put hr (follows_mergeStatus r patch) ?_ ?_
  · intro hdestroy
    cases hpatch : patch.resourceStatus with
    | some status =>
        refine hstatus status hpatch ?_
        simpa [Resource.isDestroyJob, Resource.mergeStatus, ResourceStatus.merge,
          ResourceStatus.currentStatus, hpatch] using hdestroy
    | none =>
        refine h.status r hmem ?_
        simpa [Resource.isDestroyJob, Resource.mergeStatus, ResourceStatus.merge,
          ResourceStatus.currentStatus, hpatch] using hdestroy
  · intro hnew
    -- A deployment of the patch is that of the object; otherwise the job was there before.
    cases hdeployment : patch.deploymentId with
    | some deploymentId =>
        obtain ⟨v, hv, heq⟩ := hid deploymentId hdeployment
        have hsame := h.coherent.sameDeployment (c := c) hv hmem
        calc (r.mergeStatus patch).status.currentDeploymentId = deploymentId := by
              simp [Resource.mergeStatus, ResourceStatus.merge, ResourceStatus.currentDeploymentId,
                hdeployment]
          _ = c.deploymentId r := heq.trans hsame.deploymentId
    | none =>
        have hold : r.status.currentJobId ≠ "" := by
          cases hpatch : patch.jobId with
          | none =>
              simpa [Resource.mergeStatus, ResourceStatus.merge, ResourceStatus.currentJobId,
                hpatch] using hnew
          | some jobId =>
              have hne : jobId ≠ "" := by
                simpa [Resource.mergeStatus, ResourceStatus.merge, ResourceStatus.currentJobId,
                  hpatch] using hnew
              have hsome := hjob jobId hpatch hne
              rw [hdeployment] at hsome
              cases hsome
        calc (r.mergeStatus patch).status.currentDeploymentId = r.status.currentDeploymentId := by
              simp [Resource.mergeStatus, ResourceStatus.merge, ResourceStatus.currentDeploymentId,
                hdeployment]
          _ = c.deploymentId r := h.deploymentId r hmem hold

/-- A submission leaves a record that is not successful. -/
theorem DestroysKept.submit (h : DestroysKept c w) {r : Resource σ} {command jobId : String}
    {d : DeploymentResp} (hr : r ∈ w.versions)
    (hrequest : c.IsRequest r (c.environment r) jobId d) :
    DestroysKept c (w.submit ⟨jobId, command, r⟩ d) := by
  have hlater := later_submit w ⟨jobId, command, r⟩ d
  refine ⟨⟨h.coherent.1, h.coherent.2, h.coherent.3, h.coherent.4, h.coherent.5, ?_⟩, ?_,
    h.deploymentId, ?_⟩
  · intro job hjob
    rcases List.mem_append.1 hjob with hjob | hjob
    · exact h.coherent.job_mem job hjob
    · rw [List.mem_singleton.1 hjob]
      exact hr
  · exact fun v hv hdestroy => (h.status v hv hdestroy).later hlater
  · intro _ v hv m hm hsuccessful
    have hsame := h.coherent.sameDeployment (c := c) hv hr
    have hkey : c.deploymentId v = d.deploymentId ∧ c.environment v = d.environment :=
      ⟨hsame.deploymentId.trans hrequest.deploymentId.symm,
        hsame.environment.trans hrequest.environment.symm⟩
    have heq : d = m := by
      simpa [Controller.metadataOf, Cluster.metadata, Cluster.submit, Cluster.store, hkey] using hm
    rw [← heq, hrequest.status] at hsuccessful
    cases hsuccessful

theorem DestroysKept.responds (h : DestroysKept c w) {op : Operation σ} {answer : op.Answer}
    (hsafe : w.Writes c op ∨ ∃ finalizers, op = .patchFinalizers finalizers)
    (hresponds : c.Responds w op answer w') : DestroysKept c w' := by
  rcases hresponds.cases_on with rfl | ⟨r, patch, rfl, hr, rfl⟩ | ⟨r, finalizers, rfl, hr, rfl⟩ |
    ⟨r, environment, command, jobId, d, rfl, hrequest, rfl⟩
  · exact h
  · rcases hsafe with hwrites | ⟨_, heq⟩
    · exact h.merge hr hwrites
    · cases heq
  · exact h.put_of_status hr (follows_finalizers r finalizers) rfl
  · rcases hsafe with ⟨hmem, rfl⟩ | ⟨_, heq⟩
    · exact h.submit hmem hrequest
    · cases heq

/-- Only a submission touches the records. -/
theorem beside_responds {op : Operation σ} {answer : op.Answer}
    (hop : op.isClaim = false)
    (hresponds : c.Responds w op answer w') : Beside c w w' := by
  have hlater := hresponds.later
  refine beside_of_records hlater ?_
  intro v _
  rcases hresponds.cases_on with rfl | ⟨r, patch, _, _, rfl⟩ | ⟨r, finalizers, _, _, rfl⟩ |
    ⟨r, environment, command, jobId, d, rfl, _⟩
  · rfl
  · rfl
  · rfl
  · cases hop

/-! ## The handlers -/

/-- A part of a reconciliation that submits nothing and removes no finalizer. -/
def Cluster.Checks (c : Controller) (w : Cluster σ) (op : Operation σ) : Prop :=
  w.Writes c op ∧ op.isClaim = false

theorem permits_checks (w : Cluster σ) : Permits (w.Checks c) :=
  ⟨⟨trivial, rfl⟩, ⟨trivial, rfl⟩, fun _ => ⟨trivial, rfl⟩, fun _ => ⟨trivial, rfl⟩,
    fun _ _ _ _ => ⟨trivial, rfl⟩⟩

theorem permitsMinor_checks {statuses : List String}
    (h : ∀ status ∈ statuses, Text.contains status "Delete" = true → w.HasDestroy) :
    PermitsMinor (w.Checks c) statuses := by
  intro patch hpatch
  refine ⟨⟨?_, ?_, ?_⟩, rfl⟩
  · exact fun status hs hcontains => h status (hpatch.resourceStatus status hs) hcontains
  · exact fun jobId hjob hne => absurd (hpatch.jobId jobId hjob) hne
  · intro deploymentId hid
    rw [hpatch.deploymentId] at hid
    cases hid

theorem permitsStatus_checks {resource : Resource σ} (hversion : resource ∈ w.versions)
    {status : String} (h : Text.contains status "Delete" = true → w.HasDestroy) (jobId : String) :
    PermitsStatus (w.Checks c) c resource status jobId := by
  intro name lastDeploymentUpdate message now hname
  refine ⟨⟨?_, fun _ _ _ => rfl, ?_⟩, rfl⟩
  · intro written hwritten hcontains
    rw [← Option.some.inj hwritten] at hcontains
    exact h hcontains
  · intro deploymentId hid
    refine ⟨resource, hversion, ?_⟩
    rw [← Option.some.inj hid, Controller.deploymentId, hname]
    rfl

/-- The texts of an apply do not say that something is deleted. -/
theorem not_contains_apply {deplStatus : String} (h : IsStatusText deplStatus) :
    ∀ status ∈ ("Apply - " ++ deplStatus) :: failureStatuses "Apply - " deplStatus,
      Text.contains status "Delete" = false := by
  have htext : 'D' ∉ deplStatus.toList := by
    rcases h with rfl | ⟨status, rfl⟩
    · decide
    · cases status <;> decide
  have hparts : 'D' ∉ "Apply - ".toList ∧ 'D' ∉ " (max retries exhausted)".toList ∧
      'D' ∉ " (cooling down)".toList := by decide
  obtain ⟨hheading, hexhausted, hcooling⟩ := hparts
  intro status hstatus
  have hmem : 'D' ∉ status.toList := by
    simp only [failureStatuses, List.mem_cons, List.not_mem_nil, or_false] at hstatus
    rcases hstatus with rfl | rfl | rfl <;> simp only [String.toList_append, List.mem_append] <;>
      tauto
  exact Text.contains_eq_false (c := 'D') (by decide) hmem

theorem permitsApply_checks {resource : Resource σ} (hversion : resource ∈ w.versions) :
    PermitsApply (w.Checks c) c resource := by
  refine ⟨?_, ?_, ?_⟩
  · intro deplStatus jobId htext
    refine permitsStatus_checks hversion (fun hcontains => ?_) jobId
    rw [not_contains_apply htext _ List.mem_cons_self] at hcontains
    cases hcontains
  · exact fun jobId => permitsStatus_checks hversion (fun h => absurd h (by decide)) jobId
  · exact fun jobId => permitsStatus_checks hversion (fun h => absurd h (by decide)) jobId

theorem permitsMinor_apply {deplStatus : String} (h : IsStatusText deplStatus) :
    PermitsMinor (w.Checks c) (failureStatuses "Apply - " deplStatus) := by
  refine permitsMinor_checks fun status hs hcontains => ?_
  rw [not_contains_apply h status (List.mem_cons_of_mem _ hs)] at hcontains
  cases hcontains

/-- A part of a reconciliation is careful when it removes no finalizer before the deployment is
destroyed. -/
def Careful (c : Controller) (w : Cluster σ) {α : Type} (x : Reconciliation σ α) : Prop :=
  Advances (deleting c) Later w () x

theorem later_of_deleting {op : Operation σ} {answer : op.Answer}
    (h : (deleting c).step w op answer w') : Later w w' := by
  obtain ⟨w₁, hbeside, _, hresponds⟩ := h
  exact hbeside.later.trans hresponds.later

theorem beside_of_deleting {op : Operation σ} {answer : op.Answer}
    (hop : op.isClaim = false)
    (h : (deleting c).step w op answer w') : Beside c w w' := by
  obtain ⟨w₁, hbeside, _, hresponds⟩ := h
  exact hbeside.trans (beside_responds hop hresponds)

/-- Checks leave a destroy as it is. -/
theorem advances_of_checks {α : Type} {x : Reconciliation σ α} (hx : Only (w.Checks c) x) :
    Advances (deleting c) (Beside c) w () x := by
  refine hx.advances Beside.refl (fun _ _ _ => Beside.trans) ?_ ?_
  · exact fun _ _ _ _ hop hstep => beside_of_deleting hop.2 hstep
  · exact fun _ _ hlater hop _ hbeside =>
      .inl ((hop.1.later hlater.later).later hbeside.later)

theorem careful_of_beside {α : Type} {x : Reconciliation σ α}
    (hx : Advances (deleting c) (Beside c) w () x) : Careful c w x := by
  change WP (deleting c) (fun w' _ _ => Later w w') w () x
  exact wp_mono (fun _ _ _ h => h.later) hx

theorem careful_of_checks {α : Type} {x : Reconciliation σ α} (hx : Only (w.Checks c) x) :
    Careful c w x :=
  careful_of_beside (advances_of_checks hx)

theorem eq_successful_of_text {status : DeploymentStatus} (h : status.text = "successful") :
    status = .successful := by
  cases status <;> first | rfl | exact absurd h (by decide)

/-- What is read is the last record: when it is successful after a destroy, the deployment is
destroyed. -/
theorem advances_inProgress_bind {copy : Resource σ} (hversion : copy ∈ w.versions)
    (hdestroy : w.HasDestroy) {β : Type}
    {f : Bool × String × String × Option DeploymentResp → Reconciliation σ β}
    (hf : ∀ found w', Beside c w w' → IsStatusText found.2.2.1 →
      (found.2.2.1 = "successful" → Settled c w' copy) →
        Advances (deleting c) (Beside c) w' () (f found)) :
    Advances (deleting c) (Beside c) w () (Controller.onCloud (EnvCommon.isDeploymentInProgress
      (c.deploymentId copy) (c.environment copy) false true) >>= f) := by
  refine ⟨fun _ _ => .inl trivial, fun answer w' hstep => ?_⟩
  have hread : (Operation.cloud (.getDeployment (c.deploymentId copy) (c.environment copy) true) :
      Operation σ).isClaim = false := rfl
  have hbeside := beside_of_deleting hread hstep
  obtain ⟨w₁, hothers, hkept, heq, hanswer⟩ := hstep
  subst heq
  have hrest : ∀ found, IsStatusText found.2.2.1 →
      (found.2.2.1 = "successful" → Settled c w' copy) →
        WP (deleting c) (fun w'' _ _ => Beside c w w'') w' () (f found) := by
    intro found htext hsettled
    exact wp_mono (fun _ _ _ h => hbeside.trans h) (hf found w' hbeside htext hsettled)
  cases answer with
  | error e => exact hrest _ (.inl rfl) (fun h => absurd h (by decide))
  | ok found =>
      have hfound := hanswer found rfl
      cases found with
      | none => exact hrest _ (.inl rfl) (fun h => absurd h (by decide))
      | some d =>
          have hmetadata : c.metadataOf w' copy = some d := by
            simpa [Controller.metadataOf] using hfound.symm
          have hsettled : d.status.text = "successful" → Settled c w' copy := by
            intro htext
            have hsuccessful := eq_successful_of_text htext
            exact hkept.successful (hdestroy.later hothers.later) copy
              (hothers.later.versions copy hversion) d hmetadata hsuccessful
          by_cases hbusy : d.status.isBusy = true
          · simp only [hbusy, if_true]
            exact hrest _ (.inr ⟨d.status, rfl⟩) hsettled
          · simp only [hbusy]
            exact hrest _ (.inr ⟨d.status, rfl⟩) hsettled

theorem advances_completeDestroyJob {copy : Resource σ} (hversion : copy ∈ w.versions)
    (hdestroy : w.HasDestroy) {deplStatus : String}
    (hsettled : deplStatus = "successful" → Settled c w copy) (depl : Option DeploymentResp) :
    Advances (deleting c) (Beside c) w () (c.completeDestroyJob copy deplStatus depl) := by
  refine Advances.bind Beside.trans (advances_of_checks (only_updateTime (permits_checks w) depl)) ?_
  intro w₁ updateTime _ h₁
  have hversion₁ := h₁.later.versions copy hversion
  have hdestroy₁ := hdestroy.later h₁.later
  have hstatus : ∀ status jobId, PermitsStatus (w₁.Checks c) c copy status jobId :=
    fun _ jobId => permitsStatus_checks hversion₁ (fun _ => hdestroy₁) jobId
  dsimp only
  split
  · exact advances_of_checks (only_handleFailure (permits_checks w₁) (hstatus _ _)
      (permitsMinor_checks fun _ _ _ => hdestroy₁) _ _ _ _)
  · split
    next hsuccessful =>
      refine Advances.bind Beside.trans (advances_of_checks
        (only_updateResourceStatus (permits_checks w₁) (hstatus _ _) _ _)) ?_
      intro w₂ _ _ h₂
      have hdone : Settled c w₂ copy :=
        h₂.settled copy hversion₁ (h₁.settled copy hversion (hsettled hsuccessful))
      refine Advances.bind Beside.trans ?_ fun w₃ _ _ _ => advances_pure Beside.refl _
      change WP (deleting c) (fun w' _ _ => Beside c w₂ w') w₂ ()
        (request (.patchFinalizers (copy.finalizers.filter (· ≠ finalizerName))) id)
      refine wp_request.2 ⟨fun w₃ h₃ => .inr ⟨⟨_, rfl⟩, copy, ?_, ?_⟩, ?_⟩
      · exact h₃.later.versions copy (h₂.later.versions copy hversion₁)
      · exact h₃.settled copy (h₂.later.versions copy hversion₁) hdone
      · intro _ _ hstep
        have hpatch : (Operation.patchFinalizers (copy.finalizers.filter (· ≠ finalizerName)) :
            Operation σ).isClaim = false := rfl
        exact beside_of_deleting hpatch hstep
    next => exact advances_pure Beside.refl _

theorem advances_checkDestroyJob {copy : Resource σ} (hversion : copy ∈ w.versions)
    (hdestroy : w.HasDestroy)
    (hid : copy.status.currentDeploymentId = c.deploymentId copy) :
    Advances (deleting c) (Beside c) w () (c.checkDestroyJob copy (c.environment copy)) := by
  refine Advances.bind Beside.trans
    (advances_of_checks (only_secondsSinceLastCheck (permits_checks w) _)) ?_
  intro w₁ seconds _ h₁
  have hversion₁ := h₁.later.versions copy hversion
  have hdestroy₁ := hdestroy.later h₁.later
  dsimp only
  split
  · exact advances_of_checks (only_fetchLogsOnly (permits_checks w₁)
      (permitsMinor_checks fun _ hs => absurd hs List.not_mem_nil) _)
  · rw [hid]
    refine advances_inProgress_bind hversion₁ hdestroy₁ fun found w₂ h₂ _ hsettled => ?_
    have hversion₂ := h₂.later.versions copy hversion₁
    have hdestroy₂ := hdestroy₁.later h₂.later
    split
    · refine advances_of_checks ((only_updateTime (permits_checks w₂) _).bind fun updateTime => ?_)
      refine (only_updateResourceStatus (permits_checks w₂) ?_ _ _).bind fun _ => only_pure _
      exact permitsStatus_checks hversion₂ (fun _ => hdestroy₂) _
    · exact advances_completeDestroyJob hversion₂ hdestroy₂ hsettled _

/-- A job that is accepted is there. -/
theorem wp_runClaim {r : Resource σ} {command : String} (hversion : r ∈ w.versions) :
    WP (deleting c) (fun w' result _ => Later w w' ∧ ∀ answer, result = .ok answer →
      ∀ found, answer = .ok found → ∃ job ∈ w'.submitted, job.command = command) w ()
      (Controller.runClaim r (c.environment r) command) := by
  refine wp_request.2 ⟨fun _ h => .inl ⟨h.later.versions r hversion, rfl⟩, ?_⟩
  intro answer w' hstep
  refine ⟨later_of_deleting hstep, ?_⟩
  rintro given hgiven ⟨jobId, deploymentId⟩ hfound
  obtain ⟨w₁, _, _, hresponds⟩ := hstep
  have haccepted : answer = .ok (jobId, deploymentId) := (Except.ok.inj hgiven).trans hfound
  subst haccepted
  obtain ⟨_, d, _, rfl⟩ := hresponds
  exact ⟨⟨jobId, command, r⟩, List.mem_append_right _ (List.mem_singleton_self _), rfl⟩

theorem careful_startApplyJob {fresh : Resource σ} (hversion : fresh ∈ w.versions) :
    Careful c w (c.startApplyJob fresh (c.environment fresh)) := by
  refine Advances.bind_of Later.trans (wp_runClaim hversion) ?_
  intro w₁ answer _ h₁ _
  have hversion₁ := h₁.versions fresh hversion
  refine careful_of_checks ?_
  cases answer with
  | ok found =>
      refine (only_getTimestamp (permits_checks w₁)).bind fun now => ?_
      refine (only_updateResourceStatus (permits_checks w₁) ?_ _ _).bind fun _ => only_pure _
      exact permitsStatus_checks hversion₁ (fun h => absurd h (by decide)) _
  | error e =>
      refine (only_getTimestamp (permits_checks w₁)).bind fun now => ?_
      refine (only_updateResourceStatus (permits_checks w₁) ?_ _ _).bind fun _ => only_stop _
      exact permitsStatus_checks hversion₁ (fun h => absurd h (by decide)) _

theorem careful_get_bind {copy : Resource σ} (hversion : copy ∈ w.versions) {α : Type}
    {f : Resource σ → Reconciliation σ α}
    (hf : ∀ fresh w', Later w w' → fresh ∈ w'.versions → c.environment fresh = c.environment copy →
      Careful c w' (f fresh)) :
    Careful c w (Controller.get >>= f) := by
  have hget : WP (deleting c) (fun w' result _ => Later w w' ∧ ∀ fresh, result = .ok fresh →
      fresh ∈ w'.versions ∧ c.environment fresh = c.environment copy) w ()
      (Controller.get : Reconciliation σ (Resource σ)) := by
    refine wp_request.2 ⟨fun _ _ => .inl trivial, ?_⟩
    intro answer w' hstep
    refine ⟨later_of_deleting hstep, ?_⟩
    obtain ⟨w₁, hothers, hkept, heq, hanswer⟩ := hstep
    subst heq
    intro fresh hfresh
    have hmem := hkept.coherent.current_mem fresh (hanswer fresh hfresh)
    exact ⟨hmem, (hkept.coherent.sameDeployment hmem (hothers.later.versions copy hversion)).environment⟩
  refine Advances.bind_of Later.trans hget ?_
  rintro w₁ fresh _ h₁ ⟨hmem, henvironment⟩
  exact hf fresh w₁ h₁ hmem henvironment

theorem careful_startDestroyJob {copy : Resource σ} (hversion : copy ∈ w.versions) :
    Careful c w (c.startDestroyJob (c.environment copy) : Reconciliation σ Action) := by
  refine careful_get_bind hversion fun fresh w₁ h₁ hfresh henvironment => ?_
  rw [← henvironment]
  refine Advances.bind_of Later.trans (wp_runClaim hfresh) ?_
  intro w₂ answer _ h₂ haccepted
  refine careful_of_checks ?_
  cases answer with
  | error e => exact only_stop _
  | ok found =>
      have hdestroy : w₂.HasDestroy := haccepted found rfl
      refine (only_getTimestamp (permits_checks w₂)).bind fun now => ?_
      refine (only_updateResourceStatus (permits_checks w₂) ?_ _ _).bind fun _ => only_pure _
      exact permitsStatus_checks (h₂.versions fresh hfresh) (fun _ => hdestroy) _

theorem careful_reconcileResourceNonblocking {copy : Resource σ} (hversion : copy ∈ w.versions) :
    Careful c w (c.reconcileResourceNonblocking copy (c.environment copy)) := by
  refine careful_get_bind hversion fun fresh w₁ h₁ hfresh henvironment => ?_
  rw [← henvironment]
  have hminor : ∀ deplStatus, IsStatusText deplStatus →
      PermitsMinor (w₁.Checks c) (failureStatuses "Apply - " deplStatus) :=
    fun _ htext => permitsMinor_apply htext
  split
  · split
    · refine careful_of_checks (only_clearStuckState (permits_checks w₁) ?_ fresh)
      refine permitsMinor_checks fun status hs hcontains => ?_
      rw [List.mem_singleton.1 hs] at hcontains
      exact absurd hcontains (by decide)
    · split
      · exact careful_of_checks (only_pure _)
      · exact careful_startApplyJob hfresh
  · exact careful_of_checks (only_checkApplyJob (permits_checks w₁)
      (permitsApply_checks (h₁.versions copy hversion)) hminor fresh _)

theorem careful_reconcile {copy : Resource σ} (h : DestroysKept c w) (hversion : copy ∈ w.versions) :
    Careful c w (c.reconcile copy) := by
  unfold Controller.reconcile
  cases copy.name with
  | none => exact careful_of_checks (only_stop _)
  | some name =>
      dsimp only
      split
      · split
        · unfold Controller.handleResourceDeletionNonblocking
          split
          · exact careful_startDestroyJob hversion
          next hjob =>
            simp only [Bool.or_eq_true, Bool.not_eq_true', beq_iff_eq, not_or,
              Bool.not_eq_false] at hjob
            exact careful_of_beside (advances_checkDestroyJob hversion
              (h.status copy hversion hjob.1) (h.deploymentId copy hversion hjob.2))
        · exact careful_of_checks (only_pure _)
      · split
        · exact careful_reconcileResourceNonblocking hversion
        · have hchecks : w.Checks c (.patchFinalizers [finalizerName]) :=
            ⟨List.mem_singleton_self _, rfl⟩
          have hadd : Only (w.Checks c) (Controller.addFinalizer : Reconciliation σ Unit) :=
            only_request hchecks id
          exact careful_of_checks (hadd.bind fun _ => only_pure _)

/-! ## Runs -/

structure FinalizerKept (c : Controller) (s : System σ) : Prop where
  kept : DestroysKept c s.cluster
  running : ∀ p, s.running = some p → Program.WP (deleting c) (fun _ _ => True) s.cluster p

variable {s s' : System σ}

theorem System.Initial.finalizerKept (h : s.Initial) : FinalizerKept c s := by
  obtain ⟨r, _, hversions, _, _, _, hstatus⟩ := h.created
  have hmem : ∀ v ∈ s.cluster.versions, v.status = .empty := by
    intro v hv
    rw [hversions] at hv
    rw [List.mem_singleton.1 hv]
    exact hstatus
  refine ⟨⟨h.coherent, ?_, ?_, ?_⟩, ?_⟩
  · intro v hv hdestroy
    simp only [Resource.isDestroyJob, hmem v hv] at hdestroy
    exact absurd hdestroy (by decide)
  · intro v hv hjob
    rw [hmem v hv] at hjob
    exact absurd rfl hjob
  · rintro ⟨job, hjob, _⟩
    rw [h.submitted] at hjob
    exact absurd hjob List.not_mem_nil
  · intro p hp
    rw [h.running] at hp
    cases hp

theorem FinalizerKept.respond (h : FinalizerKept c s) {op : Operation σ} {answer : op.Answer}
    {w : Cluster σ} {next : op.Answer → Underway σ} (hrunning : s.running = some (.call op next))
    (hresponds : c.Responds s.cluster op answer w) : FinalizerKept c ⟨w, some (next answer)⟩ := by
  obtain ⟨hsafe, hnext⟩ := h.running _ hrunning
  refine ⟨h.kept.responds ?_ hresponds, ?_⟩
  · rcases hsafe s.cluster (.refl _) with hwrites | ⟨hfinalizers, _⟩
    · exact .inl hwrites
    · exact .inr hfinalizers
  · intro p hp
    rw [← Option.some.inj hp]
    exact hnext answer w ⟨s.cluster, .refl _, h.kept, hresponds⟩

theorem FinalizerKept.step [DecidableEq σ] {act : Act σ} (h : FinalizerKept c s)
    (hok : act.Undisturbed c s) (hstep : System.Step c s act s') : FinalizerKept c s' := by
  cases hstep with
  | event e =>
      obtain ⟨hkept, hbeside⟩ := h.kept.happen hok
      refine ⟨hkept, ?_⟩
      intro p hp
      have htrans : ∀ w w' w'' : Cluster σ, Beside c w w' → Beside c w' w'' → Beside c w w'' :=
        fun _ _ _ => Beside.trans
      exact Program.WP.others htrans (fun _ _ _ _ _ => trivial) (h.running p hp) hbeside
  | start copy hcopy hrunning =>
      refine ⟨h.kept, ?_⟩
      intro p hp
      rw [← Option.some.inj hp]
      have hcareful : Careful c s.cluster (c.reconcile copy) := careful_reconcile h.kept hcopy
      exact Program.wp_mono (fun _ _ _ => trivial) hcareful
  | respond op answer w next hrunning hresponds => exact h.respond hrunning hresponds
  | stop =>
      refine ⟨h.kept, ?_⟩
      intro p hp
      cases hp

theorem FinalizerKept.destroysFirst (h : FinalizerKept c s) : c.DestroysFirst s := by
  rintro ⟨finalizers, p, hnot, hrunning, next, rfl⟩ r hr
  obtain ⟨hsafe, _⟩ := h.running _ hrunning
  rcases hsafe s.cluster (.refl _) with hwrites | ⟨_, v, hv, hsettled⟩
  · exact absurd hwrites hnot
  · have hmem := h.kept.coherent.current_mem r hr
    have hdone := hsettled.congr (h.kept.coherent.sameDeployment hv hmem)
    obtain ⟨d, hd, _, hdeleted⟩ := hdone.metadata
    exact ⟨hdone.destroyed, d, hd, hdeleted⟩

end

/-! ## A deletion in a cluster -/

/-- A destroy job has been submitted for a deleted resource. -/
def destroyStarted : Cluster String :=
  let deleted := localCluster.happenAll [.delete "1970-01-01T00:00:00.000Z"]
  (localController.reconciled localDeployments deleted (deleted.current.getD webResource)).happenAll
    [.tick 60000]

def takesFinalizerOff : Operation String → Bool
  | .patchFinalizers finalizers => !finalizers.contains finalizerName
  | _ => false

/-- The check of the destroy job, up to the removal of the finalizer. -/
def destroyChecked (w : Cluster String) : Option (Cluster String × Underway String) :=
  Program.executeUntil (localController.answer localDeployments) takesFinalizerOff w
    (localController.reconcile (w.current.getD webResource) ())

theorem reaches_destroyStarted {ok : System String → Act String → Prop}
    (hok : ∀ s op answer w', localController.answer localDeployments s.cluster op =
      some (answer, w') → ok s (.respond op answer))
    (hstop : ∀ s, ok s .stop) (hstart : ∀ s copy, ok s (.start copy))
    (hdelete : ∀ s deletionTimestamp, ok s (.event (.delete deletionTimestamp)))
    (htick : ∀ s milliseconds, ok s (.event (.tick milliseconds))) :
    Reaches (System.Step localController) ok ⟨localCluster, none⟩ ⟨destroyStarted, none⟩ := by
  have hdeleted : Reaches (System.Step localController) ok ⟨localCluster, none⟩
      ⟨localCluster.happenAll [.delete "1970-01-01T00:00:00.000Z"], none⟩ := by
    refine reaches_happenAll ?_ _
    intro s e he
    rw [List.mem_singleton.1 he]
    exact hdelete s _
  let deleted := localCluster.happenAll [.delete "1970-01-01T00:00:00.000Z"]
  let submitted := localController.reconciled localDeployments deleted
    (deleted.current.getD webResource)
  have hsubmitted : Reaches (System.Step localController) ok ⟨deleted, none⟩ ⟨submitted, none⟩ :=
    reaches_reconciled hok hstop (hstart _ _) (by decide +kernel) (by decide +kernel)
  have hlater : Reaches (System.Step localController) ok ⟨submitted, none⟩
      ⟨submitted.happenAll [.tick 60000], none⟩ := by
    refine reaches_happenAll ?_ _
    intro s e he
    rw [List.mem_singleton.1 he]
    exact htick s _
  exact (hdeleted.trans hsubmitted).trans hlater

theorem reaches_destroyChecked {ok : System String → Act String → Prop}
    (hok : ∀ s op answer w', localController.answer localDeployments s.cluster op =
      some (answer, w') → ok s (.respond op answer))
    {w : Cluster String} (hstart : ok ⟨w, none⟩ (.start (w.current.getD webResource)))
    (hcopy : w.current.getD webResource ∈ w.versions) (h : (destroyChecked w).isSome = true) :
    ∃ s, Reaches (System.Step localController) ok ⟨w, none⟩ s ∧ s.RemovesFinalizer ∧
      some s.cluster = (destroyChecked w).map Prod.fst := by
  obtain ⟨⟨w', p⟩, hexecute⟩ := Option.isSome_iff_exists.1 h
  have hstarted : System.Step localController ⟨w, none⟩ (.start (w.current.getD webResource))
      ⟨w, some (localController.reconcile (w.current.getD webResource) ())⟩ := .start _ _ hcopy rfl
  refine ⟨⟨w', some p⟩, Reaches.cons hstart hstarted (reaches_executeUntil hok hexecute), ?_, ?_⟩
  · obtain ⟨op, hpause, hcalls⟩ := Program.calls_of_executeUntil hexecute
    cases op with
    | patchFinalizers finalizers =>
        refine ⟨finalizers, p, ?_, rfl, hcalls⟩
        simpa [takesFinalizerOff] using hpause
    | _ => cases hpause
  · rw [hexecute]
    rfl

/-- In a run in which the records of the deployment are those of the operator's destroy job from its
submission on, the finalizer is taken off only when that job has succeeded and the deployment is
deleted. -/
theorem finalizer_removed_last [DecidableEq σ] {c : Controller} {s s' : System σ} (hs : s.Initial)
    (h : Reaches (System.Step c) (Act.Undisturbed c) s s') : c.DestroysFirst s' := by
  have hkept : FinalizerKept c s' :=
    h.invariant (fun _ _ _ hinv hok hstep => hinv.step hok hstep) hs.finalizerKept
  exact hkept.destroysFirst

theorem finalizer_removed_last_web : ∃ s : System String, s.RemovesFinalizer ∧
    localController.DestroysFirst s := by
  let record := endedJob "job-1" .successful true
  have hok : ∀ (s : System String) op answer w', localController.answer localDeployments s.cluster op =
      some (answer, w') → Act.Undisturbed localController s (.respond op answer) :=
    fun _ _ _ _ _ => trivial
  have hstarted := reaches_destroyStarted hok (fun _ => trivial) (fun _ _ => trivial)
    (fun _ _ => trivial) (fun _ _ => trivial)
  have hrecord : Act.Undisturbed localController ⟨destroyStarted, none⟩ (.event (.record record)) := by
    intro job hjob _ _
    have hlast : destroyStarted.lastDestroy.map Job.jobId = some "job-1" := by decide +kernel
    rw [hjob] at hlast
    refine ⟨(Option.some.inj hlast).symm, fun _ => rfl, ?_⟩
    intro m hm
    have hstatus : (destroyStarted.metadata record.deploymentId record.environment).map
        DeploymentResp.status = some .requested := by decide +kernel
    rw [hm] at hstatus
    rw [Option.some.inj hstatus]
    decide
  have hended : Reaches (System.Step localController) (Act.Undisturbed localController)
      ⟨destroyStarted, none⟩ ⟨destroyStarted.happen (.record record), none⟩ :=
    .single ⟨_, hrecord, System.Step.event _ _⟩
  obtain ⟨s, hreach, hremoves, _⟩ := reaches_destroyChecked hok
    (w := destroyStarted.happen (.record record)) trivial (by decide +kernel) (by decide +kernel)
  exact ⟨s, hremoves, finalizer_removed_last localCluster_initial
    ((hstarted.trans hended).trans hreach)⟩

/-- The destroy job fails, and another client applies the deployment again: its success is taken for
that of the destroy job. -/
theorem not_destroysFirst_applied : ¬ ∀ (c : Controller) (s s' : System String), s.Initial →
    Reaches (System.Step c) (fun _ _ => True) s s' → c.DestroysFirst s' := by
  intro h
  let applied : Cluster String := destroyStarted.happenAll
    [.record (endedJob "job-1" .failed false), .record (endedJob "cli-1" .successful false)]
  have hstarted : Reaches (System.Step localController) (fun _ _ => True) ⟨localCluster, none⟩
      ⟨destroyStarted, none⟩ :=
    reaches_destroyStarted (fun _ _ _ _ _ => trivial) (fun _ => trivial) (fun _ _ => trivial)
      (fun _ _ => trivial) (fun _ _ => trivial)
  have happlied : Reaches (System.Step localController) (fun _ _ => True) ⟨destroyStarted, none⟩
      ⟨applied, none⟩ := reaches_happenAll (fun _ _ _ => trivial) _
  have hchecked : ∃ s, Reaches (System.Step localController) (fun _ _ => True) ⟨applied, none⟩ s ∧
      s.RemovesFinalizer ∧ some s.cluster = (destroyChecked applied).map Prod.fst :=
    reaches_destroyChecked (fun _ _ _ _ _ => trivial) trivial (by decide +kernel) (by decide +kernel)
  obtain ⟨s, hreach, hremoves, hcluster⟩ := hchecked
  have hfirst := h localController _ s localCluster_initial ((hstarted.trans happlied).trans hreach)
    hremoves
  -- At that moment the last record is that of the other client.
  have hkept : ((destroyChecked applied).map Prod.fst).any (fun w => w.current.any fun r =>
      (localController.metadataOf w r).all fun d => !d.deleted) = true := by decide +kernel
  rw [← hcluster, Option.any_some] at hkept
  cases hr : s.cluster.current with
  | none =>
      rw [hr] at hkept
      cases hkept
  | some r =>
      obtain ⟨_, d, hd, hdeleted⟩ := hfirst r hr
      rw [hr, Option.any_some, hd, Option.all_some, hdeleted] at hkept
      cases hkept

end Operator
end InfraWeave
