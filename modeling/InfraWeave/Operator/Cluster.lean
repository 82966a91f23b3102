import InfraWeave.Operator.Reconcile

/-!
# The operator in a cluster

A system is the cluster with the one custom resource, the records of the deployments, and the
reconciliation that is under way: a controller has at most one for an object at a time.  Between
two of its requests users edit or delete the resource, runners and other clients store records, and
time passes; the operator may be stopped and started at any point.
-/

namespace InfraWeave
namespace Operator

/-- A job that the operator has submitted, with the copy of the resource that is its claim. -/
structure Job (σ : Type) where
  jobId : String
  command : String
  resource : Resource σ

structure Cluster (σ : Type) where
  /-- The object, until it is gone. -/
  current : Option (Resource σ)
  /-- All that the object has been, the newest first.  A cache has one of them. -/
  versions : List (Resource σ)
  submitted : List (Job σ)
  /-- The METADATA records that have been stored for a deployment of an environment, the newest
  first. -/
  records : String → String → List DeploymentResp
  /-- In milliseconds. -/
  now : Nat

/-- What happens besides the operator. -/
inductive Event (σ : Type) where
  | edit (spec : σ) (finalizers : List String)
  | delete (deletionTimestamp : String)
  | record (deployment : DeploymentResp)
  | tick (milliseconds : Nat)

namespace Cluster

variable {σ : Type}

/-- An object that is deleted is gone with its last finalizer. -/
def put (w : Cluster σ) (r : Resource σ) : Cluster σ :=
  { w with
    current := if r.IsDeleted ∧ r.finalizers = [] then none else some r
    versions := r :: w.versions }

def metadata (w : Cluster σ) (deploymentId environment : String) : Option DeploymentResp :=
  (w.records deploymentId environment).head?

def store (w : Cluster σ) (d : DeploymentResp) : Cluster σ :=
  { w with
    records := fun deploymentId environment =>
      if deploymentId = d.deploymentId ∧ environment = d.environment then
        d :: w.records deploymentId environment
      else w.records deploymentId environment }

section

variable [DecidableEq σ]

/-- The cluster counts the generations: every change of the specification is a new one, and so is
the deletion. -/
def edited (r : Resource σ) (spec : σ) (finalizers : List String) : Resource σ :=
  { r with
    spec
    finalizers
    generation := if r.spec = spec then r.generation else r.generation.map (· + 1) }

def deleted (r : Resource σ) (deletionTimestamp : String) : Resource σ :=
  if r.IsDeleted then r
  else
    { r with
      deletionTimestamp := some deletionTimestamp
      generation := r.generation.map (· + 1) }

def happen (w : Cluster σ) : Event σ → Cluster σ
  | .edit spec finalizers => w.current.elim w fun r => w.put (edited r spec finalizers)
  | .delete deletionTimestamp => w.current.elim w fun r => w.put (deleted r deletionTimestamp)
  | .record d => w.store d
  | .tick milliseconds => { w with now := w.now + milliseconds }

end

/-- A job has been submitted: the request is stored as the record of the deployment. -/
def submit (w : Cluster σ) (job : Job σ) (request : DeploymentResp) : Cluster σ :=
  { w.store request with submitted := w.submitted ++ [job] }

end Cluster

namespace Controller

variable (c : Controller) {σ : Type}

/-- The deployment that the claim of a resource is for. -/
def deploymentId (r : Resource σ) : String :=
  Text.toLowercase c.kind ++ "/" ++ r.name.getD ""

/-- The record with which a submission begins. -/
structure IsRequest (r : Resource σ) (environment jobId : String) (d : DeploymentResp) : Prop where
  status : d.status = .requested
  jobId : d.jobId = jobId
  deploymentId : d.deploymentId = c.deploymentId r
  environment : d.environment = environment
  deleted : d.deleted = false

/-- How a cluster may answer a request, and what becomes of it.  A request that fails may have been
carried out all the same, except for a claim. -/
def Responds (w : Cluster σ) : (op : Operation σ) → op.Answer → Cluster σ → Prop
  | .get, answer, w' => w' = w ∧ ∀ r, answer = .ok r → w.current = some r
  | .patchStatus patch, answer, w' =>
      (∃ r, w.current = some r ∧ w' = w.put (r.mergeStatus patch)) ∨
        (∃ e, answer = .error e) ∧ w' = w
  | .patchFinalizers finalizers, answer, w' =>
      (∃ r, w.current = some r ∧ w' = w.put { r with finalizers }) ∨
        (∃ e, answer = .error e) ∧ w' = w
  | .runClaim r environment command, .ok (jobId, deploymentId), w' =>
      deploymentId = c.deploymentId r ∧
        ∃ d, c.IsRequest r environment jobId d ∧ w' = w.submit ⟨jobId, command, r⟩ d
  | .runClaim _ _ _, .error _, w' => w' = w
  | .cloud (.getDeployment deploymentId environment includeDeleted), answer, w' =>
      w' = w ∧ ∀ found, answer = .ok found →
        found = (w.metadata deploymentId environment).filter fun d => includeDeleted || !d.deleted
  | .cloud _, _, w' => w' = w
  | .getChangeRecord _ _ _ _, _, w' => w' = w
  | .readLogs _, _, w' => w' = w
  | .now, answer, w' => w' = w ∧ answer = w.now

end Controller

/-- What is left of a reconciliation. -/
abbrev Underway (σ : Type) :=
  Program (Operation σ) Operation.Answer (Except String Action × Unit)

structure System (σ : Type) where
  cluster : Cluster σ
  running : Option (Underway σ)

inductive Act (σ : Type) where
  | event (e : Event σ)
  /-- The controller hands over a copy of its cache. -/
  | start (copy : Resource σ)
  | respond (op : Operation σ) (answer : op.Answer)
  /-- A reconciliation ends, or the operator is stopped in the middle of it. -/
  | stop

namespace System

variable {σ : Type} [DecidableEq σ] (c : Controller)

inductive Step : System σ → Act σ → System σ → Prop
  | event (s : System σ) (e : Event σ) : Step s (.event e) { s with cluster := s.cluster.happen e }
  | start (s : System σ) (copy : Resource σ) (hcopy : copy ∈ s.cluster.versions)
      (hrunning : s.running = none) :
      Step s (.start copy) { s with running := some (c.reconcile copy ()) }
  | respond (s : System σ) (op : Operation σ) (answer : op.Answer) (w : Cluster σ)
      (next : op.Answer → Underway σ) (hrunning : s.running = some (.call op next))
      (hresponds : c.Responds s.cluster op answer w) :
      Step s (.respond op answer) ⟨w, some (next answer)⟩
  | stop (s : System σ) : Step s .stop { s with running := none }

/-- The resource has just been created.  There may be records of its deployment already. -/
structure Initial (s : System σ) : Prop where
  running : s.running = none
  created : ∃ r, s.cluster.current = some r ∧ s.cluster.versions = [r] ∧ r.generation = some 1 ∧
    r.name.isSome = true ∧ ¬ r.IsDeleted ∧ r.status = .empty
  submitted : s.cluster.submitted = []

end System

/-! ## What every run keeps -/

section

variable {σ : Type} {w w' w'' : Cluster σ} {c : Controller}

/-- What has been is not forgotten. -/
structure Later (w w' : Cluster σ) : Prop where
  versions : ∀ v ∈ w.versions, v ∈ w'.versions
  submitted : ∀ job ∈ w.submitted, job ∈ w'.submitted

theorem Later.refl (w : Cluster σ) : Later w w :=
  ⟨fun _ hv => hv, fun _ hjob => hjob⟩

theorem Later.trans (h : Later w w') (h' : Later w' w'') : Later w w'' :=
  ⟨fun v hv => h'.versions v (h.versions v hv), fun job hjob => h'.submitted job (h.submitted job hjob)⟩

theorem later_put (w : Cluster σ) (r : Resource σ) : Later w (w.put r) :=
  ⟨fun _ hv => List.mem_cons_of_mem r hv, fun _ hjob => hjob⟩

theorem mem_put {w : Cluster σ} {r' : Resource σ} {p : Resource σ → Prop}
    (h : ∀ v ∈ w.versions, p v) (hp : p r') : ∀ v ∈ (w.put r').versions, p v := by
  intro v hv
  rcases List.mem_cons.1 hv with rfl | hv
  · exact hp
  · exact h v hv

theorem eq_of_current_put {w : Cluster σ} {r r' : Resource σ} (h : (w.put r').current = some r) :
    r = r' := by
  simp only [Cluster.put] at h
  split at h
  · cases h
  · exact (Option.some.inj h).symm

theorem later_submit (w : Cluster σ) (job : Job σ) (d : DeploymentResp) : Later w (w.submit job d) :=
  ⟨fun _ hv => hv, fun _ hjob => List.mem_append_left _ hjob⟩

theorem later_happen [DecidableEq σ] (w : Cluster σ) (e : Event σ) : Later w (w.happen e) := by
  cases e with
  | edit spec finalizers =>
      cases hcurrent : w.current with
      | none => simpa [Cluster.happen, hcurrent] using Later.refl w
      | some r => simpa [Cluster.happen, hcurrent] using later_put w _
  | delete deletionTimestamp =>
      cases hcurrent : w.current with
      | none => simpa [Cluster.happen, hcurrent] using Later.refl w
      | some r => simpa [Cluster.happen, hcurrent] using later_put w _
  | record d => exact ⟨fun _ hv => hv, fun _ hjob => hjob⟩
  | tick milliseconds => exact ⟨fun _ hv => hv, fun _ hjob => hjob⟩

/-- What a request does to the cluster. -/
theorem Controller.Responds.cases_on {op : Operation σ} {answer : op.Answer}
    (h : c.Responds w op answer w') :
    w' = w ∨
      (∃ r patch, op = .patchStatus patch ∧ w.current = some r ∧ w' = w.put (r.mergeStatus patch)) ∨
      (∃ r finalizers, op = .patchFinalizers finalizers ∧ w.current = some r ∧
        w' = w.put { r with finalizers }) ∨
      ∃ r environment command jobId d, op = .runClaim r environment command ∧
        c.IsRequest r environment jobId d ∧ w' = w.submit ⟨jobId, command, r⟩ d := by
  cases op with
  | get => exact .inl h.1
  | patchStatus patch =>
      rcases h with ⟨r, hr, heq⟩ | ⟨_, heq⟩
      · exact .inr (.inl ⟨r, patch, rfl, hr, heq⟩)
      · exact .inl heq
  | patchFinalizers finalizers =>
      rcases h with ⟨r, hr, heq⟩ | ⟨_, heq⟩
      · exact .inr (.inr (.inl ⟨r, finalizers, rfl, hr, heq⟩))
      · exact .inl heq
  | runClaim r environment command =>
      cases answer with
      | ok found =>
          obtain ⟨jobId, deploymentId⟩ := found
          obtain ⟨_, d, hd, heq⟩ := h
          exact .inr (.inr (.inr ⟨r, environment, command, jobId, d, rfl, hd, heq⟩))
      | error e => exact .inl h
  | cloud request =>
      cases request with
      | getDeployment _ _ _ => exact .inl h.1
      | getJobStatus _ => exact .inl h
      | runFunction _ => exact .inl h
      | sendDeployment _ => exact .inl h
      | getCurrentJobId => exact .inl h
      | terraform _ => exact .inl h
  | getChangeRecord _ _ _ _ => exact .inl h
  | readLogs _ => exact .inl h
  | now => exact .inl h.1

theorem Controller.Responds.later {op : Operation σ} {answer : op.Answer}
    (h : c.Responds w op answer w') : Later w w' := by
  rcases h.cases_on with rfl | ⟨r, patch, _, _, rfl⟩ | ⟨r, finalizers, _, _, rfl⟩ |
    ⟨r, environment, command, jobId, d, _, _, rfl⟩
  · exact .refl w'
  · exact later_put w _
  · exact later_put w _
  · exact later_submit w _ d

/-- The versions of the object belong together. -/
structure Coherent (w : Cluster σ) : Prop where
  current_mem : ∀ r, w.current = some r → r ∈ w.versions
  generation : ∀ v ∈ w.versions, ∃ n, v.generation = some n
  le_current : ∀ r, w.current = some r → ∀ v ∈ w.versions,
    v.metadataGeneration ≤ r.metadataGeneration
  spec_eq : ∀ v ∈ w.versions, ∀ v' ∈ w.versions, v.metadataGeneration = v'.metadataGeneration →
    v.spec = v'.spec
  name_eq : ∀ v ∈ w.versions, ∀ v' ∈ w.versions, v.name = v'.name ∧ v.inNamespace = v'.inNamespace
  job_mem : ∀ job ∈ w.submitted, job.resource ∈ w.versions

/-- A version follows another one: with the same generation and the same specification, or with the
next generation. -/
structure Follows (r r' : Resource σ) : Prop where
  name : r'.name = r.name
  inNamespace : r'.inNamespace = r.inNamespace
  generation : r'.generation = r.generation ∧ r'.spec = r.spec ∨
    r'.generation = r.generation.map (· + 1)

theorem Coherent.put (h : Coherent w) {r r' : Resource σ} (hr : w.current = some r)
    (hfollows : Follows r r') : Coherent (w.put r') := by
  have hmem := h.current_mem r hr
  obtain ⟨n, hn⟩ := h.generation r hmem
  -- The generation of the new version is that of the last one or the next one.
  have hgeneration : ∃ n', r'.generation = some n' ∧
      (n' = n ∧ r'.spec = r.spec ∨ n' = n + 1) := by
    rcases hfollows.generation with ⟨heq, hspec⟩ | heq
    · exact ⟨n, heq.trans hn, .inl ⟨rfl, hspec⟩⟩
    · exact ⟨n + 1, by simp [heq, hn], .inr rfl⟩
  obtain ⟨n', hn', hcases⟩ := hgeneration
  have hr' : r'.metadataGeneration = n' := by simp [Resource.metadataGeneration, hn']
  have hrn : r.metadataGeneration = n := by simp [Resource.metadataGeneration, hn]
  have hle : ∀ v ∈ w.versions, v.metadataGeneration ≤ n := fun v hv => hrn ▸ h.le_current r hr v hv
  have hnew : ∀ v ∈ w.versions, v.metadataGeneration = r'.metadataGeneration → v.spec = r'.spec := by
    intro v hv heq
    rcases hcases with ⟨hsame, hspec⟩ | hnext
    · have hvr : v.metadataGeneration = r.metadataGeneration := by rw [heq, hr', hrn, hsame]
      exact (h.spec_eq v hv r hmem hvr).trans hspec.symm
    · have hbound := hle v hv
      omega
  have hname : ∀ v ∈ w.versions, v.name = r'.name ∧ v.inNamespace = r'.inNamespace := by
    intro v hv
    have hsame := h.name_eq v hv r hmem
    exact ⟨hsame.1.trans hfollows.name.symm, hsame.2.trans hfollows.inNamespace.symm⟩
  have hcurrent : ∀ r₁, (w.put r').current = some r₁ → r₁ = r' := by
    intro r₁ hr₁
    simp only [Cluster.put] at hr₁
    split at hr₁
    · cases hr₁
    · exact (Option.some.inj hr₁).symm
  refine ⟨?_, ?_, ?_, ?_, ?_, ?_⟩
  · intro r₁ hr₁
    exact List.mem_cons.2 (.inl (hcurrent r₁ hr₁))
  · intro v hv
    rcases List.mem_cons.1 hv with rfl | hv
    · exact ⟨n', hn'⟩
    · exact h.generation v hv
  · intro r₁ hr₁ v hv
    rw [hcurrent r₁ hr₁]
    rcases List.mem_cons.1 hv with rfl | hv
    · exact le_rfl
    · have hbound := hle v hv
      omega
  · intro v hv v' hv' heq
    rcases List.mem_cons.1 hv with rfl | hold <;> rcases List.mem_cons.1 hv' with rfl | hold'
    · rfl
    · exact (hnew v' hold' heq.symm).symm
    · exact hnew v hold heq
    · exact h.spec_eq v hold v' hold' heq
  · intro v hv v' hv'
    rcases List.mem_cons.1 hv with rfl | hold <;> rcases List.mem_cons.1 hv' with rfl | hold'
    · exact ⟨rfl, rfl⟩
    · exact ⟨(hname v' hold').1.symm, (hname v' hold').2.symm⟩
    · exact hname v hold
    · exact h.name_eq v hold v' hold'
  · exact fun job hjob => List.mem_cons_of_mem r' (h.job_mem job hjob)

theorem follows_mergeStatus (r : Resource σ) (patch : StatusPatch) : Follows r (r.mergeStatus patch) :=
  ⟨rfl, rfl, .inl ⟨rfl, rfl⟩⟩

theorem follows_finalizers (r : Resource σ) (finalizers : List String) :
    Follows r { r with finalizers } :=
  ⟨rfl, rfl, .inl ⟨rfl, rfl⟩⟩

theorem follows_edited [DecidableEq σ] (r : Resource σ) (spec : σ) (finalizers : List String) :
    Follows r (Cluster.edited r spec finalizers) := by
  refine ⟨rfl, rfl, ?_⟩
  by_cases hspec : r.spec = spec
  · exact .inl ⟨if_pos hspec, hspec.symm⟩
  · exact .inr (if_neg hspec)

theorem follows_deleted (r : Resource σ) (deletionTimestamp : String) :
    Follows r (Cluster.deleted r deletionTimestamp) := by
  unfold Cluster.deleted
  split
  · exact ⟨rfl, rfl, .inl ⟨rfl, rfl⟩⟩
  · exact ⟨rfl, rfl, .inr rfl⟩

theorem Coherent.happen [DecidableEq σ] (h : Coherent w) (e : Event σ) : Coherent (w.happen e) := by
  cases e with
  | edit spec finalizers =>
      cases hcurrent : w.current with
      | none => simpa [Cluster.happen, hcurrent] using h
      | some r =>
          simpa [Cluster.happen, hcurrent] using h.put hcurrent (follows_edited r spec finalizers)
  | delete deletionTimestamp =>
      cases hcurrent : w.current with
      | none => simpa [Cluster.happen, hcurrent] using h
      | some r =>
          simpa [Cluster.happen, hcurrent] using h.put hcurrent (follows_deleted r deletionTimestamp)
  | record d => exact ⟨h.1, h.2, h.3, h.4, h.5, h.6⟩
  | tick milliseconds => exact ⟨h.1, h.2, h.3, h.4, h.5, h.6⟩

/-- A claim is a version of the object. -/
theorem Coherent.responds (h : Coherent w) {op : Operation σ} {answer : op.Answer}
    (hclaim : ∀ r environment command, op = .runClaim r environment command → r ∈ w.versions)
    (hresponds : c.Responds w op answer w') : Coherent w' := by
  rcases hresponds.cases_on with rfl | ⟨r, patch, _, hr, rfl⟩ | ⟨r, finalizers, _, hr, rfl⟩ |
    ⟨r, environment, command, jobId, d, hop, _, rfl⟩
  · exact h
  · exact h.put hr (follows_mergeStatus r patch)
  · exact h.put hr (follows_finalizers r finalizers)
  · have hr := hclaim r environment command hop
    refine ⟨h.1, h.2, h.3, h.4, h.5, ?_⟩
    intro job hjob
    rcases List.mem_append.1 hjob with hjob | hjob
    · exact h.job_mem job hjob
    · rw [List.mem_singleton.1 hjob]
      exact hr

theorem System.Initial.coherent {s : System σ} (h : s.Initial) : Coherent s.cluster := by
  obtain ⟨r, hcurrent, hversions, hgeneration, _⟩ := h.created
  have hmem : ∀ v ∈ s.cluster.versions, v = r := by
    intro v hv
    rw [hversions] at hv
    exact List.mem_singleton.1 hv
  have hr : ∀ r₁, s.cluster.current = some r₁ → r₁ = r := fun r₁ hr₁ =>
    Option.some.inj (hr₁.symm.trans hcurrent)
  refine ⟨?_, ?_, ?_, ?_, ?_, ?_⟩
  · intro r₁ hr₁
    rw [hr r₁ hr₁, hversions]
    exact List.mem_singleton_self r
  · intro v hv
    rw [hmem v hv]
    exact ⟨1, hgeneration⟩
  · intro r₁ hr₁ v hv
    rw [hr r₁ hr₁, hmem v hv]
  · intro v hv v' hv' _
    rw [hmem v hv, hmem v' hv']
  · intro v hv v' hv'
    rw [hmem v hv, hmem v' hv']
    exact ⟨rfl, rfl⟩
  · rw [h.submitted]
    exact fun _ hjob => absurd hjob List.not_mem_nil

end

/-! ## Executions -/

/-- The answers to claims, and the record that a submission begins with. -/
structure Deployments where
  claim : List String → String → Except String String
  request : DeploymentResp

section

variable {σ : Type} (c : Controller) (deployments : Deployments)

/-- The cluster answers what it knows; a claim is answered by the commands that have been submitted
so far, and change records and logs are not there yet. -/
def Controller.answer (w : Cluster σ) : (op : Operation σ) → Option (op.Answer × Cluster σ)
  | .get => some (w.current.elim (.error "NotFound") .ok, w)
  | .patchStatus patch =>
      w.current.elim (some (.error "NotFound", w)) fun r => some (.ok (), w.put (r.mergeStatus patch))
  | .patchFinalizers finalizers =>
      w.current.elim (some (.error "NotFound", w)) fun r => some (.ok (), w.put { r with finalizers })
  | .runClaim r environment command =>
      match deployments.claim (w.submitted.map Job.command) command with
      | .error e => some (.error e, w)
      | .ok jobId =>
          some (.ok (jobId, c.deploymentId r), w.submit ⟨jobId, command, r⟩
            { deployments.request with
              status := .requested
              jobId
              deploymentId := c.deploymentId r
              environment
              deleted := false })
  | .cloud (.getDeployment deploymentId environment includeDeleted) =>
      some (.ok ((w.metadata deploymentId environment).filter fun d => includeDeleted || !d.deleted), w)
  | .cloud _ => none
  | .getChangeRecord _ _ _ _ => some (.error "NotFound", w)
  | .readLogs _ => some (.ok [], w)
  | .now => some (w.now, w)

variable {c deployments} {w w' : Cluster σ}

theorem responds_of_answer {op : Operation σ} {answer : op.Answer}
    (h : c.answer deployments w op = some (answer, w')) : c.Responds w op answer w' := by
  cases op with
  | get =>
      cases h
      refine ⟨rfl, fun r hr => ?_⟩
      cases hcurrent : w.current with
      | none => simp [hcurrent] at hr
      | some r' => simpa [hcurrent] using hr
  | patchStatus patch =>
      cases hcurrent : w.current with
      | none =>
          simp only [Controller.answer, hcurrent, Option.elim, Option.some.injEq, Prod.mk.injEq] at h
          exact .inr ⟨⟨_, h.1.symm⟩, h.2.symm⟩
      | some r =>
          simp only [Controller.answer, hcurrent, Option.elim, Option.some.injEq, Prod.mk.injEq] at h
          exact .inl ⟨r, hcurrent, h.2.symm⟩
  | patchFinalizers finalizers =>
      cases hcurrent : w.current with
      | none =>
          simp only [Controller.answer, hcurrent, Option.elim, Option.some.injEq, Prod.mk.injEq] at h
          exact .inr ⟨⟨_, h.1.symm⟩, h.2.symm⟩
      | some r =>
          simp only [Controller.answer, hcurrent, Option.elim, Option.some.injEq, Prod.mk.injEq] at h
          exact .inl ⟨r, hcurrent, h.2.symm⟩
  | runClaim r environment command =>
      cases hclaim : deployments.claim (w.submitted.map Job.command) command with
      | error e =>
          simp only [Controller.answer, hclaim, Option.some.injEq, Prod.mk.injEq] at h
          rw [← h.1]
          exact h.2.symm
      | ok jobId =>
          simp only [Controller.answer, hclaim, Option.some.injEq, Prod.mk.injEq] at h
          rw [← h.1]
          exact ⟨rfl, _, ⟨rfl, rfl, rfl, rfl, rfl⟩, h.2.symm⟩
  | cloud request =>
      cases request with
      | getDeployment deploymentId environment includeDeleted =>
          cases h
          exact ⟨rfl, fun found hfound => (Except.ok.inj hfound).symm⟩
      | getJobStatus _ => cases h
      | runFunction _ => cases h
      | sendDeployment _ => cases h
      | getCurrentJobId => cases h
      | terraform _ => cases h
  | getChangeRecord _ _ _ _ =>
      cases h
      rfl
  | readLogs _ =>
      cases h
      rfl
  | now =>
      cases h
      exact ⟨rfl, rfl⟩

/-- What an execution of a reconciliation does, the system can do. -/
theorem reaches_execute [DecidableEq σ] {ok : System σ → Act σ → Prop}
    (hok : ∀ s op answer w', c.answer deployments s.cluster op = some (answer, w') →
      ok s (.respond op answer))
    {p : Underway σ} {trace : List (Sigma (Operation.Answer (σ := σ)))}
    {result : Except String Action × Unit}
    (h : Program.execute (c.answer deployments) w p = some (trace, w', result)) :
    Reaches (System.Step c) ok ⟨w, some p⟩ ⟨w', some (.done result)⟩ := by
  induction p generalizing w trace with
  | done a =>
      simp only [Program.execute, Option.some.injEq, Prod.mk.injEq] at h
      obtain ⟨_, rfl, rfl⟩ := h
      exact .refl
  | call op next ih =>
      unfold Program.execute at h
      split at h
      · cases h
      · rename_i answer w₁ hanswer
        obtain ⟨⟨rest, w₂, b⟩, hrest, heq⟩ := Option.map_eq_some_iff.1 h
        simp only [Prod.mk.injEq] at heq
        obtain ⟨_, rfl, rfl⟩ := heq
        have hstep : System.Step c ⟨w, some (.call op next)⟩ (.respond op answer)
            ⟨w₁, some (next answer)⟩ := .respond _ op answer w₁ next rfl (responds_of_answer hanswer)
        exact Reaches.cons (hok _ op answer w₁ hanswer) hstep (ih answer hrest)

theorem reaches_executeUntil [DecidableEq σ] {ok : System σ → Act σ → Prop}
    (hok : ∀ s op answer w', c.answer deployments s.cluster op = some (answer, w') →
      ok s (.respond op answer))
    {pause : Operation σ → Bool} {p p' : Underway σ}
    (h : Program.executeUntil (c.answer deployments) pause w p = some (w', p')) :
    Reaches (System.Step c) ok ⟨w, some p⟩ ⟨w', some p'⟩ := by
  induction p generalizing w with
  | done a => cases h
  | call op next ih =>
      unfold Program.executeUntil at h
      split at h
      · cases h
        exact .refl
      · obtain ⟨⟨answer, w₁⟩, hanswer, hrest⟩ := Option.bind_eq_some_iff.1 h
        have hstep : System.Step c ⟨w, some (.call op next)⟩ (.respond op answer)
            ⟨w₁, some (next answer)⟩ := .respond _ op answer w₁ next rfl (responds_of_answer hanswer)
        exact Reaches.cons (hok _ op answer w₁ hanswer) hstep (ih answer hrest)

variable (c deployments)

/-- The cluster after a whole reconciliation. -/
def Controller.reconciled (w : Cluster σ) (copy : Resource σ) : Cluster σ :=
  ((Program.execute (c.answer deployments) w (c.reconcile copy ())).map fun r => r.2.1).getD w

variable {c deployments}

theorem reaches_reconciled [DecidableEq σ] {ok : System σ → Act σ → Prop}
    (hok : ∀ s op answer w', c.answer deployments s.cluster op = some (answer, w') →
      ok s (.respond op answer))
    (hstop : ∀ s, ok s .stop) {copy : Resource σ} (hstart : ok ⟨w, none⟩ (.start copy))
    (hcopy : copy ∈ w.versions)
    (h : (Program.execute (c.answer deployments) w (c.reconcile copy ())).isSome = true) :
    Reaches (System.Step c) ok ⟨w, none⟩ ⟨c.reconciled deployments w copy, none⟩ := by
  obtain ⟨⟨trace, w', result⟩, hexecute⟩ := Option.isSome_iff_exists.1 h
  have heq : c.reconciled deployments w copy = w' := by
    simp [Controller.reconciled, hexecute]
  rw [heq]
  refine Reaches.cons hstart (System.Step.start ⟨w, none⟩ copy hcopy rfl) ?_
  refine (reaches_execute hok hexecute).trans ?_
  exact .single ⟨.stop, hstop _, System.Step.stop _⟩

def Cluster.happenAll [DecidableEq σ] (w : Cluster σ) (events : List (Event σ)) : Cluster σ :=
  events.foldl Cluster.happen w

theorem reaches_happenAll [DecidableEq σ] {c : Controller} {ok : System σ → Act σ → Prop}
    {events : List (Event σ)} (hok : ∀ s, ∀ e ∈ events, ok s (.event e)) (w : Cluster σ) :
    Reaches (System.Step c) ok ⟨w, none⟩ ⟨w.happenAll events, none⟩ := by
  induction events generalizing w with
  | nil => exact .refl
  | cons e events ih =>
      have hrest := ih (fun s e' he' => hok s e' (List.mem_cons_of_mem e he')) (w.happen e)
      exact Reaches.cons (hok _ e List.mem_cons_self) (System.Step.event ⟨w, none⟩ e) hrest

end

/-- The texts of the first days. -/
def localClock : Clock where
  epochToTimestamp := fun n =>
    let digits := fun (width k : Nat) =>
      String.ofList ((List.range width).reverse.map fun i => Nat.digitChar (k / 10 ^ i % 10))
    "1970-01-" ++ digits 2 (1 + n / 86400000) ++ "T" ++ digits 2 (n / 3600000 % 24) ++ ":" ++
      digits 2 (n / 60000 % 60) ++ ":" ++ digits 2 (n / 1000 % 60) ++ "." ++ digits 3 (n % 1000) ++ "Z"
  parseFromRfc3339 := fun s =>
    let value := fun (cs : List Char) => cs.foldl (fun n c => 10 * n + (c.toNat - 48)) 0
    match s.toList.drop 8 with
    | [d, d', 'T', h, h', ':', m, m', ':', s, s', '.', x, y, z, 'Z'] =>
        some (((((value [d, d'] - 1) * 24 + value [h, h']) * 60 + value [m, m']) * 60 +
          value [s, s']) * 1000 + value [x, y, z] : Nat)
    | _ => none

def localController : Controller :=
  ⟨"local", "Web", localClock⟩

def webResource : Resource String :=
  ⟨some "a", some "default", some 1, none, [finalizerName], "moduleVersion: 1.0.0", .empty⟩

def localCluster : Cluster String :=
  ⟨some webResource, [webResource], [], fun _ _ => [], 0⟩

theorem localCluster_initial : System.Initial (⟨localCluster, none⟩ : System String) := by
  refine ⟨rfl, ⟨webResource, rfl, rfl, rfl, rfl, ?_, rfl⟩, rfl⟩
  exact fun h => by cases h

/-- Every claim is accepted. -/
def localDeployments : Deployments :=
  ⟨fun submitted _ => .ok ("job-" ++ toString (submitted.length + 1)), EnvCommon.webDeployment⟩

/-- The record of a job that has ended. -/
def endedJob (jobId : String) (status : DeploymentStatus) (deleted : Bool) : DeploymentResp :=
  { EnvCommon.webDeployment with jobId, status, environment := "k8s-local/default", deleted }

end Operator
end InfraWeave
