import InfraWeave.Operator.Cluster
import InfraWeave.Operator.Requests

/-!
# Retries

The operator announces when it looks at a failed job again by the time after which it wants to be
called.  It keeps no job back itself: whoever calls it earlier finds a resource without a job.  A
ledger beside the system counts the jobs and remembers what was announced.
-/

namespace InfraWeave
namespace Operator

open Process

variable {σ : Type}

structure Ledger where
  /-- The jobs that were submitted since the last reset of the retries or the last edit. -/
  jobs : Nat
  /-- The time until which the operator has said that it waits, in milliseconds. -/
  notBefore : Nat
  /-- A job has failed and counts as a retry; it has not been submitted again. -/
  owed : Bool

namespace Ledger

def empty : Ledger :=
  ⟨0, 0, false⟩

theorem empty_not_owed : ¬ empty.owed = true :=
  Bool.false_ne_true

theorem empty_jobs_ne_one : empty.jobs ≠ 1 :=
  Nat.zero_ne_one

/-- The retries are reset, or a retry is counted. -/
def patched (l : Ledger) (patch : StatusPatch) : Ledger :=
  if patch.lastFailureEpoch = some none then { l with jobs := 0 }
  else if patch.resourceStatus = none ∧ patch.retryCount.isSome = true then { l with owed := true }
  else l

def submitted (l : Ledger) : Ledger :=
  { l with jobs := l.jobs + 1, owed := false }

def respond (l : Ledger) : (op : Operation σ) → op.Answer → Ledger
  | .runClaim _ _ _, .ok _ => l.submitted
  | .patchStatus patch, .ok _ => l.patched patch
  | _, _ => l

/-- Waits of a minute and more are those for a retry. -/
def announce (l : Ledger) (now : Nat) : Option (Underway σ) → Ledger
  | some (.done (.ok (.requeue seconds), _)) =>
      if 60 ≤ seconds then { l with notBefore := now + 1000 * seconds } else l
  | _ => l

/-- An edit of the specification starts anew.  With the deletion the job to submit is another one. -/
def after [DecidableEq σ] (l : Ledger) (s : System σ) : Act σ → Ledger
  | .event (.edit spec _) => if s.cluster.current.any (·.spec ≠ spec) then empty else l
  | .event (.delete _) =>
      if s.cluster.current.any (·.deletionTimestamp.isNone) then { l with notBefore := 0, owed := false }
      else l
  | .respond op answer => l.respond op answer
  | .stop => l.announce s.cluster.now s.running
  | _ => l

end Ledger

/-- A reconciliation of the resource goes on to submit a job. -/
def Controller.Submits (c : Controller) (r : Resource σ) : Prop :=
  ∃ (environment command : String) (next : Except String (Resource σ) → Underway σ),
    c.reconcile r () = .call .get next ∧ (next (.ok r)).Calls (.runClaim r environment command)

/-- What the operator owes the user: no more than four jobs, none before the time that it has
announced, and a job that has failed is submitted again. -/
structure Ledger.IsKept (c : Controller) (s : System σ) (l : Ledger) : Prop where
  jobs : l.jobs ≤ 4
  notBefore : ∀ p r environment command, s.running = some p →
    p.Calls (.runClaim r environment command) → l.notBefore ≤ s.cluster.now
  owed : l.owed = true → s.running = none → ∀ r, s.cluster.current = some r → c.Submits r

def Tracked (c : Controller) [DecidableEq σ] (sl : System σ × Ledger) (act : Act σ)
    (sl' : System σ × Ledger) : Prop :=
  System.Step c sl.1 act sl'.1 ∧ sl'.2 = sl.2.after sl.1 act

/-- The cluster carries out what it is asked, an accepted job has a name, and a job that is found
failed is one that destroys, with fewer than four jobs so far. -/
def Regular (w : Cluster σ) (l : Ledger) : (op : Operation σ) → op.Answer → Prop
  | .get, answer => ∃ r, answer = .ok r
  | .patchStatus _, answer => answer = .ok ()
  | .patchFinalizers _, answer => answer = .ok ()
  | .runClaim _ _ _, .ok (jobId, _) => jobId ≠ ""
  | .cloud (.getDeployment _ _ _), .ok (some d) => Controller.isFailure d.status.text = true →
      (∀ r, w.current = some r → r.IsDeleted) ∧ l.jobs ≤ 3
  | _, _ => True

/-- The operator is called when it has asked for it, with the resource as it is, and is not stopped;
the user leaves the finalizer of the operator, and the resource while the operator is at work. -/
def Act.Patient (sl : System σ × Ledger) : Act σ → Prop
  | .start copy => sl.1.cluster.current = some copy ∧ sl.2.notBefore ≤ sl.1.cluster.now
  | .event (.edit _ finalizers) => sl.1.running = none ∧ ∀ r, sl.1.cluster.current = some r →
      (finalizers.contains finalizerName = r.hasFinalizer)
  | .event (.delete _) => sl.1.running = none
  | .event _ => True
  | .respond op answer => Regular sl.1.cluster sl.2 op answer
  | .stop => ∀ p, sl.1.running = some p → p.HasEnded

/-! ## Resources that are ready to be reconciled -/

/-- The next job is the first one of its generation, or a destroy job of which there may be one
more. -/
structure Ready (r : Resource σ) (l : Ledger) : Prop where
  name : r.name.isSome = true
  generation : 0 < r.metadataGeneration
  jobs : l.jobs ≤ 4
  alive : ¬ r.IsDeleted → l.jobs ≤ 1 ∧
    (l.jobs = 1 → r.status.lastGeneration = some r.metadataGeneration)
  deleting : r.IsDeleted → r.hasFinalizer = true →
    r.isDestroyJob = false ∨ r.status.currentJobId = "" → l.jobs ≤ 3
  owed : l.owed = true → r.IsDeleted ∧ r.hasFinalizer = true ∧ r.status.currentJobId = ""

/-- Nobody else touches the object. -/
structure Still (γ γ' : Cluster σ × Ledger) : Prop where
  current : γ'.1.current = γ.1.current
  now : γ.1.now ≤ γ'.1.now
  ledger : γ'.2 = γ.2

theorem Still.refl (γ : Cluster σ × Ledger) : Still γ γ :=
  ⟨rfl, le_rfl, rfl⟩

theorem Still.trans {γ γ' γ'' : Cluster σ × Ledger} (h : Still γ γ') (h' : Still γ' γ'') :
    Still γ γ'' :=
  ⟨h'.current.trans h.current, h.now.trans h'.now, h'.ledger.trans h.ledger⟩

/-- The resource is `r`, and the time that was announced has come. -/
structure At (r : Resource σ) (l : Ledger) (γ : Cluster σ × Ledger) : Prop where
  current : γ.1.current = some r
  ledger : γ.2 = l
  now : l.notBefore ≤ γ.1.now

def IsReady (γ : Cluster σ × Ledger) : Prop :=
  ∀ r, γ.1.current = some r → Ready r γ.2

section

variable (c : Controller) {r : Resource σ} {l : Ledger} {α β : Type}

def retrying : Environment (Operation σ) Operation.Answer (Cluster σ × Ledger) :=
  Environment.interleaved
    { step := fun γ op answer γ' => Regular γ.1 γ.2 op answer ∧ c.Responds γ.1 op answer γ'.1 ∧
        γ'.2 = γ.2.respond op answer
      safe := fun γ op => op.isClaim = true → γ.2.jobs ≤ 3 ∧ γ.2.notBefore ≤ γ.1.now } Still

/-- From the resource `r` the rest of a reconciliation leaves a resource that is ready. -/
def Leaves (r : Resource σ) (l : Ledger) (x : Reconciliation σ α) : Prop :=
  ∀ γ, At r l γ → WP (retrying c) (fun γ' _ _ => IsReady γ') γ () x

variable {c}

theorem At.still {γ γ' : Cluster σ × Ledger} (h : At r l γ) (hstill : Still γ γ') : At r l γ' :=
  ⟨hstill.current.trans h.current, hstill.ledger.trans h.ledger, h.now.trans hstill.now⟩

theorem leaves_pure (h : Ready r l) (a : α) : Leaves c r l (pure a : Reconciliation σ α) := by
  intro γ hat r' hr'
  rw [hat.current] at hr'
  rw [← Option.some.inj hr', hat.ledger]
  exact h

theorem leaves_stop (h : Ready r l) (e : String) : Leaves c r l (stop e : Reconciliation σ α) := by
  intro γ hat r' hr'
  rw [hat.current] at hr'
  rw [← Option.some.inj hr', hat.ledger]
  exact h

/-- A request that goes on with its answer. -/
theorem leaves_request_bind {op : Operation σ} {result : op.Answer → Except String α}
    {f : α → Reconciliation σ β}
    (hsafe : op.isClaim = true → l.jobs ≤ 3)
    (hf : ∀ γ answer γ', At r l γ → Regular γ.1 l op answer → c.Responds γ.1 op answer γ'.1 →
      γ'.2 = l.respond op answer → ∃ a, result answer = .ok a ∧
        WP (retrying c) (fun γ'' _ _ => IsReady γ'') γ' () (f a)) :
    Leaves c r l (request op result >>= f) := by
  intro γ hat
  have hrequest : WP (retrying c) (fun γ' r _ => ∃ a, r = .ok a ∧
      WP (retrying c) (fun γ'' _ _ => IsReady γ'') γ' () (f a)) γ () (request op result) := by
    refine wp_request.2 ⟨?_, ?_⟩
    · intro γ₁ hstill hclaim
      have hat₁ := hat.still hstill
      rw [hat₁.ledger]
      exact ⟨hsafe hclaim, hat₁.now⟩
    · rintro answer γ' ⟨γ₁, hstill, hregular, hresponds, hledger⟩
      have hat₁ := hat.still hstill
      rw [hat₁.ledger] at hregular hledger
      exact hf γ₁ answer γ' hat₁ hregular hresponds hledger
  refine wp_bind hrequest ?_ ?_
  · rintro γ' a s ⟨a', heq, hrest⟩
    rw [Except.ok.inj heq]
    exact hrest
  · rintro γ' e s ⟨a', heq, _⟩
    cases heq

/-! ## Requests -/

theorem leaves_getEpoch_bind {f : Nat → Reconciliation σ β} (hf : ∀ now, Leaves c r l (f now)) :
    Leaves c r l (Controller.getEpoch >>= f) := by
  refine leaves_request_bind nofun ?_
  rintro γ answer γ' hat _ ⟨heq, _⟩ hledger
  exact ⟨answer, rfl, hf answer γ' ⟨heq ▸ hat.current, hledger, heq ▸ hat.now⟩⟩

theorem leaves_readLogs_bind {jobId : String} {f : Except String (List String) → Reconciliation σ β}
    (hf : ∀ answer, Leaves c r l (f answer)) : Leaves c r l (Controller.readLogs jobId >>= f) := by
  refine leaves_request_bind nofun ?_
  intro γ answer γ' hat _ heq hledger
  have hsame : γ'.1 = γ.1 := heq
  exact ⟨answer, rfl, hf answer γ' ⟨hsame ▸ hat.current, hledger, hsame ▸ hat.now⟩⟩

theorem leaves_getChangeRecord_bind {environment deploymentId jobId changeType : String}
    {f : Option String → Reconciliation σ β} (hf : ∀ answer, Leaves c r l (f answer)) :
    Leaves c r l (Controller.getChangeRecord environment deploymentId jobId changeType >>= f) := by
  refine leaves_request_bind nofun ?_
  intro γ answer γ' hat _ heq hledger
  have hsame : γ'.1 = γ.1 := heq
  exact ⟨answer.toOption, rfl, hf _ γ' ⟨hsame ▸ hat.current, hledger, hsame ▸ hat.now⟩⟩

theorem leaves_get_bind {f : Resource σ → Reconciliation σ β} (hf : Leaves c r l (f r)) :
    Leaves c r l (Controller.get >>= f) := by
  refine leaves_request_bind nofun ?_
  rintro γ answer γ' hat ⟨r', rfl⟩ ⟨heq, hanswer⟩ hledger
  have hcurrent := hanswer r' rfl
  rw [hat.current] at hcurrent
  refine ⟨r', rfl, ?_⟩
  rw [← Option.some.inj hcurrent]
  exact hf γ' ⟨heq ▸ hat.current, hledger, heq ▸ hat.now⟩

@[simp] theorem Ledger.notBefore_patched (l : Ledger) (patch : StatusPatch) :
    (l.patched patch).notBefore = l.notBefore := by
  unfold Ledger.patched
  split
  · rfl
  · split <;> rfl

/-- The object with a finalizer is still there after a patch. -/
theorem leaves_patchStatus_bind {patch : StatusPatch} {f : Unit → Reconciliation σ β}
    (hfinalizer : r.hasFinalizer = true)
    (hf : Leaves c (r.mergeStatus patch) (l.patched patch) (f ())) :
    Leaves c r l (Controller.patchStatus patch >>= f) := by
  refine leaves_request_bind nofun ?_
  rintro γ answer γ' hat rfl hresponds hledger
  refine ⟨(), rfl, hf γ' ⟨?_, hledger, ?_⟩⟩
  · rcases hresponds with ⟨r', hr', heq⟩ | ⟨⟨e, he⟩, _⟩
    · rw [hat.current] at hr'
      have hne : (r'.mergeStatus patch).finalizers ≠ [] := by
        intro hnil
        have hold : r.finalizers = [] := by
          rw [Option.some.inj hr']
          exact hnil
        rw [Resource.hasFinalizer, hold] at hfinalizer
        cases hfinalizer
      rw [heq, Option.some.inj hr']
      exact if_neg fun h => hne h.2
    · cases he
  · rw [Ledger.notBefore_patched]
    rcases hresponds with ⟨r', _, heq⟩ | ⟨⟨e, he⟩, _⟩
    · rw [heq]
      exact hat.now
    · cases he

/-- Without its last finalizer, a deleted object is gone. -/
theorem leaves_patchFinalizers_bind {finalizers : List String} {f : Unit → Reconciliation σ β}
    (hf : Leaves c { r with finalizers } l (f ()))
    (hgone : ∀ γ : Cluster σ × Ledger, γ.1.current = none →
      WP (retrying c) (fun γ' _ _ => IsReady γ') γ () (f ())) :
    Leaves c r l (Controller.patchFinalizers finalizers >>= f) := by
  refine leaves_request_bind nofun ?_
  rintro γ answer γ' hat rfl hresponds hledger
  refine ⟨(), rfl, ?_⟩
  rcases hresponds with ⟨r', hr', heq⟩ | ⟨⟨e, he⟩, _⟩
  · rw [hat.current] at hr'
    have hr := Option.some.inj hr'
    subst hr
    by_cases hdeleted : r.IsDeleted ∧ finalizers = []
    · refine hgone γ' ?_
      rw [heq]
      exact if_pos hdeleted
    · refine hf γ' ⟨?_, hledger, ?_⟩
      · rw [heq]
        exact if_neg hdeleted
      · rw [heq]
        exact hat.now
  · cases he

theorem leaves_runClaim_bind {fresh : Resource σ} {environment command : String}
    {f : Except String (String × String) → Reconciliation σ β} (hjobs : l.jobs ≤ 3)
    (hok : ∀ jobId deploymentId, jobId ≠ "" → Leaves c r l.submitted (f (.ok (jobId, deploymentId))))
    (herror : ∀ e, Leaves c r l (f (.error e))) :
    Leaves c r l (Controller.runClaim fresh environment command >>= f) := by
  refine leaves_request_bind (fun _ => hjobs) ?_
  intro γ answer γ' hat hregular hresponds hledger
  refine ⟨answer, rfl, ?_⟩
  cases answer with
  | error e =>
      have hsame : γ'.1 = γ.1 := hresponds
      exact herror e γ' ⟨hsame ▸ hat.current, hledger, hsame ▸ hat.now⟩
  | ok found =>
      obtain ⟨jobId, deploymentId⟩ := found
      obtain ⟨_, d, _, heq⟩ := hresponds
      refine hok jobId deploymentId hregular γ' ⟨?_, hledger, ?_⟩
      · rw [heq]
        exact hat.current
      · rw [heq]
        exact hat.now

/-! ## Parts that only read -/

theorem leaves_getTimestamp_bind {f : String → Reconciliation σ β}
    (hf : ∀ now, Leaves c r l (f now)) : Leaves c r l (c.getTimestamp >>= f) := by
  rw [Controller.getTimestamp, Process.bind_assoc]
  exact leaves_getEpoch_bind fun now => hf _

theorem leaves_updateTime_bind {depl : Option DeploymentResp} {f : String → Reconciliation σ β}
    (hf : ∀ updateTime, Leaves c r l (f updateTime)) : Leaves c r l (c.updateTime depl >>= f) := by
  cases depl with
  | none => exact leaves_getTimestamp_bind hf
  | some d => exact hf _

theorem leaves_secondsSinceLastCheck_bind {status : ResourceStatus}
    {f : Option Int → Reconciliation σ β} (hf : ∀ seconds, Leaves c r l (f seconds)) :
    Leaves c r l (c.secondsSinceLastCheck status >>= f) := by
  unfold Controller.secondsSinceLastCheck
  dsimp only
  split
  · exact hf none
  · split
    · exact hf none
    · rw [Process.bind_assoc]
      exact leaves_getEpoch_bind fun now => hf _

/-- What is read of the deployment is failed only where a job may fail. -/
theorem leaves_inProgress_bind {deploymentId environment : String}
    {f : Bool × String × String × Option DeploymentResp → Reconciliation σ β}
    (hf : ∀ found, (Controller.isFailure found.2.2.1 = true → r.IsDeleted ∧ l.jobs ≤ 3) →
      Leaves c r l (f found)) :
    Leaves c r l (Controller.onCloud (EnvCommon.isDeploymentInProgress deploymentId environment
      false true) >>= f) := by
  intro γ hat
  refine ⟨fun _ _ => nofun, ?_⟩
  rintro answer γ' ⟨γ₁, hstill, hregular, ⟨heq, _⟩, hledger⟩
  have hat₁ := hat.still hstill
  have hat' : At r l γ' := ⟨heq ▸ hat₁.current, hledger.trans hat₁.ledger, heq ▸ hat₁.now⟩
  have hnone : Controller.isFailure "" = true → r.IsDeleted ∧ l.jobs ≤ 3 := nofun
  cases answer with
  | error e => exact hf _ hnone γ' hat'
  | ok found =>
      cases found with
      | none => exact hf _ hnone γ' hat'
      | some d =>
          have hfailure : Controller.isFailure d.status.text = true → r.IsDeleted ∧ l.jobs ≤ 3 := by
            intro h
            obtain ⟨hdeleted, hjobs⟩ := hregular h
            exact ⟨hdeleted r hat₁.current, hat₁.ledger ▸ hjobs⟩
          by_cases hbusy : d.status.isBusy = true
          · simp only [hbusy, if_true]
            exact hf _ hfailure γ' hat'
          · simp only [hbusy]
            exact hf _ hfailure γ' hat'

/-- The status is written from the resource as it is. -/
theorem leaves_updateResourceStatus_bind {status lastDeploymentUpdate message jobId : String}
    {f : Unit → Reconciliation σ β} (hname : r.name.isSome = true) (hfinalizer : r.hasFinalizer = true)
    (hf : ∀ name now, Leaves c
      (r.mergeStatus (c.statusPatch r name status lastDeploymentUpdate message jobId now)) l (f ())) :
    Leaves c r l (c.updateResourceStatus r status lastDeploymentUpdate message jobId >>= f) := by
  obtain ⟨name, hsome⟩ := Option.isSome_iff_exists.1 hname
  unfold Controller.updateResourceStatus
  rw [hsome]
  change Leaves c r l ((c.getTimestamp >>= fun now => _) >>= f)
  rw [Process.bind_assoc]
  refine leaves_getTimestamp_bind fun now => ?_
  rw [Process.bind_assoc]
  refine leaves_patchStatus_bind hfinalizer ?_
  rw [Process.bind_assoc]
  exact leaves_get_bind (hf name now)

theorem leaves_fetchLogsOnly (hfinalizer : r.hasFinalizer = true) (jobId : String)
    (h : ∀ logs, Ready (r.mergeStatus { logs := some logs }) l) :
    Leaves c r l (Controller.fetchLogsOnly jobId) := by
  unfold Controller.fetchLogsOnly Controller.fetchJobLogs
  rw [Process.bind_assoc]
  refine leaves_readLogs_bind fun answer => ?_
  have hpatch : ∀ logs, Leaves c r l (Controller.patchStatus { logs := some logs } >>= fun _ =>
      (pure (.requeue 10) : Reconciliation σ Action)) := fun logs =>
    leaves_patchStatus_bind hfinalizer (leaves_pure (h logs) _)
  split <;> exact hpatch _

/-! ## Applies -/

/-- A job of the generation has been submitted, or none. -/
theorem Ready.applied (h : Ready r l) (halive : ¬ r.IsDeleted) {patch : StatusPatch}
    (hgeneration : patch.lastGeneration = some r.metadataGeneration) {l' : Ledger}
    (hjobs : l'.jobs ≤ 1) (howed : l'.owed = false) : Ready (r.mergeStatus patch) l' := by
  refine ⟨h.name, h.generation, by omega, ?_, ?_, ?_⟩
  · intro _
    refine ⟨hjobs, fun _ => ?_⟩
    simp only [Resource.mergeStatus, ResourceStatus.merge, hgeneration, Option.some_or]
    rfl
  · exact fun hdeleted => absurd hdeleted halive
  · intro h'
    rw [howed] at h'
    cases h'

theorem Ready.minor (h : Ready r l) (halive : ¬ r.IsDeleted) {patch : StatusPatch}
    (hgeneration : patch.lastGeneration = none) {l' : Ledger} (hjobs : l'.jobs = 0 ∨ l' = l)
    (howed : l'.owed = false) : Ready (r.mergeStatus patch) l' := by
  have hlast : (r.mergeStatus patch).status.lastGeneration = r.status.lastGeneration := by
    simp [Resource.mergeStatus, ResourceStatus.merge, hgeneration]
  have halives := h.alive halive
  refine ⟨h.name, h.generation, ?_, ?_, ?_, ?_⟩
  · rcases hjobs with hzero | rfl <;> omega
  · intro _
    rw [hlast]
    rcases hjobs with hzero | rfl
    · exact ⟨by omega, fun hone => by omega⟩
    · exact halives
  · exact fun hdeleted => absurd hdeleted halive
  · intro h'
    rw [howed] at h'
    cases h'

theorem Ready.not_owed (h : Ready r l) (hnot : ¬ (r.IsDeleted ∧ r.status.currentJobId = "")) :
    l.owed = false := by
  refine Bool.eq_false_iff.2 fun howed => hnot ?_
  exact ⟨(h.owed howed).1, (h.owed howed).2.2⟩

theorem leaves_clearStuckState (h : Ready r l) (halive : ¬ r.IsDeleted)
    (hfinalizer : r.hasFinalizer = true) : Leaves c r l (c.clearStuckState r) := by
  refine leaves_secondsSinceLastCheck_bind fun seconds => ?_
  cases seconds with
  | none => exact leaves_pure h _
  | some seconds =>
      dsimp only
      split
      · refine leaves_patchStatus_bind hfinalizer (leaves_pure ?_ _)
        exact h.minor halive rfl (.inr rfl) (h.not_owed fun hboth => halive hboth.1)
      · exact leaves_pure h _

theorem leaves_startApplyJob (h : Ready r l) (halive : ¬ r.IsDeleted)
    (hfinalizer : r.hasFinalizer = true) (hchanged : ¬ r.GenerationUnchanged) (environment : String) :
    Leaves c r l (c.startApplyJob r environment) := by
  obtain ⟨hone, hlast⟩ := h.alive halive
  -- A job of the generation would have left it in the status.
  have hzero : l.jobs = 0 := by
    by_contra hne
    have hgeneration := hlast (by omega)
    refine hchanged ⟨?_, ?_⟩
    · rw [ResourceStatus.observedGeneration, hgeneration]
      rfl
    · rw [ResourceStatus.observedGeneration, hgeneration]
      exact h.generation
  have howed := h.not_owed fun hboth => halive hboth.1
  refine leaves_runClaim_bind (by omega) ?_ ?_
  · intro jobId deploymentId _
    refine leaves_getTimestamp_bind fun now => ?_
    refine leaves_updateResourceStatus_bind h.name hfinalizer fun name now => leaves_pure ?_ _
    exact h.applied halive rfl (by simp only [Ledger.submitted]; omega) rfl
  · intro e
    refine leaves_getTimestamp_bind fun now => ?_
    refine leaves_updateResourceStatus_bind h.name hfinalizer fun name now => leaves_stop ?_ _
    exact h.applied halive rfl hone howed

theorem leaves_completeApplyJob (h : Ready r l) (halive : ¬ r.IsDeleted)
    (hfinalizer : r.hasFinalizer = true) {deplStatus : String}
    (hfailure : Controller.isFailure deplStatus = false) (environment : String)
    (depl : Option DeploymentResp) :
    Leaves c r l (c.completeApplyJob r r environment deplStatus depl) := by
  have howed := h.not_owed fun hboth => halive hboth.1
  have hone := (h.alive halive).1
  refine leaves_updateTime_bind fun updateTime => leaves_getChangeRecord_bind fun changeRecord => ?_
  dsimp only
  rw [hfailure]
  split
  next hfalse => cases hfalse
  split
  · refine leaves_updateResourceStatus_bind h.name hfinalizer fun name now => ?_
    have happlied : Ready (r.mergeStatus (c.statusPatch r name ("Apply - " ++ deplStatus) updateTime
        (Controller.applyMessage depl changeRecord) "" now)) l := h.applied halive rfl hone howed
    split
    · refine leaves_patchStatus_bind hfinalizer (leaves_pure ?_ _)
      exact happlied.minor halive rfl (.inl rfl) howed
    · exact leaves_pure happlied _
  · refine leaves_updateResourceStatus_bind h.name hfinalizer fun name now => leaves_pure ?_ _
    exact h.applied halive rfl hone howed

theorem leaves_checkApplyJob (h : Ready r l) (halive : ¬ r.IsDeleted)
    (hfinalizer : r.hasFinalizer = true) (environment : String) :
    Leaves c r l (c.checkApplyJob r r environment) := by
  have howed := h.not_owed fun hboth => halive hboth.1
  have hone := (h.alive halive).1
  refine leaves_secondsSinceLastCheck_bind fun seconds => ?_
  split
  · exact leaves_fetchLogsOnly hfinalizer _ fun logs => h.minor halive rfl (.inr rfl) howed
  · refine leaves_inProgress_bind fun found hfailure => ?_
    have hnot : Controller.isFailure found.2.2.1 = false :=
      Bool.eq_false_iff.2 fun hfails => halive (hfailure hfails).1
    dsimp only
    split
    · refine leaves_getTimestamp_bind fun now => ?_
      refine leaves_updateResourceStatus_bind h.name hfinalizer fun name now => leaves_pure ?_ _
      exact h.applied halive rfl hone howed
    · split
      · refine leaves_updateTime_bind fun updateTime => ?_
        refine leaves_updateResourceStatus_bind h.name hfinalizer fun name now => leaves_pure ?_ _
        exact h.applied halive rfl hone howed
      · exact leaves_completeApplyJob h halive hfinalizer hnot environment _

theorem leaves_reconcileResourceNonblocking (h : Ready r l) (halive : ¬ r.IsDeleted)
    (hfinalizer : r.hasFinalizer = true) (environment : String) :
    Leaves c r l (c.reconcileResourceNonblocking r environment) := by
  refine leaves_get_bind ?_
  split
  · split
    · exact leaves_clearStuckState h halive hfinalizer
    · split
      · exact leaves_pure h _
      next hchanged => exact leaves_startApplyJob h halive hfinalizer hchanged environment
  · exact leaves_checkApplyJob h halive hfinalizer environment

/-! ## Deletions -/

/-- Without a job, there may be one more. -/
theorem Ready.cleared (h : Ready r l) (hdeleted : r.IsDeleted) (hfinalizer : r.hasFinalizer = true)
    {patch : StatusPatch} (hjob : patch.jobId = some "") {l' : Ledger} (hjobs : l'.jobs ≤ 3) :
    Ready (r.mergeStatus patch) l' := by
  refine ⟨h.name, h.generation, by omega, fun halive => absurd hdeleted halive, fun _ _ _ => hjobs, ?_⟩
  intro _
  refine ⟨hdeleted, hfinalizer, ?_⟩
  simp [Resource.mergeStatus, ResourceStatus.merge, ResourceStatus.currentJobId, hjob]

/-- A destroy job has been submitted, and has not ended. -/
theorem Ready.destroying (h : Ready r l) (hdeleted : r.IsDeleted) {patch : StatusPatch}
    {status jobId : String} (hstatus : patch.resourceStatus = some status)
    (hcontains : Text.contains status "Delete" = true) (hjob : patch.jobId = some jobId)
    (hne : jobId ≠ "") {l' : Ledger} (hjobs : l'.jobs ≤ 4) (howed : l'.owed = false) :
    Ready (r.mergeStatus patch) l' := by
  refine ⟨h.name, h.generation, hjobs, fun halive => absurd hdeleted halive, ?_, ?_⟩
  · intro _ _ hnext
    exfalso
    rcases hnext with hnot | hempty
    · simp only [Resource.isDestroyJob, Resource.mergeStatus, ResourceStatus.merge,
        ResourceStatus.currentStatus, hstatus, Option.some_or, Option.getD_some, hcontains,
        Bool.true_eq_false] at hnot
    · simp only [Resource.mergeStatus, ResourceStatus.merge, ResourceStatus.currentJobId, hjob,
        Option.some_or, Option.getD_some] at hempty
      exact hne hempty
  · intro h'
    rw [howed] at h'
    cases h'

theorem leaves_handleFailure (h : Ready r l) (hdeleted : r.IsDeleted)
    (hfinalizer : r.hasFinalizer = true) (hjobs : l.jobs ≤ 3)
    (heading deplStatus updateTime message jobId : String) (retryCount : Int)
    (keptLogs : Option String) :
    Leaves c r l (c.handleFailure r heading deplStatus updateTime message jobId retryCount keptLogs) := by
  unfold Controller.handleFailure
  split
  · refine leaves_updateResourceStatus_bind h.name hfinalizer fun name now => ?_
    refine leaves_patchStatus_bind hfinalizer (leaves_pure ?_ _)
    -- The retry is counted, and the job is cleared.
    refine ⟨h.name, h.generation, ?_, fun halive => absurd hdeleted halive, fun _ _ _ => hjobs, ?_⟩
    · exact le_trans hjobs (by omega)
    · exact fun _ => ⟨hdeleted, hfinalizer, rfl⟩
  · refine leaves_getEpoch_bind fun nowEpoch => ?_
    dsimp only
    split
    · exact leaves_patchStatus_bind hfinalizer (leaves_pure (h.cleared hdeleted hfinalizer rfl hjobs) _)
    · split
      · refine leaves_patchStatus_bind hfinalizer (leaves_pure ?_ _)
        exact h.cleared hdeleted hfinalizer rfl (Nat.zero_le 3)
      · exact leaves_patchStatus_bind hfinalizer
          (leaves_pure (h.cleared hdeleted hfinalizer rfl hjobs) _)

theorem leaves_completeDestroyJob (h : Ready r l) (hdeleted : r.IsDeleted)
    (hfinalizer : r.hasFinalizer = true) (howed : l.owed = false) {deplStatus : String}
    (hfailure : Controller.isFailure deplStatus = true → l.jobs ≤ 3) (depl : Option DeploymentResp) :
    Leaves c r l (c.completeDestroyJob r deplStatus depl) := by
  refine leaves_updateTime_bind fun updateTime => ?_
  dsimp only
  split
  next hfails => exact leaves_handleFailure h hdeleted hfinalizer (hfailure hfails) _ _ _ _ _ _ _
  split
  · refine leaves_updateResourceStatus_bind h.name hfinalizer fun name now => ?_
    refine leaves_patchFinalizers_bind (leaves_pure ?_ _) ?_
    · refine ⟨h.name, h.generation, h.jobs, fun halive => absurd hdeleted halive, ?_, ?_⟩
      · intro _ hstill
        simp [Resource.hasFinalizer] at hstill
      · intro h'
        rw [howed] at h'
        cases h'
    · intro γ hgone r' hr'
      rw [hgone] at hr'
      cases hr'
  · exact leaves_pure h _

theorem leaves_checkDestroyJob (h : Ready r l) (hdeleted : r.IsDeleted)
    (hfinalizer : r.hasFinalizer = true) (hjob : r.status.currentJobId ≠ "") (environment : String) :
    Leaves c r l (c.checkDestroyJob r environment) := by
  have howed := h.not_owed fun hboth => hjob hboth.2
  refine leaves_secondsSinceLastCheck_bind fun seconds => ?_
  split
  · refine leaves_fetchLogsOnly hfinalizer _ fun logs => ?_
    refine ⟨h.name, h.generation, h.jobs, fun halive => absurd hdeleted halive, h.deleting, ?_⟩
    intro h'
    rw [howed] at h'
    cases h'
  · refine leaves_inProgress_bind fun found hfailure => ?_
    dsimp only
    split
    · refine leaves_updateTime_bind fun updateTime => ?_
      refine leaves_updateResourceStatus_bind h.name hfinalizer fun name now => leaves_pure ?_ _
      exact h.destroying hdeleted rfl (by decide) rfl hjob h.jobs howed
    · exact leaves_completeDestroyJob h hdeleted hfinalizer howed (fun hfails => (hfailure hfails).2) _

theorem leaves_startDestroyJob (h : Ready r l) (hdeleted : r.IsDeleted)
    (hfinalizer : r.hasFinalizer = true) (hjobs : l.jobs ≤ 3) (environment : String) :
    Leaves c r l (c.startDestroyJob environment : Reconciliation σ Action) := by
  refine leaves_get_bind (leaves_runClaim_bind hjobs ?_ fun e => leaves_stop h e)
  intro jobId deploymentId hne
  refine leaves_getTimestamp_bind fun now => ?_
  refine leaves_updateResourceStatus_bind h.name hfinalizer fun name now => leaves_pure ?_ _
  exact h.destroying hdeleted rfl (by decide) rfl hne (by simp only [Ledger.submitted]; omega) rfl

theorem leaves_reconcile (h : Ready r l) : Leaves c r l (c.reconcile r) := by
  obtain ⟨name, hname⟩ := Option.isSome_iff_exists.1 h.name
  unfold Controller.reconcile
  rw [hname]
  dsimp only
  split
  next hdeleted =>
    split
    next hfinalizer =>
      unfold Controller.handleResourceDeletionNonblocking
      split
      next hstart =>
        refine leaves_startDestroyJob h hdeleted hfinalizer (h.deleting hdeleted hfinalizer ?_) _
        simpa using hstart
      next hcheck =>
        simp only [Bool.or_eq_true, Bool.not_eq_true', beq_iff_eq, not_or,
          Bool.not_eq_false] at hcheck
        exact leaves_checkDestroyJob h hdeleted hfinalizer hcheck.2 _
    next => exact leaves_pure h _
  next halive =>
    split
    next hfinalizer => exact leaves_reconcileResourceNonblocking h halive hfinalizer _
    next =>
      have howed := h.not_owed fun hboth => halive hboth.1
      refine leaves_patchFinalizers_bind (leaves_pure ?_ _) ?_
      · refine ⟨h.name, h.generation, h.jobs, h.alive, fun hdeleted => absurd hdeleted halive, ?_⟩
        intro h'
        rw [howed] at h'
        cases h'
      · intro γ hgone r' hr'
        rw [hgone] at hr'
        cases hr'

/-- A job that is owed is submitted at once. -/
theorem submits_of_owed (h : Ready r l) (howed : l.owed = true) : c.Submits r := by
  obtain ⟨hdeleted, hfinalizer, hjob⟩ := h.owed howed
  obtain ⟨name, hname⟩ := Option.isSome_iff_exists.1 h.name
  have hstart : c.reconcile r = c.startDestroyJob (c.environment r) := by
    unfold Controller.reconcile Controller.handleResourceDeletionNonblocking
    rw [hname]
    simp only [hdeleted, hfinalizer, hjob, if_true, beq_self_eq_true, Bool.or_true]
  refine ⟨c.environment r, "destroy", _, congrFun hstart (), ?_⟩
  exact ⟨_, rfl⟩

/-! ## Runs -/

theorem Ready.congr {l' : Ledger} (h : Ready r l) (hjobs : l'.jobs = l.jobs)
    (howed : l'.owed = l.owed) : Ready r l' := by
  refine ⟨h.name, h.generation, ?_, ?_, ?_, ?_⟩
  · rw [hjobs]
    exact h.jobs
  · rw [hjobs]
    exact h.alive
  · rw [hjobs]
    exact h.deleting
  · rw [howed]
    exact h.owed

theorem isReady_put {w : Cluster σ} {r' : Resource σ} (h : Ready r' l) : IsReady (w.put r', l) := by
  intro r hr
  rw [eq_of_current_put hr]
  exact h

structure RetriesKept (c : Controller) (sl : System σ × Ledger) : Prop where
  jobs : sl.2.jobs ≤ 4
  ready : sl.1.running = none → IsReady (sl.1.cluster, sl.2)
  running : ∀ p, sl.1.running = some p →
    Program.WP (retrying c) (fun γ _ => IsReady γ) (sl.1.cluster, sl.2) p

variable {s s' : System σ}

theorem System.Initial.retriesKept (h : s.Initial) : RetriesKept c (s, Ledger.empty) := by
  obtain ⟨r, hcurrent, _, hgeneration, hname, halive, hstatus⟩ := h.created
  refine ⟨Nat.zero_le 4, fun _ r' hr' => ?_, ?_⟩
  · rw [← Option.some.inj (hcurrent.symm.trans hr')]
    refine ⟨hname, by simp [Resource.metadataGeneration, hgeneration], Nat.zero_le 4, ?_, ?_,
      fun howed => absurd howed Ledger.empty_not_owed⟩
    · exact fun _ => ⟨Nat.zero_le 1, fun hjobs => absurd hjobs Ledger.empty_jobs_ne_one⟩
    · exact fun hdeleted => absurd hdeleted halive
  · intro p hp
    rw [h.running] at hp
    cases hp

theorem jobs_respond {op : Operation σ} {answer : op.Answer} (hjobs : l.jobs ≤ 4)
    (hclaim : op.isClaim = true → l.jobs ≤ 3) : (l.respond op answer).jobs ≤ 4 := by
  cases op with
  | runClaim _ _ _ =>
      cases answer with
      | ok _ =>
          have hthree := hclaim rfl
          simp only [Ledger.respond, Ledger.submitted]
          omega
      | error _ => exact hjobs
  | patchStatus patch =>
      cases answer with
      | ok _ =>
          simp only [Ledger.respond, Ledger.patched]
          split
          · exact Nat.zero_le 4
          · split <;> exact hjobs
      | error _ => exact hjobs
  | get => exact hjobs
  | patchFinalizers _ => exact hjobs
  | cloud _ => exact hjobs
  | getChangeRecord _ _ _ _ => exact hjobs
  | readLogs _ => exact hjobs
  | now => exact hjobs

theorem RetriesKept.respond (h : RetriesKept c (s, l)) {op : Operation σ} {answer : op.Answer}
    {w : Cluster σ} {next : op.Answer → Underway σ} (hrunning : s.running = some (.call op next))
    (hresponds : c.Responds s.cluster op answer w) (hregular : Regular s.cluster l op answer) :
    RetriesKept c (⟨w, some (next answer)⟩, l.respond op answer) := by
  obtain ⟨hsafe, hnext⟩ := h.running _ hrunning
  refine ⟨jobs_respond h.jobs fun hclaim => (hsafe _ (.refl _) hclaim).1, nofun, ?_⟩
  intro p hp
  rw [← Option.some.inj hp]
  exact hnext answer (w, l.respond op answer) ⟨(s.cluster, l), .refl _, hregular, hresponds, rfl⟩

/-- The waits do not matter to what is submitted. -/
theorem announce_eq (l : Ledger) (now : Nat) (p : Option (Underway σ)) :
    (l.announce now p).jobs = l.jobs ∧ (l.announce now p).owed = l.owed := by
  unfold Ledger.announce
  split
  · split <;> exact ⟨rfl, rfl⟩
  · exact ⟨rfl, rfl⟩

theorem RetriesKept.stop (h : RetriesKept c (s, l)) (hok : Act.Patient (s, l) .stop) :
    RetriesKept c ({ s with running := none }, l.announce s.cluster.now s.running) := by
  obtain ⟨hjobs, howed⟩ := announce_eq l s.cluster.now s.running
  have hready : IsReady (s.cluster, l) := by
    cases hrunning : s.running with
    | none => exact h.ready hrunning
    | some p =>
        obtain ⟨a, rfl⟩ := hok p hrunning
        exact h.running _ hrunning
  refine ⟨hjobs ▸ h.jobs, fun _ r hr => (hready r hr).congr hjobs howed, nofun⟩

theorem Ready.edited [DecidableEq σ] (h : Ready r l) (spec : σ) {finalizers : List String}
    (hfinalizers : finalizers.contains finalizerName = r.hasFinalizer) :
    Ready (Cluster.edited r spec finalizers) (if r.spec ≠ spec then Ledger.empty else l) := by
  have hpositive : 0 < (Cluster.edited r spec finalizers).metadataGeneration := by
    have hold := h.generation
    simp only [Resource.metadataGeneration, Cluster.edited] at hold ⊢
    cases hgeneration : r.generation with
    | none => simp [hgeneration] at hold
    | some n =>
        rw [hgeneration] at hold
        split
        · exact hold
        · simp only [Option.map_some, Option.getD_some] at hold ⊢
          omega
  by_cases hspec : r.spec = spec
  · rw [if_neg (not_not_intro hspec)]
    have hsame : (Cluster.edited r spec finalizers).generation = r.generation := if_pos hspec
    refine ⟨h.name, hpositive, h.jobs, ?_, ?_, ?_⟩
    · intro halive
      rw [Resource.metadataGeneration, hsame]
      exact h.alive halive
    · intro hdeleted hfinalizer
      exact h.deleting hdeleted (hfinalizers ▸ hfinalizer)
    · intro howed
      obtain ⟨hdeleted, hfinalizer, hjob⟩ := h.owed howed
      exact ⟨hdeleted, hfinalizers.trans hfinalizer, hjob⟩
  · rw [if_pos hspec]
    refine ⟨h.name, hpositive, Nat.zero_le 4, ?_, fun _ _ _ => Nat.zero_le 3,
      fun howed => absurd howed Ledger.empty_not_owed⟩
    exact fun _ => ⟨Nat.zero_le 1, fun hjobs => absurd hjobs Ledger.empty_jobs_ne_one⟩

theorem Ready.deleted (h : Ready r l) (deletionTimestamp : String) :
    Ready (Cluster.deleted r deletionTimestamp)
      (if r.deletionTimestamp.isNone then { l with notBefore := 0, owed := false } else l) := by
  by_cases hdeleted : r.IsDeleted
  · have hnot : ¬ r.deletionTimestamp.isNone = true := by
      rw [Option.isNone_iff_eq_none, ← Option.not_isSome_iff_eq_none, not_not]
      exact hdeleted
    rw [if_neg hnot]
    have hsame : Cluster.deleted r deletionTimestamp = r := if_pos hdeleted
    rw [hsame]
    exact h
  · have hnone : r.deletionTimestamp.isNone = true := by
      rw [Option.isNone_iff_eq_none]
      exact Option.not_isSome_iff_eq_none.1 hdeleted
    rw [if_pos hnone]
    have hnew : Cluster.deleted r deletionTimestamp =
        { r with
          deletionTimestamp := some deletionTimestamp
          generation := r.generation.map (· + 1) } := if_neg hdeleted
    rw [hnew]
    have hone := (h.alive hdeleted).1
    refine ⟨h.name, ?_, h.jobs, ?_, ?_, nofun⟩
    · have hold := h.generation
      simp only [Resource.metadataGeneration] at hold ⊢
      cases hgeneration : r.generation with
      | none => simp [hgeneration] at hold
      | some n =>
          rw [hgeneration] at hold
          simp only [Option.map_some, Option.getD_some] at hold ⊢
          omega
    · exact fun halive => absurd rfl halive
    · intro _ _ _
      exact le_trans hone (by omega)

theorem RetriesKept.isKept {sl : System σ × Ledger} (h : RetriesKept c sl) : sl.2.IsKept c sl.1 := by
  refine ⟨h.jobs, ?_, ?_⟩
  · rintro p r environment command hrunning ⟨next, rfl⟩
    obtain ⟨hsafe, _⟩ := h.running _ hrunning
    exact (hsafe _ (.refl _) rfl).2
  · exact fun howed hidle r hr => submits_of_owed (h.ready hidle r hr) howed

variable [DecidableEq σ]

theorem RetriesKept.event (h : RetriesKept c (s, l)) {e : Event σ}
    (hok : Act.Patient (s, l) (.event e)) :
    RetriesKept c ({ s with cluster := s.cluster.happen e }, l.after s (.event e)) := by
  -- Records and time do not touch the object.
  have hstill : (s.cluster.happen e).current = s.cluster.current →
      s.cluster.now ≤ (s.cluster.happen e).now → l.after s (.event e) = l →
      RetriesKept c ({ s with cluster := s.cluster.happen e }, l.after s (.event e)) := by
    intro hcurrent hnow hledger
    rw [hledger]
    refine ⟨h.jobs, ?_, ?_⟩
    · intro hrunning r hr
      exact h.ready hrunning r (hcurrent.symm.trans hr)
    · intro p hp
      have htrans : ∀ γ γ' γ'' : Cluster σ × Ledger, Still γ γ' → Still γ' γ'' → Still γ γ'' :=
        fun _ _ _ => Still.trans
      have hothers : Still (s.cluster, l) (s.cluster.happen e, l) := ⟨hcurrent, hnow, rfl⟩
      refine Program.WP.others htrans ?_ (h.running p hp) hothers
      intro γ γ' _ hγ hready r hr
      rw [hγ.ledger]
      exact hready r (hγ.current.symm.trans hr)
  cases e with
  | record d => exact hstill rfl le_rfl rfl
  | tick milliseconds => exact hstill rfl (Nat.le_add_right _ _) rfl
  | edit spec finalizers =>
      obtain ⟨hidle, hfinalizers⟩ := hok
      cases hcurrent : s.cluster.current with
      | none =>
          have hsame : s.cluster.happen (.edit spec finalizers) = s.cluster := by
            simp [Cluster.happen, hcurrent]
          have hledger : l.after s (.event (.edit spec finalizers)) = l := by
            simp [Ledger.after, hcurrent]
          exact hstill (by rw [hsame]) (by rw [hsame]) hledger
      | some r =>
          have hready := (h.ready hidle r hcurrent).edited spec (hfinalizers r hcurrent)
          have hledger : l.after s (.event (.edit spec finalizers)) =
              if r.spec ≠ spec then Ledger.empty else l := by
            simp [Ledger.after, hcurrent]
          have hcluster : s.cluster.happen (.edit spec finalizers) =
              s.cluster.put (Cluster.edited r spec finalizers) := by
            simp [Cluster.happen, hcurrent]
          rw [hledger, hcluster]
          refine ⟨hready.jobs, fun _ => isReady_put hready, ?_⟩
          intro p hp
          rw [hidle] at hp
          cases hp
  | delete deletionTimestamp =>
      have hidle : s.running = none := hok
      cases hcurrent : s.cluster.current with
      | none =>
          have hsame : s.cluster.happen (.delete deletionTimestamp) = s.cluster := by
            simp [Cluster.happen, hcurrent]
          have hledger : l.after s (.event (.delete deletionTimestamp)) = l := by
            simp [Ledger.after, hcurrent]
          exact hstill (by rw [hsame]) (by rw [hsame]) hledger
      | some r =>
          have hready := (h.ready hidle r hcurrent).deleted deletionTimestamp
          have hledger : l.after s (.event (.delete deletionTimestamp)) =
              if r.deletionTimestamp.isNone then { l with notBefore := 0, owed := false } else l := by
            simp [Ledger.after, hcurrent]
          have hcluster : s.cluster.happen (.delete deletionTimestamp) =
              s.cluster.put (Cluster.deleted r deletionTimestamp) := by
            simp [Cluster.happen, hcurrent]
          rw [hledger, hcluster]
          refine ⟨hready.jobs, fun _ => isReady_put hready, ?_⟩
          intro p hp
          rw [hidle] at hp
          cases hp

theorem RetriesKept.step {sl sl' : System σ × Ledger} {act : Act σ} (h : RetriesKept c sl)
    (hok : act.Patient sl) (hstep : Tracked c sl act sl') : RetriesKept c sl' := by
  obtain ⟨s, l⟩ := sl
  obtain ⟨s', l'⟩ := sl'
  obtain ⟨hstep, hledger⟩ := hstep
  dsimp only at hstep hledger
  subst hledger
  cases hstep with
  | event e => exact h.event hok
  | start copy hcopy hrunning =>
      refine ⟨h.jobs, nofun, ?_⟩
      intro p hp
      rw [← Option.some.inj hp]
      exact leaves_reconcile (h.ready hrunning copy hok.1) _ ⟨hok.1, rfl, hok.2⟩
  | respond op answer w next hrunning hresponds => exact h.respond hrunning hresponds hok
  | stop => exact h.stop hok

end

/-! ## Executions -/

/-- A request that is answered as it should be is not refused. -/
def isRegular (γ : Cluster σ × Ledger) : (op : Operation σ) → op.Answer → Bool
  | .get, answer => answer.isOk
  | .patchStatus _, answer => answer.isOk
  | .patchFinalizers _, answer => answer.isOk
  | .runClaim _ _ _, .ok (jobId, _) => jobId != ""
  | .cloud (.getDeployment _ _ _), .ok (some d) => !Controller.isFailure d.status.text ||
      (γ.1.current.all (·.deletionTimestamp.isSome) && decide (γ.2.jobs ≤ 3))
  | _, _ => true

theorem regular_of_isRegular {γ : Cluster σ × Ledger} {op : Operation σ} {answer : op.Answer}
    (h : isRegular γ op answer = true) : Regular γ.1 γ.2 op answer := by
  cases op with
  | get =>
      cases answer with
      | ok r => exact ⟨r, rfl⟩
      | error e => cases h
  | patchStatus _ =>
      cases answer with
      | ok r => rfl
      | error e => cases h
  | patchFinalizers _ =>
      cases answer with
      | ok r => rfl
      | error e => cases h
  | runClaim _ _ _ =>
      cases answer with
      | ok found => exact bne_iff_ne.1 h
      | error e => trivial
  | cloud request =>
      cases request with
      | getDeployment _ _ _ =>
          cases answer with
          | ok found =>
              cases found with
              | none => trivial
              | some d =>
                  intro hfailure
                  simp only [isRegular, hfailure, Bool.not_true, Bool.false_or, Bool.and_eq_true,
                    decide_eq_true_eq] at h
                  refine ⟨fun r hr => ?_, h.2⟩
                  have hsome : r.deletionTimestamp.isSome = true := by simpa [hr] using h.1
                  exact hsome
          | error e => trivial
      | _ => trivial
  | getChangeRecord _ _ _ _ => trivial
  | readLogs _ => trivial
  | now => trivial

/-- A job that a reconciliation submits is one that it comes to when it reads the resource. -/
theorem isSome_of_submits {c : Controller} (deployments : Deployments) {r : Resource σ}
    {w : Cluster σ} (h : c.Submits r) (hr : w.current = some r) :
    (Program.executeUntil (c.answer deployments) Operation.isClaim w (c.reconcile r ())).isSome =
      true := by
  obtain ⟨environment, command, next, heq, after, hcalls⟩ := h
  have hanswer : c.answer deployments w .get = some (.ok r, w) := by
    simp [Controller.answer, hr]
  rw [heq]
  unfold Program.executeUntil
  simp only [Operation.isClaim, Bool.false_eq_true, if_false, hanswer, Option.bind_some, hcalls]
  rfl

section

variable [DecidableEq σ] (c : Controller) (deployments : Deployments)
  (check : Cluster σ × Ledger → (op : Operation σ) → op.Answer → Bool)

/-- The answer of the cluster, if it passes the check. -/
def Ledger.answer (γ : Cluster σ × Ledger) (op : Operation σ) :
    Option (op.Answer × (Cluster σ × Ledger)) :=
  ((c.answer deployments γ.1 op).filter fun r => check γ op r.1).map fun r =>
    (r.1, (r.2, γ.2.respond op r.1))

/-- A reconciliation of the resource as it is, when the time for it has come. -/
def Ledger.reconciled (γ : Cluster σ × Ledger) : Option (Cluster σ × Ledger) :=
  γ.1.current.bind fun r =>
    if r ∈ γ.1.versions ∧ γ.2.notBefore ≤ γ.1.now then
      (Program.execute (Ledger.answer c deployments check) γ (c.reconcile r ())).map fun result =>
        (result.2.1.1,
          result.2.1.2.announce result.2.1.1.now (some (.done result.2.2 : Underway σ)))
    else none

/-- Events and, where there is none, reconciliations. -/
def Ledger.play (γ : Cluster σ × Ledger) : List (Option (Event σ)) → Option (Cluster σ × Ledger)
  | [] => some γ
  | none :: rest => (Ledger.reconciled c deployments check γ).bind fun γ' => play γ' rest
  | some e :: rest => play (γ.1.happen e, γ.2.after ⟨γ.1, none⟩ (.event e)) rest

variable {c deployments check} {ok : System σ × Ledger → Act σ → Prop}

theorem reaches_ledgerExecute
    (hok : ∀ sl op answer, check (sl.1.cluster, sl.2) op answer = true → ok sl (.respond op answer))
    {γ γ' : Cluster σ × Ledger} {p : Underway σ}
    {trace : List (Sigma (Operation.Answer (σ := σ)))} {result : Except String Action × Unit}
    (h : Program.execute (Ledger.answer c deployments check) γ p = some (trace, γ', result)) :
    Reaches (Tracked c) ok (⟨γ.1, some p⟩, γ.2) (⟨γ'.1, some (.done result)⟩, γ'.2) := by
  induction p generalizing γ trace with
  | done a =>
      simp only [Program.execute, Option.some.injEq, Prod.mk.injEq] at h
      obtain ⟨_, rfl, rfl⟩ := h
      exact .refl
  | call op next ih =>
      unfold Program.execute at h
      split at h
      · cases h
      · rename_i answer γ₁ hanswer
        obtain ⟨⟨rest, γ₂, b⟩, hrest, heq⟩ := Option.map_eq_some_iff.1 h
        simp only [Prod.mk.injEq] at heq
        obtain ⟨_, rfl, rfl⟩ := heq
        obtain ⟨⟨given, w₁⟩, hgiven, hpair⟩ := Option.map_eq_some_iff.1 hanswer
        simp only [Prod.mk.injEq] at hpair
        obtain ⟨rfl, rfl⟩ := hpair
        obtain ⟨hgiven, hcheck⟩ := Option.filter_eq_some_iff.1 hgiven
        have hstep : Tracked c (⟨γ.1, some (.call op next)⟩, γ.2) (.respond op given)
            (⟨w₁, some (next given)⟩, γ.2.respond op given) :=
          ⟨.respond _ op given w₁ next rfl (responds_of_answer hgiven), rfl⟩
        exact Reaches.cons (hok _ op given hcheck) hstep (ih given hrest)

theorem reaches_ledgerReconciled
    (hok : ∀ sl op answer, check (sl.1.cluster, sl.2) op answer = true → ok sl (.respond op answer))
    (hstart : ∀ sl copy, sl.1.cluster.current = some copy → sl.2.notBefore ≤ sl.1.cluster.now →
      ok sl (.start copy))
    (hstop : ∀ w l a, ok (⟨w, some (.done a)⟩, l) .stop) {γ γ' : Cluster σ × Ledger}
    (h : Ledger.reconciled c deployments check γ = some γ') :
    Reaches (Tracked c) ok (⟨γ.1, none⟩, γ.2) (⟨γ'.1, none⟩, γ'.2) := by
  obtain ⟨r, hr, hrest⟩ := Option.bind_eq_some_iff.1 h
  split at hrest
  next hready =>
    obtain ⟨⟨trace, γ₁, result⟩, hexecute, heq⟩ := Option.map_eq_some_iff.1 hrest
    subst heq
    have hstarted : Tracked c (⟨γ.1, none⟩, γ.2) (.start r)
        (⟨γ.1, some (c.reconcile r ())⟩, γ.2) := ⟨.start _ r hready.1 rfl, rfl⟩
    refine Reaches.cons (hstart _ r hr hready.2) hstarted ?_
    refine (reaches_ledgerExecute hok hexecute).trans ?_
    exact .single ⟨.stop, hstop _ _ _, .stop _, rfl⟩
  next => cases hrest

theorem reaches_play
    (hok : ∀ sl op answer, check (sl.1.cluster, sl.2) op answer = true → ok sl (.respond op answer))
    (hstart : ∀ sl copy, sl.1.cluster.current = some copy → sl.2.notBefore ≤ sl.1.cluster.now →
      ok sl (.start copy))
    (hstop : ∀ w l a, ok (⟨w, some (.done a)⟩, l) .stop) {moves : List (Option (Event σ))}
    (hevent : ∀ w l, ∀ e, some e ∈ moves → ok (⟨w, none⟩, l) (.event e)) {γ γ' : Cluster σ × Ledger}
    (h : Ledger.play c deployments check γ moves = some γ') :
    Reaches (Tracked c) ok (⟨γ.1, none⟩, γ.2) (⟨γ'.1, none⟩, γ'.2) := by
  induction moves generalizing γ with
  | nil =>
      cases h
      exact .refl
  | cons move rest ih =>
      have hlast := fun (w : Cluster σ) l e he => hevent w l e (List.mem_cons_of_mem move he)
      cases move with
      | none =>
          obtain ⟨γ₁, hγ₁, hrest⟩ := Option.bind_eq_some_iff.1 h
          exact (reaches_ledgerReconciled hok hstart hstop hγ₁).trans (ih hlast hrest)
      | some e =>
          have hstep : Tracked c (⟨γ.1, none⟩, γ.2) (.event e)
              (⟨γ.1.happen e, none⟩, γ.2.after ⟨γ.1, none⟩ (.event e)) := ⟨.event _ e, rfl⟩
          exact Reaches.cons (hevent _ _ e List.mem_cons_self) hstep (ih hlast h)

end

/-- A deletion whose first destroy job fails. -/
def destroyRetried : List (Option (Event String)) :=
  [none, some (.tick 60000), some (.record (endedJob "job-1" .successful false)), none,
    some (.delete "1970-01-01T00:01:00.000Z"), none, some (.tick 60000),
    some (.record (endedJob "job-2" .failed false)), none, some (.tick 600000), none]

def applyFailed : List (Option (Event String)) :=
  [none, some (.tick 60000), some (.record (endedJob "job-1" .failed false)), none]

/-- The operator keeps to its retries when it is only called when it has asked for it, with the
resource as it is, and when only a destroy job fails, as one of the first three jobs. -/
theorem retries_kept [DecidableEq σ] {c : Controller} {s : System σ} (hs : s.Initial) {sl' : System σ × Ledger}
    (h : Reaches (Tracked c) Act.Patient (s, .empty) sl') : sl'.2.IsKept c sl'.1 := by
  have hkept : RetriesKept c sl' :=
    h.invariant (fun _ _ _ hinv hok hstep => hinv.step hok hstep) hs.retriesKept
  exact hkept.isKept

theorem retries_kept_web : ∃ sl : System String × Ledger, sl.2.jobs = 3 ∧
    sl.2.IsKept localController sl.1 := by
  have hplayed : ((Ledger.play localController localDeployments isRegular (localCluster, .empty)
      destroyRetried).map fun γ => γ.2.jobs) = some 3 := by decide +kernel
  obtain ⟨γ, hplay, hjobs⟩ := Option.map_eq_some_iff.1 hplayed
  have hreach : Reaches (Tracked localController) Act.Patient (⟨localCluster, none⟩, Ledger.empty)
      (⟨γ.1, none⟩, γ.2) := by
    refine reaches_play ?_ ?_ ?_ ?_ hplay
    · exact fun _ _ _ hcheck => regular_of_isRegular hcheck
    · exact fun _ _ hcurrent hnow => ⟨hcurrent, hnow⟩
    · intro w l a p hp
      rw [← Option.some.inj hp]
      exact Program.hasEnded_done a
    · intro w l e he
      cases e with
      | edit spec finalizers => simp [destroyRetried] at he
      | delete deletionTimestamp => rfl
      | record d => trivial
      | tick milliseconds => trivial
  exact ⟨_, hjobs, retries_kept localCluster_initial hreach⟩

/-- An apply that fails is counted as a retry, but its generation is in the status by then: no later
reconciliation submits it again. -/
theorem not_isKept_applyFailed : ¬ ∀ (c : Controller) (s : System String) (sl : System String × Ledger),
    s.Initial → Reaches (Tracked c) (fun _ _ => True) (s, .empty) sl → sl.2.IsKept c sl.1 := by
  intro h
  let played := Ledger.play localController localDeployments (fun _ _ _ => true)
    (localCluster, .empty) applyFailed
  have howed : (played.map fun γ => γ.2.owed) = some true := by decide +kernel
  have hwaits : played.all (fun γ => γ.1.current.any fun r =>
      (Program.executeUntil (localController.answer localDeployments) Operation.isClaim γ.1
        (localController.reconcile r ())).isNone) = true := by decide +kernel
  obtain ⟨γ, hplay, howes⟩ := Option.map_eq_some_iff.1 howed
  have hreach : Reaches (Tracked localController) (fun _ _ => True)
      (⟨localCluster, none⟩, Ledger.empty) (⟨γ.1, none⟩, γ.2) :=
    reaches_play (fun _ _ _ _ => trivial) (fun _ _ _ _ => trivial) (fun _ _ _ => trivial)
      (fun _ _ _ _ => trivial) hplay
  have hkept := h localController _ _ localCluster_initial hreach
  rw [hplay, Option.all_some] at hwaits
  cases hr : γ.1.current with
  | none =>
      rw [hr] at hwaits
      cases hwaits
  | some r =>
      have hsome := isSome_of_submits localDeployments (hkept.owed howes rfl r hr) hr
      rw [hr, Option.any_some, Option.isNone_iff_eq_none] at hwaits
      rw [hwaits] at hsome
      cases hsome

end Operator
end InfraWeave
