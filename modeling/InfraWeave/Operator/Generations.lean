import InfraWeave.Operator.Cluster
import InfraWeave.Operator.Requests

/-!
# Edits and the generation of the last job

An edit is left alone when the last generation in the status is that of the resource.  The status
names the generation of the copy from which it was patched, whatever that copy was used for.
-/

namespace InfraWeave
namespace Operator

open Process

variable {σ : Type}

/-- An apply of the generation has been submitted. -/
def Cluster.Applied (w : Cluster σ) (generation : Int) : Prop :=
  ∃ job ∈ w.submitted, job.command = "apply" ∧ job.resource.metadataGeneration = generation

/-- Without a job, the last generation of the status is one whose specification has been submitted,
and so is the specification of a resource that is left alone. -/
def Cluster.GenerationSound (w : Cluster σ) : Prop :=
  ∀ r, w.current = some r → r.status.currentJobId = "" →
    (∀ generation, r.status.lastGeneration = some generation →
      ∃ job ∈ w.submitted, job.command = "apply" ∧
        job.resource.metadataGeneration = generation ∧
        ∀ v ∈ w.versions, v.metadataGeneration = generation → v.spec = job.resource.spec) ∧
    (r.GenerationUnchanged → ∃ job ∈ w.submitted, job.command = "apply" ∧ job.resource.spec = r.spec)

/-- A claim that is refused is of a generation that has been submitted before. -/
def Cluster.Accepts (w : Cluster σ) : (op : Operation σ) → op.Answer → Prop
  | .runClaim r _ _, .error _ => w.Applied r.metadataGeneration
  | _, _ => True

/-- The resource is not deleted, and while there is a job the controller goes by a copy of a
generation that has been submitted. -/
def Act.Orderly (s : System σ) : Act σ → Prop
  | .event (.delete _) => False
  | .start copy => ∀ r, s.cluster.current = some r → r.status.currentJobId ≠ "" →
      s.cluster.Applied copy.metadataGeneration
  | .respond op answer => s.cluster.Accepts op answer
  | _ => True

/-! ## What a reconciliation may do -/

/-- A generation that is written to the status has been submitted. -/
def Cluster.Allows (w : Cluster σ) : Operation σ → Prop
  | .patchStatus patch => ∀ generation, patch.lastGeneration = some generation → w.Applied generation
  | .runClaim r _ _ => r ∈ w.versions
  | _ => True

/-- During a reconciliation nobody else changes the status. -/
structure Meanwhile (w w' : Cluster σ) : Prop where
  later : Later w w'
  status : ∀ r', w'.current = some r' → ∃ r, w.current = some r ∧ r'.status = r.status

section

variable {w w' w'' : Cluster σ} {α β : Type}

theorem Meanwhile.refl (w : Cluster σ) : Meanwhile w w :=
  ⟨.refl w, fun r hr => ⟨r, hr, rfl⟩⟩

theorem Meanwhile.trans (h : Meanwhile w w') (h' : Meanwhile w' w'') : Meanwhile w w'' := by
  refine ⟨h.later.trans h'.later, ?_⟩
  intro r'' hr''
  obtain ⟨r', hr', heq'⟩ := h'.status r'' hr''
  obtain ⟨r, hr, heq⟩ := h.status r' hr'
  exact ⟨r, hr, heq'.trans heq⟩

theorem Meanwhile.put {r r' : Resource σ} (hr : w.current = some r) (hstatus : r'.status = r.status) :
    Meanwhile w (w.put r') := by
  refine ⟨later_put w r', ?_⟩
  intro r₁ hr₁
  refine ⟨r, hr, ?_⟩
  simp only [Cluster.put] at hr₁
  split at hr₁
  · cases hr₁
  · rw [← Option.some.inj hr₁]
    exact hstatus

theorem meanwhile_happen [DecidableEq σ] (w : Cluster σ) (e : Event σ) : Meanwhile w (w.happen e) := by
  cases e with
  | edit spec finalizers =>
      cases hcurrent : w.current with
      | none => simpa [Cluster.happen, hcurrent] using Meanwhile.refl w
      | some r =>
          have hput : Meanwhile w (w.put (Cluster.edited r spec finalizers)) := .put hcurrent rfl
          simpa [Cluster.happen, hcurrent] using hput
  | delete deletionTimestamp =>
      cases hcurrent : w.current with
      | none => simpa [Cluster.happen, hcurrent] using Meanwhile.refl w
      | some r =>
          have hstatus : (Cluster.deleted r deletionTimestamp).status = r.status := by
            unfold Cluster.deleted
            split <;> rfl
          simpa [Cluster.happen, hcurrent] using Meanwhile.put hcurrent hstatus
  | record d => exact ⟨later_happen w (.record d), fun r hr => ⟨r, hr, rfl⟩⟩
  | tick milliseconds => exact ⟨later_happen w (.tick milliseconds), fun r hr => ⟨r, hr, rfl⟩⟩

theorem Cluster.Applied.later {generation : Int} (h : w.Applied generation) (hlater : Later w w') :
    w'.Applied generation := by
  obtain ⟨job, hjob, happly⟩ := h
  exact ⟨job, hlater.submitted job hjob, happly⟩

theorem Cluster.Allows.later {op : Operation σ} (h : w.Allows op) (hlater : Later w w') :
    w'.Allows op := by
  cases op with
  | patchStatus patch => exact fun generation hg => (h generation hg).later hlater
  | runClaim r _ _ => exact hlater.versions r h
  | get => trivial
  | patchFinalizers _ => trivial
  | cloud _ => trivial
  | getChangeRecord _ _ _ _ => trivial
  | readLogs _ => trivial
  | now => trivial

variable (c : Controller)

def reconciling : Environment (Operation σ) Operation.Answer (Cluster σ) :=
  Environment.interleaved
    { step := fun w op answer w' => Coherent w ∧ w.Accepts op answer ∧ c.Responds w op answer w'
      safe := Cluster.Allows } Meanwhile

/-- Whatever the rest of a reconciliation does, it writes no generation that has not been
submitted. -/
def Sound (w : Cluster σ) (x : Reconciliation σ α) : Prop :=
  Advances (reconciling c) Later w () x

variable {c}

theorem later_of_step {op : Operation σ} {answer : op.Answer}
    (h : (reconciling c).step w op answer w') : Later w w' := by
  obtain ⟨w₁, hothers, _, _, hresponds⟩ := h
  exact hothers.later.trans hresponds.later

/-- What is allowed in a cluster is allowed in every later one. -/
theorem sound_of_only {x : Reconciliation σ α} (hx : Only w.Allows x) : Sound c w x := by
  refine hx.advances Later.refl (fun _ _ _ => Later.trans) ?_ ?_
  · exact fun _ _ _ _ _ hstep => later_of_step hstep
  · exact fun _ _ hlater hallows _ hothers => (hallows.later hlater).later hothers.later

theorem permits_allows (w : Cluster σ) : Permits w.Allows :=
  ⟨trivial, trivial, fun _ => trivial, fun _ => trivial, fun _ _ _ _ => trivial⟩

theorem permitsMinor_allows (w : Cluster σ) (statuses : List String) :
    PermitsMinor w.Allows statuses := by
  intro patch hpatch generation hgeneration
  rw [hpatch.lastGeneration] at hgeneration
  cases hgeneration

theorem permitsStatus_allows {resource : Resource σ} (h : w.Applied resource.metadataGeneration)
    (status jobId : String) : PermitsStatus w.Allows c resource status jobId := by
  intro name lastDeploymentUpdate message now _ generation hgeneration
  rw [← Option.some.inj hgeneration]
  exact h

theorem permitsApply_allows {resource : Resource σ} (h : w.Applied resource.metadataGeneration) :
    PermitsApply w.Allows c resource :=
  ⟨fun _ _ _ => permitsStatus_allows h _ _, fun _ => permitsStatus_allows h _ _,
    fun _ => permitsStatus_allows h _ _⟩

/-! ## The parts of a reconciliation -/

/-- The status is patched from the version that was submitted, or refused. -/
theorem sound_startApplyJob {fresh : Resource σ} (hfresh : fresh ∈ w.versions)
    (environment : String) : Sound c w (c.startApplyJob fresh environment) := by
  have hclaim : WP (reconciling c)
      (fun w' r _ => Later w w' ∧ ∀ a, r = .ok a → w'.Applied fresh.metadataGeneration) w ()
      (Controller.runClaim fresh environment "apply") := by
    refine wp_request.2 ⟨fun _ hothers => hothers.later.versions fresh hfresh, ?_⟩
    intro answer w' hstep
    refine ⟨later_of_step hstep, fun _ _ => ?_⟩
    obtain ⟨w₁, _, _, haccepts, hresponds⟩ := hstep
    cases answer with
    | error e =>
        have heq : w' = w₁ := hresponds
        rw [heq]
        exact haccepts
    | ok found =>
        obtain ⟨jobId, deploymentId⟩ := found
        obtain ⟨_, d, _, heq⟩ := hresponds
        rw [heq]
        exact ⟨⟨jobId, "apply", fresh⟩, List.mem_append_right _ (List.mem_singleton_self _), rfl, rfl⟩
  refine Advances.bind_of Later.trans hclaim ?_
  intro w₁ answer s _ happlied
  refine sound_of_only ?_
  have hupdate : ∀ status lastDeploymentUpdate message jobId, Only w₁.Allows
      (c.updateResourceStatus fresh status lastDeploymentUpdate message jobId) :=
    fun _ _ _ _ => only_updateResourceStatus (permits_allows w₁) (permitsStatus_allows happlied _ _) _ _
  cases answer with
  | ok found =>
      refine (only_getTimestamp (permits_allows w₁)).bind fun now => ?_
      exact (hupdate _ _ _ _).bind fun _ => only_pure _
  | error e =>
      refine (only_getTimestamp (permits_allows w₁)).bind fun now => ?_
      exact (hupdate _ _ _ _).bind fun _ => only_stop _

/-- The copy counts only where the status has a job. -/
theorem sound_reconcileResourceNonblocking {copy : Resource σ}
    (h : ∀ r, w.current = some r → r.status.currentJobId ≠ "" → w.Applied copy.metadataGeneration)
    (environment : String) : Sound c w (c.reconcileResourceNonblocking copy environment) := by
  have hget : WP (reconciling c)
      (fun w' r _ => Later w w' ∧ ∀ fresh, r = .ok fresh → fresh ∈ w'.versions ∧
        (fresh.status.currentJobId ≠ "" → w'.Applied copy.metadataGeneration)) w ()
      (Controller.get : Reconciliation σ (Resource σ)) := by
    refine wp_request.2 ⟨fun _ _ => trivial, ?_⟩
    intro answer w' hstep
    refine ⟨later_of_step hstep, ?_⟩
    obtain ⟨w₁, hothers, hcoherent, _, heq, hanswer⟩ := hstep
    subst heq
    intro fresh hfresh
    have hcurrent := hanswer fresh hfresh
    refine ⟨hcoherent.current_mem fresh hcurrent, fun hjob => ?_⟩
    obtain ⟨r, hr, hstatus⟩ := hothers.status fresh hcurrent
    rw [hstatus] at hjob
    exact (h r hr hjob).later hothers.later
  refine Advances.bind_of Later.trans hget ?_
  rintro w₁ fresh _ _ ⟨hversion, hcopy⟩
  change Sound c w₁ _
  have hminor := permitsMinor_allows w₁
  split
  · split
    · exact sound_of_only (only_clearStuckState (permits_allows w₁) (hminor _) fresh)
    · split
      · exact sound_of_only (only_pure _)
      · exact sound_startApplyJob hversion environment
  next hjob =>
    refine sound_of_only (only_checkApplyJob (permits_allows w₁) ?_ (fun _ _ => hminor _) fresh _)
    exact permitsApply_allows (hcopy hjob)

theorem sound_reconcile {copy : Resource σ} (hdeleted : ¬ copy.IsDeleted)
    (h : ∀ r, w.current = some r → r.status.currentJobId ≠ "" → w.Applied copy.metadataGeneration) :
    Sound c w (c.reconcile copy) := by
  unfold Controller.reconcile
  cases copy.name with
  | none => exact sound_of_only (only_stop _)
  | some name =>
      dsimp only
      rw [if_neg hdeleted]
      split
      · exact sound_reconcileResourceNonblocking h _
      · exact sound_of_only ((only_request trivial _).bind fun _ => only_pure _)

end

/-! ## Runs -/

section

variable (c : Controller)

structure GenerationsKept (s : System σ) : Prop where
  coherent : Coherent s.cluster
  alive : ∀ v ∈ s.cluster.versions, ¬ v.IsDeleted
  applied : ∀ r, s.cluster.current = some r → ∀ generation,
    r.status.lastGeneration = some generation → s.cluster.Applied generation
  running : ∀ p, s.running = some p → Program.WP (reconciling c) (fun _ _ => True) s.cluster p

variable {c} {s s' : System σ}

theorem System.Initial.generationsKept (h : s.Initial) : GenerationsKept c s := by
  obtain ⟨r, hcurrent, hversions, _, _, hdeleted, hstatus⟩ := h.created
  refine ⟨h.coherent, ?_, ?_, ?_⟩
  · intro v hv
    rw [hversions] at hv
    rw [List.mem_singleton.1 hv]
    exact hdeleted
  · intro r₁ hr₁ generation hgeneration
    rw [Option.some.inj (hr₁.symm.trans hcurrent), hstatus] at hgeneration
    cases hgeneration
  · intro p hp
    rw [h.running] at hp
    cases hp

theorem GenerationsKept.generationSound (h : GenerationsKept c s) : s.cluster.GenerationSound := by
  intro r hr _
  have hsubmitted : ∀ generation, r.status.lastGeneration = some generation →
      ∃ job ∈ s.cluster.submitted, job.command = "apply" ∧
        job.resource.metadataGeneration = generation ∧
        ∀ v ∈ s.cluster.versions, v.metadataGeneration = generation → v.spec = job.resource.spec := by
    intro generation hgeneration
    obtain ⟨job, hjob, hcommand, heq⟩ := h.applied r hr generation hgeneration
    refine ⟨job, hjob, hcommand, heq, fun v hv hv' => ?_⟩
    exact h.coherent.spec_eq v hv _ (h.coherent.job_mem job hjob) (hv'.trans heq.symm)
  refine ⟨hsubmitted, ?_⟩
  rintro ⟨hsame, hpositive⟩
  -- A generation that has been observed is in the status.
  cases hlast : r.status.lastGeneration with
  | none => simp [ResourceStatus.observedGeneration, hlast] at hpositive
  | some generation =>
      have heq : r.metadataGeneration = generation := by
        simpa [ResourceStatus.observedGeneration, hlast] using hsame.symm
      obtain ⟨job, hjob, hcommand, _, hspec⟩ := hsubmitted generation hlast
      exact ⟨job, hjob, hcommand, (hspec r (h.coherent.current_mem r hr) heq).symm⟩

theorem GenerationsKept.respond (h : GenerationsKept c s) {op : Operation σ} {answer : op.Answer}
    {w : Cluster σ} {next : op.Answer → Underway σ} (hrunning : s.running = some (.call op next))
    (hresponds : c.Responds s.cluster op answer w) (haccepts : s.cluster.Accepts op answer) :
    GenerationsKept c ⟨w, some (next answer)⟩ := by
  obtain ⟨hsafe, hnext⟩ := h.running _ hrunning
  have hallows : s.cluster.Allows op := hsafe s.cluster (.refl s.cluster)
  have hcoherent : Coherent w := by
    refine h.coherent.responds ?_ hresponds
    rintro r environment command rfl
    exact hallows
  have hlater := hresponds.later
  refine ⟨hcoherent, ?_, ?_, ?_⟩
  · rcases hresponds.cases_on with rfl | ⟨r, patch, _, hr, rfl⟩ | ⟨r, finalizers, _, hr, rfl⟩ |
      ⟨r, environment, command, jobId, d, _, _, rfl⟩
    · exact h.alive
    · exact mem_put h.alive (h.alive r (h.coherent.current_mem r hr))
    · exact mem_put h.alive (h.alive r (h.coherent.current_mem r hr))
    · exact h.alive
  · rcases hresponds.cases_on with rfl | ⟨r, patch, rfl, hr, rfl⟩ | ⟨r, finalizers, _, hr, rfl⟩ |
      ⟨r, environment, command, jobId, d, _, _, rfl⟩
    · exact h.applied
    · intro r₁ hr₁ generation hgeneration
      rw [eq_of_current_put hr₁] at hgeneration
      -- The generation is that of the patch, or the one that was there.
      cases hpatch : patch.lastGeneration with
      | some written =>
          have heq : written = generation := by
            simpa [Resource.mergeStatus, ResourceStatus.merge, hpatch] using hgeneration
          exact (hallows generation (heq ▸ hpatch)).later hlater
      | none =>
          have hold : r.status.lastGeneration = some generation := by
            simpa [Resource.mergeStatus, ResourceStatus.merge, hpatch] using hgeneration
          exact (h.applied r hr generation hold).later hlater
    · intro r₁ hr₁ generation hgeneration
      rw [eq_of_current_put hr₁] at hgeneration
      exact (h.applied r hr generation hgeneration).later hlater
    · intro r₁ hr₁ generation hgeneration
      exact (h.applied r₁ hr₁ generation hgeneration).later hlater
  · intro p hp
    rw [← Option.some.inj hp]
    exact hnext answer w ⟨s.cluster, .refl _, h.coherent, haccepts, hresponds⟩

variable [DecidableEq σ]

theorem GenerationsKept.event (h : GenerationsKept c s) {e : Event σ}
    (hok : Act.Orderly s (.event e)) :
    GenerationsKept c { s with cluster := s.cluster.happen e } := by
  have hothers := meanwhile_happen s.cluster e
  refine ⟨h.coherent.happen e, ?_, ?_, ?_⟩
  · cases e with
    | delete deletionTimestamp => exact hok.elim
    | edit spec finalizers =>
        cases hcurrent : s.cluster.current with
        | none => simpa [Cluster.happen, hcurrent] using h.alive
        | some r =>
            have hr : ¬ (Cluster.edited r spec finalizers).IsDeleted :=
              h.alive r (h.coherent.current_mem r hcurrent)
            have hput := mem_put h.alive hr
            simpa [Cluster.happen, hcurrent] using hput
    | record d => exact h.alive
    | tick milliseconds => exact h.alive
  · intro r' hr' generation hgeneration
    obtain ⟨r, hr, hstatus⟩ := hothers.status r' hr'
    rw [hstatus] at hgeneration
    exact (h.applied r hr generation hgeneration).later hothers.later
  · intro p hp
    have htrans : ∀ w w' w'' : Cluster σ, Meanwhile w w' → Meanwhile w' w'' → Meanwhile w w'' :=
      fun _ _ _ => Meanwhile.trans
    exact Program.WP.others htrans (fun _ _ _ _ _ => trivial) (h.running p hp) hothers

theorem GenerationsKept.step {act : Act σ} (h : GenerationsKept c s) (hok : act.Orderly s)
    (hstep : System.Step c s act s') : GenerationsKept c s' := by
  cases hstep with
  | event e => exact h.event hok
  | start copy hcopy hrunning =>
      refine ⟨h.coherent, h.alive, h.applied, ?_⟩
      intro p hp
      rw [← Option.some.inj hp]
      have hsound : Sound c s.cluster (c.reconcile copy) := sound_reconcile (h.alive copy hcopy) hok
      exact Program.wp_mono (fun _ _ _ => trivial) hsound
  | respond op answer w next hrunning hresponds => exact h.respond hrunning hresponds hok
  | stop =>
      refine ⟨h.coherent, h.alive, h.applied, ?_⟩
      intro p hp
      cases hp

end

/-! ## Edits in a cluster -/

/-- The job of the first generation has ended. -/
def jobEnded (edits : List (Event String)) : Cluster String :=
  (localController.reconciled localDeployments localCluster webResource).happenAll
    (edits ++ [Event.tick 60000, Event.record (endedJob "job-1" .successful false)])

/-- A job that is accepted, and one check of it. -/
theorem reaches_jobChecked {ok : System String → Act String → Prop}
    (hok : ∀ s op answer w', localController.answer localDeployments s.cluster op =
      some (answer, w') → ok s (.respond op answer))
    (hstop : ∀ s, ok s .stop) {edits : List (Event String)}
    (hstart : ok ⟨localCluster, none⟩ (.start webResource))
    (hevents : ∀ s, ∀ e ∈ edits ++ [Event.tick 60000,
      Event.record (endedJob "job-1" .successful false)], ok s (.event e)) {copy : Resource String} (hcheck : ok ⟨jobEnded edits, none⟩ (.start copy))
    (hcopy : copy ∈ (jobEnded edits).versions)
    (h : (Program.execute (localController.answer localDeployments) (jobEnded edits)
      (localController.reconcile copy ())).isSome = true) :
    Reaches (System.Step localController) ok ⟨localCluster, none⟩
      ⟨localController.reconciled localDeployments (jobEnded edits) copy, none⟩ := by
  have hsubmitted := reaches_reconciled hok hstop hstart List.mem_cons_self (by decide +kernel)
  have hended : Reaches (System.Step localController) ok _ ⟨jobEnded edits, none⟩ :=
    reaches_happenAll hevents _
  exact (hsubmitted.trans hended).trans (reaches_reconciled hok hstop hcheck hcopy h)

/-- In a run in which no claim of a new generation is refused, and in which the controller goes by
copies whose generation has been submitted while there is a job, no edit is left alone that has not
been submitted. -/
theorem generations_sound [DecidableEq σ] {c : Controller} {s s' : System σ} (hs : s.Initial) (h : Reaches (System.Step c) Act.Orderly s s') :
    s'.cluster.GenerationSound := by
  have hkept : GenerationsKept c s' :=
    h.invariant (fun _ _ _ hinv hok hstep => hinv.step hok hstep) hs.generationsKept
  exact hkept.generationSound

theorem generations_sound_web :
    (localController.reconciled localDeployments (jobEnded [])
      ((jobEnded []).current.getD webResource)).GenerationSound := by
  have happlied : (jobEnded []).Applied 1 := by
    refine ⟨⟨"job-1", "apply", webResource⟩, ?_, rfl, rfl⟩
    exact List.mem_of_mem_head? rfl
  have hreach : Reaches (System.Step localController) Act.Orderly ⟨localCluster, none⟩
      ⟨localController.reconciled localDeployments (jobEnded [])
        ((jobEnded []).current.getD webResource), none⟩ := by
    refine reaches_jobChecked ?_ (fun _ => trivial) ?_ ?_ ?_ (by decide +kernel) (by decide +kernel)
    · intro s op answer w' h
      cases op with
      | runClaim r environment command =>
          cases answer with
          | ok _ => trivial
          | error _ => cases h
      | _ => trivial
    · intro r hr hjob
      cases hr
      exact absurd rfl hjob
    · intro s e he
      simp only [List.nil_append, List.mem_cons, List.not_mem_nil, or_false] at he
      rcases he with rfl | rfl <;> trivial
    · intro _ _ _
      exact happlied
  exact generations_sound localCluster_initial hreach

/-- The resource is edited while its job runs: the end of the job is written to the status with the
generation of the edit, which is not submitted. -/
theorem not_generationSound_edited : ¬ ∀ (c : Controller) (s s' : System String), s.Initial →
    Reaches (System.Step c) (fun _ _ => True) s s' → s'.cluster.GenerationSound := by
  intro h
  let edits : List (Event String) := [.edit "moduleVersion: 2.0.0" [finalizerName]]
  let copy := (jobEnded edits).current.getD webResource
  let last := localController.reconciled localDeployments (jobEnded edits) copy
  have hreach : Reaches (System.Step localController) (fun _ _ => True) ⟨localCluster, none⟩
      ⟨last, none⟩ :=
    reaches_jobChecked (fun _ _ _ _ _ => trivial) (fun _ => trivial) trivial
      (fun _ _ _ => trivial) trivial (by decide +kernel) (by decide +kernel)
  have hsome : last.current.isSome = true := by decide +kernel
  obtain ⟨r, hr⟩ := Option.isSome_iff_exists.1 hsome
  have hget : last.current.getD webResource = r := by rw [hr]; rfl
  have hjob : r.status.currentJobId = "" := by
    rw [← hget]
    decide +kernel
  have hgeneration : r.status.lastGeneration = some 2 := by
    rw [← hget]
    decide +kernel
  obtain ⟨job, hmem, _, heq, _⟩ := (h localController _ _ localCluster_initial hreach r hr hjob).1 2
    hgeneration
  have hnone : ∀ job ∈ last.submitted, job.resource.metadataGeneration ≠ 2 := by decide +kernel
  exact hnone job hmem heq

end Operator
end InfraWeave
