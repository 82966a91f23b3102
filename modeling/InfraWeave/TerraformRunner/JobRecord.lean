import InfraWeave.EnvCommon.StoredDeployments
import InfraWeave.TerraformRunner.RunnerConformance

/-!
# The record of a job

A job that is submitted has a runner, and a record that the client inserts when the runner is
started.  The runner works against the table of its project and region, which may fail to be read
but stores what it is sent.
-/

namespace InfraWeave
namespace TerraformRunner

open EnvCommon

abbrev Event :=
  Sigma Operation.Answer

/-- A job that was submitted.  The placeholder of the runner is not the name of a job. -/
structure Job where
  rt : Runtime
  vars : Json
  jobId : String
  named : jobId ≠ "unknown_jobid"

/-- The table, and whether the record of the request was inserted. -/
structure World where
  table : Deployments
  requested : Bool

namespace Job

variable (job : Job)

def handler : WorkloadHandler :=
  ⟨job.rt.payload.projectId, job.rt.payload.region⟩

def identifier : String :=
  getDeploymentIdentifier job.rt.payload.projectId job.rt.payload.region
    job.rt.payload.deploymentId job.rt.payload.environment

def isPlan : Bool :=
  job.rt.payload.command = "plan"

/-- The row of the record that is inserted for the job. -/
def key : Key :=
  if job.isPlan then ⟨"PLAN#" ++ job.identifier, job.jobId⟩ else metadataKey job.identifier

def own (t : Deployments) : Option DeploymentResp :=
  match t.item job.key with
  | some (.deployment item) => some item.record
  | _ => none

/-- The record of the request. -/
def request (epoch : Nat) : DeploymentResp :=
  (DeploymentStatusHandler.ofRequest ⟨job.rt.payload, job.vars⟩ job.jobId).deployment
    job.rt.parseDuration epoch

def insertRequestEvent (w w' : World) : Prop :=
  w.requested = false ∧ w'.requested = true ∧
    ∃ epoch, Saves job.handler w.table (job.request epoch) job.isPlan w'.table

/-- What an operation of the runner does to the world, and how it may be answered. -/
def Responds (w : World) : (op : Operation) → op.Answer → World → Prop
  | .setDeployment record isPlan, answer, w' => answer = .value () ∧
      Saves job.handler w.table record isPlan w'.table ∧ w'.requested = w.requested
  | .getDeployment deploymentId environment includeDeleted, answer, w' => w' = w ∧
      ∀ found, answer = .value found →
        job.handler.getDeployment w.table deploymentId environment includeDeleted = .ok found
  | .getPlanDeployment deploymentId environment jobId, answer, w' => w' = w ∧
      ∀ found, answer = .value found →
        job.handler.getPlanDeployment w.table deploymentId environment jobId = .ok found
  | .getCurrentJobId, answer, w' => w' = w ∧ ∀ jobId, answer = .value jobId → jobId = job.jobId
  | _, _, w' => w' = w

/-- The record of the request may be inserted between any two operations of the runner. -/
def cloud : Environment Operation Operation.Answer World where
  step w op answer w' :=
    ∃ w₁, (w₁ = w ∨ job.insertRequestEvent w w₁) ∧ job.Responds w₁ op answer w'
  safe _ _ := True

/-- The record of the request is there, or no record of the job is. -/
structure Waits (w : World) : Prop where
  requested : w.requested = true → ∃ epoch, job.own w.table = some (job.request epoch)
  fresh : w.requested = false → ∀ key item, w.table.item key = some (.deployment item) →
    item.record.jobId ≠ job.jobId

structure Begins (w : World) : Prop where
  wellFormed : w.table.WellFormed
  waits : job.Waits w

end Job

/-! ## What is asked -/

/-- A record that is sent is one of this job. -/
def SentUnder (jobId : String) (event : Event) : Prop :=
  ∀ record isPlan answer, event = ⟨.setDeployment record isPlan, answer⟩ → record.jobId = jobId

def IsSend (event : Event) : Prop :=
  ∃ record isPlan answer, event = ⟨.setDeployment record isPlan, answer⟩

/-- What the events tell the runner. -/
def Progress.along (parseJson : String → Except String Json) (trace : List Event) : Progress :=
  trace.foldl (fun p event => p.after parseJson event.1 event.2) .start

theorem Progress.along_concat (parseJson : String → Except String Json) (trace : List Event)
    (op : Operation) (answer : op.Answer) :
    along parseJson (trace ++ [⟨op, answer⟩]) =
      (along parseJson trace).after parseJson op answer := by
  simp only [along, List.foldl_append, List.foldl_cons, List.foldl_nil]

namespace Job

variable (job : Job)

/-- The job has a final status on its own record, with the variables that were submitted, and no
record of another job was written. -/
structure Settled (trace : List Event) (w : World) : Prop where
  record : ∃ record, job.own w.table = some record ∧ record.status.isFinal = true ∧
    record.vars = job.vars
  sends : ∀ event ∈ trace, SentUnder job.jobId event

/-- Nothing fails before the runner knows its job, and the variables that it finds are those of the
job. -/
structure BeginsWell (trace : List Event) : Prop where
  halted : (Progress.along job.rt.parseJson trace).halted = false
  source : (Progress.along job.rt.parseJson trace).source.map DeploymentResp.jobId =
    some job.jobId

end Job

/-! ## Own records -/

section

variable {job : Job} {t t' : Deployments} {record : DeploymentResp} {isPlan : Bool}

theorem Job.key_pk_of_isPlan (hplan : job.isPlan = true) (identifier : String) :
    job.key.pk ≠ deploymentPk identifier := by
  intro heq
  have hhead := congrArg (fun pk => pk.toList.head?) heq
  simp [Job.key, hplan, deploymentPk] at hhead

theorem Job.own_eq_stored (hplan : job.isPlan = false) (t : Deployments) :
    job.own t = t.stored job.identifier := by
  unfold Job.own Deployments.stored Job.key
  rw [hplan]
  rfl

theorem Job.own_eq_some : job.own t = some record ↔
    ∃ item, t.item job.key = some (.deployment item) ∧ item.record = record := by
  unfold Job.own
  split
  · rename_i item hitem
    simp [hitem]
  · rename_i hitem
    simp only [reduceCtorEq, false_iff, not_exists, not_and]
    exact fun item h => absurd h (hitem item)

/-- A record of the job is found where it was stored. -/
theorem Job.own_of_saves (hwf : t.WellFormed)
    (h : Saves job.handler t record job.isPlan t') (hid : record.identifier = job.identifier)
    (hjob : record.jobId = job.jobId) : job.own t' = some record := by
  cases hplan : job.isPlan with
  | false =>
      rw [hplan] at h
      rw [Job.own_eq_stored hplan, h.stored hwf, if_pos ⟨hid, .inl rfl⟩]
  | true =>
      rw [hplan] at h
      have hkey : (getPayload record true).1 = job.key := by
        simp [getPayload, Job.key, hplan, hid, hjob]
      refine Job.own_eq_some.2 ⟨(getPayload record true).2, ?_, rfl⟩
      rw [h.item_plan hwf (Job.key_pk_of_isPlan hplan), if_pos ⟨rfl, hkey⟩]

/-- The record of a plan is not that of its deployment. -/
theorem Job.own_of_saves_deployment (hwf : t.WellFormed) (hplan : job.isPlan = true)
    (h : Saves job.handler t record false t') : job.own t' = job.own t := by
  unfold Job.own
  rw [h.item_plan hwf (Job.key_pk_of_isPlan hplan), if_neg (by simp)]

theorem Job.request_identifier (epoch : Nat) : (job.request epoch).identifier = job.identifier :=
  rfl

end

/-! ## What is kept -/

/-- What the answers that a runner was given tell about the world, and about what it has sent.  The
record of the request is inserted before the runner begins when it is inserted early. -/
structure Tracks (job : Job) (early : Bool) (p : Progress) (w : World) (trace : List Event) :
    Prop where
  along : p = .along job.rt.parseJson trace
  wellFormed : w.table.WellFormed
  requested : early = true → w.requested = true
  sendFailed : p.sendFailed = false
  planJob : ∀ jobId, p.planJob = some jobId → jobId = job.jobId
  identified : ∀ jobId, p.identified = some jobId → jobId = job.jobId ∧ p.initial.isSome = true
  initial : p.initial.isSome = true → p.source.isSome = true
  halted : p.halted = true → p.identified = none
  unknown : p.identified = none → ∀ event ∈ trace, SentUnder "unknown_jobid" event
  untouched : p.last = none → job.Waits w
  last : p.last.isSome = true → ∃ event ∈ trace, IsSend event
  unsent : p.last = none → ∀ event ∈ trace, ¬ IsSend event
  source : ∀ source, p.source = some source →
    (source.jobId = job.jobId → w.requested = true ∧ source.vars = job.vars) ∧
      (early = true → source.jobId = job.jobId)
  settled : p.halted = false → p.source.map DeploymentResp.jobId = some job.jobId →
    (∀ event ∈ trace, SentUnder job.jobId event) ∧
      ∀ status, p.last = some status → ∃ record, job.own w.table = some record ∧
        record.vars = job.vars ∧ record.status = status

section

variable {job : Job} {early : Bool} {p : Progress} {w w' : World} {trace : List Event}

theorem Job.Waits.request {w : World} (hwf : w.table.WellFormed)
    (h : job.insertRequestEvent w w') : job.Waits w' := by
  obtain ⟨-, hrequested, epoch, hsaves⟩ := h
  refine ⟨fun _ => ⟨epoch, Job.own_of_saves hwf hsaves rfl rfl⟩, fun hfalse => ?_⟩
  rw [hrequested] at hfalse
  cases hfalse

theorem Tracks.insertRequestEvent (htracks : Tracks job early p w trace)
    (h : job.insertRequestEvent w w') : Tracks job early p w' trace := by
  have hnot : w.requested ≠ true := by
    rw [h.1]
    exact Bool.false_ne_true
  obtain ⟨epoch, hsaves⟩ := h.2.2
  exact
    { htracks with
      wellFormed := hsaves.wellFormed htracks.wellFormed
      requested := fun _ => h.2.1
      untouched := fun _ => .request htracks.wellFormed h
      source := fun source hsource =>
        ⟨fun hjob => absurd ((htracks.source source hsource).1 hjob).1 hnot,
          (htracks.source source hsource).2⟩
      settled := fun hhalted hsource => by
        obtain ⟨source, hsome, hjob⟩ := Option.map_eq_some_iff.1 hsource
        exact absurd ((htracks.source source hsome).1 hjob).1 hnot }

/-- What the invariant reads of the progress. -/
def Progress.core (p : Progress) : Option String × Option DeploymentResp × Bool ×
    Option (Option DeploymentResp) × Option String × Option DeploymentStatus × Bool :=
  (p.planJob, p.source, p.halted, p.initial, p.identified, p.last, p.sendFailed)

theorem sentUnder_of_not_isSend {event : Event} (h : ¬ IsSend event) (jobId : String) :
    SentUnder jobId event :=
  fun record isPlan answer heq => absurd ⟨record, isPlan, answer, heq⟩ h

theorem forall_mem_concat {q : Event → Prop} {event : Event} (h : ∀ e ∈ trace, q e)
    (hevent : q event) : ∀ e ∈ trace ++ [event], q e := by
  intro e he
  rcases List.mem_append.1 he with he | he
  · exact h e he
  · obtain rfl := List.mem_singleton.1 he
    exact hevent

theorem exists_mem_concat {q : Event → Prop} (event : Event) (h : ∃ e ∈ trace, q e) :
    ∃ e ∈ trace ++ [event], q e := by
  obtain ⟨e, he, hq⟩ := h
  exact ⟨e, List.mem_append_left _ he, hq⟩

/-- An operation that tells nothing new. -/
theorem Tracks.quiet (htracks : Tracks job early p w trace) {event : Event}
    (hsend : ¬ IsSend event) {p' : Progress} (hcore : p'.core = p.core)
    (halong : p' = .along job.rt.parseJson (trace ++ [event])) :
    Tracks job early p' w (trace ++ [event]) := by
  simp only [Progress.core, Prod.mk.injEq] at hcore
  obtain ⟨hplanJob, hsource, hhalted, hinitial, hidentified, hlast, hfailed⟩ := hcore
  constructor
  · exact halong
  · exact htracks.wellFormed
  · exact htracks.requested
  · exact hfailed.trans htracks.sendFailed
  · rw [hplanJob]
    exact htracks.planJob
  · rw [hidentified, hinitial]
    exact htracks.identified
  · rw [hinitial, hsource]
    exact htracks.initial
  · rw [hhalted, hidentified]
    exact htracks.halted
  · rw [hidentified]
    exact fun hnone => forall_mem_concat (htracks.unknown hnone) (sentUnder_of_not_isSend hsend _)
  · rw [hlast]
    exact htracks.untouched
  · rw [hlast]
    exact fun hsome => exists_mem_concat event (htracks.last hsome)
  · rw [hlast]
    exact fun hnone => forall_mem_concat (htracks.unsent hnone) hsend
  · rw [hsource]
    exact htracks.source
  · rw [hhalted, hsource, hlast]
    intro hnot hown
    obtain ⟨hsends, hrecord⟩ := htracks.settled hnot hown
    exact ⟨forall_mem_concat hsends (sentUnder_of_not_isSend hsend _), hrecord⟩

/-- A failure matters only before the job is known. -/
theorem Tracks.failed (htracks : Tracks job early p w trace) {event : Event}
    (hsend : ¬ IsSend event)
    (halong : p.failed = .along job.rt.parseJson (trace ++ [event])) :
    Tracks job early p.failed w (trace ++ [event]) := by
  unfold Progress.failed at halong ⊢
  split at halong
  · rename_i hnone
    have hid := Option.isNone_iff_eq_none.1 hnone
    rw [if_pos hnone]
    exact
      { htracks with
        along := halong
        halted := fun _ => hid
        unknown := fun _ => forall_mem_concat (htracks.unknown hid)
          (sentUnder_of_not_isSend hsend _)
        last := fun hsome => exists_mem_concat event (htracks.last hsome)
        unsent := fun hnone => forall_mem_concat (htracks.unsent hnone) hsend
        settled := nofun }
  · rename_i hsome
    rw [if_neg hsome]
    exact htracks.quiet hsend rfl halong

/-- A record of the job is that of its request, as long as nothing was sent. -/
theorem Job.Waits.own {early : Bool} (hwaits : job.Waits w)
    (hearly : early = true → w.requested = true) {source : DeploymentResp}
    (hown : job.own w.table = some source) :
    (source.jobId = job.jobId → w.requested = true ∧ source.vars = job.vars) ∧
      (early = true → source.jobId = job.jobId) := by
  cases hrequested : w.requested with
  | true =>
      obtain ⟨epoch, hrequest⟩ := hwaits.requested hrequested
      obtain rfl := Option.some.inj (hrequest.symm.trans hown)
      exact ⟨fun _ => ⟨rfl, rfl⟩, fun _ => rfl⟩
  | false =>
      obtain ⟨item, hitem, rfl⟩ := Job.own_eq_some.1 hown
      have hfresh := hwaits.fresh hrequested _ _ hitem
      refine ⟨fun heq => absurd heq hfresh, fun heq => ?_⟩
      rw [hearly heq] at hrequested
      cases hrequested

/-- The record from which the variables are taken. -/
theorem Tracks.found (htracks : Tracks job early p w trace) {event : Event}
    (hsend : ¬ IsSend event) (hlast : p.last = none) (hsource : p.source = none)
    {found : Option DeploymentResp} (hfound : ∀ source, found = some source →
      job.own w.table = some source)
    (halong : { p with source := found } = .along job.rt.parseJson (trace ++ [event])) :
    Tracks job early { p with source := found } w (trace ++ [event]) := by
  have hinitial : p.initial.isSome ≠ true := by
    intro hsome
    have := htracks.initial hsome
    rw [hsource] at this
    cases this
  exact
    { htracks with
      along := halong
      initial := fun hsome => absurd hsome hinitial
      unknown := fun hnone => forall_mem_concat (htracks.unknown hnone)
        (sentUnder_of_not_isSend hsend _)
      last := fun hsome => exists_mem_concat event (htracks.last hsome)
      unsent := fun hnone => forall_mem_concat (htracks.unsent hnone) hsend
      source := fun source heq =>
        (htracks.untouched hlast).own htracks.requested (hfound source heq)
      settled := fun _ _ =>
        ⟨forall_mem_concat (fun e he => sentUnder_of_not_isSend (htracks.unsent hlast e he) _)
          (sentUnder_of_not_isSend hsend _), fun status hstatus => by
            have : p.last = some status := hstatus
            rw [hlast] at this
            cases this⟩ }

theorem Tracks.getPlanDeployment (htracks : Tracks job early p w trace)
    {deploymentId environment jobId : String} {answer : Reply (Option DeploymentResp)}
    (hallowed : Allowed job.rt p (.getPlanDeployment deploymentId environment jobId))
    (hresponds : job.Responds w (.getPlanDeployment deploymentId environment jobId) answer w')
    (halong : p.after job.rt.parseJson (.getPlanDeployment deploymentId environment jobId) answer =
      .along job.rt.parseJson
        (trace ++ [⟨.getPlanDeployment deploymentId environment jobId, answer⟩])) :
    Tracks job early
      (p.after job.rt.parseJson (.getPlanDeployment deploymentId environment jobId) answer) w'
      (trace ++ [⟨.getPlanDeployment deploymentId environment jobId, answer⟩]) := by
  obtain ⟨rfl, hread⟩ := hresponds
  obtain ⟨hlast, hsource, hjob, hplan, rfl, rfl⟩ := hallowed
  have hsend : ¬ IsSend ⟨.getPlanDeployment job.rt.payload.deploymentId
      job.rt.payload.environment jobId, answer⟩ := by
    rintro ⟨record, isPlan, answer', heq⟩
    cases heq
  cases answer with
  | error e => exact htracks.failed hsend halong
  | panic message => exact htracks.failed hsend halong
  | value found =>
      refine htracks.found hsend hlast hsource (fun source heq => ?_) halong
      subst heq
      obtain ⟨item, hitem, hrecord⟩ := item_of_getPlanDeployment (hread _ rfl)
      have hkey : job.key = ⟨"PLAN#" ++ job.identifier, jobId⟩ := by
        rw [Job.key, htracks.planJob jobId hjob]
        simp [Job.isPlan, hplan]
      refine Job.own_eq_some.2 ⟨item, ?_, hrecord⟩
      rw [hkey]
      exact hitem

theorem Tracks.getDeployment (htracks : Tracks job early p w trace)
    {deploymentId environment : String} {includeDeleted : Bool}
    {answer : Reply (Option DeploymentResp)}
    (hallowed : Allowed job.rt p (.getDeployment deploymentId environment includeDeleted))
    (hresponds : job.Responds w (.getDeployment deploymentId environment includeDeleted) answer w')
    (halong : p.after job.rt.parseJson (.getDeployment deploymentId environment includeDeleted)
        answer = .along job.rt.parseJson
          (trace ++ [⟨.getDeployment deploymentId environment includeDeleted, answer⟩])) :
    Tracks job early
      (p.after job.rt.parseJson (.getDeployment deploymentId environment includeDeleted) answer) w'
      (trace ++ [⟨.getDeployment deploymentId environment includeDeleted, answer⟩]) := by
  obtain ⟨rfl, hread⟩ := hresponds
  have hsend : ¬ IsSend ⟨.getDeployment deploymentId environment includeDeleted, answer⟩ := by
    rintro ⟨record, isPlan, answer', heq⟩
    cases heq
  cases answer with
  | error e => exact htracks.failed hsend halong
  | panic message => exact htracks.failed hsend halong
  | value found =>
      change p.read deploymentId environment found = _ at halong
      change Tracks job early (p.read deploymentId environment found) _ _
      unfold Progress.read at halong ⊢
      split at halong
      · -- The first record that is read is the source of the variables.
        rename_i hnone
        rw [if_pos hnone]
        have hsource := Option.isNone_iff_eq_none.1 hnone
        obtain ⟨rfl, hinitial | ⟨rfl, rfl, hlast, hsome | hplan⟩⟩ := hallowed
        · have := htracks.initial hinitial
          rw [hsource] at this
          cases this
        · rw [hsource] at hsome
          cases hsome
        · refine htracks.found hsend hlast hsource (fun source heq => ?_) halong
          subst heq
          have hfound := hread _ rfl
          rw [Deployments.getDeployment_eq _ _ _ htracks.wellFormed] at hfound
          obtain ⟨hstored, -⟩ := Option.filter_eq_some_iff.1 (Except.ok.inj hfound)
          rw [Job.own_eq_stored (decide_eq_false hplan)]
          exact hstored
      · rename_i hsome
        rw [if_neg hsome]
        split at halong
        · rename_i hnone
          rw [if_pos hnone]
          have hsource : p.source.isSome = true :=
            Option.isSome_iff_ne_none.2 fun heq => hsome (Option.isNone_iff_eq_none.2 heq)
          exact
            { htracks with
              along := halong
              identified := fun jobId hid => ⟨(htracks.identified jobId hid).1, rfl⟩
              initial := fun _ => hsource
              unknown := fun hnone => forall_mem_concat (htracks.unknown hnone)
                (sentUnder_of_not_isSend hsend _)
              last := fun hsome => exists_mem_concat _ (htracks.last hsome)
              unsent := fun hnone => forall_mem_concat (htracks.unsent hnone) hsend
              settled := fun hnot hown =>
                ⟨forall_mem_concat (htracks.settled hnot hown).1
                  (sentUnder_of_not_isSend hsend _), (htracks.settled hnot hown).2⟩ }
        · rename_i hsome'
          rw [if_neg hsome']
          split at halong
          · rename_i hready
            rw [if_pos hready]
            exact htracks.quiet hsend rfl halong
          · rename_i hready
            rw [if_neg hready]
            exact htracks.quiet hsend rfl halong

theorem Tracks.getCurrentJobId (htracks : Tracks job early p w trace) {answer : Reply String}
    (hallowed : Allowed job.rt p .getCurrentJobId)
    (hresponds : job.Responds w .getCurrentJobId answer w')
    (halong : p.after job.rt.parseJson .getCurrentJobId answer =
      .along job.rt.parseJson (trace ++ [⟨.getCurrentJobId, answer⟩])) :
    Tracks job early (p.after job.rt.parseJson .getCurrentJobId answer) w'
      (trace ++ [⟨.getCurrentJobId, answer⟩]) := by
  obtain ⟨rfl, hread⟩ := hresponds
  have hsend : ¬ IsSend ⟨.getCurrentJobId, answer⟩ := by
    rintro ⟨record, isPlan, answer', heq⟩
    cases heq
  have hhalted : p.halted ≠ true := by
    rw [show p.halted = false from hallowed]
    exact Bool.false_ne_true
  have hsettled : p.halted = false → p.source.map DeploymentResp.jobId = some job.jobId →
      (∀ event ∈ trace ++ [⟨.getCurrentJobId, answer⟩], SentUnder job.jobId event) ∧
        ∀ status, p.last = some status → ∃ record, job.own w'.table = some record ∧
          record.vars = job.vars ∧ record.status = status :=
    fun hnot hown => ⟨forall_mem_concat (htracks.settled hnot hown).1
      (sentUnder_of_not_isSend hsend _), (htracks.settled hnot hown).2⟩
  cases answer with
  | error e => exact htracks.failed hsend halong
  | panic message => exact htracks.failed hsend halong
  | value jobId =>
      have hjob := hread jobId rfl
      change (if _ then _ else _) = _ at halong
      change Tracks job early (if _ then _ else _) _ _
      split at halong
      · rename_i hinitial
        rw [if_pos hinitial]
        exact
          { htracks with
            along := halong
            identified := fun jobId' heq => ⟨Option.some.inj heq ▸ hjob, hinitial⟩
            halted := fun heq => absurd heq hhalted
            unknown := nofun
            last := fun hsome => exists_mem_concat _ (htracks.last hsome)
            unsent := fun hnone => forall_mem_concat (htracks.unsent hnone) hsend
            settled := hsettled }
      · rename_i hinitial
        rw [if_neg hinitial]
        exact
          { htracks with
            along := halong
            planJob := fun jobId' heq => Option.some.inj heq ▸ hjob
            unknown := fun hnone => forall_mem_concat (htracks.unknown hnone)
              (sentUnder_of_not_isSend hsend _)
            last := fun hsome => exists_mem_concat _ (htracks.last hsome)
            unsent := fun hnone => forall_mem_concat (htracks.unsent hnone) hsend
            settled := hsettled }

/-- What a record that is sent says about its job. -/
theorem Fits.deployment {h : DeploymentStatusHandler} (hfits : Fits job.rt p h) (epoch : Nat) :
    (h.deployment job.rt.parseDuration epoch).identifier = job.identifier ∧
      h.isPlan = job.isPlan := by
  have hsame := hfits.unchanged
  refine ⟨?_, ?_⟩
  · change getDeploymentIdentifier h.projectId h.region h.deploymentId h.environment = _
    rw [hsame.projectId, hsame.region, hsame.deploymentId, hsame.environment]
    rfl
  · change decide (h.command = "plan") = _
    rw [hsame.command]
    rfl

theorem Tracks.send (htracks : Tracks job early p w trace) {record : DeploymentResp}
    {isPlan : Bool} {answer : Reply Unit}
    (hallowed : Allowed job.rt p (.setDeployment record isPlan))
    (hresponds : job.Responds w (.setDeployment record isPlan) answer w')
    (halong : p.after job.rt.parseJson (.setDeployment record isPlan) answer =
      .along job.rt.parseJson (trace ++ [⟨.setDeployment record isPlan, answer⟩])) :
    Tracks job early (p.after job.rt.parseJson (.setDeployment record isPlan) answer) w'
      (trace ++ [⟨.setDeployment record isPlan, answer⟩]) := by
  obtain ⟨rfl, hsaves, hrequested⟩ := hresponds
  obtain ⟨h, epoch, hfits, hmay, rfl, hplan⟩ := hallowed
  obtain ⟨hid, hsame⟩ := hfits.deployment epoch
  have hjobId : (h.deployment job.rt.parseDuration epoch).jobId =
      p.identified.getD "unknown_jobid" := hfits.jobId
  have hunder : ∀ jobId, p.identified.getD "unknown_jobid" = jobId → SentUnder jobId
      ⟨.setDeployment (h.deployment job.rt.parseDuration epoch) isPlan, Reply.value ()⟩ := by
    intro jobId heq record isPlan' answer' hevent
    cases hevent
    exact hjobId.trans heq
  exact
    { htracks with
      along := halong
      wellFormed := hsaves.wellFormed htracks.wellFormed
      requested := fun heq => hrequested.trans (htracks.requested heq)
      unknown := fun hnone => by
        have hnone' : p.identified = none := hnone
        refine forall_mem_concat (htracks.unknown hnone') (hunder _ ?_)
        rw [hnone', Option.getD_none]
      untouched := nofun
      last := fun _ =>
        ⟨_, List.mem_append_right _ (List.mem_singleton_self _), _, _, _, rfl⟩
      unsent := nofun
      source := fun source heq =>
        ⟨fun hjob => ⟨hrequested.trans ((htracks.source source heq).1 hjob).1,
          ((htracks.source source heq).1 hjob).2⟩, (htracks.source source heq).2⟩
      settled := fun hnot hown => by
        obtain ⟨hsends, hrecord⟩ := htracks.settled hnot hown
        obtain ⟨source, hsource, hjob⟩ := Option.map_eq_some_iff.1 hown
        have hsource' : p.source = some source := hsource
        -- The job is known, since nothing has failed and its record was found.
        have hknown : p.identified.isSome = true := by
          rcases hfits.known with hsome | hhalted | hnone
          · exact hsome
          · exact absurd (hhalted.symm.trans hnot) (by decide)
          · rw [hsource'] at hnone
            cases hnone
        obtain ⟨jobId, hidentified⟩ := Option.isSome_iff_exists.1 hknown
        have hgetD : p.identified.getD "unknown_jobid" = job.jobId := by
          rw [hidentified]
          exact (htracks.identified jobId hidentified).1
        refine ⟨forall_mem_concat hsends (hunder _ hgetD), fun status hstatus => ?_⟩
        obtain rfl := Option.some.inj hstatus
        rcases hplan with rfl | ⟨rfl, hcheck, hfinal, hlast⟩
        · rw [hsame] at hsaves
          refine ⟨_, Job.own_of_saves htracks.wellFormed hsaves hid (hjobId.trans hgetD), ?_, rfl⟩
          change h.vars = _
          rw [hfits.vars, hsource']
          exact ((htracks.source source hsource').1 hjob).2
        · -- The second record of a drift check is that of the deployment.
          have hisPlan : job.isPlan = true := decide_eq_true (hfits.isDriftCheck hcheck).1.1
          obtain ⟨record, hrecord, hvars, hstatus⟩ := hrecord _ hlast
          rw [Job.own_of_saves_deployment htracks.wellFormed hisPlan hsaves]
          exact ⟨record, hrecord, hvars, hstatus⟩ }

/-- An operation that neither reads nor writes the table, nor tells the job. -/
def Operation.IsLocal : Operation → Prop
  | getCurrentJobId | getDeployment _ _ _ | getPlanDeployment _ _ _ | setDeployment _ _ => False
  | _ => True

theorem Progress.core_ran (parseJson : String → Except String Json) (p : Progress)
    (command : TerraformCommand) (reply : Reply String) :
    (p.ran parseJson command reply).core = p.core := by
  unfold Progress.ran
  split
  · cases reply <;> rfl
  · split
    · cases reply <;> rfl
    · split
      · cases reply with
        | value stdout =>
            dsimp only
            cases parseJson stdout with
            | ok json => rfl
            | error e => rfl
        | error e => rfl
        | panic message => rfl
      · split
        · rfl
        · split
          · cases reply <;> rfl
          · rfl

theorem Progress.core_evaluated (parseJson : String → Except String Json) (p : Progress)
    (stdout : String) : (p.evaluated parseJson stdout).core = p.core := by
  unfold Progress.evaluated
  cases parseJson stdout with
  | error e => rfl
  | ok json =>
      dsimp only
      split
      · rfl
      · rfl

/-- What a local operation tells does not matter here, unless it fails before the job is known. -/
theorem Progress.after_local (parseJson : String → Except String Json) (p : Progress)
    {op : Operation} (hlocal : op.IsLocal) (answer : op.Answer) :
    (p.after parseJson op answer).core = p.core ∨ p.after parseJson op answer = p.failed := by
  cases op with
  | getCurrentJobId => cases hlocal
  | getDeployment deploymentId environment includeDeleted => cases hlocal
  | getPlanDeployment deploymentId environment jobId => cases hlocal
  | setDeployment record isPlan => cases hlocal
  | terraform command => exact .inl (core_ran parseJson p command answer)
  | storeTfVarsJson vars =>
      cases answer with
      | value _ => exact .inl rfl
      | error e => exact .inr rfl
      | panic message => exact .inr rfl
  | storeBackendFile =>
      cases answer with
      | value _ => exact .inl rfl
      | error e => exact .inr rfl
      | panic message => exact .inr rfl
  | getDeploymentAndDependents deploymentId environment includeDeleted =>
      cases answer with
      | value found =>
          obtain ⟨deployment, dependants⟩ := found
          cases dependants with
          | nil => exact .inl rfl
          | cons dependant dependants => exact .inl rfl
      | error e => exact .inl rfl
      | panic message => exact .inl rfl
  | writeFile name content =>
      cases answer with
      | value _ =>
          rw [after_writeFile]
          split
          · exact .inl rfl
          · exact .inl rfl
      | error e => exact .inl rfl
      | panic message => exact .inl rfl
  | getAllPolicies environment => cases answer <;> exact .inl rfl
  | downloadPolicy policy => cases answer <;> exact .inl rfl
  | opa policyName regoFiles =>
      cases answer with
      | value stdout => exact .inl (core_evaluated parseJson p stdout)
      | error e => exact .inl rfl
      | panic message => exact .inl rfl
  | _ => exact .inl rfl

theorem Operation.IsLocal.not_isSend {op : Operation} (hlocal : op.IsLocal) (answer : op.Answer) :
    ¬ IsSend ⟨op, answer⟩ := by
  rintro ⟨record, isPlan, answer', heq⟩
  cases heq
  exact hlocal

theorem Tracks.after_local (htracks : Tracks job early p w trace) {op : Operation}
    (hlocal : op.IsLocal) {answer : op.Answer}
    (halong : p.after job.rt.parseJson op answer =
      .along job.rt.parseJson (trace ++ [⟨op, answer⟩])) :
    Tracks job early (p.after job.rt.parseJson op answer) w (trace ++ [⟨op, answer⟩]) := by
  have hsend := hlocal.not_isSend answer
  rcases Progress.after_local job.rt.parseJson p hlocal answer with hcore | hfailed
  · exact htracks.quiet hsend hcore halong
  · rw [hfailed] at halong ⊢
    exact htracks.failed hsend halong

/-- One operation of the runner, with the record of the request inserted before it or not. -/
theorem Tracks.step (htracks : Tracks job early p w trace) {op : Operation} {answer : op.Answer}
    (hallowed : Allowed job.rt p op) (hstep : job.cloud.step w op answer w') :
    Tracks job early (p.after job.rt.parseJson op answer) w' (trace ++ [⟨op, answer⟩]) := by
  obtain ⟨w₁, hinserted, hresponds⟩ := hstep
  have htracks₁ : Tracks job early p w₁ trace := by
    rcases hinserted with rfl | hinserted
    · exact htracks
    · exact htracks.insertRequestEvent hinserted
  have halong : p.after job.rt.parseJson op answer =
      .along job.rt.parseJson (trace ++ [⟨op, answer⟩]) := by
    rw [Progress.along_concat, ← htracks.along]
  cases op with
  | getCurrentJobId => exact htracks₁.getCurrentJobId hallowed hresponds halong
  | getDeployment deploymentId environment includeDeleted =>
      exact htracks₁.getDeployment hallowed hresponds halong
  | getPlanDeployment deploymentId environment jobId =>
      exact htracks₁.getPlanDeployment hallowed hresponds halong
  | setDeployment record isPlan => exact htracks₁.send hallowed hresponds halong
  | _ =>
      obtain rfl : w' = w₁ := hresponds
      refine htracks₁.after_local ?_ halong
      trivial

theorem Job.Begins.tracks (h : job.Begins w) : Tracks job w.requested .start w [] where
  along := rfl
  wellFormed := h.wellFormed
  requested := id
  sendFailed := rfl
  planJob jobId hplan := absurd hplan (Option.some_ne_none jobId).symm
  identified jobId hid := absurd hid (Option.some_ne_none jobId).symm
  initial hinitial := absurd hinitial Bool.false_ne_true
  halted hhalted := absurd hhalted Bool.false_ne_true
  unknown _ _ hevent := absurd hevent List.not_mem_nil
  untouched _ := h.waits
  last hlast := absurd hlast Bool.false_ne_true
  unsent _ _ hevent := absurd hevent List.not_mem_nil
  source source hsource := absurd hsource (Option.some_ne_none source).symm
  settled _ hsource := absurd hsource (Option.some_ne_none job.jobId).symm

end

/-! ## Runs -/

section

variable {job : Job} {early : Bool} {p : Progress} {w w' : World} {trace : List Event}

/-- What is known at the end of a run. -/
theorem Job.Begins.tracks_end {result : Except Stop Unit × EnvCommon.DeploymentStatusHandler}
    (hbegins : job.Begins w)
    (hrun : Program.Runs job.cloud w (runnerProgram job.rt) trace w' result) :
    ∃ p, Tracks job w.requested p w' trace ∧ p.Over := by
  have hkept : Program.WP job.cloud.recorded
      (fun s _ => ∃ p, Tracks job w.requested p s.1 s.2 ∧ p.Over) (w, [])
      (runnerProgram job.rt) := by
    let inv : Progress → World × List Event → Prop := fun p s => Tracks job w.requested p s.1 s.2
    have hstart : inv .start (w, []) := hbegins.tracks
    refine (runnerProgram_conforms job.rt).transfer ?_ ?_ hstart
    · exact fun p s op _ _ => trivial
    · intro p s op answer s' htracks hallowed hstep
      refine ⟨_, rfl, ?_⟩
      rw [hstep.2]
      exact htracks.step hallowed hstep.1
  have hend := hkept.sound (hrun.recorded [])
  rwa [List.nil_append] at hend

/-- What has been sent is final, and is the record of the job. -/
theorem Tracks.settle (htracks : Tracks job early p w trace) (hover : p.Over)
    (hbegins : job.BeginsWell trace) : job.Settled trace w := by
  obtain ⟨hhalted, hsource⟩ := hbegins
  rw [← htracks.along] at hhalted hsource
  obtain ⟨hsends, hrecord⟩ := htracks.settled hhalted hsource
  have hreported : ∃ status, p.last = some status ∧ status.isFinal = true := by
    rcases hover with hhalted' | hfailed | hreported
    · exact absurd (hhalted'.symm.trans hhalted) (by decide)
    · exact absurd (hfailed.symm.trans htracks.sendFailed) (by decide)
    · exact hreported.imp fun _ hlast => ⟨hlast.1, hlast.2.1⟩
  obtain ⟨status, hlast, hfinal⟩ := hreported
  obtain ⟨record, hown, hvars, hstatus⟩ := hrecord status hlast
  refine ⟨⟨record, hown, ?_, hvars⟩, hsends⟩
  rw [hstatus]
  exact hfinal

/-- The request is not final, so that something was sent; and it was sent for the job, so that the
job was known. -/
theorem Tracks.identified_of_settled (htracks : Tracks job true p w trace)
    (hsettled : job.Settled trace w) : p.identified = some job.jobId := by
  have hsome : p.last.isSome = true := by
    rw [Option.isSome_iff_ne_none]
    intro hnone
    obtain ⟨record, hown, hfinal, -⟩ := hsettled.record
    obtain ⟨epoch, hrequest⟩ := (htracks.untouched hnone).requested (htracks.requested rfl)
    obtain rfl := Option.some.inj (hrequest.symm.trans hown)
    cases hfinal
  obtain ⟨event, hevent, record, isPlan, answer, rfl⟩ := htracks.last hsome
  have hown := hsettled.sends _ hevent record isPlan answer rfl
  cases hidentified : p.identified with
  | none =>
      have hunknown := htracks.unknown hidentified _ hevent record isPlan answer rfl
      exact absurd (hown.symm.trans hunknown) job.named
  | some jobId => rw [(htracks.identified jobId hidentified).1]

theorem Tracks.beginsWell (htracks : Tracks job true p w trace)
    (hsettled : job.Settled trace w) : job.BeginsWell trace := by
  have hidentified := htracks.identified_of_settled hsettled
  have hinitial := (htracks.identified _ hidentified).2
  obtain ⟨source, hsource⟩ := Option.isSome_iff_exists.1 (htracks.initial hinitial)
  constructor
  · rw [← htracks.along, Bool.eq_false_iff]
    intro hhalted
    rw [htracks.halted hhalted] at hidentified
    cases hidentified
  · rw [← htracks.along, hsource, Option.map_some, ((htracks.source source hsource).2 rfl)]

/-- A job that begins well ends with a final status on its own record, whatever fails later on; one
whose request is recorded in time does so only then. -/
theorem settled_of_run {result : Except Stop Unit × EnvCommon.DeploymentStatusHandler}
    (hbegins : job.Begins w)
    (hrun : Program.Runs job.cloud w (runnerProgram job.rt) trace w' result) :
    (job.BeginsWell trace → job.Settled trace w') ∧
      (w.requested = true → job.Settled trace w' → job.BeginsWell trace) := by
  obtain ⟨p, htracks, hover⟩ := hbegins.tracks_end hrun
  refine ⟨htracks.settle hover, fun hearly => ?_⟩
  rw [hearly] at htracks
  exact htracks.beginsWell

end

/-! ## A job whose module cannot be read -/

/-- Files are written, and everything else that is asked for is refused. -/
def Operation.refused : (op : Operation) → op.Answer
  | getEpoch => 0
  | storeTfVarsJson _ | storeBackendFile => .value ()
  | getCurrentJobId | getDeployment _ _ _ | getPlanDeployment _ _ _
  | getDeploymentAndDependents _ _ _ | setDeployment _ _ | getModuleVersion _ _ _
  | checkModuleDeprecation _ _ _ _ _ _ | setUpProviderMirror _ _ | downloadModuleZip _
  | downloadModuleOci _ | getAllPolicies _ | downloadPolicy _ | getAllRegoFilenames | terraform _
  | opa _ _ | storeEnvAsJson | storePolicyInput _ | writeFile _ _ | readFile _ | removeFile _
  | uploadFile _ _ | insertInfraChangeRecord _ | postWebhook _ _ | publishNotification _ =>
      .error "timeout"

/-- A cloud that stores records, refuses the rest, and may be able to read the deployment. -/
def Job.respond (job : Job) (readable : Bool) (w : World) :
    (op : Operation) → Option (op.Answer × World)
  | .setDeployment record isPlan =>
      let stored := setDeployment w.table job.handler record isPlan
      match stored.result with
      | .ok () =>
          some (.value (), { w with table := stored.writes.foldl KeyedTable.transact w.table })
      | .error _ => none
  | .getDeployment deploymentId environment includeDeleted =>
      match job.handler.getDeployment w.table deploymentId environment includeDeleted with
      | .ok found => some (if readable then .value found else .error "timeout", w)
      | .error e => some (.error e, w)
  | .getCurrentJobId => some (.value job.jobId, w)
  | op => some (op.refused, w)

theorem Job.step_of_respond (job : Job) (readable : Bool) (w : World) (op : Operation)
    (answer : op.Answer) (w' : World) (h : job.respond readable w op = some (answer, w')) :
    job.cloud.step w op answer w' := by
  refine ⟨w, .inl rfl, ?_⟩
  cases op with
  | setDeployment record isPlan =>
      simp only [Job.respond] at h
      split at h
      · rename_i hstored
        obtain ⟨rfl, rfl⟩ := Prod.mk.inj (Option.some.inj h)
        exact ⟨rfl, ⟨hstored, rfl⟩, rfl⟩
      · cases h
  | getDeployment deploymentId environment includeDeleted =>
      simp only [Job.respond] at h
      split at h
      · rename_i found hfound
        obtain ⟨rfl, rfl⟩ := Prod.mk.inj (Option.some.inj h)
        refine ⟨rfl, fun found' heq => ?_⟩
        split at heq
        · obtain rfl := Reply.value.inj heq
          exact hfound
        · cases heq
      · obtain ⟨rfl, rfl⟩ := Prod.mk.inj (Option.some.inj h)
        refine ⟨rfl, fun found heq => ?_⟩
        cases heq
  | getPlanDeployment deploymentId environment jobId =>
      obtain ⟨rfl, rfl⟩ := Prod.mk.inj (Option.some.inj h)
      refine ⟨rfl, fun found heq => ?_⟩
      cases heq
  | getCurrentJobId =>
      obtain ⟨rfl, rfl⟩ := Prod.mk.inj (Option.some.inj h)
      exact ⟨rfl, fun jobId heq => (Reply.value.inj heq).symm⟩
  | _ =>
      obtain ⟨-, rfl⟩ := Prod.mk.inj (Option.some.inj h)
      rfl

def webPayload : ApiInfraPayload where
  command := "apply"
  flags := []
  module := "web"
  moduleVersion := "1.0.0"
  moduleType := "module"
  moduleTrack := "stable"
  name := "a"
  environment := "cli/default"
  deploymentId := "web/a"
  projectId := "1"
  region := "eu"
  driftDetection := .default
  nextDriftCheckEpoch := -1
  annotations := .null
  dependencies := []
  initiatedBy := "cli"
  cpu := "256"
  memory := "512"
  reference := ""
  extraData := .null

def webRuntime : Runtime where
  payload := webPayload
  storageBasepath := ""
  ociArtifactMode := false
  parseDuration _ := none
  parseJson _ := .error "expected value"
  prettyModule _ := ""
  orders _ := ⟨fun _ keys => keys, fun _ _ => .refl _⟩

def webJob : Job where
  rt := webRuntime
  vars := .object []
  jobId := "1"
  named := by decide

/-- The record of the request is in the table. -/
def webWorld : World where
  table := (setDeployment .empty webJob.handler (webJob.request 0) false).writes.foldl
    KeyedTable.transact .empty
  requested := true

theorem begins_web : webJob.Begins webWorld := by
  have hsaves : Saves webJob.handler .empty (webJob.request 0) false webWorld.table :=
    ⟨by decide +kernel, rfl⟩
  have hwf : Deployments.WellFormed .empty := Deployments.wellFormed_empty
  exact ⟨hsaves.wellFormed hwf,
    .request (w := ⟨.empty, false⟩) hwf ⟨rfl, rfl, 0, hsaves⟩⟩

/-- The job ends when its module is looked up, and says so in its own record. -/
theorem settled_of_run_web : ∃ trace w' result,
    Program.Runs webJob.cloud webWorld (runnerProgram webJob.rt) trace w' result ∧
      webJob.Settled trace w' := by
  have hrun : (Program.execute (webJob.respond true) webWorld (runnerProgram webJob.rt)).any
      fun r =>
        let p := Progress.along webJob.rt.parseJson r.1
        decide (p.halted = false ∧ p.source.map DeploymentResp.jobId = some webJob.jobId) := by
    decide +kernel
  obtain ⟨⟨trace, w', result⟩, hexecute, hbegins⟩ := (Option.any_eq_true _ _).1 hrun
  obtain ⟨hhalted, hsource⟩ := of_decide_eq_true hbegins
  have hruns := Program.runs_execute (webJob.step_of_respond true) hexecute
  exact ⟨trace, w', result, hruns, (settled_of_run begins_web hruns).1 ⟨hhalted, hsource⟩⟩

/-- When the table cannot be read the runner gives up before it knows its job, and its record takes
the place of that of the job. -/
theorem not_settled_web : ¬ ∀ (job : Job) (w w' : World) (trace : List Event)
    (result : Except Stop Unit × EnvCommon.DeploymentStatusHandler), job.Begins w →
      w.requested = true → Program.Runs job.cloud w (runnerProgram job.rt) trace w' result →
        job.Settled trace w' := by
  have hrun : (Program.execute (webJob.respond false) webWorld (runnerProgram webJob.rt)).any
      fun r => decide ((webJob.own r.2.1.table).map (fun record => (record.jobId, record.vars)) =
        some ("unknown_jobid", .null)) := by
    decide +kernel
  obtain ⟨⟨trace, w', result⟩, hexecute, hown⟩ := (Option.any_eq_true _ _).1 hrun
  have hruns := Program.runs_execute (webJob.step_of_respond false) hexecute
  intro h
  obtain ⟨record, hrecord, -, hvars⟩ := (h webJob _ _ _ _ begins_web rfl hruns).record
  have hnull := of_decide_eq_true hown
  rw [hrecord, Option.map_some, hvars] at hnull
  cases congrArg Prod.snd (Option.some.inj hnull)

end TerraformRunner
end InfraWeave
