import InfraWeave.Cli.Plan
import InfraWeave.EnvCommon.StoredDeployments
import InfraWeave.Lib.Runs

/-!
# Polls among the jobs

The CLI polls its jobs while these and other jobs store their records.  In direct mode a poll reads
the table; in HTTP mode the client asks for the status of the task, the server reads a row, asks
for the status of the task again and answers, and other steps come between.
-/

namespace InfraWeave
namespace Cli

open EnvAwsDirect EnvCommon InsertionOrder InternalApi

/-! ## The system -/

/-- The tables by region, the tasks that have ended, and the records that jobs have set. -/
structure World where
  table : String → Deployments
  exited : List String
  written : List DeploymentResp

/-- What `report_job` is told by a poll, and whether it returns that the job failed. -/
structure Observation where
  cj : ClaimJobStruct
  inProgress : Bool
  deployment : Option DeploymentResp
  failed : Bool

def Observation.Succeeded (o : Observation) : Prop :=
  ∃ d, o.deployment = some d ∧ d.status = .successful

/-- The status that the client was told of the task, and the row that the server has read. -/
structure Asked where
  jobStatus : Except String Json
  row : Option (Key × DeploymentRow)

structure State where
  world : World
  following : Following
  asked : Option Asked
  log : List Observation

inductive Act where
  | store (region : String) (call : SetDeployment)
  | exit (jobId : String)
  | ask (jobStatus : Except String Json)
  | poll (fails : Bool) (getJobStatus : JobStatuses)

/-- The job that is polled next. -/
def State.next (s : State) : Option ClaimJobStruct :=
  match s.following with
  | .polling _ _ round => round.pending.head?
  | .returned _ _ => none

/-- What the requests of a poll are answered; in direct mode nothing is asked before. -/
def World.reads (w : World) (asked : Asked) (fails : Bool) (getJobStatus : JobStatuses) :
    Reads where
  getDeployment handler deploymentId environment includeDeleted :=
    if fails then .error "request failed"
    else handler.getDeployment (w.table handler.region) deploymentId environment includeDeleted
  getPlanDeployment handler deploymentId environment jobId :=
    if fails then .error "request failed"
    else handler.getPlanDeployment (w.table handler.region) deploymentId environment jobId
  jobStatus := asked.jobStatus
  described :=
    if fails then .error "request failed"
    else
      match asked.row with
      | some row => .ok (ecsLivenessCheck getJobStatus row)
      | none => .error "Deployment not found"

namespace Session

variable (session : Session)

def recordQuery (projectId : String) (cj : ClaimJobStruct) : Query :=
  if session.isPlan then
    getPlanDeploymentQuery projectId cj.region cj.deploymentId cj.environment (shortId cj.jobId)
  else
    getDeploymentAndDependentsQuery projectId cj.region cj.deploymentId cj.environment true

/-- `describe_deployment` and `describe_plan_deployment` answer with the first row. -/
def readRow (w : World) (projectId : String) (cj : ClaimJobStruct) : Option (Key × DeploymentRow) :=
  match (w.table cj.region).read (session.recordQuery projectId cj) with
  | .ok rows => rows.head?
  | .error _ => none

/-- What is known when a poll is made; in HTTP mode the server has to be asked first. -/
def askedBefore (s : State) : Option Asked :=
  match session.mode with
  | .direct _ => some ⟨.error "not asked", none⟩
  | .http none => some ⟨.error "not asked", none⟩
  | .http (some _) => s.asked

def observe (cj : ClaimJobStruct) (console : Console) :
    Except String (Bool × Option DeploymentResp) → List Observation
  | .error _ => []
  | .ok (inProgress, deployment) =>
      [⟨cj, inProgress, deployment,
        (reportJob inProgress cj.jobId deployment session.quiet console).1⟩]

def step (s : State) : Act → State
  | .store region call =>
      { s with
        world :=
          { s.world with
            table := Function.update s.world.table region ((s.world.table region).step call)
            written := s.world.written ++ [call.deployment] } }
  | .exit jobId => { s with world := { s.world with exited := shortId jobId :: s.world.exited } }
  | .ask jobStatus =>
      match session.mode, s.next with
      | .http (some projectId), some cj =>
          { s with asked := some ⟨jobStatus, session.readRow s.world projectId cj⟩ }
      | _, _ => s
  | .poll fails getJobStatus =>
      match s.following, session.askedBefore s with
      | .polling statuses console ⟨cj :: rest, allFinished, anyFailed⟩, some asked =>
          let fetched := fetchProgress session.isPlan session.mode cj
            (s.world.reads asked fails getJobStatus)
          { s with
            following := session.pollJob statuses console ⟨cj :: rest, allFinished, anyFailed⟩ cj
              rest fetched
            asked := none
            log := s.log ++ session.observe cj console fetched }
      | _, _ => s

def begin : State where
  world := ⟨fun _ => .empty, [], []⟩
  following := session.pollUntilDone
  asked := none
  log := []

/-! ## What the CLI reports -/

/-- A record of this job. -/
def IsOwn (cj : ClaimJobStruct) (record : DeploymentResp) : Prop :=
  shortId record.jobId = shortId cj.jobId

/-- When the CLI returns records, each job has set the record that is returned for it, which says
that it was successful, and has never been observed to fail; and a job that is observed to fail is
not observed to be successful later. -/
structure Reliable (s : State) : Prop where
  own : ∀ statuses console, s.following = .returned (.ok statuses) console →
    ∀ cj ∈ session.jobs, ∃ record, statuses.lookup cj.jobId = some record ∧ IsOwn cj record ∧
      record.status = .successful ∧ record ∈ s.world.written
  unfailed : ∀ statuses console, s.following = .returned (.ok statuses) console →
    ∀ cj ∈ session.jobs, ∀ o ∈ s.log, o.cj.jobId = cj.jobId → o.failed = false
  lasting : ∀ earlier o later, s.log = earlier ++ o :: later → o.failed = true →
    ∀ o' ∈ later, o'.cj.jobId = o.cj.jobId → ¬ o'.Succeeded

/-! ## When its reports are right -/

/-- Deleted records are left out where a deployment is read directly. -/
def Readable (record : DeploymentResp) : Prop :=
  (∃ projectId, session.mode = .direct projectId) → session.isPlan = false → record.deleted = false

def Success (record : DeploymentResp) : Prop :=
  record.status = .successful ∧ session.Readable record

/-- No success of the job will be read: it has set another final record, or it has ended without
one. -/
def Hopeless (w : World) (cj : ClaimJobStruct) : Prop :=
  (∃ record ∈ w.written, IsOwn cj record ∧ record.status.isFinal = true ∧
    ¬ session.Success record) ∨
  (shortId cj.jobId ∈ w.exited ∧ ∀ record ∈ w.written, IsOwn cj record → ¬ session.Success record)

/-- The final records of a job agree. -/
def Agree (record record' : DeploymentResp) : Prop :=
  shortId record.jobId = shortId record'.jobId → record.status.isFinal = true →
    record'.status.isFinal = true →
    (record.status = .successful ↔ record'.status = .successful) ∧
      record.deleted = record'.deleted

def rowRecord : Option (Key × DeploymentRow) → Option DeploymentResp
  | some (_, .deployment item) => some item.record
  | _ => none

/-- The record that is found is the job's own; that there is none counts as a failure only when the
job is hopeless. -/
def Attributed (w : World) (cj : ClaimJobStruct) (countsAsFailed : Prop)
    (found : Option DeploymentResp) : Prop :=
  match found with
  | some record => session.isPlan = false → IsOwn cj record
  | none => countsAsFailed → session.Hopeless w cj

/-- A job sets no record after its task has ended, and its final records agree.  The records that
are read are those of the job; a request that fails and a task that is found stopped do not make a
job failed that is not. -/
def Faithful (s : State) : Act → Prop
  | .store _ call => shortId call.deployment.jobId ∉ s.world.exited ∧
      ∀ record ∈ s.world.written, Agree record call.deployment
  | .exit _ => True
  | .ask jobStatus => ∀ projectId cj, session.mode = .http (some projectId) → s.next = some cj →
      taskState jobStatus ≠ .unknown →
      session.Attributed s.world cj (taskState jobStatus = .stopped)
        (rowRecord (session.readRow s.world projectId cj))
  | .poll fails getJobStatus => ∀ cj, s.next = some cj →
      match session.mode, s.asked with
      | .direct projectId, _ =>
          (fails = true → session.Hopeless s.world cj) ∧
          (session.isPlan = true → ∀ e, (⟨projectId, cj.region⟩ : WorkloadHandler).getPlanDeployment
              (s.world.table cj.region) cj.deploymentId cj.environment (shortId cj.jobId) =
              .error e → session.Hopeless s.world cj) ∧
          (fails = false → session.isPlan = false →
            session.Attributed s.world cj True
              ((s.world.table cj.region).live
                (getDeploymentIdentifier projectId cj.region cj.deploymentId cj.environment)))
      | .http (some _), some ⟨jobStatus, row⟩ =>
          (fails = true → taskState jobStatus = .stopped → session.Hopeless s.world cj) ∧
          (∀ row' d, row = some row' → ecsLivenessCheck getJobStatus row' = .stopped d →
            taskState jobStatus ≠ .unknown → session.Hopeless s.world cj)
      | _, _ => True

end Session

/-! ## Records that are read -/

/-- What is stored has been written by jobs, whose final records agree. -/
structure World.Sound (w : World) : Prop where
  wellFormed : ∀ region, (w.table region).WellFormed
  stored : ∀ region key item, (w.table region).item key = some (.deployment item) →
    item.record ∈ w.written
  agree : ∀ record ∈ w.written, ∀ record' ∈ w.written, Session.Agree record record'

theorem jobId_of_planItem {t : Deployments} (hwf : t.WellFormed) {identifier jobId : String}
    {item : DeploymentItem}
    (hitem : t.item ⟨"PLAN#" ++ identifier, jobId⟩ = some (.deployment item)) :
    item.record.jobId = jobId := by
  rcases hwf _ _ hitem with ⟨isPlan, hpayload⟩
  have hkey : (⟨"PLAN#" ++ identifier, jobId⟩ : Key) = (getPayload item.record isPlan).1 :=
    congrArg Prod.fst hpayload
  cases isPlan with
  | true => exact (congrArg Key.sk hkey).symm
  | false =>
      have hpk := congrArg (fun key : Key => key.pk.toList.head?) hkey
      simp [getPayload] at hpk

theorem getDeployment_eq_live {t : Deployments} (hwf : t.WellFormed) (handler : WorkloadHandler)
    (deploymentId environment : String) :
    handler.getDeployment t deploymentId environment false =
      .ok (t.live (getDeploymentIdentifier handler.projectId handler.region deploymentId
        environment)) :=
  Deployments.getDeployment_eq handler deploymentId environment hwf false

theorem exists_item_of_live {t : Deployments} {identifier : String} {record : DeploymentResp}
    (h : t.live identifier = some record) :
    ∃ key item, t.item key = some (.deployment item) ∧ item.record = record ∧
      record.deleted = false := by
  rcases Option.filter_eq_some_iff.1 h with ⟨hstored, hdeleted⟩
  rcases Deployments.stored_eq_some.1 hstored with ⟨item, hitem, hrecord⟩
  exact ⟨_, item, hitem, hrecord, by simpa using hdeleted⟩

namespace Session

variable {session : Session} {w w' : World} {cj cj' : ClaimJobStruct} {record : DeploymentResp}

theorem item_of_readRow {projectId : String} {row : Key × DeploymentRow}
    (h : session.readRow w projectId cj = some row) :
    (w.table cj.region).item row.1 = some row.2 ∧
      (session.isPlan = true → row.1 = ⟨"PLAN#" ++ getDeploymentIdentifier projectId cj.region
        cj.deploymentId cj.environment, shortId cj.jobId⟩) := by
  have hselect : row ∈ (session.recordQuery projectId cj).select deploymentKeys
      DeploymentRow.attr (w.table cj.region).rows := by
    have hread : (w.table cj.region).read (session.recordQuery projectId cj) =
        .ok ((session.recordQuery projectId cj).select deploymentKeys DeploymentRow.attr
          (w.table cj.region).rows) := by
      unfold recordQuery
      split
      · exact Query.evaluate_of_accepted rfl rfl _ _
      · exact Query.evaluate_of_accepted rfl rfl _ _
    unfold readRow at h
    rw [hread] at h
    exact List.mem_of_mem_head? h
  rcases row with ⟨⟨pk, sk⟩, row⟩
  rw [Query.mem_select, KeyedTable.mem_rows_iff] at hselect
  rcases hselect with ⟨hrow, -, -, hkeys, -⟩
  refine ⟨hrow, fun hplan => ?_⟩
  unfold recordQuery at hkeys
  rw [if_pos hplan] at hkeys
  have hpk := Deployments.holds_equals_pk.1 (hkeys _ List.mem_cons_self)
  have hsk := Deployments.holds_equals_sk.1
    (hkeys _ (List.mem_cons_of_mem _ List.mem_cons_self))
  exact congrArg₂ Key.mk hpk hsk

/-! ## Jobs that are hopeless -/

/-- A record that the job has set and that may be read. -/
structure Written (session : Session) (w : World) (cj : ClaimJobStruct)
    (record : DeploymentResp) : Prop where
  mem : record ∈ w.written
  own : IsOwn cj record
  readable : session.Readable record

/-- More records have been written, and more tasks have ended. -/
structure Grows (w w' : World) : Prop where
  written : ∀ record ∈ w.written, record ∈ w'.written
  exited : ∀ jobId ∈ w.exited, jobId ∈ w'.exited
  ended : ∀ record ∈ w'.written, shortId record.jobId ∈ w.exited → record ∈ w.written

theorem Written.mono (h : session.Written w cj record) (hgrows : Grows w w') :
    session.Written w' cj record :=
  ⟨hgrows.written _ h.mem, h.own, h.readable⟩

theorem Hopeless.mono (h : session.Hopeless w cj) (hgrows : Grows w w') :
    session.Hopeless w' cj := by
  rcases h with ⟨record, hmem, hrecord⟩ | ⟨hexited, hnone⟩
  · exact Or.inl ⟨record, hgrows.written _ hmem, hrecord⟩
  · refine Or.inr ⟨hgrows.exited _ hexited, fun record hmem hown => ?_⟩
    have hended : shortId record.jobId ∈ w.exited := by
      rw [hown]
      exact hexited
    exact hnone record (hgrows.ended record hmem hended) hown

theorem Hopeless.congr (h : session.Hopeless w cj) (hjob : cj.jobId = cj'.jobId) :
    session.Hopeless w cj' := by
  unfold Hopeless IsOwn at h ⊢
  rw [← hjob]
  exact h

theorem isFinal_of_successful {status : DeploymentStatus} (h : status = .successful) :
    status.isFinal = true := by
  rw [h]
  rfl

/-- A hopeless job has no success that may be read. -/
theorem Hopeless.not_success (h : session.Hopeless w cj) (hw : w.Sound)
    (hwritten : session.Written w cj record) : record.status ≠ .successful := by
  intro hstatus
  rcases h with ⟨record', hmem, hown, hfinal, hsuccess⟩ | ⟨-, hnone⟩
  · have hagree := hw.agree record' hmem record hwritten.mem (hown.trans hwritten.own.symm) hfinal
      (isFinal_of_successful hstatus)
    refine hsuccess ⟨hagree.1.2 hstatus, fun hdirect hplan => ?_⟩
    rw [hagree.2]
    exact hwritten.readable hdirect hplan
  · exact hnone record hwritten.mem hwritten.own ⟨hstatus, hwritten.readable⟩

/-- A job that has set a final record which is no success is hopeless. -/
theorem Written.hopeless (h : session.Written w cj record) (hfinal : record.status.isFinal = true)
    (hstatus : record.status ≠ .successful) : session.Hopeless w cj :=
  Or.inl ⟨record, h.mem, h.own, hfinal, fun hsuccess => hstatus hsuccess.1⟩

end Session

/-! ## What a poll is told -/

namespace Session

variable {session : Session} {w : World} {cj : ClaimJobStruct} {inProgress : Bool}
  {deployment : Option DeploymentResp}

/-- What `fetch_progress` returns comes from the job, or says rightly that it has failed. -/
structure Founded (session : Session) (w : World) (cj : ClaimJobStruct) (inProgress : Bool)
    (deployment : Option DeploymentResp) : Prop where
  written : ∀ d, deployment = some d →
    session.Written w cj d ∨ d.status = .failed ∧ session.Hopeless w cj
  absent : deployment = none → inProgress = false → session.Hopeless w cj
  settled : ∀ d, deployment = some d → inProgress = false → d.status.isFinal = true

theorem isFinal_of_not_busy {status : DeploymentStatus} (h : status.isBusy = false) :
    status.isFinal = true := by
  cases status
  all_goals first | rfl | cases h

/-- A job that is reported as failed is hopeless. -/
theorem Founded.hopeless (h : session.Founded w cj inProgress deployment) {console : Console}
    (hfailed : (reportJob inProgress cj.jobId deployment session.quiet console).1 = true) :
    session.Hopeless w cj := by
  rcases reportJob_eq_true_iff.1 hfailed with ⟨hfinal, hstatus⟩
  cases deployment with
  | none =>
      refine h.absent rfl ?_
      cases inProgress with
      | false => rfl
      | true => cases hfinal
  | some d =>
      rcases h.written d rfl with hwritten | ⟨-, hhopeless⟩
      · exact hwritten.hopeless hfinal (hstatus d rfl)
      · exact hhopeless

/-- A job that is not in progress and is not reported as failed has set a record that says that it
was successful. -/
theorem Founded.success (h : session.Founded w cj inProgress deployment) {console : Console}
    (hfinished : inProgress = false)
    (hfailed : (reportJob inProgress cj.jobId deployment session.quiet console).1 = false) :
    ∃ d, deployment = some d ∧ d.status = .successful ∧ session.Written w cj d := by
  have hnot : ¬ (reportJob inProgress cj.jobId deployment session.quiet console).1 = true := by
    rw [hfailed]
    exact Bool.false_ne_true
  rw [reportJob_eq_true_iff] at hnot
  cases deployment with
  | none =>
      refine absurd ⟨?_, fun d hd => ?_⟩ hnot
      · rw [hfinished]
        rfl
      · cases hd
  | some d =>
      have hfinal : (observedStatus inProgress (some d)).isFinal = true := h.settled d rfl hfinished
      have hstatus : d.status = .successful := by
        by_contra hstatus
        exact hnot ⟨hfinal, fun d' hd' => Option.some.inj hd' ▸ hstatus⟩
      refine ⟨d, rfl, hstatus, ?_⟩
      rcases h.written d rfl with hwritten | ⟨hfailedStatus, -⟩
      · exact hwritten
      · rw [hstatus] at hfailedStatus
        cases hfailedStatus

/-! ### Direct mode -/

theorem founded_of_foundProgress {missing : Bool} {found : Except String (Option DeploymentResp)}
    (hprogress : foundProgress missing found = (inProgress, deployment))
    (hwritten : ∀ d, found = .ok (some d) → session.Written w cj d)
    (hmissing : found = .ok none → missing = false → session.Hopeless w cj)
    (herror : ∀ e, found = .error e → session.Hopeless w cj) :
    session.Founded w cj inProgress deployment := by
  rcases found with e | found
  · rcases Prod.mk.inj hprogress with ⟨rfl, rfl⟩
    exact { written := fun d hd => by cases hd
            absent := fun _ _ => herror e rfl
            settled := fun d hd => by cases hd }
  · cases found with
    | none =>
        rcases Prod.mk.inj hprogress with ⟨rfl, rfl⟩
        exact { written := fun d hd => by cases hd
                absent := fun _ hfinished => hmissing rfl hfinished
                settled := fun d hd => by cases hd }
    | some d =>
        rcases Prod.mk.inj hprogress with ⟨rfl, rfl⟩
        refine
          { written := fun d' hd => ?_
            absent := fun hd => by cases hd
            settled := fun d' hd hfinished => ?_ }
        · rcases Option.some.inj hd with rfl
          exact Or.inl (hwritten d rfl)
        · rcases Option.some.inj hd with rfl
          exact isFinal_of_not_busy hfinished

/-- The record of a plan is found by the id of the job. -/
theorem founded_plan {projectId : String} {asked : Asked} {fails : Bool}
    {getJobStatus : JobStatuses} (hplan : session.isPlan = true) (hw : w.Sound)
    (hfails : fails = true → session.Hopeless w cj)
    (herror : ∀ e, (⟨projectId, cj.region⟩ : WorkloadHandler).getPlanDeployment
      (w.table cj.region) cj.deploymentId cj.environment (shortId cj.jobId) = .error e →
        session.Hopeless w cj)
    (hfetched : fetchProgress true (.direct projectId) cj (w.reads asked fails getJobStatus) =
      .ok (inProgress, deployment)) : session.Founded w cj inProgress deployment := by
  rw [fetchProgress_plan] at hfetched
  cases hfail : fails with
  | true =>
      rw [hfail] at hfetched
      refine founded_of_foundProgress (Except.ok.inj hfetched) (fun d hd => ?_) (fun hd => ?_)
        fun _ _ => hfails hfail
      · cases hd
      · cases hd
  | false =>
      rw [hfail] at hfetched
      refine founded_of_foundProgress (Except.ok.inj hfetched) (fun d hd => ?_)
        (fun _ hmissing => by cases hmissing) fun e he => ?_
      · rcases item_of_getPlanDeployment hd with ⟨item, hitem, rfl⟩
        have hjob : item.record.jobId = shortId cj.jobId :=
          jobId_of_planItem (hw.wellFormed _) hitem
        refine ⟨hw.stored _ _ _ hitem, ?_, fun _ hnot => ?_⟩
        · unfold IsOwn
          rw [hjob, shortId_shortId]
        · rw [hplan] at hnot
          cases hnot
      · exact herror e he

/-- The record of a deployment may be one of another job. -/
theorem founded_change {projectId : String} {asked : Asked} {fails : Bool}
    {getJobStatus : JobStatuses} (hw : w.Sound)
    (hfails : fails = true → session.Hopeless w cj) (hplan : session.isPlan = false)
    (hread : fails = false → session.Attributed w cj True
      ((w.table cj.region).live
        (getDeploymentIdentifier projectId cj.region cj.deploymentId cj.environment)))
    (hfetched : fetchProgress false (.direct projectId) cj (w.reads asked fails getJobStatus) =
      .ok (inProgress, deployment)) : session.Founded w cj inProgress deployment := by
  rw [fetchProgress_direct] at hfetched
  cases hfail : fails with
  | true =>
      rw [hfail] at hfetched
      refine founded_of_foundProgress (Except.ok.inj hfetched) (fun d hd => ?_) (fun hd => ?_)
        fun _ _ => hfails hfail
      · cases hd
      · cases hd
  | false =>
      have hattributed := hread hfail
      have hlive := getDeployment_eq_live (hw.wellFormed cj.region) ⟨projectId, cj.region⟩
        cj.deploymentId cj.environment
      rw [hfail] at hfetched
      refine founded_of_foundProgress (Except.ok.inj hfetched) (fun d hd => ?_)
        (fun hd _ => ?_) fun e he => ?_
      · have hfound := Except.ok.inj (hlive.symm.trans hd)
        rw [hfound] at hattributed
        rcases exists_item_of_live hfound with ⟨key, item, hitem, rfl, hdeleted⟩
        exact ⟨hw.stored _ _ _ hitem, hattributed hplan, fun _ _ => hdeleted⟩
      · rw [Except.ok.inj (hlive.symm.trans hd)] at hattributed
        exact hattributed trivial
      · cases hlive.symm.trans he

/-! ### HTTP mode -/

/-- What the server has read for the client is of the job, or rightly missing. -/
structure AskedSound (session : Session) (w : World) (cj : ClaimJobStruct) (asked : Asked) :
    Prop where
  written : taskState asked.jobStatus ≠ .unknown →
    ∀ d, rowRecord asked.row = some d → session.Written w cj d
  absent : taskState asked.jobStatus = .stopped → rowRecord asked.row = none →
    session.Hopeless w cj

variable {asked : Asked} {fails : Bool} {getJobStatus : JobStatuses}

/-- The liveness check answers with the row, or with a record that says that the job has failed. -/
theorem ecsLivenessCheck_cases (getJobStatus : JobStatuses) (row : Key × DeploymentRow) :
    ecsLivenessCheck getJobStatus row = .stored row ∨
      ∃ d, ecsLivenessCheck getJobStatus row = .stopped d ∧ d.status = .failed := by
  rcases row with ⟨key, item | item⟩
  · unfold ecsLivenessCheck
    dsimp only
    split
    · exact Or.inl rfl
    · split
      · exact Or.inl rfl
      · split
        · exact Or.inl rfl
        · split
          · exact Or.inr ⟨_, rfl, rfl⟩
          · exact Or.inl rfl
  · exact Or.inl rfl

theorem readAnswer_eq_some {d : DeploymentResp}
    (h : readAnswer (w.reads asked fails getJobStatus).described = some d) :
    rowRecord asked.row = some d ∨ ∃ row, asked.row = some row ∧
      ecsLivenessCheck getJobStatus row = .stopped d ∧ d.status = .failed := by
  cases fails with
  | true => cases h
  | false =>
      cases hrow : asked.row with
      | none =>
          simp only [World.reads, hrow] at h
          cases h
      | some row =>
          simp only [World.reads, hrow, Bool.false_eq_true, if_false] at h
          rcases ecsLivenessCheck_cases getJobStatus row with
            hstored | ⟨d', hstopped, hfailed⟩
          · rw [hstored] at h
            rcases row with ⟨key, item | item⟩
            · exact Or.inl h
            · cases h
          · rw [hstopped] at h
            rcases Option.some.inj h with rfl
            exact Or.inr ⟨row, rfl, hstopped, hfailed⟩

theorem readAnswer_eq_none (h : readAnswer (w.reads asked fails getJobStatus).described = none) :
    fails = true ∨ rowRecord asked.row = none := by
  cases fails with
  | true => exact Or.inl rfl
  | false =>
      refine Or.inr ?_
      cases hrow : asked.row with
      | none => rfl
      | some row =>
          simp only [World.reads, hrow, Bool.false_eq_true, if_false] at h
          rcases ecsLivenessCheck_cases getJobStatus row with
            hstored | ⟨d', hstopped, -⟩
          · rw [hstored] at h
            rcases row with ⟨key, item | item⟩
            · cases h
            · rfl
          · rw [hstopped] at h
            cases h

theorem founded_http {isPlan : Bool} {projectId : String}
    (hasked : session.AskedSound w cj asked)
    (hfails : fails = true → taskState asked.jobStatus = .stopped → session.Hopeless w cj)
    (hstopped : ∀ row d, asked.row = some row → ecsLivenessCheck getJobStatus row = .stopped d →
      taskState asked.jobStatus ≠ .unknown → session.Hopeless w cj)
    (hfetched : fetchProgress isPlan (.http (some projectId)) cj
      (w.reads asked fails getJobStatus) = .ok (inProgress, deployment)) :
    session.Founded w cj inProgress deployment := by
  rw [fetchProgress_http] at hfetched
  rcases Prod.mk.inj (Except.ok.inj hfetched) with ⟨hprogress, hdeployment⟩
  have hsome : taskState asked.jobStatus ≠ .unknown → ∀ d,
      readAnswer (w.reads asked fails getJobStatus).described = some d →
        session.Written w cj d ∨ d.status = .failed ∧ session.Hopeless w cj := by
    intro hknown d hd
    rcases readAnswer_eq_some hd with hrow | ⟨row, hrow, hcheck, hfailed⟩
    · exact Or.inl (hasked.written hknown d hrow)
    · exact Or.inr ⟨hfailed, hstopped row d hrow hcheck hknown⟩
  change (httpProgress cj.jobId asked.jobStatus _).1 = _ at hprogress
  change (httpProgress cj.jobId asked.jobStatus _).2.2 = _ at hdeployment
  unfold httpProgress at hprogress hdeployment
  cases hstate : taskState asked.jobStatus with
  | unknown =>
      simp only [hstate] at hprogress hdeployment
      rcases hprogress with rfl
      rcases hdeployment with rfl
      exact { written := fun d hd => by cases hd
              absent := fun _ hfinished => by cases hfinished
              settled := fun d hd => by cases hd }
  | running =>
      have hknown : taskState asked.jobStatus ≠ .unknown := by
        rw [hstate]
        exact TaskState.noConfusion
      simp only [hstate] at hprogress hdeployment
      rcases hprogress with rfl
      rcases hdeployment with rfl
      exact { written := hsome hknown
              absent := fun _ hfinished => by cases hfinished
              settled := fun _ _ hfinished => by cases hfinished }
  | stopped =>
      have hknown : taskState asked.jobStatus ≠ .unknown := by
        rw [hstate]
        exact TaskState.noConfusion
      simp only [hstate] at hprogress hdeployment
      cases hanswer : readAnswer (w.reads asked fails getJobStatus).described with
      | none =>
          simp only [hanswer] at hprogress hdeployment
          rcases hdeployment with rfl
          refine { written := fun d hd => by cases hd
                   absent := fun _ _ => ?_
                   settled := fun d hd => by cases hd }
          rcases readAnswer_eq_none hanswer with hfail | hnone
          · exact hfails hfail hstate
          · exact hasked.absent hstate hnone
      | some d =>
          simp only [hanswer] at hprogress hdeployment
          rcases hdeployment with rfl
          rcases hprogress with rfl
          refine { written := fun d' hd => ?_
                   absent := fun hd => by cases hd
                   settled := fun d' hd hfinished => ?_ }
          · rcases Option.some.inj hd with rfl
            exact hsome hknown d hanswer
          · rcases Option.some.inj hd with rfl
            exact isFinal_of_not_busy hfinished

end Session

/-! ## Runs -/

namespace Session

variable {session : Session} {w w' : World} {s : State} {cj cj' : ClaimJobStruct}
  {statuses : List (String × DeploymentResp)}

/-- The record that is kept for the job says rightly that it was successful. -/
def Reported (session : Session) (w : World) (statuses : List (String × DeploymentResp))
    (cj : ClaimJobStruct) : Prop :=
  ∃ record, statuses.lookup cj.jobId = some record ∧ record.status = .successful ∧
    session.Written w cj record

/-- In a round that finds no job in progress and none failed, the jobs that have been polled are
reported. -/
def FollowingSound (session : Session) (w : World) : Following → Prop
  | .polling statuses _ round => ∃ polled, session.jobs = polled ++ round.pending ∧
      (round.allFinished = true → round.anyFailed = false →
        ∀ cj ∈ polled, session.Reported w statuses cj)
  | .returned (.ok statuses) _ => ∀ cj ∈ session.jobs, session.Reported w statuses cj
  | .returned (.error _) _ => True

structure Sound (session : Session) (s : State) : Prop where
  world : s.world.Sound
  asked : ∀ projectId asked cj, session.mode = .http (some projectId) → s.asked = some asked →
    s.next = some cj → session.AskedSound s.world cj asked
  failed : ∀ o ∈ s.log, o.failed = true → session.Hopeless s.world o.cj
  lasting : ∀ earlier o later, s.log = earlier ++ o :: later → o.failed = true →
    ∀ o' ∈ later, o'.cj.jobId = o.cj.jobId → ¬ o'.Succeeded
  following : session.FollowingSound s.world s.following

theorem Reported.mono (h : session.Reported w statuses cj) (hgrows : Grows w w') :
    session.Reported w' statuses cj := by
  rcases h with ⟨record, hlookup, hstatus, hwritten⟩
  exact ⟨record, hlookup, hstatus, hwritten.mono hgrows⟩

theorem FollowingSound.mono {following : Following} (h : session.FollowingSound w following)
    (hgrows : Grows w w') : session.FollowingSound w' following := by
  cases following with
  | polling statuses console round =>
      rcases h with ⟨polled, hjobs, hreported⟩
      exact ⟨polled, hjobs, fun hfinished hfailed cj hcj =>
        (hreported hfinished hfailed cj hcj).mono hgrows⟩
  | returned result console =>
      cases result with
      | ok statuses => exact fun cj hcj => (h cj hcj).mono hgrows
      | error e => trivial

theorem AskedSound.mono {asked : Asked} (h : session.AskedSound w cj asked)
    (hgrows : Grows w w') : session.AskedSound w' cj asked where
  written hknown d hd := (h.written hknown d hd).mono hgrows
  absent hstopped hnone := (h.absent hstopped hnone).mono hgrows

/-! ### Steps of the jobs -/

/-- A step of a job leaves what the CLI knows as it was. -/
theorem Sound.of_grows (h : session.Sound s) {world : World} (hworld : world.Sound)
    (hgrows : Grows s.world world) : session.Sound { s with world := world } where
  world := hworld
  asked projectId asked cj hmode hasked hnext :=
    (h.asked projectId asked cj hmode hasked hnext).mono hgrows
  failed o ho hfailed := (h.failed o ho hfailed).mono hgrows
  lasting := h.lasting
  following := h.following.mono hgrows

theorem Agree.symm {record record' : DeploymentResp} (h : Agree record record') :
    Agree record' record := by
  intro hjob hfinal hfinal'
  rcases h hjob.symm hfinal' hfinal with ⟨hstatus, hdeleted⟩
  exact ⟨hstatus.symm, hdeleted.symm⟩

theorem Agree.refl (record : DeploymentResp) : Agree record record :=
  fun _ _ _ => ⟨Iff.rfl, rfl⟩

theorem Sound.store (h : session.Sound s) {region : String} {call : SetDeployment}
    (hfaithful : session.Faithful s (.store region call)) :
    session.Sound (session.step s (.store region call)) := by
  rcases hfaithful with ⟨hexited, hagree⟩
  refine h.of_grows ?_ ?_
  · refine
      { wellFormed := fun region' => ?_
        stored := fun region' key item hitem => ?_
        agree := fun record hrecord record' hrecord' => ?_ }
    · by_cases heq : region' = region
      · rcases heq with rfl
        simpa using (h.world.wellFormed region').step call
      · simpa [heq] using h.world.wellFormed region'
    · by_cases heq : region' = region
      · rcases heq with rfl
        change (Function.update s.world.table region' _ region').item key = _ at hitem
        rw [Function.update_self] at hitem
        -- The record is that of the call, or was stored before it.
        refine Deployments.forall_item_step
          (p := fun _ row => ∀ item, row = .deployment item →
            item.record ∈ s.world.written ++ [call.deployment])
          (h.world.wellFormed region') (fun key row hrow item hdeployment => ?_)
          (fun isPlan item hdeployment => ?_) (fun _ _ item hdependent => ?_) key _ hitem item rfl
        · rw [hdeployment] at hrow
          exact List.mem_append_left _ (h.world.stored region' key item hrow)
        · rcases DeploymentRow.deployment.inj hdeployment with rfl
          exact List.mem_append_right _ List.mem_cons_self
        · cases hdependent
      · change (Function.update s.world.table region _ region').item key = _ at hitem
        rw [Function.update_of_ne heq] at hitem
        exact List.mem_append_left _ (h.world.stored region' key item hitem)
    · rcases List.mem_append.1 hrecord with hold | hnew
      · rcases List.mem_append.1 hrecord' with hold' | hnew'
        · exact h.world.agree record hold record' hold'
        · rcases List.mem_singleton.1 hnew' with rfl
          exact hagree record hold
      · rcases List.mem_singleton.1 hnew with rfl
        rcases List.mem_append.1 hrecord' with hold' | hnew'
        · exact (hagree record' hold').symm
        · rcases List.mem_singleton.1 hnew' with rfl
          exact .refl _
  · refine ⟨fun record hrecord => List.mem_append_left _ hrecord, fun _ hjob => hjob,
      fun record hrecord hended => ?_⟩
    rcases List.mem_append.1 hrecord with hold | hnew
    · exact hold
    · rcases List.mem_singleton.1 hnew with rfl
      exact absurd hended hexited

theorem Sound.exit (h : session.Sound s) (jobId : String) :
    session.Sound (session.step s (.exit jobId)) := by
  refine h.of_grows ⟨h.world.wellFormed, h.world.stored, h.world.agree⟩ ?_
  exact ⟨fun _ hrecord => hrecord, fun _ hjob => List.mem_cons_of_mem _ hjob,
    fun _ hrecord _ => hrecord⟩

/-! ### Steps of the CLI -/

theorem Sound.ask (h : session.Sound s) {jobStatus : Except String Json}
    (hfaithful : session.Faithful s (.ask jobStatus)) :
    session.Sound (session.step s (.ask jobStatus)) := by
  unfold step
  dsimp only
  split
  · rename_i projectId cj hmode hnext
    refine ⟨h.world, fun projectId' asked cj' hmode' hasked hnext' => ?_, h.failed, h.lasting,
      h.following⟩
    rcases Option.some.inj hasked with rfl
    rcases Option.some.inj (hnext.symm.trans hnext') with rfl
    have hattributed := hfaithful projectId cj hmode hnext
    refine ⟨fun hknown d hd => ?_, fun hstopped hnone => ?_⟩
    · have hown := hattributed hknown
      rw [hd] at hown
      cases hrow : session.readRow s.world projectId cj with
      | none =>
          rw [hrow] at hd
          cases hd
      | some row =>
          rw [hrow] at hd
          rcases row with ⟨key, item | item⟩
          · rcases Option.some.inj hd with rfl
            rcases item_of_readRow hrow with ⟨hitem, hkey⟩
            refine ⟨h.world.stored _ _ _ hitem, ?_, fun ⟨directId, hdirect⟩ => ?_⟩
            · cases hplan : session.isPlan with
              | false => exact hown hplan
              | true =>
                  have hplanKey := hkey hplan
                  dsimp only at hplanKey hitem
                  rw [hplanKey] at hitem
                  have hjob := jobId_of_planItem (h.world.wellFormed _) hitem
                  unfold IsOwn
                  rw [hjob, shortId_shortId]
            · rw [hmode] at hdirect
              cases hdirect
          · cases hd
    · have hknown : taskState jobStatus ≠ .unknown := by
        change taskState jobStatus = .stopped at hstopped
        rw [hstopped]
        exact TaskState.noConfusion
      have hhopeless := hattributed hknown
      rw [hnone] at hhopeless
      exact hhopeless hstopped
  · exact h

/-- A round that begins anew, or whose jobs have all been polled. -/
theorem followingSound_proceed {console : Console} {round : Round}
    (h : session.FollowingSound w (.polling statuses console round)) :
    session.FollowingSound w (session.proceed statuses console round) := by
  rcases h with ⟨polled, hjobs, hreported⟩
  unfold proceed
  by_cases hpending : round.pending.isEmpty = true
  · rw [if_pos hpending]
    have hall : session.jobs = polled := by
      rw [hjobs, List.isEmpty_iff.1 hpending, List.append_nil]
    unfold endRound
    cases hfinished : round.allFinished with
    | false => exact ⟨[], rfl, fun _ _ cj hcj => by cases hcj⟩
    | true =>
        cases hfailed : round.anyFailed with
        | true => trivial
        | false =>
            intro cj hcj
            rw [hall] at hcj
            exact hreported hfinished hfailed cj hcj
  · rw [if_neg hpending]
    exact ⟨polled, hjobs, hreported⟩

/-- The record of a success is kept, beside the records of the jobs before. -/
theorem Reported.insert {d : DeploymentResp} (h : session.Reported w statuses cj)
    (hstatus : d.status = .successful) (hwritten : session.Written w cj' d) :
    session.Reported w (upsert cj'.jobId d (fun _ => d) statuses) cj := by
  rcases h with ⟨record, hlookup, hrecord⟩
  have hnew : ∀ o : Option DeploymentResp, (o.map fun _ => d).getD d = d := by
    intro o
    cases o <;> rfl
  by_cases hjob : cj.jobId = cj'.jobId
  · refine ⟨d, ?_, hstatus, hwritten.mem, ?_, hwritten.readable⟩
    · rw [lookup_upsert, if_pos hjob, hnew]
    · unfold IsOwn
      rw [hwritten.own, hjob]
  · refine ⟨record, ?_, hrecord⟩
    rw [lookup_upsert, if_neg hjob]
    exact hlookup

theorem reported_insert {d : DeploymentResp} (hstatus : d.status = .successful)
    (hwritten : session.Written w cj d) :
    session.Reported w (upsert cj.jobId d (fun _ => d) statuses) cj := by
  refine ⟨d, ?_, hstatus, hwritten⟩
  rw [lookup_upsert, if_pos rfl]
  cases statuses.lookup cj.jobId <;> rfl

theorem followingSound_pollJob {console : Console} {allFinished anyFailed : Bool}
    {rest : List ClaimJobStruct} {fetched : Except String (Bool × Option DeploymentResp)}
    (h : session.FollowingSound w
      (.polling statuses console ⟨cj :: rest, allFinished, anyFailed⟩))
    (hfounded : ∀ inProgress deployment, fetched = .ok (inProgress, deployment) →
      session.Founded w cj inProgress deployment) :
    session.FollowingSound w (session.pollJob statuses console
      ⟨cj :: rest, allFinished, anyFailed⟩ cj rest fetched) := by
  rcases h with ⟨polled, hjobs, hreported⟩
  rcases fetched with e | ⟨inProgress, deployment⟩
  · trivial
  · refine followingSound_proceed ⟨polled ++ [cj], ?_, fun hfinished hfailed cj' hcj' => ?_⟩
    · rw [hjobs, List.append_assoc]
      rfl
    · rcases Bool.and_eq_true_iff.1 hfinished with ⟨hbefore, hprogress⟩
      rcases Bool.or_eq_false_iff.1 hfailed with ⟨hnone, hreport⟩
      rcases (hfounded inProgress deployment rfl).success (by simpa using hprogress) hreport with
        ⟨d, rfl, hstatus, hwritten⟩
      rcases List.mem_append.1 hcj' with hold | hnew
      · exact (hreported hbefore hnone cj' hold).insert hstatus hwritten
      · rcases List.mem_singleton.1 hnew with rfl
        exact reported_insert hstatus hwritten

/-- A poll whose answer is founded. -/
theorem Sound.poll_founded (h : session.Sound s) {console : Console} {allFinished anyFailed : Bool}
    {rest : List ClaimJobStruct} {fetched : Except String (Bool × Option DeploymentResp)}
    (hfollowing : s.following = .polling statuses console ⟨cj :: rest, allFinished, anyFailed⟩)
    (hfounded : ∀ inProgress deployment, fetched = .ok (inProgress, deployment) →
      session.Founded s.world cj inProgress deployment) :
    session.Sound
      { s with
        following := session.pollJob statuses console ⟨cj :: rest, allFinished, anyFailed⟩ cj rest
          fetched
        asked := none
        log := s.log ++ session.observe cj console fetched } := by
  have hnext := followingSound_pollJob (hfollowing ▸ h.following) hfounded
  rcases fetched with e | ⟨inProgress, deployment⟩
  · have hlog : s.log ++ session.observe cj console (.error e) = s.log := List.append_nil _
    refine ⟨h.world, fun _ _ _ _ hasked => (by cases hasked), ?_, ?_, hnext⟩
    · rw [hlog]
      exact h.failed
    · rw [hlog]
      exact h.lasting
  · have hanswer := hfounded inProgress deployment rfl
    refine ⟨h.world, fun _ _ _ _ hasked => (by cases hasked), fun o ho hfailed => ?_, ?_, hnext⟩
    · rcases List.mem_append.1 ho with hold | hnew
      · exact h.failed o hold hfailed
      · rcases List.mem_singleton.1 hnew with rfl
        exact hanswer.hopeless hfailed
    · intro earlier o later hlog hfailed o' ho' hjob
      rcases List.eq_nil_or_concat later with rfl | ⟨between, last, rfl⟩
      · cases ho'
      · have hsplit : s.log ++ session.observe cj console (.ok (inProgress, deployment)) =
            (earlier ++ o :: between) ++ [last] := by simpa using hlog
        rcases List.append_inj' hsplit rfl with ⟨hbefore, hlast⟩
        rw [List.concat_eq_append] at ho'
        rcases List.mem_append.1 ho' with hold | hnew
        · exact h.lasting earlier o between hbefore hfailed o' hold hjob
        · -- The job is hopeless, so the new record of it is no success.
          rcases List.mem_singleton.1 hnew with rfl
          rcases List.singleton_inj.1 hlast with rfl
          have hmem : o ∈ s.log := by
            rw [hbefore]
            exact List.mem_append_right _ List.mem_cons_self
          have hhopeless := (h.failed o hmem hfailed).congr hjob.symm
          rintro ⟨d, hd, hstatus⟩
          rcases hanswer.written d hd with hwritten | ⟨hfailedStatus, -⟩
          · exact hhopeless.not_success h.world hwritten hstatus
          · rw [hstatus] at hfailedStatus
            cases hfailedStatus

theorem Sound.poll (h : session.Sound s) {fails : Bool} {getJobStatus : JobStatuses}
    (hfaithful : session.Faithful s (.poll fails getJobStatus)) :
    session.Sound (session.step s (.poll fails getJobStatus)) := by
  unfold step
  dsimp only
  split
  · rename_i statuses console cj rest allFinished anyFailed asked hfollowing hasked
    have hnext : s.next = some cj := by
      unfold State.next
      rw [hfollowing]
      rfl
    refine h.poll_founded hfollowing fun inProgress deployment hfetched => ?_
    have hcondition := hfaithful cj hnext
    cases hmode : session.mode with
    | direct projectId =>
        rw [hmode] at hfetched hcondition
        rcases hcondition with ⟨hfails, herror, hread⟩
        cases hplan : session.isPlan with
        | true =>
            rw [hplan] at hfetched
            exact founded_plan hplan h.world hfails (herror hplan) hfetched
        | false =>
            rw [hplan] at hfetched
            exact founded_change h.world hfails hplan (fun hfail => hread hfail hplan) hfetched
    | http projectId =>
        cases projectId with
        | none =>
            rw [hmode] at hfetched
            cases hfetched
        | some projectId =>
            have hbefore : s.asked = some asked := by
              unfold askedBefore at hasked
              rw [hmode] at hasked
              exact hasked
            rw [hmode, hbefore] at hcondition
            rw [hmode] at hfetched
            exact founded_http (h.asked projectId asked cj hmode hbefore hnext) hcondition.1
              hcondition.2 hfetched
  · exact h

theorem sound_begin (session : Session) : session.Sound session.begin where
  world :=
    { wellFormed := fun _ => Deployments.wellFormed_empty
      stored := fun _ _ _ hitem => by cases hitem
      agree := fun _ hrecord => by cases hrecord }
  asked _ _ _ _ hasked := by cases hasked
  failed _ ho := by cases ho
  lasting earlier o later hlog := by simp [begin] at hlog
  following := followingSound_proceed ⟨[], rfl, fun _ _ _ hcj => by cases hcj⟩

theorem Sound.step (h : session.Sound s) {act : Act} (hfaithful : session.Faithful s act) :
    session.Sound (session.step s act) := by
  cases act with
  | store region call => exact h.store hfaithful
  | exit jobId => exact h.exit jobId
  | ask jobStatus => exact h.ask hfaithful
  | poll fails getJobStatus => exact h.poll hfaithful

theorem Sound.reliable (h : session.Sound s) : session.Reliable s where
  own statuses console hreturned cj hcj := by
    have hreported := h.following
    rw [hreturned] at hreported
    rcases hreported cj hcj with ⟨record, hlookup, hstatus, hwritten⟩
    exact ⟨record, hlookup, hwritten.own, hstatus, hwritten.mem⟩
  unfailed statuses console hreturned cj hcj o ho hjob := by
    have hreported := h.following
    rw [hreturned] at hreported
    rcases hreported cj hcj with ⟨record, hlookup, hstatus, hwritten⟩
    by_contra hfailed
    have hhopeless := (h.failed o ho (by simpa using hfailed)).congr hjob
    exact hhopeless.not_success h.world hwritten hstatus
  lasting := h.lasting

/-- In every run of the CLI among the jobs whose steps are faithful, the CLI reports success only
for its own jobs. -/
theorem reliable_run (session : Session) (acts : List Act)
    (hfaithful : Meets session.step session.Faithful session.begin acts) :
    session.Reliable (run session.step session.begin acts) :=
  (run_invariant session.Sound (fun _ _ hsound hstep => hsound.step hstep) (sound_begin session)
    hfaithful).reliable

end Session

/-! ## A job among the jobs of its deployment -/

theorem following_step_poll {session : Session} {s : State}
    {statuses : List (String × DeploymentResp)} {console : Console} {cj : ClaimJobStruct}
    {rest : List ClaimJobStruct} {allFinished anyFailed fails : Bool} {getJobStatus : JobStatuses}
    {asked : Asked}
    (hfollowing : s.following = .polling statuses console ⟨cj :: rest, allFinished, anyFailed⟩)
    (hasked : session.askedBefore s = some asked) :
    (session.step s (.poll fails getJobStatus)).following =
      session.pollJob statuses console ⟨cj :: rest, allFinished, anyFailed⟩ cj rest
        (fetchProgress session.isPlan session.mode cj (s.world.reads asked fails getJobStatus)) := by
  unfold Session.step
  simp only [hfollowing, hasked]

def webJob : ClaimJobStruct :=
  ⟨"job-1", "web/a", "cli/default", "eu-central-1"⟩

def webSession : Session :=
  ⟨[webJob], "apply", .direct "111111111111", false⟩

def failedRecord : DeploymentResp :=
  { webDeployment with status := .failed, errorText := "apply failed" }

def otherRecord : DeploymentResp :=
  { webDeployment with jobId := "job-2" }

def storing (record : DeploymentResp) : Act :=
  .store "eu-central-1" ⟨localWorkload, record, false, 1⟩

def polling : Act :=
  .poll false fun _ _ _ => .error "no such task"

/-- What the web deployment is read as, when these records have been stored. -/
def webRead (records : List DeploymentResp) : Except String (Option DeploymentResp) :=
  localWorkload.getDeployment
    (Deployments.run (records.map fun record => ⟨localWorkload, record, false, 1⟩)) "web/a"
    "cli/default" false

theorem world_stored (records : List DeploymentResp) (s : State) :
    (run webSession.step s (records.map storing)).following = s.following ∧
      (run webSession.step s (records.map storing)).world.table "eu-central-1" =
        run Deployments.step (s.world.table "eu-central-1")
          (records.map fun record => ⟨localWorkload, record, false, 1⟩) := by
  induction records generalizing s with
  | nil => exact ⟨rfl, rfl⟩
  | cons record records ih =>
      rcases ih (webSession.step s (storing record)) with ⟨hfollowing, htable⟩
      refine ⟨hfollowing, htable.trans ?_⟩
      have hstep : (webSession.step s (storing record)).world.table "eu-central-1" =
          (s.world.table "eu-central-1").step ⟨localWorkload, record, false, 1⟩ := by
        simp [Session.step, storing]
      rw [hstep]
      rfl

/-- A poll that reads a success returns its record, whichever job it is of. -/
theorem following_polled {records : List DeploymentResp} {record : DeploymentResp}
    (hread : webRead records = .ok (some record)) (hstatus : record.status = .successful) :
    ∃ console, (run webSession.step webSession.begin
        (records.map storing ++ [polling])).following =
      .returned (.ok [("job-1", record)]) console := by
  rw [run_append]
  rcases world_stored records webSession.begin with ⟨hfollowing, htable⟩
  generalize run webSession.step webSession.begin (records.map storing) = s at hfollowing htable
  let reads := s.world.reads ⟨.error "not asked", none⟩ false fun _ _ _ => .error "no such task"
  have hfetched : fetchProgress false (.direct "111111111111") webJob reads =
      .ok (false, some record) := by
    rw [fetchProgress_direct]
    change Except.ok (foundProgress false (localWorkload.getDeployment
      (s.world.table "eu-central-1") "web/a" "cli/default" false)) = _
    rw [htable]
    change Except.ok (foundProgress false (webRead records)) = _
    rw [hread]
    simp [foundProgress, hstatus, DeploymentStatus.isBusy]
  have hreport : (reportJob false "job-1" (some record) false .empty).1 = false := by
    refine Bool.eq_false_iff.2 fun hfailed => ?_
    exact (reportJob_eq_true_iff.1 hfailed).2 record rfl hstatus
  have hpoll : (webSession.step s polling).following =
      webSession.pollJob [] .empty ⟨[webJob], true, false⟩ webJob []
        (fetchProgress false (.direct "111111111111") webJob reads) :=
    following_step_poll hfollowing rfl
  have hround : webSession.pollJob [] .empty ⟨[webJob], true, false⟩ webJob []
      (.ok (false, some record)) = webSession.endRound [("job-1", record)]
        (reportJob false "job-1" (some record) false .empty).2
        ⟨[], true, (reportJob false "job-1" (some record) false .empty).1⟩ := rfl
  rw [hfetched, hround, hreport] at hpoll
  exact ⟨_, hpoll⟩

/-- Another job on the deployment replaces the record of the job, and its success is returned for
the job that failed. -/
theorem not_reliable_webSession :
    ¬ webSession.Reliable (run webSession.step webSession.begin
      ([failedRecord, otherRecord].map storing ++ [polling])) := by
  intro hreliable
  have hread : webRead [failedRecord, otherRecord] = .ok (some otherRecord) := by decide +kernel
  rcases following_polled hread rfl with ⟨console, hfollowing⟩
  rcases hreliable.own _ console hfollowing webJob List.mem_cons_self with
    ⟨record, hlookup, hown, -⟩
  rcases Option.some.inj ((by decide : [("job-1", otherRecord)].lookup "job-1" =
    some otherRecord).symm.trans hlookup) with rfl
  have hother : shortId "job-2" ≠ shortId "job-1" := by decide
  exact hother hown

/-- A job that stores its own success before it is polled. -/
theorem reliable_run_webSession :
    (∃ statuses console, (run webSession.step webSession.begin
        ([webDeployment].map storing ++ [polling])).following =
      .returned (.ok statuses) console) ∧
      webSession.Reliable (run webSession.step webSession.begin
        ([webDeployment].map storing ++ [polling])) := by
  have hread : webRead [webDeployment] = .ok (some webDeployment) := by decide +kernel
  rcases following_polled hread rfl with ⟨console, hfollowing⟩
  refine ⟨⟨_, console, hfollowing⟩, Session.reliable_run webSession _ ?_⟩
  have hstore : webSession.Faithful webSession.begin (storing webDeployment) :=
    ⟨List.not_mem_nil, fun _ hrecord => absurd hrecord List.not_mem_nil⟩
  refine ⟨hstore, ?_, trivial⟩
  intro cj hnext
  rcases (Option.some.inj hnext : webJob = cj) with rfl
  refine ⟨fun hfails => absurd hfails Bool.false_ne_true, fun hplan => ?_, fun _ _ => ?_⟩
  · exact absurd hplan (by decide)
  · have hlive : ((webSession.step webSession.begin (storing webDeployment)).world.table
        webJob.region).live (getDeploymentIdentifier "111111111111" webJob.region
          webJob.deploymentId webJob.environment) = some webDeployment := by
      have htable := (world_stored [webDeployment] webSession.begin).2
      have hget := getDeployment_eq_live (Deployments.wellFormed_run
        [⟨localWorkload, webDeployment, false, 1⟩]) localWorkload "web/a" "cli/default"
      have hrun := Except.ok.inj (hget.symm.trans hread)
      change Deployments.live ((run webSession.step webSession.begin
        ([webDeployment].map storing)).world.table "eu-central-1") _ = _
      rw [htable]
      exact hrun
    rw [hlive]
    exact fun _ => rfl

end Cli
end InfraWeave
