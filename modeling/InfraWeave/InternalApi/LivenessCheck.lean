import InfraWeave.InternalApi.DescribeDeployment
import InfraWeave.TerraformRunner.StaleRunners
import InfraWeave.TerraformRunner.Verdicts

/-!
# The liveness check

A request that describes a deployment or a plan reads a record, asks for the status of its task
when the record is busy, and answers.  In the meantime the runners of the deployment go on.
-/

namespace InfraWeave
namespace InternalApi

open EnvAwsDirect EnvCommon TerraformRunner

/-! ## The system -/

/-- A request has read nothing yet, or has read a row, or is answered by its row. -/
inductive DescribeRequest where
  | waiting
  | read (row : Key × DeploymentRow)
  | answered (key : Key) (described : DescribedDeployment)

/-- The runners of a deployment, which of their tasks have ended, and a request. -/
structure DescribedFleet where
  state : Fleet.State
  exited : Nat → Bool
  request : DescribeRequest

def DescribedFleet.begin (t : Deployments) : DescribedFleet where
  state := .begin t
  exited _ := false
  request := .waiting

inductive DescribedAct where
  | act (a : Fleet.Act)
  | exit (i : Nat)
  | read (query : InfraWeave.Query)
  | answer (getJobStatus : JobStatuses)

/-- The queries of `describe_deployment` and of `describe_plan_deployment`. -/
inductive Describes (identifier : String) : InfraWeave.Query → Prop
  | deployment {project region deploymentId environment : String}
      (hidentifier : getDeploymentIdentifier project region deploymentId environment =
        identifier) :
      Describes identifier
        (getDeploymentAndDependentsQuery project region deploymentId environment true)
  | plan {project region deploymentId environment : String} (jobId : String)
      (hidentifier : getDeploymentIdentifier project region deploymentId environment =
        identifier) :
      Describes identifier (getPlanDeploymentQuery project region deploymentId environment jobId)

/-- The last part of the id of a task. -/
def shortJobId (jobId : String) : String :=
  (Text.split '/' jobId).getLast?.getD jobId

/-- A task has stopped only when its runner has exited. -/
def Trustworthy (fleet : Fleet) (exited : Nat → Bool) (getJobStatus : JobStatuses) : Prop :=
  ∀ i project region taskStatus stoppedReason,
    getJobStatus (shortJobId (fleet.job i).jobId) project region =
        .ok (taskStatus, stoppedReason) →
      taskStatus = "STOPPED" ∨ taskStatus = "DEPROVISIONING" → exited i = true

/-- A runner takes no step after its exit. -/
inductive DescribedStep (fleet : Fleet) : DescribedFleet → DescribedAct → DescribedFleet → Prop
  | act {s : DescribedFleet} {a : Fleet.Act} {state : Fleet.State}
      (hstep : fleet.Step s.state a state)
      (hruns : ∀ i op answer, a = .call i op answer → s.exited i = false) :
      DescribedStep fleet s (.act a) { s with state }
  | exit {s : DescribedFleet} {i : Nat} (hstarted : s.state.runner i ≠ none) :
      DescribedStep fleet s (.exit i) { s with exited := Function.update s.exited i true }
  | read {s : DescribedFleet} {query : InfraWeave.Query} {row : Key × DeploymentRow}
      {rows : List (Key × DeploymentRow)} (hwaiting : s.request = .waiting)
      (hquery : Describes fleet.identifier query)
      (hread : s.state.table.read query = .ok (row :: rows)) :
      DescribedStep fleet s (.read query) { s with request := .read row }
  | answer {s : DescribedFleet} {row : Key × DeploymentRow} {getJobStatus : JobStatuses}
      (hread : s.request = .read row) (htrust : Trustworthy fleet s.exited getJobStatus) :
      DescribedStep fleet s (.answer getJobStatus)
        { s with request := .answered row.1 (ecsLivenessCheck getJobStatus row) }

/-- A request that nothing comes between is `describe_deployment`. -/
theorem describeDeploymentAws_of_read {t : Deployments}
    {project region environment deploymentId : String} {row : Key × DeploymentRow}
    {rows : List (Key × DeploymentRow)} (getJobStatus : JobStatuses)
    (hread : t.read (getDeploymentAndDependentsQuery project region deploymentId environment true) =
      .ok (row :: rows)) :
    describeDeploymentAws getJobStatus t project region environment deploymentId =
      .ok (ecsLivenessCheck getJobStatus row) := by
  unfold describeDeploymentAws
  rw [hread]

/-! ## What is asked -/

/-- When the answer is that a job has failed, neither the row that was described nor the record of
the job says that it was successful. -/
def Truthful (fleet : Fleet) (s : DescribedFleet) : Prop :=
  ∀ key described deployment i, s.request = .answered key described →
    parseDeployment described = .ok deployment → deployment.jobId = (fleet.job i).jobId →
    deployment.status = .failed →
      ∀ key' item, key' = key ∨ key' = (fleet.job i).key →
        s.state.table.item key' = some (.deployment item) →
          item.record.jobId = (fleet.job i).jobId → item.record.status ≠ .successful

/-- No runner stores that its job was successful while the job that was read as busy is looked
up. -/
def Undisturbed (s : DescribedFleet) : DescribedAct → Prop
  | .act (.call _ (.setDeployment record _) _) => ∀ key item,
      s.request = .read (key, .deployment item) → item.record.status.isBusy = true →
        record.status = .successful → record.jobId ≠ item.record.jobId
  | _ => True

/-! ## Rows that are stored -/

/-- The records that an act may store, with their keys. -/
inductive Stores (fleet : Fleet) : Fleet.Act → Key → DeploymentResp → Prop
  | request (i epoch : Nat) :
      Stores fleet (.insert i epoch) (fleet.job i).key ((fleet.job i).request epoch)
  | record (i : Nat) (record : DeploymentResp) (isPlan asPlan : Bool) (answer : Reply Unit)
      (hplan : asPlan = isPlan ∨ asPlan = false ∧ isPlan = true ∧ record.hasDrifted = true) :
      Stores fleet (.call i (.setDeployment record isPlan) answer) (getPayload record asPlan).1
        record

section

variable {fleet : Fleet} {s s' : Fleet.State} {a : Fleet.Act} {i : Nat}

theorem request_key (epoch : Nat) :
    (getPayload ((fleet.job i).request epoch) (fleet.job i).isPlan).1 = (fleet.job i).key := by
  unfold getPayload Job.key
  cases (fleet.job i).isPlan with
  | true => rfl
  | false => rfl

/-- Every row of a table was there before, or was stored by the act. -/
theorem forall_item_act {p : Key → DeploymentRow → Prop} (hsound : fleet.Sound s)
    (hstep : fleet.Step s a s') (h : ∀ key row, s.table.item key = some row → p key row)
    (hstores : ∀ key record, Stores fleet a key record →
      ∀ item, item.record = record → p key (.deployment item))
    (hdependent : ∀ key item, p key (.dependent item)) :
    ∀ key row, s'.table.item key = some row → p key row := by
  have hwf := hsound.wellFormed
  have hcall : ∀ call : SetDeployment, (∀ asPlan, asPlan = call.isPlan ∨
      asPlan = false ∧ call.isPlan = true ∧ call.deployment.hasDrifted = true →
      Stores fleet a (getPayload call.deployment asPlan).1 call.deployment) →
      ∀ key row, (s.table.step call).item key = some row → p key row :=
    fun call hputs => Deployments.forall_item_step_of_puts hwf h
      (fun asPlan hplan => hstores _ _ (hputs asPlan hplan) _ rfl) fun _ _ => hdependent _ _
  cases hstep with
  | start hidle => exact h
  | @insert i epoch t hstarted hnew hsaves =>
      change ∀ key row, t.item key = some row → p key row
      rw [hsaves.eq_step hwf]
      refine hcall _ fun asPlan hplan => ?_
      rcases hplan with rfl | ⟨-, -, hdrifted⟩
      · change Stores fleet _ (getPayload ((fleet.job i).request epoch) (fleet.job i).isPlan).1 _
        rw [request_key]
        exact .request i epoch
      · cases hdrifted
  | @call i op next answer t hcalls hresponds =>
      change ∀ key row, t.item key = some row → p key row
      by_cases hsend : IsSend ⟨op, answer⟩
      · obtain ⟨record, isPlan, answer', heq⟩ := hsend
        cases heq
        rcases hresponds with ⟨-, hsaves⟩ | ⟨-, carriedOut, -, rfl⟩
        · rw [hsaves.eq_step hwf]
          exact hcall _ fun asPlan hplan => .record i record isPlan asPlan answer' hplan
        · exact hcall _ fun asPlan hplan => .record i record isPlan asPlan answer' hplan
      · have htable : t = s.table := (Fleet.Step.call hcalls hresponds).table_eq hsend
        rw [htable]
        exact h

/-- A runner stores records of its own job, or of none. -/
theorem sender_of_jobId (hsound : fleet.Sound s) {k : Nat} {record : DeploymentResp} {isPlan : Bool}
    {answer : Reply Unit}
    (hstep : fleet.Step s (.call k (.setDeployment record isPlan) answer) s')
    (hjobId : record.jobId = (fleet.job i).jobId) : k = i := by
  obtain ⟨h, epoch, hfits, -, rfl, -⟩ := hsound.sent hstep
  have hjob : (h.deployment (fleet.job k).rt.parseDuration epoch).jobId =
      (s.progress k).identified.getD "unknown_jobid" := hfits.jobId
  rw [hjob] at hjobId
  cases hid : (s.progress k).identified with
  | none =>
      rw [hid] at hjobId
      exact absurd hjobId.symm (fleet.job i).named
  | some jobId =>
      rw [hid] at hjobId
      exact fleet.distinct k i ((hsound.identified k jobId hid).symm.trans hjobId)

end

/-! ## What is kept -/

/-- A record of a job tells a verdict of its runner, and is that of the job as long as it is
busy. -/
structure Recorded (job : Job) (v : Verdict) (key : Key) (record : DeploymentResp) : Prop where
  failed : record.status = .failed → v.failed = true
  successful : record.status = .successful → v.successful = true
  busy : record.status.isBusy = true → key = job.key

def NotSuccessful (job : Job) (t : Deployments) : Prop :=
  ∀ item, t.item job.key = some (.deployment item) → item.record.jobId = job.jobId →
    item.record.status ≠ .successful

/-- What is known of the jobs while a request goes on. -/
def Known (fleet : Fleet) (verdict : Nat → Verdict) (s : DescribedFleet) : Prop :=
  match s.request with
  | .waiting => True
  | .read row => ∀ i item, row.2 = .deployment item → item.record.jobId = (fleet.job i).jobId →
      (item.record.status = .failed → (verdict i).failed = true) ∧
        (item.record.status.isBusy = true → row.1 = (fleet.job i).key ∧
          NotSuccessful (fleet.job i) s.state.table)
  | .answered key described => ∀ i deployment, parseDeployment described = .ok deployment →
      deployment.jobId = (fleet.job i).jobId → deployment.status = .failed →
        (verdict i).failed = true ∨ key = (fleet.job i).key ∧ s.exited i = true ∧
          NotSuccessful (fleet.job i) s.state.table

structure Witnessed (fleet : Fleet) (verdict : Nat → Verdict) (s : DescribedFleet) : Prop where
  sound : fleet.Sound s.state
  idle : ∀ i, s.state.runner i = none → verdict i = .open'
  program : ∀ i program, s.state.runner i = some program →
    Program.WP verdictEnvironment (fun _ _ => True) (verdict i) program
  single : ∀ i, (verdict i).failed = true → (verdict i).successful = false
  rows : ∀ key row, s.state.table.item key = some row → ∀ i item, row = .deployment item →
    item.record.jobId = (fleet.job i).jobId →
      Recorded (fleet.job i) (verdict i) key item.record
  known : Known fleet verdict s

/-- What the runners have tried to store after an act. -/
def tell (verdict : Nat → Verdict) : Fleet.Act → Nat → Verdict
  | .call i op _ => Function.update verdict i ((verdict i).after op)
  | _ => verdict

/-! ## Verdicts -/

theorem after_mono (v : Verdict) (op : TerraformRunner.Operation) :
    (v.failed = true → (v.after op).failed = true) ∧
      (v.successful = true → (v.after op).successful = true) := by
  cases op with
  | setDeployment record isPlan =>
      exact ⟨fun h => Bool.or_eq_true_iff.2 (.inl h), fun h => Bool.or_eq_true_iff.2 (.inl h)⟩
  | _ => exact ⟨id, id⟩

theorem single_after {v : Verdict} {op : TerraformRunner.Operation} (hallows : v.Allows op)
    (hsingle : v.failed = true → v.successful = false) :
    (v.after op).failed = true → (v.after op).successful = false := by
  cases op with
  | setDeployment record isPlan =>
      obtain ⟨hfailed, hsuccessful, -⟩ := hallows
      intro heq
      refine Bool.or_eq_false_iff.2 ?_
      rcases Bool.or_eq_true_iff.1 heq with htold | hnow
      · refine ⟨hsingle htold, decide_eq_false fun hstatus => ?_⟩
        rw [hsuccessful hstatus] at htold
        cases htold
      · have hstatus : record.status = .failed := of_decide_eq_true hnow
        refine ⟨hfailed hstatus, ?_⟩
        rw [hstatus]
        rfl
  | _ => exact hsingle

section

variable {fleet : Fleet} {verdict : Nat → Verdict} {s : DescribedFleet} {state : Fleet.State}
  {a : Fleet.Act} {i : Nat}

theorem tell_of_ne (hother : ∀ op answer, a ≠ .call i op answer) :
    tell verdict a i = verdict i := by
  cases a with
  | start k => rfl
  | insert k epoch => rfl
  | call k op answer =>
      refine Function.update_of_ne (fun hik => ?_) _ _
      subst hik
      exact hother op answer rfl

theorem tell_self {op : TerraformRunner.Operation} {answer : op.Answer} :
    tell verdict (.call i op answer) i = (verdict i).after op :=
  Function.update_self _ _ _

/-- A verdict that is told stays. -/
theorem tell_mono (verdict : Nat → Verdict) (a : Fleet.Act) (i : Nat) :
    ((verdict i).failed = true → (tell verdict a i).failed = true) ∧
      ((verdict i).successful = true → (tell verdict a i).successful = true) := by
  by_cases hown : ∃ op answer, a = .call i op answer
  · obtain ⟨op, answer, rfl⟩ := hown
    rw [tell_self]
    exact after_mono _ _
  · rw [tell_of_ne fun op answer heq => hown ⟨op, answer, heq⟩]
    exact ⟨id, id⟩

/-! ## Steps of the runners -/

theorem Witnessed.allows (hw : Witnessed fleet verdict s) {op : TerraformRunner.Operation}
    {answer : op.Answer}
    (hstep : fleet.Step s.state (.call i op answer) state) :
    (verdict i).Allows op ∧ ∃ next : op.Answer → RunnerProgram,
      state.runner i = some (next answer) ∧
        Program.WP verdictEnvironment (fun _ _ => True) ((verdict i).after op) (next answer) := by
  obtain ⟨next, hcalls, hnext⟩ := hstep.next
  obtain ⟨hallows, hrest⟩ := hw.program i _ hcalls
  exact ⟨hallows, next, hnext, hrest answer _ rfl⟩

theorem Witnessed.idle_act (hw : Witnessed fleet verdict s) (hstep : fleet.Step s.state a state)
    (hidle : state.runner i = none) : tell verdict a i = .open' := by
  have hbefore : s.state.runner i = none := by
    by_contra hsome
    exact hstep.runner_ne_none hsome hidle
  rw [tell_of_ne, hw.idle i hbefore]
  rintro op answer rfl
  obtain ⟨next, hcalls, -⟩ := hstep.next
  rw [hbefore] at hcalls
  cases hcalls

theorem Witnessed.program_act (hw : Witnessed fleet verdict s)
    (hstep : fleet.Step s.state a state) {program : RunnerProgram}
    (hrunner : state.runner i = some program) :
    Program.WP verdictEnvironment (fun _ _ => True) (tell verdict a i) program := by
  by_cases hown : ∃ op answer, a = .call i op answer
  · obtain ⟨op, answer, rfl⟩ := hown
    obtain ⟨-, next, hnext, hrest⟩ := hw.allows hstep
    obtain rfl := Option.some.inj (hrunner.symm.trans hnext)
    rw [tell_self]
    exact hrest
  · have hother : ∀ op answer, a ≠ .call i op answer :=
      fun op answer heq => hown ⟨op, answer, heq⟩
    rw [tell_of_ne hother]
    rcases hstep.runner i with heq | ⟨-, hnone, heq⟩ | ⟨op, next, answer, hact, -⟩
    · exact hw.program i program (heq.symm.trans hrunner)
    · obtain rfl := Option.some.inj (heq.symm.trans hrunner)
      rw [hw.idle i hnone]
      exact runnerProgram_verdict (fleet.job i).rt
    · exact absurd hact (hother op answer)

theorem Witnessed.single_act (hw : Witnessed fleet verdict s) (hstep : fleet.Step s.state a state)
    (i : Nat) : (tell verdict a i).failed = true → (tell verdict a i).successful = false := by
  by_cases hown : ∃ op answer, a = .call i op answer
  · obtain ⟨op, answer, rfl⟩ := hown
    rw [tell_self]
    exact single_after (hw.allows hstep).1 (hw.single i)
  · rw [tell_of_ne fun op answer heq => hown ⟨op, answer, heq⟩]
    exact hw.single i

/-- What a runner stores while its job is busy is the record of the job. -/
theorem key_of_busy (hsound : fleet.Sound s.state) {record : DeploymentResp} {isPlan : Bool}
    {answer : Reply Unit}
    (hstep : fleet.Step s.state (.call i (.setDeployment record isPlan) answer) state)
    (hjobId : record.jobId = (fleet.job i).jobId) (hbusy : record.status.isBusy = true) :
    (getPayload record isPlan).1 = (fleet.job i).key := by
  obtain ⟨h, epoch, hfits, hmay, rfl, hplan⟩ := hsound.allowed hstep
  obtain ⟨hid, hisPlan⟩ : (h.deployment (fleet.job i).rt.parseDuration epoch).identifier =
      (fleet.job i).identifier ∧ h.isPlan = (fleet.job i).isPlan := hfits.deployment epoch
  have hsame : isPlan = (fleet.job i).isPlan := by
    rcases hplan with heq | ⟨-, -, hfinal, -⟩
    · exact heq.trans hisPlan
    · have hbusy' : h.status.isBusy = true := hbusy
      cases hstatus : h.status <;> rw [hstatus] at hfinal hbusy' <;> contradiction
  rw [hsame]
  unfold getPayload Job.key
  cases (fleet.job i).isPlan with
  | true =>
      change (⟨"PLAN" ++ "#" ++ DeploymentResp.identifier _, DeploymentResp.jobId _⟩ : Key) = _
      rw [hid, hjobId]
      rfl
  | false =>
      change (⟨"DEPLOYMENT" ++ "#" ++ DeploymentResp.identifier _, _⟩ : Key) = _
      rw [hid]
      rfl

theorem Recorded.mono {job : Job} {v v' : Verdict} {key : Key} {record : DeploymentResp}
    (h : Recorded job v key record) (hfailed : v.failed = true → v'.failed = true)
    (hsuccessful : v.successful = true → v'.successful = true) : Recorded job v' key record where
  failed hstatus := hfailed (h.failed hstatus)
  successful hstatus := hsuccessful (h.successful hstatus)
  busy := h.busy

theorem recorded_request (epoch : Nat) (v : Verdict) :
    Recorded (fleet.job i) v (fleet.job i).key ((fleet.job i).request epoch) where
  failed := nofun
  successful := nofun
  busy _ := rfl

/-- What a runner stores of its job. -/
theorem Witnessed.recorded (hw : Witnessed fleet verdict s) {record : DeploymentResp}
    {isPlan asPlan : Bool} {answer : Reply Unit}
    (hstep : fleet.Step s.state (.call i (.setDeployment record isPlan) answer) state)
    (hplan : asPlan = isPlan ∨ asPlan = false ∧ isPlan = true ∧ record.hasDrifted = true)
    (hjobId : record.jobId = (fleet.job i).jobId) :
    Recorded (fleet.job i) ((verdict i).after (.setDeployment record isPlan))
      (getPayload record asPlan).1 record where
  failed hstatus := Bool.or_eq_true_iff.2 (.inr (decide_eq_true hstatus))
  successful hstatus := Bool.or_eq_true_iff.2 (.inr (decide_eq_true hstatus))
  busy hbusy := by
    have hdrifted : record.hasDrifted = false := (hw.allows hstep).1.2.2 hbusy
    rcases hplan with rfl | ⟨-, -, htrue⟩
    · exact key_of_busy hw.sound hstep hjobId hbusy
    · rw [hdrifted] at htrue
      cases htrue

theorem Witnessed.rows_act (hw : Witnessed fleet verdict s) (hstep : fleet.Step s.state a state) :
    ∀ key row, state.table.item key = some row → ∀ i item, row = .deployment item →
      item.record.jobId = (fleet.job i).jobId →
        Recorded (fleet.job i) (tell verdict a i) key item.record := by
  refine forall_item_act hw.sound hstep ?_ ?_ fun _ _ _ _ heq => nomatch heq
  · intro key row hrow i item hitem hjobId
    have hmono := tell_mono verdict a i
    exact (hw.rows key row hrow i item hitem hjobId).mono hmono.1 hmono.2
  · rintro key _ (⟨k, epoch⟩ | ⟨k, record, isPlan, asPlan, answer, hplan⟩) item' hrecord i item
      heq hjobId
    · obtain rfl := DeploymentRow.deployment.inj heq
      rw [hrecord] at hjobId ⊢
      obtain rfl : k = i := fleet.distinct k i hjobId
      exact recorded_request epoch _
    · obtain rfl := DeploymentRow.deployment.inj heq
      rw [hrecord] at hjobId ⊢
      obtain rfl : k = i := sender_of_jobId hw.sound hstep hjobId
      rw [tell_self]
      exact hw.recorded hstep hplan hjobId

/-- A record of success is stored by the runner of the job alone. -/
theorem Witnessed.notSuccessful_act (hw : Witnessed fleet verdict s)
    (hstep : fleet.Step s.state a state)
    (hsends : ∀ record isPlan answer, a = .call i (.setDeployment record isPlan) answer →
      record.jobId = (fleet.job i).jobId → record.status ≠ .successful)
    (h : NotSuccessful (fleet.job i) s.state.table) :
    NotSuccessful (fleet.job i) state.table := by
  have hrows := forall_item_act (p := fun key row => ∀ item, row = .deployment item →
    key = (fleet.job i).key → item.record.jobId = (fleet.job i).jobId →
      item.record.status ≠ .successful) hw.sound hstep ?_ ?_ fun _ _ _ heq => nomatch heq
  · exact fun item hitem => hrows _ _ hitem item rfl rfl
  · rintro _ row hrow item rfl rfl
    exact h item hrow
  · rintro key _ (⟨k, epoch⟩ | ⟨k, record, isPlan, asPlan, answer, hplan⟩) item' hrecord item
      heq - hjobId
    · obtain rfl := DeploymentRow.deployment.inj heq
      rw [hrecord]
      exact nofun
    · obtain rfl := DeploymentRow.deployment.inj heq
      rw [hrecord] at hjobId ⊢
      obtain rfl : k = i := sender_of_jobId hw.sound hstep hjobId
      exact hsends _ _ _ rfl hjobId

theorem Witnessed.known_act (hw : Witnessed fleet verdict s) (hok : Undisturbed s (.act a))
    (hstep : fleet.Step s.state a state)
    (hruns : ∀ i op answer, a = .call i op answer → s.exited i = false) :
    Known fleet (tell verdict a) { s with state } := by
  have hknown := hw.known
  unfold Known at hknown ⊢
  dsimp only
  split
  · exact trivial
  · rename_i row hrequest
    rw [hrequest] at hknown
    intro i item hitem hjobId
    obtain ⟨hfailed, hbusy⟩ := hknown i item hitem hjobId
    refine ⟨fun hstatus => (tell_mono verdict a i).1 (hfailed hstatus), fun hstatus => ?_⟩
    refine ⟨(hbusy hstatus).1, hw.notSuccessful_act hstep ?_ (hbusy hstatus).2⟩
    rintro record isPlan answer rfl hjob hsuccessful
    obtain ⟨key, row⟩ := row
    obtain rfl : row = .deployment item := hitem
    exact hok key item hrequest hstatus hsuccessful (hjob.trans hjobId.symm)
  · rename_i key described hrequest
    rw [hrequest] at hknown
    intro i deployment hparse hjobId hstatus
    rcases hknown i deployment hparse hjobId hstatus with hfailed | ⟨hkey, hexited, hnot⟩
    · exact .inl ((tell_mono verdict a i).1 hfailed)
    · refine .inr ⟨hkey, hexited, hw.notSuccessful_act hstep ?_ hnot⟩
      rintro record isPlan answer rfl
      rw [hruns i _ _ rfl] at hexited
      cases hexited

theorem Witnessed.act (hw : Witnessed fleet verdict s) (hok : Undisturbed s (.act a))
    (hstep : fleet.Step s.state a state)
    (hruns : ∀ i op answer, a = .call i op answer → s.exited i = false) :
    Witnessed fleet (tell verdict a) { s with state } where
  sound := hw.sound.step hstep
  idle _ hidle := hw.idle_act hstep hidle
  program _ _ hrunner := hw.program_act hstep hrunner
  single := hw.single_act hstep
  rows := hw.rows_act hstep
  known := hw.known_act hok hstep hruns

/-! ## Steps of the request -/

/-- A row that is read is one of the table. -/
theorem item_of_describes {identifier : String} {query : InfraWeave.Query} {t : Deployments}
    {row : Key × DeploymentRow} {rows : List (Key × DeploymentRow)}
    (hquery : Describes identifier query) (hread : t.read query = .ok (row :: rows)) :
    t.item row.1 = some row.2 := by
  have hselect : t.read query = .ok (query.select deploymentKeys DeploymentRow.attr t.rows) := by
    cases hquery with
    | deployment hidentifier => exact InfraWeave.Query.evaluate_of_accepted rfl rfl _ _
    | plan jobId hidentifier => exact InfraWeave.Query.evaluate_of_accepted rfl rfl _ _
  have hmem : row ∈ query.select deploymentKeys DeploymentRow.attr t.rows := by
    rw [← Except.ok.inj (hread.symm.trans hselect)]
    exact List.mem_cons_self
  exact (KeyedTable.mem_rows_iff t).1 (InfraWeave.Query.mem_select.1 hmem).1

theorem Witnessed.read (hw : Witnessed fleet verdict s) {query : InfraWeave.Query}
    {row : Key × DeploymentRow} {rows : List (Key × DeploymentRow)}
    (hquery : Describes fleet.identifier query)
    (hread : s.state.table.read query = .ok (row :: rows)) :
    Witnessed fleet verdict { s with request := .read row } where
  sound := hw.sound
  idle := hw.idle
  program := hw.program
  single := hw.single
  rows := hw.rows
  known := by
    intro i item hitem hjobId
    have hstored := item_of_describes hquery hread
    have hrecorded := hw.rows row.1 row.2 hstored i item hitem hjobId
    refine ⟨hrecorded.failed, fun hbusy => ⟨hrecorded.busy hbusy, fun item' hitem' _ heq => ?_⟩⟩
    -- The record of the job is the one that is read as busy.
    rw [← hrecorded.busy hbusy, hstored, hitem] at hitem'
    obtain rfl := DeploymentRow.deployment.inj (Option.some.inj hitem')
    rw [heq] at hbusy
    cases hbusy

/-- An answer is the row that was read, or tells that the task of a busy job has stopped. -/
theorem parse_ecsLivenessCheck {getJobStatus : JobStatuses} {row : Key × DeploymentRow}
    {deployment : DeploymentResp}
    (h : parseDeployment (ecsLivenessCheck getJobStatus row) = .ok deployment) :
    ∃ item, row.2 = .deployment item ∧ (deployment = item.record ∨
      item.record.status.isBusy = true ∧ deployment.jobId = item.record.jobId ∧
        ∃ taskStatus stoppedReason,
          getJobStatus (shortJobId item.record.jobId) item.record.projectId item.record.region =
              .ok (taskStatus, stoppedReason) ∧
            (taskStatus = "STOPPED" ∨ taskStatus = "DEPROVISIONING")) := by
  obtain ⟨key, row⟩ := row
  cases row with
  | dependent item => cases h
  | deployment item =>
      refine ⟨item, rfl, ?_⟩
      unfold ecsLivenessCheck at h
      dsimp only at h
      split at h
      · exact .inl (Except.ok.inj h).symm
      rename_i hbusy
      have hbusy' : item.record.status.isBusy = true := by simpa using hbusy
      split at h
      · exact .inl (Except.ok.inj h).symm
      split at h
      · exact .inl (Except.ok.inj h).symm
      rename_i taskStatus stoppedReason hstatus
      split at h
      · rename_i hstopped
        obtain rfl := Except.ok.inj h
        exact .inr ⟨hbusy', rfl, taskStatus, stoppedReason, hstatus, hstopped⟩
      · exact .inl (Except.ok.inj h).symm

theorem Witnessed.answer (hw : Witnessed fleet verdict s) {row : Key × DeploymentRow}
    {getJobStatus : JobStatuses} (hread : s.request = .read row)
    (htrust : Trustworthy fleet s.exited getJobStatus) :
    Witnessed fleet verdict
      { s with request := .answered row.1 (ecsLivenessCheck getJobStatus row) } where
  sound := hw.sound
  idle := hw.idle
  program := hw.program
  single := hw.single
  rows := hw.rows
  known := by
    intro i deployment hparse hjobId hstatus
    have hknown := hw.known
    unfold Known at hknown
    rw [hread] at hknown
    obtain ⟨item, hitem, rfl | ⟨hbusy, hsame, taskStatus, stoppedReason, hanswer, hstopped⟩⟩ :=
      parse_ecsLivenessCheck hparse
    · exact .inl ((hknown i item hitem hjobId).1 hstatus)
    · have hjob : item.record.jobId = (fleet.job i).jobId := hsame.symm.trans hjobId
      obtain ⟨hkey, hnot⟩ := (hknown i item hitem hjob).2 hbusy
      rw [hjob] at hanswer
      exact .inr ⟨hkey, htrust i _ _ _ _ hanswer hstopped, hnot⟩

theorem Witnessed.exit (hw : Witnessed fleet verdict s) (k : Nat) :
    Witnessed fleet verdict { s with exited := Function.update s.exited k true } where
  sound := hw.sound
  idle := hw.idle
  program := hw.program
  single := hw.single
  rows := hw.rows
  known := by
    have hknown := hw.known
    unfold Known at hknown ⊢
    dsimp only
    split
    · exact trivial
    · rename_i row hrequest
      rw [hrequest] at hknown
      exact hknown
    · rename_i key described hrequest
      rw [hrequest] at hknown
      intro i deployment hparse hjobId hstatus
      refine (hknown i deployment hparse hjobId hstatus).imp_right ?_
      rintro ⟨hkey, hexited, hnot⟩
      refine ⟨hkey, ?_, hnot⟩
      by_cases hik : i = k
      · rw [hik]
        exact Function.update_self _ _ _
      · rw [Function.update_of_ne hik]
        exact hexited

theorem Witnessed.step {s' : DescribedFleet} {a : DescribedAct}
    (hw : ∃ verdict, Witnessed fleet verdict s) (hok : Undisturbed s a)
    (hstep : DescribedStep fleet s a s') : ∃ verdict, Witnessed fleet verdict s' := by
  obtain ⟨verdict, hw⟩ := hw
  cases hstep with
  | @act a state hstep hruns => exact ⟨tell verdict a, hw.act hok hstep hruns⟩
  | exit hstarted => exact ⟨verdict, hw.exit _⟩
  | read hwaiting hquery hread => exact ⟨verdict, hw.read hquery hread⟩
  | answer hread htrust => exact ⟨verdict, hw.answer hread htrust⟩

theorem Witnessed.begin {t : Deployments} (hwf : t.WellFormed)
    (hfresh : ∀ i key item, t.item key = some (.deployment item) →
      item.record.jobId ≠ (fleet.job i).jobId) :
    Witnessed fleet (fun _ => .open') (.begin t) where
  sound := .begin hwf
  idle _ _ := rfl
  program _ program hrunner := absurd hrunner (Option.some_ne_none program).symm
  single _ := nofun
  rows key _ hrow i item hitem hjobId := by
    subst hitem
    exact absurd hjobId (hfresh i key item hrow)
  known := trivial

theorem Witnessed.truthful (hw : Witnessed fleet verdict s) : Truthful fleet s := by
  intro key described deployment i hrequest hparse hjobId hstatus key' item hkey' hitem hjob heq
  have hknown := hw.known
  unfold Known at hknown
  rw [hrequest] at hknown
  rcases hknown i deployment hparse hjobId hstatus with hfailed | ⟨rfl, -, hnot⟩
  · have hsuccessful := (hw.rows key' _ hitem i item rfl hjob).successful heq
    rw [hw.single i hfailed] at hsuccessful
    cases hsuccessful
  · obtain rfl : key' = (fleet.job i).key := hkey'.elim id id
    exact hnot item hitem hjob heq

/-- In every run in which no runner stores its success while its job is looked up, an answer that a
job has failed is right, and stays so. -/
theorem liveness_truthful {t : Deployments} (hwf : t.WellFormed)
    (hfresh : ∀ i key item, t.item key = some (.deployment item) →
      item.record.jobId ≠ (fleet.job i).jobId)
    (hreaches : Reaches (DescribedStep fleet) Undisturbed (.begin t) s) : Truthful fleet s := by
  obtain ⟨verdict, hw⟩ : ∃ verdict, Witnessed fleet verdict s :=
    hreaches.invariant (fun _ _ _ hw hok hstep => Witnessed.step hw hok hstep)
      ⟨_, .begin hwf hfresh⟩
  exact hw.truthful

end

/-! ## A job that is successful after it is read -/

section

variable {fleet : Fleet} {i : Nat}

/-- A table that can be read and written, for a runner that is granted everything else. -/
def respondGranted (fleet : Fleet) (i : Nat) (t : Deployments) :
    (op : TerraformRunner.Operation) → Option (op.Answer × Deployments)
  | .setDeployment record isPlan => fleet.respond i t (.setDeployment record isPlan)
  | .getDeployment deploymentId environment includeDeleted =>
      fleet.respond i t (.getDeployment deploymentId environment includeDeleted)
  | .getPlanDeployment _ _ _ => none
  | .getCurrentJobId => fleet.respond i t .getCurrentJobId
  | op => some (op.granted ((fleet.job i).request 0), t)

theorem responds_of_respondGranted (i : Nat) (t : Deployments) (op : TerraformRunner.Operation)
    (answer : op.Answer) (t' : Deployments) (h : respondGranted fleet i t op = some (answer, t')) :
    (fleet.solo i).step t op answer t' := by
  cases op with
  | setDeployment record isPlan => exact Fleet.responds_of_respond i t _ answer t' h
  | getDeployment deploymentId environment includeDeleted =>
      exact Fleet.responds_of_respond i t _ answer t' h
  | getPlanDeployment deploymentId environment jobId => cases h
  | getCurrentJobId => exact Fleet.responds_of_respond i t _ answer t' h
  | _ =>
      obtain ⟨-, rfl⟩ := Prod.mk.inj (Option.some.inj h)
      rfl

/-- A runner goes to its end while a request waits. -/
theorem described_of_solo {t t' : Deployments} {program : RunnerProgram}
    {trace : List TerraformRunner.Event}
    {result : Except Stop Unit × DeploymentStatusHandler}
    (hrun : Program.Runs (fleet.solo i) t program trace t' result) {s : DescribedFleet}
    (htable : s.state.table = t) (hrunner : s.state.runner i = some program)
    (hexited : s.exited i = false) :
    ∃ state : Fleet.State, Reaches (DescribedStep fleet) (fun _ _ => True) s { s with state } ∧
      state.table = t' ∧ state.runner i ≠ none := by
  induction hrun generalizing s with
  | done =>
      refine ⟨s.state, .refl, htable, ?_⟩
      rw [hrunner]
      exact Option.some_ne_none _
  | @call t t₁ t' op answer next trace result hresponds hrest ih =>
      subst htable
      obtain ⟨state₁, hstep, htable₁, hrunner₁⟩ : ∃ state₁ : Fleet.State,
          fleet.Step s.state (.call i op answer) state₁ ∧ state₁.table = t₁ ∧
            state₁.runner i = some (next answer) :=
        ⟨_, Fleet.Step.call hrunner hresponds, rfl, Function.update_self _ _ _⟩
      have hact : DescribedStep fleet s (.act (.call i op answer)) { s with state := state₁ } :=
        .act hstep fun k op' answer' heq => by
          cases heq
          exact hexited
      obtain ⟨state, hreaches, htable', hrunner'⟩ :=
        ih (s := { s with state := state₁ }) htable₁ hrunner₁ hexited
      exact ⟨state, hreaches.cons trivial hact, htable', hrunner'⟩

end

/-- The task of one job has stopped. -/
def stoppedTask : JobStatuses := fun jobId _ _ =>
  if jobId = "x" then .ok ("STOPPED", "") else .ok ("RUNNING", "")

theorem trustworthy_stoppedTask (exited : Nat → Bool) (hexited : exited 1 = true) :
    Trustworthy webFleet exited stoppedTask := by
  intro i project region taskStatus stoppedReason hanswer hstopped
  have hslash : '/' ∉ (webFleet.job i).jobId.toList := by
    change '/' ∉ (String.ofList (List.replicate i 'x')).toList
    rw [String.toList_ofList]
    intro hmem
    exact absurd (List.eq_of_mem_replicate hmem) (by decide)
  have hshort : shortJobId (webFleet.job i).jobId = .ofList (List.replicate i 'x') := by
    unfold shortJobId
    rw [Text.split_eq_singleton hslash]
    rfl
  unfold stoppedTask at hanswer
  split at hanswer
  · rename_i heq
    obtain rfl : i = 1 := webFleet.distinct i 1 (hshort.symm.trans heq)
    exact hexited
  · obtain ⟨rfl, -⟩ := Prod.mk.inj (Except.ok.inj hanswer)
    exact absurd hstopped (by decide)

theorem fresh_empty (i : Nat) (key : Key) (item : DeploymentItem)
    (hitem : KeyedTable.item (.empty : Deployments) key = some (.deployment item)) :
    item.record.jobId ≠ (webFleet.job i).jobId := by
  cases hitem

/-- A job that is started, and the record of its request. -/
def webRequested : DescribedFleet where
  state :=
    { webFleet.started (.begin .empty) 1 with
      table := webStored .empty ((webFleet.job 1).request 0)
      requested := Function.update (fun _ => false) 1 true }
  exited _ := false
  request := .waiting

theorem reaches_webRequested :
    Reaches (DescribedStep webFleet) Undisturbed (.begin .empty) webRequested := by
  have hsaves : Saves webFleet.handler .empty ((webFleet.job 1).request 0)
      (webFleet.job 1).isPlan (webStored .empty ((webFleet.job 1).request 0)) :=
    ⟨by decide +kernel, rfl⟩
  have hstart : webFleet.Step (.begin .empty) (.start 1) (webFleet.started (.begin .empty) 1) :=
    .start rfl
  have hinsert : webFleet.Step (webFleet.started (.begin .empty) 1) (.insert 1 0)
      webRequested.state := .insert (Option.some_ne_none _) rfl hsaves
  have hfirst : DescribedStep webFleet (.begin .empty) (.act (.start 1))
      { DescribedFleet.begin .empty with state := webFleet.started (.begin .empty) 1 } :=
    .act hstart fun _ _ _ heq => nomatch heq
  have hsecond : DescribedStep webFleet
      { DescribedFleet.begin .empty with state := webFleet.started (.begin .empty) 1 }
      (.act (.insert 1 0)) webRequested := .act hinsert fun _ _ _ heq => nomatch heq
  have hok₁ : Undisturbed (.begin .empty) (.act (.start 1)) := trivial
  have hok₂ : Undisturbed
      { DescribedFleet.begin .empty with state := webFleet.started (.begin .empty) 1 }
      (.act (.insert 1 0)) := trivial
  exact Reaches.cons hok₁ hfirst (Reaches.cons hok₂ hsecond .refl)

/-- The query with which the deployment is described. -/
def webQuery : InfraWeave.Query :=
  getDeploymentAndDependentsQuery "1" "eu" "web/a" "cli/default" true

theorem describes_webQuery : Describes webFleet.identifier webQuery :=
  .deployment rfl

/-- The row that is read before the runner goes on. -/
def webRow : Key × DeploymentRow :=
  (metadataKey webFleet.identifier,
    .deployment (getPayload ((webFleet.job 1).request 0) false).2)

theorem read_webRequested : webRequested.state.table.read webQuery = .ok [webRow] := by
  decide +kernel

/-- The runner is killed before it stores anything. -/
theorem liveness_truthful_web : ∃ s : DescribedFleet,
    Reaches (DescribedStep webFleet) Undisturbed (.begin .empty) s ∧
      (∃ key deployment, s.request = .answered key (.stopped deployment)) ∧
        Truthful webFleet s := by
  let read : DescribedFleet := { webRequested with request := .read webRow }
  let killed : DescribedFleet := { read with exited := Function.update read.exited 1 true }
  have hread : DescribedStep webFleet webRequested (.read webQuery) read :=
    .read rfl describes_webQuery read_webRequested
  have hexit : DescribedStep webFleet read (.exit 1) killed := .exit (Option.some_ne_none _)
  have hanswer : DescribedStep webFleet killed (.answer stoppedTask)
      { killed with request := .answered webRow.1 (ecsLivenessCheck stoppedTask webRow) } :=
    .answer rfl (trustworthy_stoppedTask _ (Function.update_self 1 true read.exited))
  have hok : Undisturbed webRequested (.read webQuery) ∧ Undisturbed read (.exit 1) ∧
      Undisturbed killed (.answer stoppedTask) := ⟨trivial, trivial, trivial⟩
  have hreaches : Reaches (DescribedStep webFleet) Undisturbed (.begin .empty)
      { killed with request := .answered webRow.1 (ecsLivenessCheck stoppedTask webRow) } :=
    reaches_webRequested.trans (Reaches.cons hok.1 hread (Reaches.cons hok.2.1 hexit
      (Reaches.cons hok.2.2 hanswer .refl)))
  have hstopped : ∃ deployment, ecsLivenessCheck stoppedTask webRow = .stopped deployment :=
    ⟨{ (webFleet.job 1).request 0 with
        status := .failed
        errorText := "ECS task stopped: task exited before writing final status" }, by
      decide +kernel⟩
  obtain ⟨deployment, hdescribed⟩ := hstopped
  exact ⟨_, hreaches, ⟨webRow.1, deployment, congrArg _ hdescribed⟩,
    liveness_truthful Deployments.wellFormed_empty fresh_empty hreaches⟩

/-- The runner stores its success and exits after its record was read and before its task is looked
up. -/
theorem not_liveness_truthful_web : ¬ ∀ (fleet : Fleet) (t : Deployments), t.WellFormed →
    (∀ i key item, t.item key = some (.deployment item) →
      item.record.jobId ≠ (fleet.job i).jobId) →
    ∀ s, Reaches (DescribedStep fleet) (fun _ _ => True) (.begin t) s → Truthful fleet s := by
  intro hall
  let read : DescribedFleet := { webRequested with request := .read webRow }
  have hread : DescribedStep webFleet webRequested (.read webQuery) read :=
    .read rfl describes_webQuery read_webRequested
  have hrun : ((Program.execute (respondGranted webFleet 1) webRequested.state.table
      (runnerProgram (webFleet.job 1).rt)).map fun r =>
        (r.2.1.stored webFleet.identifier).map fun record => (record.jobId, record.status)) =
      some (some ("x", .successful)) := by
    decide +kernel
  obtain ⟨⟨trace, t', result⟩, hexecute, hstored⟩ := Option.map_eq_some_iff.1 hrun
  have hruns := Program.runs_execute (responds_of_respondGranted 1) hexecute
  obtain ⟨state, hdone, htable, hstarted⟩ := described_of_solo hruns (s := read) rfl rfl rfl
  let finished : DescribedFleet := { read with state }
  let exited : DescribedFleet := { finished with exited := Function.update finished.exited 1 true }
  have hexit : DescribedStep webFleet finished (.exit 1) exited := .exit hstarted
  have hanswer : DescribedStep webFleet exited (.answer stoppedTask)
      { exited with request := .answered webRow.1 (ecsLivenessCheck stoppedTask webRow) } :=
    .answer rfl (trustworthy_stoppedTask _ (Function.update_self 1 true finished.exited))
  have hbefore : Reaches (DescribedStep webFleet) (fun _ _ => True) (.begin .empty) webRequested :=
    Relation.ReflTransGen.mono (fun _ _ ⟨a, _, hstep⟩ => ⟨a, trivial, hstep⟩) _ _
      reaches_webRequested
  have hreaches := hbefore.trans (Reaches.cons trivial hread (hdone.trans
    (Reaches.cons trivial hexit (Reaches.cons trivial hanswer .refl))))
  have htruthful := hall webFleet .empty Deployments.wellFormed_empty fresh_empty _ hreaches
  obtain ⟨record, hrecord, heq⟩ := Option.map_eq_some_iff.1 hstored
  obtain ⟨hjobId, hstatus⟩ := Prod.mk.inj heq
  obtain ⟨item, hitem, rfl⟩ := Deployments.stored_eq_some.1 hrecord
  have hdescribed : (parseDeployment (ecsLivenessCheck stoppedTask webRow)).toOption.map
      (fun deployment => (deployment.jobId, deployment.status)) = some ("x", .failed) := by
    decide +kernel
  obtain ⟨deployment, hparse, hanswered⟩ := Option.map_eq_some_iff.1 hdescribed
  obtain ⟨hjobId', hstatus'⟩ := Prod.mk.inj hanswered
  have hparse' : parseDeployment (ecsLivenessCheck stoppedTask webRow) = .ok deployment := by
    cases hresult : parseDeployment (ecsLivenessCheck stoppedTask webRow) with
    | error e =>
        rw [hresult] at hparse
        cases hparse
    | ok deployment' =>
        rw [hresult] at hparse
        exact congrArg Except.ok (Option.some.inj hparse)
  have hitem' : exited.state.table.item (metadataKey webFleet.identifier) =
      some (.deployment item) := htable ▸ hitem
  exact htruthful webRow.1 _ deployment 1 rfl hparse' hjobId' hstatus' (metadataKey _) item
    (.inl rfl) hitem' hjobId hstatus

end InternalApi
end InfraWeave
