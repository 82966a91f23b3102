import InfraWeave.EnvCommon.ClaimJobs

/-!
# Clients and jobs of one deployment

Clients that submit claims for one deployment, and the runners that they start, take turns in any
order, one request at a time.
-/

namespace InfraWeave
namespace EnvCommon

open Program Request Deployments

/-- A deployment, by its names. -/
structure Target where
  handler : WorkloadHandler
  deploymentId : String
  environment : String

def Target.identifier (target : Target) : String :=
  getDeploymentIdentifier target.handler.projectId target.handler.region target.deploymentId
    target.environment

/-- The payload applies or destroys the deployment. -/
structure Target.Names (target : Target) (payload : ApiInfraPayload) : Prop where
  projectId : payload.projectId = target.handler.projectId
  region : payload.region = target.handler.region
  deploymentId : payload.deploymentId = target.deploymentId
  environment : payload.environment = target.environment
  command : payload.command = "apply" ∨ payload.command = "destroy"

inductive Route where
  | submitClaimJob
  | runClaimAuthorized

/-- A claim for the deployment, and the way in which it is submitted. -/
structure Submission (target : Target) where
  prepared : ApiInfraPayloadWithVariables
  names : target.Names prepared.payload
  route : Route

def Submission.program {target : Target} (submission : Submission target) : Remote Unit :=
  match submission.route with
  | .submitClaimJob => submitClaimJob submission.prepared >>= fun _ => .done ()
  | .runClaimAuthorized => runClaimAuthorized submission.prepared >>= fun _ => .done ()

/-! ## The system -/

/-- The program of a client that has read the record, and has not ended. -/
def Submits (p : Remote Unit) : Prop :=
  ¬ p.HasEnded ∧ ∀ deploymentId environment includeDeleted,
    ¬ Calls (.getDeployment deploymentId environment includeDeleted) p

/-- The table of the project and region, the clients, and the jobs that have been started. -/
structure System where
  table : Deployments
  clients : Nat → Remote Unit
  jobs : String → Option (Remote Unit)

namespace System

/-- The job has been started, and has not stored its last record. -/
def Running (s : System) (jobId : String) : Prop :=
  ∃ p, s.jobs jobId = some p ∧ ¬ p.HasEnded

/-- The job is changing the infrastructure. -/
def Mutating (s : System) (jobId : String) : Prop :=
  ∃ payload next, s.jobs jobId = some (.call (.terraform payload) next)

/-- The client has read the record, and is not done with its submission. -/
def Submitting (s : System) (i : Nat) : Prop :=
  Submits (s.clients i)

def start {target : Target} (t : Deployments) (submissions : Nat → Submission target) : System where
  table := t
  clients i := (submissions i).program
  jobs _ := none

end System

section

variable (target : Target) (parseDuration : String → Option Nat)

/-- What a service may answer.  Every request can fail; a job that is said not to run does not run,
and a job that is started is a new one. -/
def Possible (s : System) (self : Option String) : (op : Request) → op.Answer → Prop
  | .getDeployment deploymentId environment includeDeleted, answer =>
      answer = target.handler.getDeployment s.table deploymentId environment includeDeleted ∨
        ∃ e, answer = .error e
  | .getJobStatus jobId, answer =>
      ∀ status, answer = .ok (some status) → status.isRunning = false → ¬ s.Running jobId
  | .runFunction _, answer =>
      ∀ response, answer = .ok response →
        ∃ jobId, response.jobId = some jobId ∧ jobId ≠ "" ∧ s.jobs jobId = none
  | .sendDeployment record, answer =>
      ∀ epoch, answer = .ok epoch →
        (setDeployment s.table target.handler (record.deployment parseDuration epoch)
          record.isPlan).result = .ok ()
  | .getCurrentJobId, answer => ∀ jobId, answer = .ok jobId → self = some jobId
  | .terraform _, _ => True

/-- What a request does: a record is stored, a runner is started, or nothing. -/
def System.after (s : System) : (op : Request) → op.Answer → System
  | .sendDeployment record, .ok epoch =>
      { s with
        table := s.table.step
          ⟨target.handler, record.deployment parseDuration epoch, record.isPlan, 2⟩ }
  | .runFunction payload, .ok response =>
      match response.jobId with
      | some jobId =>
          { s with jobs := Function.update s.jobs jobId (some (runTerraformRunner payload)) }
      | none => s
  | _, _ => s

inductive Event where
  | client (i : Nat) (op : Request) (answer : op.Answer)
  | job (jobId : String) (op : Request) (answer : op.Answer)
  | stop (jobId : String)

inductive Step : System → Event → System → Prop
  | client {s : System} {i : Nat} {op : Request} {answer : op.Answer}
      {next : op.Answer → Remote Unit} (hcall : s.clients i = .call op next)
      (hpossible : Possible target parseDuration s none op answer) :
      Step s (.client i op answer)
        { s.after target parseDuration op answer with
          clients := Function.update s.clients i (next answer) }
  | job {s : System} {jobId : String} {op : Request} {answer : op.Answer}
      {next : op.Answer → Remote Unit} (hcall : s.jobs jobId = some (.call op next))
      (hpossible : Possible target parseDuration s (some jobId) op answer) :
      Step s (.job jobId op answer)
        { s.after target parseDuration op answer with
          jobs := Function.update (s.after target parseDuration op answer).jobs jobId
            (some (next answer)) }
  /-- A job can stop at any time. -/
  | stop {s : System} {jobId : String} {p : Remote Unit} (hjob : s.jobs jobId = some p) :
      Step s (.stop jobId) { s with jobs := Function.update s.jobs jobId (some (.done ())) }

/-- No client reads the record while another one is submitting, and while a job runs, no client
fails to read the record or to store that of its request. -/
def Sequential (s : System) : Event → Prop
  | .client i (.getDeployment _ _ _) answer =>
      (∀ other, other ≠ i → ¬ s.Submitting other) ∧
        ((∃ e, answer = .error e) → ∀ jobId, ¬ s.Running jobId)
  | .client _ (.sendDeployment _) answer => (∃ e, answer = .error e) → ∀ jobId, ¬ s.Running jobId
  | _ => True

end

/-! ## Where a client is -/

/-- The record says that the deployment is busy with the job. -/
structure StoresBusy (target : Target) (jobId : String) (record : DeploymentStatusHandler) :
    Prop where
  projectId : record.projectId = target.handler.projectId
  region : record.region = target.handler.region
  deploymentId : record.deploymentId = target.deploymentId
  environment : record.environment = target.environment
  isBusy : record.status.isBusy = true
  jobId : record.jobId = jobId
  kept : record.deleted = false
  noPlan : record.isPlan = false

/-- About to store the record of its request, which is the last thing that it does. -/
def AtStore (target : Target) (jobId : String) (p : Remote Unit) : Prop :=
  ∃ record next, p = .call (.sendDeployment record) next ∧ StoresBusy target jobId record ∧
    ∀ answer, (next answer).HasEnded

/-- About to start a runner. -/
def AtStart (target : Target) (p : Remote Unit) : Prop :=
  ∃ payload next, p = .call (.runFunction payload) next ∧ target.Names payload ∧
    (∀ e, (next (.error e)).HasEnded) ∧
    ∀ response jobId, response.jobId = some jobId → jobId ≠ "" →
      AtStore target jobId (next (.ok response))

/-- About to ask for the job of a record that is busy. -/
def AtStatus (target : Target) (jobId : String) (p : Remote Unit) : Prop :=
  ∃ next, p = .call (.getJobStatus jobId) next ∧
    ∀ answer, (next answer).HasEnded ∨ AtStart target (next answer) ∧
      ∃ status, answer = .ok (some status) ∧ status.isRunning = false

/-- About to read the record. -/
def AtRead (target : Target) (p : Remote Unit) : Prop :=
  ∃ next, p = .call (.getDeployment target.deploymentId target.environment false) next ∧
    ∀ answer, (next answer).HasEnded ∨
      (AtStart target (next answer) ∧ ∀ d, answer = .ok (some d) → d.status.isBusy = false) ∨
      ∃ d, answer = .ok (some d) ∧ AtStatus target d.jobId (next answer)

/-- A client that goes on only when the deployment is not in progress. -/
theorem atRead_isDeploymentInProgress {target : Target}
    {f : Bool × String × String × Option DeploymentResp → Remote Unit}
    (hbusy : ∀ rest, (f (true, rest)).HasEnded) (hfree : ∀ rest, AtStart target (f (false, rest))) :
    AtRead target
      (isDeploymentInProgress target.deploymentId target.environment true false >>= f) := by
  refine ⟨_, rfl, fun answer => ?_⟩
  match answer with
  | .error e => exact Or.inr (Or.inl ⟨hfree _, fun d heq => by cases heq⟩)
  | .ok none => exact Or.inr (Or.inl ⟨hfree _, fun d heq => by cases heq⟩)
  | .ok (some d) =>
      cases hstatus : d.status.isBusy with
      | false =>
          refine Or.inr (Or.inl ⟨?_, fun d' heq => ?_⟩)
          · simpa [hstatus, Program.bind] using hfree _
          · obtain rfl := Option.some.inj (Except.ok.inj heq)
            exact hstatus
      | true =>
          refine Or.inr (Or.inr ⟨d, rfl, ?_⟩)
          simp only [hstatus, if_true]
          refine ⟨_, rfl, fun answer => ?_⟩
          match answer with
          | .error e => exact Or.inl (hbusy _)
          | .ok none => exact Or.inl (hbusy _)
          | .ok (some status) =>
              cases hrunning : status.isRunning with
              | true => exact Or.inl (by simpa [hrunning, Program.bind] using hbusy _)
              | false =>
                  refine Or.inr ⟨?_, status, rfl, hrunning⟩
                  simpa [hrunning, Program.bind] using hfree _

theorem storesBusy_ofRequest {target : Target} {prepared : ApiInfraPayloadWithVariables}
    (h : target.Names prepared.payload) (jobId : String) :
    StoresBusy target jobId (.ofRequest prepared jobId) where
  projectId := h.projectId
  region := h.region
  deploymentId := h.deploymentId
  environment := h.environment
  isBusy := rfl
  jobId := rfl
  kept := rfl
  noPlan := by
    change decide (prepared.payload.command = "plan") = false
    rcases h.command with hcommand | hcommand <;> rw [hcommand] <;> decide

/-- A client that goes on to store the record of its request when a runner has been started. -/
theorem atStart_runFunction {target : Target} {prepared : ApiInfraPayloadWithVariables}
    (h : target.Names prepared.payload) {next : Except String RunnerResponse → Remote Unit}
    (herror : ∀ e, (next (.error e)).HasEnded)
    (hstore : ∀ response jobId, response.jobId = some jobId → jobId ≠ "" →
      ∃ f : Except String Unit → Remote Unit, (∀ inserted, (f inserted).HasEnded) ∧
        next (.ok response) = insertRequestEvent prepared jobId >>= f) :
    AtStart target (.call (.runFunction prepared.payload) next) := by
  refine ⟨_, _, rfl, h, herror, fun response jobId hjob hne => ?_⟩
  obtain ⟨f, hended, heq⟩ := hstore response jobId hjob hne
  rw [heq]
  exact ⟨_, _, rfl, storesBusy_ofRequest h jobId, fun answer => hended _⟩

theorem atRead_program {target : Target} (submission : Submission target) :
    AtRead target submission.program := by
  obtain ⟨prepared, hnames, route⟩ := submission
  cases route with
  | submitClaimJob =>
      change AtRead target (submitClaimJob prepared >>= fun _ => .done ())
      rw [submitClaimJob, Program.bind_assoc, hnames.deploymentId, hnames.environment]
      refine atRead_isDeploymentInProgress (fun rest => ?_) fun rest => ?_
      · exact hasEnded_done _
      · refine atStart_runFunction hnames (fun e => hasEnded_done _)
          fun response jobId hjob hne => ?_
        refine ⟨fun _ => .done (), fun inserted => hasEnded_done (), ?_⟩
        simp only [hjob]
        exact Program.bind_assoc _ _ _
  | runClaimAuthorized =>
      change AtRead target (runClaimAuthorized prepared >>= fun _ => .done ())
      rw [runClaimAuthorized, Program.bind_assoc, hnames.deploymentId, hnames.environment]
      refine atRead_isDeploymentInProgress (fun rest => ?_) fun rest => ?_
      · exact hasEnded_done _
      · refine atStart_runFunction hnames (fun e => hasEnded_done _)
          fun response jobId hjob hne => ?_
        have hresponse : responseJobId response = jobId := by
          simp [responseJobId, hjob, hne, Option.filter]
        refine ⟨fun _ => .done (), fun inserted => hasEnded_done (), ?_⟩
        simp only [hresponse, hne, if_false]
        exact Program.bind_assoc _ _ _

end EnvCommon
end InfraWeave
