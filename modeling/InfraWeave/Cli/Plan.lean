import InfraWeave.EnvCommon.ClaimJobs
import InfraWeave.InternalApi.DescribeDeployment
import InfraWeave.InternalApi.HttpMode
import InfraWeave.Lib.InsertionOrder

/-!
# Following jobs

The CLI follows the jobs that it has submitted.  It polls them in turn, in rounds, until no job is
in progress in a round.  A poll reads a record: of a plan by the id of its job, and else the one of
the deployment, whichever job has written it.
-/

namespace InfraWeave
namespace Cli

open EnvCommon InsertionOrder InternalApi

structure ClaimJobStruct where
  jobId : String
  deploymentId : String
  environment : String
  region : String
  deriving DecidableEq

def shortId (jobId : String) : String :=
  (Text.split '/' jobId).getLast?.getD jobId

/-! ## Progress of a job -/

/-- A record that is not found is that of a job that is still starting; one that cannot be read is
that of a job that is not in progress. -/
def isDeploymentPlanInProgress (jobId : String)
    (getPlanDeployment : String → Except String (Option DeploymentResp)) :
    Bool × String × Option DeploymentResp :=
  let jobIdShort := shortId jobId
  match getPlanDeployment jobIdShort with
  | .ok (some deployment) => (deployment.status.isBusy, deployment.jobId, some deployment)
  | .ok none => (true, jobIdShort, none)
  | .error _ => (false, "", none)

inductive TaskState where
  | stopped
  | running
  | unknown
  deriving DecidableEq

/-- How the status of a task is read by `http_is_deployment_plan_in_progress` and
`http_check_deployment_progress`. -/
def taskState : Except String Json → TaskState
  | .error _ => .unknown
  | .ok jobStatus =>
      let status := ((jobStatus.get? "status").bind Json.asStr).getD "UNKNOWN"
      if status = "STOPPED" ∨ status = "DEPROVISIONING" then .stopped
      else if status = "RUNNING" ∨ status = "PENDING" ∨ status = "PROVISIONING" ∨
          status = "ACTIVATING" then .running
      else .unknown

/-- The record is not asked for when the status of the task is not known. -/
def httpProgress (jobId : String) (jobStatus : Except String Json)
    (record : Option DeploymentResp) : Bool × String × Option DeploymentResp :=
  let jobIdShort := shortId jobId
  match taskState jobStatus with
  | .stopped =>
      match record with
      | some d => (d.status.isBusy, jobIdShort, some d)
      | none => (false, jobIdShort, none)
  | .running => (true, jobIdShort, record)
  | .unknown => (true, jobIdShort, none)

/-- What the API answers, if it is a record. -/
def readAnswer (described : Except String DescribedDeployment) : Option DeploymentResp :=
  (described >>= parseDeployment).toOption

def httpIsDeploymentPlanInProgress (jobId : String) (jobStatus : Except String Json)
    (plan : Except String DescribedDeployment) : Bool × String × Option DeploymentResp :=
  httpProgress jobId jobStatus (readAnswer plan)

/-- Also a deployment that is not found is no record. -/
def httpCheckDeploymentProgress (jobId : String) (jobStatus : Except String Json)
    (deployment : Except String DescribedDeployment) : Bool × String × Option DeploymentResp :=
  httpProgress jobId jobStatus (readAnswer deployment)

/-- Where the records are read.  In HTTP mode the project may not be set. -/
inductive Mode where
  | direct (projectId : String)
  | http (projectId : Option String)

/-- What the requests of one poll are answered. -/
structure Reads where
  getDeployment : WorkloadHandler → String → String → Bool → Except String (Option DeploymentResp)
  getPlanDeployment :
    WorkloadHandler → String → String → String → Except String (Option DeploymentResp)
  jobStatus : Except String Json
  described : Except String DescribedDeployment

theorem isFinal_failed : DeploymentStatus.failed.isFinal = true := rfl

/-- The only request of `is_deployment_in_progress`, without a check of the job. -/
def Reads.answer (reads : Reads) (handler : WorkloadHandler) : (request : Request) → request.Answer
  | .getDeployment deploymentId environment includeDeleted =>
      reads.getDeployment handler deploymentId environment includeDeleted
  | .getJobStatus _ => .ok none
  | .runFunction _ => .error ""
  | .sendDeployment _ => .error ""
  | .getCurrentJobId => .error ""
  | .terraform _ => ⟨.failed, isFinal_failed, "", .null, [], false, none⟩

def fetchProgress (isPlan : Bool) (mode : Mode) (cj : ClaimJobStruct) (reads : Reads) :
    Except String (Bool × Option DeploymentResp) :=
  match mode with
  | .direct projectId =>
      let handler : WorkloadHandler := ⟨projectId, cj.region⟩
      if isPlan then
        let (inProgress, _, deployment) := isDeploymentPlanInProgress cj.jobId
          (reads.getPlanDeployment handler cj.deploymentId cj.environment)
        .ok (inProgress, deployment)
      else
        let ((inProgress, _, _, deployment), _) :=
          (isDeploymentInProgress cj.deploymentId cj.environment false false).eval
            (reads.answer handler)
        .ok (inProgress, deployment)
  | .http none => .error "PROJECT_ID is not set - pass --project in HTTP mode"
  | .http (some _) =>
      let (inProgress, _, deployment) :=
        if isPlan then httpIsDeploymentPlanInProgress cj.jobId reads.jobStatus reads.described
        else httpCheckDeploymentProgress cj.jobId reads.jobStatus reads.described
      .ok (inProgress, deployment)

/-! ## Reports -/

inductive Style where
  | cyan
  | green
  | red
  | bold
  deriving DecidableEq

structure Span where
  text : String
  styles : List Style
  deriving DecidableEq

abbrev Line :=
  List Span

def plain (text : String) : Span :=
  ⟨text, []⟩

/-- What has been reported, and what has been printed. -/
structure Console where
  lastStatus : List (String × DeploymentStatus)
  failureErrors : List String
  lines : List Line
  deriving DecidableEq

namespace Console

def empty : Console :=
  ⟨[], [], []⟩

def print (console : Console) (line : Line) : Console :=
  { console with lines := console.lines ++ [line] }

def setStatus (console : Console) (jobId : String) (status : DeploymentStatus) : Console :=
  { console with lastStatus := upsert jobId status (fun _ => status) console.lastStatus }

end Console

/-- The status of the record, or one that stands for none. -/
def observedStatus (inProgress : Bool) : Option DeploymentResp → DeploymentStatus
  | some d => d.status
  | none => if inProgress then .initiated else .failed

def runningLine (short : String) : Line :=
  [plain "Job ", ⟨short, [.cyan]⟩, plain " is ", ⟨"running", [.cyan, .bold]⟩, plain "..."]

def successLine (short : String) : Line :=
  [plain "Job ", ⟨short, [.green]⟩, plain " ", ⟨"completed successfully", [.green, .bold]⟩]

def failureLine (short : String) : Line :=
  [plain "Job ", ⟨short, [.red]⟩, plain " ", ⟨"failed", [.red, .bold]⟩]

def errorSpans (errorText : String) : Line :=
  [plain "\n   ", ⟨"Error", [.red, .bold]⟩, plain ": ", ⟨errorText, [.red]⟩]

/-- Whether a job with a final status has failed, its message, and the errors by then. -/
def finalReport (short : String) (deployment : Option DeploymentResp)
    (failureErrors : List String) : Bool × Line × List String :=
  match deployment with
  | some dep =>
      if dep.status = .successful then (false, successLine short, failureErrors)
      else if dep.errorText.isEmpty then (true, failureLine short, failureErrors)
      else
        (true, failureLine short ++ errorSpans dep.errorText,
          if dep.errorText ∈ failureErrors then failureErrors
          else failureErrors ++ [dep.errorText])
  | none => (true, failureLine short, failureErrors)

/-- A message is printed when the status of the job changes from running to final. -/
def reportJob (inProgress : Bool) (jobId : String) (deployment : Option DeploymentResp)
    (quiet : Bool) (console : Console) : Bool × Console :=
  let short := shortId jobId
  let observed := observedStatus inProgress deployment
  if !observed.isFinal then
    if (console.lastStatus.lookup jobId).isSome then (false, console)
    else
      let console := if quiet then console else console.print (runningLine short)
      (false, console.setStatus jobId observed)
  else
    let (failed, message, failureErrors) := finalReport short deployment console.failureErrors
    let console := { console with failureErrors }
    if (console.lastStatus.lookup jobId).any DeploymentStatus.isFinal then (failed, console)
    else
      let console := if failed || !quiet then console.print message else console
      (failed, console.setStatus jobId observed)

/-! ## The loop -/

/-- The arguments of `poll_until_done`. -/
structure Session where
  jobs : List ClaimJobStruct
  operation : String
  mode : Mode
  quiet : Bool

/-- The jobs that are still to be polled in this round. -/
structure Round where
  pending : List ClaimJobStruct
  allFinished : Bool
  anyFailed : Bool

inductive Following where
  | polling (statuses : List (String × DeploymentResp)) (console : Console) (round : Round)
  | returned (result : Except String (List (String × DeploymentResp))) (console : Console)

namespace Session

variable (session : Session)

def isPlan : Bool :=
  session.operation = "plan"

def newRound : Round :=
  ⟨session.jobs, true, false⟩

def failureLines (failureErrors : List String) : List Line :=
  let reasons := failureErrors.zipIdx.map fun (error, i) =>
    [plain ("  " ++ toString (i + 1) ++ ". "), ⟨error, [.red]⟩]
  [plain "\n", ⟨"Some " ++ session.operation ++ " jobs failed!", [.red, .bold]⟩] ::
    if failureErrors.isEmpty then []
    else [plain "\n", ⟨"Failure reasons:", [.red, .bold]⟩] :: reasons

def successLines : List Line :=
  if session.quiet then []
  else [[plain "\n", ⟨"All " ++ session.operation ++ " jobs completed successfully!",
    [.green, .bold]⟩]]

/-- After a round in which a job was in progress the next round begins. -/
def endRound (statuses : List (String × DeploymentResp)) (console : Console) (round : Round) :
    Following :=
  if round.allFinished then
    if round.anyFailed then
      .returned (.error "One or more jobs failed")
        ((session.failureLines console.failureErrors).foldl Console.print console)
    else .returned (.ok statuses) (session.successLines.foldl Console.print console)
  else .polling statuses console session.newRound

def proceed (statuses : List (String × DeploymentResp)) (console : Console) (round : Round) :
    Following :=
  if round.pending.isEmpty then session.endRound statuses console round
  else .polling statuses console round

def pollUntilDone : Following :=
  session.proceed [] .empty session.newRound

/-- The body of the loop over the jobs of a round. -/
def pollJob (statuses : List (String × DeploymentResp)) (console : Console) (round : Round)
    (cj : ClaimJobStruct) (rest : List ClaimJobStruct)
    (fetched : Except String (Bool × Option DeploymentResp)) : Following :=
  match fetched with
  | .error e => .returned (.error e) console
  | .ok (inProgress, deployment) =>
      let (failed, console) := reportJob inProgress cj.jobId deployment session.quiet console
      let statuses := match deployment with
        | some dep => upsert cj.jobId dep (fun _ => dep) statuses
        | none => statuses
      session.proceed statuses console
        { pending := rest
          allFinished := round.allFinished && !inProgress
          anyFailed := round.anyFailed || failed }

end Session

/-! ## What a poll finds -/

/-- A record that is found tells whether the job is in progress, and one that cannot be read that it
is not. -/
def foundProgress (missing : Bool) :
    Except String (Option DeploymentResp) → Bool × Option DeploymentResp
  | .ok (some d) => (d.status.isBusy, some d)
  | .ok none => (missing, none)
  | .error _ => (false, none)

theorem fetchProgress_plan (projectId : String) (cj : ClaimJobStruct) (reads : Reads) :
    fetchProgress true (.direct projectId) cj reads =
      .ok (foundProgress true (reads.getPlanDeployment ⟨projectId, cj.region⟩ cj.deploymentId
        cj.environment (shortId cj.jobId))) := by
  simp only [fetchProgress, if_true, isDeploymentPlanInProgress]
  generalize reads.getPlanDeployment _ _ _ _ = found
  rcases found with e | found
  · rfl
  · cases found with
    | none => rfl
    | some d => rfl

theorem fetchProgress_direct (projectId : String) (cj : ClaimJobStruct) (reads : Reads) :
    fetchProgress false (.direct projectId) cj reads =
      .ok (foundProgress false (reads.getDeployment ⟨projectId, cj.region⟩ cj.deploymentId
        cj.environment false)) := by
  simp only [fetchProgress, Bool.false_eq_true, if_false, isDeploymentInProgress,
    Program.eval_call, Reads.answer]
  generalize reads.getDeployment _ _ _ _ = found
  rcases found with e | found
  · rfl
  · cases found with
    | none => rfl
    | some d =>
        cases hbusy : d.status.isBusy with
        | true => simp [foundProgress, hbusy]
        | false => simp [foundProgress, hbusy]

/-- Plans and other jobs differ in the row that the server reads. -/
theorem fetchProgress_http (isPlan : Bool) (projectId : String) (cj : ClaimJobStruct)
    (reads : Reads) : fetchProgress isPlan (.http (some projectId)) cj reads =
      .ok ((httpProgress cj.jobId reads.jobStatus (readAnswer reads.described)).1,
        (httpProgress cj.jobId reads.jobStatus (readAnswer reads.described)).2.2) := by
  cases isPlan with
  | true => rfl
  | false => rfl

/-! ## What a report says -/

theorem reportJob_eq_true_iff {inProgress : Bool} {jobId : String}
    {deployment : Option DeploymentResp} {quiet : Bool} {console : Console} :
    (reportJob inProgress jobId deployment quiet console).1 = true ↔
      (observedStatus inProgress deployment).isFinal = true ∧
        ∀ d, deployment = some d → d.status ≠ .successful := by
  cases hfinal : (observedStatus inProgress deployment).isFinal with
  | false =>
      have hreport : (reportJob inProgress jobId deployment quiet console).1 = false := by
        simp only [reportJob, hfinal, Bool.not_false, if_true]
        split
        · rfl
        · rfl
      simp [hreport]
  | true =>
      have hreport : (reportJob inProgress jobId deployment quiet console).1 =
          (finalReport (shortId jobId) deployment console.failureErrors).1 := by
        simp only [reportJob, hfinal, Bool.not_true, Bool.false_eq_true, if_false]
        split
        · rfl
        · rfl
      rw [hreport]
      unfold finalReport
      cases deployment with
      | none => simp
      | some d =>
          by_cases hstatus : d.status = .successful
          · simp [hstatus]
          · by_cases herror : d.errorText.isEmpty = true
            · simp [hstatus, herror]
            · simp [hstatus, herror]

theorem shortId_notMem (jobId : String) : '/' ∉ (shortId jobId).toList := by
  unfold shortId
  cases hlast : (Text.split '/' jobId).getLast? with
  | none =>
      have hnil := List.getLast?_eq_none_iff.1 hlast
      simp [Text.split, List.splitOn_ne_nil] at hnil
  | some piece => exact Text.notMem_of_mem_split (List.mem_of_getLast? hlast)

/-- The short id of a job is short. -/
theorem shortId_shortId (jobId : String) : shortId (shortId jobId) = shortId jobId := by
  have hsplit := Text.split_eq_singleton (shortId_notMem jobId)
  calc shortId (shortId jobId)
      = ([shortId jobId].getLast?).getD (shortId jobId) := by rw [← hsplit]; rfl
    _ = shortId jobId := rfl

end Cli
end InfraWeave
