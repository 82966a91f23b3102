import InfraWeave.TerraformRunner.Runner

/-!
# The progress of a job

What a runner has learnt and done so far, as its operations and their answers tell it, and what it
may ask for at every point.  This is the one place that says what a step of a runner can do: the
results about jobs are derived from it.
-/

namespace InfraWeave
namespace TerraformRunner

open EnvCommon (DeploymentStatusHandler initiateDeploymentStatusHandler)

structure Progress where
  /-- The job for which the record of a plan is looked up. -/
  planJob : Option String
  /-- The record from which the variables are taken. -/
  source : Option DeploymentResp
  /-- Something that is needed before the job is known has failed. -/
  halted : Bool
  /-- The record of the deployment when the job begins. -/
  initial : Option (Option DeploymentResp)
  /-- The job, once the handler is told. -/
  identified : Option String
  /-- It is stored that the job has started. -/
  started : Bool
  /-- Deployments that were found to be successful since the start. -/
  ready : List (String × String)
  /-- No deployment was found to depend on this one since the start. -/
  unused : Bool
  /-- What the plan file was printed as, since the plan was made. -/
  printed : Option String
  /-- The plan that is stored for the policies. -/
  shown : Option String
  policies : Option (List PolicyResp)
  /-- The policy that is being evaluated. -/
  policy : Option PolicyResp
  /-- The policies that deny nothing in the plan. -/
  passed : List PolicyResp
  /-- Whether the change has succeeded, once it was made. -/
  change : Option Bool
  resources : Option (List String)
  output : Json
  /-- Resources or outputs were captured since a record was stored. -/
  unsaved : Bool
  /-- The status that is stored last. -/
  last : Option DeploymentStatus
  /-- A record could not be stored. -/
  sendFailed : Bool

namespace Progress

def start : Progress where
  planJob := none
  source := none
  halted := false
  initial := none
  identified := none
  started := false
  ready := []
  unused := false
  printed := none
  shown := none
  policies := none
  policy := none
  passed := []
  change := none
  resources := none
  output := .null
  unsaved := false
  last := none
  sendFailed := false

/-- The status was stored. -/
def sent (p : Progress) (status : DeploymentStatus) : Progress :=
  { p with
    last := some status, started := p.started || status = .initiated, unsaved := false }

/-- A record of a deployment that was read: the source of the variables, the record at the
beginning, or a dependency. -/
def read (p : Progress) (deploymentId environment : String) (found : Option DeploymentResp) :
    Progress :=
  if p.source.isNone then { p with source := found }
  else if p.initial.isNone then
    { p with initial := some found, output := (found.map DeploymentResp.output).getD p.output }
  else if p.started ∧ found.map DeploymentResp.status = some .successful then
    { p with ready := (deploymentId, environment) :: p.ready }
  else p

/-- A failure that keeps the handler from being told its job. -/
def failed (p : Progress) : Progress :=
  if p.identified.isNone then { p with halted := true } else p

/-- A command is told by its first argument. -/
def ran (parseJson : String → Except String Json) (p : Progress) (command : TerraformCommand)
    (reply : Reply String) : Progress :=
  if command.args.head? = some "apply" ∨ command.args.head? = some "destroy" then
    match reply with
    | .value _ => { p with change := some true }
    | _ => { p with change := some false }
  else if command.args.head? = some "state" then
    match reply with
    | .value stdout => { p with resources := some (resourcesOf stdout), unsaved := true }
    | _ => p
  else if command.args.head? = some "output" then
    match reply with
    | .value stdout =>
        match parseJson stdout with
        | .ok json => { p with output := sanitizeTerraformOutput json, unsaved := true }
        | .error _ => p
    | _ => p
  else if command.args.head? = some "plan" then { p with printed := none, shown := none }
  else if command.args.head? = some "show" ∧ "planfile" ∈ command.args then
    match reply with
    | .value stdout => { p with printed := some stdout }
    | _ => p
  else p

def evaluated (parseJson : String → Except String Json) (p : Progress) (stdout : String) :
    Progress :=
  match parseJson stdout with
  | .ok json =>
      if json.asObject.bind violationsOf = some [] then
        { p with passed := p.passed ++ p.policy.toList }
      else p
  | .error _ => p

def after (parseJson : String → Except String Json) (p : Progress) :
    (op : Operation) → op.Answer → Progress
  | .getCurrentJobId, .value jobId =>
      if p.initial.isSome then { p with identified := some jobId }
      else { p with planJob := some jobId }
  | .getCurrentJobId, _ => p.failed
  | .getPlanDeployment _ _ _, .value found => { p with source := found }
  | .getPlanDeployment _ _ _, _ => p.failed
  | .getDeployment deploymentId environment _, .value found =>
      p.read deploymentId environment found
  | .getDeployment _ _ _, _ => p.failed
  | .getDeploymentAndDependents _ _ _, .value (_, []) => { p with unused := p.started }
  | .storeTfVarsJson _, .value () => p
  | .storeTfVarsJson _, _ => p.failed
  | .storeBackendFile, .value () => p
  | .storeBackendFile, _ => p.failed
  | .setDeployment deployment _, .value () => p.sent deployment.status
  | .setDeployment _ _, _ => { p with sendFailed := true }
  | .writeFile name content, .value () =>
      if name = "tf_plan.json" then { p with shown := some content, policies := none, passed := [] }
      else p
  | .getAllPolicies _, .value policies => { p with policies := some policies, passed := [] }
  | .downloadPolicy policy, .value () => { p with policy := some policy }
  | .terraform command, reply => p.ran parseJson command reply
  | .opa _ _, .value stdout => p.evaluated parseJson stdout
  | _, _ => p

theorem after_writeFile (parseJson : String → Except String Json) (p : Progress)
    (name content : String) :
    p.after parseJson (.writeFile name content) (.value ()) =
      if name = "tf_plan.json" then { p with shown := some content, policies := none, passed := [] }
      else p := rfl

/-- The plan is printed and stored for the policies; the state is of no interest to them. -/
def shownAs (p : Progress) (content : String) (usePlanfile : Bool) : Progress :=
  if usePlanfile then
    { p with printed := some content, shown := some content, policies := none, passed := [] }
  else p

end Progress

/-! ## What a runner may ask for -/

def TerraformCommand.IsChange (command : TerraformCommand) : Prop :=
  command.args.head? = some "apply" ∨ command.args.head? = some "destroy"

/-- The fields of a handler that a runner never changes. -/
structure Unchanged (h h' : DeploymentStatusHandler) : Prop where
  command : h.command = h'.command
  module : h.module = h'.module
  moduleVersion : h.moduleVersion = h'.moduleVersion
  moduleType : h.moduleType = h'.moduleType
  moduleTrack : h.moduleTrack = h'.moduleTrack
  environment : h.environment = h'.environment
  deploymentId : h.deploymentId = h'.deploymentId
  projectId : h.projectId = h'.projectId
  region : h.region = h'.region
  driftDetection : h.driftDetection = h'.driftDetection
  dependencies : h.dependencies = h'.dependencies
  initiatedBy : h.initiatedBy = h'.initiatedBy
  cpu : h.cpu = h'.cpu
  memory : h.memory = h'.memory
  reference : h.reference = h'.reference

variable (rt : Runtime)

def IsDriftCheck : Prop :=
  rt.payload.command = "plan" ∧ refreshOnly rt = true

/-- Nothing is left of a deployment: its destroy has succeeded, or has left nothing in the state. -/
def Progress.Gone (p : Progress) : Prop :=
  rt.payload.command = "destroy" ∧
    (p.change = some true ∨ p.change = some false ∧ p.resources = some [])

/-- The handler holds what the runner has learnt. -/
structure Holds (p : Progress) (h : DeploymentStatusHandler) : Prop where
  unchanged : Unchanged h (initiateDeploymentStatusHandler rt.payload)
  jobId : h.jobId = p.identified.getD "unknown_jobid"
  vars : h.vars = (p.source.map DeploymentResp.vars).getD .null
  output : h.output = p.output
  tfResources : h.tfResources = p.resources
  hasDrifted : h.hasDrifted = true → IsDriftCheck rt ∧ p.identified.isSome = true
  isDriftCheck : h.isDriftCheck = true → IsDriftCheck rt ∧ p.identified.isSome = true
  deleted : h.deleted = true → p.Gone rt
  source : p.identified.isSome = true → p.source.isSome = true

/-- A handler that is sent without its job has not found it. -/
structure Fits (p : Progress) (h : DeploymentStatusHandler) : Prop extends Holds rt p h where
  known : p.identified.isSome = true ∨ p.halted = true ∨ p.source = none

/-- The relatives of the deployment are in order, as its command requires. -/
def Progress.Checked (p : Progress) : Prop :=
  (rt.payload.command = "apply" → ∀ dependency ∈ rt.payload.dependencies,
      (dependency.deploymentId, dependency.environment) ∈ p.ready) ∧
    (rt.payload.command = "destroy" → p.unused = true)

/-- Every policy passes the plan that is stored. -/
def Progress.Cleared (p : Progress) : Prop :=
  p.shown.isSome = true ∧ p.policies = some p.passed

/-- The only status that is not final tells that the job has started; a job that is said to be
successful has made its change, if it has one to make. -/
structure MayReport (p : Progress) (status : DeploymentStatus) : Prop where
  isFinal : status.isFinal = true ∨
    status = .initiated ∧ p.started = false ∧ p.last = none ∧ p.sendFailed = false ∧
      ∃ source, p.source = some source ∧ p.identified = some source.jobId
  ofSuccessful : status = .successful → p.started = true ∧ p.Checked rt ∧
    (rt.payload.command = "apply" → p.change = some true) ∧
    (rt.payload.command = "destroy" → p.Gone rt)

/-- A change is made once, of a job that is stored as started and was checked. -/
structure MayChange (p : Progress) (command : TerraformCommand) : Prop where
  command : command = applyDestroyCommand rt
  isChange : rt.payload.command = "apply" ∨ rt.payload.command = "destroy"
  started : p.started = true
  checked : p.Checked rt
  cleared : p.Cleared
  unchanged : p.change = none
  stored : p.sendFailed = false

/-- Only a change that was made is looked at. -/
structure MayRun (p : Progress) (command : TerraformCommand) : Prop where
  change : command.IsChange → MayChange rt p command
  plan : command.args.head? = some "plan" → command = planCommand rt
  list : command.args.head? = some "state" → p.change.isSome = true
  output : command.args.head? = some "output" → p.change = some true

def Allowed (p : Progress) : Operation → Prop
  | .setDeployment deployment isPlan => ∃ h epoch, Fits rt p h ∧ MayReport rt p h.status ∧
      deployment = h.deployment rt.parseDuration epoch ∧
      (isPlan = h.isPlan ∨
        isPlan = false ∧ h.isDriftCheck = true ∧ h.status.isFinal = true ∧ p.last = some h.status)
  | .terraform command => MayRun rt p command
  | .writeFile name content => name = "tf_plan.json" → p.printed = some content
  | .getCurrentJobId => p.halted = false
  | .getPlanDeployment deploymentId environment jobId =>
      p.last = none ∧ p.source = none ∧ p.planJob = some jobId ∧ rt.payload.command = "plan" ∧
        deploymentId = rt.payload.deploymentId ∧ environment = rt.payload.environment
  | .getDeployment deploymentId environment includeDeleted =>
      includeDeleted = false ∧ (p.initial.isSome = true ∨
        deploymentId = rt.payload.deploymentId ∧ environment = rt.payload.environment ∧
          p.last = none ∧ (p.source.isSome = true ∨ rt.payload.command ≠ "plan"))
  | _ => True

def jobEnvironment : Environment Operation Operation.Answer Progress where
  step p op answer p' := p' = p.after rt.parseJson op answer
  safe := Allowed rt

end TerraformRunner
end InfraWeave
