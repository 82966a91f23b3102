import InfraWeave.Defs.Infra
import InfraWeave.Defs.JsonText
import InfraWeave.EnvCommon.Catalogue
import InfraWeave.EnvCommon.DeploymentIdentity
import InfraWeave.Lib.ByteSlice
import Mathlib.Data.List.TakeDrop

/-!
# Launching a runner

`start_runner_cross_account` reads the payload of a request, asks AWS for the configuration of the
workload account, and runs a task whose container has the payload in its environment.  What can
end it besides the answers of AWS are the payload, the slice of it that is logged, and the two
numbers in it.
-/

namespace InfraWeave
namespace EnvAwsDirect

/-! ## Answers -/

structure ContainerOverride where
  name : String
  environment : List (String × String)
  cpu : Int
  memory : Int

structure TaskOverride where
  container : ContainerOverride
  cpu : String
  memory : String

structure RunTask where
  cluster : String
  taskDefinition : String
  subnets : List String
  securityGroups : List String
  overrides : TaskOverride

/-- What the call is answered from outside: the environment of the process, and AWS under the role
that is assumed. -/
structure Surroundings where
  environment : Except String String
  assumeRole : (projectId role session region : String) → Except String Unit
  readSsmParameter : String → Except String String
  /-- The ARNs of the tasks that were started. -/
  runTask : RunTask → Except String (List (Option String))

/-- The process that makes the call. -/
structure Host where
  /-- Whether messages of the level `info` are logged. -/
  infoEnabled : Bool
  /-- The trace context of the caller, where it is passed on. -/
  traceparent : Option String
  /-- The text of a double. -/
  floatText : Rat → String

inductive LaunchFailure where
  | surroundings (message : String)
  | payload (message : String)
  | parseInt (text : String)
  /-- A slice that is not at the boundary of a character. -/
  | panicked
  deriving DecidableEq

def LaunchFailure.isSurroundings : LaunchFailure → Bool
  | surroundings _ => true
  | _ => false

/-! ## The call -/

def ofSurroundings {α : Type} (what : String) (answer : Except String α) :
    Except LaunchFailure α :=
  answer.mapError fun e => .surroundings (what ++ e)

def payloadText (data : Json) (key : String) : Except LaunchFailure String :=
  match (data.get? key).bind Json.asStr with
  | some text => .ok text
  | none => .error (.payload ("Missing '" ++ key ++ "' in payload"))

def parseInt (text : String) : Except LaunchFailure Int :=
  match Text.parseI32 text with
  | some n => .ok n
  | none => .error (.parseInt text)

/-- What is logged of the payload, a slice of at most 200 bytes. -/
def loggedPayload (payloadJson : String) : Except LaunchFailure String :=
  if 200 < ByteSlice.byteLength payloadJson.toList then
    match ByteSlice.sliceTo payloadJson.toList 200 with
    | some front => .ok (.ofList front)
    | none => .error .panicked
  else .ok payloadJson

/-- A message is built only where its level is logged. -/
def logPayload (host : Host) (payloadJson : String) : Except LaunchFailure Unit :=
  if host.infoEnabled then (loggedPayload payloadJson).map fun _ => () else .ok ()

def splitTrimmed (s : String) : List String :=
  (Text.split ',' s).map Text.trim

def runnerEnvironment (host : Host) (data : Json) (payloadJson : String) : List (String × String) :=
  let fields := ((data.get? "environment").bind Json.asObject).getD []
  ("PAYLOAD", payloadJson) :: fields.map (fun (key, value) => (key, value.asStr.getD "")) ++
    (host.traceparent.map fun traceparent => ("TRACE_ID", traceparent)).toList

def startRunnerCrossAccount (host : Host) (w : Surroundings) (data : Json) :
    Except LaunchFailure Json := do
  let projectId ← payloadText data "project_id"
  let environment ← ofSurroundings "" w.environment
  let region ← payloadText data "region"
  let cpu := ((data.get? "cpu").bind Json.asStr).getD "256"
  let memory := ((data.get? "memory").bind Json.asStr).getD "512"
  ofSurroundings "" (w.assumeRole projectId "infraweave_api_execute_runner"
    "CentralApiLaunchRunnerSession" region)
  let param := fun name => "/infraweave/" ++ region ++ "/" ++ environment ++ "/" ++ name
  let cluster ← ofSurroundings "Failed to get cluster name: "
    (w.readSsmParameter (param "workload_ecs_cluster_name"))
  let subnets ← ofSurroundings "Failed to get subnets: "
    (w.readSsmParameter (param "workload_ecs_subnet_id"))
  let securityGroups ← ofSurroundings "Failed to get security groups: "
    (w.readSsmParameter (param "workload_ecs_security_group"))
  let payloadJson := data.toText host.floatText
  logPayload host payloadJson
  let containerCpu ← parseInt cpu
  let containerMemory ← parseInt memory
  let arns ← ofSurroundings "Failed to run ECS task: " (w.runTask
    { cluster
      taskDefinition := "infraweave-runner-" ++ environment
      subnets := splitTrimmed subnets
      securityGroups := splitTrimmed securityGroups
      overrides :=
        { container :=
            { name := "runner"
              environment := runnerEnvironment host data payloadJson
              cpu := containerCpu
              memory := containerMemory }
          cpu
          memory } })
  match arns.head?.join with
  | some taskArn =>
      .ok (.ofFields [("task_arn", .string taskArn),
        ("job_id", .string ((Text.split '/' taskArn).getLast?.getD taskArn))])
  | none => .error (.surroundings "No task ARN returned")

/-- Whatever the call is answered, it ends with a task or with the failure of an answer. -/
def Launchable (host : Host) (data : Json) : Prop :=
  ∀ w, FailsOnly (·.isSurroundings = true) (startRunnerCrossAccount host w data)

/-! ## What the payload decides -/

/-- The first 200 bytes are a text, or there are no more. -/
def LogsWhole (payloadJson : List Char) : Prop :=
  200 < ByteSlice.byteLength payloadJson → ByteSlice.Boundary payloadJson 200

instance (payloadJson : List Char) : Decidable (LogsWhole payloadJson) :=
  decidable_of_iff (200 < ByteSlice.byteLength payloadJson →
    (ByteSlice.sliceTo payloadJson 200).isSome = true)
    (imp_congr_right fun _ => ByteSlice.sliceTo_isSome_iff)

/-! ## The steps -/

theorem failsOnly_ofSurroundings {α : Type} (what : String) (answer : Except String α) :
    FailsOnly (·.isSurroundings = true) (ofSurroundings what answer) := by
  cases answer with
  | ok a => exact failsOnly_ok _ a
  | error e => exact failsOnly_error.2 rfl

theorem parseInt_isSome {text : String} (h : FailsOnly (·.isSurroundings = true) (parseInt text)) :
    (Text.parseI32 text).isSome = true := by
  unfold parseInt at h
  cases hparsed : Text.parseI32 text with
  | some n => rfl
  | none => simp [hparsed, LaunchFailure.isSurroundings] at h

theorem exists_parseInt {text : String} (h : (Text.parseI32 text).isSome = true) :
    ∃ n, parseInt text = .ok n := by
  rcases Option.isSome_iff_exists.1 h with ⟨n, hn⟩
  exact ⟨n, by simp [parseInt, hn]⟩

theorem logsWhole_of_logPayload {host : Host} {payloadJson : String}
    (h : FailsOnly (·.isSurroundings = true) (logPayload host payloadJson))
    (hinfo : host.infoEnabled = true) : LogsWhole payloadJson.toList := by
  intro hlong
  refine ByteSlice.sliceTo_isSome_iff.1 ?_
  cases hslice : ByteSlice.sliceTo payloadJson.toList 200 with
  | some front => rfl
  | none =>
      simp [logPayload, hinfo, loggedPayload, hlong, hslice, Except.map,
        LaunchFailure.isSurroundings] at h

theorem logPayload_failure {host : Host} {payloadJson : String} {failure : LaunchFailure}
    (h : logPayload host payloadJson = .error failure) : failure = .panicked := by
  unfold logPayload loggedPayload at h
  split at h
  · split at h
    · split at h
      · cases h
      · exact (Except.error.inj h).symm
    · cases h
  · cases h

theorem parseInt_failure {text : String} {failure : LaunchFailure}
    (h : parseInt text = .error failure) : failure = .parseInt text := by
  unfold parseInt at h
  split at h
  · cases h
  · exact (Except.error.inj h).symm

theorem logPayload_eq_ok {host : Host} {payloadJson : String}
    (h : host.infoEnabled = true → LogsWhole payloadJson.toList) :
    logPayload host payloadJson = .ok () := by
  unfold logPayload loggedPayload
  by_cases hinfo : host.infoEnabled = true
  · by_cases hlong : 200 < ByteSlice.byteLength payloadJson.toList
    · have hsome := ByteSlice.sliceTo_isSome_iff.2 (h hinfo hlong)
      rcases Option.isSome_iff_exists.1 hsome with ⟨front, hfront⟩
      simp [hinfo, hlong, hfront, Except.map]
    · simp [hinfo, hlong, Except.map]
  · simp [hinfo]

/-- Everything is answered. -/
def answering : Surroundings where
  environment := .ok ""
  assumeRole _ _ _ _ := .ok ()
  readSsmParameter _ := .ok ""
  runTask _ := .ok [some ""]

/-- The steps on a payload that has its texts. -/
theorem launchable_iff_of_texts {host : Host} {data : Json} {projectId region cpu memory : String}
    (hproject : data.get? "project_id" = some (.string projectId))
    (hregion : data.get? "region" = some (.string region))
    (hcpu : data.get? "cpu" = some (.string cpu))
    (hmemory : data.get? "memory" = some (.string memory)) :
    Launchable host data ↔
      (host.infoEnabled = true → LogsWhole (data.text host.floatText)) ∧
        (Text.parseI32 cpu).isSome = true ∧ (Text.parseI32 memory).isSome = true := by
  have htext : ∀ {key text : String}, data.get? key = some (.string text) →
      payloadText data key = .ok text := by
    intro key text h
    simp [payloadText, h, Json.asStr]
  have htoList : (data.toText host.floatText).toList = data.text host.floatText :=
    String.toList_ofList
  rw [← htoList]
  constructor
  · intro h
    have hanswered := h answering
    simp only [startRunnerCrossAccount, htext hproject, htext hregion, ok_bind, hcpu, hmemory,
      answering, ofSurroundings, Except.mapError, Option.bind_some, Json.asStr,
      Option.getD_some] at hanswered
    rcases failsOnly_bind_iff.1 hanswered with ⟨hlog, hrest⟩
    rcases hlog.exists_ok (fun e he => by simp [logPayload_failure he, LaunchFailure.isSurroundings])
      with ⟨_, hlogged⟩
    rcases failsOnly_bind_iff.1 (hrest _ hlogged) with ⟨hcpuParsed, hrest⟩
    rcases exists_parseInt (parseInt_isSome hcpuParsed) with ⟨_, hn⟩
    have hmemoryParsed := (failsOnly_bind_iff.1 (hrest _ hn)).1
    exact ⟨logsWhole_of_logPayload hlog, parseInt_isSome hcpuParsed,
      parseInt_isSome hmemoryParsed⟩
  · rintro ⟨hlogs, hcpuSome, hmemorySome⟩ w
    rcases exists_parseInt hcpuSome with ⟨containerCpu, hcontainerCpu⟩
    rcases exists_parseInt hmemorySome with ⟨containerMemory, hcontainerMemory⟩
    simp only [startRunnerCrossAccount, htext hproject, htext hregion, ok_bind, hcpu, hmemory,
      Option.bind_some, Json.asStr, Option.getD_some, logPayload_eq_ok hlogs, hcontainerCpu,
      hcontainerMemory, failsOnly_bind_iff, failsOnly_ofSurroundings, true_and]
    intro environment henvironment _ hrole cluster hcluster subnets hsubnets groups hgroups arns harns
    split
    · exact failsOnly_ok _ _
    · exact failsOnly_error.2 rfl

/-! ## Accepted claims -/

open EnvCommon

theorem launchable_toJson_iff {host : Host} {p : ApiInfraPayload} :
    Launchable host p.toJson ↔
      (host.infoEnabled = true → LogsWhole (p.toJson.text host.floatText)) ∧
        (Text.parseI32 p.cpu).isSome = true ∧ (Text.parseI32 p.memory).isSome = true := by
  have hproject : p.toJson.get? "project_id" = some (.string p.projectId) := by
    simp [ApiInfraPayload.toJson, Json.get?_ofFields, OrderedMap.lookup_cons_ite]
  have hregion : p.toJson.get? "region" = some (.string p.region) := by
    simp [ApiInfraPayload.toJson, Json.get?_ofFields, OrderedMap.lookup_cons_ite]
  have hcpu : p.toJson.get? "cpu" = some (.string p.cpu) := by
    simp [ApiInfraPayload.toJson, Json.get?_ofFields, OrderedMap.lookup_cons_ite]
  have hmemory : p.toJson.get? "memory" = some (.string p.memory) := by
    simp [ApiInfraPayload.toJson, Json.get?_ofFields, OrderedMap.lookup_cons_ite]
  exact launchable_iff_of_texts hproject hregion hcpu hmemory

/-- The sizes of a payload are those of the module or stack. -/
theorem accepted_with_sizes {r : ClaimRequest} {id : String}
    {prepared : ApiInfraPayloadWithVariables} (h : r.prepare = .ok (id, prepared)) :
    ∃ isStack record, r.Accepted isStack record prepared ∧
      prepared.payload.cpu = record.cpu ∧ prepared.payload.memory = record.memory := by
  rcases r.accepted h with ⟨isStack, record, haccepted⟩
  simp only [ClaimRequest.prepare, validateAndPrepareClaim, bind_eq_ok_iff] at h
  rcases h with ⟨_, -, details, hdetails, ⟨isStack', moduleVersion⟩, hversion, track, htrack,
    record', hrecord, _, -, _, -, _, -, _, -, _, -, heq⟩
  rcases getDeploymentDetails_eq_ok hdetails with ⟨-, rfl⟩
  rcases Prod.mk.inj (Except.ok.inj heq) with ⟨rfl, rfl⟩
  rcases haccepted.record_eq hversion (getVersionTrack_of_claimedTrack htrack)
    (getModuleVersion_of_claimedModule hrecord) with ⟨rfl, rfl⟩
  exact ⟨isStack, record, haccepted, rfl, rfl⟩

/-- An accepted claim can be launched exactly when the sizes of its module are numbers and no
character of its payload is cut where the log cuts it. -/
theorem launchable_iff {r : ClaimRequest} {id : String} {prepared : ApiInfraPayloadWithVariables}
    (h : r.prepare = .ok (id, prepared)) (host : Host) :
    ∃ isStack record, r.Accepted isStack record prepared ∧
      (Launchable host prepared.payload.toJson ↔
        (host.infoEnabled = true → LogsWhole (prepared.payload.toJson.text host.floatText)) ∧
          (Text.parseI32 record.cpu).isSome = true ∧
          (Text.parseI32 record.memory).isSome = true) := by
  rcases accepted_with_sizes h with ⟨isStack, record, haccepted, hcpu, hmemory⟩
  refine ⟨isStack, record, haccepted, ?_⟩
  rw [← hcpu, ← hmemory]
  exact launchable_toJson_iff

/-! ## Three published modules -/

/-- A claim of a module that has been published with the given sizes. -/
def publishedClaim (cpu memory : String) (annotations : Option YamlMapping) : ClaimRequest :=
  let module := { webModule "stable" "1.0.0" with cpu, memory }
  let r := webClaim "a" "eu-central-1" "cli/default"
  { r with
    store := (localRun [.serverModule module "YQ=="]).registry "eu-central-1"
    claim := { r.claim with metadata := { r.claim.metadata with annotations } } }

/-- An annotation of characters of four bytes each; one of them is around byte 200 of the payload. -/
def longAnnotation : YamlMapping :=
  [(.string "ran", .string (.ofList (List.replicate 45 '🏃')))]

def exampleHost (infoEnabled : Bool) : Host where
  infoEnabled
  traceparent := none
  floatText _ := "0.5"

/-- Whether the payload of a claim passes the log and the two parses. -/
def passes (host : Host) (r : ClaimRequest) : Option Bool :=
  r.prepare.toOption.map fun result =>
    let payload := result.2.payload
    (!host.infoEnabled || decide (LogsWhole (payload.toJson.text host.floatText))) &&
      (Text.parseI32 payload.cpu).isSome && (Text.parseI32 payload.memory).isSome

theorem not_launchable_of_passes {host : Host} {r : ClaimRequest}
    (h : passes host r = some false) : ∃ id prepared, r.prepare = .ok (id, prepared) ∧
      ¬ Launchable host prepared.payload.toJson := by
  cases hprepare : r.prepare with
  | error e => simp [passes, hprepare, Except.toOption] at h
  | ok result =>
      refine ⟨result.1, result.2, rfl, fun hlaunch => ?_⟩
      have hpasses := launchable_toJson_iff.1 hlaunch
      have hfails : host.infoEnabled = true ∧
          ¬ LogsWhole (result.2.payload.toJson.text host.floatText) := by
        simpa [passes, hprepare, Except.toOption, hpasses.2.1, hpasses.2.2] using h
      exact hfails.2 (hpasses.1 hfails.1)

theorem launches_publishedClaim : ∃ id prepared,
    (publishedClaim "1024" "2048" none).prepare = .ok (id, prepared) ∧
      ∃ isStack record, (publishedClaim "1024" "2048" none).Accepted isStack record prepared ∧
        (Launchable (exampleHost true) prepared.payload.toJson ↔
          ((exampleHost true).infoEnabled = true →
              LogsWhole (prepared.payload.toJson.text (exampleHost true).floatText)) ∧
            (Text.parseI32 record.cpu).isSome = true ∧
            (Text.parseI32 record.memory).isSome = true) := by
  rcases exists_prepare (r := publishedClaim "1024" "2048" none) (by decide +kernel) with
    ⟨id, prepared, h⟩
  exact ⟨id, prepared, h, launchable_iff h (exampleHost true)⟩

/-- Half a virtual CPU is no number of units, and a character of two bytes is cut by the log. -/
theorem not_launchable_publishedClaim :
    (∃ id prepared, (publishedClaim "0.5" "2048" none).prepare = .ok (id, prepared) ∧
      ¬ Launchable (exampleHost false) prepared.payload.toJson) ∧
    ∃ id prepared, (publishedClaim "1024" "2048" (some longAnnotation)).prepare =
        .ok (id, prepared) ∧ ¬ Launchable (exampleHost true) prepared.payload.toJson := by
  have hsizes : passes (exampleHost false) (publishedClaim "0.5" "2048" none) = some false := by
    decide +kernel
  have hcut : passes (exampleHost true) (publishedClaim "1024" "2048" (some longAnnotation)) =
      some false := by
    decide +kernel
  exact ⟨not_launchable_of_passes hsizes, not_launchable_of_passes hcut⟩

end EnvAwsDirect
end InfraWeave
