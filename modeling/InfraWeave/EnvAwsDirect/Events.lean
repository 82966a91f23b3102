import InfraWeave.Defs.Json
import InfraWeave.Lib.Program
import InfraWeave.Lib.Text

/-!
# The events of `run_function`

An event is a JSON value that names one operation of the provider and brings its arguments.
`eventStep` reads the event, and `Step.run` makes the calls; what they are answered is left open.
-/

namespace InfraWeave
namespace EnvAwsDirect

/-- What is stored in a bucket: the bytes of a base64 text, or what a URL was answered with. -/
inductive Content where
  | decoded (base64 : String)
  | downloaded (answer : Json)

/-- The requests to the identity provider. -/
inductive TokenRequest where
  | exchangeCode (code : String) (redirectUri codeVerifier : Option String)
  | refresh (refreshToken : String)
  | signInUrl (redirectUri codeChallenge codeChallengeMethod : Option String)

inductive ProviderOp where
  | readDb (table : String) (query : Json) (region : Option String)
  | insertDb (table : String) (data : Json) (region : Option String)
  | transactWrite (items : Json) (region : Option String)
  | getObject (bucket key : String)
  | presignGet (bucket key : String)
  | putObject (bucket key : String) (content : Content)
  | fetch (url : String)
  | getJobStatus (jobId : String) (region : Option String)
  | readLogs (jobId projectId region : String) (nextToken : Option String) (limit : Option Int)
  | startRunner (data : Json)
  | publishNotification (message subject : String)
  | getEnvironmentVariables
  | bootstrapTables (endpoint region : String)
  | bootstrapBuckets (endpoint region : String)
  | identityProvider (request : TokenRequest)

/-- A program whose operations are answered with JSON or with the message of an error. -/
abbrev Effects (α : Type) := Program ProviderOp (fun _ => Except String Json) α

/-- The environment of the process, and the formats it uses. -/
structure FunctionEnv where
  testMode : Bool
  /-- `DYNAMODB_ENDPOINT` or `AWS_ENDPOINT_URL_DYNAMODB`. -/
  dynamodbEndpoint : Option String
  /-- `MINIO_ENDPOINT` or `AWS_ENDPOINT_URL_S3`. -/
  s3Endpoint : Option String
  bucketName : String → Except String String
  bucketNameForRegion : String → String → Except String String
  decodeBase64 : String → Except String Unit
  jsonText : Json → String

/-! ## Reading an event -/

def missing (name : String) : String := "Missing " ++ name ++ " field"

def jsonField (value : Json) (name : String) : Except String Json :=
  match value.get? name with
  | some v => .ok v
  | none => .error (missing name)

def textField (value : Json) (name : String) : Except String String :=
  match (value.get? name).bind Json.asStr with
  | some text => .ok text
  | none => .error (missing name)

/-- A field of the data, whose absence is that of the field. -/
def dataField (payload : Json) (name : String) : Except String Json :=
  match (payload.get? "data").bind (·.get? name) with
  | some v => .ok v
  | none => .error (missing name)

/-- An event either is answered at once, or makes a call, or copies from a URL into a bucket. -/
inductive Step where
  | answered (response : Json)
  | call (op : ProviderOp) (failure : String) (respond : Json → Json)
  | copy (url bucket key : String)

/-- `serde_json::to_value` of a `JobStatus`. -/
def jobStatus (jobId : String) (isRunning : Bool) : Json :=
  .ofFields [("job_id", .string jobId), ("is_running", .bool isRunning)]

def isRunningStatus (data : Json) : Bool :=
  ["PROVISIONING", "PENDING", "ACTIVATING", "RUNNING"].contains
    (((data.get? "status").bind Json.asStr).getD "UNKNOWN")

/-- `limit as i32`. -/
def asI32 (n : Int) : Int := n.bmod 4294967296

section

variable (env : FunctionEnv) (projectId region : String)

/-- The name of a bucket that is not known is taken as it is. -/
def actualBucket (bucket : String) : String :=
  match env.bucketNameForRegion bucket region with
  | .ok name => name
  | .error _ => bucket

def readDbStep (payload : Json) : Except String Step := do
  let table ← textField payload "table"
  let query ← dataField payload "query"
  return .call (.readDb table query (some region)) "Direct DB read failed: " id

def getJobStatusStep (payload : Json) : Except String Step :=
  match ((payload.get? "data").bind (·.get? "job_id")).bind Json.asStr with
  | none => .error (missing "job_id")
  | some jobId =>
      if env.testMode then
        .ok (.answered (jobStatus jobId ("running-".toList.isPrefixOf jobId.toList)))
      else
        .ok (.call (.getJobStatus jobId (some region)) "Direct get_job_status failed: " fun data =>
          jobStatus jobId (isRunningStatus data))

def readLogsStep (payload : Json) : Except String Step := do
  let data ← jsonField payload "data"
  let jobId ← textField data "job_id"
  let nextToken := (data.get? "next_token").bind Json.asStr
  let limit := ((data.get? "limit").bind Json.asI64).map asI32
  return .call (.readLogs jobId projectId region nextToken limit) "Direct read_logs failed: " id

def startRunnerStep (payload : Json) : Except String Step :=
  if env.testMode then .ok (.answered (.ofFields [("job_id", .string "running-test-job-id")]))
  else do
    let data ← jsonField payload "data"
    return .call (.startRunner data) "Direct start_runner failed: " id

/-- The bucket and the key of an object. -/
def objectFields (data : Json) : Except String (String × String) := do
  let key ← textField data "key"
  let bucket ← textField data "bucket_name"
  return (actualBucket env region bucket, key)

def generatePresignedUrlStep (payload : Json) : Except String Step := do
  let data ← jsonField payload "data"
  let (bucket, key) ← objectFields env region data
  return .call (.presignGet bucket key) "Failed to generate presigned URL: " fun url =>
    .ofFields [("url", url)]

/-- The answer to an upload. -/
def uploaded (bucket key : String) : Json :=
  .ofFields [("success", .bool true), ("key", .string key), ("bucket", .string bucket)]

def uploadFileBase64Step (payload : Json) : Except String Step := do
  let data ← jsonField payload "data"
  let (bucket, key) ← objectFields env region data
  let content ← textField data "base64_content"
  (env.decodeBase64 content).mapError ("Failed to decode base64: " ++ ·)
  return .call (.putObject bucket key (.decoded content)) "Failed to upload to S3: " fun _ =>
    uploaded bucket key

def uploadFileUrlStep (payload : Json) : Except String Step := do
  let data ← jsonField payload "data"
  let (bucket, key) ← objectFields env region data
  let url ← textField data "url"
  return .copy url bucket key

def downloadFileStep (payload : Json) : Except String Step := do
  let data ← jsonField payload "data"
  let (bucket, key) ← objectFields env region data
  return .call (.getObject bucket key) "Failed to download from S3: " fun content =>
    .ofFields [("content", content)]

def transactWriteStep (payload : Json) : Except String Step := do
  let items ← jsonField payload "items"
  return .call (.transactWrite items (some region)) "Direct transact_write failed: " id

def insertDbStep (payload : Json) : Except String Step := do
  let table ← textField payload "table"
  let data ← jsonField payload "data"
  return .call (.insertDb table data (some region)) "Direct insert_db failed: " id

/-- A set-up of the tests, with the endpoint it is made at. -/
def bootstrapStep (event endpointNames : String) (endpoint : Option String)
    (op : String → ProviderOp) : Except String Step :=
  if env.testMode then
    match endpoint with
    | none => .error (endpointNames ++ " must be set")
    | some endpoint =>
        .ok (.call (op endpoint) ("Direct " ++ event ++ " failed: ") fun _ =>
          .ofFields [("status", .string "success")])
  else .error (event ++ " is only supported in TEST_MODE")

def bootstrapTablesStep : Except String Step :=
  bootstrapStep env "bootstrap_tables" "DYNAMODB_ENDPOINT or AWS_ENDPOINT_URL_DYNAMODB"
    env.dynamodbEndpoint (.bootstrapTables · region)

def bootstrapBucketsStep : Except String Step :=
  bootstrapStep env "bootstrap_buckets" "MINIO_ENDPOINT or AWS_ENDPOINT_URL_S3"
    env.s3Endpoint (.bootstrapBuckets · region)

def publishNotificationStep (payload : Json) : Except String Step := do
  let data ← jsonField payload "data"
  let message ← jsonField data "message"
  let subject := ((data.get? "subject").bind Json.asStr).getD "Unkown Subject"
  return .call (.publishNotification (message.asStr.getD (env.jsonText message)) subject)
    "Direct publish_notification failed: " id

def eventStep (payload : Json) : Except String Step :=
  match (payload.get? "event").bind Json.asStr with
  | none => .error (missing "event")
  | some event =>
      if event = "read_db" then readDbStep region payload
      else if event = "get_job_status" then getJobStatusStep env region payload
      else if event = "read_logs" then readLogsStep projectId region payload
      else if event = "start_runner" then startRunnerStep env payload
      else if event = "get_environment_variables" then
        .ok (.call .getEnvironmentVariables "Direct get_environment_variables failed: " id)
      else if event = "generate_presigned_url" then generatePresignedUrlStep env region payload
      else if event = "upload_file_base64" then uploadFileBase64Step env region payload
      else if event = "upload_file_url" then uploadFileUrlStep env region payload
      else if event = "download_file" then downloadFileStep env region payload
      else if event = "transact_write" then transactWriteStep region payload
      else if event = "insert_db" then insertDbStep region payload
      else if event = "bootstrap_tables" then bootstrapTablesStep env region
      else if event = "bootstrap_buckets" then bootstrapBucketsStep env region
      else if event = "publish_notification" then publishNotificationStep env payload
      else .error ("Unknown event type: " ++ event)

/-! ## Running it -/

def Step.run : Step → Effects (Except String Json)
  | .answered response => .done (.ok response)
  | .call op failure respond =>
      .call op fun
        | .ok data => .done (.ok (respond data))
        | .error e => .done (.error (failure ++ e))
  | .copy url bucket key =>
      .call (.fetch url) fun
        | .error e => .done (.error ("Failed to download from URL: " ++ e))
        | .ok answer =>
            .call (.putObject bucket key (.downloaded answer)) fun
              | .ok _ => .done (.ok (uploaded bucket key))
              | .error e => .done (.error ("Failed to upload to S3: " ++ e))

def runFunction (payload : Json) : Effects (Except String Json) :=
  match eventStep env projectId region payload with
  | .ok step => step.run
  | .error e => .done (.error e)

/-! ## What is called -/

/-- The calls of a step, whatever they are answered. -/
def Step.calls (op : ProviderOp) : Step → Prop
  | .answered _ => False
  | .call op' _ _ => op = op'
  | .copy url bucket key =>
      op = .fetch url ∨ ∃ answer, op = .putObject bucket key (.downloaded answer)

theorem mayCall_run_iff {op : ProviderOp} {step : Step} : step.run.MayCall op ↔ step.calls op := by
  cases step with
  | answered response => exact iff_of_false (Program.not_mayCall_done _) id
  | call op' failure respond =>
      refine Program.mayCall_call_iff.trans (or_iff_left fun h => ?_)
      obtain ⟨answer, h⟩ := h
      cases answer with
      | ok data => exact Program.not_mayCall_done _ h
      | error e => exact Program.not_mayCall_done _ h
  | copy url bucket key =>
      refine Program.mayCall_call_iff.trans (or_congr_right ?_)
      constructor
      · rintro ⟨answer, h⟩
        cases answer with
        | error e => exact absurd h (Program.not_mayCall_done _)
        | ok answer =>
            refine ⟨answer, (Program.mayCall_call_iff.1 h).resolve_right fun hlater => ?_⟩
            obtain ⟨stored, h⟩ := hlater
            cases stored with
            | ok data => exact Program.not_mayCall_done _ h
            | error e => exact Program.not_mayCall_done _ h
      · rintro ⟨answer, rfl⟩
        exact ⟨.ok answer, .now _⟩

theorem mayCall_runFunction_iff {op : ProviderOp} {payload : Json} :
    (runFunction env projectId region payload).MayCall op ↔
      ∃ step, eventStep env projectId region payload = .ok step ∧ step.calls op := by
  unfold runFunction
  cases eventStep env projectId region payload with
  | error e =>
      refine iff_of_false (Program.not_mayCall_done _) ?_
      rintro ⟨step, h, -⟩
      cases h
  | ok step =>
      refine mayCall_run_iff.trans ⟨fun h => ⟨step, rfl, h⟩, ?_⟩
      rintro ⟨step', h, hcalls⟩
      rw [Except.ok.inj h]
      exact hcalls

end

end EnvAwsDirect
end InfraWeave
