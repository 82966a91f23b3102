import InfraWeave.Defs.Deployment
import InfraWeave.Lib.Fallible

/-!
# Payloads as JSON

The client writes a payload, and the server reads it again.
-/

namespace InfraWeave

/-! ## Fields -/

def missingField (name : String) : String :=
  "missing field `" ++ name ++ "`"

/-- A field that has to be there, read by `read`. -/
def requiredJsonField {α : Type} (read : Json → Option α) (v : Json) (name : String) :
    Except String α :=
  match (v.get? name).bind read with
  | some value => .ok value
  | none => .error (missingField name)

def Json.asInt : Json → Option Int
  | .number (.int n) => some n
  | _ => none

/-- A list is read when each of its items is. -/
def readItems {α : Type} (read : Json → Option α) (v : Json) : Option (List α) :=
  v.asArray.bind fun items => items.mapM read

theorem readItems_map {α : Type} {read : Json → Option α} {write : α → Json}
    (h : ∀ a, read (write a) = some a) (items : List α) :
    readItems read (.array (items.map write)) = some items := by
  unfold readItems
  simp only [Json.asArray, Option.bind_some]
  induction items with
  | nil => rfl
  | cons item items ih => simp [List.mapM_cons, h, ih]

/-! ## Parts of a payload -/

def webhookToJson (url : Option String) : Json :=
  .object [("url", (url.map Json.string).getD .null)]

/-- A webhook without a URL is read as one whose URL is null. -/
def webhookOfJson (v : Json) : Option (Option String) :=
  match v with
  | .object fields =>
      match fields.lookup "url" with
      | some (.string url) => some (some url)
      | some .null => some none
      | some _ => none
      | none => some none
  | _ => none

theorem webhookOfJson_toJson (url : Option String) : webhookOfJson (webhookToJson url) = some url := by
  cases url <;> rfl

namespace DriftDetection

def toJson (d : DriftDetection) : Json :=
  .ofFields
    [("enabled", .bool d.enabled), ("interval", .string d.interval),
      ("autoRemediate", .bool d.autoRemediate),
      ("webhooks", .array (d.webhooks.map webhookToJson))]

/-- Each field has a default. -/
def ofJson (v : Json) : Option DriftDetection := do
  let enabled ← (v.get? "enabled").elim (some false) Json.asBool
  let interval ← (v.get? "interval").elim (some defaultDriftDetectionInterval) Json.asStr
  let autoRemediate ← (v.get? "autoRemediate").elim (some false) Json.asBool
  let webhooks ← (v.get? "webhooks").elim (some []) (readItems webhookOfJson)
  some ⟨enabled, interval, autoRemediate, webhooks⟩

theorem ofJson_toJson (d : DriftDetection) : ofJson d.toJson = some d := by
  have hwebhooks := readItems_map webhookOfJson_toJson d.webhooks
  simp [ofJson, toJson, Json.get?_ofFields, OrderedMap.lookup_cons_ite, Json.asBool, Json.asStr,
    hwebhooks]

end DriftDetection

namespace Dependency

def toJson (d : Dependency) : Json :=
  .ofFields
    [("project_id", .string d.projectId), ("region", .string d.region),
      ("deployment_id", .string d.deploymentId), ("environment", .string d.environment)]

def ofJson (v : Json) : Option Dependency := do
  let projectId ← (v.get? "project_id").bind Json.asStr
  let region ← (v.get? "region").bind Json.asStr
  let deploymentId ← (v.get? "deployment_id").bind Json.asStr
  let environment ← (v.get? "environment").bind Json.asStr
  some ⟨projectId, region, deploymentId, environment⟩

theorem ofJson_toJson (d : Dependency) : ofJson d.toJson = some d := by
  simp [ofJson, toJson, Json.get?_ofFields, OrderedMap.lookup_cons_ite, Json.asStr]

end Dependency

/-! ## Payloads -/

namespace ApiInfraPayload

def toJson (p : ApiInfraPayload) : Json :=
  .ofFields
    [("command", .string p.command), ("flags", .array (p.flags.map .string)),
      ("module", .string p.module), ("module_version", .string p.moduleVersion),
      ("module_type", .string p.moduleType), ("module_track", .string p.moduleTrack),
      ("name", .string p.name), ("environment", .string p.environment),
      ("deployment_id", .string p.deploymentId), ("project_id", .string p.projectId),
      ("region", .string p.region), ("drift_detection", p.driftDetection.toJson),
      ("next_drift_check_epoch", .number (.int p.nextDriftCheckEpoch)),
      ("annotations", p.annotations),
      ("dependencies", .array (p.dependencies.map Dependency.toJson)),
      ("initiated_by", .string p.initiatedBy), ("cpu", .string p.cpu),
      ("memory", .string p.memory), ("reference", .string p.reference),
      ("extra_data", p.extraData)]

/-- The annotations and the extra data are kept as they are. -/
def ofJson (v : Json) : Except String ApiInfraPayload := do
  let text := requiredJsonField Json.asStr v
  return {
    command := ← text "command"
    flags := ← requiredJsonField (readItems Json.asStr) v "flags"
    module := ← text "module"
    moduleVersion := ← text "module_version"
    moduleType := ← text "module_type"
    moduleTrack := ← text "module_track"
    name := ← text "name"
    environment := ← text "environment"
    deploymentId := ← text "deployment_id"
    projectId := ← text "project_id"
    region := ← text "region"
    driftDetection := ← requiredJsonField DriftDetection.ofJson v "drift_detection"
    nextDriftCheckEpoch := ← requiredJsonField Json.asInt v "next_drift_check_epoch"
    annotations := ← requiredJsonField some v "annotations"
    dependencies := ← requiredJsonField (readItems Dependency.ofJson) v "dependencies"
    initiatedBy := ← text "initiated_by"
    cpu := ← text "cpu"
    memory := ← text "memory"
    reference := ← text "reference"
    extraData := ← requiredJsonField some v "extra_data" }

theorem ofJson_toJson (p : ApiInfraPayload) : ofJson p.toJson = .ok p := by
  have htext (text : String) : (Json.string text).asStr = some text := rfl
  have hflags := readItems_map htext p.flags
  have hdependencies := readItems_map Dependency.ofJson_toJson p.dependencies
  have hdrift := DriftDetection.ofJson_toJson p.driftDetection
  simp [ofJson, toJson, requiredJsonField, Json.get?_ofFields, OrderedMap.lookup_cons_ite, htext,
    Json.asInt, hflags, hdependencies, hdrift]

end ApiInfraPayload

end InfraWeave
