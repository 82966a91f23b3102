import InfraWeave.EnvCommon.ApiPolicy
import InfraWeave.EnvCommon.Catalogue
import InfraWeave.InternalApi.HttpAuthz

/-!
# Publish routes

The routes that publish modules, stacks and policies, in a build without the `local` feature.  A
route reads the type, the name and the track from the JSON of the request, asks the publish policy
about them, and hands the record that the same JSON gives to the server side of the publish.
-/

namespace InfraWeave
namespace InternalApi

open EnvCommon

inductive PublishError where
  /-- The response of the authorization. -/
  | refused (response : Response)
  | badRequest (message : String)
  | module (error : ModuleError)
  | other (message : String)
  deriving DecidableEq

/-- `check_publish` evaluates the Rego policy of the installation. -/
structure PublishAuth where
  codec : Codec
  checkPublish : Json → String → String → Option String → Bool

def ensurePublishAccess (auth : PublishAuth) (headers : Headers)
    (resourceType resourceName : String) (track : Option String) : Except PublishError Unit :=
  let resourceDesc :=
    match track with
    | some track => resourceType ++ "/" ++ resourceName ++ "/" ++ track
    | none => resourceType ++ "/" ++ resourceName
  match extractVerifiedClaims auth.codec headers with
  | some claims =>
      if auth.checkPublish claims resourceType resourceName track then .ok ()
      else .error (.refused (errorResponse 403
        ("You do not have permission to publish " ++ resourceDesc ++
          ". Configure AUTH_PUBLISH_REGO_POLICY_PARAMETER with the Rego publish policy.")))
  | none => .error (.refused (errorResponse 401 "Missing authentication user context"))

/-! ## Records from JSON -/

/-- The readers of the parts of a record that are not texts, and the message of a JSON value that
is no record. -/
structure Serde where
  manifest : Json → Option Json
  tfVariables : Json → Option (List TfVariable)
  tfOutputs : Json → Option (List TfOutput)
  tfProviders : Json → Option (List ProviderResp)
  tfRequiredProviders : Json → Option (List TfRequiredProvider)
  tfLockProviders : Json → Option (List TfLockProvider)
  texts : Json → Option (List String)
  ociArtifactSet : Json → Option Json
  stackData : Json → Option ModuleStackData
  versionDiff : Json → Option Json
  message : Json → String

def Serde.field {α : Type} (json : Json) (name : String) (read : Json → Option α) : Option α :=
  (json.get? name).bind read

/-- A field with `#[serde(default)]`. -/
def Serde.fieldOr {α : Type} (json : Json) (name : String) (default : α) (read : Json → Option α) :
    Option α :=
  match json.get? name with
  | some value => read value
  | none => some default

/-- A field that may be missing or null. -/
def Serde.optionalField {α : Type} (json : Json) (name : String) (read : Json → Option α) :
    Option (Option α) :=
  match json.get? name with
  | some .null => some none
  | some value => (read value).map some
  | none => some none

def Serde.moduleResp (serde : Serde) (json : Json) : Option ModuleResp := do
  let track ← Serde.field json "track" Json.asStr
  let trackVersion ← Serde.field json "track_version" Json.asStr
  let version ← Serde.field json "version" Json.asStr
  let timestamp ← Serde.field json "timestamp" Json.asStr
  let moduleName ← Serde.field json "module_name" Json.asStr
  let module ← Serde.field json "module" Json.asStr
  let moduleType ← Serde.field json "module_type" Json.asStr
  let description ← Serde.field json "description" Json.asStr
  let reference ← Serde.field json "reference" Json.asStr
  let manifest ← Serde.field json "manifest" serde.manifest
  let tfVariables ← Serde.field json "tf_variables" serde.tfVariables
  let tfOutputs ← Serde.field json "tf_outputs" serde.tfOutputs
  let tfProviders ← Serde.fieldOr json "tf_providers" [] serde.tfProviders
  let tfRequiredProviders ← Serde.fieldOr json "tf_required_providers" [] serde.tfRequiredProviders
  let tfLockProviders ← Serde.fieldOr json "tf_lock_providers" [] serde.tfLockProviders
  let tfExtraEnvironmentVariables ←
    Serde.fieldOr json "tf_extra_environment_variables" [] serde.texts
  let s3Key ← Serde.field json "s3_key" Json.asStr
  let ociArtifactSet ← Serde.optionalField json "oci_artifact_set" serde.ociArtifactSet
  let stackData ← Serde.optionalField json "stack_data" serde.stackData
  let versionDiff ← Serde.optionalField json "version_diff" serde.versionDiff
  let cpu ← Serde.field json "cpu" Json.asStr
  let memory ← Serde.field json "memory" Json.asStr
  let deprecated ← Serde.fieldOr json "deprecated" false Json.asBool
  let deprecatedMessage ← Serde.optionalField json "deprecated_message" Json.asStr
  some { track, trackVersion, version, timestamp, moduleName, module, moduleType, description,
         reference, manifest, tfVariables, tfOutputs, tfProviders, tfRequiredProviders,
         tfLockProviders, tfExtraEnvironmentVariables, s3Key, ociArtifactSet, stackData,
         versionDiff, cpu, memory, deprecated, deprecatedMessage }

def Serde.policyResp (serde : Serde) (json : Json) : Option PolicyResp := do
  let environment ← Serde.field json "environment" Json.asStr
  let environmentVersion ← Serde.field json "environment_version" Json.asStr
  let version ← Serde.field json "version" Json.asStr
  let timestamp ← Serde.field json "timestamp" Json.asStr
  let policyName ← Serde.field json "policy_name" Json.asStr
  let policy ← Serde.field json "policy" Json.asStr
  let description ← Serde.field json "description" Json.asStr
  let reference ← Serde.field json "reference" Json.asStr
  let data ← Serde.field json "data" some
  let manifest ← Serde.field json "manifest" serde.manifest
  let s3Key ← Serde.field json "s3_key" Json.asStr
  some { environment, environmentVersion, version, timestamp, policyName, policy, description,
         reference, data, manifest, s3Key }

/-! ## Modules and stacks -/

structure PublishModuleBody where
  zipBase64 : String
  module : Json
  track : Option String
  version : Option String
  jobId : Option String

def requiredStringField (value : Json) (field resourceType : String) :
    Except PublishError String :=
  match ((value.get? field).bind Json.asStr).filter (· ≠ "") with
  | some text => .ok text
  | none => .error (.badRequest ("Missing '" ++ resourceType ++ "." ++ field ++ "' parameter"))

/-- A track or version next to the record has to be that of the record. -/
def checkTopLevel (given : Option String) (noun resourceType text : String) :
    Except PublishError Unit :=
  match given with
  | some bodyText =>
      if bodyText ≠ text then
        .error (.badRequest ("Top-level " ++ noun ++ " '" ++ bodyText ++ "' does not match " ++
          resourceType ++ " " ++ noun ++ " '" ++ text ++ "'"))
      else .ok ()
  | none => .ok ()

/-- The name, the track and the version that a request is about. -/
def publishModuleResource (body : PublishModuleBody) (resourceType : String) :
    Except PublishError (String × String × String) := do
  let name ← requiredStringField body.module "module" resourceType
  let track ← requiredStringField body.module "track" resourceType
  let version ← requiredStringField body.module "version" resourceType
  checkTopLevel body.track "track" resourceType track
  checkTopLevel body.version "version" resourceType version
  return (name, track, version)

/-- The record of a request; `noun` names it in the message. -/
def deserialize {α : Type} (serde : Serde) (noun : String) (read : Json → Option α) (json : Json) :
    Except PublishError α :=
  match read json with
  | some record => .ok record
  | none => .error (.other ("Failed to deserialize " ++ noun ++ ": " ++ serde.message json))

section

variable (auth : PublishAuth) (serde : Serde) (services : Services) (reg : Registry)
  (handler : GenericCloudHandler)

/-- The common body of the routes of modules and stacks, with that of their handlers. -/
def publishResource (resourceType : String)
    (serverPublish : ModuleResp → String → Publishing ModuleError Unit) (headers : Headers)
    (body : PublishModuleBody) : Publishing PublishError Unit := do
  let (name, track, _) ← .ofExcept (publishModuleResource body resourceType)
  .ofExcept (ensurePublishAccess auth headers resourceType name (some track))
  let module ← .ofExcept (deserialize serde resourceType serde.moduleResp body.module)
  (serverPublish module body.zipBase64).mapError .module

def publishModule : Headers → PublishModuleBody → Publishing PublishError Unit :=
  publishResource auth serde "module" (serverPublishModule services reg handler)

def publishStack : Headers → PublishModuleBody → Publishing PublishError Unit :=
  publishResource auth serde "stack" (serverPublishStack services reg handler)

/-! ## Policies -/

structure PublishPolicyBody where
  zipBase64 : String
  policy : Json

def policyName (body : PublishPolicyBody) : String :=
  ((body.policy.get? "policy").bind Json.asStr).getD "unknown"

def publishPolicy (headers : Headers) (body : PublishPolicyBody) :
    Publishing PublishError Unit := do
  .ofExcept (ensurePublishAccess auth headers "policy" (policyName body) none)
  let policy ← .ofExcept (deserialize serde "policy" serde.policyResp body.policy)
  (serverPublishPolicy services reg handler policy body.zipBase64).mapError .other

end

end InternalApi
end InfraWeave
