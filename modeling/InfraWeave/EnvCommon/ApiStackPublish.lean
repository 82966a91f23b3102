import InfraWeave.EnvCommon.ApiModule

/-!
# Publishing and deprecating stacks

A stack is stored as a module with stack data.  `publishStack` starts where the Terraform code of
the stack has been generated.
-/

namespace InfraWeave
namespace EnvCommon

open Semver

/-- The name check of stacks: it asks for the latest module with an empty track. -/
def checkNoModule (services : Services) (s : RegionStore) (stack : String) :
    Except ModuleError Unit :=
  match services.getLatestModuleVersion s stack "" with
  | .ok (some _) =>
      .error (.validationError ("A module with the name '" ++ stack ++
        "' already exists. Modules and stacks cannot share the same name."))
  | _ => .ok ()

def serverPublishStack (services : Services) (reg : Registry) (handler : GenericCloudHandler)
    (module : ModuleResp) (zipBase64 : String) : Publishing ModuleError Unit := do
  if handler.allRegions = [] then
    .error (.validationError "At least one region is required to publish stack")
  else do
    .ofExcept (checkLatest services (reg handler.region) module.module module.version module.track
      .stack)
    .ofExcept (checkNoModule services (reg handler.region) module.module)
    .forEach handler.allRegions fun region =>
      (uploadModule services region module zipBase64).mapError fun e =>
        .uploadModuleError ("Failed to upload stack to region " ++ region ++ ": " ++ e)
    .forEach handler.allRegions fun region =>
      .forEach module.tfLockProviders fun provider =>
        (uploadProviderCache services reg region provider).mapError fun e =>
          .uploadModuleError ("Failed to upload provider cache " ++ provider.source ++
            " to region " ++ region ++ ": " ++ e)

/-! ## The command line -/

/-- What the generated Terraform code of a stack contains, with the modules it is made of. -/
structure StackParts where
  tfVariables : List TfVariable
  tfOutputs : List TfOutput
  tfProviders : List ProviderResp
  tfRequiredProviders : List TfRequiredProvider
  tfLockProviders : List TfLockProvider
  claimModules : List ModuleResp
  zipBase64 : String

/-- What the directory of a stack contains.  `parts` is the result of generating its code from the
modules and providers that are published; `checkExamples` that of checking its examples. -/
structure StackSource where
  name : String
  stackName : String
  version : Option String
  description : String
  reference : String
  manifest : Json
  cpu : String
  memory : String
  timestamp : String
  ociArtifactSet : Option Json
  parts : RegionStore → Except ModuleError StackParts
  checkExamples : StackParts → Except ModuleError Unit

def ModuleResp.toStackModule (m : ModuleResp) : StackModule :=
  ⟨m.module, m.version, m.s3Key, m.track⟩

def StackSource.record (source : StackSource) (track version paddedVersion : String)
    (parts : StackParts) : ModuleResp where
  track := track
  trackVersion := track ++ "#" ++ paddedVersion
  version := version
  timestamp := source.timestamp
  module := source.name
  moduleName := source.stackName
  moduleType := "stack"
  description := source.description
  reference := source.reference
  manifest := source.manifest
  tfVariables := parts.tfVariables.filter (!isEnvironmentVariable ·)
  tfOutputs := parts.tfOutputs
  tfProviders := parts.tfProviders
  tfRequiredProviders := parts.tfRequiredProviders
  tfLockProviders := parts.tfLockProviders
  tfExtraEnvironmentVariables :=
    (parts.tfVariables.filter isEnvironmentVariable).map TfVariable.name
  s3Key := zipKey source.name version
  ociArtifactSet := source.ociArtifactSet
  stackData := some ⟨parts.claimModules.map ModuleResp.toStackModule⟩
  versionDiff := none
  cpu := source.cpu
  memory := source.memory
  deprecated := false
  deprecatedMessage := none

/-- The version is compared with the latest module and then with the latest stack; when either
comparison fails the process ends. -/
def publishStack (services : Services) (reg : Registry) (handler : GenericCloudHandler)
    (source : StackSource) (track : String) : Publishing ModuleError Unit := do
  let s := reg handler.region
  let parts ← .ofExcept (source.parts s)
  match source.version with
  | none => .error (.moduleVersionMissing source.name)
  | some version => do
      .ofExcept (source.checkExamples parts)
      .ofExcept (ensureTrackMatchesVersion services track version)
      .ofExcept (checkLatest services s source.name version track .module)
      let paddedVersion ← .ofExcept
        ((services.parsed (zeroPadSemver · 3) version).mapError .other)
      let module := source.record track version paddedVersion parts
      .ofExcept (checkLatest services s source.name version track .stack)
      .ofExcept (checkNoModule services s source.name)
      let stackTasks := handler.allRegions.map fun region =>
        (uploadModule services region module parts.zipBase64).mapError .uploadModuleError
      .collect (stackTasks ++ providerCacheTasks services reg handler module.tfLockProviders)

end EnvCommon
end InfraWeave
