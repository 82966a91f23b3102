import InfraWeave.EnvCommon.ApiProvider

/-!
# Publishing and deprecating modules
-/

namespace InfraWeave
namespace EnvCommon

open Semver

/-! ## Records of modules and stacks -/

/-- Records of stacks have stack data. -/
def kindOf (record : ModuleResp) : ModuleType :=
  if record.stackData.isSome then .stack else .module

/-- The partition of the latest versions that a record belongs to. -/
def latestPk (module : ModuleResp) : String :=
  if module.stackData.isSome then "LATEST_STACK" else "LATEST_MODULE"

def modulePuts (module : ModuleResp) (version : String) : List Put :=
  let id := moduleId module.module module.track
  [⟨.modules, ⟨id, "VERSION#" ++ version⟩, .module module⟩,
   ⟨.modules, ⟨latestPk module, id⟩, .module module⟩]

def insertModule (services : Services) (region : String) (module : ModuleResp) :
    Publishing String Unit := do
  let version ← .ofExcept (services.parsed (zeroPadSemver · 3) module.version)
  .write (region, .transact (modulePuts module version))

def uploadModule (services : Services) (region : String) (module : ModuleResp)
    (zipBase64 : String) : Publishing String Unit := do
  (uploadFileBase64 services region module.s3Key .modules zipBase64).mapError
    ("Failed to upload to S3: " ++ ·)
  insertModule services region module

/-! ## Checks -/

def checkLatest (services : Services) (s : RegionStore) (module version track : String)
    (moduleType : ModuleType) : Except ModuleError Unit := do
  let _ ← (compareLatestVersion services s module version track moduleType).mapError
    (.moduleVersionExists version)

/-- The name check of modules: it asks for the latest stack with an empty track. -/
def checkNoStack (services : Services) (s : RegionStore) (module : String) :
    Except ModuleError Unit :=
  match services.getLatestStackVersion s module "" with
  | .ok (some _) =>
      .error (.validationError ("A stack with the name '" ++ module ++
        "' already exists. Modules and stacks cannot share the same name."))
  | _ => .ok ()

def serverPublishModule (services : Services) (reg : Registry) (handler : GenericCloudHandler)
    (module : ModuleResp) (zipBase64 : String) : Publishing ModuleError Unit := do
  if handler.allRegions = [] then
    .error (.validationError "At least one region is required to publish module")
  else do
    .ofExcept (checkLatest services (reg handler.region) module.module module.version module.track
      .module)
    .ofExcept (checkNoStack services (reg handler.region) module.module)
    .forEach handler.allRegions fun region =>
      (uploadModule services region module zipBase64).mapError fun e =>
        .uploadModuleError ("Failed to upload module to region " ++ region ++ ": " ++ e)

/-! ## The command line -/

/-- What is read from the zip of a module, once its content has been checked. -/
structure ModuleParts where
  tfVariables : List TfVariable
  tfOutputs : List TfOutput
  tfRequiredProviders : List TfRequiredProvider
  tfLockProviders : List TfLockProvider

/-- What the directory of a module contains.  The checks of the zip and of the manifest that look
at nothing else are given by their results: `parts` for those before the version is looked at,
`checkExamples` for the examples. -/
structure ModuleSource where
  name : String
  moduleName : String
  version : Option String
  description : String
  reference : String
  manifest : Json
  providers : List String
  cpu : String
  memory : String
  timestamp : String
  ociArtifactSet : Option Json
  zipBase64 : String
  parts : List ProviderResp → Except ModuleError ModuleParts
  checkExamples : List ProviderResp → Except ModuleError Unit

/-- The latest versions of the named providers; a read that fails ends the process. -/
def getProvidersForModule (services : Services) (s : RegionStore) :
    List String → Except ModuleError (List ProviderResp)
  | [] => .ok []
  | name :: names => do
      match services.getLatestProviderVersion s name with
      | .ok (some provider) =>
          let providers ← getProvidersForModule services s names
          .ok (provider :: providers)
      | .ok none => .error (.other ("No provider found with name: " ++ name))
      | .error e => .error (.other ("Failed to get latest provider " ++ name ++ " version: " ++ e))

def ModuleSource.record (source : ModuleSource) (track version paddedVersion : String)
    (providers : List ProviderResp) (parts : ModuleParts) : ModuleResp where
  track := track
  trackVersion := track ++ "#" ++ paddedVersion
  version := version
  timestamp := source.timestamp
  module := source.name
  moduleName := source.moduleName
  moduleType := "module"
  description := source.description
  reference := source.reference
  manifest := source.manifest
  tfVariables := parts.tfVariables.filter (!isEnvironmentVariable ·)
  tfOutputs := parts.tfOutputs
  tfProviders := providers
  tfRequiredProviders := parts.tfRequiredProviders
  tfLockProviders := parts.tfLockProviders
  tfExtraEnvironmentVariables := (parts.tfVariables.filter isEnvironmentVariable).map TfVariable.name
  s3Key := zipKey source.name version
  ociArtifactSet := source.ociArtifactSet
  stackData := none
  versionDiff := none
  cpu := source.cpu
  memory := source.memory
  deprecated := false
  deprecatedMessage := none

/-- The caches of the locked providers in every region. -/
def providerCacheTasks (services : Services) (reg : Registry) (handler : GenericCloudHandler)
    (tfLockProviders : List TfLockProvider) : List (Publishing ModuleError Unit) :=
  handler.allRegions.flatMap fun region => tfLockProviders.map fun provider =>
    (uploadProviderCache services reg region provider).mapError fun e =>
      .uploadModuleError ("Failed to upload provider " ++ provider.source ++ " to region " ++
        region ++ ": " ++ e)

def publishModuleFromZip (services : Services) (reg : Registry) (handler : GenericCloudHandler)
    (source : ModuleSource) (track : String) : Publishing ModuleError Unit := do
  let s := reg handler.region
  let providers ← .ofExcept (getProvidersForModule services s source.providers)
  if providers = [] then .error (.noProvidersDefined source.name)
  else do
    let parts ← .ofExcept (source.parts providers)
    match source.version with
    | none => .error (.moduleVersionMissing source.name)
    | some version => do
        .ofExcept (ensureTrackMatchesVersion services track version)
        .ofExcept (source.checkExamples providers)
        .ofExcept (checkLatest services s source.name version track .module)
        .ofExcept (checkNoStack services s source.name)
        let paddedVersion ← .ofExcept
          ((services.parsed (zeroPadSemver · 3) version).mapError .other)
        let module := source.record track version paddedVersion providers parts
        match handler.ociClient with
        | some uploadToOci =>
            .ofExcept ((uploadToOci module source.zipBase64).mapError .other)
        | none =>
            let moduleTasks := handler.allRegions.map fun region =>
              (uploadModule services region module source.zipBase64).mapError fun e =>
                .uploadModuleError ("Failed to upload module " ++ module.module ++ " to region " ++
                  region ++ ": " ++ e)
            .collect (providerCacheTasks services reg handler module.tfLockProviders ++ moduleTasks)

/-! ## Deprecation -/

/-- What `deprecate_module` and `deprecate_stack` read and check, up to the row that they put. -/
def prepareDeprecation (services : Services) (s : RegionStore) (noun entity : String)
    (latest : ModuleResp → Except String (Option ModuleResp)) (name track version : String)
    (message : Option String) : Except String Put := do
  match ← services.getModuleVersion s name track version with
  | none =>
      .error (entity ++ " " ++ name ++ " version " ++ version ++ " not found in track " ++ track)
  | some existing =>
      if existing.deprecated then
        .error (entity ++ " " ++ name ++ " version " ++ version ++ " is already deprecated")
      else
        let latest ← latest existing
        if latest.map ModuleResp.version = some version then
          .error ("Cannot deprecate the latest version (" ++ version ++ ") of " ++ noun ++ " " ++
            name ++ " in track " ++ track ++ ".\nPlease publish a new version that resolves " ++
            "the issue before deprecating this version.")
        else
          let padded ← services.parsed (zeroPadSemver · 3) version
          .ok ⟨.modules, ⟨moduleId name track, "VERSION#" ++ padded⟩,
            .module { existing with deprecated := true, deprecatedMessage := message }⟩

/-- The latest version that `deprecate_module` looks at is that of the record's own kind. -/
def prepareModuleDeprecation (services : Services) (s : RegionStore)
    (module track version : String) (message : Option String) : Except String Put :=
  prepareDeprecation services s "module" "Module"
    (fun existing =>
      if existing.stackData.isSome then services.getLatestStackVersion s module track
      else services.getLatestModuleVersion s module track)
    module track version message

def prepareStackDeprecation (services : Services) (s : RegionStore)
    (stack track version : String) (message : Option String) : Except String Put :=
  prepareDeprecation services s "stack" "Stack"
    (fun _ => services.getLatestStackVersion s stack track) stack track version message

/-- The second half of a deprecation: the row goes to every region. -/
def putDeprecation (allRegions : List String) (put : Put) : Publishing String Unit :=
  .forEach allRegions fun region => .write (region, .transact [put])

def deprecateModule (services : Services) (reg : Registry) (handler : GenericCloudHandler)
    (module track version : String) (message : Option String) : Publishing String Unit :=
  if handler.allRegions = [] then
    .error "At least one region is required to deprecate module"
  else do
    let put ← .ofExcept
      (prepareModuleDeprecation services (reg handler.region) module track version message)
    putDeprecation handler.allRegions put

def deprecateStack (services : Services) (reg : Registry) (handler : GenericCloudHandler)
    (stack track version : String) (message : Option String) : Publishing String Unit :=
  if handler.allRegions = [] then
    .error "At least one region is required to deprecate stack"
  else do
    let put ← .ofExcept
      (prepareStackDeprecation services (reg handler.region) stack track version message)
    putDeprecation handler.allRegions put

end EnvCommon
end InfraWeave
