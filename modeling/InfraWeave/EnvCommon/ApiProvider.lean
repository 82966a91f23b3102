import InfraWeave.EnvCommon.VersionGuards

/-!
# Publishing providers

`serverPublishProvider` is what the internal API runs, `publishProviderFromZip` what the command
line runs when it talks to the cloud directly.  A handler reads from its own region; what is
published is written to every region.
-/

namespace InfraWeave
namespace EnvCommon

open Semver

/-- Writes to regions. -/
abbrev Publishing :=
  Outcome (String × Write)

structure GenericCloudHandler where
  region : String
  allRegions : List String
  /-- `upload_module` of the OCI client, when one is configured. -/
  ociClient : Option (ModuleResp → String → Except String Unit)

def uploadFileBase64 (services : Services) (region key : String) (bucket : Bucket)
    (base64Content : String) : Publishing String Unit := do
  let content ← .ofExcept (services.base64Decode base64Content)
  .write (region, .upload bucket key content)

def uploadFileUrl (services : Services) (reg : Registry) (region key : String) (bucket : Bucket)
    (url : String) : Publishing String Unit :=
  if ((reg region).objects bucket key).isSome then pure ()
  else do
    let content ← .ofExcept (services.fetch url)
    .write (region, .uploadIfAbsent bucket key content)

/-- The binaries of a locked provider, fetched once. -/
def uploadProviderCache (services : Services) (reg : Registry) (region : String)
    (tfLockProvider : TfLockProvider) : Publishing String Unit :=
  .forEach ["provider_binary", "shasum", "signature"] fun category => do
    let (url, key) ← .ofExcept (services.getProviderUrlKey tfLockProvider "linux_arm64" category)
    uploadFileUrl services reg region key .providers url

/-! ## Records of providers -/

def providerPuts (provider : ProviderResp) (version : String) : List Put :=
  [⟨.modules, ⟨providerId provider.name, "VERSION#" ++ version⟩, .provider provider⟩,
   ⟨.modules, ⟨"LATEST_PROVIDER", providerId provider.name⟩, .provider provider⟩]

def insertProvider (services : Services) (region : String) (provider : ProviderResp) :
    Publishing String Unit := do
  let version ← .ofExcept (services.parsed (zeroPadSemver · 3) provider.version)
  .write (region, .transact (providerPuts provider version))

def uploadProvider (services : Services) (region : String) (provider : ProviderResp)
    (zipBase64 : String) : Publishing String Unit := do
  (uploadFileBase64 services region provider.s3Key .modules zipBase64).mapError
    ("Failed to upload to S3: " ++ ·)
  insertProvider services region provider

/-- Providers have neither pre-releases nor builds. -/
def checkProviderVersion (services : Services) (version : String) : Except ModuleError Unit := do
  let manifestVersion ← (services.parsed parse version).mapError .other
  if manifestVersion.pre.val ≠ [] ∨ manifestVersion.build.val ≠ [] then
    .error .invalidStableVersion
  else .ok ()

def checkLatestProvider (services : Services) (s : RegionStore) (provider version : String) :
    Except ModuleError Unit := do
  let _ ← (compareLatestProviderVersion services s provider version).mapError
    (.moduleVersionExists version)

def serverPublishProvider (services : Services) (reg : Registry) (handler : GenericCloudHandler)
    (provider : ProviderResp) (zipBase64 : String) : Publishing ModuleError Unit := do
  if handler.allRegions = [] then
    .error (.validationError "At least one region is required to publish provider")
  else do
    .ofExcept (checkProviderVersion services provider.version)
    .ofExcept (checkLatestProvider services (reg handler.region) provider.name provider.version)
    .forEach handler.allRegions fun region =>
      (uploadProvider services region provider zipBase64).mapError fun e =>
        .uploadModuleError ("Failed to upload provider to region " ++ region ++ ": " ++ e)

/-! ## The command line -/

/-- What the directory of a provider contains. -/
structure ProviderSource where
  name : String
  version : Option String
  description : String
  reference : String
  manifest : Json
  timestamp : String
  tfVariables : List TfVariable
  zipBase64 : String

/-- `{name}/{name}-{version}.zip`. -/
def zipKey (name version : String) : String :=
  name ++ "/" ++ name ++ "-" ++ version ++ ".zip"

def isEnvironmentVariable (tfVariable : TfVariable) : Bool :=
  "INFRAWEAVE_".toList.isPrefixOf tfVariable.name.toList

def ProviderSource.record (source : ProviderSource) (version : String) : ProviderResp where
  version := version
  timestamp := source.timestamp
  name := source.name
  description := source.description
  reference := source.reference
  manifest := source.manifest
  tfVariables := source.tfVariables.filter (!isEnvironmentVariable ·)
  tfExtraEnvironmentVariables :=
    (source.tfVariables.filter isEnvironmentVariable).map TfVariable.name
  s3Key := zipKey source.name version

def publishProviderFromZip (services : Services) (reg : Registry) (handler : GenericCloudHandler)
    (source : ProviderSource) : Publishing ModuleError Unit :=
  match source.version with
  | none => .error (.moduleVersionMissing source.name)
  | some version => do
      .ofExcept (checkProviderVersion services version)
      .ofExcept (checkLatestProvider services (reg handler.region) source.name version)
      .collect <| handler.allRegions.map fun region =>
        (uploadProvider services region (source.record version) source.zipBase64).mapError fun e =>
          .uploadModuleError ("Failed to upload provider " ++ source.name ++ " to region " ++
            region ++ ": " ++ e)

end EnvCommon
end InfraWeave
