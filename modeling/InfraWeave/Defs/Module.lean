import InfraWeave.Defs.Json

/-!
# Records of the registry

What is stored for a published module, stack, provider or policy.  Parts of a record that the
program only carries along (manifests, version differences, OCI artifacts) are kept as JSON.
-/

namespace InfraWeave

def getModuleIdentifier (module track : String) : String :=
  track ++ "::" ++ module

def getPolicyIdentifier (policy environment : String) : String :=
  environment ++ "::" ++ policy

structure TfVariable where
  name : String
  type : Json
  default : Option Json
  description : String
  nullable : Bool
  sensitive : Bool
  deriving DecidableEq

structure TfOutput where
  name : String
  value : String
  description : String
  sensitive : Option Bool
  deriving DecidableEq

structure TfRequiredProvider where
  name : String
  version : String
  source : String
  deriving DecidableEq

structure TfLockProvider where
  source : String
  version : String
  deriving DecidableEq

structure ProviderResp where
  name : String
  version : String
  timestamp : String
  description : String
  reference : String
  manifest : Json
  tfVariables : List TfVariable
  tfExtraEnvironmentVariables : List String
  s3Key : String
  deriving DecidableEq

structure StackModule where
  module : String
  version : String
  s3Key : String
  track : String
  deriving DecidableEq

structure ModuleStackData where
  modules : List StackModule
  deriving DecidableEq

/-- A module, or a stack when it has stack data. -/
structure ModuleResp where
  track : String
  trackVersion : String
  version : String
  timestamp : String
  moduleName : String
  module : String
  moduleType : String
  description : String
  reference : String
  manifest : Json
  tfVariables : List TfVariable
  tfOutputs : List TfOutput
  tfProviders : List ProviderResp
  tfRequiredProviders : List TfRequiredProvider
  tfLockProviders : List TfLockProvider
  tfExtraEnvironmentVariables : List String
  s3Key : String
  ociArtifactSet : Option Json
  stackData : Option ModuleStackData
  versionDiff : Option Json
  cpu : String
  memory : String
  deprecated : Bool
  deprecatedMessage : Option String
  deriving DecidableEq

structure PolicyResp where
  environment : String
  environmentVersion : String
  version : String
  timestamp : String
  policyName : String
  policy : String
  description : String
  reference : String
  data : Json
  manifest : Json
  s3Key : String
  deriving DecidableEq

end InfraWeave
