import InfraWeave.EnvAwsDirect.DeploymentQueries
import InfraWeave.EnvCommon.ApiChangeRecord
import InfraWeave.EnvCommon.ApiEvent
import InfraWeave.EnvCommon.ApiPolicy
import InfraWeave.Lib.Documents

/-!
# Queries on the other tables

Modules, stacks and providers, events, change records, policies and the configuration.  A builder
that pads a version unwraps the result, so there is no query for a text that is no version.
-/

namespace InfraWeave
namespace EnvAwsDirect

open EnvCommon

/-! ## Modules -/

def modulesTable : TableSchema :=
  ⟨⟨"PK", "SK"⟩, fun _ => none⟩

/-- One row of a table, by its key. -/
def keyQuery (pk sk : String) (limit : Option Nat) : PartitionQuery where
  indexName := none
  keyCondition := [.equals "PK" (.text pk), .equals "SK" (.text sk)]
  filter := []
  scanIndexForward := none
  limit := limit

def getLatestModuleVersionQuery (module track : String) : PartitionQuery :=
  keyQuery "LATEST_MODULE" (moduleId module track) (some 1)

def getLatestStackVersionQuery (stack track : String) : PartitionQuery :=
  keyQuery "LATEST_STACK" (moduleId stack track) (some 1)

def getLatestProviderVersionQuery (provider : String) : PartitionQuery :=
  keyQuery "LATEST_PROVIDER" (providerId provider) (some 1)

/-- The filters that leave out deprecated versions, and those made while developing. -/
def versionFilters (includeDeprecated includeDev000 : Bool) : List Filter :=
  (if includeDeprecated then []
    else [.or (.isMissing "deprecated") (.test (.equals "deprecated" (.flag false)))]) ++
  if includeDev000 then [] else [.not (.test (.beginsWith "version" "0.0.0-dev"))]

/-- `_get_all_latest_modules_query`. -/
def allLatestQuery (pk track : String) (includeDeprecated includeDev000 : Bool) : PartitionQuery where
  indexName := none
  keyCondition :=
    if track.isEmpty then [.equals "PK" (.text pk)]
    else [.equals "PK" (.text pk), .beginsWith "SK" ("MODULE#" ++ track ++ "::")]
  filter := versionFilters includeDeprecated includeDev000
  scanIndexForward := none
  limit := none

def getAllLatestModulesQuery (track : String) (includeDeprecated includeDev000 : Bool) :
    PartitionQuery :=
  allLatestQuery "LATEST_MODULE" track includeDeprecated includeDev000

def getAllLatestStacksQuery (track : String) (includeDeprecated includeDev000 : Bool) :
    PartitionQuery :=
  allLatestQuery "LATEST_STACK" track includeDeprecated includeDev000

def getAllLatestProvidersQuery : PartitionQuery where
  indexName := none
  keyCondition := [.equals "PK" (.text "LATEST_PROVIDER")]
  filter := []
  scanIndexForward := none
  limit := none

def getAllModuleVersionsQuery (module track : String) (includeDeprecated includeDev000 : Bool) :
    PartitionQuery where
  indexName := none
  keyCondition := [.equals "PK" (.text (moduleId module track)), .beginsWith "SK" "VERSION#"]
  filter := versionFilters includeDeprecated includeDev000
  scanIndexForward := some false
  limit := none

def getAllStackVersionsQuery (stack track : String) (includeDeprecated includeDev000 : Bool) :
    PartitionQuery :=
  getAllModuleVersionsQuery stack track includeDeprecated includeDev000

def getModuleVersionQuery (module track version : String) : Option PartitionQuery :=
  (zeroPadSemver version 3).map fun v =>
    keyQuery (moduleId module track) ("VERSION#" ++ v) (some 1)

def getProviderVersionQuery (provider version : String) : Option PartitionQuery :=
  (zeroPadSemver version 3).map fun v =>
    keyQuery (providerId provider) ("VERSION#" ++ v) (some 1)

def getStackVersionQuery (module track version : String) : Option PartitionQuery :=
  getModuleVersionQuery module track version

/-! ## Deployments -/

def deploymentsTable : TableSchema :=
  ⟨deploymentKeys, deploymentIndexes⟩

/-! ## Events -/

def eventsTable : TableSchema where
  primary := ⟨"PK", "SK"⟩
  indexes
    | "RegionIndex" => some ⟨"PK_base_region", "SK"⟩
    | _ => none

def eventFilter (eventType : Option String) : List Filter :=
  match eventType with
  | none => []
  | some "mutate" =>
      [.or (.test (.equals "event" (.text "apply"))) (.test (.equals "event" (.text "destroy")))]
  | some "plan" => [.test (.equals "event" (.text "plan"))]
  | some etype => if etype.isEmpty then [] else [.test (.equals "event" (.text etype))]

def getEventsQuery (projectId region deploymentId environment : String)
    (eventType : Option String) : PartitionQuery where
  indexName := none
  keyCondition :=
    [.equals "PK" (.text ("EVENT#" ++
      getEventIdentifier projectId region deploymentId environment))]
  filter := eventFilter eventType
  scanIndexForward := some false
  limit := none

/-- The times are compared as texts. -/
def getAllEventsBetweenQuery (region : String) (startEpoch endEpoch : Nat) : PartitionQuery where
  indexName := some "RegionIndex"
  keyCondition :=
    [.equals "PK_base_region" (.text ("EVENT#" ++ region)),
     .between "SK" (.text (toString startEpoch)) (.text (toString endEpoch))]
  filter := []
  scanIndexForward := some false
  limit := none

/-! ## Change records -/

/-- `EpochIndex` sorts by the epoch instead of the job. -/
def changeRecordsTable : TableSchema where
  primary := ⟨"PK", "SK"⟩
  indexes
    | "EpochIndex" => some ⟨"PK", "epoch"⟩
    | _ => none

def changeRecordPk (changeType projectId region deploymentId environment : String) : String :=
  changeType ++ "#" ++ getChangeRecordIdentifier projectId region deploymentId environment

def getChangeRecordsForDeploymentQuery
    (projectId region environment deploymentId changeType : String) : PartitionQuery where
  indexName := some "EpochIndex"
  keyCondition :=
    [.equals "PK" (.text (changeRecordPk changeType projectId region deploymentId environment))]
  filter := []
  scanIndexForward := some false
  limit := none

def getChangeRecordsQuery
    (projectId region environment deploymentId jobId changeType : String) : PartitionQuery :=
  keyQuery (changeRecordPk changeType projectId region deploymentId environment) jobId none

/-! ## Policies -/

def policiesTable : TableSchema :=
  ⟨⟨"PK", "SK"⟩, fun _ => none⟩

def getNewestPolicyVersionQuery (policy environment : String) : PartitionQuery where
  indexName := none
  keyCondition := [.equals "PK" (.text (policyId policy environment))]
  filter := []
  scanIndexForward := some false
  limit := some 1

def getAllPoliciesQuery (environment : String) : PartitionQuery where
  indexName := none
  keyCondition :=
    [.equals "PK" (.text "CURRENT"), .beginsWith "SK" ("POLICY#" ++ environment)]
  filter := []
  scanIndexForward := none
  limit := none

def getPolicyQuery (policy environment version : String) : Option PartitionQuery :=
  (zeroPadSemver version 3).map fun v =>
    keyQuery (policyId policy environment) ("VERSION#" ++ v) (some 1)

/-! ## Configuration -/

def configTable : TableSchema where
  primary := ⟨"PK", "SK"⟩
  indexes
    | "ReverseIndex" => some ⟨"SK", "PK"⟩
    | _ => none

/-- The rows of one partition. -/
def partitionQuery (pk : String) (limit : Option Nat) : PartitionQuery where
  indexName := none
  keyCondition := [.equals "PK" (.text pk)]
  filter := []
  scanIndexForward := none
  limit := limit

def getAllProjectsQuery : PartitionQuery :=
  partitionQuery "PROJECTS" none

def getCurrentProjectQuery (projectId : String) : PartitionQuery where
  indexName := some "ReverseIndex"
  keyCondition := [.equals "SK" (.text ("PROJECT#" ++ projectId))]
  filter := []
  scanIndexForward := none
  limit := none

def getProjectMapQuery : PartitionQuery :=
  partitionQuery "project_map" (some 1)

def getAllRegionsQuery : PartitionQuery :=
  partitionQuery "all_regions" (some 1)

end EnvAwsDirect
end InfraWeave
