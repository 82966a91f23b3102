import InfraWeave.Defs.Deployment
import InfraWeave.EnvCommon.ApiChangeRecord
import InfraWeave.EnvCommon.ApiEvent
import InfraWeave.EnvCommon.ApiPolicy
import InfraWeave.Lib.Documents

/-!
# Queries for Cosmos DB

The builders have the names and arguments of those for DynamoDB.  Three of them ask a function that
is stored in the database.
-/

namespace InfraWeave
namespace EnvAzure

open EnvCommon

/-- `SELECT * FROM c WHERE` the conditions. -/
def selectWhere (filter : List Filter) : DocumentQuery :=
  ⟨filter, none, none⟩

/-- `c.PK = @pk`. -/
def pkIs (pk : String) : Filter :=
  .test (.equals "PK" (.text pk))

/-- `c.SK = @sk`. -/
def skIs (sk : String) : Filter :=
  .test (.equals "SK" (.text sk))

/-- `STARTSWITH(c.PK, @prefix)`. -/
def pkStarts (start : String) : Filter :=
  .test (.beginsWith "PK" start)

/-- `STARTSWITH(c.SK, @prefix)`. -/
def skStarts (start : String) : Filter :=
  .test (.beginsWith "SK" start)

/-- `c.deleted = @deleted`. -/
def deletedIs (deleted : Int) : Filter :=
  .test (.equals "deleted" (.number deleted))

/-! ## Modules -/

def getLatestModuleVersionQuery (module track : String) : DocumentQuery :=
  selectWhere [pkIs "LATEST_MODULE", skIs (moduleId module track)]

def getLatestStackVersionQuery (stack track : String) : DocumentQuery :=
  selectWhere [pkIs "LATEST_STACK", skIs (moduleId stack track)]

def getLatestProviderVersionQuery (provider : String) : DocumentQuery :=
  selectWhere [pkIs "LATEST_PROVIDER", skIs (providerId provider)]

def versionFilters (includeDeprecated includeDev000 : Bool) : List Filter :=
  (if includeDeprecated then []
    else [.or (.isMissing "deprecated") (.test (.equals "deprecated" (.flag false)))]) ++
  if includeDev000 then [] else [.not (.test (.beginsWith "version" "0.0.0-dev"))]

/-- `_get_all_latest_modules_query`. -/
def allLatestQuery (pk track : String) (includeDeprecated includeDev000 : Bool) : DocumentQuery :=
  selectWhere <|
    pkIs pk :: (if track.isEmpty then [] else [skStarts ("MODULE#" ++ track ++ "::")]) ++
      versionFilters includeDeprecated includeDev000

def getAllLatestModulesQuery (track : String) (includeDeprecated includeDev000 : Bool) :
    DocumentQuery :=
  allLatestQuery "LATEST_MODULE" track includeDeprecated includeDev000

def getAllLatestStacksQuery (track : String) (includeDeprecated includeDev000 : Bool) :
    DocumentQuery :=
  allLatestQuery "LATEST_STACK" track includeDeprecated includeDev000

def getAllLatestProvidersQuery : DocumentQuery :=
  selectWhere [pkIs "LATEST_PROVIDER"]

def getAllModuleVersionsQuery (module track : String) (includeDeprecated includeDev000 : Bool) :
    DocumentQuery :=
  selectWhere <|
    pkIs (moduleId module track) :: skStarts "VERSION#" ::
      versionFilters includeDeprecated includeDev000

def getAllStackVersionsQuery (stack track : String) (includeDeprecated includeDev000 : Bool) :
    DocumentQuery :=
  getAllModuleVersionsQuery stack track includeDeprecated includeDev000

/-- `SELECT TOP 1`. -/
def topOne (filter : List Filter) : DocumentQuery :=
  ⟨filter, none, some 1⟩

def getModuleVersionQuery (module track version : String) : Option DocumentQuery :=
  (zeroPadSemver version 3).map fun v => topOne [pkIs (moduleId module track), skIs ("VERSION#" ++ v)]

def getProviderVersionQuery (provider version : String) : Option DocumentQuery :=
  (zeroPadSemver version 3).map fun v => topOne [pkIs (providerId provider), skIs ("VERSION#" ++ v)]

def getStackVersionQuery (module track version : String) : Option DocumentQuery :=
  getModuleVersionQuery module track version

/-! ## Deployments -/

def getAllDeploymentsQuery (projectId region environment : String) (includeDeleted : Bool) :
    DocumentQuery :=
  let start := "DEPLOYMENT#" ++ getDeploymentIdentifier projectId region "" environment
  if includeDeleted then selectWhere [pkStarts start, skIs "METADATA"]
  else
    selectWhere
      [.test (.equals "deleted_PK_base"
        (.text ("0|DEPLOYMENT#" ++ getDeploymentIdentifier projectId region "" ""))),
       pkStarts start]

def getDeploymentAndDependentsQuery (projectId region deploymentId environment : String)
    (includeDeleted : Bool) : DocumentQuery :=
  let pk := "DEPLOYMENT#" ++ getDeploymentIdentifier projectId region deploymentId environment
  if includeDeleted then selectWhere [pkIs pk]
  else selectWhere [pkIs pk, .test (.differs "deleted" (.number 1))]

def getDeploymentQuery (projectId region deploymentId environment : String)
    (includeDeleted : Bool) : DocumentQuery :=
  let pk := "DEPLOYMENT#" ++ getDeploymentIdentifier projectId region deploymentId environment
  if includeDeleted then selectWhere [pkIs pk, skIs "METADATA"]
  else selectWhere [pkIs pk, skIs "METADATA", deletedIs 0]

def getDeploymentsUsingModuleQuery (projectId region module environment : String)
    (includeDeleted : Bool) : DocumentQuery :=
  let start := "DEPLOYMENT#" ++ getDeploymentIdentifier projectId region "" environment
  selectWhere
    [.test (.equals "module_PK_base"
      (.text ("MODULE#" ++ getDeploymentIdentifier projectId region "" "" ++ "#" ++ module))),
     .test (.beginsWith "deleted_PK" (if includeDeleted then start else "0|" ++ start)),
     skIs "METADATA"]

def getPlanDeploymentQuery (projectId region deploymentId environment jobId : String) :
    DocumentQuery :=
  selectWhere
    [pkIs ("PLAN#" ++ getDeploymentIdentifier projectId region deploymentId environment),
     skIs jobId, .test (.differs "deleted" (.number 1))]

def getDeploymentHistoryPlansQuery (projectId region : String) (environment : Option String) :
    DocumentQuery :=
  let start := match environment with
    | some env => "PLAN#" ++ getDeploymentIdentifier projectId region "" env
    | none => "PLAN#" ++ projectId ++ "::" ++ region
  ⟨[pkStarts start, deletedIs 0], some "epoch", none⟩

def getDeploymentHistoryDeletedQuery (projectId region : String) (environment : Option String) :
    DocumentQuery :=
  let start := match environment with
    | some env => "DEPLOYMENT#" ++ getDeploymentIdentifier projectId region "" env
    | none => "DEPLOYMENT#" ++ projectId ++ "::" ++ region
  ⟨[pkStarts start, deletedIs 1, skIs "METADATA"], some "epoch", none⟩

def getDependentsQuery (projectId region deploymentId environment : String) : DocumentQuery :=
  selectWhere
    [pkIs ("DEPLOYMENT#" ++ getDeploymentIdentifier projectId region deploymentId environment),
     skStarts "DEPENDENT#", deletedIs 0]

def getDeploymentsToDriftcheckQuery (projectId region : String) (epoch : Nat) : DocumentQuery :=
  selectWhere
    [.test (.equals "deleted_SK_base"
      (.text ("0|METADATA#" ++ getDeploymentIdentifier projectId region "" ""))),
     .test (.between "next_drift_check_epoch" (.number 0) (.number epoch))]

/-! ## Events -/

def eventFilter (eventType : Option String) : List Filter :=
  match eventType with
  | none => []
  | some "mutate" =>
      [.or (.test (.equals "event" (.text "apply"))) (.test (.equals "event" (.text "destroy")))]
  | some "plan" => [.test (.equals "event" (.text "plan"))]
  | some etype => if etype.isEmpty then [] else [.test (.equals "event" (.text etype))]

def getEventsQuery (projectId region deploymentId environment : String)
    (eventType : Option String) : DocumentQuery where
  filter :=
    pkIs ("EVENT#" ++ getEventIdentifier projectId region deploymentId environment) ::
      eventFilter eventType
  orderBy := some "SK"
  top := none

def getAllEventsBetweenQuery (region : String) (startEpoch endEpoch : Nat) : DocumentQuery :=
  selectWhere
    [.test (.equals "PK_base_region" (.text ("EVENT#" ++ region))),
     .test (.between "SK" (.text (toString startEpoch)) (.text (toString endEpoch)))]

/-! ## Change records -/

def changeRecordPk (changeType projectId region deploymentId environment : String) : String :=
  changeType ++ "#" ++ getChangeRecordIdentifier projectId region deploymentId environment

def getChangeRecordsForDeploymentQuery
    (projectId region environment deploymentId changeType : String) : DocumentQuery where
  filter := [pkIs (changeRecordPk changeType projectId region deploymentId environment)]
  orderBy := some "SK"
  top := none

def getChangeRecordsQuery
    (projectId region environment deploymentId jobId changeType : String) : DocumentQuery :=
  selectWhere
    [pkIs (changeRecordPk changeType projectId region deploymentId environment), skIs jobId]

/-! ## Policies -/

/-- `_ts` is the second in which Cosmos DB has stored the row. -/
def getNewestPolicyVersionQuery (policy environment : String) : DocumentQuery where
  filter := [pkIs (policyId policy environment)]
  orderBy := some "_ts"
  top := some 1

def getAllPoliciesQuery (environment : String) : DocumentQuery :=
  selectWhere [pkIs "CURRENT", skStarts ("POLICY#" ++ environment)]

def getPolicyQuery (policy environment version : String) : Option DocumentQuery :=
  (zeroPadSemver version 3).map fun v =>
    topOne [pkIs (policyId policy environment), skIs ("VERSION#" ++ v)]

/-! ## Configuration -/

/-- What is sent for the configuration. -/
inductive ConfigStatement where
  | query (query : DocumentQuery)
  /-- What a function that is stored in the database returns. -/
  | function (name : String)

def getAllProjectsQuery : ConfigStatement :=
  .function "getAllProjects"

def getCurrentProjectQuery (projectId : String) : ConfigStatement :=
  .query (selectWhere [skIs ("PROJECT#" ++ projectId)])

def getProjectMapQuery : ConfigStatement :=
  .function "getProjectMap"

def getAllRegionsQuery : ConfigStatement :=
  .function "getAllRegions"

end EnvAzure
end InfraWeave
