import InfraWeave.Defs.Deployment
import InfraWeave.Lib.KeyedTable

/-!
# Queries on the deployments table

The key attributes of the table and of its indexes, and the queries as they are sent to DynamoDB,
with the expressions and their values put together.
-/

namespace InfraWeave
namespace EnvAwsDirect

def deploymentKeys : KeySchema :=
  ⟨"PK", "SK"⟩

def deploymentIndexes : String → Option KeySchema
  | "DeletedIndex" => some ⟨"deleted_PK_base", "PK"⟩
  | "ModuleIndex" => some ⟨"module_PK_base", "deleted_PK"⟩
  | "GlobalModuleIndex" => some ⟨"module", "deleted_PK"⟩
  | "DriftCheckIndex" => some ⟨"deleted_SK_base", "next_drift_check_epoch"⟩
  | "ReverseIndex" => some ⟨"SK", "PK"⟩
  | _ => none

/-- `SK = :metadata`. -/
def isMetadata : Condition :=
  .equals "SK" (.text "METADATA")

def getAllDeploymentsQuery (projectId region environment : String) (includeDeleted : Bool) : Query :=
  let start := "DEPLOYMENT#" ++ getDeploymentIdentifier projectId region "" environment
  if includeDeleted then
    { indexName := none
      keyCondition := [.beginsWith "PK" start]
      filter := [isMetadata] }
  else
    { indexName := some "DeletedIndex"
      keyCondition :=
        [.equals "deleted_PK_base"
          (.text ("0|DEPLOYMENT#" ++ getDeploymentIdentifier projectId region "" "")),
         .beginsWith "PK" start]
      filter := [] }

def getDeploymentAndDependentsQuery (projectId region deploymentId environment : String)
    (includeDeleted : Bool) : Query :=
  { indexName := none
    keyCondition :=
      [.equals "PK" (.text ("DEPLOYMENT#" ++
        getDeploymentIdentifier projectId region deploymentId environment))]
    filter := if includeDeleted then [] else [.differs "deleted" (.number 1)] }

def getDeploymentQuery (projectId region deploymentId environment : String)
    (includeDeleted : Bool) : Query :=
  { indexName := none
    keyCondition :=
      [.equals "PK" (.text ("DEPLOYMENT#" ++
        getDeploymentIdentifier projectId region deploymentId environment)),
       isMetadata]
    filter := if includeDeleted then [] else [.equals "deleted" (.number 0)] }

/-- With deleted deployments included, the start has no `0|` or `1|` before it. -/
def getDeploymentsUsingModuleQuery (projectId region module environment : String)
    (includeDeleted : Bool) : Query :=
  let start := "DEPLOYMENT#" ++ getDeploymentIdentifier projectId region "" environment
  { indexName := some "ModuleIndex"
    keyCondition :=
      [.equals "module_PK_base"
        (.text ("MODULE#" ++ getDeploymentIdentifier projectId region "" "" ++ "#" ++ module)),
       .beginsWith "deleted_PK" (if includeDeleted then start else "0|" ++ start)]
    filter := [isMetadata] }

def getPlanDeploymentQuery (projectId region deploymentId environment jobId : String) : Query :=
  { indexName := none
    keyCondition :=
      [.equals "PK" (.text ("PLAN#" ++
        getDeploymentIdentifier projectId region deploymentId environment)),
       .equals "SK" (.text jobId)]
    filter := [.differs "deleted" (.number 1)] }

def getDeploymentHistoryPlansQuery (projectId region : String) (environment : Option String) :
    Query :=
  let start := match environment with
    | some env => "PLAN#" ++ getDeploymentIdentifier projectId region "" env
    | none => "PLAN#" ++ projectId ++ "::" ++ region
  { indexName := some "DeletedIndex"
    keyCondition :=
      [.equals "deleted_PK_base" (.text ("0|PLAN#" ++ projectId ++ "::" ++ region)),
       .beginsWith "PK" start]
    filter := [] }

def getDeploymentHistoryDeletedQuery (projectId region : String) (environment : Option String) :
    Query :=
  { indexName := some "DeletedIndex"
    keyCondition :=
      [.equals "deleted_PK_base" (.text ("1|DEPLOYMENT#" ++ projectId ++ "::" ++ region))]
    filter := match environment with
      | none => [isMetadata]
      | some env =>
          [isMetadata,
           .beginsWith "PK" ("DEPLOYMENT#" ++ getDeploymentIdentifier projectId region "" env)] }

def getDependentsQuery (projectId region deploymentId environment : String) : Query :=
  { indexName := none
    keyCondition :=
      [.equals "PK" (.text ("DEPLOYMENT#" ++
        getDeploymentIdentifier projectId region deploymentId environment)),
       .beginsWith "SK" "DEPENDENT#"]
    filter := [.equals "deleted" (.number 0)] }

def getDeploymentsToDriftcheckQuery (projectId region : String) (epoch : Nat) : Query :=
  { indexName := some "DriftCheckIndex"
    keyCondition :=
      [.equals "deleted_SK_base"
        (.text ("0|METADATA#" ++ getDeploymentIdentifier projectId region "" "")),
       .between "next_drift_check_epoch" (.number 0) (.number epoch)]
    filter := [] }

end EnvAwsDirect
end InfraWeave
