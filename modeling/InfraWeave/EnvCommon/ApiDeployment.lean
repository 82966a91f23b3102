import InfraWeave.EnvAwsDirect.DeploymentQueries
import InfraWeave.EnvCommon.Registry
import InfraWeave.Lib.Separator
import InfraWeave.Lib.Text

/-!
# The deployments table

A region of a project has one table for its deployments.  Under a deployment's partition are the row
of the deployment itself and one row for each deployment that depends on it; plans have partitions
of their own.  A row is kept as the record it was written from, together with the attributes that
are written for the indexes.
-/

namespace InfraWeave
namespace EnvCommon

open EnvAwsDirect

structure DeploymentItem where
  deletedPk : String
  deletedPkBase : String
  deletedSkBase : String
  modulePkBase : String
  record : DeploymentResp
  deriving DecidableEq

/-- A `DEPENDENT` row; it has no `deleted` attribute. -/
structure DependentItem where
  dependentId : String
  module : String
  environment : String
  projectId : String
  region : String
  deriving DecidableEq

inductive DeploymentRow where
  | deployment (item : DeploymentItem)
  | dependent (item : DependentItem)
  deriving DecidableEq

abbrev Deployments :=
  KeyedTable Key DeploymentRow

abbrev Transaction :=
  List (KeyedTable.Operation Key DeploymentRow)

/-- The attributes that keys and queries name.  `deleted` is a number, since an index cannot hold
a boolean. -/
def DeploymentRow.attr (row : Key × DeploymentRow) (name : String) : Option Attribute :=
  match name, row.2 with
  | "PK", _ => some (.text row.1.pk)
  | "SK", _ => some (.text row.1.sk)
  | "module", .deployment item => some (.text item.record.module)
  | "module", .dependent item => some (.text item.module)
  | "deleted_PK", .deployment item => some (.text item.deletedPk)
  | "deleted_PK_base", .deployment item => some (.text item.deletedPkBase)
  | "deleted_SK_base", .deployment item => some (.text item.deletedSkBase)
  | "module_PK_base", .deployment item => some (.text item.modulePkBase)
  | "next_drift_check_epoch", .deployment item => some (.number item.record.nextDriftCheckEpoch)
  | "deleted", .deployment item => some (.number (if item.record.deleted then 1 else 0))
  | _, _ => none

/-- `s.split("::").take(2).join("::")`. -/
def firstTwoParts (s : String) : String :=
  .ofList ("::".toList.intercalate ((splitAtSeparator "::".toList s.toList).take 2))

def getPayload (deployment : DeploymentResp) (isPlan : Bool) : Key × DeploymentItem :=
  let pkPrefix := if isPlan then "PLAN" else "DEPLOYMENT"
  let pk := pkPrefix ++ "#" ++ deployment.identifier
  let sk := if isPlan then deployment.jobId else "METADATA"
  let deleted := if deployment.deleted then "1" else "0"
  let deletedPk := deleted ++ "|" ++ pk
  let base := getDeploymentIdentifier deployment.projectId deployment.region "" ""
  (⟨pk, sk⟩,
    { deletedPk := deletedPk
      deletedPkBase := firstTwoParts deletedPk
      deletedSkBase := deleted ++ "|" ++ sk ++ "#" ++ base
      modulePkBase := "MODULE#" ++ base ++ "#" ++ deployment.module
      record := deployment })

/-! ## Reads -/

/-- A handler of one project and region, as `GenericCloudHandler::workload` makes it. -/
structure WorkloadHandler where
  projectId : String
  region : String
  deriving DecidableEq

def Deployments.read (t : Deployments) (query : Query) :
    Except String (List (Key × DeploymentRow)) :=
  query.evaluate deploymentKeys deploymentIndexes DeploymentRow.attr t.rows

/-- Rows sorted into deployments and dependents; a row of the other kind ends the process. -/
def parseRows : List (Key × DeploymentRow) → Except String (List DeploymentResp × List Dependent)
  | [] => .ok ([], [])
  | (key, row) :: rows => do
      let (deployments, dependents) ← parseRows rows
      if (Text.stripPrefix "DEPENDENT#" key.sk).isSome then
        match row with
        | .dependent item =>
            .ok (deployments, ⟨item.projectId, item.region, item.dependentId, item.environment⟩ ::
              dependents)
        | .deployment _ => .error "Failed to parse dependent"
      else
        match row with
        | .deployment item => .ok (item.record :: deployments, dependents)
        | .dependent _ => .error "Failed to parse deployment"

/-- `_get_deployment_and_dependents`. -/
def getDeploymentAndDependents (t : Deployments) (query : Query) :
    Except String (Option DeploymentResp × List Dependent) := do
  let rows ← t.read query
  let (deployments, dependents) ← parseRows rows
  .ok (deployments.head?, dependents)

namespace WorkloadHandler

variable (handler : WorkloadHandler) (t : Deployments)

def getDeployment (deploymentId environment : String) (includeDeleted : Bool) :
    Except String (Option DeploymentResp) := do
  let (deployment, _) ← getDeploymentAndDependents t
    (getDeploymentQuery handler.projectId handler.region deploymentId environment includeDeleted)
  .ok deployment

def getPlanDeployment (deploymentId environment jobId : String) :
    Except String (Option DeploymentResp) := do
  let (deployment, _) ← getDeploymentAndDependents t
    (getPlanDeploymentQuery handler.projectId handler.region deploymentId environment jobId)
  .ok deployment

def getDependents (deploymentId environment : String) : Except String (List Dependent) := do
  let (_, dependents) ← getDeploymentAndDependents t
    (getDependentsQuery handler.projectId handler.region deploymentId environment)
  .ok dependents

end WorkloadHandler

/-! ## Writes -/

def deploymentPk (identifier : String) : String :=
  "DEPLOYMENT#" ++ identifier

/-- The key of the row that says that a deployment depends on another one. -/
def dependentKey (dependency dependent : String) : Key :=
  ⟨deploymentPk dependency, "DEPENDENT#" ++ dependent⟩

def putDeployment (deployment : DeploymentResp) (isPlan : Bool) :
    KeyedTable.Operation Key DeploymentRow :=
  let (key, item) := getPayload deployment isPlan
  .put key (.deployment item)

def putDependent (deployment : DeploymentResp) (dependency : String) :
    KeyedTable.Operation Key DeploymentRow :=
  .put (dependentKey dependency deployment.identifier)
    (.dependent
      { dependentId := deployment.deploymentId
        module := deployment.module
        environment := deployment.environment
        projectId := deployment.projectId
        region := deployment.region })

def deleteDependent (dependency dependent : String) : KeyedTable.Operation Key DeploymentRow :=
  .delete (dependentKey dependency dependent)

/-- The rows of dependents under a deleted deployment, and those of the deployment itself under
its dependencies. -/
def deletionOperations (deployment : DeploymentResp) (dependents : List Dependent)
    (existingDependencies : List Dependency) : Transaction :=
  dependents.map (fun dependent => deleteDependent deployment.identifier dependent.identifier) ++
    existingDependencies.map fun dependency =>
      deleteDependent dependency.identifier deployment.identifier

/-- The order in which the source goes through its hash sets does not show: the keys differ. -/
def updateOperations (deployment : DeploymentResp) (existingDependencies : List Dependency) :
    Transaction :=
  let oldDependencySet := (existingDependencies.map Dependency.identifier).dedup
  let newDependencySet := (deployment.dependencies.map Dependency.identifier).dedup
  ((newDependencySet.filter (· ∉ oldDependencySet)).map fun dependency =>
      putDependent deployment dependency) ++
    (oldDependencySet.filter (· ∉ newDependencySet)).map fun dependency =>
      deleteDependent dependency deployment.identifier

def commit (operations : Transaction) : Outcome Transaction String Unit :=
  if KeyedTable.transactionAccepted operations then .write operations
  else .error "Failed to update deployment: ValidationException"

def setDeployment (t : Deployments) (handler : WorkloadHandler) (deployment : DeploymentResp)
    (isPlan : Bool) : Outcome Transaction String Unit := do
  let existing ← .ofExcept
    ((handler.getDeployment t deployment.deploymentId deployment.environment false).mapError
      ("Failed to get deployment to find dependents: " ++ ·))
  let existingDependencies := (existing.map DeploymentResp.dependencies).getD []
  let index ←
    if isPlan then pure []
    else if deployment.deleted then do
      let dependents ← .ofExcept
        (handler.getDependents t deployment.deploymentId deployment.environment)
      pure (deletionOperations deployment dependents existingDependencies)
    else pure (updateOperations deployment existingDependencies)
  commit (putDeployment deployment isPlan :: index)
  if isPlan && deployment.hasDrifted then .write [putDeployment deployment false]
  else pure ()

end EnvCommon
end InfraWeave
