import InfraWeave.Defs.ResourceChange
import InfraWeave.EnvCommon.Registry
import InfraWeave.Lib.KeyedTable

/-!
# Change records

What a job has planned or changed is kept under its deployment and the name of the job.
-/

namespace InfraWeave
namespace EnvCommon

structure InfraChangeRecord where
  deploymentId : String
  projectId : String
  region : String
  jobId : String
  module : String
  environment : String
  changeType : String
  moduleVersion : String
  epoch : Nat
  timestamp : String
  planStdOutput : String
  planRawJsonKey : String
  resourceChanges : List SanitizedResourceChange
  vars : Json

def getChangeRecordIdentifier (projectId region deploymentId environment : String) : String :=
  projectId ++ "::" ++ region ++ "::" ++ environment ++ "::" ++ deploymentId

namespace InfraChangeRecord

variable (record : InfraChangeRecord)

def pkPrefix : String :=
  match record.changeType with
  | "apply" => "MUTATE"
  | "destroy" => "MUTATE"
  | "plan" => "PLAN"
  | _ => "UNKNOWN"

def key : Key :=
  ⟨record.pkPrefix ++ "#" ++ getChangeRecordIdentifier record.projectId record.region
      record.deploymentId record.environment,
    record.jobId⟩

end InfraChangeRecord

abbrev ChangeRecords :=
  KeyedTable Key InfraChangeRecord

def insertInfraChangeRecord (t : ChangeRecords) (record : InfraChangeRecord) : ChangeRecords :=
  t.put record.key record

end EnvCommon
end InfraWeave
