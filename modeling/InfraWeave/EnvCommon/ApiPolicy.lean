import InfraWeave.EnvCommon.ApiProvider

/-!
# Publishing policies
-/

namespace InfraWeave
namespace EnvCommon

open Semver

def policyId (policy environment : String) : String :=
  "POLICY#" ++ getPolicyIdentifier policy environment

/-- The last row of the partition; the source panics when it is not a policy. -/
def getNewestPolicyVersion (services : Services) (s : RegionStore) (policy environment : String) :
    Except String PolicyResp :=
  match ((s.rows .policies).filter fun row => row.1.pk = policyId policy environment).getLast? with
  | some (_, .policy record) => .ok record
  | some (_, item) => .error (services.mapError item)
  | none => .error "No policy found"

def policyPuts (policy : PolicyResp) (version : String) : List Put :=
  let id := policyId policy.policy policy.environment
  [⟨.policies, ⟨id, "VERSION#" ++ version⟩, .policy policy⟩,
   ⟨.policies, ⟨"CURRENT", id⟩, .policy policy⟩]

def insertPolicy (services : Services) (region : String) (policy : PolicyResp) :
    Publishing String Unit := do
  let version ← .ofExcept (services.parsed (zeroPadSemver · 3) policy.version)
  .write (region, .transact (policyPuts policy version))

/-- Versions of policies are compared with their builds. -/
def checkNewestPolicy (services : Services) (s : RegionStore) (policy : PolicyResp) :
    Except String Unit :=
  match getNewestPolicyVersion services s policy.policy policy.environment with
  | .ok latestPolicy => do
      let manifestVersion ← services.parsed parse policy.version
      let latestVersion ← services.parsed parse latestPolicy.version
      if manifestVersion = latestVersion then
        .error ("Policy version " ++ manifestVersion.toString ++ " already exists in environment " ++
          policy.environment)
      else if (Semver.compare manifestVersion latestVersion).isLE then
        .error ("Policy version " ++ manifestVersion.toString ++
          " is older than the latest version " ++ latestVersion.toString ++ " in environment " ++
          policy.environment)
      else .ok ()
  | .error _ => .ok ()

def uploadPolicy (services : Services) (region : String) (policy : PolicyResp)
    (zipBase64 : String) : Publishing String Unit := do
  (uploadFileBase64 services region policy.s3Key .policies zipBase64).mapError
    ("Failed to read db: " ++ ·)
  insertPolicy services region policy

def serverPublishPolicy (services : Services) (reg : Registry) (handler : GenericCloudHandler)
    (policy : PolicyResp) (zipBase64 : String) : Publishing String Unit :=
  if handler.allRegions = [] then .error "At least one region is required to publish policy"
  else do
    .ofExcept (checkNewestPolicy services (reg handler.region) policy)
    .forEach handler.allRegions fun region => uploadPolicy services region policy zipBase64

end EnvCommon
end InfraWeave
