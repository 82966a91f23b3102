import InfraWeave.EnvCommon.ApiDeployment
import InfraWeave.EnvCommon.References
import InfraWeave.EnvCommon.Registry
import InfraWeave.Utils.Variables

/-!
# Requests from claims

A claim is checked against the module or stack that it names, and made into the payload of a
request.  From the payload comes the record that is stored when the request is submitted.
-/

namespace InfraWeave
namespace EnvCommon

/-- What the preparation of a claim uses that is not part of the program. -/
structure ClaimServices where
  conv : Conventions
  registry : Services
  /-- `str::to_lowercase`, which is defined on all of Unicode. -/
  toLowercase : String → String
  getUserId : Except String String

/-! ## Names -/

/-- `^[a-z0-9](?:[-a-z0-9]{0,61}[a-z0-9])?$`. -/
def isName (name : String) : Bool :=
  let isAlphanum := fun c : Char => c.isLower || c.isDigit
  match name.toList with
  | [] => false
  | c :: cs =>
      isAlphanum c && cs.length ≤ 62 && cs.all (fun c => isAlphanum c || c == '-') &&
        cs.getLast?.all isAlphanum

def validateName (name : String) : Except String Unit :=
  if isName name then .ok ()
  else
    .error ("Deployment name and namespace (" ++ name ++ ") must be 1-63 characters long, " ++
      "contain only lowercase letters (a-z), digits (0-9), or hyphens (-), " ++
      "and must start and end with a lowercase letter or digit.")

/-- The region, the environment, the deployment, the module and the name of a claim. -/
def getDeploymentDetails (toLowercase : String → String) (environment : String)
    (claim : DeploymentManifest) :
    Except String (String × String × String × String × String) := do
  let module := toLowercase claim.kind
  let name := claim.metadata.name
  let deploymentId := module ++ "/" ++ name
  -- The launcher is set by the program, the namespace by the user.
  let namespaceOf := "/".intercalate ((Text.split '/' environment).drop 1)
  validateName namespaceOf
  .ok (claim.spec.region, environment, deploymentId, module, name)

def validateKind (toLowercase : String → String) (kind moduleName : String) :
    Except String Unit :=
  if moduleName = kind then .ok ()
  else if toLowercase moduleName = toLowercase kind then
    .error ("Kind " ++ kind ++ " not exist, did you mean " ++ moduleName ++ "?")
  else .error ("Kind " ++ kind ++ " does not exist")

/-! ## Checks against the registry -/

/-- Existing deployments may continue to use a deprecated version. -/
def checkModuleDeprecation (handler : WorkloadHandler) (t : Deployments) (record : ModuleResp)
    (isStack : Bool) (module moduleVersion deploymentId environment : String) :
    Except String Unit :=
  if !record.deprecated then .ok ()
  else do
    match ← handler.getDeployment t deploymentId environment false with
    | some _ => .ok ()
    | none =>
        let reason :=
          match record.deprecatedMessage with
          | some message => "\nReason: " ++ message
          | none => ""
        .error ((if isStack then "Stack" else "Module") ++ " " ++ module ++ " version " ++
          moduleVersion ++ " has been deprecated and cannot be used for new deployments." ++ reason
          ++ "\nPlease use a different version.")

/-- The regular expression by which references are recognised when types are checked. -/
def isReference (conv : Conventions) (s : String) : Bool :=
  s.toList.tails.any fun cs =>
    match readBraces conv cs with
    | some b => b.colons.length == 2 && b.colons'.length == 2
    | none => false

def checkApiVersion (apiVersion : String) : Except String Unit :=
  if apiVersion = "infraweave.io/v1" then .ok ()
  else .error ("Unsupported API version: " ++ apiVersion)

/-- Whether the claim is one of a stack, and the version that it names. -/
def claimedVersion (spec : DeploymentSpec) : Except String (Bool × String) :=
  match spec.moduleVersion, spec.stackVersion with
  | some version, none => .ok (false, version)
  | none, some version => .ok (true, version)
  | some _, some _ =>
      .error "Both moduleVersion and stackVersion are set, only one should be set"
  | none, none =>
      .error "Neither moduleVersion nor stackVersion are set, one should be set"

def claimedTrack (services : Services) (version : String) : Except String String :=
  (services.parsed getVersionTrack version).mapError ("Failed to get track from version: " ++ ·)

/-- The module or stack of a version, which has to exist. -/
def claimedModule (services : Services) (s : RegionStore) (isStack : Bool)
    (module track version : String) : Except String ModuleResp :=
  let label := if isStack then "Stack" else "Module"
  match services.getModuleVersion s module track version with
  | .ok (some record) => .ok record
  | .ok none => .error (label ++ " version does not exist: " ++ version)
  | .error e => .error ("Failed to verify " ++ label ++ " version: " ++ e)

/-! ## Preparation -/

/-- The dependencies of a claim are in its own project, region and environment. -/
def claimDependencies (toLowercase : String → String) (projectId region environment : String)
    (spec : DeploymentSpec) : List Dependency :=
  (spec.dependencies.getD []).map fun d =>
    { projectId, region
      deploymentId := toLowercase d.deploymentId ++ "/" ++ toLowercase d.environment
      environment }

def providedVariables (conv : Conventions) (spec : DeploymentSpec) : Json :=
  if spec.vars.isEmpty then .object [] else Yaml.toJson conv.numberText (.mapping spec.vars)

/-- The variables under the names that Terraform has for them. -/
def terraformVariables (conv : Conventions) (isStack : Bool) (record : ModuleResp)
    (provided : Json) : Json :=
  if isStack then
    flattenAndConvertFirstLevelKeysToSnakeCase conv.toSnakeCase ""
      ((providerVariables record).map TfVariable.name) provided
  else convertFirstLevelKeysToSnakeCase conv.toSnakeCase provided

def validateAndPrepareClaim (services : ClaimServices) (handler : WorkloadHandler)
    (s : RegionStore) (t : Deployments) (claim : DeploymentManifest)
    (environment command : String) (flags : List String) (extraData : Json)
    (referenceFallback : String) : Except String (String × ApiInfraPayloadWithVariables) := do
  checkApiVersion claim.apiVersion
  let (region, environment, deploymentId, module, name) ←
    getDeploymentDetails services.toLowercase environment claim
  let provided := providedVariables services.conv claim.spec
  let (isStack, moduleVersion) ← claimedVersion claim.spec
  let track ← claimedTrack services.registry moduleVersion
  let record ← claimedModule services.registry s isStack module track moduleVersion
  validateKind services.toLowercase claim.kind record.moduleName
  checkModuleDeprecation handler t record isStack module moduleVersion deploymentId environment
  let vars := terraformVariables services.conv isStack record provided
  verifyVariableExistenceAndType (isReference services.conv) record vars
  verifyRequiredVariablesAreSet record vars
  verifyVariableClaimCasing services.conv.toCamelCase claim provided
  let annotations :=
    match claim.metadata.annotations with
    | some annotations => Yaml.toJson services.conv.numberText (.mapping annotations)
    | none => .null
  let payload : ApiInfraPayload :=
    { command, flags
      module := services.toLowercase module
      moduleType := if isStack then "stack" else "module"
      moduleVersion
      moduleTrack := track
      name, environment, deploymentId
      projectId := handler.projectId
      region
      driftDetection := claim.spec.driftDetection.getD .default
      -- No drift check before the request has been carried out.
      nextDriftCheckEpoch := -1
      annotations
      dependencies := claimDependencies services.toLowercase handler.projectId region environment
        claim.spec
      initiatedBy := (services.getUserId.toOption).getD "cli"
      cpu := record.cpu
      memory := record.memory
      reference := claim.spec.reference.getD referenceFallback
      extraData }
  .ok (deploymentId, ⟨payload, vars⟩)

/-- A claim together with all that it is checked against. -/
structure ClaimRequest where
  services : ClaimServices
  handler : WorkloadHandler
  store : RegionStore
  table : Deployments
  claim : DeploymentManifest
  environment : String
  command : String
  flags : List String
  extraData : Json
  referenceFallback : String

namespace ClaimRequest

def prepare (r : ClaimRequest) : Except String (String × ApiInfraPayloadWithVariables) :=
  validateAndPrepareClaim r.services r.handler r.store r.table r.claim r.environment r.command
    r.flags r.extraData r.referenceFallback

/-- The kind in lower case and the name. -/
def deploymentId (r : ClaimRequest) : String :=
  r.services.toLowercase r.claim.kind ++ "/" ++ r.claim.metadata.name

end ClaimRequest

/-! ## Accepted claims -/

theorem isName_of_validateName {name : String} {u : Unit} (h : validateName name = .ok u) :
    isName name = true := by
  unfold validateName at h
  by_cases hname : isName name = true
  · exact hname
  · rw [if_neg hname] at h
    cases h

/-- A deprecated version is accepted for a deployment that there is. -/
theorem existing_of_checkModuleDeprecation {handler : WorkloadHandler} {t : Deployments}
    {record : ModuleResp}
    {isStack : Bool} {module moduleVersion deploymentId environment : String} {u : Unit}
    (h : checkModuleDeprecation handler t record isStack module moduleVersion deploymentId
      environment = .ok u) (hdeprecated : record.deprecated = true) :
    ∃ deployment, handler.getDeployment t deploymentId environment false =
      .ok (some deployment) := by
  unfold checkModuleDeprecation at h
  rw [hdeprecated] at h
  obtain ⟨found, hfound, h⟩ := bind_eq_ok_iff.1
    (show (handler.getDeployment t deploymentId environment false >>= _) = .ok u from h)
  cases found with
  | none => cases h
  | some deployment => exact ⟨deployment, hfound⟩

theorem getVersionTrack_of_claimedTrack {services : Services} {version track : String}
    (h : claimedTrack services version = .ok track) : getVersionTrack version = some track := by
  have hparsed := mapError_eq_ok_iff.1 h
  unfold Services.parsed at hparsed
  cases htrack : getVersionTrack version with
  | none =>
      rw [htrack] at hparsed
      cases hparsed
  | some found =>
      rw [htrack] at hparsed
      exact congrArg some (Except.ok.inj hparsed)

theorem getModuleVersion_of_claimedModule {services : Services} {s : RegionStore}
    {isStack : Bool} {module track version : String} {record : ModuleResp}
    (h : claimedModule services s isStack module track version = .ok record) :
    services.getModuleVersion s module track version = .ok (some record) := by
  unfold claimedModule at h
  cases hfound : services.getModuleVersion s module track version with
  | error e =>
      rw [hfound] at h
      cases h
  | ok found =>
      rw [hfound] at h
      cases found with
      | none => cases h
      | some found => exact congrArg (Except.ok ∘ some) (Except.ok.inj h)

theorem exists_fields_providedVariables (conv : Conventions) (spec : DeploymentSpec) :
    ∃ fields, providedVariables conv spec = .object fields := by
  unfold providedVariables
  by_cases hempty : spec.vars.isEmpty = true
  · exact ⟨[], if_pos hempty⟩
  · exact ⟨_, if_neg hempty⟩

theorem getDeploymentDetails_eq_ok {toLowercase : String → String} {environment : String}
    {claim : DeploymentManifest} {details : String × String × String × String × String}
    (h : getDeploymentDetails toLowercase environment claim = .ok details) :
    isName ("/".intercalate ((Text.split '/' environment).drop 1)) = true ∧
      details = (claim.spec.region, environment,
        toLowercase claim.kind ++ "/" ++ claim.metadata.name, toLowercase claim.kind,
        claim.metadata.name) := by
  simp only [getDeploymentDetails, bind_eq_ok_iff] at h
  obtain ⟨_, hvalid, hdetails⟩ := h
  exact ⟨isName_of_validateName hvalid, (Except.ok.inj hdetails).symm⟩

/-- What an accepted claim has been checked for, and the part of its payload that names the
deployment. -/
structure ClaimRequest.Accepted (r : ClaimRequest) (isStack : Bool) (record : ModuleResp)
    (prepared : ApiInfraPayloadWithVariables) : Prop where
  validNamespace : isName ("/".intercalate ((Text.split '/' r.environment).drop 1)) = true
  version : ∃ moduleVersion track, claimedVersion r.claim.spec = .ok (isStack, moduleVersion) ∧
    getVersionTrack moduleVersion = some track ∧
    r.services.registry.getModuleVersion r.store (r.services.toLowercase r.claim.kind) track
      moduleVersion = .ok (some record)
  vars : prepared.vars = terraformVariables r.services.conv isStack record
    (providedVariables r.services.conv r.claim.spec)
  types : verifyVariableExistenceAndType (isReference r.services.conv) record prepared.vars = .ok ()
  required : verifyRequiredVariablesAreSet record prepared.vars = .ok ()
  projectId : prepared.payload.projectId = r.handler.projectId
  region : prepared.payload.region = r.claim.spec.region
  environment : prepared.payload.environment = r.environment
  deploymentId : prepared.payload.deploymentId = r.deploymentId

theorem ClaimRequest.accepted {r : ClaimRequest} {deploymentId : String}
    {prepared : ApiInfraPayloadWithVariables} (h : r.prepare = .ok (deploymentId, prepared)) :
    ∃ isStack record, r.Accepted isStack record prepared := by
  simp only [prepare, validateAndPrepareClaim, bind_eq_ok_iff] at h
  obtain ⟨_, -, details, hdetails, ⟨isStack, moduleVersion⟩, hversion, track, htrack, record, hrecord,
    _, -, _, -, _, htypes, _, hrequired, _, -, heq⟩ := h
  obtain ⟨hnamespace, rfl⟩ := getDeploymentDetails_eq_ok hdetails
  obtain ⟨rfl, rfl⟩ := Prod.mk.inj (Except.ok.inj heq)
  have hfound := getModuleVersion_of_claimedModule hrecord
  exact ⟨isStack, record,
    { validNamespace := hnamespace
      version := ⟨moduleVersion, track, hversion, getVersionTrack_of_claimedTrack htrack, hfound⟩
      vars := rfl
      types := htypes
      required := hrequired
      projectId := rfl
      region := rfl
      environment := rfl
      deploymentId := rfl }⟩

/-- The module or stack of an accepted claim is the one that the registry has for it. -/
theorem ClaimRequest.Accepted.record_eq {r : ClaimRequest} {isStack isStack' : Bool}
    {record record' : ModuleResp} {prepared : ApiInfraPayloadWithVariables}
    (h : r.Accepted isStack record prepared) {version track : String}
    (hversion : claimedVersion r.claim.spec = .ok (isStack', version))
    (htrack : getVersionTrack version = some track)
    (hrecord : r.services.registry.getModuleVersion r.store (r.services.toLowercase r.claim.kind)
      track version = .ok (some record')) :
    isStack = isStack' ∧ record = record' := by
  obtain ⟨version', track', hversion', htrack', hrecord'⟩ := h.version
  obtain ⟨rfl, rfl⟩ := Prod.mk.inj (Except.ok.inj (hversion'.symm.trans hversion))
  obtain rfl := Option.some.inj (htrack'.symm.trans htrack)
  exact ⟨rfl, Option.some.inj (Except.ok.inj (hrecord'.symm.trans hrecord))⟩

end EnvCommon
end InfraWeave
