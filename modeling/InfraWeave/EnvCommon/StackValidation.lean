import InfraWeave.EnvCommon.ApiInfra
import InfraWeave.EnvCommon.VersionGuards
import InfraWeave.Lib.DepthFirst

/-!
# Validation of the claims of a stack

`validate_claim_modules` takes the claims of a stack with the modules that they name.  Names, regions
and variables are checked claim by claim; then the references in double braces are to lead to other
claims, without a cycle.
-/

namespace InfraWeave
namespace EnvCommon

open Text

/-- A claim of a stack with its module.  The namespace of the metadata is only looked at here. -/
structure StackClaim where
  claim : DeploymentManifest
  namespaced : Option String
  module : ModuleResp

namespace StackClaim

def name (c : StackClaim) : String := c.claim.metadata.name

end StackClaim

/-- The kind, the claim and the field of a reference, the field in snake case. -/
structure FieldReference where
  kind : String
  claim : String
  field : String
  deriving DecidableEq

/-- `Stack::variables::…` is a variable of the stack itself. -/
def FieldReference.isStackVariable (r : FieldReference) : Bool :=
  r.kind = "Stack" && r.claim = "variables"

section

variable (conv : Conventions)

/-! ## References -/

/-- A reference at the start of a text, its names joined by two colons each. -/
def readReference (cs : List Char) : Option Braces :=
  (readBraces conv cs).filter fun b => b.colons = [':', ':'] && b.colons' = [':', ':']

/-- The matches from left to right; `skip` characters of a match are still to be passed. -/
def capturesFrom : List Char → Nat → List Braces
  | [], _ => []
  | _ :: cs, skip + 1 => capturesFrom cs skip
  | c :: cs, 0 =>
      match readReference conv (c :: cs) with
      | some b => b :: capturesFrom cs (b.chars.length - 1)
      | none => capturesFrom cs 0

def references (s : String) : List FieldReference :=
  (capturesFrom conv s.toList 0).map fun b =>
    ⟨.ofList b.kind, .ofList b.claim, conv.toSnakeCase (.ofList b.field)⟩

/-- The references of a value that is a text; other values have none. -/
def textReferences (value : Json) : List FieldReference :=
  match value.asStr with
  | some s => references conv s
  | none => []

/-- Texts are looked for in a variable and one level below it. -/
def extractTopLevelDeps (vars : Json) : List FieldReference :=
  (vars.asObject.getD []).flatMap fun (_, value) =>
    match value with
    | .array items => items.flatMap (textReferences conv)
    | .object fields => fields.flatMap fun (_, nested) => textReferences conv nested
    | value => textReferences conv value

/-- `convert_vars_to_snake_json`. -/
def snakeVariables (c : StackClaim) : Json :=
  convertFirstLevelKeysToSnakeCase conv.toSnakeCase (providedVariables conv c.claim.spec)

def claimReferences (c : StackClaim) : List FieldReference :=
  (extractTopLevelDeps conv (snakeVariables conv c)).filter (!·.isStackVariable)

/-! ## Dependencies -/

/-- The module of a claim, that of the last one for a name that comes twice. -/
def moduleOf (claims : List StackClaim) (name : String) : Option ModuleResp :=
  (claims.reverse.find? (·.name = name)).map StackClaim.module

def claimReferenceExists (claims : List StackClaim) (r : FieldReference) : Bool :=
  match moduleOf claims r.claim with
  | some m =>
      (m.tfOutputs.any (·.name = r.field) || m.tfVariables.any (·.name = r.field)) &&
        m.moduleName = r.kind
  | none => false

def checkReference (claims : List StackClaim) (c : StackClaim) (r : FieldReference) :
    Except ModuleError Unit :=
  if c.name = r.claim ∧ c.claim.kind = r.kind then
    .error (.selfReferencingClaim c.claim.kind c.name (conv.toCamelCase r.field))
  else if claimReferenceExists claims r then .ok ()
  else
    .error (.stackClaimReferenceNotFound c.name r.kind r.claim (conv.toCamelCase r.field))

/-- The claims that the variables of the claims of a name refer to. -/
def dependencyGraph (claims : List StackClaim) (name : String) : List String :=
  (claims.filter (·.name = name)).flatMap fun c =>
    ((claimReferences conv c).map FieldReference.claim).filter fun dep =>
      (moduleOf claims dep).isSome

def checkReferences (claims : List StackClaim) (c : StackClaim) : Except ModuleError Unit :=
  (claimReferences conv c).forM (checkReference conv claims c)

def validateDependencies (claims : List StackClaim) : Except ModuleError Unit := do
  claims.forM (checkReferences conv claims)
  match DepthFirst.detectCycle (dependencyGraph conv claims)
      (conv.hashOrder (claims.map StackClaim.name)) with
  | some cycle => .error (.circularDependency cycle)
  | none => .ok ()

/-! ## Claims -/

/-- The names that have come before. -/
def duplicates : List String → List String → List String
  | _, [] => []
  | seen, name :: names =>
      if name ∈ seen then name :: duplicates seen names else duplicates (name :: seen) names

def checkUniqueNames (claims : List StackClaim) : Except ModuleError Unit :=
  match duplicates [] (claims.map StackClaim.name) with
  | [] => .ok ()
  | name :: _ => .error (.duplicateClaimNames name)

def validateStackModuleClaimName (c : StackClaim) : Except ModuleError Unit :=
  if isClaimName c.name then .ok ()
  else .error (.validationError ("Claim name " ++ c.name ++
    " must only use lowercase characters and numbers."))

def validateStackModuleClaimRegionIsNa (c : StackClaim) : Except ModuleError Unit :=
  if c.claim.spec.region.map Char.toUpper = "N/A" then .ok ()
  else .error (.validationError ("Claim " ++ c.name ++ " has the region \"" ++
    c.claim.spec.region ++ "\" but the value must be set to \"N/A\" when used inside stacks, " ++
    "since this value is overridden by the Stacks region parameter when deployed."))

def checkModuleVersionSet (c : StackClaim) : Except ModuleError Unit :=
  match c.claim.spec.moduleVersion with
  | some _ => .ok ()
  | none => .error (.moduleVersionNotSet c.name)

def checkNoNamespace (c : StackClaim) : Except ModuleError Unit :=
  match c.namespaced with
  | some _ => .error (.stackModuleNamespaceIsSet c.name)
  | none => .ok ()

def validateStackClaim (c : StackClaim) : Except ModuleError Unit := do
  (verifyVariableClaimCasing conv.toCamelCase c.claim
    (providedVariables conv c.claim.spec)).mapError .other
  (verifyVariableExistenceAndType (isReference conv) c.module
    (snakeVariables conv c)).mapError .other
  checkModuleVersionSet c
  validateStackModuleClaimName c
  validateStackModuleClaimRegionIsNa c
  checkNoNamespace c

def validateClaimModules (claims : List StackClaim) : Except ModuleError Unit := do
  checkUniqueNames claims
  claims.forM (validateStackClaim conv)
  validateDependencies conv claims

end

/-! ## Accepted claims -/

theorem nodup_of_duplicates {seen names : List String} (h : duplicates seen names = []) :
    names.Nodup ∧ ∀ name ∈ names, name ∉ seen := by
  induction names generalizing seen with
  | nil => exact ⟨List.nodup_nil, fun name hname => by cases hname⟩
  | cons name names ih =>
      unfold duplicates at h
      by_cases hseen : name ∈ seen
      · rw [if_pos hseen] at h
        cases h
      · rw [if_neg hseen] at h
        obtain ⟨hnodup, hfresh⟩ := ih h
        refine ⟨List.nodup_cons.2 ⟨fun hmem => hfresh name hmem List.mem_cons_self, hnodup⟩, ?_⟩
        intro other hother
        rcases List.mem_cons.1 hother with rfl | hother
        · exact hseen
        · exact fun hmem => hfresh other hother (List.mem_cons_of_mem _ hmem)

/-- What an accepted list of claims has been checked for. -/
structure Accepted (conv : Conventions) (claims : List StackClaim) : Prop where
  distinct : (claims.map StackClaim.name).Nodup
  names : ∀ c ∈ claims, isClaimName c.name = true
  references : ∀ c ∈ claims, ∀ r ∈ claimReferences conv c, checkReference conv claims c r = .ok ()
  acyclic : DepthFirst.detectCycle (dependencyGraph conv claims)
    (conv.hashOrder (claims.map StackClaim.name)) = none

theorem accepted_of_validateClaimModules {conv : Conventions} {claims : List StackClaim}
    (h : validateClaimModules conv claims = .ok ()) : Accepted conv claims := by
  obtain ⟨_, hunique, h⟩ := bind_eq_ok_iff.1 h
  obtain ⟨_, hclaims, h⟩ := bind_eq_ok_iff.1 h
  obtain ⟨_, hreferences, hcycle⟩ := bind_eq_ok_iff.1 h
  refine ⟨?_, fun c hc => ?_, fun c hc => ?_, ?_⟩
  · unfold checkUniqueNames at hunique
    cases hduplicates : duplicates [] (claims.map StackClaim.name) with
    | nil => exact (nodup_of_duplicates hduplicates).1
    | cons name rest =>
        rw [hduplicates] at hunique
        cases hunique
  · have hvalid := forM_eq_ok_iff.1 hclaims c hc
    simp only [validateStackClaim, bind_eq_ok_iff] at hvalid
    obtain ⟨_, -, _, -, _, -, _, hname, -⟩ := hvalid
    unfold validateStackModuleClaimName at hname
    by_contra hnot
    rw [if_neg hnot] at hname
    cases hname
  · exact forM_eq_ok_iff.1 (forM_eq_ok_iff.1 hreferences c hc)
  · cases hfound : DepthFirst.detectCycle (dependencyGraph conv claims)
        (conv.hashOrder (claims.map StackClaim.name)) with
    | none => rfl
    | some cycle =>
        rw [hfound] at hcycle
        cases hcycle

end EnvCommon
end InfraWeave
