import InfraWeave.Defs.Deployment
import InfraWeave.Defs.Module
import InfraWeave.Lib.Fallible
import InfraWeave.Lib.Text
import Mathlib.Data.List.Destutter
import Mathlib.Data.List.Sort

/-!
# Variables of a claim

A claim spells its variables in camel case, and Terraform in snake case.  The variables of a stack
are grouped by the claims of the stack, and flattened before they are given to Terraform.
-/

namespace InfraWeave

/-! ## Conversion -/

section

variable (toSnakeCase : String → String)

mutual

/-- Nested levels keep their keys. -/
def convertFirstLevelKeysToSnakeCase : Json → Json
  | .object fields => .ofFields (fields.map fun (key, value) => (toSnakeCase key, value))
  | .array items => .array (convertItemsToSnakeCase items)
  | value => value

def convertItemsToSnakeCase : List Json → List Json
  | [] => []
  | item :: items => convertFirstLevelKeysToSnakeCase item :: convertItemsToSnakeCase items

end

/-- What one variable of the claim is flattened to. -/
def flattenEntry (start : String) (dontFlatten : List String) (entry : String × Json) :
    List (String × Json) :=
  let snakeCaseKey := toSnakeCase entry.1
  if entry.1 ∈ dontFlatten then [(snakeCaseKey, entry.2)]
  else
    match entry.2 with
    | .object children =>
        children.map fun (childKey, childValue) =>
          let newKey := snakeCaseKey ++ "__" ++ toSnakeCase childKey
          (if start.isEmpty then newKey else start ++ "__" ++ newKey, childValue)
    | value => [(if start.isEmpty then snakeCaseKey else start ++ "__" ++ snakeCaseKey, value)]

def flattenAndConvertFirstLevelKeysToSnakeCase (start : String) (dontFlatten : List String) :
    Json → Json
  | .object fields => .ofFields (fields.flatMap (flattenEntry toSnakeCase start dontFlatten))
  | _ => .object []

end

/-! ## Checks -/

def verifyVariableClaimCasing (toCamelCase : String → String) (claim : DeploymentManifest)
    (providedVariables : Json) : Except String Unit :=
  match providedVariables with
  | .object fields =>
      match fields.find? fun (name, _) => name ≠ toCamelCase name with
      | some (name, _) =>
          .error ("Variable name casing mismatch in claim '" ++ claim.metadata.name ++
            "': Provided '" ++ name ++ "', expected '" ++ toCamelCase name ++ "'")
      | none => .ok ()
  | _ => .ok ()

def providerVariables (module : ModuleResp) : List TfVariable :=
  module.tfProviders.flatMap ProviderResp.tfVariables

def variableValueType : Json → String
  | .string _ => "string"
  | .number _ => "number"
  | .bool _ => "bool"
  | .array _ => "list"
  | .null => "null"
  | .object _ => "object"

def moduleVariableType : Json → String
  | .string type =>
      if (Text.stripPrefix "map(" type).isSome || (Text.stripPrefix "object(" type).isSome then
        "object"
      else if (Text.stripPrefix "list(" type).isSome || (Text.stripPrefix "set(" type).isSome then
        "list"
      else type
  | type => variableValueType type

/-- The type of a reference is not known yet, so it is not compared. -/
def variableError (isReference : String → Bool) (module : ModuleResp) (entry : String × Json) :
    Option String :=
  match (module.tfVariables ++ providerVariables module).find? (·.name = entry.1) with
  | some moduleVariable =>
      let valueType := variableValueType entry.2
      let expected := moduleVariableType moduleVariable.type
      if expected = "any" || valueType = expected || (entry.2.asStr.any isReference) ||
          (valueType = "null" && moduleVariable.nullable) then none
      else
        some ("Variable \"" ++ entry.1 ++ "\" is of type " ++ valueType ++ " but should be of type "
          ++ expected)
  | none =>
      some ("Variable \"" ++ entry.1 ++ "\" not found in this " ++ module.moduleType ++
        " version (" ++ module.version ++
        "). Please check the documentation for available variables")

def verifyVariableExistenceAndType (isReference : String → Bool) (module : ModuleResp)
    (vars : Json) : Except String Unit :=
  match vars.asObject with
  | none => .error "Expected variables to be a JSON object"
  | some fields =>
      match fields.filterMap (variableError isReference module) with
      | [] => .ok ()
      | errors => .error ("; ".intercalate errors)

/-- A default that is not null, or a null default where null is allowed. -/
def TfVariable.isRequired (v : TfVariable) : Bool :=
  match v.default with
  | none => true
  | some .null => !v.nullable
  | some _ => false

def verifyRequiredVariablesAreSet (module : ModuleResp) (vars : Json) : Except String Unit :=
  let providerVariables :=
    ((providerVariables module).insertionSort fun a b => a.name ≤ b.name).destutter
      fun a b => a.name ≠ b.name
  let missing := (module.tfVariables ++ providerVariables).filter fun v =>
    v.isRequired && (vars.get? v.name).isNone
  match missing with
  | [] => .ok ()
  | missing =>
      let plural := if missing.length > 1 then "s" else ""
      .error ("Missing required variable" ++ plural ++ ": \"" ++
        "\", \"".intercalate (missing.map TfVariable.name) ++ "\"")

end InfraWeave
