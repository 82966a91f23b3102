import InfraWeave.EnvCommon.ApiInfra
import InfraWeave.EnvCommon.Catalogue
import InfraWeave.Lib.InsertionOrder
import Mathlib.Data.String.Basic

/-!
# Examples of modules

The manifest of a module may have examples.  They are checked when the module is published and
stored with their variables in camel case, as a claim spells them.  A claim is checked by other
code, which looks at types and takes other variables for required.
-/

namespace InfraWeave
namespace EnvCommon

/-- An example in the manifest of a module. -/
structure ModuleExample where
  name : String
  description : String
  vars : Yaml

variable (conv : Conventions)

/-! ## Names -/

/-- The name that comes back when a name is converted to camel case and again to snake case. -/
def readBack (name : String) : String :=
  conv.toSnakeCase (conv.toCamelCase name)

def roundtripError (noun examples name : String) : Option String :=
  if name = readBack conv name then none
  else
    some (noun ++ " '" ++ name ++ "' fails roundtrip case conversion: '" ++ name ++ "' -> '" ++
      conv.toCamelCase name ++ "' -> '" ++ readBack conv name ++ "'. " ++ noun ++
      "s must use snake_case naming (e.g., " ++ examples ++
      ") to ensure proper conversion to camelCase for the API.")

def verifyNameRoundtrip (noun examples : String) (names : List String) : Except String Unit :=
  match names.filterMap (roundtripError conv noun examples) with
  | [] => .ok ()
  | errors =>
      .error (noun ++ " name roundtrip verification failed:\n" ++ "\n".intercalate errors)

def verifyVariableNameRoundtrip (tfVariables : List TfVariable) : Except String Unit :=
  verifyNameRoundtrip conv "Variable" "'my_variable', 'user_count'"
    ((tfVariables.filter (!isEnvironmentVariable ·)).map TfVariable.name)

def verifyOutputNameRoundtrip (tfOutputs : List TfOutput) : Except String Unit :=
  verifyNameRoundtrip conv "Output" "'my_output', 'bucket_arn'" (tfOutputs.map TfOutput.name)

/-! ## Environment variables -/

def validExtraEnvironmentVariables : List String :=
  ["INFRAWEAVE_DEPLOYMENT_ID", "INFRAWEAVE_ENVIRONMENT", "INFRAWEAVE_REFERENCE",
   "INFRAWEAVE_MODULE_VERSION", "INFRAWEAVE_MODULE_TYPE", "INFRAWEAVE_MODULE_TRACK",
   "INFRAWEAVE_DRIFT_DETECTION", "INFRAWEAVE_DRIFT_DETECTION_INTERVAL",
   "INFRAWEAVE_GIT_COMMITTER_EMAIL", "INFRAWEAVE_GIT_COMMITTER_NAME",
   "INFRAWEAVE_GIT_ACTOR_USERNAME", "INFRAWEAVE_GIT_ACTOR_PROFILE_URL",
   "INFRAWEAVE_GIT_REPOSITORY_NAME", "INFRAWEAVE_GIT_REPOSITORY_PATH",
   "INFRAWEAVE_GIT_COMMIT_SHA"]

def extraEnvironmentVariableError (extra : List String) (v : TfVariable) : Option String :=
  if v.name ∈ extra ∧ v.default ≠ some (.string "") then
    some ("Extra environment variable " ++ v.name ++ " must set default value to \"\"")
  else if v.name ∈ extra ∧ v.type ≠ .string "string" then
    some ("Extra environment variable " ++ v.name ++ " must be of type string")
  else if isEnvironmentVariable v ∧ v.name ∉ validExtraEnvironmentVariables then
    some ("Extra environment variable " ++ v.name ++ " (starting with \"INFRAWEAVE_\") is not a " ++
      "valid extra environment variable.\nValid extra environment variables are: " ++
      ", ".intercalate validExtraEnvironmentVariables)
  else none

def validateTfExtraEnvironmentVariables (extra : List String) (tfVariables : List TfVariable) :
    Except String Unit :=
  match tfVariables.findSome? (extraEnvironmentVariableError extra) with
  | some e => .error e
  | none => .ok ()

/-- The variables that the check is given have been separated from those it is about. -/
theorem validateTfExtraEnvironmentVariables_separated (vars : List TfVariable) :
    validateTfExtraEnvironmentVariables
      ((vars.filter isEnvironmentVariable).map TfVariable.name)
      (vars.filter (!isEnvironmentVariable ·)) = .ok () := by
  have hnone : (vars.filter (!isEnvironmentVariable ·)).findSome? (extraEnvironmentVariableError
      ((vars.filter isEnvironmentVariable).map TfVariable.name)) = none := by
    refine List.findSome?_eq_none_iff.2 fun v hv => ?_
    have hplain : isEnvironmentVariable v = false := by simpa using (List.mem_filter.1 hv).2
    have hextra : v.name ∉ (vars.filter isEnvironmentVariable).map TfVariable.name := by
      intro hmem
      obtain ⟨w, hw, hname⟩ := List.mem_map.1 hmem
      have hw' : isEnvironmentVariable w = true := (List.mem_filter.1 hw).2
      rw [isEnvironmentVariable, hname, ← isEnvironmentVariable, hplain] at hw'
      cases hw'
    simp [extraEnvironmentVariableError, hextra, hplain]
  rw [validateTfExtraEnvironmentVariables, hnone]

/-! ## Publishing -/

/-- The variables that an example has to give. -/
def isMandatory (v : TfVariable) : Bool :=
  (decide (v.default = some .null) || v.default.isNone) && !v.nullable

def exampleVariableError (tfVariables : List TfVariable) (key : String) (value : Yaml) :
    Option String :=
  if key ≠ conv.toSnakeCase key then
    some ("Example variable " ++ key ++ " is not snake_case like the terraform variable")
  else
    match tfVariables.find? (·.name = key) with
    | none => some ("Example variable " ++ key ++ " does not exist")
    | some tfVariable =>
        match value with
        | .null =>
            if isMandatory tfVariable then
              some ("Required variable " ++ key ++ " is null but mandatory")
            else none
        | _ => none

/-- The first error; a key that is no text ends the process. -/
def firstExampleError (tfVariables : List TfVariable) : YamlMapping → Option (Option String)
  | [] => some none
  | (key, value) :: entries =>
      match key.asStr with
      | none => none
      | some key =>
          match exampleVariableError conv tfVariables key value with
          | some e => some (some e)
          | none => firstExampleError tfVariables entries

/-- Variables that are no mapping end the process. -/
def isAllModuleExampleVariablesValid (tfVariables : List TfVariable) :
    Yaml → Option (Bool × String)
  | .mapping entries =>
      match firstExampleError conv tfVariables entries with
      | none => none
      | some (some e) => some (false, e)
      | some none =>
          match tfVariables.find? fun v =>
            isMandatory v && (YamlMapping.get? v.name entries).isNone with
          | some v => some (false, "Required variable " ++ v.name ++ " is missing")
          | none => some (true, "")
  | _ => none

/-- The keys in camel case; of two that become one, the later one's value stays. -/
def convertModuleExampleVariablesToCamelCase : Yaml → Option Yaml
  | .mapping entries =>
      (entries.mapM fun (entry : YamlKey × Yaml) =>
        entry.1.asStr.map fun key => (conv.toCamelCase key, entry.2)).map fun converted =>
        .mapping (converted.foldl
          (fun m entry => InsertionOrder.upsert (.string entry.1) entry.2 (fun _ => entry.2) m) [])
  | _ => none

/-- What `publish_module_from_zip` reads in the manifest and the zip; `moduleVariables` is what
`publish_module` hands over. -/
structure ModuleContent where
  moduleVariables : Option (List TfVariable)
  /-- The variable blocks, with their names. -/
  variableBlocks : List (String × Except String TfVariable)
  tfOutputs : Except String (List TfOutput)
  tfRequiredProviders : List TfRequiredProvider
  tfLockProviders : List TfLockProvider
  examples : Option (List ModuleExample)

namespace ModuleContent

variable (content : ModuleContent)

def variablesOf (providers : List ProviderResp) : Except ModuleError (List TfVariable) :=
  match content.moduleVariables with
  | some vars => .ok vars
  | none =>
      let providerVariables := providers.flatMap ProviderResp.tfVariables
      ((content.variableBlocks.filter fun block =>
        !(providerVariables.any fun v => v.name.toLower == block.1.toLower)).mapM
          Prod.snd).mapError .other

def parts (name : String) (providers : List ProviderResp) : Except ModuleError ModuleParts := do
  let vars ← content.variablesOf providers
  let tfVariables := vars.filter (!isEnvironmentVariable ·)
  let extra := (vars.filter isEnvironmentVariable).map TfVariable.name
  let tfOutputs ← content.tfOutputs.mapError .other
  if content.tfRequiredProviders = [] then .error (.noRequiredProvidersDefined name)
  else do
    (validateTfExtraEnvironmentVariables extra tfVariables).mapError .other
    (verifyVariableNameRoundtrip conv tfVariables).mapError fun e =>
      .invalidVariableNaming ("Module '" ++ name ++ "': " ++ e)
    (verifyOutputNameRoundtrip conv tfOutputs).mapError fun e =>
      .invalidOutputNaming ("Module '" ++ name ++ "': " ++ e)
    .ok
      { tfVariables := vars
        tfOutputs
        tfRequiredProviders := content.tfRequiredProviders
        tfLockProviders := content.tfLockProviders }

/-- A process that ends has failed. -/
def checkExample (tfVariables : List TfVariable) (example' : ModuleExample) :
    Except ModuleError Unit :=
  match isAllModuleExampleVariablesValid conv tfVariables example'.vars with
  | some (true, _) => .ok ()
  | some (false, error) => .error (.invalidExampleVariable error)
  | none => .error (.other "called `Option::unwrap()` on a `None` value")

def checkExamples (providers : List ProviderResp) : Except ModuleError Unit := do
  let vars ← content.variablesOf providers
  let tfVariables :=
    vars.filter (!isEnvironmentVariable ·) ++ providers.flatMap ProviderResp.tfVariables
  (content.examples.getD []).forM (checkExample conv tfVariables)

end ModuleContent

/-- The source of a module with the checks of its content. -/
def ModuleSource.withContent (source : ModuleSource) (content : ModuleContent) : ModuleSource :=
  { source with
    parts := content.parts conv source.name
    checkExamples := content.checkExamples conv }

/-! ## Claims -/

namespace ModuleExample

variable (e : ModuleExample)

/-- The names of the variables that are given. -/
def names : List String :=
  match e.vars with
  | .mapping entries => entries.filterMap fun entry => entry.1.asStr
  | _ => []

/-- The variables are a mapping of texts. -/
def Gives (entries : List (String × Yaml)) : Prop :=
  e.vars = .mapping (entries.map fun entry => (.string entry.1, entry.2))

def storedVars : YamlMapping :=
  match convertModuleExampleVariablesToCamelCase conv e.vars with
  | some (.mapping entries) => entries
  | _ => []

/-- The variables that a claim with the stored variables gives to Terraform. -/
def claimVars : Json :=
  convertFirstLevelKeysToSnakeCase conv.toSnakeCase
    (Yaml.toJson conv.numberText (.mapping (e.storedVars conv)))

/-- A claim with the stored variables. -/
def claim : DeploymentManifest where
  metadata := ⟨e.name, none⟩
  apiVersion := "infraweave.io/v1"
  kind := ""
  spec :=
    { moduleVersion := none
      stackVersion := none
      region := ""
      reference := none
      vars := e.storedVars conv
      dependencies := none
      driftDetection := none }

end ModuleExample

/-- The checks that a claim of a module goes through. -/
structure PassesChecks (module : ModuleResp) (claim : DeploymentManifest) : Prop where
  casing : verifyVariableClaimCasing conv.toCamelCase claim (providedVariables conv claim.spec) =
    .ok ()
  types : verifyVariableExistenceAndType (isReference conv) module
    (terraformVariables conv false module (providedVariables conv claim.spec)) = .ok ()
  required : verifyRequiredVariablesAreSet module
    (terraformVariables conv false module (providedVariables conv claim.spec)) = .ok ()

def Deployable (module : ModuleResp) (e : ModuleExample) : Prop :=
  ∀ claim : DeploymentManifest, claim.spec.vars = e.storedVars conv → PassesChecks conv module claim

/-! ## What a claim looks at -/

/-- The type does not matter, is that of the value, or is not looked at. -/
def Accepts (v : TfVariable) (value : Json) : Prop :=
  moduleVariableType v.type = "any" ∨ variableValueType value = moduleVariableType v.type ∨
    value.asStr.any (isReference conv) = true ∨ variableValueType value = "null" ∧ v.nullable = true

/-- The variables that may be required: of the providers' the first of each name. -/
def claimedVariables (module : ModuleResp) : List TfVariable :=
  module.tfVariables ++
    ((providerVariables module).insertionSort fun a b => a.name ≤ b.name).destutter
      fun a b => a.name ≠ b.name

def findVariable (module : ModuleResp) (name : String) : Option TfVariable :=
  (module.tfVariables ++ providerVariables module).find? (·.name = name)

def Requires (module : ModuleResp) (name : String) : Prop :=
  ∃ v ∈ claimedVariables module, v.name = name ∧ v.isRequired = true

/-- A claim takes a variable for required that an example may leave out. -/
theorem isRequired_iff (v : TfVariable) :
    v.isRequired = true ↔ isMandatory v = true ∨ v.default = none ∧ v.nullable = true := by
  unfold TfVariable.isRequired isMandatory
  cases hdefault : v.default with
  | none => cases v.nullable <;> simp
  | some value => cases value <;> cases v.nullable <;> simp

theorem mem_of_mem_claimedVariables {module : ModuleResp} {v : TfVariable}
    (h : v ∈ claimedVariables module) : v ∈ module.tfVariables ++ providerVariables module := by
  rcases List.mem_append.1 h with h | h
  · exact List.mem_append_left _ h
  · have hsorted := (List.destutter_sublist _ _).subset h
    exact List.mem_append_right _ ((List.perm_insertionSort _ _).mem_iff.1 hsorted)

section

variable {conv} {module : ModuleResp}

theorem variableError_eq_none_iff {entry : String × Json} :
    variableError (isReference conv) module entry = none ↔
      ∃ v, findVariable module entry.1 = some v ∧ Accepts conv v entry.2 := by
  unfold variableError findVariable
  cases hfind : (module.tfVariables ++ providerVariables module).find? (·.name = entry.1) with
  | none => simp
  | some v =>
      simp only [Accepts, ite_eq_left_iff, reduceCtorEq, imp_false, Decidable.not_not,
        Bool.or_eq_true, Bool.and_eq_true, decide_eq_true_eq, Option.some.injEq, exists_eq_left',
        or_assoc]

theorem verifyVariableClaimCasing_eq_ok_iff {claim : DeploymentManifest}
    {fields : List (String × Json)} :
    verifyVariableClaimCasing conv.toCamelCase claim (.object fields) = .ok () ↔
      ∀ name ∈ OrderedMap.keys fields, conv.toCamelCase name = name := by
  unfold verifyVariableClaimCasing
  dsimp only
  cases hfind : fields.find? fun x => decide (x.1 ≠ conv.toCamelCase x.1) with
  | none =>
      refine iff_of_true rfl fun name hname => ?_
      obtain ⟨entry, hentry, rfl⟩ := List.mem_map.1 hname
      exact Eq.symm (by simpa using List.find?_eq_none.1 hfind entry hentry)
  | some entry =>
      refine iff_of_false (fun h => by cases h) fun h => ?_
      have hne := List.find?_some hfind
      have heq := h entry.1 (List.mem_map_of_mem (List.mem_of_find?_eq_some hfind))
      simp [heq] at hne

theorem verifyVariableExistenceAndType_eq_ok_iff {fields : List (String × Json)} :
    verifyVariableExistenceAndType (isReference conv) module (.object fields) = .ok () ↔
      ∀ entry ∈ fields, ∃ v, findVariable module entry.1 = some v ∧ Accepts conv v entry.2 := by
  unfold verifyVariableExistenceAndType
  simp only [Json.asObject]
  have hnil : fields.filterMap (variableError (isReference conv) module) = [] ↔
      ∀ entry ∈ fields, ∃ v, findVariable module entry.1 = some v ∧ Accepts conv v entry.2 := by
    simp only [List.filterMap_eq_nil_iff, variableError_eq_none_iff]
  cases herrors : fields.filterMap (variableError (isReference conv) module) with
  | nil => exact iff_of_true rfl (hnil.1 herrors)
  | cons e es =>
      refine iff_of_false (fun h => by cases h) fun h => ?_
      rw [hnil.2 h] at herrors
      cases herrors

theorem verifyRequiredVariablesAreSet_eq_ok_iff {vars : Json} :
    verifyRequiredVariablesAreSet module vars = .ok () ↔
      ∀ v ∈ claimedVariables module, v.isRequired = true → (vars.get? v.name).isSome = true := by
  have hnil : ((claimedVariables module).filter fun v =>
      v.isRequired && (vars.get? v.name).isNone) = [] ↔
      ∀ v ∈ claimedVariables module, v.isRequired = true → (vars.get? v.name).isSome = true := by
    simp [List.filter_eq_nil_iff, Option.isSome_iff_ne_none]
  unfold verifyRequiredVariablesAreSet
  dsimp only
  rw [← claimedVariables]
  cases hmissing : (claimedVariables module).filter fun v =>
      v.isRequired && (vars.get? v.name).isNone with
  | nil => exact iff_of_true rfl (hnil.1 hmissing)
  | cons v vs =>
      refine iff_of_false (fun h => by cases h) fun h => ?_
      rw [hnil.2 h] at hmissing
      cases hmissing

end

/-! ## From the manifest to a claim -/

section

variable {conv} {e : ModuleExample} {entries : List (String × Yaml)}

theorem ModuleExample.Gives.names_eq (h : e.Gives entries) : e.names = entries.map Prod.fst := by
  unfold names
  rw [h]
  dsimp only
  rw [List.filterMap_map, ← List.filterMap_eq_map]
  rfl

theorem ModuleExample.Gives.mem_names (h : e.Gives entries) {name : String}
    (hlookup : (YamlMapping.get? name
      (entries.map fun entry => (.string entry.1, entry.2))).isSome = true) : name ∈ e.names := by
  rw [h.names_eq]
  rw [YamlMapping.get?, List.lookup_isSome_iff] at hlookup
  simpa using hlookup

theorem ModuleExample.Gives.storedVars_eq (h : e.Gives entries) :
    e.storedVars conv = (entries.map fun entry =>
      (YamlKey.string (conv.toCamelCase entry.1), entry.2)).foldl
        (fun m entry => InsertionOrder.upsert entry.1 entry.2 (fun _ => entry.2) m) [] := by
  have hmap : (entries.map fun entry => (YamlKey.string entry.1, entry.2)).mapM
      (fun (entry : YamlKey × Yaml) =>
        entry.1.asStr.map fun key => (conv.toCamelCase key, entry.2)) =
      some (entries.map fun entry => (conv.toCamelCase entry.1, entry.2)) := by
    rw [List.mapM_map]
    exact List.mapM_pure
  unfold storedVars convertModuleExampleVariablesToCamelCase
  rw [h]
  simp only [hmap, Option.map_some, List.foldl_map]

theorem firstExampleError_eq_none {tfVariables : List TfVariable} {mapping : YamlMapping}
    (h : firstExampleError conv tfVariables mapping = some none) :
    ∃ entries : List (String × Yaml),
      mapping = entries.map (fun entry => (.string entry.1, entry.2)) ∧
      ∀ entry ∈ entries, exampleVariableError conv tfVariables entry.1 entry.2 = none := by
  induction mapping with
  | nil => exact ⟨[], rfl, by simp⟩
  | cons entry mapping ih =>
      obtain ⟨key, value⟩ := entry
      cases key with
      | string name =>
          simp only [firstExampleError, YamlKey.asStr] at h
          cases herror : exampleVariableError conv tfVariables name value with
          | some error => simp [herror] at h
          | none =>
              rw [herror] at h
              obtain ⟨entries, rfl, hentries⟩ := ih h
              refine ⟨(name, value) :: entries, rfl, fun entry hentry => ?_⟩
              rcases List.mem_cons.1 hentry with rfl | hentry
              · exact herror
              · exact hentries entry hentry
      | _ => simp [firstExampleError, YamlKey.asStr] at h

/-- What is known about an example that has been let through. -/
theorem isAllModuleExampleVariablesValid_cases {tfVariables : List TfVariable} {text : String}
    (h : isAllModuleExampleVariablesValid conv tfVariables e.vars = some (true, text)) :
    (∃ entries, e.Gives entries) ∧
    (∀ name ∈ e.names, ∃ v ∈ tfVariables, v.name = name) ∧
    ∀ v ∈ tfVariables, isMandatory v = true → v.name ∈ e.names := by
  unfold isAllModuleExampleVariablesValid at h
  cases hvars : e.vars with
  | mapping mapping =>
      rw [hvars] at h
      dsimp only at h
      cases hfirst : firstExampleError conv tfVariables mapping with
      | none => simp [hfirst] at h
      | some error =>
          cases error with
          | some error => simp [hfirst] at h
          | none =>
              obtain ⟨entries, rfl, hentries⟩ := firstExampleError_eq_none hfirst
              have hgives : e.Gives entries := hvars
              refine ⟨⟨entries, hgives⟩, fun name hname => ?_, fun v hv hmandatory => ?_⟩
              · rw [hgives.names_eq] at hname
                obtain ⟨entry, hentry, rfl⟩ := List.mem_map.1 hname
                have hnone := hentries entry hentry
                unfold exampleVariableError at hnone
                split at hnone
                · cases hnone
                · cases hfind : tfVariables.find? (·.name = entry.1) with
                  | none => simp [hfind] at hnone
                  | some v =>
                      exact ⟨v, List.mem_of_find?_eq_some hfind,
                        by simpa using List.find?_some hfind⟩
              · simp only [hfirst] at h
                split at h
                · cases h
                · rename_i hmissing
                  have hgiven := List.find?_eq_none.1 hmissing v hv
                  have hlookup : (YamlMapping.get? v.name
                      (entries.map fun entry => (.string entry.1, entry.2))).isSome = true := by
                    simpa [hmandatory, Option.isSome_iff_ne_none] using hgiven
                  exact hgives.mem_names hlookup
  | _ => simp [hvars] at h

theorem fieldsToJson_eq_map (numberText : JsonNumber → String) (mapping : YamlMapping) :
    Yaml.fieldsToJson numberText mapping =
      mapping.map fun entry => (entry.1.text numberText, Yaml.toJson numberText entry.2) := by
  induction mapping with
  | nil => rfl
  | cons entry mapping ih => simp [Yaml.fieldsToJson, ih]

/-- The keys of an object are those of the fields that it is made of. -/
theorem keys_ofFields (fields : List (String × Json)) :
    ∃ fields', Json.ofFields fields = .object fields' ∧
      (fields'.Pairwise fun a b => a.1 < b.1) ∧
      ∀ key, key ∈ OrderedMap.keys fields' ↔ key ∈ fields.map Prod.fst := by
  refine ⟨OrderedMap.collect fields, rfl, OrderedMap.pairwise_collect fields, fun key => ?_⟩
  have hget := Json.get?_ofFields key fields
  change (OrderedMap.collect fields).lookup key = _ at hget
  rw [OrderedMap.mem_keys_iff, ← Option.isSome_iff_exists, hget, List.lookup_isSome_iff]
  simp

theorem providedVariables_stored {spec : DeploymentSpec} (hspec : spec.vars = e.storedVars conv) :
    providedVariables conv spec = Yaml.toJson conv.numberText (.mapping (e.storedVars conv)) := by
  unfold providedVariables
  rw [hspec]
  cases hempty : (e.storedVars conv).isEmpty with
  | false => rfl
  | true =>
      rw [List.isEmpty_iff.1 hempty]
      rfl

variable (conv) in
/-- The keys of the variables as a claim provides them. -/
theorem ModuleExample.Gives.providedKeys (h : e.Gives entries) :
    ∃ fields, Yaml.toJson conv.numberText (.mapping (e.storedVars conv)) = .object fields ∧
      ∀ key, key ∈ OrderedMap.keys fields ↔ ∃ name ∈ e.names, conv.toCamelCase name = key := by
  obtain ⟨fields, hfields, -, hkeys⟩ :=
    keys_ofFields (Yaml.fieldsToJson conv.numberText (e.storedVars conv))
  refine ⟨fields, hfields, fun key => ?_⟩
  have hstored : ∀ yamlKey, yamlKey ∈ (e.storedVars conv).map Prod.fst ↔
      ∃ name ∈ e.names, .string (conv.toCamelCase name) = yamlKey := by
    intro yamlKey
    rw [h.storedVars_eq, InsertionOrder.mem_keys_foldl_upsert (fun _ v => v), h.names_eq]
    simp
  rw [hkeys, fieldsToJson_eq_map, List.map_map]
  constructor
  · intro hmem
    obtain ⟨entry, hentry, rfl⟩ := List.mem_map.1 hmem
    obtain ⟨name, hname, heq⟩ := (hstored entry.1).1 (List.mem_map_of_mem hentry)
    refine ⟨name, hname, ?_⟩
    simp [← heq, YamlKey.text]
  · rintro ⟨name, hname, rfl⟩
    obtain ⟨entry, hentry, heq⟩ := List.mem_map.1 ((hstored _).2 ⟨name, hname, rfl⟩)
    refine List.mem_map.2 ⟨entry, hentry, ?_⟩
    simp [heq, YamlKey.text]

variable (conv) in
/-- The keys of the variables that Terraform is given. -/
theorem ModuleExample.Gives.claimKeys (h : e.Gives entries) :
    ∃ fields, e.claimVars conv = .object fields ∧ (fields.Pairwise fun a b => a.1 < b.1) ∧
      ∀ key, key ∈ OrderedMap.keys fields ↔ ∃ name ∈ e.names, readBack conv name = key := by
  obtain ⟨provided, hprovided, hkeys⟩ := h.providedKeys conv
  obtain ⟨fields, hfields, hsorted, hfieldKeys⟩ :=
    keys_ofFields (provided.map fun entry => (conv.toSnakeCase entry.1, entry.2))
  refine ⟨fields, ?_, hsorted, fun key => ?_⟩
  · unfold ModuleExample.claimVars
    rw [hprovided, ← hfields, convertFirstLevelKeysToSnakeCase]
  · rw [hfieldKeys, List.map_map]
    have hmap : key ∈ provided.map (Prod.fst ∘ fun entry => (conv.toSnakeCase entry.1, entry.2)) ↔
        ∃ camel ∈ OrderedMap.keys provided, conv.toSnakeCase camel = key := by
      simp [OrderedMap.keys]
    rw [hmap]
    simp only [hkeys]
    constructor
    · rintro ⟨camel, ⟨name, hname, rfl⟩, heq⟩
      exact ⟨name, hname, heq⟩
    · rintro ⟨name, hname, heq⟩
      exact ⟨_, ⟨name, hname, rfl⟩, heq⟩

end

/-! ## Examples that can be deployed -/

/-- An example as a claim needs it, beyond what is checked when it is published: its names keep
their spelling in camel case and name what they did in the manifest, its values have the types of
their variables, and it gives what is nullable and has no default. -/
structure Fits (module : ModuleResp) (e : ModuleExample) : Prop where
  spelling : ∀ name ∈ e.names, conv.toCamelCase (conv.toCamelCase name) = conv.toCamelCase name
  names : ∀ name ∈ e.names, readBack conv name = name ∨
    (findVariable module (readBack conv name)).isSome = true ∧
      (Requires module name → ∃ other ∈ e.names, readBack conv other = name)
  types : ∀ name value v, (e.claimVars conv).get? name = some value →
    findVariable module name = some v → Accepts conv v value
  given : ∀ v ∈ claimedVariables module, v.default = none → v.nullable = true →
    ∃ name ∈ e.names, readBack conv name = v.name

section

variable {conv} {module : ModuleResp} {e : ModuleExample}

theorem isSome_findVariable {name : String} :
    (findVariable module name).isSome = true ↔
      ∃ v ∈ module.tfVariables ++ providerVariables module, v.name = name := by
  simp only [findVariable, List.find?_isSome, decide_eq_true_eq]

/-- The three checks of a claim, in terms of the example. -/
theorem passesChecks_iff {entries : List (String × Yaml)} (h : e.Gives entries)
    {claim : DeploymentManifest} (hclaim : claim.spec.vars = e.storedVars conv) :
    PassesChecks conv module claim ↔
      (∀ name ∈ e.names, conv.toCamelCase (conv.toCamelCase name) = conv.toCamelCase name) ∧
      ((∀ name ∈ e.names, (findVariable module (readBack conv name)).isSome = true) ∧
        ∀ name value v, (e.claimVars conv).get? name = some value →
          findVariable module name = some v → Accepts conv v value) ∧
      ∀ v ∈ claimedVariables module, v.isRequired = true →
        ∃ name ∈ e.names, readBack conv name = v.name := by
  obtain ⟨provided, hprovided, hcamel⟩ := h.providedKeys conv
  obtain ⟨fields, hfields, hsorted, hkeys⟩ := h.claimKeys conv
  have hspec : providedVariables conv claim.spec = .object provided :=
    (providedVariables_stored hclaim).trans hprovided
  have hvars : terraformVariables conv false module (providedVariables conv claim.spec) =
      .object fields := by
    rw [providedVariables_stored hclaim, ← hfields]
    rfl
  have hcasing : verifyVariableClaimCasing conv.toCamelCase claim
      (providedVariables conv claim.spec) = .ok () ↔
      ∀ name ∈ e.names, conv.toCamelCase (conv.toCamelCase name) = conv.toCamelCase name := by
    rw [hspec, verifyVariableClaimCasing_eq_ok_iff]
    simp only [hcamel, forall_exists_index, and_imp, forall_apply_eq_imp_iff₂]
  have htypes : verifyVariableExistenceAndType (isReference conv) module (.object fields) =
      .ok () ↔
      (∀ name ∈ e.names, (findVariable module (readBack conv name)).isSome = true) ∧
      ∀ name value v, (e.claimVars conv).get? name = some value →
        findVariable module name = some v → Accepts conv v value := by
    rw [verifyVariableExistenceAndType_eq_ok_iff, hfields]
    simp only [Prod.forall, OrderedMap.mem_iff_lookup hsorted, Json.get?_object]
    constructor
    · intro hall
      refine ⟨fun name hname => ?_, fun name value v hvalue hfind => ?_⟩
      · obtain ⟨value, hvalue⟩ := OrderedMap.mem_keys_iff.1 ((hkeys _).2 ⟨name, hname, rfl⟩)
        obtain ⟨v, hfind, -⟩ := hall _ value hvalue
        rw [hfind]
        rfl
      · obtain ⟨v', hfind', haccepts⟩ := hall name value hvalue
        rw [hfind] at hfind'
        exact Option.some.inj hfind' ▸ haccepts
    · rintro ⟨hknown, haccepts⟩ key value hvalue
      obtain ⟨name, hname, rfl⟩ := (hkeys key).1 (OrderedMap.mem_keys_iff.2 ⟨value, hvalue⟩)
      obtain ⟨v, hfind⟩ := Option.isSome_iff_exists.1 (hknown name hname)
      exact ⟨v, hfind, haccepts _ value v hvalue hfind⟩
  have hrequired : verifyRequiredVariablesAreSet module (.object fields) = .ok () ↔
      ∀ v ∈ claimedVariables module, v.isRequired = true →
        ∃ name ∈ e.names, readBack conv name = v.name := by
    rw [verifyRequiredVariablesAreSet_eq_ok_iff]
    simp only [Json.get?_object, Option.isSome_iff_exists, ← OrderedMap.mem_keys_iff, hkeys]
  rw [← hcasing, ← htypes, ← hrequired, ← hvars]
  exact ⟨fun h => ⟨h.casing, h.types, h.required⟩, fun h => ⟨h.1, h.2.1, h.2.2⟩⟩

/-- An example that has been let through can be deployed if and only if it fits. -/
theorem deployable_iff_fits {text : String}
    (h : isAllModuleExampleVariablesValid conv (module.tfVariables ++ providerVariables module)
      e.vars = some (true, text)) : Deployable conv module e ↔ Fits conv module e := by
  obtain ⟨⟨entries, hgives⟩, hknown, hmandatory⟩ := isAllModuleExampleVariablesValid_cases h
  constructor
  · intro hdeployable
    obtain ⟨hspelling, ⟨hfound, htypes⟩, hrequired⟩ :=
      (passesChecks_iff hgives rfl).1 (hdeployable (e.claim conv) rfl)
    refine ⟨hspelling, fun name hname => Or.inr ⟨hfound name hname, ?_⟩, htypes,
      fun v hv hdefault hnullable => ?_⟩
    · rintro ⟨v, hv, rfl, hrequires⟩
      exact hrequired v hv hrequires
    · exact hrequired v hv ((isRequired_iff v).2 (Or.inr ⟨hdefault, hnullable⟩))
  · intro hfits claim hclaim
    refine (passesChecks_iff hgives hclaim).2 ⟨hfits.spelling, ⟨fun name hname => ?_, hfits.types⟩,
      fun v hv hrequires => ?_⟩
    · rcases hfits.names name hname with hsame | ⟨hfound, -⟩
      · rw [hsame]
        exact isSome_findVariable.2 (hknown name hname)
      · exact hfound
    · rcases (isRequired_iff v).1 hrequires with hmand | ⟨hdefault, hnullable⟩
      · have hname := hmandatory v (mem_of_mem_claimedVariables hv) hmand
        rcases hfits.names v.name hname with hsame | ⟨-, hother⟩
        · exact ⟨v.name, hname, hsame⟩
        · exact hother ⟨v, hv, rfl, hrequires⟩
      · exact hfits.given v hv hdefault hnullable

end

/-! ## Published examples -/

section

variable (services : Services) (reg : Registry) (handler : GenericCloudHandler)
  (source : ModuleSource) (content : ModuleContent) (track : String)

/-- The publish of a module with its content has been accepted, and this is its record. -/
structure Publishes (record : ModuleResp) : Prop where
  accepted : (publishModuleFromZip services reg handler (source.withContent conv content)
    track).result = .ok ()
  offers : (Publish.directModule (source.withContent conv content) track).Offers services
    (reg handler.region) (.module .module record)

/-- All examples of a module that is published can be deployed. -/
def ExamplesDeployable : Prop :=
  ∀ record, Publishes conv services reg handler source content track record →
    ∀ e ∈ content.examples.getD [], Deployable conv record e

section

variable {conv services reg handler source content track}

theorem parts_tfVariables {name : String} {providers : List ProviderResp} {parts : ModuleParts}
    (h : content.parts conv name providers = .ok parts) :
    content.variablesOf providers = .ok parts.tfVariables := by
  unfold ModuleContent.parts at h
  obtain ⟨vars, hvars, h⟩ := bind_eq_ok_iff.1 h
  obtain ⟨tfOutputs, -, h⟩ := bind_eq_ok_iff.1 h
  split at h
  · cases h
  · obtain ⟨_, -, h⟩ := bind_eq_ok_iff.1 h
    obtain ⟨_, -, h⟩ := bind_eq_ok_iff.1 h
    obtain ⟨_, -, h⟩ := bind_eq_ok_iff.1 h
    rw [hvars, ← Except.ok.inj h]

/-- A publish that is accepted has let all examples through. -/
theorem Publishes.checked {record : ModuleResp}
    (h : Publishes conv services reg handler source content track record) {e : ModuleExample}
    (he : e ∈ content.examples.getD []) :
    ∃ text, isAllModuleExampleVariablesValid conv
      (record.tfVariables ++ providerVariables record) e.vars = some (true, text) := by
  obtain ⟨version, padded, providers, parts, hversion, hproviders, hparts, -, -, hrecord⟩ :=
    h.offers
  injection hrecord with _ hrecord
  obtain ⟨providers', hproviders', hrest⟩ := Outcome.result_bind_eq_ok.1 h.accepted
  obtain rfl : providers = providers' := Except.ok.inj (hproviders.symm.trans hproviders')
  split at hrest
  · cases hrest
  · obtain ⟨_, -, hrest⟩ := Outcome.result_bind_eq_ok.1 hrest
    split at hrest
    · cases hrest
    · obtain ⟨_, -, hrest⟩ := Outcome.result_bind_eq_ok.1 hrest
      obtain ⟨_, hexamples, -⟩ := Outcome.result_bind_eq_ok.1 hrest
      obtain ⟨vars, hvars, hexamples⟩ := bind_eq_ok_iff.1 hexamples
      obtain rfl : parts.tfVariables = vars :=
        Except.ok.inj ((parts_tfVariables hparts).symm.trans hvars)
      have hchecked := forM_eq_ok_iff.1 hexamples e he
      rw [hrecord]
      unfold ModuleContent.checkExample at hchecked
      split at hchecked
      · rename_i text hvalid
        exact ⟨text, hvalid⟩
      · cases hchecked
      · cases hchecked

end

/-- The examples of a published module can be deployed if and only if each of them fits. -/
theorem examplesDeployable_iff :
    ExamplesDeployable conv services reg handler source content track ↔
      ∀ record, Publishes conv services reg handler source content track record →
        ∀ e ∈ content.examples.getD [], Fits conv record e := by
  constructor
  · intro h record hrecord e he
    obtain ⟨text, hvalid⟩ := hrecord.checked he
    exact (deployable_iff_fits hvalid).1 (h record hrecord e he)
  · intro h record hrecord e he
    obtain ⟨text, hvalid⟩ := hrecord.checked he
    exact (deployable_iff_fits hvalid).2 (h record hrecord e he)

end

/-! ## A variable without a default -/

def regionalProvider : ProviderResp where
  name := "aws-5"
  version := "0.1.0"
  timestamp := "2025-01-01T00:00:00Z"
  description := ""
  reference := ""
  manifest := .object []
  tfVariables := []
  tfExtraEnvironmentVariables := []
  s3Key := zipKey "aws-5" "0.1.0"

def providerRegistry : Registry := fun _ =>
  (providerPuts regionalProvider "000.001.000").foldl RegionStore.put .empty

/-- `variable "bucket_name" { type = string }`: Terraform's default is that null is allowed. -/
def bucketName : TfVariable where
  name := "bucket_name"
  type := .string "string"
  default := none
  description := ""
  nullable := true
  sensitive := false

def bucketContent : ModuleContent where
  moduleVariables := some [bucketName]
  variableBlocks := []
  tfOutputs := .ok []
  tfRequiredProviders := [⟨"aws", "~> 5.0", "hashicorp/aws"⟩]
  tfLockProviders := []
  examples := some [⟨"simple", "A bucket", .mapping []⟩]

def bucketSource : ModuleSource where
  name := "bucket"
  moduleName := "Bucket"
  version := some "0.1.0-dev"
  description := ""
  reference := ""
  manifest := .object []
  providers := ["aws-5"]
  cpu := "256"
  memory := "512"
  timestamp := "2025-01-01T00:00:00Z"
  ociArtifactSet := none
  zipBase64 := "YQ=="
  parts _ := .error (.other "")
  checkExamples _ := .ok ()

def bucketParts : ModuleParts :=
  ⟨[bucketName], [], [⟨"aws", "~> 5.0", "hashicorp/aws"⟩], []⟩

def bucketRecord : ModuleResp :=
  bucketSource.record "dev" "0.1.0-dev" "000.001.000-dev" [regionalProvider] bucketParts

theorem bucket_publishes : Publishes asciiConventions localServices providerRegistry localHandler
    bucketSource bucketContent "dev" bucketRecord where
  accepted := by decide +kernel
  offers := ⟨"0.1.0-dev", "000.001.000-dev", [regionalProvider], bucketParts, rfl,
    by decide +kernel, rfl, by decide +kernel, by decide +kernel, rfl⟩

/-- The example leaves out a variable that a claim has to set. -/
theorem not_examplesDeployable_bucket :
    ¬ ExamplesDeployable asciiConventions localServices providerRegistry localHandler bucketSource
      bucketContent "dev" := by
  intro h
  let e : ModuleExample := ⟨"simple", "A bucket", .mapping []⟩
  have hpasses := h bucketRecord bucket_publishes e List.mem_cons_self (e.claim asciiConventions) rfl
  have hrequired := hpasses.required
  revert hrequired
  decide +kernel

end EnvCommon
end InfraWeave
