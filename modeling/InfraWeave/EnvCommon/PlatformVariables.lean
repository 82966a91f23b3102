import InfraWeave.EnvCommon.ModuleExamples

/-!
# Variables of the platform

A module may declare variables that start with `INFRAWEAVE_`.  A claim does not set them: the
runner gives those it knows to Terraform, and Terraform takes the default of the others.
-/

namespace InfraWeave
namespace EnvCommon

/-! ## What the runner gives -/

structure User where
  email : String
  name : String
  username : String
  profileUrl : String

/-- Of a check run on GitHub what variables are made of. -/
structure GitHubCheckRun where
  user : User
  fullName : String
  filePath : String
  headSha : String

structure GitLabCheckRun where
  filePath : String

inductive ExtraData where
  | gitHub (githubData : GitHubCheckRun)
  | gitLab (gitlabData : GitLabCheckRun)
  | none

/-- What is read of the payload of a job. -/
structure JobData where
  deploymentId : String
  environment : String
  reference : String
  moduleVersion : String
  moduleType : String
  moduleTrack : String
  driftDetection : DriftDetection
  extraData : ExtraData

section

variable (deunicode : String → String) (allowUnicode : Bool)

def gitVariables : ExtraData → List (String × String)
  | .gitHub githubData =>
      [("INFRAWEAVE_GIT_COMMITTER_EMAIL", githubData.user.email),
       ("INFRAWEAVE_GIT_COMMITTER_NAME",
        if allowUnicode then githubData.user.name else deunicode githubData.user.name),
       ("INFRAWEAVE_GIT_ACTOR_USERNAME", githubData.user.username),
       ("INFRAWEAVE_GIT_ACTOR_PROFILE_URL", githubData.user.profileUrl),
       ("INFRAWEAVE_GIT_REPOSITORY_NAME", githubData.fullName),
       ("INFRAWEAVE_GIT_REPOSITORY_PATH", githubData.filePath),
       ("INFRAWEAVE_GIT_COMMIT_SHA", githubData.headSha)]
  | .gitLab gitlabData => [("INFRAWEAVE_GIT_REPOSITORY_PATH", gitlabData.filePath)]
  | .none => []

/-- The entries of a hash map; no name is given twice. -/
def getExtraEnvironmentVariablesAll (job : JobData) : List (String × String) :=
  [("INFRAWEAVE_DEPLOYMENT_ID", job.deploymentId),
   ("INFRAWEAVE_ENVIRONMENT", job.environment),
   ("INFRAWEAVE_REFERENCE", job.reference),
   ("INFRAWEAVE_MODULE_VERSION", job.moduleVersion),
   ("INFRAWEAVE_MODULE_TYPE", job.moduleType),
   ("INFRAWEAVE_MODULE_TRACK", job.moduleTrack),
   ("INFRAWEAVE_DRIFT_DETECTION", if job.driftDetection.enabled then "enabled" else "disabled"),
   ("INFRAWEAVE_DRIFT_DETECTION_INTERVAL",
    if job.driftDetection.enabled then job.driftDetection.interval else "N/A")] ++
    gitVariables deunicode allowUnicode job.extraData

/-- The names are supported ones, and they come in the order in which these are listed. -/
theorem names_getExtraEnvironmentVariablesAll (job : JobData) :
    (OrderedMap.keys (getExtraEnvironmentVariablesAll deunicode allowUnicode job)).Sublist
      validExtraEnvironmentVariables := by
  rcases job with ⟨_, _, _, _, _, _, _, extraData⟩
  cases extraData with
  | gitHub githubData => exact List.Sublist.refl _
  | gitLab gitlabData =>
      change (validExtraEnvironmentVariables.take 8 ++ ["INFRAWEAVE_GIT_REPOSITORY_PATH"]).Sublist _
      decide
  | none =>
      change (validExtraEnvironmentVariables.take 8).Sublist _
      exact List.take_sublist _ _

/-- Nothing is given for a name that is not supported. -/
theorem lookup_getExtraEnvironmentVariablesAll {job : JobData} {name : String}
    (h : name ∉ validExtraEnvironmentVariables) :
    (getExtraEnvironmentVariablesAll deunicode allowUnicode job).lookup name = none := by
  by_contra hsome
  have hgiven : ∃ text,
      (getExtraEnvironmentVariablesAll deunicode allowUnicode job).lookup name = some text :=
    Option.ne_none_iff_exists'.1 hsome
  have hname := OrderedMap.mem_keys_iff.2 hgiven
  exact h ((names_getExtraEnvironmentVariablesAll deunicode allowUnicode job).subset hname)

end

/-- What Terraform takes for a variable that is not set by the user: the text of the environment
variable `TF_VAR_{name}`, else the default. -/
def terraformValue (supplied : List (String × String)) (v : TfVariable) : Option Json :=
  match supplied.lookup v.name with
  | some text => some (.string text)
  | none => v.default

/-! ## Names of a claim -/

section

variable {conv : Conventions}

/-- The name does not start with a capital. -/
def StartsSmall (name : String) : Prop :=
  ∀ c, name.toList.head? = some c → c.isUpper = false

theorem not_isEnvironmentVariable_of_startsSmall {v : TfVariable} (h : StartsSmall v.name) :
    isEnvironmentVariable v = false := by
  rw [Bool.eq_false_iff]
  intro henv
  obtain ⟨rest, hrest⟩ := List.isPrefixOf_iff_prefix.1 henv
  have hhead : v.name.toList.head? = some 'I' := by
    rw [← hrest]
    rfl
  exact absurd (h 'I' hhead) (by decide)

theorem StartsSmall.append {name rest : String} (h : StartsSmall name) (hrest : StartsSmall rest) :
    StartsSmall (name ++ rest) := by
  intro c hc
  rw [String.toList_append] at hc
  cases hname : name.toList with
  | nil =>
      rw [hname] at hc
      exact hrest c hc
  | cons d ds =>
      rw [hname] at hc
      exact h c (by rw [hname]; exact hc)

theorem get?_ofFields_eq_none {fields : List (String × Json)} {v : TfVariable}
    (hv : isEnvironmentVariable v = true) (h : ∀ field ∈ fields, StartsSmall field.1) :
    (Json.ofFields fields).get? v.name = none := by
  rw [Json.get?_ofFields, List.lookup_eq_none_iff]
  intro field hfield
  have hsmall := h field (List.mem_reverse.1 hfield)
  rw [bne_iff_ne]
  intro hname
  rw [not_isEnvironmentVariable_of_startsSmall (hname ▸ hsmall)] at hv
  cases hv

variable (hlower : ∀ s, ∀ c ∈ (conv.toSnakeCase s).toList, c.isUpper = false)
include hlower

theorem startsSmall_toSnakeCase (s : String) : StartsSmall (conv.toSnakeCase s) :=
  fun c hc => hlower s c (List.mem_of_mem_head? hc)

theorem startsSmall_of_mem_flattenEntry {dontFlatten : List String} {entry field : String × Json}
    (h : field ∈ flattenEntry conv.toSnakeCase "" dontFlatten entry) : StartsSmall field.1 := by
  have hkey := startsSmall_toSnakeCase hlower entry.1
  have hseparator : StartsSmall "__" := by
    intro c hc
    obtain rfl : '_' = c := Option.some.inj hc
    decide
  unfold flattenEntry at h
  dsimp only at h
  split at h
  · obtain rfl := List.mem_singleton.1 h
    exact hkey
  · split at h
    · obtain ⟨child, -, rfl⟩ := List.mem_map.1 h
      exact (hkey.append hseparator).append (startsSmall_toSnakeCase hlower child.1)
    · obtain rfl := List.mem_singleton.1 h
      exact hkey

/-- However a claim spells its variables, none becomes a variable of the platform. -/
theorem get?_terraformVariables_eq_none {v : TfVariable} (hv : isEnvironmentVariable v = true)
    (isStack : Bool) (record : ModuleResp) (spec : DeploymentSpec) :
    (terraformVariables conv isStack record (providedVariables conv spec)).get? v.name = none := by
  obtain ⟨fields, hfields⟩ := exists_fields_providedVariables conv spec
  rw [hfields]
  cases isStack with
  | true =>
      refine get?_ofFields_eq_none hv fun field hfield => ?_
      obtain ⟨entry, -, hentry⟩ := List.mem_flatMap.1 hfield
      exact startsSmall_of_mem_flattenEntry hlower hentry
  | false =>
      refine get?_ofFields_eq_none hv fun field hfield => ?_
      obtain ⟨entry, -, rfl⟩ := List.mem_map.1 hfield
      exact startsSmall_toSnakeCase hlower entry.1

end

/-! ## Declarations -/

/-- The names of the variables that are kept apart from those that a claim sets. -/
def platformNames (vars : List TfVariable) : List String :=
  (vars.filter isEnvironmentVariable).map TfVariable.name

/-- A declaration that works with a value of the runner and without one. -/
structure Declares (v : TfVariable) : Prop where
  supported : v.name ∈ validExtraEnvironmentVariables
  type : v.type = .string "string"
  default : v.default = some (.string "")

theorem mem_platformNames {vars : List TfVariable} {v : TfVariable} (hv : v ∈ vars) :
    v.name ∈ platformNames vars ↔ isEnvironmentVariable v = true := by
  constructor
  · intro h
    obtain ⟨w, hw, hname⟩ := List.mem_map.1 h
    have henv := (List.mem_filter.1 hw).2
    rwa [isEnvironmentVariable, hname] at henv
  · exact fun henv => List.mem_map_of_mem (List.mem_filter.2 ⟨hv, henv⟩)

theorem extraEnvironmentVariableError_eq_none_iff {vars : List TfVariable} {v : TfVariable}
    (hv : v ∈ vars) :
    extraEnvironmentVariableError (platformNames vars) v = none ↔
      (isEnvironmentVariable v = true → Declares v) := by
  unfold extraEnvironmentVariableError
  simp only [mem_platformNames hv]
  cases isEnvironmentVariable v with
  | false => simp
  | true =>
      simp only [true_and, ne_eq, forall_const]
      constructor
      · intro h
        split at h
        · cases h
        · split at h
          · cases h
          · split at h
            · cases h
            · rename_i hdefault htype hname
              exact ⟨not_not.1 hname, not_not.1 htype, not_not.1 hdefault⟩
      · intro h
        rw [if_neg (not_not.2 h.default), if_neg (not_not.2 h.type), if_neg (not_not.2 h.supported)]

/-- The check does what it is for when it is given all variables of the module. -/
theorem validateTfExtraEnvironmentVariables_eq_ok_iff {vars : List TfVariable} :
    validateTfExtraEnvironmentVariables (platformNames vars) vars = .ok () ↔
      ∀ v ∈ vars, isEnvironmentVariable v = true → Declares v := by
  have hnone : vars.findSome? (extraEnvironmentVariableError (platformNames vars)) = none ↔
      ∀ v ∈ vars, isEnvironmentVariable v = true → Declares v := by
    rw [List.findSome?_eq_none_iff]
    exact forall₂_congr fun v hv => extraEnvironmentVariableError_eq_none_iff hv
  unfold validateTfExtraEnvironmentVariables
  rw [← hnone]
  cases vars.findSome? (extraEnvironmentVariableError (platformNames vars)) with
  | none => simp
  | some e => simp

/-! ## Accepted modules -/

section

variable (conv : Conventions) (deunicode : String → String) (admits : Json → Json → Prop)

/-- The variables of the platform that a module declares can be satisfied: they are declared as
they have to be, Terraform has a value that `admits` takes for their type in every job, and no
claim that is accepted sets them. -/
structure Satisfiable (vars : List TfVariable) : Prop where
  declared : ∀ v ∈ vars, isEnvironmentVariable v = true → Declares v
  valued : ∀ v ∈ vars, isEnvironmentVariable v = true → ∀ allowUnicode job, ∃ value,
    terraformValue (getExtraEnvironmentVariablesAll deunicode allowUnicode job) v = some value ∧
      admits v.type value
  unset : ∀ v ∈ vars, isEnvironmentVariable v = true → ∀ r : ClaimRequest,
    r.services.conv = conv → ∀ deploymentId prepared, r.prepare = .ok (deploymentId, prepared) →
      prepared.vars.get? v.name = none

variable {conv deunicode admits}

theorem Declares.terraformValue {v : TfVariable} (h : Declares v)
    (hstring : ∀ text, admits (.string "string") (.string text))
    (supplied : List (String × String)) :
    ∃ value, terraformValue supplied v = some value ∧ admits v.type value := by
  rw [h.type]
  unfold EnvCommon.terraformValue
  cases supplied.lookup v.name with
  | some text => exact ⟨.string text, rfl, hstring text⟩
  | none => exact ⟨.string "", h.default, hstring ""⟩

/-- A module is as it has to be if and only if the check accepts all of its variables. -/
theorem satisfiable_iff_validate {vars : List TfVariable}
    (hstring : ∀ text, admits (.string "string") (.string text))
    (hlower : ∀ s, ∀ c ∈ (conv.toSnakeCase s).toList, c.isUpper = false) :
    Satisfiable conv deunicode admits vars ↔
      validateTfExtraEnvironmentVariables (platformNames vars) vars = .ok () := by
  rw [validateTfExtraEnvironmentVariables_eq_ok_iff]
  constructor
  · exact Satisfiable.declared
  · intro h
    refine ⟨h, fun v hv henv allowUnicode job => (h v hv henv).terraformValue hstring _,
      fun v _ henv r hconv deploymentId prepared hprepare => ?_⟩
    obtain ⟨isStack, record, haccepted⟩ := ClaimRequest.accepted hprepare
    rw [haccepted.vars, hconv]
    exact get?_terraformVariables_eq_none hlower henv isStack record r.claim.spec

end

section

variable (conv : Conventions) (deunicode : String → String) (admits : Json → Json → Prop)
  (services : Services) (reg : Registry) (handler : GenericCloudHandler)
  (source : ModuleSource) (content : ModuleContent) (track : String)

/-- In every module that is accepted the variables of the platform can be satisfied. -/
def PlatformVariablesSatisfiable : Prop :=
  ∀ record, Publishes conv services reg handler source content track record →
    ∀ vars, content.variablesOf record.tfProviders = .ok vars →
      Satisfiable conv deunicode admits vars

/-- The variables of the platform can be satisfied if and only if the check, which the publish runs
on the other variables, accepts all variables of the module. -/
theorem platformVariablesSatisfiable_iff
    (hstring : ∀ text, admits (.string "string") (.string text))
    (hlower : ∀ s, ∀ c ∈ (conv.toSnakeCase s).toList, c.isUpper = false) :
    PlatformVariablesSatisfiable conv deunicode admits services reg handler source content track ↔
      ∀ record, Publishes conv services reg handler source content track record →
        ∀ vars, content.variablesOf record.tfProviders = .ok vars →
          validateTfExtraEnvironmentVariables (platformNames vars) vars = .ok () :=
  forall₂_congr fun _ _ => forall₂_congr fun _ _ => satisfiable_iff_validate hstring hlower

end

/-! ## A variable that no job sets -/

/-- The conversion of Terraform as far as it matters for a text: a number is read from it or not,
a string takes it as it is. -/
def admitsLiteral (type value : Json) : Bool :=
  if type = .string "string" then value.isLeaf && value ≠ .null
  else if type = .string "number" then
    match value with
    | .number _ => true
    | .string text => !text.isEmpty && text.toList.all Char.isDigit
    | _ => false
  else true

/-- `variable "INFRAWEAVE_DEPLOYMENT_ID" { type = string, default = "" }`. -/
def deploymentIdVariable : TfVariable where
  name := "INFRAWEAVE_DEPLOYMENT_ID"
  type := .string "string"
  default := some (.string "")
  description := ""
  nullable := true
  sensitive := false

/-- `variable "INFRAWEAVE_TEAM" { type = number }`. -/
def teamVariable : TfVariable where
  name := "INFRAWEAVE_TEAM"
  type := .string "number"
  default := none
  description := ""
  nullable := true
  sensitive := false

def platformContent (v : TfVariable) : ModuleContent where
  moduleVariables := some [v]
  variableBlocks := []
  tfOutputs := .ok []
  tfRequiredProviders := [⟨"aws", "~> 5.0", "hashicorp/aws"⟩]
  tfLockProviders := []
  examples := none

def platformParts (v : TfVariable) : ModuleParts :=
  ⟨[v], [], [⟨"aws", "~> 5.0", "hashicorp/aws"⟩], []⟩

theorem platformVariablesSatisfiable_deploymentId : PlatformVariablesSatisfiable asciiConventions id
    (fun type value => admitsLiteral type value = true) localServices providerRegistry localHandler
    bucketSource (platformContent deploymentIdVariable) "dev" := by
  refine (platformVariablesSatisfiable_iff asciiConventions id
    (fun type value => admitsLiteral type value = true) localServices providerRegistry localHandler
    bucketSource (platformContent deploymentIdVariable) "dev" (fun text => ?_)
    fun s c hc => ?_).2 fun record _ vars hvars => ?_
  · simp [admitsLiteral, Json.isLeaf]
  · exact Words.isUpper_of_mem_toSnakeCase hc
  · obtain rfl : [deploymentIdVariable] = vars := Except.ok.inj hvars
    decide

theorem team_publishes : Publishes asciiConventions localServices providerRegistry localHandler
    bucketSource (platformContent teamVariable) "dev"
    (bucketSource.record "dev" "0.1.0-dev" "000.001.000-dev" [regionalProvider]
      (platformParts teamVariable)) where
  accepted := by decide +kernel
  offers := ⟨"0.1.0-dev", "000.001.000-dev", [regionalProvider], platformParts teamVariable, rfl,
    by decide +kernel, rfl, by decide +kernel, by decide +kernel, rfl⟩

/-- The module is accepted, though no job has a value for its variable. -/
theorem not_platformVariablesSatisfiable_team : ¬ PlatformVariablesSatisfiable asciiConventions id
    (fun type value => admitsLiteral type value = true) localServices providerRegistry localHandler
    bucketSource (platformContent teamVariable) "dev" := by
  intro h
  let job : JobData :=
    ⟨"bucket/logs", "cli/dev", "", "0.1.0-dev", "module", "dev", .default, .none⟩
  have hvalued := (h _ team_publishes [teamVariable] rfl).valued teamVariable List.mem_cons_self
    (by decide) true job
  obtain ⟨value, hvalue, -⟩ := hvalued
  have hnone : terraformValue (getExtraEnvironmentVariablesAll id true job) teamVariable = none := by
    unfold terraformValue
    rw [lookup_getExtraEnvironmentVariablesAll id true (by decide)]
    rfl
  rw [hnone] at hvalue
  cases hvalue

end EnvCommon
end InfraWeave
