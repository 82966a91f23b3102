import InfraWeave.EnvCommon.StackClaims
import InfraWeave.EnvCommon.StackValidation
import InfraWeave.Lib.Separator
import Mathlib.Data.String.Basic

/-!
# Names of the variables and outputs of a stack

A variable or an output of a claim has the name of the claim and its own in one key, and a variable
of the stack has `stack` in place of the claim.  Several readers split the keys again.
-/

namespace InfraWeave
namespace EnvCommon

section

variable (conv : Conventions)

/-! ## Keys -/

def getVariableName (claimName variableName : String) : String :=
  conv.toSnakeCase claimName ++ "__" ++ variableName

def getOutputName (claimName outputName : String) : String :=
  conv.toSnakeCase claimName ++ "__" ++ outputName

/-- A variable with the value that its claim gives it, if any, as its default. -/
def claimVariable (c : StackClaim) (tfVar : TfVariable) : TfVariable :=
  match YamlMapping.get? (conv.toCamelCase tfVar.name) c.claim.spec.vars with
  | some value => { tfVar with default := some (Yaml.toJson conv.numberText value) }
  | none => tfVar

def variableEntries (c : StackClaim) : List (String × TfVariable) :=
  c.module.tfVariables.map fun tfVar =>
    (getVariableName conv c.name tfVar.name, claimVariable conv c tfVar)

def outputEntries (c : StackClaim) : List (String × TfOutput) :=
  c.module.tfOutputs.map fun output => (getOutputName conv c.name output.name, output)

def stackVariableName (variableName : String) : String :=
  "stack__" ++ conv.toSnakeCase variableName

def stackEntries (stackVars : List TfVariable) : List (String × TfVariable) :=
  stackVars.map fun v => (stackVariableName conv v.name, v)

/-- The entries in the order in which they are inserted. -/
def allVariableEntries (claims : List StackClaim) (stackVars : List TfVariable) :
    List (String × TfVariable) :=
  claims.flatMap (variableEntries conv) ++ stackEntries conv stackVars

def collectModuleVariablesWithStack (claims : List StackClaim) (stackVars : List TfVariable) :
    List (String × TfVariable) :=
  OrderedMap.collect (allVariableEntries conv claims stackVars)

def collectModuleOutputs (claims : List StackClaim) : List (String × TfOutput) :=
  OrderedMap.collect (claims.flatMap (outputEntries conv))

end

/-! ## Readers -/

/-- `key.split("__")`. -/
def splitKey (key : String) : List String :=
  (splitAtSeparator "__".toList key.toList).map String.ofList

/-- The value of an output of a published stack. -/
def publishOutputValue (key : String) : String :=
  "module." ++ ".".intercalate (splitKey key)

/-- The first two parts; a key with one part ends the process. -/
def keyParts (key : String) : Option (String × String) :=
  match splitKey key with
  | claimName :: name :: _ => some (claimName, name)
  | _ => none

/-- The value of an output in a preview, as `generate_terraform_output_single` writes it. -/
def previewOutputValue (key : String) : Option String :=
  (keyParts key).map fun (claimName, outputName) => "module." ++ claimName ++ "." ++ outputName

/-- The arguments of a module call, as `generate_terraform_module_single` reads them. -/
def moduleArguments (claimName : String) (variableCollection : List (String × TfVariable)) :
    List String :=
  (variableCollection.filterMap fun (key, _) => keyParts key).filterMap fun (partClaim, partVar) =>
    if partClaim = claimName then some partVar else none

/-- The first and the last part, which the errors about examples name. -/
def exampleParts (key : String) : Option (String × String) :=
  (splitKey key).head?.bind fun claimKey => (splitKey key).getLast?.map (claimKey, ·)

/-! ## What is asked -/

/-- No entry of a collection is overwritten, and every reader gets back what a key was built of. -/
structure Invertible (conv : Conventions) (claims : List StackClaim)
    (stackVars : List TfVariable) : Prop where
  variableKeys : ((allVariableEntries conv claims stackVars).map Prod.fst).Nodup
  outputKeys : ((claims.flatMap (outputEntries conv)).map Prod.fst).Nodup
  outputs : ∀ c ∈ claims, ∀ output ∈ c.module.tfOutputs,
    publishOutputValue (getOutputName conv c.name output.name) =
        "module." ++ c.name ++ "." ++ output.name ∧
      previewOutputValue (getOutputName conv c.name output.name) =
        some ("module." ++ c.name ++ "." ++ output.name)
  claimVariables : ∀ c ∈ claims, ∀ v ∈ c.module.tfVariables,
    keyParts (getVariableName conv c.name v.name) = some (c.name, v.name) ∧
      exampleParts (getVariableName conv c.name v.name) = some (c.name, v.name)
  stackVariables : ∀ v ∈ stackVars,
    keyParts (stackVariableName conv v.name) = some ("stack", conv.toSnakeCase v.name) ∧
      exampleParts (stackVariableName conv v.name) = some ("stack", conv.toSnakeCase v.name)

/-- The separator occurs in the name. -/
def HasSeparator (name : String) : Prop :=
  "__".toList <:+: name.toList

/-- Modules do not use the separator in their names or a name twice, and neither do the variables of
the stack, also not together with those of a claim named `stack`. -/
structure PlainNames (conv : Conventions) (claims : List StackClaim)
    (stackVars : List TfVariable) : Prop where
  distinctVariables : ∀ c ∈ claims, (c.module.tfVariables.map TfVariable.name).Nodup
  distinctOutputs : ∀ c ∈ claims, (c.module.tfOutputs.map TfOutput.name).Nodup
  variableNames : ∀ c ∈ claims, ∀ v ∈ c.module.tfVariables, ¬ HasSeparator v.name
  outputNames : ∀ c ∈ claims, ∀ output ∈ c.module.tfOutputs, ¬ HasSeparator output.name
  stackVariables : (stackVars.map fun v => conv.toSnakeCase v.name).Nodup
  stackClaim : ∀ c ∈ claims, c.name = "stack" → ∀ v ∈ c.module.tfVariables, ∀ w ∈ stackVars,
    v.name ≠ conv.toSnakeCase w.name

/-! ## Splitting a key -/

section

variable {conv : Conventions}

theorem notMem_claimName {name : String} (h : isClaimName name = true) : '_' ∉ name.toList := by
  unfold isClaimName at h
  split at h
  · rename_i c d cs heq
    rw [Bool.and_eq_true, List.all_eq_true] at h
    rw [heq]
    intro hmem
    rcases List.mem_cons.1 hmem with rfl | hmem
    · exact absurd h.1 (by decide)
    · exact absurd (h.2 '_' hmem) (by decide)
  · cases h

theorem separable_claimName {name : String} (h : isClaimName name = true) :
    Separable "__".toList name.toList :=
  separable_of_notMem (notMem_claimName h)

theorem splitKey_append {claimName : String} (h : Separable "__".toList claimName.toList)
    (name : String) : splitKey (claimName ++ "__" ++ name) = claimName :: splitKey name := by
  have hchars : (claimName ++ "__" ++ name).toList =
      claimName.toList ++ ("__".toList ++ name.toList) := by
    simp [String.toList_append]
  unfold splitKey
  rw [hchars, splitAtSeparator_append (by decide) h, List.map_cons, String.ofList_toList]

theorem splitKey_of_not_hasSeparator {name : String} (h : ¬ HasSeparator name) :
    splitKey name = [name] := by
  unfold splitKey
  rw [splitAtSeparator_of_not_contained h]
  simp

theorem head_splitKey_ne {name : String} (h : HasSeparator name) :
    (splitKey name).head? ≠ some name := by
  intro heq
  refine head_splitAtSeparator_ne (by decide) h ?_
  unfold splitKey at heq
  rw [List.head?_map, Option.map_eq_some_iff] at heq
  obtain ⟨part, hpart, hname⟩ := heq
  rw [hpart, ← hname, String.toList_ofList]

theorem exists_splitKey (name : String) : ∃ first rest, splitKey name = first :: rest := by
  refine List.exists_cons_of_ne_nil fun hnil => ?_
  unfold splitKey at hnil
  exact splitAtSeparator_ne_nil _ (List.map_eq_nil_iff.1 hnil)

/-- A key of a separable and a plain name is read back by every reader. -/
theorem readers_of_plain {claimName name : String} (hclaim : Separable "__".toList claimName.toList)
    (hname : ¬ HasSeparator name) :
    splitKey (claimName ++ "__" ++ name) = [claimName, name] := by
  rw [splitKey_append hclaim, splitKey_of_not_hasSeparator hname]

theorem not_hasSeparator_toSnakeCase (name : String) : ¬ HasSeparator (conv.toSnakeCase name) :=
  conv.toSnakeCase_single name

/-- The names of a claim are not read back when they have the separator in them. -/
theorem not_hasSeparator_of_keyParts {claimName name : String}
    (hclaim : Separable "__".toList claimName.toList)
    (h : keyParts (claimName ++ "__" ++ name) = some (claimName, name)) : ¬ HasSeparator name := by
  intro hseparator
  obtain ⟨first, rest, hsplit⟩ := exists_splitKey name
  refine head_splitKey_ne hseparator ?_
  unfold keyParts at h
  rw [splitKey_append hclaim, hsplit] at h
  rw [hsplit]
  exact congrArg some (Prod.mk.inj (Option.some.inj h)).2

theorem not_hasSeparator_of_previewOutputValue {claimName name : String}
    (hclaim : Separable "__".toList claimName.toList)
    (h : previewOutputValue (claimName ++ "__" ++ name) =
      some ("module." ++ claimName ++ "." ++ name)) : ¬ HasSeparator name := by
  intro hseparator
  obtain ⟨first, rest, hsplit⟩ := exists_splitKey name
  refine head_splitKey_ne hseparator ?_
  unfold previewOutputValue keyParts at h
  rw [splitKey_append hclaim, hsplit] at h
  have hchars := congrArg String.toList (Option.some.inj h)
  simp only [String.toList_append] at hchars
  rw [hsplit]
  exact congrArg some (String.ext (List.append_cancel_left hchars))

/-! ## Distinct keys -/

theorem getVariableName_eq {c : StackClaim} (h : isClaimName c.name = true) (name : String) :
    getVariableName conv c.name name = c.name ++ "__" ++ name := by
  unfold getVariableName
  rw [conv.toSnakeCase_claimName _ h]

theorem getOutputName_eq {c : StackClaim} (h : isClaimName c.name = true) (name : String) :
    getOutputName conv c.name name = c.name ++ "__" ++ name := by
  unfold getOutputName
  rw [conv.toSnakeCase_claimName _ h]

theorem key_inj {a b x y : String} (ha : Separable "__".toList a.toList)
    (hb : Separable "__".toList b.toList) : a ++ "__" ++ x = b ++ "__" ++ y ↔ a = b ∧ x = y := by
  constructor
  · intro heq
    have hchars := congrArg String.toList heq
    simp only [String.toList_append, List.append_assoc] at hchars
    obtain ⟨hab, hxy⟩ := ha.append_inj hb hchars
    exact ⟨String.ext hab, String.ext hxy⟩
  · rintro ⟨rfl, rfl⟩
    rfl

/-- The keys of different claims are different, so they are distinct when those of each claim are. -/
theorem nodup_keys_iff {claims : List StackClaim} (hdistinct : (claims.map StackClaim.name).Nodup)
    (hnames : ∀ c ∈ claims, isClaimName c.name = true) (own : StackClaim → List String) :
    (claims.flatMap fun c => (own c).map fun x => c.name ++ "__" ++ x).Nodup ↔
      ∀ c ∈ claims, (own c).Nodup := by
  have hpairwise : claims.Pairwise fun c d =>
      List.Disjoint ((own c).map fun x => c.name ++ "__" ++ x)
        ((own d).map fun x => d.name ++ "__" ++ x) := by
    refine (List.pairwise_map.1 hdistinct).imp_of_mem fun {c d} hc hd hne => ?_
    intro key hkey hkey'
    obtain ⟨x, -, rfl⟩ := List.mem_map.1 hkey
    obtain ⟨y, -, heq⟩ := List.mem_map.1 hkey'
    exact hne ((key_inj (separable_claimName (hnames d hd))
      (separable_claimName (hnames c hc))).1 heq).1.symm
  have hinj : ∀ c ∈ claims, Function.Injective fun x => c.name ++ "__" ++ x := fun c hc x y heq =>
    ((key_inj (separable_claimName (hnames c hc)) (separable_claimName (hnames c hc))).1 heq).2
  rw [List.nodup_flatMap, and_iff_left hpairwise]
  exact forall₂_congr fun c hc => List.nodup_map_iff (hinj c hc)

theorem stackVariableName_eq (name : String) :
    stackVariableName conv name = "stack" ++ "__" ++ conv.toSnakeCase name := by
  have hstack : "stack__" = "stack" ++ "__" := by decide
  unfold stackVariableName
  rw [hstack]

theorem separable_stack : Separable "__".toList "stack".toList :=
  separable_of_notMem (by decide)

theorem claimKeys_eq {claims : List StackClaim} (hnames : ∀ c ∈ claims, isClaimName c.name = true) :
    (claims.flatMap (variableEntries conv)).map Prod.fst =
      claims.flatMap fun c =>
        (c.module.tfVariables.map TfVariable.name).map fun x => c.name ++ "__" ++ x := by
  rw [List.map_flatMap]
  refine List.flatMap_congr fun c hc => ?_
  simp only [variableEntries, List.map_map]
  exact List.map_congr_left fun v _ => getVariableName_eq (hnames c hc) v.name

theorem outputKeys_eq {claims : List StackClaim} (hnames : ∀ c ∈ claims, isClaimName c.name = true) :
    (claims.flatMap (outputEntries conv)).map Prod.fst =
      claims.flatMap fun c =>
        (c.module.tfOutputs.map TfOutput.name).map fun x => c.name ++ "__" ++ x := by
  rw [List.map_flatMap]
  refine List.flatMap_congr fun c hc => ?_
  simp only [outputEntries, List.map_map]
  exact List.map_congr_left fun output _ => getOutputName_eq (hnames c hc) output.name

theorem stackKeys_eq (stackVars : List TfVariable) :
    (stackEntries conv stackVars).map Prod.fst =
      (stackVars.map fun v => conv.toSnakeCase v.name).map fun x => "stack" ++ "__" ++ x := by
  simp only [stackEntries, List.map_map]
  exact List.map_congr_left fun v _ => stackVariableName_eq v.name

theorem nodup_variableKeys_iff {claims : List StackClaim} {stackVars : List TfVariable}
    (hdistinct : (claims.map StackClaim.name).Nodup)
    (hnames : ∀ c ∈ claims, isClaimName c.name = true) :
    ((allVariableEntries conv claims stackVars).map Prod.fst).Nodup ↔
      (∀ c ∈ claims, (c.module.tfVariables.map TfVariable.name).Nodup) ∧
        (stackVars.map fun v => conv.toSnakeCase v.name).Nodup ∧
          ∀ c ∈ claims, c.name = "stack" → ∀ v ∈ c.module.tfVariables, ∀ w ∈ stackVars,
            v.name ≠ conv.toSnakeCase w.name := by
  have hinj : Function.Injective fun x => "stack" ++ "__" ++ x := fun x y heq =>
    ((key_inj separable_stack separable_stack).1 heq).2
  unfold allVariableEntries
  rw [List.map_append, claimKeys_eq hnames, stackKeys_eq, List.nodup_append,
    nodup_keys_iff hdistinct hnames fun c => c.module.tfVariables.map TfVariable.name,
    List.nodup_map_iff hinj]
  refine and_congr_right fun _ => and_congr_right fun _ => ?_
  constructor
  · intro h c hc hstack v hv w hw heq
    refine h (c.name ++ "__" ++ v.name) ?_ ("stack" ++ "__" ++ conv.toSnakeCase w.name) ?_ ?_
    · exact List.mem_flatMap.2 ⟨c, hc, List.mem_map_of_mem (List.mem_map_of_mem hv)⟩
    · refine List.mem_map.2 ⟨conv.toSnakeCase w.name, ?_, rfl⟩
      exact List.mem_map.2 ⟨w, hw, rfl⟩
    · rw [hstack, heq]
  · intro h key hkey key' hkey' heq
    obtain ⟨c, hc, hkey⟩ := List.mem_flatMap.1 hkey
    obtain ⟨x, hx, rfl⟩ := List.mem_map.1 hkey
    obtain ⟨v, hv, rfl⟩ := List.mem_map.1 hx
    obtain ⟨y, hy, rfl⟩ := List.mem_map.1 hkey'
    obtain ⟨w, hw, rfl⟩ := List.mem_map.1 hy
    obtain ⟨hstack, hname⟩ := (key_inj (separable_claimName (hnames c hc)) separable_stack).1 heq
    exact h c hc hstack v hv w hw hname

/-! ## Readers of plain names -/

theorem keyParts_of_split {key a b : String} (h : splitKey key = [a, b]) :
    keyParts key = some (a, b) ∧ exampleParts key = some (a, b) := by
  unfold keyParts exampleParts
  rw [h]
  exact ⟨rfl, rfl⟩

theorem outputValues_of_split {key a b : String} (h : splitKey key = [a, b]) :
    publishOutputValue key = "module." ++ a ++ "." ++ b ∧
      previewOutputValue key = some ("module." ++ a ++ "." ++ b) := by
  have hjoined : ".".intercalate [a, b] = a ++ "." ++ b := by
    simp [String.intercalate_cons_cons, String.append_assoc]
  unfold publishOutputValue previewOutputValue
  rw [(keyParts_of_split h).1, h, hjoined]
  refine ⟨?_, rfl⟩
  simp [String.append_assoc]

/-- The names of the variables and outputs of accepted claims can be read back from their keys if and
only if they are plain. -/
theorem invertible_iff_plainNames (conv : Conventions) (claims : List StackClaim)
    (stackVars : List TfVariable) (haccepted : validateClaimModules conv claims = .ok ()) :
    Invertible conv claims stackVars ↔ PlainNames conv claims stackVars := by
  obtain ⟨hdistinct, hnames, -, -⟩ := accepted_of_validateClaimModules haccepted
  have hseparable : ∀ c ∈ claims, Separable "__".toList c.name.toList := fun c hc =>
    separable_claimName (hnames c hc)
  constructor
  · intro h
    obtain ⟨hvariables, hstack, hclaim⟩ := (nodup_variableKeys_iff hdistinct hnames).1 h.variableKeys
    refine {
      distinctVariables := hvariables
      distinctOutputs := ?_
      variableNames := fun c hc v hv => ?_
      outputNames := fun c hc output houtput => ?_
      stackVariables := hstack
      stackClaim := hclaim }
    · have hkeys := h.outputKeys
      rw [outputKeys_eq hnames] at hkeys
      exact (nodup_keys_iff hdistinct hnames _).1 hkeys
    · have hread := (h.claimVariables c hc v hv).1
      rw [getVariableName_eq (hnames c hc)] at hread
      exact not_hasSeparator_of_keyParts (hseparable c hc) hread
    · have hread := (h.outputs c hc output houtput).2
      rw [getOutputName_eq (hnames c hc)] at hread
      exact not_hasSeparator_of_previewOutputValue (hseparable c hc) hread
  · intro h
    refine {
      variableKeys := (nodup_variableKeys_iff hdistinct hnames).2
        ⟨h.distinctVariables, h.stackVariables, h.stackClaim⟩
      outputKeys := ?_
      outputs := fun c hc output houtput => ?_
      claimVariables := fun c hc v hv => ?_
      stackVariables := fun v _ => ?_ }
    · rw [outputKeys_eq hnames]
      exact (nodup_keys_iff hdistinct hnames _).2 h.distinctOutputs
    · rw [getOutputName_eq (hnames c hc)]
      exact outputValues_of_split
        (readers_of_plain (hseparable c hc) (h.outputNames c hc output houtput))
    · rw [getVariableName_eq (hnames c hc)]
      exact keyParts_of_split (readers_of_plain (hseparable c hc) (h.variableNames c hc v hv))
    · rw [stackVariableName_eq]
      exact keyParts_of_split (readers_of_plain separable_stack (not_hasSeparator_toSnakeCase v.name))

/-- In a preview a module call has the variables of its module as arguments. -/
theorem mem_moduleArguments_iff {claims : List StackClaim}
    (haccepted : validateClaimModules conv claims = .ok ())
    (h : PlainNames conv claims []) {c : StackClaim} (hc : c ∈ claims) {argument : String} :
    argument ∈ moduleArguments c.name (collectModuleVariablesWithStack conv claims []) ↔
      ∃ v ∈ c.module.tfVariables, v.name = argument := by
  obtain ⟨hdistinct, hnames, -, -⟩ := accepted_of_validateClaimModules haccepted
  have hkeys := (nodup_variableKeys_iff hdistinct hnames).2
    ⟨h.distinctVariables, h.stackVariables, h.stackClaim⟩
  have hparts : ∀ d ∈ claims, ∀ v ∈ d.module.tfVariables,
      keyParts (getVariableName conv d.name v.name) = some (d.name, v.name) := fun d hd v hv => by
    rw [getVariableName_eq (hnames d hd)]
    exact (keyParts_of_split (readers_of_plain (separable_claimName (hnames d hd))
      (h.variableNames d hd v hv))).1
  have hentries : ∀ entry, entry ∈ collectModuleVariablesWithStack conv claims [] ↔
      ∃ d ∈ claims, entry ∈ variableEntries conv d := fun entry => by
    refine (OrderedMap.mem_collect hkeys entry).trans ?_
    simp [allVariableEntries, stackEntries]
  unfold moduleArguments
  simp only [List.mem_filterMap, hentries]
  constructor
  · rintro ⟨⟨partClaim, partVar⟩, ⟨entry, ⟨d, hd, hentry⟩, hread⟩, harg⟩
    obtain ⟨v, hv, rfl⟩ := List.mem_map.1 hentry
    obtain ⟨rfl, rfl⟩ := Prod.mk.inj (Option.some.inj ((hparts d hd v hv).symm.trans hread))
    by_cases hname : d.name = c.name
    · obtain rfl := List.inj_on_of_nodup_map hdistinct hd hc hname
      rw [if_pos rfl] at harg
      exact ⟨v, hv, Option.some.inj harg⟩
    · rw [if_neg hname] at harg
      cases harg
  · rintro ⟨v, hv, rfl⟩
    refine ⟨(c.name, v.name), ⟨_, ⟨c, hc, List.mem_map_of_mem hv⟩, hparts c hc v hv⟩, ?_⟩
    exact if_pos rfl

end

/-! ## A claim that is named like the stack -/

def bucketVariable (name : String) : TfVariable :=
  ⟨name, .string "string", some (.string "logs"), "", false, false⟩

/-- A claim of a module with one variable. -/
def plainClaim (name variableName : String) : StackClaim where
  claim :=
    { metadata := ⟨name, none⟩
      apiVersion := "infraweave.io/v1"
      kind := "Web"
      spec :=
        { moduleVersion := some "1.0.0"
          stackVersion := none
          region := "N/A"
          reference := none
          vars := []
          dependencies := none
          driftDetection := none } }
  namespaced := none
  module := { webModule "stable" "1.0.0" with tfVariables := [bucketVariable variableName] }

theorem invertible_plainClaim :
    Invertible asciiConventions [plainClaim "bucket" "bucket_name"] [bucketVariable "bucketName"] := by
  have haccepted : validateClaimModules asciiConventions [plainClaim "bucket" "bucket_name"] =
      .ok () := by
    decide +kernel
  refine (invertible_iff_plainNames asciiConventions _ _ haccepted).2 {
    distinctVariables := by decide
    distinctOutputs := by decide
    variableNames := fun c hc v hv => ?_
    outputNames := fun c hc output houtput => ?_
    stackVariables := by decide
    stackClaim := fun c hc hstack => ?_ }
  · obtain rfl := List.mem_singleton.1 hc
    obtain rfl := List.mem_singleton.1 hv
    unfold HasSeparator
    decide
  · obtain rfl := List.mem_singleton.1 hc
    cases houtput
  · obtain rfl := List.mem_singleton.1 hc
    exact absurd hstack (by decide)

/-- The variable of the stack takes the place of the one of the claim. -/
theorem stackClaim_not_invertible :
    validateClaimModules asciiConventions [plainClaim "stack" "bucket_name"] = .ok () ∧
      (collectModuleVariablesWithStack asciiConventions [plainClaim "stack" "bucket_name"]
        [bucketVariable "bucketName"]).map Prod.fst = ["stack__bucket_name"] ∧
      ¬ Invertible asciiConventions [plainClaim "stack" "bucket_name"]
        [bucketVariable "bucketName"] := by
  refine ⟨by decide +kernel, by decide +kernel, fun h => ?_⟩
  exact absurd h.variableKeys (by decide +kernel)

end EnvCommon
end InfraWeave
