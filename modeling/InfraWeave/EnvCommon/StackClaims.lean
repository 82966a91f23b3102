import InfraWeave.EnvCommon.DeploymentIdentity

/-!
# Variables of a stack

The claim of a stack gives its variables below the claims of the stack, and those of the providers
beside them.  Each of them is to arrive under the name that Terraform has for it.
-/

namespace InfraWeave
namespace EnvCommon

variable (conv : Conventions) (names : List String)

/-- A value that is provided: a variable of one of the claims, or a variable that is given whole. -/
structure Leaf where
  claim : String
  child : Option String
  value : Json
  deriving DecidableEq

/-- The key is a variable of a provider, in its own spelling or in that of claims. -/
def NamesProviderVariable (key : String) : Prop :=
  key ∈ names ∨ conv.toSnakeCase key ∈ names

instance (key : String) : Decidable (NamesProviderVariable conv names key) :=
  inferInstanceAs (Decidable (_ ∨ _))

def entryLeaves (entry : String × Json) : List Leaf :=
  if NamesProviderVariable conv names entry.1 then [⟨entry.1, none, entry.2⟩]
  else
    match entry.2 with
    | .object children => children.map fun child => ⟨entry.1, some child.1, child.2⟩
    | value => [⟨entry.1, none, value⟩]

def providedLeaves (provided : Json) : List Leaf :=
  (provided.asObject.getD []).flatMap (entryLeaves conv names)

/-- The root variable that the leaf names. -/
def Leaf.target (leaf : Leaf) : String :=
  match leaf.child with
  | none => conv.toSnakeCase leaf.claim
  | some child => conv.toSnakeCase leaf.claim ++ "__" ++ conv.toSnakeCase child

def Leaf.spelling (leaf : Leaf) : String × Option String :=
  (conv.toSnakeCase leaf.claim, leaf.child.map conv.toSnakeCase)

/-- Every leaf arrives under the variable that it names, nothing else does, and no two leaves name
one variable. -/
structure Delivered (provided vars : Json) : Prop where
  arrives : ∀ leaf ∈ providedLeaves conv names provided,
    vars.get? (leaf.target conv) = some leaf.value
  origin : ∀ key value, vars.get? key = some value →
    ∃ leaf ∈ providedLeaves conv names provided, leaf.target conv = key ∧ leaf.value = value
  distinct : ((providedLeaves conv names provided).map (Leaf.target conv)).Nodup

/-! ## Names and targets -/

theorem separable_toSnakeCase (s : String) :
    Separable "__".toList (conv.toSnakeCase s).toList := by
  intro hwithin
  have hsplit := List.infix_concat_iff.1
    (hwithin : ['_', '_'] <:+: (conv.toSnakeCase s).toList ++ ['_'])
  rcases hsplit with hsuffix | hwithin
  · obtain ⟨start, heq⟩ := hsuffix
    refine conv.toSnakeCase_end s ⟨start, ?_⟩
    have hcut := congrArg List.dropLast heq
    simpa using hcut
  · exact conv.toSnakeCase_single s hwithin

theorem toSnakeCase_ne (s a b : String) :
    conv.toSnakeCase s ≠ conv.toSnakeCase a ++ "__" ++ conv.toSnakeCase b := by
  intro heq
  refine conv.toSnakeCase_single s ?_
  rw [heq]
  exact ⟨(conv.toSnakeCase a).toList, (conv.toSnakeCase b).toList, by simp⟩

theorem target_eq_iff {leaf leaf' : Leaf} :
    leaf.target conv = leaf'.target conv ↔ leaf.spelling conv = leaf'.spelling conv := by
  obtain ⟨claim, child, value⟩ := leaf
  obtain ⟨claim', child', value'⟩ := leaf'
  cases child with
  | none =>
      cases child' with
      | none => simp [Leaf.target, Leaf.spelling]
      | some child' => simp [Leaf.target, Leaf.spelling, toSnakeCase_ne]
  | some child =>
      cases child' with
      | none => simp [Leaf.target, Leaf.spelling, (toSnakeCase_ne conv claim' claim child).symm]
      | some child' =>
          simp only [Leaf.target, Leaf.spelling, Option.map_some, Prod.mk.injEq, Option.some_inj]
          constructor
          · intro heq
            have hchars := congrArg String.toList heq
            simp only [String.toList_append, List.append_assoc] at hchars
            obtain ⟨hclaim, hchild⟩ := (separable_toSnakeCase conv claim).append_inj
              (separable_toSnakeCase conv claim') hchars
            exact ⟨String.ext hclaim, String.ext hchild⟩
          · rintro ⟨hclaim, hchild⟩
            rw [hclaim, hchild]

theorem nodup_targets_iff {leaves : List Leaf} :
    (leaves.map (Leaf.target conv)).Nodup ↔ (leaves.map (Leaf.spelling conv)).Nodup := by
  simp only [List.Nodup, List.pairwise_map, ne_eq, target_eq_iff]

/-! ## What is flattened -/

/-- The provider variables that are given as objects are given in their own spelling. -/
def SpelledAsDeclared (provided : Json) : Prop :=
  ∀ entry ∈ provided.asObject.getD [], NamesProviderVariable conv names entry.1 →
    (∃ children, entry.2 = .object children) → entry.1 ∈ names

def Leaf.entry (leaf : Leaf) : String × Json :=
  (leaf.target conv, leaf.value)

/-- An entry is flattened to its leaves, unless it is a provider variable that is taken for a
claim. -/
theorem flattenEntry_eq {entry : String × Json}
    (h : NamesProviderVariable conv names entry.1 → (∃ children, entry.2 = .object children) →
      entry.1 ∈ names) :
    flattenEntry conv.toSnakeCase "" names entry =
      (entryLeaves conv names entry).map (Leaf.entry conv) := by
  obtain ⟨key, value⟩ := entry
  unfold flattenEntry entryLeaves
  by_cases hkey : key ∈ names
  · have hnames : NamesProviderVariable conv names key := Or.inl hkey
    simp [hkey, hnames, Leaf.entry, Leaf.target]
  · by_cases hnames : NamesProviderVariable conv names key
    · cases value with
      | object children => exact absurd (h hnames ⟨children, rfl⟩) hkey
      | _ => simp [hkey, hnames, Leaf.entry, Leaf.target]
    · cases value with
      | object children => simp [hkey, hnames, Leaf.entry, Leaf.target, Function.comp_def]
      | _ => simp [hkey, hnames, Leaf.entry, Leaf.target]

theorem flatten_eq {provided : Json} {fields : List (String × Json)}
    (hfields : provided = .object fields) (h : SpelledAsDeclared conv names provided) :
    flattenAndConvertFirstLevelKeysToSnakeCase conv.toSnakeCase "" names provided =
      .ofFields ((providedLeaves conv names provided).map (Leaf.entry conv)) := by
  subst hfields
  have hentries : fields.flatMap (flattenEntry conv.toSnakeCase "" names) =
      fields.flatMap fun entry => (entryLeaves conv names entry).map (Leaf.entry conv) :=
    List.flatMap_congr fun entry hentry => flattenEntry_eq conv names (h entry hentry)
  change Json.ofFields (fields.flatMap (flattenEntry conv.toSnakeCase "" names)) =
    Json.ofFields ((fields.flatMap (entryLeaves conv names)).map (Leaf.entry conv))
  rw [hentries, List.map_flatMap]

/-- The leaf of a variable that is given whole. -/
theorem mem_providedLeaves_of_provider {fields : List (String × Json)} {entry : String × Json}
    (hentry : entry ∈ fields) (h : NamesProviderVariable conv names entry.1) :
    (⟨entry.1, none, entry.2⟩ : Leaf) ∈ providedLeaves conv names (.object fields) := by
  refine List.mem_flatMap.2 ⟨entry, hentry, ?_⟩
  unfold entryLeaves
  rw [if_pos h]
  exact List.mem_singleton_self _

/-- Only a variable that is not flattened gives its own name. -/
theorem eq_of_mem_flattenEntry {entry : String × Json} {key : String} {value : Json}
    (h : (conv.toSnakeCase key, value) ∈ flattenEntry conv.toSnakeCase "" names entry) :
    conv.toSnakeCase entry.1 = conv.toSnakeCase key ∧ entry.2 = value ∧
      (entry.1 ∈ names ∨ ∀ children, value ≠ .object children) := by
  obtain ⟨name, given⟩ := entry
  unfold flattenEntry at h
  by_cases hname : name ∈ names
  · rw [if_pos hname] at h
    obtain ⟨hkey, hvalue⟩ := Prod.mk.inj (List.mem_singleton.1 h)
    exact ⟨hkey.symm, hvalue.symm, Or.inl hname⟩
  · rw [if_neg hname] at h
    cases given with
    | object children =>
        obtain ⟨child, -, heq⟩ := List.mem_map.1 h
        exact absurd (congrArg Prod.fst heq).symm (toSnakeCase_ne conv key name child.1)
    | _ =>
        obtain ⟨hkey, rfl⟩ := Prod.mk.inj (List.mem_singleton.1 h)
        exact ⟨hkey.symm, rfl, Or.inr fun children => by simp⟩

/-- An object that is a provider variable in another spelling is lost. -/
theorem not_delivered_of_spelling {fields : List (String × Json)} {entry : String × Json}
    {children : List (String × Json)} (hentry : entry ∈ fields)
    (hprovider : NamesProviderVariable conv names entry.1) (hvalue : entry.2 = .object children)
    (hnot : entry.1 ∉ names) :
    ¬ Delivered conv names (.object fields)
      (flattenAndConvertFirstLevelKeysToSnakeCase conv.toSnakeCase "" names (.object fields)) := by
  intro h
  have hleaf := mem_providedLeaves_of_provider conv names hentry hprovider
  have harrives := h.arrives _ hleaf
  have hlookup := (Json.get?_ofFields _ _).symm.trans harrives
  obtain ⟨other, hother, hmem⟩ :=
    List.mem_flatMap.1 (List.mem_reverse.1 (OrderedMap.mem_of_lookup hlookup))
  obtain ⟨hkey, hsame, hwhole⟩ := eq_of_mem_flattenEntry conv names hmem
  -- What arrives in its place is another provider variable, which has the same target.
  have hdeclared : other.1 ∈ names := hwhole.resolve_right fun hno => hno children hvalue
  have hother := mem_providedLeaves_of_provider conv names hother (Or.inl hdeclared)
  have heq := List.inj_on_of_nodup_map h.distinct hother hleaf hkey
  have hclaim : other.1 = entry.1 := congrArg Leaf.claim heq
  exact hnot (hclaim ▸ hdeclared)

/-! ## Delivery -/

theorem delivered_of_entries {provided vars : Json}
    (hvars : vars = .ofFields ((providedLeaves conv names provided).map (Leaf.entry conv)))
    (hdistinct : ((providedLeaves conv names provided).map (Leaf.target conv)).Nodup) :
    Delivered conv names provided vars := by
  have hlookup : ∀ key, vars.get? key =
      ((providedLeaves conv names provided).map (Leaf.entry conv)).reverse.lookup key := by
    intro key
    rw [hvars]
    exact Json.get?_ofFields key _
  refine ⟨fun leaf hleaf => ?_, fun key value hkey => ?_, hdistinct⟩
  · rw [hlookup]
    refine OrderedMap.lookup_of_mem ?_ (List.mem_reverse.2 (List.mem_map_of_mem hleaf))
    unfold OrderedMap.keys
    rw [List.map_reverse, List.nodup_reverse, List.map_map]
    exact hdistinct
  · rw [hlookup] at hkey
    have hmem := List.mem_reverse.1 (OrderedMap.mem_of_lookup hkey)
    obtain ⟨leaf, hleaf, heq⟩ := List.mem_map.1 hmem
    obtain ⟨htarget, hvalue⟩ := Prod.mk.inj heq
    exact ⟨leaf, hleaf, htarget, hvalue⟩

theorem delivered_flatten_iff {provided : Json} {fields : List (String × Json)}
    (hfields : provided = .object fields) :
    Delivered conv names provided
        (flattenAndConvertFirstLevelKeysToSnakeCase conv.toSnakeCase "" names provided) ↔
      ((providedLeaves conv names provided).map (Leaf.spelling conv)).Nodup ∧
        SpelledAsDeclared conv names provided := by
  constructor
  · intro h
    refine ⟨(nodup_targets_iff conv).1 h.distinct, fun entry hentry hprovider hvalue => ?_⟩
    subst hfields
    obtain ⟨children, hvalue⟩ := hvalue
    by_contra hnot
    exact not_delivered_of_spelling conv names hentry hprovider hvalue hnot h
  · rintro ⟨hdistinct, hspelled⟩
    exact delivered_of_entries conv names (flatten_eq conv names hfields hspelled)
      ((nodup_targets_iff conv).2 hdistinct)

/-- The variables of an accepted claim of a stack are delivered exactly when no two of the provided
leaves have one spelling in snake case, and the provider variables that are given as objects are
given in the spelling in which they are declared. -/
theorem delivered_iff {r : ClaimRequest} {id : String} {prepared : ApiInfraPayloadWithVariables}
    (h : r.prepare = .ok (id, prepared)) (version track : String) {record : ModuleResp}
    (hversion : claimedVersion r.claim.spec = .ok (true, version))
    (htrack : getVersionTrack version = some track)
    (hrecord : r.services.registry.getModuleVersion r.store (r.services.toLowercase r.claim.kind)
      track version = .ok (some record)) :
    Delivered r.services.conv ((providerVariables record).map TfVariable.name)
        (providedVariables r.services.conv r.claim.spec) prepared.vars ↔
      ((providedLeaves r.services.conv ((providerVariables record).map TfVariable.name)
          (providedVariables r.services.conv r.claim.spec)).map
            (Leaf.spelling r.services.conv)).Nodup ∧
        SpelledAsDeclared r.services.conv ((providerVariables record).map TfVariable.name)
          (providedVariables r.services.conv r.claim.spec) := by
  obtain ⟨isStack, record', haccepted⟩ := r.accepted h
  obtain ⟨rfl, rfl⟩ := haccepted.record_eq hversion htrack hrecord
  obtain ⟨fields, hfields⟩ := exists_fields_providedVariables r.services.conv r.claim.spec
  rw [haccepted.vars]
  exact delivered_flatten_iff _ _ hfields

/-! ## Two spellings, and a provider variable -/

def tagsProvider : ProviderResp where
  name := "aws"
  version := "1.0.0"
  timestamp := "2025-01-01T00:00:00Z"
  description := ""
  reference := ""
  manifest := .null
  tfVariables := [⟨"default_tags", .string "map(string)", some (.object [("a", .string "b")]), "",
    false, false⟩]
  tfExtraEnvironmentVariables := []
  s3Key := ""

/-- A stack with a claim `bucket` that has one variable, and a provider that has one. -/
def bucketStack : ModuleResp :=
  { webModule "stable" "1.0.0" with
    moduleType := "stack"
    tfVariables := [⟨"bucket__bucket_name", .string "string", none, "", false, false⟩]
    tfProviders := [tagsProvider] }

def bucketStore : RegionStore :=
  RegionStore.empty.put ⟨.modules, ⟨"MODULE#stable::web", "VERSION#001.000.000"⟩,
    .module bucketStack⟩

def bucketClaim (vars : YamlMapping) : ClaimRequest :=
  let claim := webClaim "a" "eu-central-1" "cli/default"
  { claim with
    store := bucketStore
    claim :=
      { claim.claim with
        spec :=
          { claim.claim.spec with
            moduleVersion := none
            stackVersion := some "1.0.0"
            vars } } }

/-- One variable of the claim in two spellings, of which the first one is lost. -/
def spelledTwice : ClaimRequest :=
  bucketClaim [(.string "bucket",
    .mapping [(.string "bucketName", .string "a"), (.string "bucket_name", .string "b")])]

/-- The tags of the provider are set to none, which is lost. -/
def withoutTags : ClaimRequest :=
  bucketClaim [(.string "bucket", .mapping [(.string "bucketName", .string "a")]),
    (.string "defaultTags", .mapping [])]

def spelledOnce : ClaimRequest :=
  bucketClaim [(.string "bucket", .mapping [(.string "bucketName", .string "a")])]

/-- The variables of an accepted claim of the stack are those that are flattened. -/
theorem vars_bucketClaim {vars : YamlMapping} {id : String}
    {prepared : ApiInfraPayloadWithVariables} (h : (bucketClaim vars).prepare = .ok (id, prepared)) :
    prepared.vars = flattenAndConvertFirstLevelKeysToSnakeCase asciiConventions.toSnakeCase ""
      ["default_tags"] (providedVariables asciiConventions (bucketClaim vars).claim.spec) := by
  obtain ⟨isStack, record, haccepted⟩ := (bucketClaim vars).accepted h
  have htrack : getVersionTrack "1.0.0" = some "stable" := by decide
  have hrecord : localServices.getModuleVersion bucketStore (Text.toLowercase "Web") "stable"
      "1.0.0" = .ok (some bucketStack) := by
    decide +kernel
  obtain ⟨rfl, rfl⟩ := haccepted.record_eq rfl htrack hrecord
  exact haccepted.vars

theorem not_delivered_bucketClaim :
    (∃ id prepared, spelledTwice.prepare = .ok (id, prepared) ∧
      ¬ Delivered asciiConventions ["default_tags"]
        (providedVariables asciiConventions spelledTwice.claim.spec) prepared.vars) ∧
    ∃ id prepared, withoutTags.prepare = .ok (id, prepared) ∧
      ¬ Delivered asciiConventions ["default_tags"]
        (providedVariables asciiConventions withoutTags.claim.spec) prepared.vars := by
  constructor
  · obtain ⟨id, prepared, h⟩ := exists_prepare (r := spelledTwice) (by decide +kernel)
    exact ⟨id, prepared, h, fun hdelivered => absurd hdelivered.distinct (by decide +kernel)⟩
  · obtain ⟨id, prepared, h⟩ := exists_prepare (r := withoutTags) (by decide +kernel)
    refine ⟨id, prepared, h, ?_⟩
    rw [vars_bucketClaim h]
    have hentry : ("defaultTags", .object []) ∈
        (providedVariables asciiConventions withoutTags.claim.spec).asObject.getD [] := by
      decide +kernel
    obtain ⟨fields, hfields⟩ :=
      exists_fields_providedVariables asciiConventions withoutTags.claim.spec
    intro hdelivered
    have hspelled := ((delivered_flatten_iff _ _ hfields).1 hdelivered).2
    exact absurd (hspelled _ hentry (by decide +kernel) ⟨[], rfl⟩) (by decide)

theorem delivered_iff_spelledOnce :
    ∃ prepared, Delivered asciiConventions ((providerVariables bucketStack).map TfVariable.name)
        (providedVariables asciiConventions spelledOnce.claim.spec) prepared ↔
      ((providedLeaves asciiConventions ((providerVariables bucketStack).map TfVariable.name)
          (providedVariables asciiConventions spelledOnce.claim.spec)).map
            (Leaf.spelling asciiConventions)).Nodup ∧
        SpelledAsDeclared asciiConventions ((providerVariables bucketStack).map TfVariable.name)
          (providedVariables asciiConventions spelledOnce.claim.spec) := by
  obtain ⟨id, prepared, h⟩ := exists_prepare (r := spelledOnce) (by decide +kernel)
  exact ⟨prepared.vars, delivered_iff h "1.0.0" "stable" rfl (by decide) (by decide +kernel)⟩

end EnvCommon
end InfraWeave
