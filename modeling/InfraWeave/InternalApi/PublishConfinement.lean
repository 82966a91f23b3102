import InfraWeave.EnvCommon.Catalogue
import InfraWeave.EnvCommon.PublishedRecords
import InfraWeave.InternalApi.PublishRoutes

/-!
# Confinement of publishes

A caller is authorised to publish a module, a stack or a policy, and the record that is written
comes from the same request.  A publish is confined when every row and every object that it writes
belongs to what the caller was authorised for, and what belongs to anything else stays.
-/

namespace InfraWeave
namespace InternalApi

open EnvCommon

/-- What a caller is authorised to publish. -/
inductive Resource where
  | module (type : ModuleType) (name track : String)
  | policy (name : String)

namespace Resource

/-- The record is one of the resource. -/
def Owns : Resource → Item → Prop
  | module type name track, .module record =>
      kindOf record = type ∧ record.module = name ∧ record.track = track
  | policy name, .policy record => record.policy = name
  | _, _ => False

/-- The partition of the latest versions of a type. -/
def latestPartition : ModuleType → String
  | .module => "LATEST_MODULE"
  | .stack => "LATEST_STACK"

/-- The record has the name of the resource; of a module or stack its kind is left open. -/
def Names : Resource → Item → Prop
  | module _ name track, .module record => record.module = name ∧ record.track = track
  | policy name, .policy record => record.policy = name
  | _, _ => False

/-- The rows of the resource: those of its versions and that of the latest one.  A policy has them
in each environment. -/
def OwnsKey : Resource → Table → Key → Prop
  | module type name track, table, key =>
      table = .modules ∧ (key.pk = moduleId name track ∨
        key = ⟨latestPartition type, moduleId name track⟩)
  | policy name, table, key =>
      table = .policies ∧ ∃ environment, key.pk = policyId name environment ∨
        key = ⟨"CURRENT", policyId name environment⟩

/-- The zip of a version of the resource. -/
def zip : Resource → String → Bucket × String
  | module _ name _, version => (.modules, zipKey name version)
  | policy name, version => (.policies, zipKey name version)

end Resource

/-- The writes of a publish of a version belong to the resource.  Nothing that belongs to another
one changes: its rows stay, and its zip is not written.  The caches of providers belong to nobody;
they are written only where there is none. -/
structure ConfinedTo (resource : Resource) (version : String) (reg : Registry)
    (ws : List (String × Write)) : Prop where
  rows : ∀ region puts, (region, .transact puts) ∈ ws → ∀ p ∈ puts,
    resource.OwnsKey p.table p.key
  objects : ∀ region bucket key content, (region, .upload bucket key content) ∈ ws →
    (bucket, key) = resource.zip version
  caches : ∀ region bucket key content, (region, .uploadIfAbsent bucket key content) ∈ ws →
    bucket = .providers
  others : ∀ region table key item, (reg region).item table key = some item →
    ¬ resource.Owns item → (reg.applyAll ws region).item table key = some item ∧
      ∀ content, (region, .upload item.zip.1 item.zip.2 content) ∉ ws

/-- What a request leaves open: the zip that its record names, the kind of its record, and who owns
what is stored where the record goes. -/
structure Fits (resource : Resource) (reg : Registry) (regions : List String) (item : Item) :
    Prop where
  zip : item.zip = resource.zip item.version
  owns : resource.Owns item
  replaced : ∀ region ∈ regions, ∀ table key old, (reg region).item table key = some old →
    (old.zip = item.zip ∨ ∃ v, zeroPadSemver item.version 3 = some v ∧
      ∃ p ∈ item.puts v, p.table = table ∧ p.key = key) → resource.Owns old

theorem latestPk_eq_iff (record : ModuleResp) (type : ModuleType) :
    latestPk record = Resource.latestPartition type ↔ kindOf record = type := by
  unfold latestPk kindOf
  cases record.stackData <;> cases type <;> simp [Resource.latestPartition]

theorem ownsKey_of_owns {resource : Resource} {item : Item} (h : resource.Owns item) {v : String}
    {p : Put} (hp : p ∈ item.puts v) : resource.OwnsKey p.table p.key := by
  cases resource with
  | module type name track =>
      cases item with
      | module record =>
          obtain ⟨hkind, rfl, rfl⟩ := h
          rcases List.mem_pair.1 hp with rfl | rfl
          · exact ⟨rfl, Or.inl rfl⟩
          · refine ⟨rfl, Or.inr ?_⟩
            have hpartition := (latestPk_eq_iff record type).2 hkind
            rw [← hpartition]
      | provider | policy => cases h
  | policy name =>
      cases item with
      | policy record =>
          obtain rfl : record.policy = name := h
          refine ⟨?_, record.environment, ?_⟩
          · rcases List.mem_pair.1 hp with rfl | rfl <;> rfl
          · rcases List.mem_pair.1 hp with rfl | rfl
            · exact Or.inl rfl
            · exact Or.inr rfl
      | module | provider => cases h

/-- A record with the name of the resource is one of it when all its rows are the resource's: the
row of the latest version tells modules and stacks apart. -/
theorem owns_of_ownsKey {resource : Resource} {item : Item} (hnames : resource.Names item)
    {v : String} (h : ∀ p ∈ item.puts v, resource.OwnsKey p.table p.key) : resource.Owns item := by
  cases resource with
  | module type name track =>
      cases item with
      | module record =>
          refine ⟨?_, hnames⟩
          have hlatest := h ⟨.modules, ⟨latestPk record, moduleId record.module record.track⟩,
            .module record⟩ (List.mem_cons_of_mem _ List.mem_cons_self)
          rcases hlatest.2 with hpk | hkey
          · -- No partition of latest versions is one of a module.
            have hhead := head?_latestPk record
            rw [show latestPk record = moduleId name track from hpk, head?_moduleId] at hhead
            cases hhead
          · exact (latestPk_eq_iff record type).1 (congrArg Key.pk hkey)
      | provider | policy => exact hnames.elim
  | policy name =>
      cases item with
      | policy record => exact hnames
      | module | provider => exact hnames.elim

theorem confinedTo_iff_fits {resource : Resource} {item : Item} {regions : List String}
    {ws : List (String × Write)} (h : Published item regions ws) (hnames : resource.Names item)
    (reg : Registry) :
    ConfinedTo resource item.version reg ws ↔ Fits resource reg regions item := by
  obtain ⟨v, hv⟩ := h.version
  constructor
  · intro hconfined
    obtain ⟨region, hregion⟩ := List.exists_mem_of_ne_nil _ h.nonempty
    have howns : resource.Owns item :=
      owns_of_ownsKey hnames (hconfined.rows region _ (h.rows region hregion v hv))
    refine ⟨?_, howns, ?_⟩
    · obtain ⟨content, hmem⟩ := h.zip region hregion
      exact hconfined.objects region _ _ content hmem
    · intro region hregion table key old hold hplace
      by_contra hother
      obtain ⟨hstays, hunwritten⟩ := hconfined.others region table key old hold hother
      rcases hplace with hzip | ⟨v', hv', p, hp, rfl, rfl⟩
      · obtain ⟨content, hmem⟩ := h.zip region hregion
        rw [← hzip] at hmem
        exact hunwritten content hmem
      · -- The row is replaced by the record, which belongs to the resource.
        obtain rfl : v' = v := Option.some.inj (hv'.symm.trans hv)
        obtain ⟨new, hnew⟩ := written_isSome_of_mem hp
        have hsame : new = item := item_eq_of_mem_puts (mem_of_written hnew)
        rw [h.item_applyAll hv, if_pos hregion, hnew, hsame] at hstays
        obtain rfl : item = old := Option.some.inj hstays
        exact hother howns
  · intro hfits
    refine ⟨?_, ?_, ?_, ?_⟩
    · intro region puts hw p hp
      rcases (h.only region _ hw).2 with ⟨content, heq⟩ | ⟨v', -, heq⟩ | ⟨key, content, heq⟩
      · cases heq
      · obtain rfl := Write.transact.inj heq
        exact ownsKey_of_owns hfits.owns hp
      · cases heq
    · intro region bucket key content hw
      rcases (h.only region _ hw).2 with ⟨content', heq⟩ | ⟨v', -, heq⟩ | ⟨key', content', heq⟩
      · obtain ⟨rfl, rfl, -⟩ := Write.upload.inj heq
        exact hfits.zip
      · cases heq
      · cases heq
    · intro region bucket key content hw
      rcases (h.only region _ hw).2 with ⟨content', heq⟩ | ⟨v', -, heq⟩ | ⟨key', content', heq⟩
      · cases heq
      · cases heq
      · exact (Write.uploadIfAbsent.inj heq).1
    · intro region table key old hold hother
      constructor
      · rw [h.item_applyAll hv]
        split
        · rename_i hregion
          cases hwritten : written (item.puts v) table key with
          | none => exact hold
          | some new =>
              have hp := mem_of_written hwritten
              exact absurd (hfits.replaced region hregion table key old hold
                (Or.inr ⟨v, hv, _, hp, rfl, rfl⟩)) hother
        · exact hold
      · intro content hw
        obtain ⟨hregion, hcases⟩ := h.only region _ hw
        rcases hcases with ⟨content', heq⟩ | ⟨v', -, heq⟩ | ⟨key', content', heq⟩
        · obtain ⟨hbucket, hkey, -⟩ := Write.upload.inj heq
          have hzip : old.zip = item.zip := Prod.ext hbucket hkey
          exact hother (hfits.replaced region hregion table key old hold (Or.inl hzip))
        · cases heq
        · -- A cache is no zip: it is not even the same kind of write.
          cases heq

/-! ## Requests -/

inductive PublishRequest where
  | module (body : PublishModuleBody)
  | stack (body : PublishModuleBody)
  | policy (body : PublishPolicyBody)

namespace PublishRequest

def outcome (auth : PublishAuth) (serde : Serde) (services : Services) (reg : Registry)
    (handler : GenericCloudHandler) (headers : Headers) :
    PublishRequest → Publishing PublishError Unit
  | module body => publishModule auth serde services reg handler headers body
  | stack body => publishStack auth serde services reg handler headers body
  | policy body => publishPolicy auth serde services reg handler headers body

/-- The caller has been found to be authorised for the resource that the route asked about. -/
def Authorised (auth : PublishAuth) (headers : Headers) : PublishRequest → Resource → Prop
  | module body, resource => ∃ name track version,
      publishModuleResource body "module" = .ok (name, track, version) ∧
      ensurePublishAccess auth headers "module" name (some track) = .ok () ∧
      resource = .module .module name track
  | stack body, resource => ∃ name track version,
      publishModuleResource body "stack" = .ok (name, track, version) ∧
      ensurePublishAccess auth headers "stack" name (some track) = .ok () ∧
      resource = .module .stack name track
  | policy body, resource =>
      ensurePublishAccess auth headers "policy" (policyName body) none = .ok () ∧
      resource = .policy (policyName body)

/-- The record of a request. -/
def item (serde : Serde) : PublishRequest → Option Item
  | module body => (serde.moduleResp body.module).map Item.module
  | stack body => (serde.moduleResp body.module).map Item.module
  | policy body => (serde.policyResp body.policy).map Item.policy

end PublishRequest

theorem requiredStringField_eq_ok {json : Json} {field resourceType text : String}
    (h : requiredStringField json field resourceType = .ok text) :
    Serde.field json field Json.asStr = some text := by
  unfold requiredStringField at h
  split at h
  · rename_i text' hfield
    obtain rfl := Except.ok.inj h
    exact (Option.filter_eq_some_iff.1 hfield).1
  · cases h

theorem publishModuleResource_eq_ok {body : PublishModuleBody}
    {resourceType name track version : String}
    (h : publishModuleResource body resourceType = .ok (name, track, version)) :
    Serde.field body.module "module" Json.asStr = some name ∧
      Serde.field body.module "track" Json.asStr = some track := by
  obtain ⟨name', hname, h⟩ := bind_eq_ok_iff.1 h
  obtain ⟨track', htrack, h⟩ := bind_eq_ok_iff.1 h
  obtain ⟨version', -, h⟩ := bind_eq_ok_iff.1 h
  obtain ⟨_, -, h⟩ := bind_eq_ok_iff.1 h
  obtain ⟨_, -, h⟩ := bind_eq_ok_iff.1 h
  obtain ⟨rfl, rfl, -⟩ : name' = name ∧ track' = track ∧ version' = version := by
    simpa using Except.ok.inj h
  exact ⟨requiredStringField_eq_ok hname, requiredStringField_eq_ok htrack⟩

/-- A record has the name and the track that its JSON gives. -/
theorem fields_of_moduleResp {serde : Serde} {json : Json} {record : ModuleResp}
    (h : serde.moduleResp json = some record) :
    Serde.field json "module" Json.asStr = some record.module ∧
      Serde.field json "track" Json.asStr = some record.track := by
  obtain ⟨track, htrack, h⟩ := Option.bind_eq_some_iff.1 h
  iterate 4 obtain ⟨_, -, h⟩ := Option.bind_eq_some_iff.1 h
  obtain ⟨name, hname, h⟩ := Option.bind_eq_some_iff.1 h
  iterate 18 obtain ⟨_, -, h⟩ := Option.bind_eq_some_iff.1 h
  rw [← Option.some.inj h]
  exact ⟨hname, htrack⟩

theorem policy_of_policyResp {serde : Serde} {json : Json} {record : PolicyResp}
    (h : serde.policyResp json = some record) :
    Serde.field json "policy" Json.asStr = some record.policy := by
  iterate 5 obtain ⟨_, -, h⟩ := Option.bind_eq_some_iff.1 h
  obtain ⟨name, hname, h⟩ := Option.bind_eq_some_iff.1 h
  iterate 5 obtain ⟨_, -, h⟩ := Option.bind_eq_some_iff.1 h
  rw [← Option.some.inj h]
  exact hname

section

variable {auth : PublishAuth} {serde : Serde} {services : Services} {reg : Registry}
  {handler : GenericCloudHandler} {headers : Headers}

/-- The routes of modules and stacks: the record has the name and the track that the caller was
authorised for, and what the route has written is what the server publish of the record wrote. -/
theorem publishResource_cases {resourceType : String} {body : PublishModuleBody}
    {serverPublish : ModuleResp → String → Publishing ModuleError Unit} {record : ModuleResp}
    (hok : (publishResource auth serde resourceType serverPublish headers body).result = .ok ())
    (hrecord : serde.moduleResp body.module = some record) :
    (serverPublish record body.zipBase64).result = .ok () ∧
      (publishResource auth serde resourceType serverPublish headers body).writes =
        (serverPublish record body.zipBase64).writes := by
  unfold publishResource at hok ⊢
  obtain ⟨⟨name, track, version⟩, hresource, hok⟩ := Outcome.result_bind_eq_ok.1 hok
  obtain ⟨_, haccess, hok⟩ := Outcome.result_bind_eq_ok.1 hok
  obtain ⟨module, hmodule, hok⟩ := Outcome.result_bind_eq_ok.1 hok
  rw [Outcome.writes_bind_of_ok hresource, Outcome.writes_bind_of_ok haccess,
    Outcome.writes_bind_of_ok hmodule]
  have hread : deserialize serde resourceType serde.moduleResp body.module = .ok module := hmodule
  obtain rfl : record = module := by
    rw [deserialize, hrecord] at hread
    exact Except.ok.inj hread
  exact ⟨Outcome.result_mapError_eq_ok.1 hok, rfl⟩

theorem publishPolicy_cases {body : PublishPolicyBody} {record : PolicyResp}
    (hok : (publishPolicy auth serde services reg handler headers body).result = .ok ())
    (hrecord : serde.policyResp body.policy = some record) :
    (serverPublishPolicy services reg handler record body.zipBase64).result = .ok () ∧
      (publishPolicy auth serde services reg handler headers body).writes =
        (serverPublishPolicy services reg handler record body.zipBase64).writes := by
  unfold publishPolicy at hok ⊢
  obtain ⟨_, haccess, hok⟩ := Outcome.result_bind_eq_ok.1 hok
  obtain ⟨policy, hpolicy, hok⟩ := Outcome.result_bind_eq_ok.1 hok
  rw [Outcome.writes_bind_of_ok haccess, Outcome.writes_bind_of_ok hpolicy]
  have hread : deserialize serde "policy" serde.policyResp body.policy = .ok policy := hpolicy
  obtain rfl : record = policy := by
    rw [deserialize, hrecord] at hread
    exact Except.ok.inj hread
  exact ⟨Outcome.result_mapError_eq_ok.1 hok, rfl⟩

/-- The access check of a module or stack is about the record that is written. -/
theorem names_of_resource {resourceType name track version : String} {type : ModuleType}
    {body : PublishModuleBody} {record : ModuleResp}
    (hresource : publishModuleResource body resourceType = .ok (name, track, version))
    (hrecord : serde.moduleResp body.module = some record) :
    (Resource.module type name track).Names (.module record) := by
  obtain ⟨hname, htrack⟩ := publishModuleResource_eq_ok hresource
  obtain ⟨hname', htrack'⟩ := fields_of_moduleResp hrecord
  exact ⟨Option.some.inj (hname'.symm.trans hname), Option.some.inj (htrack'.symm.trans htrack)⟩

theorem names_policy {body : PublishPolicyBody} {record : PolicyResp}
    (hrecord : serde.policyResp body.policy = some record) :
    (Resource.policy (policyName body)).Names (.policy record) := by
  have hfield : (body.policy.get? "policy").bind Json.asStr = some record.policy :=
    policy_of_policyResp hrecord
  change record.policy = policyName body
  rw [policyName, hfield]
  rfl

/-- An accepted request has stored its record, which has the name of the resource that the caller
was authorised for. -/
theorem accepted_cases {request : PublishRequest} {resource : Resource} {item : Item}
    (hok : (request.outcome auth serde services reg handler headers).result = .ok ())
    (hauthorised : request.Authorised auth headers resource)
    (hitem : request.item serde = some item) :
    resource.Names item ∧ Published item handler.allRegions
      (request.outcome auth serde services reg handler headers).writes := by
  cases request with
  | module body =>
      obtain ⟨name, track, version, hresource, -, rfl⟩ := hauthorised
      obtain ⟨record, hrecord, rfl⟩ := Option.map_eq_some_iff.1 hitem
      obtain ⟨hserver, hwrites⟩ := publishResource_cases hok hrecord
      refine ⟨names_of_resource hresource hrecord, ?_⟩
      change Published _ _ (publishResource auth serde _ _ headers body).writes
      rw [hwrites]
      exact serverPublishModule_published hserver
  | stack body =>
      obtain ⟨name, track, version, hresource, -, rfl⟩ := hauthorised
      obtain ⟨record, hrecord, rfl⟩ := Option.map_eq_some_iff.1 hitem
      obtain ⟨hserver, hwrites⟩ := publishResource_cases hok hrecord
      refine ⟨names_of_resource hresource hrecord, ?_⟩
      change Published _ _ (publishResource auth serde _ _ headers body).writes
      rw [hwrites]
      exact serverPublishStack_published hserver
  | policy body =>
      obtain ⟨-, rfl⟩ := hauthorised
      obtain ⟨record, hrecord, rfl⟩ := Option.map_eq_some_iff.1 hitem
      obtain ⟨hserver, hwrites⟩ := publishPolicy_cases hok hrecord
      refine ⟨names_policy hrecord, ?_⟩
      change Published _ _ (publishPolicy auth serde _ _ _ headers body).writes
      rw [hwrites]
      exact serverPublishPolicy_published hserver

/-- The theorem above is about every accepted request: its caller was authorised and its record was
read. -/
theorem authorised_of_accepted {request : PublishRequest}
    (hok : (request.outcome auth serde services reg handler headers).result = .ok ()) :
    ∃ resource item, request.Authorised auth headers resource ∧
      request.item serde = some item := by
  have hread : ∀ {α : Type} {noun : String} {read : Json → Option α} {json : Json} {record : α},
      deserialize serde noun read json = .ok record → read json = some record := by
    intro α noun read json record h
    unfold deserialize at h
    split at h
    · rename_i hjson
      rw [hjson, Except.ok.inj h]
    · cases h
  cases request with
  | module body | stack body =>
      obtain ⟨⟨name, track, version⟩, hresource, hok⟩ := Outcome.result_bind_eq_ok.1 hok
      obtain ⟨_, haccess, hok⟩ := Outcome.result_bind_eq_ok.1 hok
      obtain ⟨record, hrecord, -⟩ := Outcome.result_bind_eq_ok.1 hok
      exact ⟨_, .module record, ⟨name, track, version, hresource, haccess, rfl⟩,
        Option.map_eq_some_iff.2 ⟨record, hread hrecord, rfl⟩⟩
  | policy body =>
      obtain ⟨_, haccess, hok⟩ := Outcome.result_bind_eq_ok.1 hok
      obtain ⟨record, hrecord, -⟩ := Outcome.result_bind_eq_ok.1 hok
      exact ⟨_, .policy record, ⟨haccess, rfl⟩,
        Option.map_eq_some_iff.2 ⟨record, hread hrecord, rfl⟩⟩

end

/-! ## A caller who may publish one module -/

/-- The policy lets everyone publish `web` on the track `stable`, and nothing else. -/
def webPublishers : PublishAuth where
  codec :=
    { urlSafeJson := fun text =>
        if text = "eyJzdWIiOiJkZXYifQ" then some (.object [("sub", .string "dev")]) else none
      standardJson := fun _ => none }
  checkPublish _ resourceType resourceName track :=
    resourceType = "module" && resourceName = "web" && track = some "stable"

def devHeaders : Headers :=
  ⟨none, some "eyJzdWIiOiJkZXYifQ", none⟩

def readEmpty {α : Type} : Json → Option (List α)
  | .array [] => some []
  | _ => none

/-- Readers that know no list but the empty one; a manifest is an object with a `spec`. -/
def localSerde : Serde where
  manifest json := (json.get? "spec").map fun _ => json
  tfVariables := readEmpty
  tfOutputs := readEmpty
  tfProviders := readEmpty
  tfRequiredProviders := readEmpty
  tfLockProviders := readEmpty
  texts := readEmpty
  ociArtifactSet := some
  stackData json := ((json.get? "modules").bind readEmpty).map ModuleStackData.mk
  versionDiff := some
  message _ := "invalid type"

/-- The request to publish `web` 1.0.0, with the zip key that the client chose. -/
def webRequest (s3Key : String) : PublishRequest :=
  .module
    { zipBase64 := "Yg=="
      module := .object
        [("cpu", .string "256"), ("description", .string ""),
          ("manifest", webManifest "1.0.0"), ("memory", .string "512"),
          ("module", .string "web"), ("module_name", .string "Web"),
          ("module_type", .string "module"), ("reference", .string ""),
          ("s3_key", .string s3Key), ("tf_outputs", .array []), ("tf_variables", .array []),
          ("timestamp", .string "2025-01-01T00:00:00Z"), ("track", .string "stable"),
          ("track_version", .string "stable#1.0.0"), ("version", .string "1.0.0")]
      track := some "stable"
      version := none
      jobId := none }

def webRecord (s3Key : String) : ModuleResp :=
  { webModule "stable" "1.0.0" with s3Key := s3Key }

theorem item_webRequest (s3Key : String) :
    (webRequest s3Key).item localSerde = some (.module (webRecord s3Key)) := by
  rfl

theorem authorised_webRequest (s3Key : String) :
    (webRequest s3Key).Authorised webPublishers devHeaders (.module .module "web" "stable") := by
  refine ⟨"web", "stable", "1.0.0", rfl, ?_, rfl⟩
  decide +kernel

def dbModule : ModuleResp :=
  { webModule "stable" "1.0.0" with module := "db", s3Key := zipKey "db" "1.0.0" }

/-- `db` has been published. -/
def dbRegistry : Registry :=
  (localRun [.serverModule dbModule "YQ=="]).registry

end InternalApi
end InfraWeave
