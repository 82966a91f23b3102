import InfraWeave.EnvCommon.ApiStackPublish
import InfraWeave.Lib.Runs

/-!
# What a publish does

The six publish paths in one type, and one inversion theorem about them: a publish either writes
nothing, or it has passed its checks and writes one release: its zip, its two rows (in every region
or in none) and the caches of the providers that it locks.
-/

namespace InfraWeave
namespace EnvCommon

/-- What is published, with the route that a module record came by. -/
inductive Release where
  | module (route : ModuleType) (record : ModuleResp)
  | provider (record : ProviderResp)
  deriving DecidableEq

namespace Release

def version : Release → String
  | module _ record => record.version
  | provider record => record.version

def s3Key : Release → String
  | module _ record => record.s3Key
  | provider record => record.s3Key

def puts : Release → String → List Put
  | module _ record => modulePuts record
  | provider record => providerPuts record

end Release

inductive Publish where
  | serverModule (module : ModuleResp) (zipBase64 : String)
  | serverStack (module : ModuleResp) (zipBase64 : String)
  | serverProvider (provider : ProviderResp) (zipBase64 : String)
  | directModule (source : ModuleSource) (track : String)
  | directStack (source : StackSource) (track : String)
  | directProvider (source : ProviderSource)

def Publish.outcome (services : Services) (reg : Registry) (handler : GenericCloudHandler) :
    Publish → Publishing ModuleError Unit
  | serverModule module zipBase64 => serverPublishModule services reg handler module zipBase64
  | serverStack module zipBase64 => serverPublishStack services reg handler module zipBase64
  | serverProvider provider zipBase64 =>
      serverPublishProvider services reg handler provider zipBase64
  | directModule source track => publishModuleFromZip services reg handler source track
  | directStack source track => publishStack services reg handler source track
  | directProvider source => publishProviderFromZip services reg handler source

/-! ## The writes of a release -/

/-- A write of a provider cache. -/
def Write.IsCache (w : Write) : Prop :=
  ∃ key content, w = .uploadIfAbsent .providers key content

/-- The writes are those of a release; its rows are put in every region or in none. -/
structure Stores (release : Release) (regions : List String) (ws : List (String × Write)) :
    Prop where
  region : ∀ {region w}, (region, w) ∈ ws → region ∈ regions
  write : ∀ {region w}, (region, w) ∈ ws →
    (∃ content, w = .upload .modules release.s3Key content) ∨
    (∃ v, zeroPadSemver release.version 3 = some v ∧ w = .transact (release.puts v)) ∨ w.IsCache
  everywhere : ∀ {region w}, (region, w) ∈ ws → w.puts ≠ [] → ∀ region' ∈ regions,
    (region', w) ∈ ws

/-- How the upload of a release goes in a region: the zip and the rows, or at most the zip. -/
inductive Uploads {ε : Type} (release : Release) (upload : String → Publishing ε Unit) : Prop where
  | stored (content : Content) (v : String) (version : zeroPadSemver release.version 3 = some v)
      (writes : ∀ region, (upload region).writes =
        [(region, .upload .modules release.s3Key content), (region, .transact (release.puts v))])
      (result : ∀ region, (upload region).result = .ok ())
  | failed (writes : ∀ region w, w ∈ (upload region).writes →
      w.1 = region ∧ ∃ content, w.2 = .upload .modules release.s3Key content)

theorem IsCache.puts {w : Write} (h : w.IsCache) : w.puts = [] := by
  obtain ⟨key, content, rfl⟩ := h
  rfl

theorem Stores.add_caches {release : Release} {regions : List String}
    {ws ws' cs : List (String × Write)} (h : Stores release regions ws)
    (hcs : ∀ w ∈ cs, w.1 ∈ regions ∧ w.2.IsCache) (hmem : ∀ w, w ∈ ws' ↔ w ∈ ws ∨ w ∈ cs) :
    Stores release regions ws' where
  region hw := by
    rcases (hmem _).1 hw with hw | hw
    · exact h.region hw
    · exact (hcs _ hw).1
  write hw := by
    rcases (hmem _).1 hw with hw | hw
    · exact h.write hw
    · exact Or.inr (Or.inr (hcs _ hw).2)
  everywhere hw hputs region' hregion' := by
    rcases (hmem _).1 hw with hw | hw
    · exact (hmem _).2 (Or.inl (h.everywhere hw hputs region' hregion'))
    · exact absurd (IsCache.puts (hcs _ hw).2) hputs

/-- The writes of uploads to regions are those of a release when each upload's are. -/
theorem Stores.of_uploads {ε : Type} {release : Release} {upload : String → Publishing ε Unit}
    (h : Uploads release upload) {regions : List String} {ws : List (String × Write)}
    (hws : ∀ w ∈ ws, ∃ region ∈ regions, w ∈ (upload region).writes)
    (hall : (∀ region, (upload region).result = .ok ()) →
      ∀ region ∈ regions, ∀ w ∈ (upload region).writes, w ∈ ws) :
    Stores release regions ws := by
  cases h with
  | stored content v version writes result =>
      have hcases : ∀ {region w}, (region, w) ∈ ws → region ∈ regions ∧
          (w = .upload .modules release.s3Key content ∨ w = .transact (release.puts v)) := by
        intro region w hw
        obtain ⟨region', hregion', hw⟩ := hws _ hw
        rw [writes] at hw
        rcases List.mem_pair.1 hw with hw | hw
        · obtain ⟨rfl, rfl⟩ := Prod.mk.inj hw
          exact ⟨hregion', Or.inl rfl⟩
        · obtain ⟨rfl, rfl⟩ := Prod.mk.inj hw
          exact ⟨hregion', Or.inr rfl⟩
      refine ⟨fun hw => (hcases hw).1, fun hw => ?_, fun hw hputs region' hregion' => ?_⟩
      · rcases (hcases hw).2 with rfl | rfl
        · exact Or.inl ⟨content, rfl⟩
        · exact Or.inr (Or.inl ⟨v, version, rfl⟩)
      · refine hall result region' hregion' _ ?_
        rw [writes]
        rcases (hcases hw).2 with rfl | rfl
        · exact absurd rfl hputs
        · simp
  | failed writes =>
      have hcases : ∀ {region w}, (region, w) ∈ ws → region ∈ regions ∧
          ∃ content, w = .upload .modules release.s3Key content := by
        intro region w hw
        obtain ⟨region', hregion', hw⟩ := hws _ hw
        obtain ⟨rfl, hcontent⟩ := writes _ _ hw
        exact ⟨hregion', hcontent⟩
      refine ⟨fun hw => (hcases hw).1, fun hw => Or.inl (hcases hw).2, fun hw hputs => ?_⟩
      obtain ⟨-, content, rfl⟩ := hcases hw
      exact absurd rfl hputs

theorem Stores.forEach {release : Release} {upload : String → Publishing ModuleError Unit}
    (h : Uploads release upload) (regions : List String) :
    Stores release regions (Outcome.forEach regions upload).writes :=
  .of_uploads h (fun _ => Outcome.mem_writes_forEach) fun hok _ hregion _ hw =>
    Outcome.mem_writes_forEach_of_ok (fun region _ => hok region) hregion hw

theorem Stores.collect {release : Release} {upload : String → Publishing ModuleError Unit}
    (h : Uploads release upload) (regions : List String) :
    Stores release regions (Outcome.collect (regions.map upload)).writes := by
  refine .of_uploads h (fun w hw => ?_) fun _ region hregion w hw => ?_
  · obtain ⟨x, hx, hw⟩ := Outcome.mem_writes_collect.1 hw
    obtain ⟨region, hregion, rfl⟩ := List.mem_map.1 hx
    exact ⟨region, hregion, hw⟩
  · exact Outcome.mem_writes_collect.2 ⟨_, List.mem_map_of_mem hregion, hw⟩

/-- Uploads to regions, collected together with tasks that write caches. -/
theorem Stores.collect_caches {release : Release} {upload : String → Publishing ModuleError Unit}
    (h : Uploads release upload) {regions : List String}
    {tasks caches : List (Publishing ModuleError Unit)}
    (hcaches : ∀ w, (∃ x ∈ caches, w ∈ x.writes) → w.1 ∈ regions ∧ w.2.IsCache)
    (htasks : ∀ x, x ∈ tasks ↔ x ∈ regions.map upload ∨ x ∈ caches) :
    Stores release regions (Outcome.collect tasks).writes := by
  have hcs : ∀ w ∈ (Outcome.collect caches).writes, w.1 ∈ regions ∧ w.2.IsCache :=
    fun w hw => hcaches w (Outcome.mem_writes_collect.1 hw)
  refine (Stores.collect h regions).add_caches hcs fun w => ?_
  simp only [Outcome.mem_writes_collect, htasks, or_and_right, exists_or]

/-- The rows that a write of a release puts, if any, are those of its version. -/
theorem Stores.puts_eq {release : Release} {regions : List String} {ws : List (String × Write)}
    (h : Stores release regions ws) {region : String} {w : Write} (hw : (region, w) ∈ ws)
    (hputs : w.puts ≠ []) :
    ∃ v, zeroPadSemver release.version 3 = some v ∧ w.puts = release.puts v := by
  rcases h.write hw with ⟨content, rfl⟩ | ⟨v, hv, rfl⟩ | hcache
  · exact absurd rfl hputs
  · exact ⟨v, hv, rfl⟩
  · exact absurd (IsCache.puts hcache) hputs

/-! ## Uploads -/

/-- A zip and then the rows of a release. -/
theorem Uploads.of_steps {services : Services} {release : Release} {zipBase64 : String}
    {upload : String → Publishing String Unit}
    (hupload : ∀ region, upload region = do
      (uploadFileBase64 services region release.s3Key .modules zipBase64).mapError
        ("Failed to upload to S3: " ++ ·)
      let v ← .ofExcept (services.parsed (zeroPadSemver · 3) release.version)
      .write (region, .transact (release.puts v)))
    (f : String → String → ModuleError) :
    Uploads release fun region => (upload region).mapError (f region) := by
  cases hzip : services.base64Decode zipBase64 with
  | error e =>
      refine .failed fun region w hw => ?_
      have hnil : (upload region).writes = [] := by
        rw [hupload, uploadFileBase64, hzip]
        rfl
      rw [Outcome.writes_mapError, hnil] at hw
      cases hw
  | ok content =>
      cases hversion : zeroPadSemver release.version 3 with
      | none =>
          refine .failed fun region w hw => ?_
          have hzipOnly : (upload region).writes =
              [(region, .upload .modules release.s3Key content)] := by
            rw [hupload, uploadFileBase64, hzip, Services.parsed, hversion]
            rfl
          rw [Outcome.writes_mapError, hzipOnly, List.mem_singleton] at hw
          rw [hw]
          exact ⟨rfl, content, rfl⟩
      | some v =>
          refine .stored content v hversion (fun region => ?_) fun region => ?_
          · rw [Outcome.writes_mapError, hupload, uploadFileBase64, hzip, Services.parsed, hversion]
            rfl
          · rw [hupload, uploadFileBase64, hzip, Services.parsed, hversion]
            rfl

theorem uploads_module (services : Services) (route : ModuleType) (module : ModuleResp)
    (zipBase64 : String) (f : String → String → ModuleError) :
    Uploads (.module route module) fun region =>
      (uploadModule services region module zipBase64).mapError (f region) :=
  .of_steps (fun _ => rfl) f

theorem uploads_provider (services : Services) (provider : ProviderResp) (zipBase64 : String)
    (f : String → String → ModuleError) :
    Uploads (.provider provider) fun region =>
      (uploadProvider services region provider zipBase64).mapError (f region) :=
  .of_steps (fun _ => rfl) f

theorem isCache_of_mem_uploadProviderCache {services : Services} {reg : Registry} {region : String}
    {tfLockProvider : TfLockProvider} {w : String × Write}
    (h : w ∈ (uploadProviderCache services reg region tfLockProvider).writes) :
    w.1 = region ∧ w.2.IsCache := by
  obtain ⟨category, -, h⟩ := Outcome.mem_writes_forEach h
  rcases Outcome.mem_writes_bind.1 h with h | ⟨⟨url, key⟩, -, h⟩
  · cases h
  · simp only [uploadFileUrl] at h
    split at h
    · cases h
    · rcases Outcome.mem_writes_bind.1 h with h | ⟨content, -, h⟩
      · cases h
      · obtain rfl := List.mem_singleton.1 h
        exact ⟨rfl, key, content, rfl⟩

theorem isCache_of_mem_providerCacheTasks {services : Services} {reg : Registry}
    {handler : GenericCloudHandler} {tfLockProviders : List TfLockProvider} {w : String × Write}
    (h : ∃ x ∈ providerCacheTasks services reg handler tfLockProviders, w ∈ x.writes) :
    w.1 ∈ handler.allRegions ∧ w.2.IsCache := by
  obtain ⟨x, hx, hw⟩ := h
  obtain ⟨region, hregion, hx⟩ := List.mem_flatMap.1 hx
  obtain ⟨provider, -, rfl⟩ := List.mem_map.1 hx
  obtain ⟨rfl, hcache⟩ := isCache_of_mem_uploadProviderCache hw
  exact ⟨hregion, hcache⟩

/-! ## The checks of a publish -/

/-- The checks that a release has passed, in the region of its handler. -/
inductive Admitted (services : Services) (s : RegionStore) : Release → Prop where
  | module {record : ModuleResp}
      (latest : checkLatest services s record.module record.version record.track .module = .ok ())
      (noStack : checkNoStack services s record.module = .ok ()) :
      Admitted services s (.module .module record)
  | stack {record : ModuleResp}
      (latest : checkLatest services s record.module record.version record.track .stack = .ok ())
      (noModule : checkNoModule services s record.module = .ok ()) :
      Admitted services s (.module .stack record)
  | provider {record : ProviderResp}
      (version : checkProviderVersion services record.version = .ok ())
      (latest : checkLatestProvider services s record.name record.version = .ok ()) :
      Admitted services s (.provider record)

/-- The release that a publish is about.  The server takes the record of the request; the command
line builds it, for a track that matches the version. -/
def Publish.Offers (services : Services) (s : RegionStore) : Publish → Release → Prop
  | serverModule module _, release => release = .module .module module
  | serverStack module _, release => release = .module .stack module
  | serverProvider provider _, release => release = .provider provider
  | directModule source track, release => ∃ version padded providers parts,
      source.version = some version ∧
      getProvidersForModule services s source.providers = .ok providers ∧
      source.parts providers = .ok parts ∧
      ensureTrackMatchesVersion services track version = .ok () ∧
      services.parsed (zeroPadSemver · 3) version = .ok padded ∧
      release = .module .module (source.record track version padded providers parts)
  | directStack source track, release => ∃ version padded parts,
      source.version = some version ∧ source.parts s = .ok parts ∧
      ensureTrackMatchesVersion services track version = .ok () ∧
      services.parsed (zeroPadSemver · 3) version = .ok padded ∧
      release = .module .stack (source.record track version padded parts)
  | directProvider source, release => ∃ version, source.version = some version ∧
      release = .provider (source.record version)

/-- What a publish did: nothing, or it stored a release that it was about and that passed the
checks. -/
def Publish.Effect (services : Services) (reg : Registry) (handler : GenericCloudHandler)
    (op : Publish) (ws : List (String × Write)) : Prop :=
  ws = [] ∨ ∃ release, op.Offers services (reg handler.region) release ∧
    Admitted services (reg handler.region) release ∧ Stores release handler.allRegions ws

/-- A check that fails ends a publish before it writes. -/
theorem effect_of_check {services : Services} {reg : Registry} {handler : GenericCloudHandler}
    {op : Publish} {α : Type} {check : Except ModuleError α} {f : α → Publishing ModuleError Unit}
    (h : ∀ a, check = .ok a → op.Effect services reg handler (f a).writes) :
    op.Effect services reg handler
      ((Outcome.ofExcept check : Publishing ModuleError α) >>= f).writes := by
  rw [Outcome.writes_bind]
  cases check with
  | error e => exact Or.inl rfl
  | ok a => exact h a rfl

section

variable (services : Services) (reg : Registry) (handler : GenericCloudHandler)

theorem serverPublishModule_effect (module : ModuleResp) (zipBase64 : String) :
    (Publish.serverModule module zipBase64).Effect services reg handler
      (serverPublishModule services reg handler module zipBase64).writes := by
  unfold serverPublishModule
  split
  · exact Or.inl rfl
  · refine effect_of_check fun _ hlatest => effect_of_check fun _ hstack => ?_
    exact Or.inr ⟨_, rfl, .module hlatest hstack,
      .forEach (uploads_module services .module module zipBase64 _) _⟩

theorem serverPublishStack_effect (module : ModuleResp) (zipBase64 : String) :
    (Publish.serverStack module zipBase64).Effect services reg handler
      (serverPublishStack services reg handler module zipBase64).writes := by
  unfold serverPublishStack
  split
  · exact Or.inl rfl
  · refine effect_of_check fun _ hlatest => effect_of_check fun _ hmodule => ?_
    refine Or.inr ⟨_, rfl, .stack hlatest hmodule, ?_⟩
    have hstores := Stores.forEach (uploads_module services .stack module zipBase64 fun region e =>
      .uploadModuleError ("Failed to upload stack to region " ++ region ++ ": " ++ e))
      handler.allRegions
    rw [Outcome.writes_bind]
    refine hstores.add_caches (fun w hw => ?_) fun w => List.mem_append
    split at hw
    · obtain ⟨region, hregion, hw⟩ := Outcome.mem_writes_forEach hw
      obtain ⟨provider, -, hw⟩ := Outcome.mem_writes_forEach hw
      obtain ⟨rfl, hcache⟩ := isCache_of_mem_uploadProviderCache hw
      exact ⟨hregion, hcache⟩
    · cases hw

theorem serverPublishProvider_effect (provider : ProviderResp) (zipBase64 : String) :
    (Publish.serverProvider provider zipBase64).Effect services reg handler
      (serverPublishProvider services reg handler provider zipBase64).writes := by
  unfold serverPublishProvider
  split
  · exact Or.inl rfl
  · refine effect_of_check fun _ hversion => effect_of_check fun _ hlatest => ?_
    exact Or.inr ⟨_, rfl, .provider hversion hlatest,
      .forEach (uploads_provider services provider zipBase64 _) _⟩

theorem publishModuleFromZip_effect (source : ModuleSource) (track : String) :
    (Publish.directModule source track).Effect services reg handler
      (publishModuleFromZip services reg handler source track).writes := by
  unfold publishModuleFromZip
  refine effect_of_check fun providers hproviders => ?_
  split
  · exact Or.inl rfl
  · refine effect_of_check fun parts hparts => ?_
    split
    · exact Or.inl rfl
    · rename_i version hversion
      refine effect_of_check fun _ htrack => effect_of_check fun _ _ =>
        effect_of_check fun _ hlatest => effect_of_check fun _ hstack =>
        effect_of_check fun padded hpadded => ?_
      dsimp only
      split
      · exact Or.inl rfl
      · refine Or.inr ⟨.module .module (source.record track version padded providers parts),
          ⟨version, padded, providers, parts, hversion, hproviders, hparts, htrack,
            mapError_eq_ok_iff.1 hpadded, rfl⟩,
          .module hlatest hstack, ?_⟩
        exact .collect_caches (uploads_module services .module _ _ _)
          (fun _ => isCache_of_mem_providerCacheTasks) fun x => by rw [List.mem_append, or_comm]

theorem publishStack_effect (source : StackSource) (track : String) :
    (Publish.directStack source track).Effect services reg handler
      (publishStack services reg handler source track).writes := by
  unfold publishStack
  refine effect_of_check fun parts hparts => ?_
  split
  · exact Or.inl rfl
  · rename_i version hversion
    refine effect_of_check fun _ _ => effect_of_check fun _ htrack =>
      effect_of_check fun _ _ => effect_of_check fun padded hpadded =>
      effect_of_check fun _ hlatest => effect_of_check fun _ hmodule => ?_
    refine Or.inr ⟨.module .stack (source.record track version padded parts),
      ⟨version, padded, parts, hversion, hparts, htrack, mapError_eq_ok_iff.1 hpadded, rfl⟩,
      .stack hlatest hmodule, ?_⟩
    exact .collect_caches (uploads_module services .stack _ _ fun _ => .uploadModuleError)
      (fun _ => isCache_of_mem_providerCacheTasks) fun x => List.mem_append

theorem publishProviderFromZip_effect (source : ProviderSource) :
    (Publish.directProvider source).Effect services reg handler
      (publishProviderFromZip services reg handler source).writes := by
  unfold publishProviderFromZip
  split
  · exact Or.inl rfl
  · rename_i version hsource
    refine effect_of_check fun _ hversion => effect_of_check fun _ hlatest => ?_
    refine Or.inr ⟨.provider (source.record version), ⟨version, hsource, rfl⟩,
      .provider hversion hlatest, ?_⟩
    exact .collect (uploads_provider services (source.record version) source.zipBase64 _) _

/-- What the six publish paths do. -/
theorem outcome_effect (op : Publish) :
    op.Effect services reg handler (op.outcome services reg handler).writes := by
  cases op with
  | serverModule module zipBase64 => exact serverPublishModule_effect services reg handler _ _
  | serverStack module zipBase64 => exact serverPublishStack_effect services reg handler _ _
  | serverProvider provider zipBase64 => exact serverPublishProvider_effect services reg handler _ _
  | directModule source track => exact publishModuleFromZip_effect services reg handler _ _
  | directStack source track => exact publishStack_effect services reg handler _ _
  | directProvider source => exact publishProviderFromZip_effect services reg handler _

end

end EnvCommon
end InfraWeave
