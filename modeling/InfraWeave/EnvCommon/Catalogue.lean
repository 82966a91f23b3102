import InfraWeave.EnvCommon.Publications

/-!
# Runs of publishes

The state of a run is the registry together with the list of the releases that have been stored.
A publish step applies the writes of one publish.
-/

namespace InfraWeave
namespace EnvCommon

def Publish.route : Publish → ModuleType
  | serverStack _ _ => .stack
  | directStack _ _ => .stack
  | _ => .module

def Item.release (route : ModuleType) : Item → Option Release
  | module record => some (.module route record)
  | provider record => some (.provider record)
  | policy _ => none

/-- The release whose rows are among the writes. -/
def Publish.stored (op : Publish) (ws : List (String × Write)) : Option Release :=
  (ws.flatMap fun w => w.2.puts).head?.bind fun put => put.item.release op.route

structure Catalogue where
  registry : Registry
  accepted : List Release

namespace Catalogue

def empty : Catalogue :=
  ⟨.empty, []⟩

def publish (services : Services) (c : Catalogue) (call : GenericCloudHandler × Publish) :
    Catalogue :=
  let ws := (call.2.outcome services c.registry call.1).writes
  ⟨c.registry.applyAll ws, c.accepted ++ (call.2.stored ws).toList⟩

end Catalogue

/-! ## The rows of a release -/

/-- The row of the version of a release, under the padded version. -/
def Release.versionKey : Release → String → Key
  | .module _ record, v => ⟨moduleId record.module record.track, "VERSION#" ++ v⟩
  | .provider record, v => ⟨providerId record.name, "VERSION#" ++ v⟩

/-- The row of the latest version that a release replaces. -/
def Release.latestKey : Release → Key
  | .module _ record => ⟨latestPk record, moduleId record.module record.track⟩
  | .provider record => ⟨"LATEST_PROVIDER", providerId record.name⟩

def Release.item : Release → Item
  | .module _ record => .module record
  | .provider record => .provider record

theorem Release.puts_eq (release : Release) (v : String) : release.puts v =
    [⟨.modules, release.versionKey v, release.item⟩,
     ⟨.modules, release.latestKey, release.item⟩] := by
  cases release <;> rfl

theorem head?_moduleId (module track : String) : (moduleId module track).toList.head? = some 'M' := by
  simp [moduleId]

theorem head?_providerId (provider : String) : (providerId provider).toList.head? = some 'P' := by
  simp [providerId]

theorem head?_latestPk (record : ModuleResp) : (latestPk record).toList.head? = some 'L' := by
  unfold latestPk
  split <;> rfl

theorem Release.head?_versionKey (release : Release) (v : String) :
    (release.versionKey v).pk.toList.head? ≠ some 'L' := by
  cases release with
  | module route record =>
      change (moduleId _ _).toList.head? ≠ _
      rw [head?_moduleId]
      decide
  | provider record =>
      change (providerId _).toList.head? ≠ _
      rw [head?_providerId]
      decide

theorem Release.head?_latestKey (release : Release) :
    release.latestKey.pk.toList.head? = some 'L' := by
  cases release with
  | module route record => exact head?_latestPk record
  | provider record => simp [Release.latestKey]

/-- The rows of versions and the rows of latest versions are in different partitions. -/
theorem Release.versionKey_ne (release release' : Release) (v : String) :
    release.versionKey v ≠ release'.latestKey := by
  intro h
  exact release.head?_versionKey v (by rw [h, release'.head?_latestKey])

theorem written_puts (release : Release) (v : String) (key : Key) :
    written (release.puts v) .modules key =
      if key = release.versionKey v ∨ key = release.latestKey then some release.item else none := by
  rw [release.puts_eq]
  simp only [written, true_and, Option.none_or]
  by_cases hlatest : key = release.latestKey
  · simp [hlatest]
  · by_cases hversion : key = release.versionKey v
    · simp [hversion, release.versionKey_ne release v]
    · simp [hlatest, hversion]

/-- The partition of a row of versions of a module or stack. -/
def Key.IsModuleVersion (key : Key) : Prop :=
  ∃ name track, key.pk = moduleId name track

theorem Key.IsModuleVersion.ne_latestKey {key : Key} (h : key.IsModuleVersion)
    (release : Release) : key ≠ release.latestKey := by
  rintro rfl
  obtain ⟨name, track, hpk⟩ := h
  have hhead := release.head?_latestKey
  rw [hpk, head?_moduleId] at hhead
  cases hhead

/-- The versions of providers have partitions of their own. -/
theorem not_isModuleVersion_provider (record : ProviderResp) (v : String) :
    ¬ ((Release.provider record).versionKey v).IsModuleVersion := by
  rintro ⟨name, track, hpk⟩
  have hhead : (providerId record.name).toList.head? = (moduleId name track).toList.head? :=
    congrArg (fun pk => pk.toList.head?) hpk
  rw [head?_moduleId, head?_providerId] at hhead
  cases hhead

/-! ## Steps -/

theorem stored_eq_of_mem {services : Services} {s : RegionStore} {op : Publish}
    {release : Release} {regions : List String} {ws : List (String × Write)}
    (hoffers : op.Offers services s release) (hstores : Stores release regions ws)
    {w : String × Write} (hw : w ∈ ws) (hputs : w.2.puts ≠ []) : op.stored ws = some release := by
  have hall : ∀ p ∈ ws.flatMap fun w => w.2.puts, p.item = release.item := by
    intro p hp
    obtain ⟨⟨region, w'⟩, hw', hp⟩ := List.mem_flatMap.1 hp
    obtain ⟨v, -, hputs'⟩ := hstores.puts_eq hw' (List.ne_nil_of_mem hp)
    rw [hputs', release.puts_eq] at hp
    rcases List.mem_pair.1 hp with rfl | rfl <;> rfl
  have hne : (ws.flatMap fun w => w.2.puts) ≠ [] := by
    obtain ⟨p, hp⟩ := List.exists_mem_of_ne_nil _ hputs
    exact List.ne_nil_of_mem (List.mem_flatMap.2 ⟨w, hw, hp⟩)
  have hroute : release.item.release op.route = some release := by
    cases op with
    | serverModule | serverStack | serverProvider =>
        obtain rfl := hoffers
        rfl
    | directModule =>
        obtain ⟨_, _, _, _, -, -, -, -, -, rfl⟩ := hoffers
        rfl
    | directStack =>
        obtain ⟨_, _, _, -, -, -, -, rfl⟩ := hoffers
        rfl
    | directProvider =>
        obtain ⟨_, -, rfl⟩ := hoffers
        rfl
  unfold Publish.stored
  cases hhead : (ws.flatMap fun w => w.2.puts).head? with
  | none => exact absurd (List.head?_eq_none_iff.1 hhead) hne
  | some p =>
      rw [← hroute, ← hall p (List.mem_of_head? hhead)]
      rfl

theorem stored_eq_none {op : Publish} {ws : List (String × Write)}
    (h : ∀ w ∈ ws, w.2.puts = []) : op.stored ws = none := by
  have hnil : (ws.flatMap fun w => w.2.puts) = [] := by
    rw [List.flatMap_eq_nil_iff]
    exact h
  simp [Publish.stored, hnil]

/-- The rows of a release have been put in the regions, and nothing else. -/
def RowsPut (release : Release) (v : String) (regions : List String) (reg reg' : Registry) : Prop :=
  ∀ region table key, (reg' region).item table key =
    if region ∈ regions ∧ table = .modules ∧
        (key = release.versionKey v ∨ key = release.latestKey) then some release.item
    else (reg region).item table key

/-- What a publish step does to the rows: nothing, or it stores a release that has passed the
checks in every region of the handler. -/
theorem publish_cases (services : Services) (c : Catalogue) (handler : GenericCloudHandler)
    (op : Publish) :
    let c' := c.publish services (handler, op)
    (c'.accepted = c.accepted ∧
      ∀ region table key, (c'.registry region).item table key =
        (c.registry region).item table key) ∨
    ∃ release v, op.Offers services (c.registry handler.region) release ∧
      Admitted services (c.registry handler.region) release ∧
      zeroPadSemver release.version 3 = some v ∧ c'.accepted = c.accepted ++ [release] ∧
      RowsPut release v handler.allRegions c.registry c'.registry := by
  intro c'
  have hregistry : c'.registry =
      c.registry.applyAll (op.outcome services c.registry handler).writes := rfl
  have haccepted : c'.accepted =
      c.accepted ++ (op.stored (op.outcome services c.registry handler).writes).toList := rfl
  generalize hws : (op.outcome services c.registry handler).writes = ws at hregistry haccepted
  have heffect := outcome_effect services c.registry handler op
  rw [hws] at heffect
  by_cases hputs : ∀ w ∈ ws, w.2.puts = []
  · refine Or.inl ⟨?_, fun region table key => ?_⟩
    · rw [haccepted, stored_eq_none hputs]
      exact List.append_nil _
    · rw [hregistry, Registry.item_applyAll_of_nil _ fun w hw => hputs _ hw]
  · simp only [not_forall] at hputs
    obtain ⟨⟨target, w⟩, hw, hne⟩ := hputs
    rcases heffect with hnil | ⟨release, hoffers, hadmitted, hstores⟩
    · rw [hnil] at hw
      cases hw
    · obtain ⟨v, hv, hsame⟩ := hstores.puts_eq hw hne
      refine Or.inr ⟨release, v, hoffers, hadmitted, hv, ?_, fun region table key => ?_⟩
      · rw [haccepted, stored_eq_of_mem hoffers hstores hw hne]
        rfl
      · rw [hregistry]
        have hall : ∀ w', (region, w') ∈ ws → w'.puts = [] ∨ w'.puts = release.puts v := by
          intro w' hw'
          refine or_iff_not_imp_left.2 fun hne' => ?_
          obtain ⟨v', hv', hputs'⟩ := hstores.puts_eq hw' hne'
          rw [hputs', Option.some.inj (hv'.symm.trans hv)]
        by_cases hregion : region ∈ handler.allRegions
        · rw [Registry.item_applyAll _ hall
            ⟨w, hstores.everywhere hw hne region hregion, hsame⟩]
          cases table with
          | modules =>
              rw [written_puts]
              by_cases hkey : key = release.versionKey v ∨ key = release.latestKey
              · simp [hkey, hregion]
              · simp [hkey]
          | policies =>
              rw [release.puts_eq]
              simp [written]
        · rw [Registry.item_applyAll_of_nil, if_neg fun h => hregion h.1]
          intro w' hw'
          exact absurd (hstores.region hw') hregion

theorem RowsPut.latest {release : Release} {v : String} {regions : List String}
    {reg reg' : Registry} (h : RowsPut release v regions reg reg') {region : String} {key : Key}
    (hkey : key.pk.toList.head? = some 'L') : (reg' region).item .modules key =
      if region ∈ regions ∧ key = release.latestKey then some release.item
      else (reg region).item .modules key := by
  have hversion : key ≠ release.versionKey v := by
    rintro rfl
    exact release.head?_versionKey v hkey
  rw [h region .modules key]
  simp [hversion]

theorem RowsPut.version {release : Release} {v : String} {regions : List String}
    {reg reg' : Registry} (h : RowsPut release v regions reg reg') {region : String} {key : Key}
    (hkey : key.IsModuleVersion) : (reg' region).item .modules key =
      if region ∈ regions ∧ key = release.versionKey v then some release.item
      else (reg region).item .modules key := by
  rw [h region .modules key]
  simp [hkey.ne_latestKey release]

/-- The zips that a publish step may replace: that of a release that has passed the checks. -/
theorem objects_publish (services : Services) (c : Catalogue) (handler : GenericCloudHandler)
    (op : Publish) {region key : String}
    (h : ∀ release, op.Offers services (c.registry handler.region) release →
      Admitted services (c.registry handler.region) release → release.s3Key ≠ key) :
    ((c.publish services (handler, op)).registry region).objects .modules key =
      (c.registry region).objects .modules key := by
  refine Registry.objects_applyAll_of_ne _ fun w hw hobject => ?_
  rcases outcome_effect services c.registry handler op with hnil | ⟨release, hoffers, hadm, hstores⟩
  · change (region, w) ∈ (op.outcome services c.registry handler).writes at hw
    rw [hnil] at hw
    cases hw
  · rcases hstores.write hw with ⟨content, rfl⟩ | ⟨v, -, rfl⟩ | ⟨key', content, rfl⟩
    · refine h release hoffers hadm ?_
      simpa [Write.object] using hobject
    · cases hobject
    · simp [Write.object] at hobject

/-! ## A registry in one region -/

def localServices : Services where
  base64Decode zip :=
    if zip = "YQ==" then .ok [97]
    else if zip = "Yg==" then .ok [98]
    else .error "Failed to decode base64"
  semverError version := "invalid version " ++ version
  mapError _ := "Failed to map modules"
  getProviderUrlKey _ _ _ := .error "Failed to query Registry API"
  fetch _ := .error "error sending request"

def localHandler : GenericCloudHandler :=
  ⟨"eu-central-1", ["eu-central-1"], none⟩

def webManifest (version : String) : Json :=
  .object
    [("apiVersion", .string "infraweave.io/v1"), ("kind", .string "Module"),
      ("metadata", .object [("name", .string "web")]),
      ("spec", .object
        [("description", .string ""), ("moduleName", .string "Web"), ("providers", .array []),
          ("reference", .string ""), ("version", .string version)])]

def webModule (track version : String) : ModuleResp where
  track := track
  trackVersion := track ++ "#" ++ version
  version := version
  timestamp := "2025-01-01T00:00:00Z"
  moduleName := "Web"
  module := "web"
  moduleType := "module"
  description := ""
  reference := ""
  manifest := webManifest version
  tfVariables := []
  tfOutputs := []
  tfProviders := []
  tfRequiredProviders := []
  tfLockProviders := []
  tfExtraEnvironmentVariables := []
  s3Key := zipKey "web" version
  ociArtifactSet := none
  stackData := none
  versionDiff := none
  cpu := "256"
  memory := "512"
  deprecated := false
  deprecatedMessage := none

/-- The publishes of a run, one after the other, in one region. -/
def localRun (publishes : List Publish) : Catalogue :=
  run (Catalogue.publish localServices) .empty (publishes.map fun op => (localHandler, op))

end EnvCommon
end InfraWeave
