import InfraWeave.EnvCommon.Deprecation

/-!
# Deprecations are effective

A write changes the rows of one region: a deprecation marks the row of its version, a publish puts
the rows of its release.  As long as the two do not get in each other's way, a version that is
deprecated stays so and is not the latest one, and no job of a new deployment gets past its checks.
-/

namespace InfraWeave
namespace EnvCommon

open Deployments

/-! ## Rows -/

/-- The rows of versions and of latest versions of modules and stacks. -/
def Key.IsModuleRow (key : Key) : Prop :=
  key.IsModuleVersion ∨ key.pk = "LATEST_MODULE" ∨ key.pk = "LATEST_STACK"

inductive RegistryWrite : Write → Prop
  | mark (key : Key) (record : ModuleResp) (hkey : key.IsModuleVersion)
      (hdeprecated : record.deprecated = true) :
      RegistryWrite (.transact [⟨.modules, key, .module record⟩])
  | release (record : ModuleResp) (v : String) (hv : zeroPadSemver record.version 3 = some v)
      (hdeprecated : record.deprecated = false) : RegistryWrite (.transact (modulePuts record v))
  | other (w : Write) (hother : ∀ p ∈ w.puts, ¬ p.key.IsModuleRow) : RegistryWrite w

theorem latestRow_ne {pk sk : String} (hpk : pk = "LATEST_MODULE" ∨ pk = "LATEST_STACK") {key : Key}
    (hkey : key.IsModuleVersion) : (⟨pk, sk⟩ : Key) ≠ key := by
  rintro rfl
  obtain ⟨name, track, hname⟩ := hkey
  have hhead := congrArg (fun pk => pk.toList.head?) hname
  dsimp only at hhead
  rw [head?_moduleId] at hhead
  rcases hpk with rfl | rfl
  · exact absurd hhead (by decide)
  · exact absurd hhead (by decide)

section

variable {s : RegionStore} {key : Key}

theorem LatestNames.isModuleVersion (h : LatestNames s key) : key.IsModuleVersion := by
  obtain ⟨pk, name, track, record, -, -, hkey⟩ := h
  exact isModuleVersion_of_query hkey

theorem Write.Releases.isModuleVersion {w : Write} (h : w.Releases key) : key.IsModuleVersion := by
  obtain ⟨record, v, -, rfl⟩ := h
  exact ⟨record.module, record.track, rfl⟩

theorem item_apply_mark (s : RegionStore) (marked : Key) (record : ModuleResp) (key : Key) :
    (s.apply (.transact [⟨.modules, marked, .module record⟩])).item .modules key =
      if key = marked then some (.module record) else s.item .modules key := by
  simp [RegionStore.apply, RegionStore.item_put]

theorem item_apply_release (s : RegionStore) (record : ModuleResp) (v : String) (key : Key) :
    (s.apply (.transact (modulePuts record v))).item .modules key =
      if key = (Release.module .module record).versionKey v ∨
          key = (Release.module .module record).latestKey then some (.module record)
      else s.item .modules key := by
  rw [RegionStore.item_apply]
  change (written ((Release.module .module record).puts v) .modules key).or _ = _
  rw [written_puts]
  split
  · rfl
  · rfl

theorem item_apply_other {w : Write} (h : ∀ p ∈ w.puts, ¬ p.key.IsModuleRow)
    (hkey : key.IsModuleRow) : (s.apply w).item .modules key = s.item .modules key := by
  rw [RegionStore.item_apply]
  cases hwritten : written w.puts .modules key with
  | none => rfl
  | some item => exact absurd hkey (h _ (mem_of_written hwritten))

/-! ## Writes -/

variable {w : Write}

/-- Only a publish makes a version the latest one. -/
theorem latestNames_apply (hw : RegistryWrite w) (h : LatestNames (s.apply w) key) :
    LatestNames s key ∨ w.Releases key := by
  obtain ⟨pk, name, track, found, hpk, hrow, hkey⟩ := h
  cases hw with
  | mark marked record hmarked hdeprecated =>
      rw [item_apply_mark, if_neg (latestRow_ne hpk hmarked)] at hrow
      exact Or.inl ⟨pk, name, track, found, hpk, hrow, hkey⟩
  | release record v hv hdeprecated =>
      rw [item_apply_release] at hrow
      split at hrow
      · rename_i hput
        rcases hput with hversion | hlatest
        · exact absurd hversion (latestRow_ne hpk ⟨record.module, record.track, rfl⟩)
        · -- The record that has been put names its own version.
          obtain rfl : record = found := by simpa using hrow
          have hid : moduleId name track = moduleId record.module record.track :=
            congrArg Key.sk hlatest
          refine Or.inr ⟨record, v, rfl, ?_⟩
          rw [getModuleVersionQuery, hv, hid] at hkey
          exact (Option.some.inj hkey).symm
      · exact Or.inl ⟨pk, name, track, found, hpk, hrow, hkey⟩
  | other w hother =>
      rw [item_apply_other hother (Or.inr hpk)] at hrow
      exact Or.inl ⟨pk, name, track, found, hpk, hrow, hkey⟩

/-- A row that is deprecated was so before, or has been marked. -/
theorem rowDeprecated_apply (hw : RegistryWrite w) (hkey : key.IsModuleVersion)
    (h : RowDeprecated (s.apply w) key) :
    ¬ w.Releases key ∧ (RowDeprecated s key ∨ w.Marks key) := by
  obtain ⟨found, hrow, hfound⟩ := h
  cases hw with
  | mark marked record hmarked hdeprecated =>
      refine ⟨?_, ?_⟩
      · rintro ⟨record', v, heq, -⟩
        have hlength : 1 = 2 := congrArg (fun w => w.puts.length) heq
        cases hlength
      · rw [item_apply_mark] at hrow
        split at hrow
        · rename_i heq
          exact Or.inr ⟨record, heq ▸ rfl⟩
        · exact Or.inl ⟨found, hrow, hfound⟩
  | release record v hv hdeprecated =>
      rw [item_apply_release] at hrow
      split at hrow
      · obtain rfl : record = found := by simpa using hrow
        rw [hdeprecated] at hfound
        cases hfound
      · rename_i hput
        refine ⟨?_, Or.inl ⟨found, hrow, hfound⟩⟩
        rintro ⟨record', v', heq, rfl⟩
        have hput' : (⟨.modules, ⟨moduleId record'.module record'.track, "VERSION#" ++ v'⟩,
            .module record'⟩ : Put) ∈ (Write.transact (modulePuts record v)).puts := by
          rw [heq]
          exact List.mem_cons_self
        rcases List.mem_pair.1 hput' with hsame | hsame
        · exact hput (Or.inl (congrArg Put.key hsame))
        · exact hput (Or.inr (congrArg Put.key hsame))
  | other w hother =>
      refine ⟨?_, ?_⟩
      · rintro ⟨record, v, rfl, rfl⟩
        exact hother _ List.mem_cons_self (Or.inl hkey)
      · rw [item_apply_other hother (Or.inl hkey)] at hrow
        exact Or.inl ⟨found, hrow, hfound⟩

/-- A row that is deprecated stays so, unless it is published again. -/
theorem RowDeprecated.apply (h : RowDeprecated s key) (hw : RegistryWrite w)
    (hkey : key.IsModuleVersion) (hrelease : ¬ w.Releases key) : RowDeprecated (s.apply w) key := by
  obtain ⟨found, hrow, hfound⟩ := h
  cases hw with
  | mark marked record hmarked hdeprecated =>
      unfold RowDeprecated
      rw [item_apply_mark]
      by_cases heq : key = marked
      · rw [if_pos heq]
        exact ⟨record, rfl, hdeprecated⟩
      · rw [if_neg heq]
        exact ⟨found, hrow, hfound⟩
  | release record v hv hdeprecated =>
      refine ⟨found, ?_, hfound⟩
      rw [item_apply_release, if_neg, hrow]
      rintro (hversion | hlatest)
      · exact hrelease ⟨record, v, rfl, hversion⟩
      · exact hkey.ne_latestKey _ hlatest
  | other w hother =>
      refine ⟨found, ?_, hfound⟩
      rw [item_apply_other hother (Or.inl hkey), hrow]

end

/-! ## What is about to be written -/

theorem mem_writes_putDeprecation {regions : List String} {put : Put} {w : String × Write}
    (h : w ∈ (putDeprecation regions put).writes) :
    ∃ region ∈ regions, w = (region, .transact [put]) := by
  obtain ⟨region, hregion, hw⟩ := Outcome.mem_writes_forEach h
  exact ⟨region, hregion, List.mem_singleton.1 hw⟩

/-- A deprecation marks the row of its version in the regions of its handler. -/
theorem mem_writes_deprecation {services : Services} {reg : Registry}
    {handler : GenericCloudHandler} {kind : ModuleType} {name track version : String}
    {message : Option String} {w : String × Write}
    (h : w ∈ (deprecation services reg handler kind name track version message).writes) :
    ∃ key record, getModuleVersionQuery name track version = some key ∧
      record.deprecated = true ∧ w.1 ∈ handler.allRegions ∧
      w.2 = .transact [⟨.modules, key, .module record⟩] := by
  have hprepared : ∃ put, prepare services (reg handler.region) kind name track version message =
      .ok put ∧ w ∈ (putDeprecation handler.allRegions put).writes := by
    cases kind with
    | module =>
        simp only [deprecation, deprecateModule] at h
        split at h
        · cases h
        · rcases Outcome.mem_writes_bind.1 h with h | ⟨put, hput, h⟩
          · cases h
          · exact ⟨put, hput, h⟩
    | stack =>
        simp only [deprecation, deprecateStack] at h
        split at h
        · cases h
        · rcases Outcome.mem_writes_bind.1 h with h | ⟨put, hput, h⟩
          · cases h
          · exact ⟨put, hput, h⟩
  obtain ⟨put, hput, hw⟩ := hprepared
  obtain ⟨key, existing, hkey, -, -, rfl⟩ := prepare_ok hput
  obtain ⟨region, hregion, rfl⟩ := mem_writes_putDeprecation hw
  exact ⟨key, _, hkey, rfl, hregion, rfl⟩

theorem not_isModuleRow_versionKey (record : ProviderResp) (v : String) :
    ¬ ((Release.provider record).versionKey v).IsModuleRow := by
  have hhead := (Release.provider record).head?_versionKey v
  rintro (hversion | hlatest | hlatest)
  · exact not_isModuleVersion_provider record v hversion
  · rw [hlatest] at hhead
    exact hhead (by decide)
  · rw [hlatest] at hhead
    exact hhead (by decide)

theorem not_isModuleRow_latestKey (record : ProviderResp) :
    ¬ (Release.provider record).latestKey.IsModuleRow := by
  have hprovider : (Release.provider record).latestKey.pk = "LATEST_PROVIDER" := rfl
  rintro (hversion | hlatest | hlatest)
  · exact hversion.ne_latestKey (.provider record) rfl
  · exact absurd (hprovider.symm.trans hlatest) (by decide)
  · exact absurd (hprovider.symm.trans hlatest) (by decide)

/-- A publish puts the rows of one release; what else it writes is not in the registry's rows of
modules and stacks. -/
theorem mem_writes_publish {services : Services} {reg : Registry} {handler : GenericCloudHandler}
    {op : Publish} {w : String × Write} (h : w ∈ (op.outcome services reg handler).writes) :
    (∀ p ∈ w.2.puts, ¬ p.key.IsModuleRow) ∨ ∃ route record v,
      op.Offers services (reg handler.region) (.module route record) ∧
      Admitted services (reg handler.region) (.module route record) ∧
      zeroPadSemver record.version 3 = some v ∧ w.1 ∈ handler.allRegions ∧
      w.2 = .transact (modulePuts record v) := by
  rcases outcome_effect services reg handler op with hnil | ⟨release, hoffers, hadmitted, hstores⟩
  · rw [hnil] at h
    cases h
  · obtain ⟨region, w⟩ := w
    rcases hstores.write h with ⟨content, rfl⟩ | ⟨v, hv, rfl⟩ | hcache
    · exact Or.inl fun p hp => by cases hp
    · cases release with
      | module route record =>
          exact Or.inr ⟨route, record, v, hoffers, hadmitted, hv, hstores.region h, rfl⟩
      | provider record =>
          refine Or.inl fun p hp => ?_
          rcases List.mem_pair.1 hp with rfl | rfl
          · exact not_isModuleRow_versionKey record v
          · exact not_isModuleRow_latestKey record
    · rw [IsCache.puts hcache]
      exact Or.inl fun p hp => by cases hp

/-! ## The invariant -/

structure DeprecationInvariant (s : Platform) : Prop where
  written : ∀ region w, s.Writes region w → RegistryWrite w
  latest : ∀ region key, LatestNames (s.registry region) key →
    ¬ RowDeprecated (s.registry region) key
  marks : ∀ region key, s.Marks region key → ¬ LatestNames (s.registry region) key
  releases : ∀ region key, s.Releases region key → ¬ RowDeprecated (s.registry region) key
  apart : ∀ region key, s.Marks region key → ¬ s.Releases region key
  wellFormed : s.table.WellFormed

theorem deprecationInvariant_empty : DeprecationInvariant .empty where
  written region w h := by
    obtain ⟨ws, hws, -⟩ := h
    cases hws
  latest region key h := by
    obtain ⟨pk, name, track, record, -, hrow, -⟩ := h
    cases hrow
  marks region key h := by
    obtain ⟨w, ⟨ws, hws, -⟩, -⟩ := h
    cases hws
  releases region key h := by
    obtain ⟨w, ⟨ws, hws, -⟩, -⟩ := h
    cases hws
  apart region key h := by
    obtain ⟨w, ⟨ws, hws, -⟩, -⟩ := h
    cases hws
  wellFormed := wellFormed_empty

section

variable {s : Platform}

theorem Platform.Marks.mono {s s' : Platform}
    (h : ∀ region w, s'.Writes region w → s.Writes region w) {region : String} {key : Key}
    (hmarks : s'.Marks region key) : s.Marks region key := by
  obtain ⟨w, hw, hkey⟩ := hmarks
  exact ⟨w, h region w hw, hkey⟩

theorem Platform.Releases.mono {s s' : Platform}
    (h : ∀ region w, s'.Writes region w → s.Writes region w) {region : String} {key : Key}
    (hreleases : s'.Releases region key) : s.Releases region key := by
  obtain ⟨w, hw, hkey⟩ := hreleases
  exact ⟨w, h region w hw, hkey⟩

/-- The invariant is about the registry, what is pending and the keys of the table. -/
theorem DeprecationInvariant.congr {s' : Platform} (hinv : DeprecationInvariant s)
    (hregistry : s'.registry = s.registry) (hpending : s'.pending = s.pending)
    (hwf : s'.table.WellFormed) : DeprecationInvariant s' := by
  have hwrites : ∀ region w, s'.Writes region w → s.Writes region w := by
    intro region w h
    unfold Platform.Writes at h
    rwa [hpending] at h
  exact
    { written := fun region w h => hinv.written region w (hwrites region w h)
      latest := fun region key => by
        rw [hregistry]
        exact hinv.latest region key
      marks := fun region key h => by
        rw [hregistry]
        exact hinv.marks region key (h.mono hwrites)
      releases := fun region key h => by
        rw [hregistry]
        exact hinv.releases region key (h.mono hwrites)
      apart := fun region key h h' => hinv.apart region key (h.mono hwrites) (h'.mono hwrites)
      wellFormed := hwf }

/-- What is pending grows by writes that do not get in the way of the others. -/
theorem DeprecationInvariant.start (hinv : DeprecationInvariant s) {ws : List (String × Write)}
    (hwritten : ∀ w ∈ ws, RegistryWrite w.2)
    (hmarks : ∀ w ∈ ws, ∀ key, w.2.Marks key →
      ¬ LatestNames (s.registry w.1) key ∧ ¬ s.Releases w.1 key ∧ ∀ w' ∈ ws, ¬ w'.2.Releases key)
    (hreleases : ∀ w ∈ ws, ∀ key, w.2.Releases key →
      ¬ RowDeprecated (s.registry w.1) key ∧ ¬ s.Marks w.1 key) :
    DeprecationInvariant { s with pending := s.pending ++ [ws] } := by
  have hcases : ∀ region w, Platform.Writes { s with pending := s.pending ++ [ws] } region w →
      s.Writes region w ∨ (region, w) ∈ ws := by
    rintro region w ⟨ws', hws', hw⟩
    rcases List.mem_append.1 hws' with hold | hnew
    · exact Or.inl ⟨ws', hold, hw⟩
    · obtain rfl := List.mem_singleton.1 hnew
      exact Or.inr hw
  refine ⟨fun region w h => ?_, hinv.latest, ?_, ?_, ?_, hinv.wellFormed⟩
  · rcases hcases region w h with hold | hnew
    · exact hinv.written region w hold
    · exact hwritten _ hnew
  · rintro region key ⟨w, hw, hkey⟩
    rcases hcases region w hw with hold | hnew
    · exact hinv.marks region key ⟨w, hold, hkey⟩
    · exact (hmarks _ hnew key hkey).1
  · rintro region key ⟨w, hw, hkey⟩
    rcases hcases region w hw with hold | hnew
    · exact hinv.releases region key ⟨w, hold, hkey⟩
    · exact (hreleases _ hnew key hkey).1
  · rintro region key ⟨w, hw, hkey⟩ ⟨w', hw', hkey'⟩
    rcases hcases region w hw with hold | hnew
    · rcases hcases region w' hw' with hold' | hnew'
      · exact hinv.apart region key ⟨w, hold, hkey⟩ ⟨w', hold', hkey'⟩
      · exact (hreleases _ hnew' key hkey').2 ⟨w, hold, hkey⟩
    · rcases hcases region w' hw' with hold' | hnew'
      · exact (hmarks _ hnew key hkey).2.1 ⟨w', hold', hkey'⟩
      · exact (hmarks _ hnew key hkey).2.2 _ hnew' hkey'

theorem writes_of_set {index : Nat} {w : String × Write} {ws : List (String × Write)}
    (h : s.pending[index]? = some (w :: ws)) {registry : Registry} {region : String} {w' : Write}
    (hw : Platform.Writes { s with registry, pending := s.pending.set index ws } region w') :
    s.Writes region w' := by
  obtain ⟨ws', hws', hw'⟩ := hw
  rcases List.mem_or_eq_of_mem_set hws' with hold | rfl
  · exact ⟨ws', hold, hw'⟩
  · exact ⟨w :: ws', List.mem_of_getElem? h, List.mem_cons_of_mem _ hw'⟩

theorem DeprecationInvariant.write (hinv : DeprecationInvariant s) {index : Nat}
    {w : String × Write} {ws : List (String × Write)} (h : s.pending[index]? = some (w :: ws)) :
    DeprecationInvariant
      { s with registry := s.registry.apply w, pending := s.pending.set index ws } := by
  obtain ⟨target, w⟩ := w
  have hpending : s.Writes target w := ⟨_, List.mem_of_getElem? h, List.mem_cons_self⟩
  have hw : RegistryWrite w := hinv.written target w hpending
  have hwrites : ∀ region w', Platform.Writes
      { s with registry := s.registry.apply (target, w), pending := s.pending.set index ws }
      region w' → s.Writes region w' := fun region w' => writes_of_set h
  -- What a region has afterwards comes from what it had before, or from the write.
  have hlatest : ∀ region key, LatestNames (s.registry.apply (target, w) region) key →
      LatestNames (s.registry region) key ∨ region = target ∧ w.Releases key := by
    intro region key hnames
    by_cases hregion : region = target
    · subst hregion
      rw [Registry.apply_self] at hnames
      exact (latestNames_apply hw hnames).imp_right fun hreleases => ⟨rfl, hreleases⟩
    · rw [Registry.apply_of_ne _ hregion] at hnames
      exact Or.inl hnames
  have hdeprecated : ∀ region key, key.IsModuleVersion →
      RowDeprecated (s.registry.apply (target, w) region) key →
      ¬ (region = target ∧ w.Releases key) ∧
        (RowDeprecated (s.registry region) key ∨ region = target ∧ w.Marks key) := by
    intro region key hkey hrow
    by_cases hregion : region = target
    · subst hregion
      rw [Registry.apply_self] at hrow
      obtain ⟨hnot, hcases⟩ := rowDeprecated_apply hw hkey hrow
      exact ⟨fun h => hnot h.2, hcases.imp_right fun hmarks => ⟨rfl, hmarks⟩⟩
    · rw [Registry.apply_of_ne _ hregion] at hrow
      exact ⟨fun h => hregion h.1, Or.inl hrow⟩
  refine ⟨fun region w' h => hinv.written region w' (hwrites region w' h), ?_, ?_, ?_, ?_,
    hinv.wellFormed⟩
  · intro region key hnames hrow
    obtain ⟨hnot, hcases⟩ := hdeprecated region key hnames.isModuleVersion hrow
    have hold : LatestNames (s.registry region) key :=
      (hlatest region key hnames).resolve_right hnot
    rcases hcases with hrow | ⟨rfl, hmarks⟩
    · exact hinv.latest region key hold hrow
    · exact hinv.marks region key ⟨w, hpending, hmarks⟩ hold
  · intro region key hmarks hnames
    have hmarked : s.Marks region key := hmarks.mono hwrites
    rcases hlatest region key hnames with hold | ⟨rfl, hreleases⟩
    · exact hinv.marks region key hmarked hold
    · exact hinv.apart region key hmarked ⟨w, hpending, hreleases⟩
  · intro region key hreleases hrow
    have hreleased : s.Releases region key := hreleases.mono hwrites
    obtain ⟨_, -, hkey⟩ := hreleases
    rcases (hdeprecated region key hkey.isModuleVersion hrow).2 with hrow | ⟨rfl, hmarks⟩
    · exact hinv.releases region key hreleased hrow
    · exact hinv.apart region key ⟨w, hpending, hmarks⟩ hreleased
  · intro region key hmarks hreleases
    exact hinv.apart region key (hmarks.mono hwrites) (hreleases.mono hwrites)

end

/-! ## Deployments -/

/-- A deployment that there is not stays so, unless a record of it is stored. -/
theorem live_step_eq_none {t : Deployments} (hwf : t.WellFormed) {identifier : String}
    (hnone : t.live identifier = none) {call : SetDeployment}
    (hcall : call.deployment.deleted = true ∨ call.deployment.identifier ≠ identifier) :
    (t.step call).live identifier = none := by
  have hdeleted : ∀ {t : Deployments}, t.live identifier = none ↔
      ∀ key row, t.item key = some row → key = metadataKey identifier →
        ∀ item, row = .deployment item → item.record.deleted = true := by
    intro t
    unfold live
    rw [Option.filter_eq_none_iff]
    constructor
    · rintro h _ _ hrow rfl item rfl
      have hkept := h item.record (stored_eq_some.2 ⟨item, hrow, rfl⟩)
      simpa using hkept
    · intro h record hstored
      obtain ⟨item, hitem, rfl⟩ := stored_eq_some.1 hstored
      simpa using h _ _ hitem rfl item rfl
  refine hdeleted.2 (forall_item_step hwf (hdeleted.1 hnone) ?_ ?_)
  · intro isPlan hkey item heq
    obtain rfl := DeploymentRow.deployment.inj heq
    change call.deployment.deleted = true
    cases isPlan with
    | true => exact absurd hkey (planKey_ne rfl)
    | false => exact hcall.resolve_right fun hne => hne (metadataKey_inj.1 hkey)
  · intro dependency item _ item' heq
    cases heq

section

variable {clients : Clients} {store : RegionStore} {t : Deployments}

theorem getDeployment_eq_live (hwf : t.WellFormed) (handler : WorkloadHandler)
    (deploymentId environment : String) :
    handler.getDeployment t deploymentId environment false =
      .ok (t.live (getDeploymentIdentifier handler.projectId handler.region deploymentId
        environment)) :=
  Deployments.getDeployment_eq handler deploymentId environment hwf false

/-- A claim of a version that is deprecated is not accepted for a new deployment. -/
theorem validate_ne_ok (hwf : t.WellFormed) {projectId : String} {manifest : DeploymentManifest}
    {environment command : String} {flags : List String} {extraData : Json}
    {referenceFallback : String}
    (hnew : t.live (getDeploymentIdentifier projectId clients.region
      (clients.services.toLowercase manifest.kind ++ "/" ++ manifest.metadata.name) environment) =
        none)
    (hdeprecated : (JobOrder.apply projectId manifest environment command flags extraData
      referenceFallback).NamesDeprecated clients store)
    (accepted : String × ApiInfraPayloadWithVariables) :
    validateAndPrepareClaim clients.services ⟨projectId, clients.region⟩ store t manifest
      environment command flags extraData referenceFallback ≠ .ok accepted := by
  intro h
  simp only [validateAndPrepareClaim, bind_eq_ok_iff] at h
  obtain ⟨_, -, details, hdetails, ⟨isStack, version⟩, hversion, track, htrack, record, hrecord,
    _, -, _, hdeprecation, -⟩ := h
  obtain ⟨-, rfl⟩ := getDeploymentDetails_eq_ok hdetails
  -- The version that was looked up is the one that the order names.
  have hname : (JobOrder.apply projectId manifest environment command flags extraData
      referenceFallback).version clients =
        some (clients.services.toLowercase manifest.kind, track, version) := by
    simp only [JobOrder.version, hversion, getVersionTrack_of_claimedTrack htrack, Option.map_some]
  obtain ⟨key, hkey, found, hrow, hfound⟩ := hdeprecated _ hname
  have hread := getModuleVersion_of_claimedModule hrecord
  unfold Services.getModuleVersion at hread
  rw [hkey] at hread
  obtain rfl : found = record := by
    simpa [hrow] using getModule_eq_ok hread
  obtain ⟨deployment, hexists⟩ := existing_of_checkModuleDeprecation hdeprecation hfound
  rw [getDeployment_eq_live hwf] at hexists
  exact absurd (hnew.symm.trans (Except.ok.inj hexists)) (by simp)

/-- Nothing is accepted for a deployment that there is not, but payloads that are handed over. -/
theorem request_eq_none (hwf : t.WellFormed) {order : JobOrder}
    (hnew : t.live (order.target clients) = none)
    (hdeprecated : order.NamesDeprecated clients store)
    (hhanded : ∀ handed, order ≠ .prepared handed) : order.request clients store t = none := by
  cases order with
  | apply projectId manifest environment command flags extraData referenceFallback =>
      refine Option.eq_none_iff_forall_ne_some.2 fun payload h => ?_
      obtain ⟨accepted, haccepted, -⟩ := toOption_map_eq_some h
      exact validate_ne_ok hwf hnew hdeprecated accepted haccepted
  | destroy projectId deploymentId environment extraData overrideVersion =>
      have hread : WorkloadHandler.getDeployment ⟨projectId, clients.region⟩ t deploymentId
          environment false = .ok none :=
        (getDeployment_eq_live hwf _ _ _).trans (congrArg Except.ok hnew)
      refine Option.eq_none_iff_forall_ne_some.2 fun payload h => ?_
      obtain ⟨accepted, haccepted, -⟩ := toOption_map_eq_some h
      unfold destroyRequest at haccepted
      rw [hread] at haccepted
      cases haccepted
  | driftcheck projectId deploymentId environment remediate extraData =>
      have hread : WorkloadHandler.getDeployment ⟨projectId, clients.region⟩ t deploymentId
          environment false = .ok none :=
        (getDeployment_eq_live hwf _ _ _).trans (congrArg Except.ok hnew)
      refine Option.eq_none_iff_forall_ne_some.2 fun payload h => ?_
      obtain ⟨accepted, haccepted, -⟩ := toOption_map_eq_some h
      unfold driftcheckRequest at haccepted
      rw [hread] at haccepted
      cases haccepted
  | prepared handed => exact absurd rfl (hhanded handed)

end

/-! ## Steps -/

section

variable {clients : Clients} {s : Platform}

/-- Of the acts, a write changes the registry. -/
theorem registry_step (clients : Clients) (s : Platform) (act : PlatformAct) :
    (s.step clients act).registry = s.registry ∨
      ∃ (index : Nat) (w : String × Write) (ws : List (String × Write)),
        s.pending[index]? = some (w :: ws) ∧
          (s.step clients act).registry = s.registry.apply w := by
  cases act with
  | write index =>
      simp only [Platform.step]
      split
      · rename_i w ws hpending
        exact Or.inr ⟨index, w, ws, hpending, rfl⟩
      · exact Or.inl rfl
  | save index h epoch isPlan carriedOut =>
      simp only [Platform.step]
      split
      · split
        · exact Or.inl rfl
        · exact Or.inl rfl
      · exact Or.inl rfl
  | advance index =>
      simp only [Platform.step]
      split
      · exact Or.inl rfl
      · exact Or.inl rfl
  | publish | deprecateVersion | submit => exact Or.inl rfl

/-- A version that is deprecated stays so. -/
theorem rowDeprecated_step (hinv : DeprecationInvariant s) (act : PlatformAct) {region : String}
    {key : Key} (hkey : key.IsModuleVersion) (h : RowDeprecated (s.registry region) key) :
    RowDeprecated ((s.step clients act).registry region) key := by
  rcases registry_step clients s act with heq | ⟨index, ⟨target, w⟩, ws, hpending, heq⟩
  · rw [heq]
    exact h
  · rw [heq]
    by_cases hregion : region = target
    · subst hregion
      rw [Registry.apply_self]
      have hwrites : s.Writes region w :=
        ⟨_, List.mem_of_getElem? hpending, List.mem_cons_self⟩
      refine h.apply (hinv.written region w hwrites) hkey fun hreleases => ?_
      exact hinv.releases region key ⟨w, hwrites, hreleases⟩ h
    · rw [Registry.apply_of_ne _ hregion]
      exact h

/-- A publish that is under way does not get in the way of a deprecation. -/
theorem DeprecationInvariant.publish (hinv : DeprecationInvariant s)
    {handler : GenericCloudHandler} {op : Publish}
    (hok : Careful clients s (.publish handler op)) :
    DeprecationInvariant (s.step clients (.publish handler op)) := by
  refine hinv.start (fun w hw => ?_) (fun w hw key hmarks => ?_) fun w hw key hreleases => ?_
  · rcases mem_writes_publish hw with hother | ⟨route, record, v, hoffers, hadm, hv, -, heq⟩
    · exact .other _ hother
    · rw [heq]
      exact .release record v hv (hok route record v hoffers hadm hv).1
  · -- What a publish writes has the form of a mark only outside of the rows of modules.
    have hkey : ¬ key.IsModuleVersion := by
      intro hkey
      obtain ⟨record, hmark⟩ := hmarks
      rcases mem_writes_publish hw with hother | ⟨route, record', v, -, -, -, -, heq⟩
      · rw [hmark] at hother
        exact hother _ List.mem_cons_self (Or.inl hkey)
      · have hlength : 1 = 2 := congrArg (fun w => w.puts.length) (hmark.symm.trans heq)
        cases hlength
    refine ⟨fun hnames => hkey hnames.isModuleVersion, ?_, fun w' _ h => hkey h.isModuleVersion⟩
    rintro ⟨w', -, h⟩
    exact hkey h.isModuleVersion
  · have hkey := hreleases.isModuleVersion
    obtain ⟨record, v, hrelease, rfl⟩ := hreleases
    rcases mem_writes_publish hw with hother | ⟨route, record', v', hoffers, hadm, hv, hregion, heq⟩
    · rw [hrelease] at hother
      exact absurd (Or.inl hkey) (hother _ List.mem_cons_self)
    · have hputs : modulePuts record v = modulePuts record' v' :=
        congrArg Write.puts (hrelease.symm.trans heq)
      have hsame : (⟨moduleId record.module record.track, "VERSION#" ++ v⟩ : Key) =
          ⟨moduleId record'.module record'.track, "VERSION#" ++ v'⟩ :=
        congrArg Put.key (List.cons.inj hputs).1
      rw [hsame]
      exact (hok route record' v' hoffers hadm hv).2 w.1 hregion

/-- A deprecation that is under way does not get in the way of a publish. -/
theorem DeprecationInvariant.deprecation (hinv : DeprecationInvariant s)
    {handler : GenericCloudHandler} {kind : ModuleType} {name track version : String}
    {message : Option String}
    (hok : Careful clients s (.deprecateVersion handler kind name track version message)) :
    DeprecationInvariant
      (s.step clients (.deprecateVersion handler kind name track version message)) := by
  -- What a deprecation writes is never the write of a publish.
  have hnot : ∀ w ∈ (EnvCommon.deprecation clients.services.registry s.registry handler kind name
      track version message).writes, ∀ key, ¬ w.2.Releases key := by
    rintro w hw key ⟨record, v, hrelease, -⟩
    obtain ⟨_, _, -, -, -, heq⟩ := mem_writes_deprecation hw
    have hlength : 1 = 2 := congrArg (fun w => w.puts.length) (heq.symm.trans hrelease)
    cases hlength
  refine hinv.start (fun w hw => ?_) (fun w hw key hmarks => ?_)
    fun w hw key hreleases => absurd hreleases (hnot w hw key)
  · obtain ⟨key, record, hkey, hdeprecated, -, heq⟩ := mem_writes_deprecation hw
    rw [heq]
    exact .mark key record (isModuleVersion_of_query hkey) hdeprecated
  · obtain ⟨record, hmark⟩ := hmarks
    obtain ⟨key', record', hkey', -, hregion, heq⟩ := mem_writes_deprecation hw
    have hputs := congrArg Write.puts (hmark.symm.trans heq)
    obtain rfl : key = key' := congrArg Put.key (List.cons.inj hputs).1
    obtain ⟨hlatest, hreleases⟩ := hok key hkey' w.1 hregion
    exact ⟨hlatest, hreleases, fun w' hw' => hnot w' hw' key⟩

theorem deprecationInvariant_step (clients : Clients) (s : Platform) (act : PlatformAct)
    (hinv : DeprecationInvariant s) (hok : Careful clients s act) :
    DeprecationInvariant (s.step clients act) := by
  cases act with
  | publish handler op => exact hinv.publish hok
  | deprecateVersion handler kind name track version message => exact hinv.deprecation hok
  | write index =>
      simp only [Platform.step]
      split
      · rename_i w ws hpending
        exact hinv.write hpending
      · exact hinv
  | submit order => exact hinv.congr rfl rfl hinv.wellFormed
  | advance index =>
      simp only [Platform.step]
      split
      · exact hinv.congr rfl rfl hinv.wellFormed
      · exact hinv
  | save index h epoch isPlan carriedOut =>
      simp only [Platform.step]
      split
      · split
        · exact hinv.congr rfl rfl (hinv.wellFormed.step _)
        · exact hinv
      · exact hinv

/-! ## Jobs -/

theorem JobOrder.NamesDeprecated.mono {order : JobOrder} {store store' : RegionStore}
    (h : order.NamesDeprecated clients store)
    (hstore : ∀ key, key.IsModuleVersion → RowDeprecated store key → RowDeprecated store' key) :
    order.NamesDeprecated clients store' := by
  intro name hname
  obtain ⟨key, hkey, hrow⟩ := h name hname
  exact ⟨key, hkey, hstore key (isModuleVersion_of_query hkey) hrow⟩

/-- The order of a new deployment for a deprecated version: it is on its way to be rejected. -/
structure Doomed (clients : Clients) (n : Nat) (order : JobOrder) (s : Platform) : Prop where
  invariant : DeprecationInvariant s
  deprecated : order.NamesDeprecated clients (s.store clients)
  stage : s.jobs[n]? = some .rejected ∨
    s.table.live (order.target clients) = none ∧
      (s.jobs[n]? = some (.submitted order) ∨ ∃ store, s.jobs[n]? = some (.lookedUp order store) ∧
        order.NamesDeprecated clients store)

/-- The other parts of the system may change, as long as the job and its deployment do not. -/
theorem Doomed.congr {n : Nat} {order : JobOrder} {s' : Platform} (h : Doomed clients n order s)
    (hinv : DeprecationInvariant s')
    (hdeprecated : order.NamesDeprecated clients (s'.store clients))
    (hjob : s'.jobs[n]? = s.jobs[n]?)
    (hlive : s.table.live (order.target clients) = none →
      (s.jobs[n]? = some (.submitted order) ∨ ∃ store, s.jobs[n]? = some (.lookedUp order store)) →
      s'.table.live (order.target clients) = none) : Doomed clients n order s' := by
  refine ⟨hinv, hdeprecated, ?_⟩
  rw [hjob]
  rcases h.stage with hrejected | ⟨hnew, hstage⟩
  · exact Or.inl hrejected
  · refine Or.inr ⟨hlive hnew ?_, hstage⟩
    exact hstage.imp_right fun ⟨store, hjob, _⟩ => ⟨store, hjob⟩

/-- The job itself takes its next step. -/
theorem Doomed.advance {n : Nat} {order : JobOrder} (h : Doomed clients n order s)
    (hhanded : ∀ handed, order ≠ .prepared handed) :
    Doomed clients n order (s.step clients (.advance n)) := by
  have hinv := deprecationInvariant_step clients s (.advance n) h.invariant trivial
  have hset : ∀ {stage : JobStage}, s.jobs[n]? = some stage →
      s.step clients (.advance n) =
        { s with jobs := s.jobs.set n (stage.next clients (s.store clients) s.table) } := by
    intro stage hstage
    simp only [Platform.step, hstage]
  have hget : ∀ {stage : JobStage}, s.jobs[n]? = some stage → ∀ stage' : JobStage,
      (s.jobs.set n stage')[n]? = some stage' := by
    intro stage hstage stage'
    obtain ⟨hlength, -⟩ := List.getElem?_eq_some_iff.1 hstage
    rw [List.getElem?_set_self hlength]
  rcases h.stage with hrejected | ⟨hnew, hsubmitted | ⟨store, hlooked, hstore⟩⟩
  · rw [hset hrejected] at hinv ⊢
    exact ⟨hinv, h.deprecated, Or.inl (hget hrejected _)⟩
  · rw [hset hsubmitted] at hinv ⊢
    exact ⟨hinv, h.deprecated,
      Or.inr ⟨hnew, Or.inr ⟨s.store clients, hget hsubmitted _, h.deprecated⟩⟩⟩
  · rw [hset hlooked] at hinv ⊢
    refine ⟨hinv, h.deprecated, Or.inl ((hget hlooked _).trans ?_)⟩
    have hnone := request_eq_none h.invariant.wellFormed hnew hstore hhanded
    simp only [JobStage.next, hnone]

theorem doomed_step {n : Nat} {order : JobOrder} (hhanded : ∀ handed, order ≠ .prepared handed)
    (s : Platform) (act : PlatformAct) (h : Doomed clients n order s)
    (hok : Careful clients s act) : Doomed clients n order (s.step clients act) := by
  have hinv := deprecationInvariant_step clients s act h.invariant hok
  have hdeprecated : order.NamesDeprecated clients ((s.step clients act).store clients) :=
    h.deprecated.mono fun key hkey hrow => rowDeprecated_step h.invariant act hkey hrow
  have hlength : n < s.jobs.length := by
    rcases h.stage with hjob | ⟨-, hjob | ⟨store, hjob, -⟩⟩
    · exact (List.getElem?_eq_some_iff.1 hjob).1
    · exact (List.getElem?_eq_some_iff.1 hjob).1
    · exact (List.getElem?_eq_some_iff.1 hjob).1
  cases act with
  | publish handler op => exact h.congr hinv hdeprecated rfl fun hnew _ => hnew
  | deprecateVersion handler kind name track version message =>
      exact h.congr hinv hdeprecated rfl fun hnew _ => hnew
  | write index =>
      refine h.congr hinv hdeprecated ?_ fun hnew _ => ?_
      · simp only [Platform.step]
        split
        · rfl
        · rfl
      · simp only [Platform.step]
        split
        · exact hnew
        · exact hnew
  | submit other =>
      refine h.congr hinv hdeprecated ?_ fun hnew _ => hnew
      exact List.getElem?_append_left hlength
  | advance index =>
      by_cases hindex : index = n
      · subst hindex
        exact h.advance hhanded
      · refine h.congr hinv hdeprecated ?_ fun hnew _ => ?_
        · simp only [Platform.step]
          split
          · exact List.getElem?_set_ne hindex
          · rfl
        · simp only [Platform.step]
          split
          · exact hnew
          · exact hnew
  | save index handler epoch isPlan carriedOut =>
      refine h.congr hinv hdeprecated ?_ fun hnew hstage => ?_
      · simp only [Platform.step]
        split
        · split
          · rfl
          · rfl
        · rfl
      · simp only [Platform.step]
        split
        · split
          · -- The record is not one of this deployment, or says that it is deleted.
            refine live_step_eq_none h.invariant.wellFormed hnew ?_
            rcases hok with hdeleted | hlive | horders
            · exact Or.inl hdeleted
            · refine Or.inr fun hsame => ?_
              have hgone : s.table.live (getDeploymentIdentifier handler.projectId handler.region
                  handler.deploymentId handler.environment) = none :=
                (congrArg s.table.live hsame).trans hnew
              rw [hgone] at hlive
              cases hlive
            · refine Or.inr fun hsame => horders order ?_ hsame.symm
              rcases hstage with hjob | ⟨store, hjob⟩
              · exact Or.inl (List.mem_of_getElem? hjob)
              · exact Or.inr ⟨store, List.mem_of_getElem? hjob⟩
          · exact hnew
        · exact hnew

end

/-! ## Runs -/

def webState (acts : List PlatformAct) : Platform :=
  run (Platform.step webClients) .empty acts

/-- A version of the module is published: its zip and its rows are written. -/
def publishVersion (index : Nat) (version : String) : List PlatformAct :=
  [.publish localHandler (.serverModule (webModule "stable" version) "YQ=="), .write index,
    .write index]

def webOrder : JobOrder :=
  .apply "111111111111" (webClaim "a" "eu-central-1" "cli/default").claim "cli/default" "apply" []
    .null ""

/-- A publish is careful where its version is not there and nothing is pending. -/
theorem careful_publish {s : Platform} {version v : String}
    (hv : zeroPadSemver version 3 = some v)
    (hrow : (s.registry "eu-central-1").item .modules
      ⟨moduleId "web" "stable", "VERSION#" ++ v⟩ = none)
    (hpending : s.pending.flatten = []) :
    Careful webClients s
      (.publish localHandler (.serverModule (webModule "stable" version) "YQ==")) := by
  rintro route record v' hoffers - hv'
  obtain ⟨-, rfl⟩ := Release.module.inj hoffers
  obtain rfl : v = v' := Option.some.inj (hv.symm.trans hv')
  refine ⟨rfl, fun region hregion => ?_⟩
  obtain rfl := List.mem_singleton.1 hregion
  constructor
  · rintro ⟨found, hfound, -⟩
    exact absurd (hrow.symm.trans hfound) (by simp)
  · rintro ⟨w, ⟨ws, hws, hw⟩, -⟩
    have hmem : ("eu-central-1", w) ∈ s.pending.flatten := List.mem_flatten.2 ⟨ws, hws, hw⟩
    rw [hpending] at hmem
    cases hmem

end EnvCommon
end InfraWeave
