import InfraWeave.EnvCommon.Catalogue

/-!
# Released versions are immutable

Runs of publishes and deprecations.  A deprecation reads the record in one step and puts it into
the regions in later steps, one region at a time, so that other operations can come in between.  As
long as no publish gets past its checks with a version that is stored as released already, or with
the zip key of a released version, the records and the zips of released versions stay as they are,
up to their deprecation.
-/

namespace InfraWeave
namespace EnvCommon

/-! ## Operations -/

inductive Operation where
  | publish (handler : GenericCloudHandler) (op : Publish)
  | readDeprecation (handler : GenericCloudHandler) (kind : ModuleType)
      (name track version : String) (message : Option String)
  | putDeprecation (index : Nat)

/-- The deprecations that have been read have regions left to write to. -/
structure RegistryState where
  registry : Registry
  pending : List (List String × Put)

def RegistryState.empty : RegistryState :=
  ⟨.empty, []⟩

def prepare (services : Services) (s : RegionStore) (kind : ModuleType)
    (name track version : String) (message : Option String) : Except String Put :=
  match kind with
  | .module => prepareModuleDeprecation services s name track version message
  | .stack => prepareStackDeprecation services s name track version message

def RegistryState.step (services : Services) (s : RegistryState) : Operation → RegistryState
  | .publish handler op =>
      { s with registry := s.registry.applyAll (op.outcome services s.registry handler).writes }
  | .readDeprecation handler kind name track version message =>
      match prepare services (s.registry handler.region) kind name track version message with
      | .ok put => { s with pending := s.pending ++ [(handler.allRegions, put)] }
      | .error _ => s
  | .putDeprecation index =>
      match s.pending[index]? with
      | some (region :: rest, put) =>
          ⟨s.registry.apply (region, .transact [put]), s.pending.set index (rest, put)⟩
      | _ => s

/-- The puts of a deprecation that nothing comes between. -/
theorem run_putDeprecation (services : Services) (reg : Registry) (regions : List String)
    (put : Put) :
    run (RegistryState.step services) ⟨reg, [(regions, put)]⟩
        (List.replicate regions.length (.putDeprecation 0)) =
      ⟨reg.applyAll (putDeprecation regions put).writes, [([], put)]⟩ := by
  induction regions generalizing reg with
  | nil => rfl
  | cons region regions ih => exact ih (reg.apply (region, .transact [put]))

/-! ## Released versions -/

/-- A record without its deprecation. -/
def withoutDeprecation (record : ModuleResp) : ModuleResp :=
  { record with deprecated := false, deprecatedMessage := none }

/-- A row holds a version of a module or stack that is not a version under test. -/
structure Released (s : RegionStore) (key : Key) (record : ModuleResp) : Prop where
  partition : key.IsModuleVersion
  row : s.item .modules key = some (.module record)
  released : isUnreleased record.version = false

/-- What is kept from one registry to another: the record up to its deprecation, and the zip. -/
def Kept (same : ModuleResp → ModuleResp → Prop) (regions : List String) (reg reg' : Registry) :
    Prop :=
  ∀ region ∈ regions, ∀ key record, Released (reg region) key record →
    ∃ record', Released (reg' region) key record' ∧ same record record' ∧
      record'.s3Key = record.s3Key ∧
      (reg' region).objects .modules record.s3Key = (reg region).objects .modules record.s3Key

def SameButDeprecation (record record' : ModuleResp) : Prop :=
  withoutDeprecation record' = withoutDeprecation record

/-- No region holds the version of a release as released, nor a released version with its zip. -/
def Fresh (regions : List String) (reg : Registry) (release : Release) : Prop :=
  ∀ region ∈ regions, ∀ key record, Released (reg region) key record →
    record.s3Key ≠ release.s3Key ∧
    ∀ v, zeroPadSemver release.version 3 = some v → key ≠ release.versionKey v

/-- The condition on an operation: handlers read from one of the regions that they write to, and
a publish that passes its checks is about something fresh. -/
def Orderly (services : Services) (regions : List String) (s : RegistryState) :
    Operation → Prop
  | .publish handler op => handler.allRegions = regions ∧ handler.region ∈ regions ∧
      ∀ release, op.Offers services (s.registry handler.region) release →
        Admitted services (s.registry handler.region) release → Fresh regions s.registry release
  | .readDeprecation handler _ _ _ _ _ => handler.allRegions = regions ∧ handler.region ∈ regions
  | .putDeprecation _ => True

theorem SameButDeprecation.refl (record : ModuleResp) : SameButDeprecation record record := rfl

instance : IsTrans ModuleResp SameButDeprecation :=
  ⟨fun _ _ _ hab hbc => hbc.trans hab⟩

theorem Kept.refl {same : ModuleResp → ModuleResp → Prop} (hrefl : ∀ r, same r r)
    (regions : List String) (reg : Registry) : Kept same regions reg reg :=
  fun _ _ _ record h => ⟨record, h, hrefl record, rfl, rfl⟩

theorem Kept.trans {same : ModuleResp → ModuleResp → Prop} [IsTrans ModuleResp same]
    {regions : List String} {reg₁ reg₂ reg₃ : Registry} (h₁ : Kept same regions reg₁ reg₂)
    (h₂ : Kept same regions reg₂ reg₃) : Kept same regions reg₁ reg₃ := by
  intro region hregion key record hrecord
  obtain ⟨record', hrecord', hsame', hkey', hzip'⟩ := h₁ region hregion key record hrecord
  obtain ⟨record'', hrecord'', hsame'', hkey'', hzip''⟩ := h₂ region hregion key record' hrecord'
  refine ⟨record'', hrecord'', IsTrans.trans _ _ _ hsame' hsame'', hkey''.trans hkey', ?_⟩
  rw [← hzip', ← hkey', hzip'']


theorem s3Key_eq_of_same {record record' : ModuleResp}
    (h : SameButDeprecation record record') : record'.s3Key = record.s3Key := by
  have hkey := congrArg ModuleResp.s3Key h
  exact hkey

/-! ## The invariant -/

/-- A record is stored under its own version. -/
def Filed (key : Key) (record : ModuleResp) : Prop :=
  ∃ v, zeroPadSemver record.version 3 = some v ∧ key.sk = "VERSION#" ++ v

theorem Filed.version_eq {key : Key} {record record' : ModuleResp} (h : Filed key record)
    (h' : Filed key record') : record.version = record'.version := by
  obtain ⟨v, hv, hkey⟩ := h
  obtain ⟨v', hv', hkey'⟩ := h'
  obtain rfl : v = v' := by
    simpa using hkey.symm.trans hkey'
  exact zeroPadSemver_inj hv hv'

/-- What a deprecation that has been read is about: a version row, whose released record is still
there in every region. -/
structure PendingOk (regions : List String) (reg : Registry) (remaining : List String)
    (key : Key) (record : ModuleResp) : Prop where
  partition : key.IsModuleVersion
  remaining : ∀ region ∈ remaining, region ∈ regions
  filed : Filed key record
  kept : isUnreleased record.version = false → ∀ region ∈ regions, ∃ record',
    Released (reg region) key record' ∧ SameButDeprecation record record'

structure ImmutabilityInvariant (regions : List String) (s : RegistryState) : Prop where
  filed : ∀ region ∈ regions, ∀ key record, key.IsModuleVersion →
    (s.registry region).item .modules key = some (.module record) → Filed key record
  replicas : ∀ region ∈ regions, ∀ region' ∈ regions, ∀ key record,
    Released (s.registry region) key record → ∃ record',
      Released (s.registry region') key record' ∧ SameButDeprecation record record'
  pending : ∀ p ∈ s.pending, ∃ key record, p.2 = ⟨.modules, key, .module record⟩ ∧
    PendingOk regions s.registry p.1 key record

theorem immutabilityInvariant_empty (regions : List String) :
    ImmutabilityInvariant regions .empty where
  filed _ _ _ _ _ h := by cases h
  replicas _ _ _ _ _ _ h := by cases h.row
  pending _ h := by cases h

/-- A pending deprecation stays in order when the released records do. -/
theorem PendingOk.mono {regions remaining remaining' : List String} {reg reg' : Registry}
    {key : Key} {record : ModuleResp} (h : PendingOk regions reg remaining key record)
    (hkept : Kept SameButDeprecation regions reg reg')
    (hsub : ∀ region ∈ remaining', region ∈ remaining) :
    PendingOk regions reg' remaining' key record where
  partition := h.partition
  remaining region hregion := h.remaining region (hsub region hregion)
  filed := h.filed
  kept hreleased region hregion := by
    obtain ⟨record', hrecord', hsame⟩ := h.kept hreleased region hregion
    obtain ⟨record'', hrecord'', hsame', -⟩ := hkept region hregion key record' hrecord'
    exact ⟨record'', hrecord'', hsame'.trans hsame⟩

/-! ## Publishes -/

section

variable {services : Services} {regions : List String} {s : RegistryState}
  {handler : GenericCloudHandler} {op : Publish}

/-- A publish of something fresh leaves released versions exactly as they are. -/
theorem kept_publish (hok : Orderly services regions s (.publish handler op)) :
    Kept Eq regions s.registry (s.step services (.publish handler op)).registry := by
  obtain ⟨hregions, -, hfresh⟩ := hok
  intro region hregion key record hrecord
  have hzip : ((s.step services (.publish handler op)).registry region).objects .modules
      record.s3Key = (s.registry region).objects .modules record.s3Key :=
    objects_publish services ⟨s.registry, []⟩ handler op fun release hoffers hadmitted hsame =>
      (hfresh release hoffers hadmitted region hregion key record hrecord).1 hsame.symm
  refine ⟨record, ⟨hrecord.partition, ?_, hrecord.released⟩, rfl, rfl, hzip⟩
  rcases publish_cases services ⟨s.registry, []⟩ handler op with
    ⟨-, hitems⟩ | ⟨release, v, hoffers, hadmitted, hv, -, hitems⟩
  · exact (hitems region .modules key).trans hrecord.row
  · have hversion := (hfresh release hoffers hadmitted region hregion key record hrecord).2 v hv
    exact (hitems.version hrecord.partition).trans
      ((if_neg fun h => hversion h.2).trans hrecord.row)

/-- The version row of a module release is filed under its version. -/
theorem Release.filed {release : Release} {v : String}
    (hv : zeroPadSemver release.version 3 = some v) {record : ModuleResp}
    (hitem : release.item = .module record) : Filed (release.versionKey v) record := by
  cases release with
  | module route record' =>
      obtain rfl : record' = record := by simpa [Release.item] using hitem
      exact ⟨v, hv, rfl⟩
  | provider record' => cases hitem

theorem invariant_publish (hinv : ImmutabilityInvariant regions s)
    (hok : Orderly services regions s (.publish handler op)) :
    ImmutabilityInvariant regions (s.step services (.publish handler op)) := by
  have hkept := kept_publish hok
  obtain ⟨hregions, -, hfresh⟩ := hok
  have hpending : ∀ p ∈ s.pending, ∃ key record, p.2 = ⟨.modules, key, .module record⟩ ∧
      PendingOk regions (s.step services (.publish handler op)).registry p.1 key record := by
    intro p hp
    obtain ⟨key, record, hput, hpendingOk⟩ := hinv.pending p hp
    have hkept' : Kept SameButDeprecation regions s.registry
        (s.step services (.publish handler op)).registry := by
      intro region hregion key record hrecord
      obtain ⟨record', hrecord', rfl, hrest⟩ := hkept region hregion key record hrecord
      exact ⟨record, hrecord', rfl, hrest⟩
    exact ⟨key, record, hput, hpendingOk.mono hkept' fun _ h => h⟩
  rcases publish_cases services ⟨s.registry, []⟩ handler op with
    ⟨-, hitems⟩ | ⟨release, v, hoffers, hadmitted, hv, -, hitems⟩
  · refine ⟨fun region hregion key record hpk hrow => ?_,
      fun region hregion region' hregion' key record hrecord => ?_, hpending⟩
    · exact hinv.filed region hregion key record hpk ((hitems _ _ _).symm.trans hrow)
    · have hold : Released (s.registry region) key record :=
        ⟨hrecord.partition, (hitems _ _ _).symm.trans hrecord.row, hrecord.released⟩
      obtain ⟨record', hrecord', hsame⟩ := hinv.replicas region hregion region' hregion' key _ hold
      exact ⟨record', ⟨hrecord'.partition, (hitems _ _ _).trans hrecord'.row, hrecord'.released⟩,
        hsame⟩
  · -- A row of a version is new in every region, or as it was.
    rw [hregions] at hitems
    refine ⟨fun region hregion key record hpk hitem => ?_,
      fun region hregion region' hregion' key record hrecord => ?_, hpending⟩
    · have hitem := (hitems.version hpk).symm.trans hitem
      split at hitem
      · rename_i hkey
        rw [hkey.2]
        exact Release.filed hv (Option.some.inj hitem)
      · exact hinv.filed region hregion key record hpk hitem
    · have hitem := (hitems.version hrecord.partition).symm.trans hrecord.row
      split at hitem
      · rename_i hkey
        refine ⟨record, ⟨hrecord.partition, ?_, hrecord.released⟩, rfl⟩
        exact (hitems.version hrecord.partition).trans ((if_pos ⟨hregion', hkey.2⟩).trans hitem)
      · rename_i hkey
        obtain ⟨record', hrecord', hsame⟩ := hinv.replicas region hregion region' hregion' key _
          ⟨hrecord.partition, hitem, hrecord.released⟩
        refine ⟨record', ⟨hrecord'.partition, ?_, hrecord'.released⟩, hsame⟩
        exact (hitems.version hrecord.partition).trans
          ((if_neg fun h => hkey ⟨hregion, h.2⟩).trans hrecord'.row)

end

/-! ## Deprecations -/

theorem pk_of_getModuleVersionQuery {name track version : String} {key : Key}
    (h : getModuleVersionQuery name track version = some key) : key.pk = moduleId name track := by
  obtain ⟨padded, -, rfl⟩ := Option.map_eq_some_iff.1 h
  rfl

theorem prepareDeprecation_ok {services : Services} {s : RegionStore} {noun entity : String}
    {latest : ModuleResp → Except String (Option ModuleResp)} {name track version : String}
    {message : Option String} {put : Put}
    (h : prepareDeprecation services s noun entity latest name track version message = .ok put) :
    ∃ key existing, getModuleVersionQuery name track version = some key ∧
      s.item .modules key = some (.module existing) ∧ existing.deprecated = false ∧
      put = ⟨.modules, key, .module
        { existing with deprecated := true, deprecatedMessage := message }⟩ := by
  obtain ⟨found, hfound, h⟩ := bind_eq_ok_iff.1 h
  split at h
  · cases h
  · rename_i existing
    split at h
    · cases h
    · rename_i hdeprecated
      obtain ⟨_, -, h⟩ := bind_eq_ok_iff.1 h
      split at h
      · cases h
      · obtain ⟨padded, hpadded, h⟩ := bind_eq_ok_iff.1 h
        have hkey : getModuleVersionQuery name track version =
            some ⟨moduleId name track, "VERSION#" ++ padded⟩ := by
          rw [getModuleVersionQuery, parsed_eq_ok hpadded]
          rfl
        rw [Services.getModuleVersion, hkey] at hfound
        exact ⟨_, existing, hkey, getModule_eq_ok hfound, by simpa using hdeprecated,
          (Except.ok.inj h).symm⟩

theorem prepare_ok {services : Services} {s : RegionStore} {kind : ModuleType}
    {name track version : String} {message : Option String} {put : Put}
    (h : prepare services s kind name track version message = .ok put) :
    ∃ key existing, getModuleVersionQuery name track version = some key ∧
      s.item .modules key = some (.module existing) ∧ existing.deprecated = false ∧
      put = ⟨.modules, key, .module
        { existing with deprecated := true, deprecatedMessage := message }⟩ := by
  cases kind with
  | module => exact prepareDeprecation_ok h
  | stack => exact prepareDeprecation_ok h

section

variable {services : Services} {regions : List String} {s : RegistryState}

theorem invariant_readDeprecation {handler : GenericCloudHandler} {kind : ModuleType}
    {name track version : String} {message : Option String}
    (hinv : ImmutabilityInvariant regions s)
    (hok : Orderly services regions s
      (.readDeprecation handler kind name track version message)) :
    ImmutabilityInvariant regions
      (s.step services (.readDeprecation handler kind name track version message)) := by
  obtain ⟨hregions, hregion⟩ := hok
  simp only [RegistryState.step]
  split
  · rename_i put hput
    refine ⟨hinv.filed, hinv.replicas, fun p hp => ?_⟩
    rcases List.mem_append.1 hp with hp | hp
    · exact hinv.pending p hp
    · obtain rfl := List.mem_singleton.1 hp
      obtain ⟨key, existing, hkey, hrow, -, rfl⟩ := prepare_ok hput
      have hpk := pk_of_getModuleVersionQuery hkey
      refine ⟨key, _, rfl, ⟨name, track, hpk⟩, fun region h => hregions ▸ h, ?_, ?_⟩
      · exact hinv.filed _ hregion key existing ⟨name, track, hpk⟩ hrow
      · intro hreleased region hregion'
        have hexisting : Released (s.registry handler.region) key existing :=
          ⟨⟨name, track, hpk⟩, hrow, hreleased⟩
        exact hinv.replicas _ hregion region hregion' key existing hexisting
  · exact hinv

/-- Putting a deprecation into one region keeps every released record up to its deprecation. -/
theorem kept_put {region : String} {remaining : List String} {key : Key} {record : ModuleResp}
    (hinv : ImmutabilityInvariant regions s)
    (hpending : PendingOk regions s.registry (region :: remaining) key record) :
    Kept SameButDeprecation regions s.registry
      (s.registry.apply (region, .transact [⟨.modules, key, .module record⟩])) := by
  intro region' hregion' key' record' hrecord'
  by_cases hregion : region' = region
  · subst hregion
    rw [Registry.apply_self]
    by_cases hkey : key' = key
    · subst hkey
      -- The row has the version of the record, which is therefore released too.
      have hversion := hpending.filed.version_eq
        (hinv.filed region' hregion' key' record' hrecord'.partition hrecord'.row)
      have hreleased : isUnreleased record.version = false := hversion ▸ hrecord'.released
      obtain ⟨old, hold, hsame⟩ := hpending.kept hreleased region' hregion'
      obtain rfl : old = record' := by simpa [hold.row] using hrecord'.row
      refine ⟨record, ⟨hrecord'.partition, ?_, hreleased⟩, hsame.symm,
        (s3Key_eq_of_same hsame).symm, rfl⟩
      simp [RegionStore.apply, RegionStore.item_put]
    · refine ⟨record', ⟨hrecord'.partition, ?_, hrecord'.released⟩, rfl, rfl, rfl⟩
      simpa [RegionStore.apply, RegionStore.item_put, hkey] using hrecord'.row
  · rw [Registry.apply_of_ne _ hregion]
    exact ⟨record', hrecord', rfl, rfl, rfl⟩

theorem kept_putDeprecation {index : Nat} (hinv : ImmutabilityInvariant regions s) :
    Kept SameButDeprecation regions s.registry
      (s.step services (.putDeprecation index)).registry := by
  simp only [RegistryState.step]
  split
  · rename_i region rest put hentry
    obtain ⟨key, record, rfl, hpending⟩ := hinv.pending _ (List.mem_of_getElem? hentry)
    exact kept_put hinv hpending
  · exact .refl SameButDeprecation.refl _ _

theorem invariant_putDeprecation {index : Nat} (hinv : ImmutabilityInvariant regions s) :
    ImmutabilityInvariant regions (s.step services (.putDeprecation index)) := by
  simp only [RegistryState.step]
  split
  · rename_i region rest put hentry
    obtain ⟨key, record, hput, hpending⟩ := hinv.pending _ (List.mem_of_getElem? hentry)
    obtain rfl : put = ⟨.modules, key, .module record⟩ := hput
    have hkept := kept_put hinv hpending
    have hrow : ∀ region' key',
        ((s.registry.apply (region, .transact [⟨.modules, key, .module record⟩])) region').item
            .modules key' =
          if region' = region ∧ key' = key then some (.module record)
          else (s.registry region').item .modules key' := by
      intro region' key'
      by_cases hregion : region' = region
      · subst hregion
        simp [Registry.apply_self, RegionStore.apply, RegionStore.item_put]
      · rw [Registry.apply_of_ne s.registry hregion, if_neg fun h => hregion h.1]
    refine ⟨fun region' hregion' key' record' hpk hitem => ?_,
      fun region₁ hregion₁ region₂ hregion₂ key' record' hrecord' => ?_, fun p hp => ?_⟩
    · rw [hrow] at hitem
      split at hitem
      · rename_i hsame
        obtain rfl : record = record' := by simpa using hitem
        exact hsame.2 ▸ hpending.filed
      · exact hinv.filed region' hregion' key' record' hpk hitem
    · -- The record was there before the put, up to its deprecation.
      have hold : ∃ old, Released (s.registry region₁) key' old ∧
          SameButDeprecation old record' := by
        have hitem := hrecord'.row
        rw [hrow] at hitem
        split at hitem
        · rename_i hsame
          obtain rfl : record = record' := by simpa using hitem
          obtain ⟨old, hold, hsame'⟩ := hpending.kept hrecord'.released region₁ hregion₁
          exact ⟨old, hsame.2 ▸ hold, hsame'.symm⟩
        · exact ⟨record', ⟨hrecord'.partition, hitem, hrecord'.released⟩, rfl⟩
      obtain ⟨old, hold, hsame⟩ := hold
      obtain ⟨other, hother, hsame'⟩ := hinv.replicas _ hregion₁ region₂ hregion₂ key' old hold
      obtain ⟨new, hnew, hsame'', -⟩ := hkept region₂ hregion₂ key' other hother
      exact ⟨new, hnew, (hsame''.trans hsame').trans hsame.symm⟩
    · rcases List.mem_or_eq_of_mem_set hp with hp | rfl
      · obtain ⟨key', record', hput', hpending'⟩ := hinv.pending p hp
        exact ⟨key', record', hput', hpending'.mono hkept fun _ h => h⟩
      · exact ⟨key, record, rfl, hpending.mono hkept fun _ h => List.mem_cons_of_mem _ h⟩
  · exact hinv

end

/-! ## Runs -/

theorem step_kept {services : Services} {regions : List String} (s : RegistryState)
    (o : Operation) (hinv : ImmutabilityInvariant regions s)
    (hok : Orderly services regions s o) :
    ImmutabilityInvariant regions (s.step services o) ∧
      Kept SameButDeprecation regions s.registry (s.step services o).registry := by
  cases o with
  | publish handler op =>
      refine ⟨invariant_publish hinv hok, fun region hregion key record hrecord => ?_⟩
      obtain ⟨record', hrecord', rfl, hrest⟩ := kept_publish hok region hregion key record hrecord
      exact ⟨record, hrecord', rfl, hrest⟩
  | readDeprecation handler kind name track version message =>
      refine ⟨invariant_readDeprecation hinv hok, ?_⟩
      simp only [RegistryState.step]
      split <;> exact .refl SameButDeprecation.refl _ _
  | putDeprecation index => exact ⟨invariant_putDeprecation hinv, kept_putDeprecation hinv⟩

/-- Operations that are not the second half of a deprecation. -/
def Operation.IsPut : Operation → Prop
  | putDeprecation _ => True
  | _ => False

theorem step_kept_eq {services : Services} {regions : List String} {s : RegistryState}
    {o : Operation} (hok : Orderly services regions s o) (hput : ¬ o.IsPut) :
    Kept Eq regions s.registry (s.step services o).registry := by
  cases o with
  | publish handler op => exact kept_publish hok
  | readDeprecation handler kind name track version message =>
      simp only [RegistryState.step]
      split <;> exact .refl (fun _ => rfl) _ _
  | putDeprecation index => exact absurd trivial hput

def localStep : RegistryState → Operation → RegistryState :=
  RegistryState.step localServices

def publishWeb (version description zipBase64 : String) : Operation :=
  .publish localHandler
    (.serverModule { webModule "stable" version with description := description } zipBase64)

end EnvCommon
end InfraWeave
