import InfraWeave.EnvCommon.Catalogue

/-!
# Tracks and versions

The command line checks that the track of a record is that of its version; the server does not.
Readers that only know a version look it up on the track that the version gives.
-/

namespace InfraWeave
namespace EnvCommon

/-- The track of a record is that of its version. -/
def OnItsTrack (record : ModuleResp) : Prop :=
  getVersionTrack record.version = some record.track

/-- Every record of a version is on its track. -/
def TracksMatch (reg : Registry) : Prop :=
  ∀ region key record, key.IsModuleVersion →
    (reg region).item .modules key = some (.module record) → OnItsTrack record

/-- The lookup of a version by its name and version alone, as the readers of claims make it. -/
def lookupByVersion (services : Services) (s : RegionStore) (name version : String) :
    Except String (Option ModuleResp) :=
  match getVersionTrack version with
  | some track => services.getModuleVersion s name track version
  | none => .error (services.semverError version)

/-- Every stored version is found, in every region. -/
def FindsVersions (services : Services) (regions : List String) (c : Catalogue) : Prop :=
  ∀ route record, .module route record ∈ c.accepted → ∀ region ∈ regions, ∃ found,
    lookupByVersion services (c.registry region) record.module record.version = .ok (some found) ∧
    found.module = record.module ∧ found.version = record.version

/-- A publish writes to the regions, and a module record that passes the checks of the server is on
its track. -/
def ServesTracks (services : Services) (regions : List String) (c : Catalogue)
    (call : GenericCloudHandler × Publish) : Prop :=
  call.1.allRegions = regions ∧
    match call.2 with
    | .serverModule module _ =>
        Admitted services (c.registry call.1.region) (.module .module module) → OnItsTrack module
    | .serverStack module _ =>
        Admitted services (c.registry call.1.region) (.module .stack module) → OnItsTrack module
    | _ => True

/-! ## Keys give the record away -/

/-- Tracks without a colon can be read back from an identifier. -/
theorem moduleId_inj {module track module' track' : String} (htrack : ':' ∉ track.toList)
    (htrack' : ':' ∉ track'.toList) (h : moduleId module track = moduleId module' track') :
    module = module' ∧ track = track' := by
  have hlists : track.toList ++ ':' :: ':' :: module.toList =
      track'.toList ++ ':' :: ':' :: module'.toList := by
    simpa [moduleId, getModuleIdentifier] using congrArg String.toList h
  have hall : ∀ {t : String}, ':' ∉ t.toList → t.toList.all (· != ':') = true := by
    intro t ht
    rw [List.all_eq_true]
    intro c hc
    have hne : c ≠ ':' := fun heq => ht (heq ▸ hc)
    simpa using hne
  have hhead : ∀ (cs : List Char) (c : Char), (':' :: cs).head? = some c → (c != ':') = false := by
    intro cs c hc
    obtain rfl : ':' = c := by simpa using hc
    rfl
  obtain ⟨htracks, hrest⟩ :=
    Semver.append_inj_of_all (hall htrack) (hall htrack') (hhead _) (hhead _) hlists
  simp only [List.cons.injEq, true_and] at hrest
  exact ⟨String.toList_injective hrest, String.toList_injective htracks⟩

theorem OnItsTrack.colon_notMem {record : ModuleResp} (h : OnItsTrack record) :
    ':' ∉ record.track.toList :=
  colon_notMem_track h

/-! ## Runs -/

/-- Rows of versions are on their tracks and under their own keys, and no stored version is lost. -/
structure TrackInvariant (regions : List String) (c : Catalogue) : Prop where
  tracks : TracksMatch c.registry
  filed : ∀ region key record, key.IsModuleVersion →
    (c.registry region).item .modules key = some (.module record) →
    ∃ v, zeroPadSemver record.version 3 = some v ∧
      key = ⟨moduleId record.module record.track, "VERSION#" ++ v⟩
  onTrack : ∀ route record, .module route record ∈ c.accepted → OnItsTrack record
  stored : ∀ route record, .module route record ∈ c.accepted → ∀ region ∈ regions, ∃ v found,
    zeroPadSemver record.version 3 = some v ∧
    (c.registry region).item .modules ⟨moduleId record.module record.track, "VERSION#" ++ v⟩ =
      some (.module found)

theorem trackInvariant_empty (regions : List String) : TrackInvariant regions .empty where
  tracks _ _ _ _ h := by cases h
  filed _ _ _ _ h := by cases h
  onTrack _ _ h := by cases h
  stored _ _ h := by cases h

/-- What a publish stores is on its track: the command line has checked it. -/
theorem ServesTracks.onItsTrack {services : Services} {regions : List String} {c : Catalogue}
    {handler : GenericCloudHandler} {op : Publish}
    (h : ServesTracks services regions c (handler, op)) {route : ModuleType} {record : ModuleResp}
    (hoffers : op.Offers services (c.registry handler.region) (.module route record))
    (hadmitted : Admitted services (c.registry handler.region) (.module route record)) :
    OnItsTrack record := by
  cases op with
  | serverModule module zipBase64 =>
      obtain ⟨rfl, rfl⟩ := Release.module.inj hoffers
      exact h.2 hadmitted
  | serverStack module zipBase64 =>
      obtain ⟨rfl, rfl⟩ := Release.module.inj hoffers
      exact h.2 hadmitted
  | serverProvider provider zipBase64 => cases hoffers
  | directModule source track =>
      obtain ⟨_, _, _, _, -, -, -, htrack, -, heq⟩ := hoffers
      obtain ⟨rfl, rfl⟩ := Release.module.inj heq
      exact getVersionTrack_of_ensureTrackMatchesVersion htrack
  | directStack source track =>
      obtain ⟨_, _, _, -, -, htrack, -, heq⟩ := hoffers
      obtain ⟨rfl, rfl⟩ := Release.module.inj heq
      exact getVersionTrack_of_ensureTrackMatchesVersion htrack
  | directProvider source =>
      obtain ⟨_, -, heq⟩ := hoffers
      cases heq

theorem isModuleVersion_versionKey (route : ModuleType) (record : ModuleResp) (v : String) :
    ((Release.module route record).versionKey v).IsModuleVersion :=
  ⟨record.module, record.track, rfl⟩

theorem trackInvariant_publish {services : Services} {regions : List String} {c : Catalogue}
    {call : GenericCloudHandler × Publish} (hinv : TrackInvariant regions c)
    (hok : ServesTracks services regions c call) :
    TrackInvariant regions (c.publish services call) := by
  obtain ⟨handler, op⟩ := call
  rcases publish_cases services c handler op with
    ⟨haccepted, hitems⟩ | ⟨release, v, hoffers, hadmitted, hv, haccepted, hput⟩
  · refine ⟨fun region key record hkey hrow => ?_, fun region key record hkey hrow => ?_, ?_, ?_⟩
    · exact hinv.tracks region key record hkey ((hitems _ _ _).symm.trans hrow)
    · exact hinv.filed region key record hkey ((hitems _ _ _).symm.trans hrow)
    · rw [haccepted]
      exact hinv.onTrack
    · rw [haccepted]
      intro route record hmem region hregion
      obtain ⟨v, found, hv, hrow⟩ := hinv.stored route record hmem region hregion
      exact ⟨v, found, hv, (hitems _ _ _).trans hrow⟩
  · obtain ⟨hregions, -⟩ := id hok
    have hregions : handler.allRegions = regions := hregions
    -- What the release puts in a row of a version.
    have hnew : ∀ {record}, release.item = .module record → OnItsTrack record ∧
        release.versionKey v = ⟨moduleId record.module record.track, "VERSION#" ++ v⟩ ∧
        zeroPadSemver record.version 3 = some v := by
      intro record hitem
      cases release with
      | module route record' =>
          obtain rfl : record' = record := by simpa [Release.item] using hitem
          exact ⟨hok.onItsTrack hoffers hadmitted, rfl, hv⟩
      | provider record' => cases hitem
    refine ⟨fun region key record hkey hrow => ?_, fun region key record hkey hrow => ?_, ?_, ?_⟩
    · have hrow := (hput.version hkey).symm.trans hrow
      split at hrow
      · exact (hnew (Option.some.inj hrow)).1
      · exact hinv.tracks region key record hkey hrow
    · have hrow := (hput.version hkey).symm.trans hrow
      split at hrow
      · rename_i hsame
        obtain ⟨-, hkey', hv'⟩ := hnew (Option.some.inj hrow)
        exact ⟨v, hv', hsame.2.trans hkey'⟩
      · exact hinv.filed region key record hkey hrow
    · rw [haccepted]
      intro route record hmem
      rcases List.mem_append.1 hmem with hmem | hmem
      · exact hinv.onTrack route record hmem
      · obtain rfl := List.mem_singleton.1 hmem
        exact hok.onItsTrack hoffers hadmitted
    · rw [haccepted]
      intro route record hmem region hregion
      rcases List.mem_append.1 hmem with hmem | hmem
      · obtain ⟨v', found, hv', hrow⟩ := hinv.stored route record hmem region hregion
        have hkey := isModuleVersion_versionKey route record v'
        have hrow' : ((c.publish services (handler, op)).registry region).item .modules
            ((Release.module route record).versionKey v') = _ := hput.version hkey
        by_cases hsame : region ∈ handler.allRegions ∧
            (Release.module route record).versionKey v' = release.versionKey v
        · cases release with
          | module route' record' => exact ⟨v', record', hv', hrow'.trans (if_pos hsame)⟩
          | provider record' =>
              exact absurd (hsame.2 ▸ hkey) (not_isModuleVersion_provider record' v)
        · exact ⟨v', found, hv', hrow'.trans ((if_neg hsame).trans hrow)⟩
      · obtain rfl := List.mem_singleton.1 hmem
        have hkey := isModuleVersion_versionKey route record v
        exact ⟨v, record, hv, (hput.version hkey).trans (if_pos ⟨by rwa [hregions], rfl⟩)⟩

theorem TrackInvariant.findsVersions {services : Services} {regions : List String} {c : Catalogue}
    (hinv : TrackInvariant regions c) : FindsVersions services regions c := by
  intro route record hmem region hregion
  obtain ⟨v, found, hv, hrow⟩ := hinv.stored route record hmem region hregion
  have hkey := isModuleVersion_versionKey route record v
  have htrack := hinv.onTrack route record hmem
  obtain ⟨v', hv', hkey'⟩ := hinv.filed region _ found hkey hrow
  obtain ⟨hid, hsk⟩ := Key.mk.inj hkey'
  obtain rfl : v = v' := by simpa using hsk
  obtain ⟨hmodule, -⟩ := moduleId_inj htrack.colon_notMem
    (hinv.tracks region _ found hkey hrow).colon_notMem hid
  refine ⟨found, ?_, hmodule.symm, zeroPadSemver_inj hv' hv⟩
  have hquery : getModuleVersionQuery record.module record.track record.version =
      some ⟨moduleId record.module record.track, "VERSION#" ++ v⟩ := by
    rw [getModuleVersionQuery, hv]
    rfl
  rw [lookupByVersion, show getVersionTrack record.version = _ from htrack]
  simp only [Services.getModuleVersion, hquery]
  rw [Services.getModule, hrow]

/-- In a run in which the server takes records on their tracks only, every stored record is on its
track and every stored version is found by its name and version alone. -/
theorem tracks_match (services : Services) (regions : List String)
    (calls : List (GenericCloudHandler × Publish))
    (hok : Meets (Catalogue.publish services) (ServesTracks services regions) .empty calls) :
    let c := run (Catalogue.publish services) .empty calls
    TracksMatch c.registry ∧ FindsVersions services regions c := by
  intro c
  have hinv : TrackInvariant regions c :=
    run_invariant (TrackInvariant regions) (fun _ _ hc hcall => trackInvariant_publish hc hcall)
      (trackInvariant_empty regions) hok
  exact ⟨hinv.tracks, hinv.findsVersions⟩

/-! ### Runs in one region -/

theorem tracks_match_oneModule :
    FindsVersions localServices ["eu-central-1"]
      (localRun [.serverModule (webModule "dev" "1.0.0-dev") "YQ=="]) := by
  have hok : Meets (Catalogue.publish localServices)
      (ServesTracks localServices ["eu-central-1"]) .empty
      [(localHandler, .serverModule (webModule "dev" "1.0.0-dev") "YQ==")] := by
    refine And.intro ⟨rfl, fun _ => ?_⟩ trivial
    change getVersionTrack "1.0.0-dev" = some "dev"
    decide
  exact (tracks_match localServices ["eu-central-1"] _ hok).2

/-- The server stores a development version on the stable track. -/
theorem not_tracksMatch_devOnStable :
    ¬ TracksMatch (localRun [.serverModule (webModule "stable" "1.0.0-dev") "YQ=="]).registry := by
  intro h
  have htrack := h "eu-central-1" ⟨moduleId "web" "stable", "VERSION#001.000.000-dev"⟩
    (webModule "stable" "1.0.0-dev") ⟨"web", "stable", rfl⟩ (by decide +kernel)
  have hdev : getVersionTrack "1.0.0-dev" = some "dev" := by decide
  have hsame : some "dev" = some "stable" := hdev.symm.trans htrack
  exact absurd hsame (by decide)

end EnvCommon
end InfraWeave
