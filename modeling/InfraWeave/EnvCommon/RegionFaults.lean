import InfraWeave.EnvCommon.Immutability
import InfraWeave.EnvCommon.LatestPointer
import InfraWeave.Lib.Spread

/-!
# Requests that fail in a region

The server publishes and deprecates in one region after the other, and checks what it reads in its
own region.  A fault leaves the first writes behind.  When the request is issued again, its checks
read what the first attempt wrote, unless the fault came before the rows of the own region.
-/

namespace InfraWeave
namespace EnvCommon

inductive RegionalRequest where
  | publication (route : ModuleType) (module : ModuleResp) (zipBase64 : String)
  | deprecation (kind : ModuleType) (name track version : String) (message : Option String)

namespace RegionalRequest

/-- What the server does for a request; what went wrong does not matter here. -/
def outcome (services : Services) (reg : Registry) (handler : GenericCloudHandler) :
    RegionalRequest → Publishing Unit Unit
  | publication .module module zipBase64 =>
      (serverPublishModule services reg handler module zipBase64).mapError fun _ => ()
  | publication .stack module zipBase64 =>
      (serverPublishStack services reg handler module zipBase64).mapError fun _ => ()
  | deprecation .module name track version message =>
      (deprecateModule services reg handler name track version message).mapError fun _ => ()
  | deprecation .stack name track version message =>
      (deprecateStack services reg handler name track version message).mapError fun _ => ()

def name : RegionalRequest → String
  | publication _ module _ => module.module
  | deprecation _ name _ _ _ => name

/-- A publish uploads a zip and puts its rows; a deprecation puts a row. -/
def writesPerRegion : RegionalRequest → Nat
  | publication _ _ _ => 2
  | deprecation _ _ _ _ _ => 1

/-- The rows that a request puts. -/
def Replaces : RegionalRequest → Key → Prop
  | publication route module _, key => ∃ v, zeroPadSemver module.version 3 = some v ∧
      (key = (Release.module route module).versionKey v ∨
        key = (Release.module route module).latestKey)
  | deprecation _ name track version _, key => getModuleVersionQuery name track version = some key

/-- The checks of the request do not look at the rows that it puts. -/
def Unchecked : RegionalRequest → Prop
  | publication route module _ =>
      if kindOf module = route then isUnreleased module.version = true else module.track ≠ ""
  | deprecation _ _ _ _ _ => False

/-- So many writes of the request reach the rows of its own region. -/
def ReachesOwnRegion (handler : GenericCloudHandler) (request : RegionalRequest)
    (position : Nat) : Prop :=
  handler.region ∈ handler.allRegions ∧
    request.writesPerRegion * (handler.allRegions.idxOf handler.region + 1) ≤ position

/-- What a fault at a position leaves behind. -/
def interrupted (services : Services) (reg : Registry) (handler : GenericCloudHandler)
    (request : RegionalRequest) (position : Nat) : Registry :=
  reg.applyAll ((request.outcome services reg handler).writes.take position)

end RegionalRequest

/-- The row is one of the versions of the name, or one of its latest versions. -/
def OfName (name : String) (key : Key) : Prop :=
  ∃ track, key.pk = moduleId name track ∨
    (key.pk = "LATEST_MODULE" ∨ key.pk = "LATEST_STACK") ∧ key.sk = moduleId name track

/-- The regions hold the same rows under these keys. -/
def Registry.AgreeOn (reg : Registry) (regions : List String) (keys : Key → Prop) : Prop :=
  ∀ region ∈ regions, ∀ region' ∈ regions, ∀ key, keys key →
    (reg region).item .modules key = (reg region').item .modules key

/-- When the same rows are put in every region, agreement afterwards is agreement on the others. -/
theorem agreeOn_iff {reg reg' : Registry} {regions : List String} {puts : List Put}
    (h : ∀ region ∈ regions, ∀ key, (reg' region).item .modules key =
      (written puts .modules key).or ((reg region).item .modules key)) (keys : Key → Prop) :
    reg'.AgreeOn regions keys ↔
      reg.AgreeOn regions fun key => keys key ∧ written puts .modules key = none := by
  constructor
  · rintro hagree region hregion region' hregion' key ⟨hkey, hnone⟩
    have hsame := hagree region hregion region' hregion' key hkey
    rwa [h region hregion, h region' hregion', hnone, Option.none_or, Option.none_or] at hsame
  · intro hagree region hregion region' hregion' key hkey
    rw [h region hregion, h region' hregion']
    cases hwritten : written puts .modules key with
    | some item => rfl
    | none => exact hagree region hregion region' hregion' key ⟨hkey, hwritten⟩

/-- The request succeeds, and then the regions agree on its name. -/
structure Recovers (services : Services) (handler : GenericCloudHandler)
    (request : RegionalRequest) (reg : Registry) : Prop where
  succeeds : (request.outcome services reg handler).result = .ok ()
  agree : (reg.applyAll (request.outcome services reg handler).writes).AgreeOn handler.allRegions
    (OfName request.name)

/-! ## What a request needs -/

/-- The latest version that the checks of a kind ask for. -/
def latestKeyOf : ModuleType → String → String → Key
  | .module => getLatestModuleVersionQuery
  | .stack => getLatestStackVersionQuery

def otherKind : ModuleType → ModuleType
  | .module => .stack
  | .stack => .module

theorem Services.getModule_congr (services : Services) {s s' : RegionStore} {key : Key}
    (h : s'.item .modules key = s.item .modules key) :
    services.getModule s' key = services.getModule s key := by
  rw [Services.getModule, Services.getModule, h]

/-- The version check reads one row. -/
theorem checkLatest_congr (services : Services) {s s' : RegionStore} {name version track : String}
    {kind : ModuleType}
    (h : s'.item .modules (latestKeyOf kind name track) =
      s.item .modules (latestKeyOf kind name track)) :
    checkLatest services s' name version track kind = checkLatest services s name version track kind := by
  have hget := services.getModule_congr h
  unfold checkLatest compareLatestVersion
  cases kind with
  | module =>
      unfold Services.getLatestModuleVersion
      change services.getModule s' (getLatestModuleVersionQuery name track) = _ at hget
      rw [hget]
      rfl
  | stack =>
      unfold Services.getLatestStackVersion
      change services.getModule s' (getLatestStackVersionQuery name track) = _ at hget
      rw [hget]
      rfl

theorem checkLatest_unreleased (services : Services) (s : RegionStore) {name version track : String}
    (kind : ModuleType) (h : isUnreleased version = true) :
    checkLatest services s name version track kind = .ok () := by
  unfold checkLatest compareLatestVersion compareWithLatest
  cases kind with
  | module =>
      dsimp only
      rw [if_pos h]
      rfl
  | stack =>
      dsimp only
      rw [if_pos h]
      rfl

/-- The name check reads the latest version of the other kind, on the empty track. -/
def checkOtherKind (services : Services) (s : RegionStore) (name : String) :
    ModuleType → Except ModuleError Unit
  | .module => checkNoStack services s name
  | .stack => checkNoModule services s name

theorem checkOtherKind_congr (services : Services) {s s' : RegionStore} {name : String}
    {kind : ModuleType}
    (h : s'.item .modules (latestKeyOf (otherKind kind) name "") =
      s.item .modules (latestKeyOf (otherKind kind) name "")) :
    checkOtherKind services s' name kind = checkOtherKind services s name kind := by
  have hget := services.getModule_congr h
  cases kind with
  | module =>
      change services.getModule s' (getLatestStackVersionQuery name "") = _ at hget
      unfold checkOtherKind checkNoStack Services.getLatestStackVersion
      rw [hget]
      rfl
  | stack =>
      change services.getModule s' (getLatestModuleVersionQuery name "") = _ at hget
      unfold checkOtherKind checkNoModule Services.getLatestModuleVersion
      rw [hget]
      rfl

theorem checkOtherKind_of_item (services : Services) {s : RegionStore} {name : String}
    {kind : ModuleType} {record : ModuleResp}
    (h : s.item .modules (latestKeyOf (otherKind kind) name "") = some (.module record)) :
    checkOtherKind services s name kind ≠ .ok () := by
  have hget : services.getModule s (latestKeyOf (otherKind kind) name "") = .ok (some record) := by
    rw [Services.getModule, h]
  intro hok
  cases kind with
  | module =>
      change services.getModule s (getLatestStackVersionQuery name "") = _ at hget
      rw [checkOtherKind, checkNoStack, Services.getLatestStackVersion, hget] at hok
      cases hok
  | stack =>
      change services.getModule s (getLatestModuleVersionQuery name "") = _ at hget
      rw [checkOtherKind, checkNoModule, Services.getLatestModuleVersion, hget] at hok
      cases hok

theorem admitted_module_iff {services : Services} {s : RegionStore} {route : ModuleType}
    {module : ModuleResp} :
    Admitted services s (.module route module) ↔
      checkLatest services s module.module module.version module.track route = .ok () ∧
        checkOtherKind services s module.module route = .ok () := by
  constructor
  · intro h
    cases h with
    | module latest noStack => exact ⟨latest, noStack⟩
    | stack latest noModule => exact ⟨latest, noModule⟩
  · rintro ⟨hlatest, hother⟩
    cases route with
    | module => exact .module hlatest hother
    | stack => exact .stack hlatest hother

/-! ### The row of the latest version -/

theorem latestKey_eq (route : ModuleType) (module : ModuleResp) :
    (Release.module route module).latestKey =
      latestKeyOf (kindOf module) module.module module.track := by
  change (⟨latestPk module, moduleId module.module module.track⟩ : Key) = _
  unfold kindOf latestPk
  split <;> rfl

theorem latestKeyOf_inj {kind kind' : ModuleType} {name track name' track' : String} :
    latestKeyOf kind name track = latestKeyOf kind' name' track' ↔
      kind = kind' ∧ moduleId name track = moduleId name' track' := by
  have hne : "LATEST_MODULE" ≠ "LATEST_STACK" := by decide
  cases kind <;> cases kind' <;>
    simp [latestKeyOf, getLatestModuleVersionQuery, getLatestStackVersionQuery]

theorem versionKey_ne_latestKeyOf (release : Release) (v : String) (kind : ModuleType)
    (name track : String) : latestKeyOf kind name track ≠ release.versionKey v := by
  intro h
  refine release.head?_versionKey v ?_
  rw [← h]
  cases kind with
  | module =>
      change "LATEST_MODULE".toList.head? = some 'L'
      decide
  | stack =>
      change "LATEST_STACK".toList.head? = some 'L'
      decide

theorem moduleId_empty_track {name track : String} : moduleId name "" = moduleId name track ↔
    track = "" := by
  constructor
  · intro h
    have hchars := congrArg String.toList h
    simp only [moduleId, getModuleIdentifier, String.toList_append, List.append_cancel_left_eq,
      List.append_cancel_right_eq] at hchars
    exact (String.ext hchars).symm
  · rintro rfl
    rfl

theorem written_latestKeyOf (route : ModuleType) (module : ModuleResp) (v : String)
    (kind : ModuleType) (name track : String) :
    written (modulePuts module v) .modules (latestKeyOf kind name track) =
      if kind = kindOf module ∧ moduleId name track = moduleId module.module module.track then
        some (.module module)
      else none := by
  change written ((Release.module route module).puts v) _ _ = _
  rw [written_puts]
  have hne := versionKey_ne_latestKeyOf (Release.module route module) v kind name track
  refine if_congr ?_ rfl rfl
  rw [latestKey_eq, latestKeyOf_inj, or_iff_right hne]

namespace RegionalRequest

/-- The request passes its checks in its own region, and puts these rows. -/
def Admits (services : Services) (s : RegionStore) : RegionalRequest → List Put → Prop
  | publication route module _, puts => Admitted services s (.module route module) ∧
      ∃ v, zeroPadSemver module.version 3 = some v ∧ puts = modulePuts module v
  | deprecation kind name track version message, puts =>
      ∃ put, prepare services s kind name track version message = .ok put ∧ puts = [put]

theorem admits_congr {services : Services} {s s' : RegionStore}
    (h : ∀ key, s'.item .modules key = s.item .modules key) (request : RegionalRequest)
    (puts : List Put) : request.Admits services s' puts ↔ request.Admits services s puts := by
  cases request with
  | publication route module zipBase64 =>
      have hadmitted : Admitted services s' (.module route module) ↔
          Admitted services s (.module route module) := by
        rw [admitted_module_iff, admitted_module_iff, checkLatest_congr services (h _),
          checkOtherKind_congr services (h _)]
      exact and_congr_left fun _ => hadmitted
  | deprecation kind name track version message =>
      have hget : services.getModule s' = services.getModule s :=
        funext fun key => services.getModule_congr (h key)
      have hprepare : prepare services s' kind name track version message =
          prepare services s kind name track version message := by
        unfold prepare prepareModuleDeprecation prepareStackDeprecation prepareDeprecation
          Services.getModuleVersion Services.getLatestStackVersion Services.getLatestModuleVersion
        rw [hget]
      simp only [Admits, hprepare]

/-- The rows that are put are those that the request replaces. -/
theorem Admits.written_eq {services : Services} {s : RegionStore} {request : RegionalRequest}
    {puts : List Put} (h : request.Admits services s puts) (key : Key) :
    written puts .modules key = none ↔ ¬ request.Replaces key := by
  cases request with
  | publication route module zipBase64 =>
      obtain ⟨-, v, hv, rfl⟩ := h
      change written ((Release.module route module).puts v) .modules key = none ↔ _
      rw [written_puts, ite_eq_right_iff]
      simp only [reduceCtorEq, imp_false]
      refine not_congr ⟨fun hkey => ⟨v, hv, hkey⟩, ?_⟩
      rintro ⟨v', hv', hkey⟩
      obtain rfl : v = v' := Option.some.inj (hv.symm.trans hv')
      exact hkey
  | deprecation kind name track version message =>
      obtain ⟨put, hput, rfl⟩ := h
      obtain ⟨key', existing, hkey', -, -, rfl⟩ := prepare_ok hput
      simp only [written, true_and, Option.none_or, Replaces, hkey', Option.some.injEq]
      rw [ite_eq_right_iff]
      simp [eq_comm]

/-! ### The checks of a second attempt -/

section

variable {services : Services} {s s' : RegionStore} {request : RegionalRequest}
  {puts puts' : List Put}

/-- The checks pass again when they do not look at the rows that have been put. -/
theorem Admits.again (h : request.Admits services s puts)
    (hrows : ∀ key, s'.item .modules key = (written puts .modules key).or (s.item .modules key))
    (hunchecked : request.Unchecked) : request.Admits services s' puts := by
  cases request with
  | deprecation kind name track version message => exact hunchecked.elim
  | publication route module zipBase64 =>
      obtain ⟨hadmitted, v, hv, rfl⟩ := h
      refine ⟨?_, v, hv, rfl⟩
      rw [admitted_module_iff] at hadmitted ⊢
      obtain ⟨hlatest, hother⟩ := hadmitted
      have hsame : ∀ kind name track,
          ¬ (kind = kindOf module ∧ moduleId name track = moduleId module.module module.track) →
            s'.item .modules (latestKeyOf kind name track) =
              s.item .modules (latestKeyOf kind name track) := by
        intro kind name track hnot
        rw [hrows, written_latestKeyOf route, if_neg hnot, Option.none_or]
      by_cases hkind : kindOf module = route
      · -- The record is of the kind of its route: the version is not compared.
        have hunreleased : isUnreleased module.version = true := (if_pos hkind).mp hunchecked
        refine ⟨checkLatest_unreleased services s' route hunreleased, ?_⟩
        rw [checkOtherKind_congr services (hsame _ _ _ ?_)]
        · exact hother
        · rintro ⟨heq, -⟩
          rw [hkind] at heq
          cases route <;> cases heq
      · -- The record is of the other kind: its track is not the one that is asked for.
        have htrack : module.track ≠ "" := (if_neg hkind).mp hunchecked
        refine ⟨?_, ?_⟩
        · rw [checkLatest_congr services (hsame _ _ _ fun heq => hkind heq.1.symm)]
          exact hlatest
        · rw [checkOtherKind_congr services (hsame _ _ _ fun heq => ?_)]
          · exact hother
          · exact htrack (moduleId_empty_track.1 heq.2)

/-- Checks that look at the rows that have been put fail. -/
theorem Admits.unchecked (h : request.Admits services s puts)
    (hrows : ∀ key, s'.item .modules key = (written puts .modules key).or (s.item .modules key))
    (h' : request.Admits services s' puts') : request.Unchecked := by
  cases request with
  | deprecation kind name track version message =>
      obtain ⟨put, hput, rfl⟩ := h
      obtain ⟨key, existing, hkey, -, -, rfl⟩ := prepare_ok hput
      obtain ⟨put', hput', rfl⟩ := h'
      obtain ⟨key', existing', hkey', hrow, hnot, -⟩ := prepare_ok hput'
      obtain rfl : key = key' := Option.some.inj (hkey.symm.trans hkey')
      -- The row that is read is the deprecated one.
      rw [hrows] at hrow
      obtain rfl : _ = existing' := by simpa [written] using hrow
      cases hnot
  | publication route module zipBase64 =>
      obtain ⟨-, v, hv, rfl⟩ := h
      have hlatest := h'.1
      by_cases hkind : kindOf module = route
      · refine (if_pos hkind).mpr ?_
        have hroute : (Release.module route module).MatchesRoute := by
          subst hkind
          unfold kindOf Release.MatchesRoute
          cases hdata : module.stackData <;> simp [hdata]
        rcases hlatest.latest hroute with hunreleased | hrow
        · exact hunreleased
        · have hitem : s'.item .modules (Release.module route module).latestKey =
              some (.module module) := by
            rw [hrows, latestKey_eq, written_latestKeyOf route, if_pos ⟨rfl, rfl⟩]
            rfl
          exact absurd rfl (hrow _ hitem).2
      · refine (if_neg hkind).mpr fun htrack => ?_
        obtain ⟨-, hother⟩ := admitted_module_iff.1 hlatest
        have hkind' : otherKind route = kindOf module := by
          cases route <;> cases hk : kindOf module <;> simp_all [otherKind]
        have hrow : s'.item .modules (latestKeyOf (otherKind route) module.module "") =
            some (.module module) := by
          rw [hrows, written_latestKeyOf route, if_pos ⟨hkind', moduleId_empty_track.2 htrack⟩]
          rfl
        exact checkOtherKind_of_item services hrow hother

end

/-! ### The writes of a request -/

/-- The caches of the locked providers, which a stack is published with. -/
def uploadCaches (services : Services) (reg : Registry) (handler : GenericCloudHandler)
    (module : ModuleResp) : Publishing ModuleError Unit :=
  .forEach handler.allRegions fun region =>
    .forEach module.tfLockProviders fun provider =>
      (uploadProviderCache services reg region provider).mapError fun e =>
        .uploadModuleError ("Failed to upload provider cache " ++ provider.source ++
          " to region " ++ region ++ ": " ++ e)

/-- What a request needs besides its checks: its zip can be read, and so can the caches. -/
def Uploadable (services : Services) (reg : Registry) (handler : GenericCloudHandler) :
    RegionalRequest → Prop
  | publication route module zipBase64 => (∃ content, services.base64Decode zipBase64 = .ok content) ∧
      (route = .stack → (uploadCaches services reg handler module).result = .ok ())
  | deprecation _ _ _ _ _ => True

/-- The request puts its rows in every region, after uploads; caches may follow. -/
def Spreads (handler : GenericCloudHandler) (request : RegionalRequest) (puts : List Put)
    (ws : List (String × Write)) : Prop :=
  ∃ uploads caches, uploads.length + 1 = request.writesPerRegion ∧
    (∀ w ∈ uploads, w.puts = []) ∧ (∀ w ∈ caches, w.2.puts = []) ∧
    ws = spread handler.allRegions (uploads ++ [.transact puts]) ++ caches

section

variable {services : Services} {reg : Registry} {handler : GenericCloudHandler}

theorem uploadModule_eq {module : ModuleResp} {zipBase64 v : String} {content : Content}
    (hzip : services.base64Decode zipBase64 = .ok content)
    (hv : zeroPadSemver module.version 3 = some v) (region : String) :
    uploadModule services region module zipBase64 =
      ⟨[(region, .upload .modules module.s3Key content), (region, .transact (modulePuts module v))],
        .ok ()⟩ := by
  rw [uploadModule, uploadFileBase64, hzip, insertModule, Services.parsed, hv]
  rfl

/-- The uploads of a module to all regions succeed when its zip and its version can be read. -/
theorem forEach_uploadModule_iff {module : ModuleResp} {zipBase64 : String}
    {f : String → String → ModuleError} (hregions : handler.allRegions ≠ []) :
    (Outcome.forEach handler.allRegions fun region =>
      (uploadModule services region module zipBase64).mapError (f region)).result = .ok () ↔
    ∃ content v, services.base64Decode zipBase64 = .ok content ∧
      zeroPadSemver module.version 3 = some v := by
  constructor
  · intro h
    obtain ⟨region, hregion⟩ := List.exists_mem_of_ne_nil _ hregions
    have hok := Outcome.result_mapError_eq_ok.1 (Outcome.result_of_forEach h region hregion)
    obtain ⟨_, hupload, hinsert⟩ := Outcome.result_bind_eq_ok.1 hok
    obtain ⟨content, hcontent, -⟩ :=
      Outcome.result_bind_eq_ok.1 (Outcome.result_mapError_eq_ok.1 hupload)
    obtain ⟨v, hv, -⟩ := Outcome.result_bind_eq_ok.1 hinsert
    change services.parsed (zeroPadSemver · 3) module.version = .ok v at hv
    exact ⟨content, v, hcontent, parsed_eq_ok hv⟩
  · rintro ⟨content, v, hzip, hv⟩
    have heq : ∀ region ∈ handler.allRegions,
        (uploadModule services region module zipBase64).mapError (f region) =
          ⟨[Write.upload .modules module.s3Key content, .transact (modulePuts module v)].map
            fun step => (region, step), .ok ()⟩ := by
      intro region _
      rw [uploadModule_eq hzip hv]
      rfl
    rw [Outcome.forEach_eq_of_ok heq]

/-- The checks of a publication, its uploads, and the caches of a stack. -/
theorem outcome_publication (route : ModuleType) (module : ModuleResp) (zipBase64 : String)
    (hregions : handler.allRegions ≠ []) :
    ∃ f : String → String → ModuleError,
      (publication route module zipBase64).outcome services reg handler =
        (do
          .ofExcept (checkLatest services (reg handler.region) module.module module.version
            module.track route)
          .ofExcept (checkOtherKind services (reg handler.region) module.module route)
          .forEach handler.allRegions fun region =>
            (uploadModule services region module zipBase64).mapError (f region)
          if route = .stack then uploadCaches services reg handler module else pure () :
            Publishing ModuleError Unit).mapError fun _ => () := by
  cases route with
  | module =>
      refine ⟨fun region e =>
        .uploadModuleError ("Failed to upload module to region " ++ region ++ ": " ++ e), ?_⟩
      rw [outcome, serverPublishModule, if_neg hregions, if_neg (by decide), Outcome.bind_pure]
      rfl
  | stack =>
      refine ⟨fun region e =>
        .uploadModuleError ("Failed to upload stack to region " ++ region ++ ": " ++ e), ?_⟩
      rw [outcome, serverPublishStack, if_neg hregions, if_pos rfl]
      rfl

theorem outcome_deprecation (kind : ModuleType) (name track version : String)
    (message : Option String) (hregions : handler.allRegions ≠ []) :
    (deprecation kind name track version message).outcome services reg handler =
      (do
        let put ← .ofExcept
          (prepare services (reg handler.region) kind name track version message)
        putDeprecation handler.allRegions put : Publishing String Unit).mapError fun _ => () := by
  cases kind with
  | module =>
      rw [outcome, deprecateModule, if_neg hregions]
      rfl
  | stack =>
      rw [outcome, deprecateStack, if_neg hregions]
      rfl

theorem outcome_of_no_regions (request : RegionalRequest) (hregions : handler.allRegions = []) :
    (request.outcome services reg handler).result ≠ .ok () := by
  intro hok
  cases request with
  | publication route module zipBase64 =>
      cases route with
      | module =>
          rw [outcome, serverPublishModule, if_pos hregions] at hok
          cases hok
      | stack =>
          rw [outcome, serverPublishStack, if_pos hregions] at hok
          cases hok
  | deprecation kind name track version message =>
      cases kind with
      | module =>
          rw [outcome, deprecateModule, if_pos hregions] at hok
          cases hok
      | stack =>
          rw [outcome, deprecateStack, if_pos hregions] at hok
          cases hok

theorem putDeprecation_eq (regions : List String) (put : Put) :
    putDeprecation regions put = ⟨spread regions [.transact [put]], .ok ()⟩ :=
  Outcome.forEach_eq_of_ok fun _ _ => rfl

/-- A request succeeds when its checks pass and its uploads can be made. -/
theorem outcome_ok_iff (request : RegionalRequest) :
    (request.outcome services reg handler).result = .ok () ↔ handler.allRegions ≠ [] ∧
      (∃ puts, request.Admits services (reg handler.region) puts) ∧
        request.Uploadable services reg handler := by
  by_cases hregions : handler.allRegions = []
  · exact iff_of_false (outcome_of_no_regions request hregions) fun h => h.1 hregions
  · rw [and_iff_right hregions]
    cases request with
    | publication route module zipBase64 =>
        obtain ⟨f, heq⟩ := @outcome_publication services reg handler route module zipBase64
          hregions
        rw [heq, Outcome.result_mapError_eq_ok]
        simp only [Outcome.result_bind_eq_ok, forEach_uploadModule_iff hregions]
        constructor
        · rintro ⟨_, hlatest, _, hother, _, ⟨content, v, hzip, hv⟩, hcaches⟩
          refine ⟨⟨_, admitted_module_iff.2 ⟨hlatest, hother⟩, v, hv, rfl⟩, ⟨content, hzip⟩, ?_⟩
          rintro rfl
          rwa [if_pos rfl] at hcaches
        · rintro ⟨⟨puts, hadmitted, v, hv, -⟩, ⟨content, hzip⟩, hcaches⟩
          obtain ⟨hlatest, hother⟩ := admitted_module_iff.1 hadmitted
          refine ⟨(), hlatest, (), hother, (), ⟨content, v, hzip, hv⟩, ?_⟩
          split
          · rename_i hroute
            exact hcaches hroute
          · rfl
    | deprecation kind name track version message =>
        rw [outcome_deprecation kind name track version message hregions,
          Outcome.result_mapError_eq_ok, Outcome.result_bind_eq_ok]
        constructor
        · rintro ⟨put, hput, -⟩
          exact ⟨⟨_, put, hput, rfl⟩, trivial⟩
        · rintro ⟨⟨puts, put, hput, -⟩, -⟩
          refine ⟨put, hput, ?_⟩
          rw [putDeprecation_eq]

theorem puts_of_mem_uploadCaches {module : ModuleResp} {w : String × Write}
    (h : w ∈ (uploadCaches services reg handler module).writes) : w.2.puts = [] := by
  obtain ⟨region, -, h⟩ := Outcome.mem_writes_forEach h
  obtain ⟨provider, -, h⟩ := Outcome.mem_writes_forEach h
  exact IsCache.puts (isCache_of_mem_uploadProviderCache h).2

/-- The writes of a request that succeeds. -/
theorem spreads_of_ok {request : RegionalRequest}
    (hok : (request.outcome services reg handler).result = .ok ()) {puts : List Put}
    (hadmits : request.Admits services (reg handler.region) puts) :
    request.Spreads handler puts (request.outcome services reg handler).writes := by
  obtain ⟨hregions, -, huploadable⟩ := (outcome_ok_iff request).1 hok
  cases request with
  | publication route module zipBase64 =>
      obtain ⟨hadmitted, v, hv, rfl⟩ := hadmits
      obtain ⟨hlatest, hother⟩ := admitted_module_iff.1 hadmitted
      obtain ⟨⟨content, hzip⟩, -⟩ := huploadable
      obtain ⟨f, heq⟩ := @outcome_publication services reg handler route module zipBase64
        hregions
      have huploads : (Outcome.forEach handler.allRegions fun region =>
          (uploadModule services region module zipBase64).mapError (f region)) =
            ⟨spread handler.allRegions
              [.upload .modules module.s3Key content, .transact (modulePuts module v)], .ok ()⟩ := by
        refine Outcome.forEach_eq_of_ok fun region _ => ?_
        rw [uploadModule_eq hzip hv]
        rfl
      let caches : Publishing ModuleError Unit :=
        if route = .stack then uploadCaches services reg handler module else pure ()
      refine ⟨[.upload .modules module.s3Key content], caches.writes, rfl, ?_, fun w hw => ?_, ?_⟩
      · simp [Write.puts]
      · unfold caches at hw
        split at hw
        · exact puts_of_mem_uploadCaches hw
        · cases hw
      · rw [heq, Outcome.writes_mapError, hlatest, hother, huploads]
        rfl
  | deprecation kind name track version message =>
      obtain ⟨put, hput, rfl⟩ := hadmits
      refine ⟨[], [], rfl, by simp, by simp, ?_⟩
      rw [outcome_deprecation kind name track version message hregions, Outcome.writes_mapError,
        hput, Outcome.ofExcept_ok_bind, putDeprecation_eq, List.append_nil]
      rfl

/-! ### What the writes leave behind -/

section

variable {request : RegionalRequest} {puts : List Put} {ws : List (String × Write)}

theorem Spreads.puts_cases (h : request.Spreads handler puts ws) {region : String} {w : Write}
    (hw : (region, w) ∈ ws) : w.puts = [] ∨ w.puts = puts := by
  obtain ⟨uploads, caches, -, huploads, hcaches, rfl⟩ := h
  rcases List.mem_append.1 hw with hw | hw
  · rcases List.mem_append.1 (mem_spread.1 hw).2 with hw | hw
    · exact Or.inl (huploads w hw)
    · obtain rfl := List.mem_singleton.1 hw
      exact Or.inr rfl
  · exact Or.inl (hcaches _ hw)

theorem Spreads.everywhere (h : request.Spreads handler puts ws) {region : String}
    (hregion : region ∈ handler.allRegions) : (region, .transact puts) ∈ ws := by
  obtain ⟨uploads, caches, -, -, -, rfl⟩ := h
  refine List.mem_append_left _ (mem_spread.2 ⟨hregion, ?_⟩)
  exact List.mem_append_right _ List.mem_cons_self

theorem Admits.puts_ne_nil {s : RegionStore} (h : request.Admits services s puts) : puts ≠ [] := by
  cases request with
  | publication route module zipBase64 =>
      obtain ⟨-, v, -, rfl⟩ := h
      exact List.cons_ne_nil _ _
  | deprecation kind name track version message =>
      obtain ⟨put, -, rfl⟩ := h
      exact List.cons_ne_nil _ _

theorem eq_transact {w : Write} (h : w.puts ≠ []) : w = .transact w.puts := by
  cases w with
  | transact puts => rfl
  | upload bucket key content => exact absurd rfl h
  | uploadIfAbsent bucket key content => exact absurd rfl h

/-- Its own region has its rows when the writes that are carried out reach it. -/
theorem Spreads.reaches_iff (h : request.Spreads handler puts ws) (hputs : puts ≠ [])
    (position : Nat) : (handler.region, .transact puts) ∈ ws.take position ↔
      request.ReachesOwnRegion handler position := by
  obtain ⟨uploads, caches, hlength, huploads, hcaches, rfl⟩ := h
  have hlast : Write.transact puts ∉ uploads := fun hmem => hputs (huploads _ hmem)
  have hrest : (handler.region, Write.transact puts) ∉ caches := fun hmem => hputs (hcaches _ hmem)
  rw [mem_take_spread_iff hlast hrest, hlength]
  exact Iff.rfl

/-- The rows of its own region after a fault that comes after them. -/
theorem Spreads.item_of_reaches (h : request.Spreads handler puts ws) (hputs : puts ≠ [])
    {position : Nat} (hreaches : request.ReachesOwnRegion handler position) (key : Key) :
    (reg.applyAll (ws.take position) handler.region).item .modules key =
      (written puts .modules key).or ((reg handler.region).item .modules key) :=
  Registry.item_applyAll reg (fun _ hw => h.puts_cases (List.mem_of_mem_take hw))
    ⟨.transact puts, (h.reaches_iff hputs position).2 hreaches, rfl⟩ _ _

theorem Spreads.item_of_not_reaches (h : request.Spreads handler puts ws) (hputs : puts ≠ [])
    {position : Nat} (hreaches : ¬ request.ReachesOwnRegion handler position) (key : Key) :
    (reg.applyAll (ws.take position) handler.region).item .modules key =
      (reg handler.region).item .modules key := by
  refine Registry.item_applyAll_of_nil reg ?_ _ _
  intro w hw
  refine (h.puts_cases (List.mem_of_mem_take hw)).resolve_right fun hsame => hreaches ?_
  have heq : w = .transact puts := by
    rw [← hsame] at hputs ⊢
    exact eq_transact hputs
  rw [heq] at hw
  exact (h.reaches_iff hputs position).1 hw

/-- The rows of a region after a fault and a second attempt. -/
theorem Spreads.item_retried {ws' : List (String × Write)} (h : request.Spreads handler puts ws)
    (h' : request.Spreads handler puts ws') (position : Nat) {region : String}
    (hregion : region ∈ handler.allRegions) (key : Key) :
    ((reg.applyAll (ws.take position)).applyAll ws' region).item .modules key =
      (written puts .modules key).or ((reg region).item .modules key) := by
  have happend : (reg.applyAll (ws.take position)).applyAll ws' =
      reg.applyAll (ws.take position ++ ws') :=
    (List.foldl_append).symm
  rw [happend]
  refine Registry.item_applyAll reg ?_ ⟨.transact puts, ?_, rfl⟩ _ _
  · intro w hw
    rcases List.mem_append.1 hw with hw | hw
    · exact h.puts_cases (List.mem_of_mem_take hw)
    · exact h'.puts_cases hw
  · exact List.mem_append_right _ (h'.everywhere hregion)

/-! ### Uploads again -/

theorem objects_isSome_applyAll {region : String} {bucket : Bucket} {key : String}
    (h : ((reg region).objects bucket key).isSome = true) (ws : List (String × Write)) :
    ((reg.applyAll ws region).objects bucket key).isSome = true := by
  have hupload : ∀ (s : RegionStore) bucket' key' content,
      (s.objects bucket key).isSome = true →
        ((s.upload bucket' key' content).objects bucket key).isSome = true := by
    intro s bucket' key' content hs
    unfold RegionStore.upload
    dsimp only
    split
    · rfl
    · exact hs
  induction ws generalizing reg with
  | nil => exact h
  | cons w ws ih =>
      refine ih ?_
      obtain ⟨target, w⟩ := w
      by_cases hregion : region = target
      · subst hregion
        rw [Registry.apply_self]
        cases w with
        | transact puts => rwa [RegionStore.apply, RegionStore.objects_foldl_put]
        | upload bucket' key' content => exact hupload _ _ _ _ h
        | uploadIfAbsent bucket' key' content =>
            rw [RegionStore.apply]
            split
            · exact h
            · exact hupload _ _ _ _ h
      · rwa [Registry.apply_of_ne reg hregion]

/-- A cache that could be uploaded can be uploaded later. -/
theorem uploadProviderCache_applyAll {region : String} {provider : TfLockProvider}
    (h : (uploadProviderCache services reg region provider).result = .ok ())
    (ws : List (String × Write)) :
    (uploadProviderCache services (reg.applyAll ws) region provider).result = .ok () := by
  unfold uploadProviderCache at h ⊢
  rw [Outcome.result_forEach_iff] at h ⊢
  intro category hcategory
  obtain ⟨⟨url, key⟩, hkey, hupload⟩ := Outcome.result_bind_eq_ok.1 (h category hcategory)
  refine Outcome.result_bind_eq_ok.2 ⟨⟨url, key⟩, hkey, ?_⟩
  simp only [uploadFileUrl] at hupload ⊢
  split
  · rfl
  · rename_i habsent
    rw [if_neg fun hpresent => habsent (objects_isSome_applyAll hpresent ws)] at hupload
    exact hupload

theorem Uploadable.applyAll (h : request.Uploadable services reg handler)
    (ws : List (String × Write)) : request.Uploadable services (reg.applyAll ws) handler := by
  cases request with
  | publication route module zipBase64 =>
      refine ⟨h.1, fun hroute => ?_⟩
      have hcaches := h.2 hroute
      unfold uploadCaches at hcaches ⊢
      simp only [Outcome.result_forEach_iff, Outcome.result_mapError_eq_ok] at hcaches ⊢
      exact fun region hregion provider hprovider =>
        uploadProviderCache_applyAll (hcaches region hregion provider hprovider) ws
  | deprecation kind name track version message => trivial

end

end

/-! ## Recovery -/

/-- A request that has failed at a position recovers exactly when its checks do not see what it has
done, and the regions agreed on the other rows of its name. -/
theorem recovers_iff {services : Services} {reg : Registry} {handler : GenericCloudHandler}
    {request : RegionalRequest} (hok : (request.outcome services reg handler).result = .ok ())
    (position : Nat) :
    Recovers services handler request (request.interrupted services reg handler position) ↔
      (request.ReachesOwnRegion handler position → request.Unchecked) ∧
        reg.AgreeOn handler.allRegions fun key => OfName request.name key ∧
          ¬ request.Replaces key := by
  obtain ⟨hregions, ⟨puts, hadmits⟩, huploadable⟩ := (outcome_ok_iff request).1 hok
  have hspreads := spreads_of_ok hok hadmits
  let reg' := request.interrupted services reg handler position
  have hagain : (request.ReachesOwnRegion handler position → request.Unchecked) →
      request.Admits services (reg' handler.region) puts := by
    intro hunchecked
    by_cases hreaches : request.ReachesOwnRegion handler position
    · exact hadmits.again (hspreads.item_of_reaches hadmits.puts_ne_nil hreaches)
        (hunchecked hreaches)
    · exact (admits_congr (hspreads.item_of_not_reaches hadmits.puts_ne_nil hreaches) _ _).2 hadmits
  -- A second attempt that succeeds puts the same rows.
  have hagree : request.Admits services (reg' handler.region) puts →
      (request.outcome services reg' handler).result = .ok () →
      ((reg'.applyAll (request.outcome services reg' handler).writes).AgreeOn handler.allRegions
          (OfName request.name) ↔
        reg.AgreeOn handler.allRegions fun key => OfName request.name key ∧
          ¬ request.Replaces key) := by
    intro hadmits' hok'
    have hitems : ∀ region ∈ handler.allRegions, ∀ key,
        (reg'.applyAll (request.outcome services reg' handler).writes region).item .modules key =
          (written puts .modules key).or ((reg region).item .modules key) := fun region hregion =>
      hspreads.item_retried (spreads_of_ok hok' hadmits') position hregion
    rw [agreeOn_iff hitems]
    simp only [hadmits.written_eq]
  constructor
  · rintro ⟨hok', hafter⟩
    obtain ⟨-, ⟨puts', hadmits'⟩, -⟩ := (outcome_ok_iff request).1 hok'
    have hunchecked : request.ReachesOwnRegion handler position → request.Unchecked :=
      fun hreaches => hadmits.unchecked
        (hspreads.item_of_reaches hadmits.puts_ne_nil hreaches) hadmits'
    exact ⟨hunchecked, (hagree (hagain hunchecked) hok').1 hafter⟩
  · rintro ⟨hunchecked, hbefore⟩
    have hok' : (request.outcome services reg' handler).result = .ok () :=
      (outcome_ok_iff request).2 ⟨hregions, ⟨puts, hagain hunchecked⟩, huploadable.applyAll _⟩
    exact ⟨hok', (hagree (hagain hunchecked) hok').2 hbefore⟩

/-! ### Two regions -/

def twoRegions : GenericCloudHandler :=
  ⟨"eu-central-1", ["eu-central-1", "us-east-1"], none⟩

def publishWeb : RegionalRequest :=
  .publication .module (webModule "stable" "1.0.0") "YQ=="

theorem agreeOn_empty (regions : List String) (keys : Key → Prop) :
    Registry.empty.AgreeOn regions keys :=
  fun _ _ _ _ _ _ => rfl

/-- The rows of the first region fail: the second attempt begins again. -/
theorem recovers_publishWeb :
    Recovers localServices twoRegions publishWeb
      (publishWeb.interrupted localServices .empty twoRegions 1) := by
  refine (recovers_iff (by decide +kernel) 1).2 ⟨fun hreaches => ?_, agreeOn_empty _ _⟩
  exact absurd hreaches.2 (by decide)

/-- The upload to the second region fails: the second attempt finds the version in the first one. -/
theorem not_recovers_publishWeb :
    ¬ ∀ request position,
      (request.outcome localServices .empty twoRegions).result = .ok () →
      Registry.empty.AgreeOn twoRegions.allRegions (OfName request.name) →
      position < (request.outcome localServices .empty twoRegions).writes.length →
      Recovers localServices twoRegions request
        (request.interrupted localServices .empty twoRegions position) := by
  intro h
  have hrecovers := h publishWeb 2 (by decide +kernel) (agreeOn_empty _ _) (by decide +kernel)
  have hfails : (publishWeb.outcome localServices
      (publishWeb.interrupted localServices .empty twoRegions 2) twoRegions).result = .error () := by
    decide +kernel
  rw [hrecovers.succeeds] at hfails
  cases hfails

end RegionalRequest

end EnvCommon
end InfraWeave
