import InfraWeave.EnvCommon.Catalogue

/-!
# The latest version

The row of the latest version of an identifier names the version that was stored last, and that
version is not before any other that was stored since the last unreleased version `0.0.0…`: an
unreleased version is stored without being compared, and the pointer moves to it.
-/

namespace InfraWeave
namespace EnvCommon

/-- Modules and stacks on a track, and providers. -/
inductive Artifact where
  | module (name track : String)
  | stack (name track : String)
  | provider (name : String)

def Artifact.latestKey : Artifact → Key
  | module name track => getLatestModuleVersionQuery name track
  | stack name track => getLatestStackVersionQuery name track
  | provider name => getLatestProviderVersionQuery name

/-- The version that the row of the latest version names, in a region. -/
def latestVersion (s : RegionStore) (artifact : Artifact) : Option String :=
  (s.item .modules artifact.latestKey).map Item.version

/-- The versions stored under a key of the latest version, in order. -/
def versionsAt (key : Key) (accepted : List Release) : List String :=
  (accepted.filter fun release => release.latestKey = key).map Release.version

def Catalogue.versionsOf (c : Catalogue) (artifact : Artifact) : List String :=
  versionsAt artifact.latestKey c.accepted

/-- The latest version is the one that was stored last, and is not before any that was stored after
the last unreleased version. -/
def LatestIsGreatest (accepted : List String) (latest : Option String) : Prop :=
  latest = accepted.getLast? ∧ AscendsSince (isUnreleased · = true) NotAfter accepted

/-- Records have stack data when they come as stacks, and only then. -/
def Publish.MatchesRoute : Publish → Prop
  | serverModule module _ => module.stackData = none
  | serverStack module _ => module.stackData.isSome = true
  | _ => True

/-! ## One publish -/

theorem Release.version_item (release : Release) : release.item.version = release.version := by
  cases release <;> rfl

theorem versionsAt_concat (key : Key) (accepted : List Release) (release : Release) :
    versionsAt key (accepted ++ [release]) =
      versionsAt key accepted ++ if release.latestKey = key then [release.version] else [] := by
  unfold versionsAt
  rw [List.filter_append, List.map_append]
  by_cases h : release.latestKey = key <;> simp [h]

/-- The row that a release is compared with is the one it replaces. -/
def Release.MatchesRoute : Release → Prop
  | module .module record => record.stackData = none
  | module .stack record => record.stackData.isSome = true
  | provider _ => True

theorem Publish.MatchesRoute.release {services : Services} {s : RegionStore} {op : Publish}
    (h : op.MatchesRoute) {release : Release} (hoffers : op.Offers services s release) :
    release.MatchesRoute := by
  cases op with
  | serverModule | serverStack | serverProvider =>
      obtain rfl := hoffers
      exact h
  | directModule =>
      obtain ⟨_, _, _, _, -, -, -, -, -, rfl⟩ := hoffers
      rfl
  | directStack =>
      obtain ⟨_, _, _, -, -, -, -, rfl⟩ := hoffers
      rfl
  | directProvider =>
      obtain ⟨_, -, rfl⟩ := hoffers
      trivial

/-- A comparison with the row of a key, in terms of the row. -/
theorem compare_row {α : Type} {services : Services} {entity place version : String}
    {fetch : Except String (Option α)} {versionOf : α → String} {toItem : α → Item}
    {s : RegionStore} {key : Key} (hitem : ∀ a, (toItem a).version = versionOf a)
    (hfetch : ∀ found, fetch = .ok found → s.item .modules key = found.map toItem)
    {found : Option α}
    (h : compareWithLatest services entity place version fetch versionOf = .ok found) :
    isUnreleased version = true ∨ ∀ item, s.item .modules key = some item →
      NotAfter item.version version ∧ item.version ≠ version := by
  rcases compareWithLatest_ok h with hunreleased | hnone | ⟨latest, hlatest, hle, hne⟩
  · exact Or.inl hunreleased
  · refine Or.inr fun item hrow => ?_
    rw [hfetch _ hnone] at hrow
    cases hrow
  · refine Or.inr fun item hrow => ?_
    rw [hfetch _ hlatest] at hrow
    obtain rfl : toItem latest = item := by simpa using hrow
    rw [hitem]
    exact ⟨hle, hne⟩

theorem checkLatest_ok {services : Services} {s : RegionStore} {module version track : String}
    {moduleType : ModuleType}
    (h : checkLatest services s module version track moduleType = .ok ()) :
    ∃ found, compareLatestVersion services s module version track moduleType = .ok found := by
  obtain ⟨found, hfound, -⟩ := bind_eq_ok_iff.1 h
  exact ⟨found, mapError_eq_ok_iff.1 hfound⟩

/-- A release that has passed its checks is unreleased, or not before the latest version. -/
theorem Admitted.latest {services : Services} {s : RegionStore} {release : Release}
    (h : Admitted services s release) (hroute : release.MatchesRoute) :
    isUnreleased release.version = true ∨ ∀ item, s.item .modules release.latestKey = some item →
      NotAfter item.version release.version ∧ item.version ≠ release.version := by
  cases h with
  | @module record hlatest _ =>
      obtain ⟨found, hfound⟩ := checkLatest_ok hlatest
      have hkey : (Release.module .module record).latestKey =
          getLatestModuleVersionQuery record.module record.track := by
        have hnone : record.stackData = none := hroute
        simp [Release.latestKey, latestPk, hnone, getLatestModuleVersionQuery]
      rw [hkey]
      exact compare_row (fun _ => rfl) (fun _ => getModule_eq_ok) hfound
  | @stack record hlatest _ =>
      obtain ⟨found, hfound⟩ := checkLatest_ok hlatest
      have hkey : (Release.module .stack record).latestKey =
          getLatestStackVersionQuery record.module record.track := by
        have hsome : record.stackData.isSome = true := hroute
        simp [Release.latestKey, latestPk, hsome, getLatestStackVersionQuery]
      rw [hkey]
      exact compare_row (fun _ => rfl) (fun _ => getModule_eq_ok) hfound
  | @provider record _ hlatest =>
      obtain ⟨found, hfound, -⟩ := bind_eq_ok_iff.1 hlatest
      exact compare_row (fun _ => rfl) (fun _ => getProvider_eq_ok) (mapError_eq_ok_iff.1 hfound)

/-! ## Runs -/

/-- A publish of a handler that writes to `regions` and reads from one of them. -/
def OrderlyCall (regions : List String) (call : GenericCloudHandler × Publish) : Prop :=
  call.1.allRegions = regions ∧ call.1.region ∈ regions ∧ call.2.MatchesRoute

structure LatestInvariant (regions : List String) (c : Catalogue) : Prop where
  latest : ∀ region ∈ regions, ∀ key : Key, key.pk.toList.head? = some 'L' →
    ((c.registry region).item .modules key).map Item.version =
      (versionsAt key c.accepted).getLast?
  ascends : ∀ key, AscendsSince (isUnreleased · = true) NotAfter (versionsAt key c.accepted)

theorem latestInvariant_empty (regions : List String) : LatestInvariant regions .empty where
  latest _ _ _ _ := rfl
  ascends _ := ascendsSince_nil

theorem latestInvariant_publish {services : Services} {regions : List String} {c : Catalogue}
    {call : GenericCloudHandler × Publish} (hinv : LatestInvariant regions c)
    (hcall : OrderlyCall regions call) :
    LatestInvariant regions (c.publish services call) := by
  obtain ⟨handler, op⟩ := call
  obtain ⟨hregions, hregion, hroute⟩ := hcall
  rcases publish_cases services c handler op with
    ⟨haccepted, hitems⟩ | ⟨release, v, hoffers, hadmitted, hv, haccepted, hitems⟩
  · constructor
    · intro region hregion key hkey
      rw [hitems, haccepted]
      exact hinv.latest region hregion key hkey
    · rw [haccepted]
      exact hinv.ascends
  · constructor
    · intro region hregion key hkey
      rw [hitems.latest hkey, haccepted, versionsAt_concat]
      by_cases hlatest : release.latestKey = key
      · rw [if_pos ⟨by rwa [hregions], hlatest.symm⟩, if_pos hlatest]
        simp [release.version_item]
      · rw [if_neg fun h => hlatest h.2.symm, if_neg hlatest, List.append_nil]
        exact hinv.latest region hregion key hkey
    · intro key
      rw [haccepted, versionsAt_concat]
      by_cases hlatest : release.latestKey = key
      · rw [if_pos hlatest]
        have hrefl : NotAfter release.version release.version := by
          simp only [zeroPadSemver, Option.map_eq_some_iff] at hv
          obtain ⟨version, hparse, -⟩ := hv
          exact .refl hparse
        refine (hinv.ascends key).concat hrefl ?_
        refine (hadmitted.latest (hroute.release hoffers)).imp_right fun hle last hlast => ?_
        -- The row in the handler's own region names the last version.
        rw [← hinv.latest _ hregion key (hlatest ▸ release.head?_latestKey)] at hlast
        obtain ⟨item, hitem, rfl⟩ := Option.map_eq_some_iff.1 hlast
        exact (hle item (hlatest ▸ hitem)).1
      · rw [if_neg hlatest, List.append_nil]
        exact hinv.ascends key

theorem Artifact.head?_latestKey (artifact : Artifact) :
    artifact.latestKey.pk.toList.head? = some 'L' := by
  cases artifact <;>
    simp [Artifact.latestKey, getLatestModuleVersionQuery, getLatestStackVersionQuery,
      getLatestProviderVersionQuery]

theorem latestInvariant_run {services : Services} {regions : List String}
    {calls : List (GenericCloudHandler × Publish)}
    (hcalls : ∀ call ∈ calls, OrderlyCall regions call) :
    LatestInvariant regions (run (Catalogue.publish services) .empty calls) :=
  run_invariant (LatestInvariant regions) (fun _ _ => latestInvariant_publish)
    (latestInvariant_empty regions) (meets_of_forall hcalls _)

/-- Stored releases are never forgotten. -/
theorem accepted_run (services : Services) (c : Catalogue)
    (calls : List (GenericCloudHandler × Publish)) :
    ∃ later, (run (Catalogue.publish services) c calls).accepted = c.accepted ++ later := by
  induction calls generalizing c with
  | nil => exact ⟨[], (List.append_nil _).symm⟩
  | cons call calls ih =>
      obtain ⟨later, hlater⟩ := ih (c.publish services call)
      exact ⟨_, by rw [run_cons, hlater, Catalogue.publish, List.append_assoc]⟩

/-- In every region, the row of the latest version names the greatest version that was stored since
the last unreleased one, and it moves backwards for an unreleased version only. -/
theorem latest_isGreatest (services : Services) (regions : List String)
    (calls : List (GenericCloudHandler × Publish))
    (hcalls : ∀ call ∈ calls, OrderlyCall regions call) :
    ∀ region ∈ regions, ∀ artifact : Artifact,
      let state := run (Catalogue.publish services) .empty
      LatestIsGreatest ((state calls).versionsOf artifact)
        (latestVersion ((state calls).registry region) artifact) ∧
      ∀ before after, calls = before ++ after → ∃ later,
        (state calls).versionsOf artifact = (state before).versionsOf artifact ++ later ∧
        ((∀ version ∈ later, isUnreleased version = false) → ∀ old new,
          latestVersion ((state before).registry region) artifact = some old →
          latestVersion ((state calls).registry region) artifact = some new → NotAfter old new) := by
  intro region hregion artifact state
  have hinv : LatestInvariant regions (state calls) := latestInvariant_run hcalls
  have hlatest := hinv.latest region hregion _ artifact.head?_latestKey
  refine ⟨⟨hlatest, hinv.ascends _⟩, ?_⟩
  rintro before after rfl
  have hbefore : LatestInvariant regions (state before) :=
    latestInvariant_run fun call hcall => hcalls call (List.mem_append_left _ hcall)
  obtain ⟨later, hlater⟩ := accepted_run services (state before) after
  rw [← run_append] at hlater
  have hversions : (state (before ++ after)).versionsOf artifact =
      (state before).versionsOf artifact ++ versionsAt artifact.latestKey later := by
    simp only [Catalogue.versionsOf, versionsAt]
    rw [show (state (before ++ after)).accepted = (state before).accepted ++ later from hlater,
      List.filter_append, List.map_append]
  refine ⟨_, hversions, fun hreleased old new hold hnew => ?_⟩
  have hold : ((state before).versionsOf artifact).getLast? = some old :=
    (hbefore.latest region hregion _ artifact.head?_latestKey).symm.trans hold
  obtain ⟨earlier, hearlier⟩ := List.getLast?_eq_some_iff.1 hold
  rw [hearlier, List.append_assoc] at hversions
  exact hinv.ascends artifact.latestKey earlier old _ hversions
    (fun version hversion => by simp [hreleased version hversion]) new (hlatest.symm.trans hnew)

/-- The latest version is not before any that was ever stored. -/
def NamesGreatest (accepted : List String) (latest : Option String) : Prop :=
  ∀ v, latest = some v → ∀ w ∈ accepted, NotAfter w v

/-- A pipeline publishes `0.0.0-dev` after `1.0.0-dev`. -/
def pipelineRun : Catalogue :=
  localRun [.serverModule (webModule "dev" "1.0.0-dev") "YQ==",
    .serverModule (webModule "dev" "0.0.0-dev") "YQ=="]

theorem not_namesGreatest_pipelineRun :
    ¬ NamesGreatest (pipelineRun.versionsOf (.module "web" "dev"))
      (latestVersion (pipelineRun.registry "eu-central-1") (.module "web" "dev")) := by
  intro h
  have hlatest : latestVersion (pipelineRun.registry "eu-central-1") (.module "web" "dev") =
      some "0.0.0-dev" := by decide +kernel
  have haccepted : "1.0.0-dev" ∈ pipelineRun.versionsOf (.module "web" "dev") := by decide +kernel
  obtain ⟨v, w, hv, hw, hle⟩ := h _ hlatest _ haccepted
  have hgt : (Semver.parse "1.0.0-dev").bind (fun v => (Semver.parse "0.0.0-dev").map fun w =>
      (Semver.precedence v w).isLE) = some false := by decide +kernel
  simp [hv, hw, hle] at hgt

/-- The same publishes, one after the other, keep to the rule of `latest_isGreatest`. -/
theorem latest_isGreatest_pipeline :
    LatestIsGreatest (pipelineRun.versionsOf (.module "web" "dev"))
      (latestVersion (pipelineRun.registry "eu-central-1") (.module "web" "dev")) :=
  (latest_isGreatest localServices ["eu-central-1"]
    [(localHandler, .serverModule (webModule "dev" "1.0.0-dev") "YQ=="),
      (localHandler, .serverModule (webModule "dev" "0.0.0-dev") "YQ==")]
    (by
      intro call hcall
      rcases List.mem_pair.1 hcall with rfl | rfl
      · exact ⟨rfl, by decide, rfl⟩
      · exact ⟨rfl, by decide, rfl⟩)
    "eu-central-1" (by decide) (.module "web" "dev")).1

end EnvCommon
end InfraWeave
