import InfraWeave.EnvCommon.Registry
import InfraWeave.Lib.Fallible

/-!
# Checks before a publish

The track of a version, and the comparison with the latest version that is stored.
-/

namespace InfraWeave
namespace EnvCommon

open Semver

/-- The errors of the publish paths; `other` is an `anyhow` error or the end of the process. -/
inductive ModuleError where
  | moduleVersionExists (version message : String)
  | invalidTrack (track : String)
  | invalidTrackPrereleaseVersion (track pre : String)
  | invalidStableVersion
  | uploadModuleError (message : String)
  | validationError (message : String)
  | moduleVersionMissing (name : String)
  | noProvidersDefined (name : String)
  | noRequiredProvidersDefined (name : String)
  | invalidVariableNaming (message : String)
  | invalidOutputNaming (message : String)
  | invalidExampleVariable (message : String)
  | duplicateClaimNames (name : String)
  | moduleVersionNotSet (claim : String)
  | stackModuleNamespaceIsSet (claim : String)
  | selfReferencingClaim (kind claim field : String)
  | stackClaimReferenceNotFound (claim refKind refClaim field : String)
  | circularDependency (claims : List String)
  | outputKeyNotFound (sourceClaim variableName value field claim : String)
  | invalidReference (reference expected : String)
  | unresolvedReference (reference searchKey : String)
  | other (message : String)
  deriving DecidableEq

inductive ModuleType where
  | module
  | stack
  deriving DecidableEq

/-- `version.starts_with("0.0.0")`: the versions of pipelines under test. -/
def isUnreleased (version : String) : Bool :=
  "0.0.0".toList.isPrefixOf version.toList

def preText (v : Version) : String :=
  .ofList v.pre.val

def ensureTrackMatchesVersion (services : Services) (track version : String) :
    Except ModuleError Unit := do
  let manifestVersion ← (services.parsed parse version).mapError .other
  if preText manifestVersion = track then
    if track ∈ ["dev", "alpha", "beta", "rc"] then .ok ()
    else if track = "stable" then .error .invalidStableVersion
    else .error (.invalidTrack track)
  else if preText manifestVersion = "" ∧ track = "stable" then .ok ()
  else .error (.invalidTrackPrereleaseVersion track (preText manifestVersion))

/-- The two `compare_latest_version`: that of modules and stacks names the track in its messages,
that of providers has no track. -/
def compareWithLatest {α : Type} (services : Services) (entity place version : String)
    (fetch : Except String (Option α)) (versionOf : α → String) : Except String (Option α) :=
  if isUnreleased version then .ok none
  else
    match fetch with
    | .error e => .error ("An error occurred: " ++ e)
    | .ok none => .ok none
    | .ok (some latest) => do
        let manifestVersion ← services.parsed parse version
        let latestVersion ← services.parsed parse (versionOf latest)
        let manifestVersionNoBuild ← services.parsed semverParseWithoutBuild version
        let latestVersionNoBuild ← services.parsed semverParseWithoutBuild (versionOf latest)
        match Semver.compare manifestVersionNoBuild latestVersionNoBuild with
        | .eq =>
            if manifestVersion.build = latestVersion.build then
              .error (entity ++ " version " ++ manifestVersion.toString ++ " already exists" ++ place)
            else .ok (some latest)
        | .lt =>
            .error (entity ++ " version " ++ manifestVersion.toString ++
              " is older than the latest version " ++ latestVersion.toString ++ place)
        | .gt => .ok (some latest)

def compareLatestVersion (services : Services) (s : RegionStore) (module version track : String)
    (moduleType : ModuleType) : Except String (Option ModuleResp) :=
  match moduleType with
  | .module => compareWithLatest services "Module" (" in track " ++ track) version
      (services.getLatestModuleVersion s module track) ModuleResp.version
  | .stack => compareWithLatest services "Stack" (" in track " ++ track) version
      (services.getLatestStackVersion s module track) ModuleResp.version

def compareLatestProviderVersion (services : Services) (s : RegionStore)
    (provider version : String) : Except String (Option ProviderResp) :=
  compareWithLatest services "Provider" "" version
    (services.getLatestProviderVersion s provider) ProviderResp.version

/-! ## What the checks ensure -/

/-- The first version does not come after the second; build metadata does not count. -/
def NotAfter (version version' : String) : Prop :=
  ∃ v w, parse version = some v ∧ parse version' = some w ∧ (precedence v w).isLE = true

theorem NotAfter.trans {a b c : String} (hab : NotAfter a b) (hbc : NotAfter b c) :
    NotAfter a c := by
  obtain ⟨u, v, hu, hv, huv⟩ := hab
  obtain ⟨v', w, hv', hw, hvw⟩ := hbc
  obtain rfl : v = v' := Option.some.inj (hv.symm.trans hv')
  exact ⟨u, w, hu, hw, Std.TransCmp.isLE_trans huv hvw⟩

instance : IsTrans String NotAfter :=
  ⟨fun _ _ _ => NotAfter.trans⟩

theorem NotAfter.refl {a : String} {v : Version} (h : parse a = some v) : NotAfter a a := by
  refine ⟨v, v, h, h, ?_⟩
  rw [precedence_self]
  rfl

theorem parsed_eq_ok {α : Type} {services : Services} {f : String → Option α} {version : String}
    {v : α} (h : services.parsed f version = .ok v) : f version = some v := by
  unfold Services.parsed at h
  split at h
  · rename_i heq
    rw [heq, Except.ok.inj h]
  · cases h

/-- A version that passes the comparison is unreleased, the first one, or not before the latest
one; and it is not the latest one. -/
theorem compareWithLatest_ok {α : Type} {services : Services} {entity place version : String}
    {fetch : Except String (Option α)} {versionOf : α → String} {found : Option α}
    (h : compareWithLatest services entity place version fetch versionOf = .ok found) :
    isUnreleased version = true ∨ fetch = .ok none ∨
      ∃ latest, fetch = .ok (some latest) ∧ NotAfter (versionOf latest) version ∧
        versionOf latest ≠ version := by
  unfold compareWithLatest at h
  split at h
  · rename_i hunreleased
    exact Or.inl hunreleased
  · refine Or.inr ?_
    split at h
    · cases h
    · exact Or.inl rfl
    · rename_i latest
      refine Or.inr ⟨latest, rfl, ?_⟩
      obtain ⟨v, hv, h⟩ := bind_eq_ok_iff.1 h
      obtain ⟨w, hw, h⟩ := bind_eq_ok_iff.1 h
      obtain ⟨v', hv', h⟩ := bind_eq_ok_iff.1 h
      obtain ⟨w', hw', h⟩ := bind_eq_ok_iff.1 h
      have hv := parsed_eq_ok hv
      have hw := parsed_eq_ok hw
      obtain rfl : v.stripBuildMetadata = v' := by
        simpa [semverParseWithoutBuild, hv] using parsed_eq_ok hv'
      obtain rfl : w.stripBuildMetadata = w' := by
        simpa [semverParseWithoutBuild, hw] using parsed_eq_ok hw'
      have horder : (precedence w v).isLE = true ∧ versionOf latest ≠ version := by
        rw [compare_stripBuildMetadata] at h
        cases hcompare : precedence v w with
        | lt => simp [hcompare] at h
        | eq =>
            simp only [hcompare] at h
            refine ⟨isLE_precedence_swap (by simp [hcompare]), ?_⟩
            intro heq
            obtain rfl : w = v := Option.some.inj (hw.symm.trans (heq ▸ hv))
            simp at h
        | gt =>
            refine ⟨isLE_precedence_swap (by simp [hcompare]), ?_⟩
            intro heq
            obtain rfl : w = v := Option.some.inj (hw.symm.trans (heq ▸ hv))
            rw [precedence_self] at hcompare
            cases hcompare
      exact ⟨⟨w, v, hw, hv, horder.1⟩, horder.2⟩

theorem getVersionTrack_of_ensureTrackMatchesVersion {services : Services} {track version : String}
    (h : ensureTrackMatchesVersion services track version = .ok ()) :
    getVersionTrack version = some track := by
  obtain ⟨v, hv, h⟩ := bind_eq_ok_iff.1 h
  have hparse : parse version = some v := by
    cases hparsed : services.parsed parse version with
    | ok w =>
        rw [hparsed] at hv
        rw [parsed_eq_ok hparsed, ← Except.ok.inj hv]
    | error e =>
        rw [hparsed] at hv
        cases hv
  rw [getVersionTrack, hparse, Option.map_some]
  have htext : v.pre.val = [] ↔ preText v = "" := by
    unfold preText
    rw [← String.ofList_nil]
    exact ⟨congrArg _, fun h => String.ofList_injective h⟩
  split at h
  · rename_i hpre
    split at h
    · rename_i htrack
      have hne : v.pre.val ≠ [] := by
        intro hnil
        rw [← hpre, htext.1 hnil] at htrack
        exact absurd htrack (by decide)
      rw [if_neg hne]
      exact congrArg some hpre
    · split at h <;> cases h
  · split at h
    · rename_i hstable
      rw [if_pos (htext.2 hstable.1), hstable.2]
    · cases h

end EnvCommon
end InfraWeave
