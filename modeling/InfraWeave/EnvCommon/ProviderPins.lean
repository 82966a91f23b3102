import InfraWeave.Defs.Module
import InfraWeave.EnvCommon.Catalogue
import InfraWeave.Lib.Fallible
import InfraWeave.Lib.Greatest
import InfraWeave.Lib.Semver
import InfraWeave.Lib.Text
import Mathlib.Data.List.Dedup

/-!
# The providers of a stack

`generate_terraform_block` pins the providers of the modules of a stack: for each source that a
module locks, the latest locked version, under the name that a module requires the source by.  The
modules come in the order in which a hash map iterates.
-/

namespace InfraWeave
namespace EnvCommon

open InsertionOrder Greatest

/-- The order in which a hash map lists its values. -/
structure Listing where
  list : List TfLockProvider → List TfLockProvider
  perm : ∀ locks, (list locks).Perm locks

section

-- The modules of the claims, by the names of the claims.
variable (modules : List (String × ModuleResp))

def lockProviders : List TfLockProvider :=
  modules.flatMap fun m => m.2.tfLockProviders

def requiredProviders : List TfRequiredProvider :=
  modules.flatMap fun m => m.2.tfRequiredProviders

def lockedVersion (p : TfLockProvider) : Option Semver.Version :=
  Semver.parse p.version

/-- Versions are parsed when two locks of one source meet; none if one cannot be parsed. -/
def latestLocks : Option (List (String × TfLockProvider)) :=
  tryCollect (keepGreater lockedVersion Semver.compare)
    ((lockProviders modules).map fun p => (p.source, p))

/-- Of two names for one source the later one stays. -/
def nameMap : List (String × String) :=
  (requiredProviders modules).foldl (fun m rp => upsert rp.source rp.name (fun _ => rp.name) m) []

def requiredProvider (names : List (String × String)) (p : TfLockProvider) :
    Except String TfRequiredProvider :=
  match names.lookup p.source with
  | some name => .ok ⟨name, p.version, p.source⟩
  | none => .error "missing provider name"

/-- `indent`, which is given two spaces for a level. -/
def indent (s : String) (level : Nat) : String :=
  let start := String.ofList (List.replicate (2 * level) ' ')
  "\n".intercalate ((Text.lines s).map (start ++ ·))

def providerText (p : TfRequiredProvider) : String :=
  "\n  " ++ p.name ++ " = \x7b\n    source = \"" ++ p.source ++ "\"\n    version = \"" ++ p.version ++
    "\"\n  \x7d"

def terraformBlock (providers : List TfRequiredProvider) : String :=
  "\nterraform \x7b\n  required_providers \x7b" ++
    indent (providers.foldl (fun acc p => acc ++ providerText p) "") 2 ++ "\n  \x7d\n\x7d\n"

/-- The block and the providers, or the message of a panic. -/
def generateTerraformBlock (listing : Listing) :
    Except String (String × List TfRequiredProvider) :=
  match latestLocks modules with
  | none => .error "called `Result::unwrap()` on an `Err` value"
  | some locks => do
      let providers ← (listing.list (locks.map Prod.snd)).mapM (requiredProvider (nameMap modules))
      .ok (terraformBlock providers, providers)

/-! ## Pins -/

/-- What the modules lock for a source. -/
def locksOf (source : String) : List TfLockProvider :=
  (lockProviders modules).filter (·.source = source)

/-- One provider for each locked source: its latest version, under a name that a module has for the
source and that no other source has. -/
structure Pins (providers : List TfRequiredProvider) : Prop where
  source : (providers.map TfRequiredProvider.source).Perm
    ((lockProviders modules).map TfLockProvider.source).dedup
  version : ∀ p ∈ providers,
    IsGreatest lockedVersion Semver.compare ⟨p.source, p.version⟩ (locksOf modules p.source)
  declared : ∀ p ∈ providers, ∃ rp ∈ requiredProviders modules,
    rp.source = p.source ∧ rp.name = p.name
  apart : (providers.map TfRequiredProvider.name).Nodup

/-- In every order of the modules the same providers are pinned. -/
def Pinned : Prop :=
  ∃ pinned, Pins modules pinned ∧
    ∀ (listing : Listing) (modules' : List (String × ModuleResp)), modules'.Perm modules →
      ∃ block providers, generateTerraformBlock modules' listing = .ok (block, providers) ∧
        providers.Perm pinned

/-! ## Consistent modules -/

/-- The name that a module requires a source by, the last one where it has several. -/
def localName (m : ModuleResp) (source : String) : Option String :=
  ((m.tfRequiredProviders.filter (·.source = source)).getLast?).map TfRequiredProvider.name

/-- The modules have readable versions where they lock a source more than once, and names for the
locked sources, on which they agree. -/
structure Consistent : Prop where
  readable : ∀ source, 2 ≤ (locksOf modules source).length →
    ∀ p ∈ locksOf modules source, (lockedVersion p).isSome = true
  named : ∀ p ∈ lockProviders modules, ∃ m ∈ modules, (localName m.2 p.source).isSome = true
  agree : ∀ p ∈ lockProviders modules, ∀ m ∈ modules, ∀ m' ∈ modules, ∀ name name',
    localName m.2 p.source = some name → localName m'.2 p.source = some name' → name = name'
  apart : ∀ p ∈ lockProviders modules, ∀ q ∈ lockProviders modules, ∀ m ∈ modules, ∀ m' ∈ modules,
    ∀ name, localName m.2 p.source = some name → localName m'.2 q.source = some name →
      p.source = q.source

end

/-! ## The latest locks -/

variable {modules modules' : List (String × ModuleResp)} {source : String}

theorem mem_locksOf_iff {p : TfLockProvider} :
    p ∈ locksOf modules source ↔ p ∈ lockProviders modules ∧ p.source = source := by
  simp [locksOf, List.mem_filter]

theorem valuesOf_locks (modules : List (String × ModuleResp)) (source : String) :
    valuesOf ((lockProviders modules).map fun p => (p.source, p)) source =
      locksOf modules source := by
  simp [valuesOf, locksOf, List.filter_map, Function.comp_def]

/-- Two locks of one source and one version are the same. -/
theorem lock_eq_of_version {p q : TfLockProvider} (hp : p ∈ locksOf modules source)
    (hq : q ∈ locksOf modules source) {v : Semver.Version} (hpv : lockedVersion p = some v)
    (hqv : lockedVersion q = some v) : p = q := by
  have hversion : p.version = q.version := Semver.parse_inj hpv hqv
  have hsource : p.source = q.source :=
    (mem_locksOf_iff.1 hp).2.trans (mem_locksOf_iff.1 hq).2.symm
  cases p
  cases q
  simp_all

theorem isGreatest_unique {p q : TfLockProvider}
    (hp : IsGreatest lockedVersion Semver.compare p (locksOf modules source))
    (hq : IsGreatest lockedVersion Semver.compare q (locksOf modules source)) : p = q :=
  hp.unique hq fun _ hx _ hy _ hxv hyv => lock_eq_of_version hx hy hxv hyv

theorem lookup_latestLocks {locks : List (String × TfLockProvider)}
    (h : latestLocks modules = some locks) (source : String) :
    combine (keepGreater lockedVersion Semver.compare) (locksOf modules source) =
      some (locks.lookup source) := by
  rw [← valuesOf_locks]
  exact lookup_tryCollect h source

theorem mem_latestLocks_iff {locks : List (String × TfLockProvider)}
    (h : latestLocks modules = some locks) {p : TfLockProvider} :
    (source, p) ∈ locks ↔
      IsGreatest lockedVersion Semver.compare p (locksOf modules source) := by
  have hlookup := lookup_latestLocks h source
  have hkeys : (OrderedMap.keys locks).Nodup := nodup_keys_tryCollect h
  constructor
  · intro hmem
    rw [OrderedMap.lookup_of_mem hkeys hmem] at hlookup
    exact isGreatest_of_combine hlookup
  · intro hgreatest
    cases hfound : locks.lookup source with
    | none =>
        rw [hfound] at hlookup
        have hempty := combine_eq_some_none_iff.1 hlookup
        exact absurd (hempty ▸ hgreatest.mem) List.not_mem_nil
    | some q =>
        rw [hfound] at hlookup
        rcases isGreatest_unique hgreatest (isGreatest_of_combine hlookup) with rfl
        exact OrderedMap.mem_of_lookup hfound

theorem source_of_mem_latestLocks {locks : List (String × TfLockProvider)}
    (h : latestLocks modules = some locks) {entry : String × TfLockProvider}
    (hentry : entry ∈ locks) : entry.2.source = entry.1 :=
  (mem_locksOf_iff.1 ((mem_latestLocks_iff h).1 hentry).mem).2

theorem exists_latestLocks_iff : (∃ locks, latestLocks modules = some locks) ↔
    ∀ source, 2 ≤ (locksOf modules source).length →
      ∀ p ∈ locksOf modules source, (lockedVersion p).isSome = true := by
  constructor
  · rintro ⟨locks, h⟩ source hlength p hp
    have hlookup := lookup_latestLocks h source
    refine Option.isSome_iff_ne_none.2 fun hnone => ?_
    rw [combine_keepGreater_eq_none_iff.2 ⟨hlength, p, hp, hnone⟩] at hlookup
    cases hlookup
  · intro h
    cases hlocks : latestLocks modules with
    | some locks => exact ⟨locks, rfl⟩
    | none =>
        rcases exists_of_tryCollect_eq_none hlocks with ⟨source, hsource⟩
        rw [valuesOf_locks] at hsource
        rcases combine_keepGreater_eq_none_iff.1 hsource with ⟨hlength, p, hp, hnone⟩
        have hsome := h source hlength p hp
        rw [hnone] at hsome
        cases hsome

/-! ## The names -/

theorem lookup_foldl_upsert (rps : List TfRequiredProvider) (source : String) :
    (rps.foldl (fun m rp => upsert rp.source rp.name (fun _ => rp.name) m) []).lookup source =
      ((rps.filter (·.source = source)).getLast?).map TfRequiredProvider.name := by
  induction rps using List.reverseRecOn with
  | nil => rfl
  | append_singleton rps rp ih =>
      have hnew : ∀ o : Option String, (o.map fun _ => rp.name).getD rp.name = rp.name := by
        intro o
        cases o <;> rfl
      rw [List.foldl_append, List.foldl_cons, List.foldl_nil, lookup_upsert, hnew,
        List.filter_append, List.getLast?_append]
      by_cases h : source = rp.source
      · simp [h]
      · simp [h, Ne.symm h, ih]

/-- The last module that has a name for a source decides. -/
theorem lookup_nameMap_append (modules : List (String × ModuleResp)) (m : String × ModuleResp)
    (source : String) : (nameMap (modules ++ [m])).lookup source =
      (localName m.2 source).or ((nameMap modules).lookup source) := by
  simp only [nameMap, lookup_foldl_upsert, requiredProviders, List.flatMap_append,
    List.flatMap_cons, List.flatMap_nil, List.append_nil, List.filter_append, List.getLast?_append,
    localName, Option.map_or]

theorem exists_localName_of_lookup {name : String}
    (h : (nameMap modules).lookup source = some name) :
    ∃ m ∈ modules, localName m.2 source = some name := by
  induction modules using List.reverseRecOn with
  | nil => cases h
  | append_singleton modules m ih =>
      rw [lookup_nameMap_append, Option.or_eq_some_iff] at h
      rcases h with h | ⟨-, h⟩
      · exact ⟨m, List.mem_append_right _ List.mem_cons_self, h⟩
      · rcases ih h with ⟨m', hm', hname⟩
        exact ⟨m', List.mem_append_left _ hm', hname⟩

theorem lookup_nameMap_isSome_iff : ((nameMap modules).lookup source).isSome = true ↔
    ∃ m ∈ modules, (localName m.2 source).isSome = true := by
  induction modules using List.reverseRecOn with
  | nil => simp [nameMap, requiredProviders]
  | append_singleton modules m ih =>
      rw [lookup_nameMap_append, Option.isSome_or, Bool.or_eq_true, ih]
      simp [or_comm]

/-! ## The result -/

section

variable {listing : Listing} {block : String} {providers : List TfRequiredProvider}

theorem requiredProvider_eq_ok_iff {names : List (String × String)} {p : TfLockProvider}
    {rp : TfRequiredProvider} : requiredProvider names p = .ok rp ↔
      names.lookup rp.source = some rp.name ∧ p = ⟨rp.source, rp.version⟩ := by
  unfold requiredProvider
  rcases p with ⟨source, version⟩
  rcases rp with ⟨name, version', source'⟩
  cases hname : names.lookup source with
  | none =>
      simp only [reduceCtorEq, false_iff, not_and]
      rintro hlookup ⟨rfl, -⟩
      simp [hname] at hlookup
  | some found =>
      simp only [Except.ok.injEq, TfRequiredProvider.mk.injEq, TfLockProvider.mk.injEq]
      constructor
      · rintro ⟨rfl, rfl, rfl⟩
        exact ⟨hname, rfl, rfl⟩
      · rintro ⟨hlookup, rfl, rfl⟩
        exact ⟨Option.some.inj (hname.symm.trans hlookup), rfl, rfl⟩

theorem generateTerraformBlock_eq_ok_iff :
    generateTerraformBlock modules listing = .ok (block, providers) ↔
      ∃ locks, latestLocks modules = some locks ∧
        (listing.list (locks.map Prod.snd)).map (requiredProvider (nameMap modules)) =
          providers.map .ok ∧ terraformBlock providers = block := by
  unfold generateTerraformBlock
  cases latestLocks modules with
  | none => simp
  | some locks =>
      simp only [bind_eq_ok_iff, mapM_eq_ok_iff, Except.ok.injEq, Prod.mk.injEq,
        Option.some.injEq, exists_eq_left']
      constructor
      · rintro ⟨found, hfound, hblock, rfl⟩
        exact ⟨hfound, hblock⟩
      · rintro ⟨hfound, hblock⟩
        exact ⟨providers, hfound, hblock, rfl⟩

/-- What is pinned: the latest version of a source, under the name that the map has for it. -/
theorem mem_providers_iff
    (h : generateTerraformBlock modules listing = .ok (block, providers))
    {rp : TfRequiredProvider} : rp ∈ providers ↔
      IsGreatest lockedVersion Semver.compare ⟨rp.source, rp.version⟩
          (locksOf modules rp.source) ∧
        (nameMap modules).lookup rp.source = some rp.name := by
  rcases generateTerraformBlock_eq_ok_iff.1 h with ⟨locks, hlocks, hmap, -⟩
  have hinjective : Function.Injective (Except.ok : TfRequiredProvider → Except String _) :=
    fun _ _ heq => Except.ok.inj heq
  rw [← List.mem_map_of_injective hinjective, ← hmap, ← mem_latestLocks_iff hlocks]
  simp only [List.mem_map, (listing.perm _).mem_iff, requiredProvider_eq_ok_iff]
  constructor
  · rintro ⟨p, ⟨entry, hentry, rfl⟩, hname, hp⟩
    have hsource := source_of_mem_latestLocks hlocks hentry
    have hkey : entry.1 = rp.source := by rw [← hsource, hp]
    refine ⟨?_, hname⟩
    rw [← hp, ← hkey]
    exact hentry
  · rintro ⟨hentry, hname⟩
    exact ⟨_, ⟨_, hentry, rfl⟩, hname, rfl⟩

theorem sources_of_map {names : List (String × String)} {ps : List TfLockProvider}
    {rps : List TfRequiredProvider} (h : ps.map (requiredProvider names) = rps.map .ok) :
    rps.map TfRequiredProvider.source = ps.map TfLockProvider.source := by
  induction ps generalizing rps with
  | nil =>
      rcases List.map_eq_nil_iff.1 h.symm with rfl
      rfl
  | cons p ps ih =>
      cases rps with
      | nil => cases h
      | cons rp rps =>
          rcases List.cons.inj h with ⟨hfirst, hrest⟩
          have hp := (requiredProvider_eq_ok_iff.1 hfirst).2
          rw [List.map_cons, List.map_cons, ih hrest, hp]

/-- There is one provider for each locked source. -/
theorem sources_perm
    (h : generateTerraformBlock modules listing = .ok (block, providers)) :
    (providers.map TfRequiredProvider.source).Perm
      ((lockProviders modules).map TfLockProvider.source).dedup := by
  rcases generateTerraformBlock_eq_ok_iff.1 h with ⟨locks, hlocks, hmap, -⟩
  have hkeys : (OrderedMap.keys locks).Nodup := nodup_keys_tryCollect hlocks
  have hsources : (locks.map Prod.snd).map TfLockProvider.source = OrderedMap.keys locks := by
    rw [List.map_map]
    exact List.map_congr_left fun entry hentry => source_of_mem_latestLocks hlocks hentry
  have hsame : (OrderedMap.keys locks).Perm
      ((lockProviders modules).map TfLockProvider.source).dedup := by
    refine (List.perm_ext_iff_of_nodup hkeys (List.nodup_dedup _)).2 fun source => ?_
    rw [List.mem_dedup, OrderedMap.mem_keys_iff]
    constructor
    · rintro ⟨p, hp⟩
      have hmem := ((mem_latestLocks_iff hlocks).1 (OrderedMap.mem_of_lookup hp)).mem
      exact List.mem_map.2 ⟨p, mem_locksOf_iff.1 hmem⟩
    · intro hsource
      rcases List.mem_map.1 hsource with ⟨p, hp, hpsource⟩
      refine Option.ne_none_iff_exists'.1 fun hnone => ?_
      have hlookup := lookup_latestLocks hlocks source
      rw [hnone] at hlookup
      have hempty := combine_eq_some_none_iff.1 hlookup
      exact absurd (hempty ▸ mem_locksOf_iff.2 ⟨hp, hpsource⟩) List.not_mem_nil
  have hlisted := (listing.perm (locks.map Prod.snd)).map TfLockProvider.source
  rw [sources_of_map hmap]
  rw [hsources] at hlisted
  exact hlisted.trans hsame

/-- No panic: the versions can be compared, and each locked source has a name. -/
theorem exists_generateTerraformBlock_iff :
    (∃ block providers, generateTerraformBlock modules listing = .ok (block, providers)) ↔
      (∀ source, 2 ≤ (locksOf modules source).length →
        ∀ p ∈ locksOf modules source, (lockedVersion p).isSome = true) ∧
      ∀ p ∈ lockProviders modules, ∃ m ∈ modules, (localName m.2 p.source).isSome = true := by
  rw [← exists_latestLocks_iff]
  constructor
  · rintro ⟨block, providers, h⟩
    rcases generateTerraformBlock_eq_ok_iff.1 h with ⟨locks, hlocks, -⟩
    refine ⟨⟨locks, hlocks⟩, fun p hp => ?_⟩
    have hsource : p.source ∈ providers.map TfRequiredProvider.source :=
      (sources_perm h).mem_iff.2 (List.mem_dedup.2 (List.mem_map_of_mem hp))
    rcases List.mem_map.1 hsource with ⟨rp, hrp, hsame⟩
    rw [← lookup_nameMap_isSome_iff, ← hsame, ((mem_providers_iff h).1 hrp).2]
    rfl
  · rintro ⟨⟨locks, hlocks⟩, hnamed⟩
    have hall : ∀ p ∈ listing.list (locks.map Prod.snd),
        ∃ rp, requiredProvider (nameMap modules) p = .ok rp := by
      intro p hp
      rcases List.mem_map.1 ((listing.perm _).mem_iff.1 hp) with ⟨entry, hentry, rfl⟩
      have hgreatest := (mem_latestLocks_iff hlocks).1 hentry
      have hlocked := (mem_locksOf_iff.1 hgreatest.mem).1
      have hsome := lookup_nameMap_isSome_iff.2 (hnamed entry.2 hlocked)
      rcases Option.isSome_iff_exists.1 hsome with ⟨name, hname⟩
      exact ⟨⟨name, entry.2.version, entry.2.source⟩, requiredProvider_eq_ok_iff.2 ⟨hname, rfl⟩⟩
    rcases exists_mapM_iff.2 hall with ⟨providers, hproviders⟩
    exact ⟨_, providers, generateTerraformBlock_eq_ok_iff.2
      ⟨locks, hlocks, mapM_eq_ok_iff.1 hproviders, rfl⟩⟩

end

/-! ## Other orders of the modules -/

section

variable (hperm : modules'.Perm modules)
include hperm

theorem locksOf_perm (source : String) : (locksOf modules' source).Perm (locksOf modules source) :=
  (hperm.flatMap_right _).filter _

theorem lockProviders_perm : (lockProviders modules').Perm (lockProviders modules) :=
  hperm.flatMap_right _

/-- Whether the modules are consistent is no matter of their order. -/
theorem Consistent.perm (h : Consistent modules) : Consistent modules' where
  readable source hlength p hp :=
    h.readable source ((locksOf_perm hperm source).length_eq ▸ hlength) p
      ((locksOf_perm hperm source).mem_iff.1 hp)
  named p hp := by
    rcases h.named p ((lockProviders_perm hperm).mem_iff.1 hp) with ⟨m, hm, hname⟩
    exact ⟨m, hperm.mem_iff.2 hm, hname⟩
  agree p hp m hm m' hm' :=
    h.agree p ((lockProviders_perm hperm).mem_iff.1 hp) m (hperm.mem_iff.1 hm) m'
      (hperm.mem_iff.1 hm')
  apart p hp q hq m hm m' hm' :=
    h.apart p ((lockProviders_perm hperm).mem_iff.1 hp) q ((lockProviders_perm hperm).mem_iff.1 hq)
      m (hperm.mem_iff.1 hm) m' (hperm.mem_iff.1 hm')

end

section

variable {listing listing' : Listing} {block block' : String}
  {providers providers' : List TfRequiredProvider}

theorem nodup_sources (h : generateTerraformBlock modules listing = .ok (block, providers)) :
    (providers.map TfRequiredProvider.source).Nodup :=
  (sources_perm h).nodup_iff.2 (List.nodup_dedup _)

theorem source_mem_lockProviders
    (h : generateTerraformBlock modules listing = .ok (block, providers))
    {rp : TfRequiredProvider} (hrp : rp ∈ providers) :
    ⟨rp.source, rp.version⟩ ∈ lockProviders modules :=
  (mem_locksOf_iff.1 ((mem_providers_iff h).1 hrp).1.mem).1

/-- With consistent modules the name of a source is the one that any module has for it. -/
theorem Consistent.lookup_nameMap_iff (h : Consistent modules) {p : TfLockProvider}
    (hp : p ∈ lockProviders modules) {name : String} :
    (nameMap modules).lookup p.source = some name ↔
      ∃ m ∈ modules, localName m.2 p.source = some name := by
  refine ⟨exists_localName_of_lookup, fun ⟨m, hm, hname⟩ => ?_⟩
  have hsome := lookup_nameMap_isSome_iff.2 ⟨m, hm, Option.isSome_iff_exists.2 ⟨name, hname⟩⟩
  rcases Option.isSome_iff_exists.1 hsome with ⟨found, hfound⟩
  rcases exists_localName_of_lookup hfound with ⟨m', hm', hname'⟩
  rw [hfound, h.agree p hp m' hm' m hm found name hname' hname]

theorem Consistent.providers_perm (h : Consistent modules) (hperm : modules'.Perm modules)
    (hok : generateTerraformBlock modules listing = .ok (block, providers))
    (hok' : generateTerraformBlock modules' listing' = .ok (block', providers')) :
    providers'.Perm providers := by
  refine (List.perm_ext_iff_of_nodup (List.Nodup.of_map _ (nodup_sources hok'))
    (List.Nodup.of_map _ (nodup_sources hok))).2 fun rp => ?_
  rw [mem_providers_iff hok', mem_providers_iff hok]
  have hlocks : ∀ x, x ∈ locksOf modules' rp.source ↔ x ∈ locksOf modules rp.source :=
    fun x => (locksOf_perm hperm rp.source).mem_iff
  constructor
  · rintro ⟨hgreatest, hname⟩
    have hgreatest' := hgreatest.congr fun x => (hlocks x).symm
    refine ⟨hgreatest', ?_⟩
    rcases exists_localName_of_lookup hname with ⟨m, hm, hm'⟩
    exact (h.lookup_nameMap_iff (mem_locksOf_iff.1 hgreatest'.mem).1).2
      ⟨m, hperm.mem_iff.1 hm, hm'⟩
  · rintro ⟨hgreatest, hname⟩
    have hgreatest' := hgreatest.congr hlocks
    refine ⟨hgreatest', ?_⟩
    rcases exists_localName_of_lookup hname with ⟨m, hm, hm'⟩
    exact ((h.perm hperm).lookup_nameMap_iff (mem_locksOf_iff.1 hgreatest'.mem).1).2
      ⟨m, hperm.mem_iff.2 hm, hm'⟩

theorem exists_required_of_localName {m : String × ModuleResp} (hm : m ∈ modules)
    {name : String} (h : localName m.2 source = some name) :
    ∃ rp ∈ requiredProviders modules, rp.source = source ∧ rp.name = name := by
  rcases Option.map_eq_some_iff.1 h with ⟨rp, hlast, hname⟩
  rcases List.mem_filter.1 (List.mem_of_getLast? hlast) with ⟨hmem, hsource⟩
  exact ⟨rp, List.mem_flatMap.2 ⟨m, hm, hmem⟩, of_decide_eq_true hsource, hname⟩

theorem Consistent.pins (h : Consistent modules)
    (hok : generateTerraformBlock modules listing = .ok (block, providers)) :
    Pins modules providers where
  source := sources_perm hok
  version rp hrp := ((mem_providers_iff hok).1 hrp).1
  declared rp hrp := by
    rcases exists_localName_of_lookup ((mem_providers_iff hok).1 hrp).2 with ⟨m, hm, hname⟩
    exact exists_required_of_localName hm hname
  apart := by
    refine List.Nodup.map_on (fun rp hrp rp' hrp' hsame => ?_)
      (List.Nodup.of_map _ (nodup_sources hok))
    rcases exists_localName_of_lookup ((mem_providers_iff hok).1 hrp).2 with ⟨m, hm, hname⟩
    rcases exists_localName_of_lookup ((mem_providers_iff hok).1 hrp').2 with ⟨m', hm', hname'⟩
    have hsource : rp.source = rp'.source :=
      h.apart _ (source_mem_lockProviders hok hrp) _ (source_mem_lockProviders hok hrp') m hm m'
        hm' rp.name hname (hsame ▸ hname')
    exact List.inj_on_of_nodup_map (nodup_sources hok) hrp hrp' hsource

end

def idListing : Listing := ⟨id, List.Perm.refl⟩

theorem Consistent.pinned (h : Consistent modules) : Pinned modules := by
  have hdefined : ∃ block pinned, generateTerraformBlock modules idListing = .ok (block, pinned) :=
    exists_generateTerraformBlock_iff.2 ⟨h.readable, h.named⟩
  rcases hdefined with ⟨block, pinned, hpinned⟩
  refine ⟨pinned, h.pins hpinned, fun listing modules' hperm => ?_⟩
  have h' := h.perm hperm
  have hdefined' : ∃ block providers,
      generateTerraformBlock modules' listing = .ok (block, providers) :=
    exists_generateTerraformBlock_iff.2 ⟨h'.readable, h'.named⟩
  rcases hdefined' with ⟨block', providers, hproviders⟩
  exact ⟨block', providers, hproviders, h.providers_perm hperm hpinned hproviders⟩

/-! ## What is pinned in every order -/

/-- Any module can be the last one, whose names then count. -/
theorem exists_perm_last {m : String × ModuleResp} (hm : m ∈ modules) :
    ∃ others, (others ++ [m]).Perm modules := by
  rcases List.append_of_mem hm with ⟨before, after, rfl⟩
  refine ⟨before ++ after, ?_⟩
  rw [List.append_assoc]
  exact (List.perm_append_comm).append_left before

theorem Pinned.mem_of_localName {pinned : List TfRequiredProvider}
    (h : ∀ (listing : Listing) (modules' : List (String × ModuleResp)), modules'.Perm modules →
      ∃ block providers, generateTerraformBlock modules' listing = .ok (block, providers) ∧
        providers.Perm pinned)
    {p : TfLockProvider} (hp : p ∈ lockProviders modules) {m : String × ModuleResp}
    (hm : m ∈ modules) {name : String} (hname : localName m.2 p.source = some name) :
    ∃ rp ∈ pinned, rp.source = p.source ∧ rp.name = name := by
  rcases exists_perm_last hm with ⟨others, hperm⟩
  rcases h idListing _ hperm with ⟨block, providers, hok, hpinned⟩
  have hlocked := (lockProviders_perm hperm).mem_iff.2 hp
  have hsource : p.source ∈ providers.map TfRequiredProvider.source :=
    (sources_perm hok).mem_iff.2 (List.mem_dedup.2 (List.mem_map_of_mem hlocked))
  rcases List.mem_map.1 hsource with ⟨rp, hrp, hsame⟩
  refine ⟨rp, hpinned.mem_iff.1 hrp, hsame, ?_⟩
  have hlookup := ((mem_providers_iff hok).1 hrp).2
  rw [lookup_nameMap_append, hsame, hname] at hlookup
  exact (Option.some.inj hlookup).symm

theorem Pinned.consistent (h : Pinned modules) : Consistent modules := by
  rcases h with ⟨pinned, hpins, hall⟩
  rcases hall idListing modules (List.Perm.refl _) with ⟨block, providers, hok, -⟩
  have hdefined := exists_generateTerraformBlock_iff.1 ⟨block, providers, hok⟩
  have hsources : (pinned.map TfRequiredProvider.source).Nodup :=
    hpins.source.nodup_iff.2 (List.nodup_dedup _)
  exact {
    readable := hdefined.1
    named := hdefined.2
    agree := fun p hp m hm m' hm' name name' hname hname' => by
      rcases Pinned.mem_of_localName hall hp hm hname with ⟨rp, hrp, hsource, rfl⟩
      rcases Pinned.mem_of_localName hall hp hm' hname' with ⟨rp', hrp', hsource', rfl⟩
      rw [List.inj_on_of_nodup_map hsources hrp hrp' (hsource.trans hsource'.symm)]
    apart := fun p hp q hq m hm m' hm' name hname hname' => by
      rcases Pinned.mem_of_localName hall hp hm hname with ⟨rp, hrp, hsource, hrpname⟩
      rcases Pinned.mem_of_localName hall hq hm' hname' with ⟨rp', hrp', hsource', hrpname'⟩
      have hsame : rp = rp' :=
        List.inj_on_of_nodup_map hpins.apart hrp hrp' (hrpname.trans hrpname'.symm)
      rw [← hsource, ← hsource', hsame] }

/-- In every order the same providers are pinned, where the modules are consistent. -/
theorem pinned_iff (modules : List (String × ModuleResp)) : Pinned modules ↔ Consistent modules :=
  ⟨Pinned.consistent, Consistent.pinned⟩

def lockedAws : String := "registry.opentofu.org/hashicorp/aws"

def lockedRandom : String := "registry.opentofu.org/hashicorp/random"

/-- It requires the one provider, and a module that it uses needs the other. -/
def bucketModule : ModuleResp :=
  { webModule "stable" "1.0.0" with
    tfRequiredProviders := [⟨"aws", "~> 5.0", lockedAws⟩]
    tfLockProviders := [⟨lockedAws, "5.81.0"⟩, ⟨lockedRandom, "3.6.3"⟩] }

/-- It requires the provider of the bucket under another name. -/
def queueModule : ModuleResp :=
  { webModule "stable" "1.0.0" with
    tfRequiredProviders := [⟨"amazon", "~> 5.0", lockedAws⟩, ⟨"random", "~> 3.0", lockedRandom⟩]
    tfLockProviders := [⟨lockedAws, "5.81.0"⟩, ⟨lockedRandom, "3.6.3"⟩] }

/-- A provider that is locked and not required has no name; with another module that requires it,
the order of the modules decides the name of the provider that both require. -/
theorem not_pinned_bucketModule :
    generateTerraformBlock [("bucket", bucketModule)] idListing = .error "missing provider name" ∧
      ¬ Pinned [("bucket", bucketModule)] ∧
      ¬ Pinned [("bucket", bucketModule), ("queue", queueModule)] := by
  have hpanic : generateTerraformBlock [("bucket", bucketModule)] idListing =
      .error "missing provider name" := by rfl
  refine ⟨hpanic, ?_, ?_⟩
  · rintro ⟨pinned, -, hall⟩
    rcases hall idListing _ (List.Perm.refl _) with ⟨block, providers, hok, -⟩
    rw [hpanic] at hok
    cases hok
  · intro hpinned
    have hagree := hpinned.consistent.agree ⟨lockedAws, "5.81.0"⟩ List.mem_cons_self
      ("bucket", bucketModule) List.mem_cons_self ("queue", queueModule)
      (List.mem_cons_of_mem _ List.mem_cons_self) "aws" "amazon" (by decide) (by decide)
    exact absurd hagree (by decide)

end EnvCommon
end InfraWeave
