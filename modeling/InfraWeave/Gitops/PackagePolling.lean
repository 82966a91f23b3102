import InfraWeave.Defs.Json
import InfraWeave.Lib.EarlyStop
import InfraWeave.Lib.Text

/-!
# Polling container packages

The poller asks GitHub for the packages of an organisation, page by page, and for each new one for
its versions.  Both loops take a page without a hit for the end, and what counts as a hit depends on
the name of the package as well as on its time.
-/

namespace InfraWeave
namespace Gitops

open EarlyStop

/-- `DateTime<Utc>`, in nanoseconds. -/
abbrev DateTime := Int

structure Package where
  id : Nat
  name : String
  packageType : String
  createdAt : DateTime
  updatedAt : DateTime
  htmlUrl : String
  deriving DecidableEq

structure PackageVersion where
  id : Nat
  name : String
  createdAt : DateTime
  updatedAt : DateTime
  metadata : Json
  htmlUrl : String
  deriving DecidableEq

structure PackageWithVersions where
  package : Package
  recentVersions : List PackageVersion
  deriving DecidableEq

/-- The environment, the parameter store, the regex crate, and the two listings of GitHub for a
token, an organisation and the number of a page. -/
structure PackageServices where
  tokenParameterStoreKey : Option String
  getSecurestringAws : String → Except String String
  filterPatterns : Option String
  regex : String → Except String (String → Bool)
  packages : String → String → Nat → Except String (List Package)
  versions : String → String → String → Nat → Except String (List PackageVersion)

variable (s : PackageServices)

def isInfraweavePackage (packageName : String) : Bool :=
  match s.filterPatterns with
  | none => false
  | some pattern =>
      match s.regex (Text.trim pattern) with
      | .ok isMatch => isMatch packageName
      | .error _ => false

def recentVersion (cutoff : DateTime) (v : PackageVersion) : Option PackageVersion :=
  if v.createdAt > cutoff then some v else none

def getPackageVersions (token org pkgName : String) (cutoff : DateTime) (fuel : Nat) :
    Except (Stopped String) (List PackageVersion) :=
  poll (s.versions token org pkgName) (fun v => .ok (recentVersion cutoff v)) fuel 1 []

/-- A package that is new comes with its versions. -/
def takePackage (token org : String) (cutoff : DateTime) (fuel : Nat) (pkg : Package) :
    Except (Stopped String) (Option PackageWithVersions) :=
  if isInfraweavePackage s pkg.name = false then .ok none
  else if pkg.updatedAt > cutoff then do
    let versions ← getPackageVersions s token org pkg.name cutoff fuel
    .ok (some ⟨pkg, versions⟩)
  else .ok none

def pullToken : Except String String :=
  match s.tokenParameterStoreKey with
  | none => .error "OCI_PULL_GITHUB_TOKEN_PARAMETER_STORE_KEY environment variable not set"
  | some key => s.getSecurestringAws key

def getNewPackages (org : String) (cutoff : DateTime) (fuel : Nat) :
    Except (Stopped String) (List PackageWithVersions) :=
  match pullToken s with
  | .error e => .error (.failed e)
  | .ok token => poll (s.packages token org) (takePackage s token org cutoff fuel) fuel 1 []

/-! ## What is asked -/

/-- The pages of the packages, and of the versions of each. -/
structure PackageListing where
  packages : List (List Package)
  versions : String → List (List PackageVersion)

structure AnswersWith (org : String) (listing : PackageListing) : Prop where
  token : ∃ token, pullToken s = .ok token ∧ Answers (s.packages token org) listing.packages ∧
    ∀ name, Answers (s.versions token org name) (listing.versions name)

/-- An InfraWeave package that is later than the cutoff. -/
def NewPackage (cutoff : DateTime) (pkg : Package) : Prop :=
  isInfraweavePackage s pkg.name = true ∧ pkg.updatedAt > cutoff

instance (cutoff : DateTime) : DecidablePred (NewPackage s cutoff) := fun _ =>
  inferInstanceAs (Decidable (_ ∧ _))

/-- Every new package is there, each once, with every one of its new versions. -/
structure MissesNothing (cutoff : DateTime) (listing : PackageListing)
    (result : List PackageWithVersions) : Prop where
  packages : (result.map PackageWithVersions.package).Perm
    (listing.packages.flatten.filter fun pkg => NewPackage s cutoff pkg)
  versions : ∀ entry ∈ result, entry.recentVersions.Perm
    ((listing.versions entry.package.name).flatten.filter fun v => v.createdAt > cutoff)

/-- No page without a new package comes before one with a new package, and the same holds of the
versions of each new package. -/
structure Consecutive (cutoff : DateTime) (listing : PackageListing) : Prop where
  packages : NoGap (fun pkg => if NewPackage s cutoff pkg then some pkg else none) listing.packages
  versions : ∀ pkg ∈ listing.packages.flatten, NewPackage s cutoff pkg →
    NoGap (recentVersion cutoff) (listing.versions pkg.name)

/-! ## The result -/

section

variable {s}

/-- What is kept of a package. -/
def keptPackage (s : PackageServices) (cutoff : DateTime) (listing : PackageListing)
    (pkg : Package) : Option PackageWithVersions :=
  if NewPackage s cutoff pkg then
    some ⟨pkg, found (recentVersion cutoff) (listing.versions pkg.name)⟩
  else none

theorem filterMap_eq_filter {α : Type} {p : α → Prop} [DecidablePred p] (l : List α) :
    l.filterMap (fun a => if p a then some a else none) = l.filter fun a => p a := by
  induction l with
  | nil => rfl
  | cons a l ih => by_cases ha : p a <;> simp [ha, ih]

theorem exists_bound (listing : PackageListing) : ∃ bound, ∀ pkg ∈ listing.packages.flatten,
    (listing.versions pkg.name).length ≤ bound := by
  induction listing.packages.flatten with
  | nil => exact ⟨0, fun pkg hpkg => absurd hpkg List.not_mem_nil⟩
  | cons pkg pkgs ih =>
      rcases ih with ⟨bound, hbound⟩
      refine ⟨max (listing.versions pkg.name).length bound, List.forall_mem_cons.2 ⟨?_, ?_⟩⟩
      · exact Nat.le_max_left _ _
      · exact fun p hp => Nat.le_trans (hbound p hp) (Nat.le_max_right _ _)

/-- The poll ends on every listing, with what comes before the first page without a hit. -/
theorem getNewPackages_terminates {org : String} {listing : PackageListing}
    (h : AnswersWith s org listing) (cutoff : DateTime) :
    Terminates (getNewPackages s org cutoff)
      (found (keptPackage s cutoff listing) listing.packages) := by
  rcases h.token with ⟨token, htoken, hpackages, hversions⟩
  rcases exists_bound listing with ⟨bound, hbound⟩
  refine ⟨max bound listing.packages.length + 1, fun fuel hfuel => ?_⟩
  have htake : ∀ pkg ∈ listing.packages.flatten,
      takePackage s token org cutoff fuel pkg = .ok (keptPackage s cutoff listing pkg) := by
    intro pkg hpkg
    have hlength : (listing.versions pkg.name).length < fuel := by
      have := hbound pkg hpkg
      omega
    have hpoll : getPackageVersions s token org pkg.name cutoff fuel =
        .ok (found (recentVersion cutoff) (listing.versions pkg.name)) :=
      (hversions pkg.name).poll_eq_ok (fun _ _ => rfl) hlength
    unfold takePackage keptPackage NewPackage
    by_cases hname : isInfraweavePackage s pkg.name = true
    · by_cases htime : pkg.updatedAt > cutoff
      · simp only [hname, htime, hpoll, and_self, if_true, Bool.true_eq_false, if_false]
        rfl
      · simp [hname, htime]
    · simp [hname]
  simp only [getNewPackages, htoken]
  exact hpackages.poll_eq_ok htake (by omega)

theorem recentVersion_eq_ite (cutoff : DateTime) :
    recentVersion cutoff = fun v => if v.createdAt > cutoff then some v else none :=
  rfl

/-- What the poll gives misses nothing if and only if the hits are on the first pages. -/
theorem missesNothing_found_iff {cutoff : DateTime} {listing : PackageListing} :
    MissesNothing s cutoff listing (found (keptPackage s cutoff listing) listing.packages) ↔
      Consecutive s cutoff listing := by
  let new : Package → Option Package := fun pkg => if NewPackage s cutoff pkg then some pkg else none
  have hkept : (found (keptPackage s cutoff listing) listing.packages).map
      PackageWithVersions.package = found new listing.packages := by
    refine map_found (fun pkg => ?_) _
    unfold keptPackage
    by_cases hnew : NewPackage s cutoff pkg <;> simp [new, hnew]
  have hpackages : (found new listing.packages).Perm
      (listing.packages.flatten.filter fun pkg => NewPackage s cutoff pkg) ↔
        NoGap new listing.packages := by
    rw [← filterMap_eq_filter]
    exact perm_found_iff
  have hversions : ∀ name, (found (recentVersion cutoff) (listing.versions name)).Perm
      ((listing.versions name).flatten.filter fun v => v.createdAt > cutoff) ↔
        NoGap (recentVersion cutoff) (listing.versions name) := by
    intro name
    rw [← filterMap_eq_filter, ← recentVersion_eq_ite]
    exact perm_found_iff
  -- The entries are the new packages, with what is found of their versions.
  have hentry : ∀ {entry}, entry ∈ found (keptPackage s cutoff listing) listing.packages →
      entry.package ∈ listing.packages.flatten ∧ NewPackage s cutoff entry.package ∧
        entry.recentVersions =
          found (recentVersion cutoff) (listing.versions entry.package.name) := by
    intro entry hmem
    rcases mem_flatten_of_mem_found hmem with ⟨pkg, hpkg, hsome⟩
    unfold keptPackage at hsome
    split at hsome
    · rename_i hnew
      obtain rfl := Option.some.inj hsome
      exact ⟨hpkg, hnew, rfl⟩
    · cases hsome
  constructor
  · rintro ⟨hperm, hall⟩
    rw [hkept] at hperm
    refine ⟨hpackages.1 hperm, fun pkg hpkg hnew => ?_⟩
    have hmem : pkg ∈ found new listing.packages :=
      hperm.mem_iff.2 (List.mem_filter.2 ⟨hpkg, decide_eq_true hnew⟩)
    rw [← hkept] at hmem
    rcases List.mem_map.1 hmem with ⟨entry, hfound, rfl⟩
    have hrecent := hall entry hfound
    rw [(hentry hfound).2.2] at hrecent
    exact (hversions _).1 hrecent
  · rintro ⟨hgap, hall⟩
    refine ⟨hkept ▸ hpackages.2 hgap, fun entry hfound => ?_⟩
    rcases hentry hfound with ⟨hpkg, hnew, hrecent⟩
    rw [hrecent]
    exact (hversions _).2 (hall _ hpkg hnew)

end

/-! ## Listings -/

/-- Packages of modules and stacks, and the pages of a listing. -/
def servicesOf (listing : PackageListing) : PackageServices where
  tokenParameterStoreKey := some "/infraweave/github-token"
  getSecurestringAws := fun _ => .ok "token"
  filterPatterns := some "^(module|stack)-.*"
  regex := fun _ => .ok fun name =>
    "module-".toList.isPrefixOf name.toList || "stack-".toList.isPrefixOf name.toList
  packages := fun _ _ page => .ok (listing.packages.getD (page - 1) [])
  versions := fun _ _ name page => .ok ((listing.versions name).getD (page - 1) [])

theorem answersWith_servicesOf {listing : PackageListing} (org : String)
    (hpackages : [] ∉ listing.packages) (hversions : ∀ name, [] ∉ listing.versions name) :
    AnswersWith (servicesOf listing) org listing :=
  ⟨⟨"token", rfl, ⟨fun _ => rfl, hpackages⟩, fun name => ⟨fun _ => rfl, hversions name⟩⟩⟩

def packageAt (id : Nat) (name : String) (updatedAt : DateTime) : Package :=
  ⟨id, name, "container", 0, updatedAt, "https://github.com/orgs/acme/packages/container/" ++ name⟩

/-- A page of a hundred other packages, and a module on the next page. -/
def moduleOnSecondPage : PackageListing where
  packages := [(List.range 100).map fun i => packageAt i ("image-" ++ toString i) 20,
    [packageAt 100 "module-vpc" 20]]
  versions := fun _ => [[⟨1, "sha256:1f0e", 20, 20, .null, "https://github.com/acme/vpc"⟩]]

/-- A module next to another package, and its versions, of which one is new. -/
def moduleOnFirstPage : PackageListing where
  packages := [[packageAt 1 "nginx" 20, packageAt 2 "module-vpc" 20]]
  versions := fun _ => [[⟨1, "sha256:1f0e", 20, 20, .null, "https://github.com/acme/vpc"⟩,
    ⟨2, "sha256:9b74", 5, 5, .null, "https://github.com/acme/vpc"⟩]]

end Gitops
end InfraWeave
