import InfraWeave.EnvCommon.Catalogue
import InfraWeave.EnvCommon.PublishedRecords
import InfraWeave.Lib.Runs

/-!
# The registry of policies

A run of policy publishes.  Each reads the newest version of its policy, by the order of the sort
keys, and the read may fail; the rows of a publish that passes go to every region.
-/

namespace InfraWeave
namespace EnvCommon

open Semver Std

/-- `server_publish_policy`, given what its read of the newest version answers. -/
def checkAgainst (services : Services) (newest : Except String PolicyResp) (policy : PolicyResp) :
    Except String Unit :=
  match newest with
  | .ok latestPolicy => do
      let manifestVersion ← services.parsed parse policy.version
      let latestVersion ← services.parsed parse latestPolicy.version
      if manifestVersion = latestVersion then
        .error ("Policy version " ++ manifestVersion.toString ++ " already exists in environment " ++
          policy.environment)
      else if (Semver.compare manifestVersion latestVersion).isLE then
        .error ("Policy version " ++ manifestVersion.toString ++
          " is older than the latest version " ++ latestVersion.toString ++ " in environment " ++
          policy.environment)
      else .ok ()
  -- Any error counts as the answer that there is no policy yet.
  | .error _ => .ok ()

def publishAgainst (services : Services) (newest : Except String PolicyResp)
    (handler : GenericCloudHandler) (policy : PolicyResp) (zipBase64 : String) :
    Publishing String Unit :=
  if handler.allRegions = [] then .error "At least one region is required to publish policy"
  else do
    .ofExcept (checkAgainst services newest policy)
    .forEach handler.allRegions fun region => uploadPolicy services region policy zipBase64

theorem serverPublishPolicy_eq (services : Services) (reg : Registry)
    (handler : GenericCloudHandler) (policy : PolicyResp) (zipBase64 : String) :
    serverPublishPolicy services reg handler policy zipBase64 =
      publishAgainst services (getNewestPolicyVersion services (reg handler.region) policy.policy
        policy.environment) handler policy zipBase64 := by
  have hcheck : checkNewestPolicy services (reg handler.region) policy =
      checkAgainst services (getNewestPolicyVersion services (reg handler.region) policy.policy
        policy.environment) policy := by
    unfold checkNewestPolicy checkAgainst
    cases getNewestPolicyVersion services (reg handler.region) policy.policy policy.environment <;>
      rfl
  rw [serverPublishPolicy, hcheck, publishAgainst]

/-- `get_all_policies`: the rows of `CURRENT` whose sort key begins with `POLICY#{environment}`. -/
def getAllPolicies (services : Services) (s : RegionStore) (environment : String) :
    Except String (List PolicyResp) :=
  ((s.rows .policies).filter fun row => row.1.pk = "CURRENT" &&
    ("POLICY#" ++ environment).toList.isPrefixOf row.1.sk.toList).mapM fun row =>
      match row.2 with
      | .policy record => .ok record
      | item => .error (services.mapError item)

/-! ## Runs -/

structure PolicyPublish where
  handler : GenericCloudHandler
  policy : PolicyResp
  zipBase64 : String
  /-- The error of the read of the newest version, when that read fails. -/
  readError : Option String

namespace PolicyPublish

def newest (services : Services) (s : RegionStore) (op : PolicyPublish) :
    Except String PolicyResp :=
  match op.readError with
  | some e => .error e
  | none => getNewestPolicyVersion services s op.policy.policy op.policy.environment

def outcome (services : Services) (reg : Registry) (op : PolicyPublish) :
    Publishing String Unit :=
  publishAgainst services (op.newest services (reg op.handler.region)) op.handler op.policy
    op.zipBase64

end PolicyPublish

/-- The registry, and the policies whose publishes were accepted, in order. -/
structure PolicyRegistry where
  registry : Registry
  accepted : List PolicyResp

def PolicyRegistry.empty : PolicyRegistry :=
  ⟨.empty, []⟩

def PolicyRegistry.publish (services : Services) (s : PolicyRegistry) (op : PolicyPublish) :
    PolicyRegistry :=
  let outcome := op.outcome services s.registry
  { registry := s.registry.applyAll outcome.writes
    accepted := s.accepted ++ match outcome.result with
      | .ok _ => [op.policy]
      | .error _ => [] }

def idOf (policy : PolicyResp) : String :=
  policyId policy.policy policy.environment

def versionKey (id v : String) : Key :=
  ⟨id, "VERSION#" ++ v⟩

def currentKey (id : String) : Key :=
  ⟨"CURRENT", id⟩

/-- The accepted policies with an id. -/
def PolicyRegistry.versionsOf (s : PolicyRegistry) (id : String) : List PolicyResp :=
  s.accepted.filter (idOf · = id)

/-- The order of versions, with their builds. -/
def Before (a b : String) : Prop :=
  ∃ v w, parse a = some v ∧ parse b = some w ∧ Semver.compare v w = .lt

/-- The order of their sort keys. -/
def SortsBefore (a b : String) : Prop :=
  ∃ v w, zeroPadSemver a 3 = some v ∧ zeroPadSemver b 3 = some w ∧ v < w

/-- A publish whose id belongs to one policy of one environment only; that gets an answer, unless
its version is the greatest anyway; and whose version, when it is the greatest, has the greatest
sort key. -/
structure PolicyPublish.Orderly (regions : List String) (s : PolicyRegistry) (op : PolicyPublish) :
    Prop where
  everywhere : op.handler.allRegions = regions
  region : op.handler.region ∈ regions
  named : ∀ p ∈ s.versionsOf (idOf op.policy),
    p.policy = op.policy.policy ∧ p.environment = op.policy.environment
  answered : op.readError ≠ none → (parse op.policy.version).isSome = true →
    ∀ p ∈ s.versionsOf (idOf op.policy), Before p.version op.policy.version
  sorted : (∀ p ∈ s.versionsOf (idOf op.policy), Before p.version op.policy.version) →
    ∀ p ∈ s.versionsOf (idOf op.policy), SortsBefore p.version op.policy.version

/-- The policy that `CURRENT` names is an accepted one of the same name and environment, and none
of those is after it. -/
def NamesNewest (regions : List String) (s : PolicyRegistry) : Prop :=
  ∀ region ∈ regions, ∀ p ∈ s.accepted, ∃ q ∈ s.accepted,
    (s.registry region).item .policies (currentKey (idOf p)) = some (.policy q) ∧
      q.policy = p.policy ∧ q.environment = p.environment ∧
      (q.version = p.version ∨ Before p.version q.version)

/-- The record of every version that was accepted is there as it was published. -/
def KeepsVersions (regions : List String) (s : PolicyRegistry) : Prop :=
  ∀ region ∈ regions, ∀ p ∈ s.accepted, ∃ v, zeroPadSemver p.version 3 = some v ∧
    (s.registry region).item .policies (versionKey (idOf p) v) = some (.policy p)

/-- The listing of an environment consists of the current policies of that environment. -/
def ListsOnly (services : Services) (s : RegionStore) (environment : String) : Prop :=
  ∃ listed, getAllPolicies services s environment = .ok listed ∧ listed.Nodup ∧
    ∀ p, p ∈ listed ↔ p.environment = environment ∧
      s.item .policies (currentKey (idOf p)) = some (.policy p)

/-- The id of the policy begins like the ids of an environment. -/
def BeginsLike (environment : String) (policy : PolicyResp) : Prop :=
  ("POLICY#" ++ environment).toList <+: (idOf policy).toList

/-! ## Orders -/

theorem Before.trans {a b c : String} (hab : Before a b) (hbc : Before b c) : Before a c := by
  obtain ⟨v, w, hv, hw, hvw⟩ := hab
  obtain ⟨w', x, hw', hx, hwx⟩ := hbc
  obtain rfl : w = w' := Option.some.inj (hw.symm.trans hw')
  exact ⟨v, x, hv, hx, TransCmp.lt_trans hvw hwx⟩

theorem Before.ne {a b : String} (h : Before a b) : a ≠ b := by
  rintro rfl
  obtain ⟨v, w, hv, hw, hlt⟩ := h
  obtain rfl : v = w := Option.some.inj (hv.symm.trans hw)
  have hself : Semver.compare v v = .eq := ReflCmp.compare_self
  rw [hself] at hlt
  cases hlt

/-- A version that passes is greater than the newest one that was found. -/
theorem before_of_checkAgainst {services : Services} {newest : Except String PolicyResp}
    {policy latest : PolicyResp} (h : checkAgainst services newest policy = .ok ())
    (hnewest : newest = .ok latest) : Before latest.version policy.version := by
  rw [hnewest] at h
  obtain ⟨manifestVersion, hmanifest, h⟩ := bind_eq_ok_iff.1 h
  obtain ⟨latestVersion, hlatest, h⟩ := bind_eq_ok_iff.1 h
  refine ⟨latestVersion, manifestVersion, parsed_eq_ok hlatest, parsed_eq_ok hmanifest, ?_⟩
  split at h
  · cases h
  · split at h
    · cases h
    · rename_i hle
      have hswap : Semver.compare latestVersion manifestVersion =
          (Semver.compare manifestVersion latestVersion).swap := OrientedCmp.eq_swap
      rw [hswap]
      cases hcompare : Semver.compare manifestVersion latestVersion with
      | gt => rfl
      | lt | eq =>
          rw [hcompare] at hle
          exact absurd rfl hle

theorem versionKey_lt {id v w : String} (h : v < w) : versionKey id v < versionKey id w := by
  refine Key.lt_iff.2 (Or.inr ⟨rfl, ?_⟩)
  rw [versionKey, versionKey, String.lt_iff, String.toList_append, String.toList_append]
  exact List.append_left_lt (String.lt_iff.1 h)

/-- The greatest entry is the last one. -/
theorem getLast?_eq_of_greatest {ν : Type} {m : List (Key × ν)}
    (h : m.Pairwise fun a b => a.1 < b.1) {entry : Key × ν} (hmem : entry ∈ m)
    (hgreatest : ∀ other ∈ m, other = entry ∨ other.1 < entry.1) : m.getLast? = some entry := by
  rcases List.eq_nil_or_concat m with rfl | ⟨init, last, rfl⟩
  · cases hmem
  · rw [List.concat_eq_append] at h hmem hgreatest ⊢
    rw [List.getLast?_concat]
    rcases List.mem_append.1 hmem with hinit | hlast
    · have hlt : entry.1 < last.1 := (List.pairwise_append.1 h).2.2 _ hinit _ (by simp)
      rcases hgreatest last (by simp) with rfl | hlt'
      · rfl
      · exact absurd (trans_of (· < ·) hlt hlt') (irrefl_of (· < ·) _)
    · rw [List.mem_singleton.1 hlast]

/-! ## One publish -/

theorem pk_ne_current (policy : PolicyResp) : idOf policy ≠ "CURRENT" := by
  intro h
  have hhead := congrArg (fun s : String => s.toList.head?) h
  simp [idOf, policyId] at hhead

theorem written_policyPuts (policy : PolicyResp) (v : String) (key : Key) :
    written (policyPuts policy v) .policies key =
      if key = currentKey (idOf policy) ∨ key = versionKey (idOf policy) v then
        some (.policy policy)
      else none := by
  have hputs : policyPuts policy v =
      [⟨.policies, versionKey (idOf policy) v, .policy policy⟩,
       ⟨.policies, currentKey (idOf policy), .policy policy⟩] := rfl
  rw [hputs, written, written, written]
  by_cases hcurrent : key = currentKey (idOf policy)
  · simp [hcurrent]
  · by_cases hversion : key = versionKey (idOf policy) v
    · have hne : versionKey (idOf policy) v ≠ currentKey (idOf policy) := hversion ▸ hcurrent
      simp [hversion, hne]
    · simp [hcurrent, hversion]

theorem uploadPolicy_result {services : Services} {region region' : String} {policy : PolicyResp}
    {zipBase64 : String} (h : (uploadPolicy services region policy zipBase64).result = .ok ()) :
    (uploadPolicy services region' policy zipBase64).result = .ok () := by
  obtain ⟨_, hzip, hinsert⟩ := Outcome.result_bind_eq_ok.1 h
  obtain ⟨content, hcontent, -⟩ :=
    Outcome.result_bind_eq_ok.1 (Outcome.result_mapError_eq_ok.1 hzip)
  obtain ⟨v, hv, -⟩ := Outcome.result_bind_eq_ok.1 hinsert
  refine Outcome.result_bind_eq_ok.2 ⟨(), Outcome.result_mapError_eq_ok.2 ?_, ?_⟩
  · exact Outcome.result_bind_eq_ok.2 ⟨content, hcontent, rfl⟩
  · exact Outcome.result_bind_eq_ok.2 ⟨v, hv, rfl⟩

/-- An upload that fails has put no row. -/
theorem puts_uploadPolicy_of_error {services : Services} {region : String} {policy : PolicyResp}
    {zipBase64 : String} (h : (uploadPolicy services region policy zipBase64).result ≠ .ok ())
    {w : String × Write} (hw : w ∈ (uploadPolicy services region policy zipBase64).writes) :
    w.2.puts = [] := by
  rcases Outcome.mem_writes_bind.1 hw with hw | ⟨_, hzip, hw⟩
  · rcases Outcome.mem_writes_bind.1 (show w ∈ (uploadFileBase64 services region policy.s3Key
      .policies zipBase64).writes from hw) with hw | ⟨content, -, hw⟩
    · cases hw
    · obtain rfl := List.mem_singleton.1 hw
      rfl
  · rcases Outcome.mem_writes_bind.1 hw with hw | ⟨v, hv, -⟩
    · cases hw
    · exact absurd (Outcome.result_bind_eq_ok.2 ⟨(), hzip,
        Outcome.result_bind_eq_ok.2 ⟨v, hv, rfl⟩⟩) h

/-- A publish is refused and puts no row, or its check has passed and its rows are put in every
region. -/
theorem publishAgainst_cases (services : Services) (newest : Except String PolicyResp)
    (handler : GenericCloudHandler) (policy : PolicyResp) (zipBase64 : String) :
    let outcome := publishAgainst services newest handler policy zipBase64
    (outcome.result ≠ .ok () ∧ ∀ w ∈ outcome.writes, w.2.puts = []) ∨
      (outcome.result = .ok () ∧ checkAgainst services newest policy = .ok () ∧
        Published (.policy policy) handler.allRegions outcome.writes) := by
  intro outcome
  have houtcome : outcome = publishAgainst services newest handler policy zipBase64 := rfl
  unfold publishAgainst at houtcome
  split at houtcome
  · refine Or.inl ?_
    rw [houtcome]
    exact ⟨(fun h => by cases h), fun w hw => by cases hw⟩
  · rename_i hne
    cases hcheck : checkAgainst services newest policy with
    | error e =>
        refine Or.inl ?_
        rw [houtcome, hcheck]
        exact ⟨(fun h => by cases h), fun w hw => by cases hw⟩
    | ok _ =>
        rw [hcheck, Outcome.ofExcept_ok_bind] at houtcome
        rw [houtcome]
        by_cases hok : (Outcome.forEach handler.allRegions fun region =>
            uploadPolicy services region policy zipBase64).result = .ok ()
        · exact Or.inr ⟨hok, rfl, published_forEach (fun region => deposits_of_steps rfl) hne hok⟩
        · refine Or.inl ⟨hok, fun w hw => ?_⟩
          obtain ⟨region, -, hw⟩ := Outcome.mem_writes_forEach hw
          -- The upload of one region succeeds exactly when that of another one does.
          refine puts_uploadPolicy_of_error (fun hregion => hok ?_) hw
          exact Outcome.result_forEach_iff.2 fun region' _ => uploadPolicy_result hregion
/-! ## The invariant -/

/-- Two policies with one id are of one name and environment, and their versions and sort keys
ascend. -/
def Succeeds (p q : PolicyResp) : Prop :=
  idOf p = idOf q → (p.policy = q.policy ∧ p.environment = q.environment) ∧
    Before p.version q.version ∧ SortsBefore p.version q.version

structure PolicyInvariant (regions : List String) (s : PolicyRegistry) : Prop where
  ascending : ∀ region, ((s.registry region).rows .policies).Pairwise fun a b => a.1 < b.1
  versions : ∀ region ∈ regions, ∀ key : Key, key.pk ≠ "CURRENT" → ∀ item,
    (s.registry region).item .policies key = some item ↔ ∃ p ∈ s.accepted, ∃ v,
      zeroPadSemver p.version 3 = some v ∧ key = versionKey (idOf p) v ∧ item = .policy p
  padded : ∀ p ∈ s.accepted, ∃ v, zeroPadSemver p.version 3 = some v
  current : ∀ region ∈ regions, ∀ id, (s.registry region).item .policies (currentKey id) =
    (s.versionsOf id).getLast?.map .policy
  succeed : s.accepted.Pairwise Succeeds

theorem mem_versionsOf {s : PolicyRegistry} {id : String} {p : PolicyResp} :
    p ∈ s.versionsOf id ↔ p ∈ s.accepted ∧ idOf p = id := by
  simp [PolicyRegistry.versionsOf]

theorem PolicyInvariant.keepsVersions {regions : List String} {s : PolicyRegistry}
    (hinv : PolicyInvariant regions s) : KeepsVersions regions s := by
  intro region hregion p hp
  obtain ⟨v, hv⟩ := hinv.padded p hp
  refine ⟨v, hv, (hinv.versions region hregion _ (pk_ne_current p) _).2 ?_⟩
  exact ⟨p, hp, v, hv, rfl, rfl⟩

/-- The last accepted policy with an id, and those before it. -/
theorem exists_last {regions : List String} {s : PolicyRegistry} (hinv : PolicyInvariant regions s)
    {p : PolicyResp} (hp : p ∈ s.accepted) : ∃ last ∈ s.accepted,
      (s.versionsOf (idOf p)).getLast? = some last ∧ idOf last = idOf p ∧
        ∀ q ∈ s.versionsOf (idOf p), q = last ∨ Succeeds q last := by
  have hmem : p ∈ s.versionsOf (idOf p) := mem_versionsOf.2 ⟨hp, rfl⟩
  have hsorted : (s.versionsOf (idOf p)).Pairwise Succeeds := hinv.succeed.filter _
  rcases List.eq_nil_or_concat (s.versionsOf (idOf p)) with hnil | ⟨init, last, hsplit⟩
  · rw [hnil] at hmem
    cases hmem
  · rw [List.concat_eq_append] at hsplit
    have hlast : last ∈ s.versionsOf (idOf p) := by
      rw [hsplit]
      exact List.mem_append_right _ List.mem_cons_self
    have hlast' := mem_versionsOf.1 hlast
    refine ⟨last, hlast'.1, by rw [hsplit, List.getLast?_concat], hlast'.2, fun q hq => ?_⟩
    rw [hsplit] at hq hsorted
    rcases List.mem_append.1 hq with hq | hq
    · exact Or.inr ((List.pairwise_append.1 hsorted).2.2 q hq last List.mem_cons_self)
    · exact Or.inl (List.mem_singleton.1 hq)

/-- The newest version that is found is the one that was accepted last. -/
theorem getNewestPolicyVersion_eq {services : Services} {regions : List String}
    {s : PolicyRegistry} (hinv : PolicyInvariant regions s) {region : String}
    (hregion : region ∈ regions) {policy : PolicyResp} {last : PolicyResp}
    (hlast : (s.versionsOf (idOf policy)).getLast? = some last) :
    getNewestPolicyVersion services (s.registry region) policy.policy policy.environment =
      .ok last := by
  have hmem := mem_versionsOf.1 (List.mem_of_getLast? hlast)
  obtain ⟨last', -, hlast', hid', hothers⟩ := exists_last hinv hmem.1
  obtain rfl : last = last' := by
    rw [hmem.2, hlast] at hlast'
    exact Option.some.inj hlast'
  have hsorted := (hinv.ascending region).filter
    (fun row => decide (row.1.pk = policyId policy.policy policy.environment))
  obtain ⟨v, hv, hrow⟩ := hinv.keepsVersions region hregion last hmem.1
  have hfound : (((s.registry region).rows .policies).filter fun row =>
      row.1.pk = policyId policy.policy policy.environment).getLast? =
        some (versionKey (idOf last) v, .policy last) := by
    refine getLast?_eq_of_greatest hsorted ?_ fun other hother => ?_
    · refine List.mem_filter.2 ⟨OrderedMap.mem_of_lookup hrow, ?_⟩
      exact decide_eq_true hmem.2
    · obtain ⟨hrow', hpk⟩ := List.mem_filter.1 hother
      have hpk : other.1.pk = idOf policy := of_decide_eq_true hpk
      have hitem : (s.registry region).item .policies other.1 = some other.2 :=
        (OrderedMap.mem_iff_lookup (hinv.ascending region)).1 hrow'
      obtain ⟨q, hq, w, hw, hkey, hpolicy⟩ := (hinv.versions region hregion other.1
        (hpk ▸ pk_ne_current policy) other.2).1 hitem
      have hidq : idOf q = idOf last := by
        rw [hkey] at hpk
        exact hpk.trans hmem.2.symm
      rcases hothers q (mem_versionsOf.2 ⟨hq, hidq⟩) with rfl | hsucceeds
      · obtain rfl : w = v := Option.some.inj (hw.symm.trans hv)
        exact Or.inl (Prod.ext hkey hpolicy)
      · obtain ⟨w', v', hw', hv', hlt⟩ := (hsucceeds hidq).2.2
        obtain rfl : w' = w := Option.some.inj (hw'.symm.trans hw)
        obtain rfl : v' = v := Option.some.inj (hv'.symm.trans hv)
        rw [hkey, hidq]
        exact Or.inr (versionKey_lt hlt)
  unfold getNewestPolicyVersion
  rw [hfound]

/-! ## What a publish keeps -/

theorem RegionStore.ascending_apply {s : RegionStore} {table : Table}
    (h : (s.rows table).Pairwise fun a b => a.1 < b.1) (w : Write) :
    ((s.apply w).rows table).Pairwise fun a b => a.1 < b.1 := by
  have hput : ∀ (s : RegionStore) (p : Put), (s.rows table).Pairwise (fun a b => a.1 < b.1) →
      ((s.put p).rows table).Pairwise fun a b => a.1 < b.1 := by
    intro s p hs
    unfold RegionStore.put
    dsimp only
    split
    · exact OrderedMap.pairwise_insert _ _ hs
    · exact hs
  have hputs : ∀ (puts : List Put) (s : RegionStore),
      (s.rows table).Pairwise (fun a b => a.1 < b.1) →
      ((puts.foldl RegionStore.put s).rows table).Pairwise fun a b => a.1 < b.1 := by
    intro puts
    induction puts with
    | nil => exact fun s hs => hs
    | cons p puts ih => exact fun s hs => ih _ (hput s p hs)
  cases w with
  | transact puts => exact hputs puts s h
  | upload bucket key content => exact h
  | uploadIfAbsent bucket key content =>
      simp only [RegionStore.apply]
      split <;> exact h

theorem Registry.ascending_applyAll {reg : Registry} {table : Table} {region : String}
    (h : ((reg region).rows table).Pairwise fun a b => a.1 < b.1) (ws : List (String × Write)) :
    ((reg.applyAll ws region).rows table).Pairwise fun a b => a.1 < b.1 := by
  induction ws generalizing reg with
  | nil => exact h
  | cons w ws ih =>
      rw [Registry.applyAll_cons]
      refine ih ?_
      unfold Registry.apply
      split
      · exact RegionStore.ascending_apply h w.2
      · exact h

theorem versionKey_inj {id id' v v' : String} (h : versionKey id v = versionKey id' v') :
    id = id' ∧ v = v' := by
  obtain ⟨hid, hsk⟩ := Key.mk.inj h
  exact ⟨hid, (String.append_right_inj _).1 hsk⟩

section

variable {services : Services} {regions : List String} {s : PolicyRegistry} {op : PolicyPublish}

/-- A publish that passes its check is of the greatest version of its policy so far. -/
theorem before_of_passes (hinv : PolicyInvariant regions s) (hok : op.Orderly regions s)
    (hcheck : checkAgainst services (op.newest services (s.registry op.handler.region)) op.policy =
      .ok ()) {v : String} (hv : zeroPadSemver op.policy.version 3 = some v) :
    ∀ p ∈ s.versionsOf (idOf op.policy), Before p.version op.policy.version := by
  cases hread : op.readError with
  | some e =>
      refine hok.answered (by simp [hread]) ?_
      obtain ⟨version, hversion, -⟩ := Option.map_eq_some_iff.1 hv
      rw [hversion]
      rfl
  | none =>
      intro p hp
      obtain ⟨hp', hid⟩ := mem_versionsOf.1 hp
      obtain ⟨last, -, hlast, hidLast, hothers⟩ := exists_last hinv hp'
      rw [hid] at hlast hidLast hothers
      have hnewest : op.newest services (s.registry op.handler.region) = .ok last := by
        rw [PolicyPublish.newest, hread]
        exact getNewestPolicyVersion_eq hinv hok.region hlast
      have hbefore : Before last.version op.policy.version :=
        before_of_checkAgainst hcheck hnewest
      rcases hothers p hp with rfl | hsucceeds
      · exact hbefore
      · exact (hsucceeds (hid.trans hidLast.symm)).2.1.trans hbefore

/-- A publish that is refused leaves the tables as they are. -/
theorem invariant_refused (hinv : PolicyInvariant regions s)
    (hresult : (op.outcome services s.registry).result ≠ .ok ())
    (hputs : ∀ w ∈ (op.outcome services s.registry).writes, w.2.puts = []) :
    PolicyInvariant regions (s.publish services op) := by
  have haccepted : (s.publish services op).accepted = s.accepted := by
    change s.accepted ++ _ = s.accepted
    cases hcase : (op.outcome services s.registry).result with
    | ok u => exact absurd hcase hresult
    | error e => exact List.append_nil _
  have hitem : ∀ region key, ((s.publish services op).registry region).item .policies key =
      (s.registry region).item .policies key := by
    intro region key
    exact Registry.item_applyAll_of_nil s.registry (fun w hw => hputs _ hw) .policies key
  have hversions : ∀ id, (s.publish services op).versionsOf id = s.versionsOf id := fun id => by
    rw [PolicyRegistry.versionsOf, haccepted]
    rfl
  constructor
  · exact fun region => Registry.ascending_applyAll (hinv.ascending region) _
  · intro region hregion key hkey item
    rw [hitem, haccepted]
    exact hinv.versions region hregion key hkey item
  · rw [haccepted]
    exact hinv.padded
  · intro region hregion id
    rw [hitem, hversions]
    exact hinv.current region hregion id
  · rw [haccepted]
    exact hinv.succeed

theorem invariant_accepted (hinv : PolicyInvariant regions s) (hok : op.Orderly regions s)
    (hresult : (op.outcome services s.registry).result = .ok ())
    (hcheck : checkAgainst services (op.newest services (s.registry op.handler.region)) op.policy =
      .ok ())
    (hpublished : Published (.policy op.policy) op.handler.allRegions
      (op.outcome services s.registry).writes) :
    PolicyInvariant regions (s.publish services op) := by
  obtain ⟨v, hv⟩ := hpublished.version
  have hbefore := before_of_passes hinv hok hcheck hv
  have haccepted : (s.publish services op).accepted = s.accepted ++ [op.policy] := by
    change s.accepted ++ _ = _
    rw [hresult]
  have hitem : ∀ region ∈ regions, ∀ key,
      ((s.publish services op).registry region).item .policies key =
        if key = currentKey (idOf op.policy) ∨ key = versionKey (idOf op.policy) v then
          some (.policy op.policy)
        else (s.registry region).item .policies key := by
    intro region hregion key
    refine (hpublished.item_applyAll hv s.registry region .policies key).trans ?_
    rw [if_pos (hok.everywhere.symm ▸ hregion)]
    change (written (policyPuts op.policy v) .policies key).or _ = _
    rw [written_policyPuts]
    split <;> rfl
  constructor
  · exact fun region => Registry.ascending_applyAll (hinv.ascending region) _
  · intro region hregion key hkey item
    have hcurrent : key ≠ currentKey (idOf op.policy) := fun heq => hkey (heq ▸ rfl)
    rw [hitem region hregion, haccepted]
    by_cases hversion : key = versionKey (idOf op.policy) v
    · rw [if_pos (Or.inr hversion)]
      constructor
      · intro h
        exact ⟨op.policy, by simp, v, hv, hversion, (Option.some.inj h).symm⟩
      · rintro ⟨p, hp, w, hw, hkey', rfl⟩
        rcases List.mem_append.1 hp with hp | hp
        · -- An accepted policy under this key would have the same version.
          obtain ⟨hid, hsame⟩ := versionKey_inj (hkey'.symm.trans hversion)
          have hne := (hbefore p (mem_versionsOf.2 ⟨hp, hid⟩)).ne
          exact absurd (zeroPadSemver_inj (hsame ▸ hw) hv) hne
        · rw [List.mem_singleton.1 hp]
    · rw [if_neg (not_or.2 ⟨hcurrent, hversion⟩), hinv.versions region hregion key hkey item]
      constructor
      · rintro ⟨p, hp, hrest⟩
        exact ⟨p, List.mem_append_left _ hp, hrest⟩
      · rintro ⟨p, hp, w, hw, hkey', hpolicy⟩
        rcases List.mem_append.1 hp with hp | hp
        · exact ⟨p, hp, w, hw, hkey', hpolicy⟩
        · obtain rfl := List.mem_singleton.1 hp
          obtain rfl : v = w := Option.some.inj (hv.symm.trans hw)
          exact absurd hkey' hversion
  · rw [haccepted]
    intro p hp
    rcases List.mem_append.1 hp with hp | hp
    · exact hinv.padded p hp
    · rw [List.mem_singleton.1 hp]
      exact ⟨v, hv⟩
  · intro region hregion id
    have hversions : (s.publish services op).versionsOf id =
        s.versionsOf id ++ if idOf op.policy = id then [op.policy] else [] := by
      rw [PolicyRegistry.versionsOf, haccepted, List.filter_append]
      by_cases hid : idOf op.policy = id <;> simp [hid, PolicyRegistry.versionsOf]
    have hne : currentKey id ≠ versionKey (idOf op.policy) v :=
      fun heq => pk_ne_current op.policy (congrArg Key.pk heq).symm
    rw [hitem region hregion, hversions]
    by_cases hid : idOf op.policy = id
    · rw [if_pos (Or.inl (by rw [hid])), if_pos hid, List.getLast?_concat]
      rfl
    · have hcurrent : currentKey id ≠ currentKey (idOf op.policy) :=
        fun heq => hid (congrArg Key.sk heq).symm
      rw [if_neg (not_or.2 ⟨hcurrent, hne⟩), if_neg hid, List.append_nil]
      exact hinv.current region hregion id
  · rw [haccepted]
    refine List.pairwise_append.2 ⟨hinv.succeed, List.pairwise_singleton _ _, ?_⟩
    intro p hp q hq hid
    obtain rfl := List.mem_singleton.1 hq
    have hmem := mem_versionsOf.2 ⟨hp, hid⟩
    exact ⟨hok.named p hmem, hbefore p hmem, hok.sorted hbefore p hmem⟩

theorem invariant_publish_policy (hinv : PolicyInvariant regions s) (hok : op.Orderly regions s) :
    PolicyInvariant regions (s.publish services op) := by
  rcases publishAgainst_cases services (op.newest services (s.registry op.handler.region))
    op.handler op.policy op.zipBase64 with ⟨hresult, hputs⟩ | ⟨hresult, hcheck, hpublished⟩
  · exact invariant_refused hinv hresult hputs
  · exact invariant_accepted hinv hok hresult hcheck hpublished

theorem PolicyInvariant.namesNewest (hinv : PolicyInvariant regions s) : NamesNewest regions s := by
  intro region hregion p hp
  obtain ⟨last, hmem, hlast, hid, hothers⟩ := exists_last hinv hp
  refine ⟨last, hmem, ?_, ?_⟩
  · rw [hinv.current region hregion, hlast]
    rfl
  · rcases hothers p (mem_versionsOf.2 ⟨hp, rfl⟩) with rfl | hsucceeds
    · exact ⟨rfl, rfl, Or.inl rfl⟩
    · obtain ⟨⟨hpolicy, henvironment⟩, hbefore, -⟩ := hsucceeds hid.symm
      exact ⟨hpolicy.symm, henvironment.symm, Or.inr hbefore⟩

/-! ## Listings -/

/-- A listing gives the current policies whose ids begin like those of the environment. -/
theorem exists_listed (hinv : PolicyInvariant regions s) {region : String}
    (hregion : region ∈ regions) (environment : String) :
    ∃ listed, getAllPolicies services (s.registry region) environment = .ok listed ∧
      listed.Nodup ∧ ∀ p, p ∈ listed ↔ BeginsLike environment p ∧
        (s.registry region).item .policies (currentKey (idOf p)) = some (.policy p) := by
  have hmem : ∀ key item, (key, item) ∈ (s.registry region).rows .policies ↔
      (s.registry region).item .policies key = some item := fun key item =>
    OrderedMap.mem_iff_lookup (hinv.ascending region)
  -- Each current row is of a policy with the id that its sort key is.
  have hcurrent : ∀ row ∈ (s.registry region).rows .policies, row.1.pk = "CURRENT" →
      ∃ p, row.1 = currentKey (idOf p) ∧ row.2 = .policy p := by
    rintro ⟨⟨pk, sk⟩, item⟩ hrow hpk
    obtain rfl : pk = "CURRENT" := hpk
    have hitem := (hmem _ _).1 hrow
    have hrow' := hinv.current region hregion sk
    rw [show currentKey sk = ⟨"CURRENT", sk⟩ from rfl, hitem] at hrow'
    obtain ⟨p, hp, hpolicy⟩ := Option.map_eq_some_iff.1 hrow'.symm
    have hid := (mem_versionsOf.1 (List.mem_of_getLast? hp)).2
    exact ⟨p, by rw [hid]; rfl, hpolicy.symm⟩
  unfold getAllPolicies
  generalize hlisted : ((s.registry region).rows .policies).filter (fun row =>
    row.1.pk = "CURRENT" &&
      ("POLICY#" ++ environment).toList.isPrefixOf row.1.sk.toList) = rows
  have hrows : ∀ row ∈ rows, ∃ p, row = (currentKey (idOf p), .policy p) := by
    intro row hrow
    rw [← hlisted] at hrow
    obtain ⟨hrow, hkey⟩ := List.mem_filter.1 hrow
    obtain ⟨p, hkey, hpolicy⟩ := hcurrent row hrow
      (of_decide_eq_true (Bool.and_eq_true_iff.1 hkey).1)
    exact ⟨p, Prod.ext hkey hpolicy⟩
  have hsplit : ∃ listed : List PolicyResp,
      rows = listed.map fun p => (currentKey (idOf p), .policy p) := by
    clear hlisted
    induction rows with
    | nil => exact ⟨[], rfl⟩
    | cons row rows ih =>
        obtain ⟨p, hp⟩ := hrows row List.mem_cons_self
        obtain ⟨listed, hrest⟩ := ih fun r hr => hrows r (List.mem_cons_of_mem _ hr)
        exact ⟨p :: listed, by rw [hp, hrest, List.map_cons]⟩
  obtain ⟨listed, hsame⟩ := hsplit
  refine ⟨listed, ?_, ?_, fun p => ?_⟩
  · rw [mapM_eq_ok_iff, hsame, List.map_map]
    rfl
  · have hsorted := (hinv.ascending region).filter (fun row =>
      row.1.pk = "CURRENT" && ("POLICY#" ++ environment).toList.isPrefixOf row.1.sk.toList)
    rw [hlisted, hsame, List.pairwise_map] at hsorted
    refine hsorted.imp fun {p q} hlt heq => ?_
    rw [heq] at hlt
    exact irrefl_of (· < ·) _ hlt
  · have hiff : p ∈ listed ↔ (currentKey (idOf p), Item.policy p) ∈ rows := by
      rw [hsame, List.mem_map]
      constructor
      · exact fun hp => ⟨p, hp, rfl⟩
      · rintro ⟨q, hq, heq⟩
        obtain rfl : q = p := Item.policy.inj (Prod.mk.inj heq).2
        exact hq
    rw [hiff, ← hlisted, List.mem_filter, hmem, and_comm]
    simp [currentKey, BeginsLike]

theorem beginsLike_of_environment (policy : PolicyResp) : BeginsLike policy.environment policy := by
  unfold BeginsLike idOf policyId getPolicyIdentifier
  simp only [String.toList_append, List.append_assoc]
  exact (List.prefix_append_right_inj _).2 (List.prefix_append _ _)

/-- A listing is exact when no other environment has accepted policies whose ids begin like those
of the environment, and only then. -/
theorem listsOnly_iff (hinv : PolicyInvariant regions s) {region : String}
    (hregion : region ∈ regions) (environment : String) :
    ListsOnly services (s.registry region) environment ↔
      ∀ p ∈ s.accepted, BeginsLike environment p → p.environment = environment := by
  have hexists : ∃ listed,
      getAllPolicies services (s.registry region) environment = .ok listed ∧ listed.Nodup ∧
        ∀ p, p ∈ listed ↔ BeginsLike environment p ∧
          (s.registry region).item .policies (currentKey (idOf p)) = some (.policy p) :=
    exists_listed hinv hregion environment
  obtain ⟨listed, hlisted, hnodup, hmem⟩ := hexists
  constructor
  · rintro ⟨listed', hlisted', -, hmem'⟩ p hp hbegins
    obtain rfl : listed = listed' := Except.ok.inj (hlisted.symm.trans hlisted')
    obtain ⟨q, hq, hrow, -, henvironment, -⟩ := hinv.namesNewest region hregion p hp
    have hid : idOf q = idOf p := by
      rw [hinv.current region hregion] at hrow
      obtain ⟨q', hq', hsame⟩ := Option.map_eq_some_iff.1 hrow
      obtain rfl : q' = q := Item.policy.inj hsame
      exact (mem_versionsOf.1 (List.mem_of_getLast? hq')).2
    have hlist : q ∈ listed := by
      refine (hmem q).2 ⟨?_, hid ▸ hrow⟩
      unfold BeginsLike
      rw [hid]
      exact hbegins
    exact henvironment ▸ ((hmem' q).1 hlist).1
  · intro honly
    refine ⟨listed, hlisted, hnodup, fun p => ?_⟩
    rw [hmem]
    refine and_congr_left fun hrow => ?_
    constructor
    · intro hbegins
      rw [hinv.current region hregion] at hrow
      obtain ⟨q, hq, hsame⟩ := Option.map_eq_some_iff.1 hrow
      obtain rfl : q = p := Item.policy.inj hsame
      exact honly q (mem_versionsOf.1 (List.mem_of_getLast? hq)).1 hbegins
    · rintro rfl
      exact beginsLike_of_environment p

end

theorem policyInvariant_empty (regions : List String) : PolicyInvariant regions .empty where
  ascending _ := .nil
  versions _ _ key _ item := by
    constructor
    · intro h
      cases h
    · rintro ⟨p, hp, -⟩
      cases hp
  padded p hp := by cases hp
  current _ _ _ := rfl
  succeed := .nil

/-! ## Every run -/

/-- What the registry of policies is to keep to. -/
def KeepsRegistry (services : Services) (regions : List String) (s : PolicyRegistry) : Prop :=
  NamesNewest regions s ∧ KeepsVersions regions s ∧
    ∀ region ∈ regions, ∀ environment, ListsOnly services (s.registry region) environment

/-- In a run of orderly publishes, `CURRENT` names the newest version and no version is replaced;
the listings that are exact are those of environments that no other environment begins like. -/
theorem policies_registered (services : Services) (regions : List String)
    (ops : List PolicyPublish)
    (hok : Meets (PolicyRegistry.publish services) (fun s op => op.Orderly regions s) .empty ops) :
    let s := run (PolicyRegistry.publish services) .empty ops
    NamesNewest regions s ∧ KeepsVersions regions s ∧ ∀ region ∈ regions, ∀ environment,
      (ListsOnly services (s.registry region) environment ↔
        ∀ p ∈ s.accepted, BeginsLike environment p → p.environment = environment) := by
  intro s
  have hinv : PolicyInvariant regions s :=
    run_invariant (PolicyInvariant regions) (fun _ _ => invariant_publish_policy)
      (policyInvariant_empty regions) hok
  refine ⟨hinv.namesNewest, hinv.keepsVersions, fun region hregion environment => ?_⟩
  exact listsOnly_iff hinv hregion environment

def tagPolicy (environment version description : String) : PolicyResp where
  environment := environment
  environmentVersion := environment ++ "#" ++ version
  version := version
  timestamp := "2025-01-01T00:00:00Z"
  policyName := "Tags"
  policy := "tags"
  description := description
  reference := ""
  data := .null
  manifest := .null
  s3Key := zipKey "tags" version

def publishTags (environment version description : String) (readError : Option String) :
    PolicyPublish :=
  ⟨localHandler, tagPolicy environment version description, "YQ==", readError⟩

/-- A second version, published while the newest version cannot be read. -/
theorem policies_registered_tags :
    let ops := [publishTags "stable" "1.0.0" "" none,
      publishTags "stable" "1.1.0" "" (some "timeout")]
    NamesNewest ["eu-central-1"] (run (PolicyRegistry.publish localServices) .empty ops) := by
  intro ops
  have hfirst : ((PolicyRegistry.empty.publish localServices
      (publishTags "stable" "1.0.0" "" none)).accepted) = [tagPolicy "stable" "1.0.0" ""] := by
    decide +kernel
  have hversions : ∀ p ∈ (PolicyRegistry.empty.publish localServices
      (publishTags "stable" "1.0.0" "" none)).versionsOf
        (idOf (tagPolicy "stable" "1.1.0" "")), p = tagPolicy "stable" "1.0.0" "" := by
    intro p hp
    have hmem := (mem_versionsOf.1 hp).1
    rw [hfirst] at hmem
    exact List.mem_singleton.1 hmem
  have hbefore : Before "1.0.0" "1.1.0" :=
    ⟨⟨1, 0, 0, .empty, .empty⟩, ⟨1, 1, 0, .empty, .empty⟩, by decide, by decide, by decide⟩
  have hsorts : SortsBefore "1.0.0" "1.1.0" :=
    ⟨"001.000.000", "001.001.000", by decide, by decide, by decide⟩
  refine (policies_registered localServices ["eu-central-1"] ops ⟨?_, ?_, trivial⟩).1
  · exact ⟨rfl, by decide, (fun p hp => by cases hp), (fun h => absurd rfl h),
      fun _ p hp => by cases hp⟩
  · refine ⟨rfl, by decide, fun p hp => ?_, fun _ _ p hp => ?_, fun _ p hp => ?_⟩
    · rw [hversions p hp]
      exact ⟨rfl, rfl⟩
    · rw [hversions p hp]
      exact hbefore
    · rw [hversions p hp]
      exact hsorts

/-- Once a release follows its candidate, it is published again with another text. -/
theorem not_keepsRegistry_candidate :
    ¬ KeepsRegistry localServices ["eu-central-1"]
      (run (PolicyRegistry.publish localServices) .empty
        [publishTags "stable" "1.0.0-rc.1" "" none, publishTags "stable" "1.0.0" "" none,
          publishTags "stable" "1.0.0" "reworded" none]) := by
  rintro ⟨-, hversions, -⟩
  have haccepted : tagPolicy "stable" "1.0.0" "" ∈
      (run (PolicyRegistry.publish localServices) .empty
        [publishTags "stable" "1.0.0-rc.1" "" none, publishTags "stable" "1.0.0" "" none,
          publishTags "stable" "1.0.0" "reworded" none]).accepted := by
    decide +kernel
  obtain ⟨v, hv, hrow⟩ := hversions "eu-central-1" (by decide) _ haccepted
  obtain rfl : "001.000.000" = v :=
    Option.some.inj ((by decide : zeroPadSemver "1.0.0" 3 = some "001.000.000").symm.trans hv)
  revert hrow
  decide +kernel

end EnvCommon
end InfraWeave
