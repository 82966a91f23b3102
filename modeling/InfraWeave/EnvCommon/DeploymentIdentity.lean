import InfraWeave.EnvCommon.Catalogue
import InfraWeave.EnvCommon.DeploymentKeys
import InfraWeave.EnvCommon.DeploymentRuns
import InfraWeave.EnvCommon.DeploymentStatusHandler

/-!
# Deployments are identified by their keys

Neither the name nor the region of a claim is checked, so the parts of a key can run into each
other.  They do not when the project and the region read as two parts of a text.
-/

namespace InfraWeave
namespace EnvCommon

open Text

/-! ## Environments of accepted claims -/

/-- A launcher and a namespace. -/
def IsEnvironment (environment : String) : Prop :=
  ∃ launcher namespaceOf : List Char, environment.toList = launcher ++ '/' :: namespaceOf ∧
    '/' ∉ launcher ∧ ':' ∉ namespaceOf

theorem mem_isName {name : String} (h : isName name = true) {c : Char} (hc : c ∈ name.toList) :
    c.isLower = true ∨ c.isDigit = true ∨ c = '-' := by
  unfold isName at h
  cases hchars : name.toList with
  | nil =>
      rw [hchars] at hc
      cases hc
  | cons d cs =>
      rw [hchars] at h hc
      simp only [Bool.and_eq_true, Bool.or_eq_true, List.all_eq_true, beq_iff_eq] at h
      rcases List.mem_cons.1 hc with rfl | hc
      · exact h.1.1.1.imp_right Or.inl
      · exact or_assoc.1 (h.1.2 c hc)

theorem isEnvironment_of_isName {environment : String}
    (h : isName ("/".intercalate ((split '/' environment).drop 1)) = true) :
    IsEnvironment environment := by
  have hjoined : environment.toList = ['/'].intercalate (environment.toList.splitOn '/') :=
    (List.intercalate_splitOn _).symm
  cases hparts : environment.toList.splitOn '/' with
  | nil => exact absurd hparts (List.splitOn_ne_nil _ _)
  | cons launcher rest =>
      have hlauncher : '/' ∉ launcher :=
        notMem_of_mem_splitOn (hparts ▸ List.mem_cons_self)
      have hnamespace : ("/".intercalate ((split '/' environment).drop 1)).toList =
          ['/'].intercalate rest := by
        rw [String.toList_intercalate, split, hparts]
        simp [Function.comp_def]
      cases rest with
      | nil =>
          have hempty : "/".intercalate ((split '/' environment).drop 1) = "" :=
            String.toList_eq_nil_iff.1 hnamespace
          rw [hempty] at h
          cases h
      | cons part rest =>
          refine ⟨launcher, ['/'].intercalate (part :: rest), ?_, hlauncher, fun hcolon => ?_⟩
          · rw [hjoined, hparts, List.intercalate_cons_cons]
            simp
          · rw [← hnamespace] at hcolon
            have hname := mem_isName h hcolon
            exact absurd hname (by decide)

theorem IsEnvironment.ne_empty {environment : String} (h : IsEnvironment environment) :
    environment ≠ "" := by
  obtain ⟨launcher, namespaceOf, heq, -, -⟩ := h
  rintro rfl
  simp at heq

/-- Of an environment and a deployment that are joined, both can be told. -/
theorem IsEnvironment.append_inj {environment environment' : String} (h : IsEnvironment environment)
    (h' : IsEnvironment environment') {id id' : String}
    (heq : environment.toList ++ ("::".toList ++ id.toList) =
      environment'.toList ++ ("::".toList ++ id'.toList)) :
    environment = environment' ∧ id = id' := by
  obtain ⟨launcher, namespaceOf, henvironment, hlauncher, hnamespace⟩ := h
  obtain ⟨launcher', namespaceOf', henvironment', hlauncher', hnamespace'⟩ := h'
  rw [henvironment, henvironment'] at heq
  simp only [List.append_assoc, List.cons_append] at heq
  have hslash : Separable ['/'] launcher := separable_of_notMem hlauncher
  have hslash' : Separable ['/'] launcher' := separable_of_notMem hlauncher'
  obtain ⟨rfl, hrest⟩ := hslash.append_inj hslash' heq
  have hcolon : Separable "::".toList namespaceOf := separable_of_notMem hnamespace
  have hcolon' : Separable "::".toList namespaceOf' := separable_of_notMem hnamespace'
  obtain ⟨rfl, hid⟩ := hcolon.append_inj hcolon' hrest
  exact ⟨String.ext (henvironment.trans henvironment'.symm), String.ext hid⟩

/-! ## A project and a region as two parts -/

/-- The project and the region read as two parts of a text: both are plain, or the project ends in
one colon that then counts to the region. -/
def ReadsAsTwoParts (projectId region : String) : Prop :=
  (Plain projectId ∧ Plain region) ∨
    ∃ project, projectId = project ++ ":" ∧ Plain project ∧ Plain (":" ++ region)

/-- One project is the other one with a colon that the other's region begins with. -/
def ColonMoved (projectId region projectId' region' : String) : Prop :=
  projectId = projectId' ++ ":" ∧ region' = ":" ++ region

theorem readsAsTwoParts_iff {projectId region : String} :
    ReadsAsTwoParts projectId region ↔
      ∃ a b, Separable "::".toList a ∧ Separable "::".toList b ∧
        projectId.toList ++ ("::".toList ++ region.toList) = a ++ ("::".toList ++ b) := by
  constructor
  · rintro (⟨hproject, hregion⟩ | ⟨project, rfl, hproject, hregion⟩)
    · exact ⟨_, _, hproject, hregion, rfl⟩
    · refine ⟨_, _, hproject, hregion, ?_⟩
      simp
  · rintro ⟨a, b, ha, hb, heq⟩
    rcases List.append_eq_append_iff.1 heq with ⟨xs, rfl, hrest⟩ | ⟨xs, hproject, hrest⟩
    · -- A first part that is longer than the project would not be separable.
      obtain rfl := ha.eq_nil hrest
      obtain rfl : region.toList = b := by simpa using hrest
      exact Or.inl ⟨by simpa [Plain] using ha, hb⟩
    · match xs, hproject, hrest with
      | [], hproject, hrest =>
          obtain rfl : b = region.toList := by simpa using hrest
          obtain rfl : projectId.toList = a := by simpa using hproject
          exact Or.inl ⟨ha, hb⟩
      | [c], hproject, hrest =>
          have hparts : c = ':' ∧ b = ':' :: region.toList := by
            simpa [eq_comm] using hrest
          obtain ⟨rfl, rfl⟩ := hparts
          refine Or.inr ⟨.ofList a, String.ext (by simpa using hproject), ?_, ?_⟩
          · simpa [Plain] using ha
          · simpa [Plain] using hb
      | c :: d :: xs, hproject, hrest =>
          -- The second part would have a separator in it.
          have hb' : b = xs ++ ("::".toList ++ region.toList) := by
            have htail := congrArg (List.drop 2) hrest
            simpa using htail
          refine absurd ?_ hb
          exact ⟨xs, region.toList ++ "::".toList.dropLast, by simp [hb']⟩

/-- Two projects and regions with one text differ by a colon at most. -/
theorem eq_or_moved {projectId region projectId' region' : String}
    (h : ReadsAsTwoParts projectId region) (h' : ReadsAsTwoParts projectId' region')
    (heq : projectId.toList ++ ("::".toList ++ region.toList) =
      projectId'.toList ++ ("::".toList ++ region'.toList)) :
    (projectId = projectId' ∧ region = region') ∨
      ColonMoved projectId region projectId' region' ∨
        ColonMoved projectId' region' projectId region := by
  have hmoved : ∀ project region : String,
      (project ++ ":").toList ++ ("::".toList ++ region.toList) =
        project.toList ++ ("::".toList ++ (":" ++ region).toList) := by
    intro project region
    simp
  rcases h with ⟨hproject, -⟩ | ⟨project, rfl, hproject, -⟩
  · rcases h' with ⟨hproject', -⟩ | ⟨project', rfl, hproject', -⟩
    · obtain ⟨hp, hr⟩ := hproject.append_inj hproject' heq
      exact Or.inl ⟨String.ext hp, String.ext hr⟩
    · rw [hmoved] at heq
      obtain ⟨hp, hr⟩ := hproject.append_inj hproject' heq
      exact Or.inr (Or.inr ⟨congrArg (· ++ ":") (String.ext hp).symm, String.ext hr⟩)
  · rcases h' with ⟨hproject', -⟩ | ⟨project', rfl, hproject', -⟩
    · rw [hmoved] at heq
      obtain ⟨hp, hr⟩ := hproject.append_inj hproject' heq
      exact Or.inr (Or.inl ⟨congrArg (· ++ ":") (String.ext hp), (String.ext hr).symm⟩)
    · rw [hmoved, hmoved] at heq
      obtain ⟨hp, hr⟩ := hproject.append_inj hproject' heq
      obtain rfl : project = project' := String.ext hp
      have hregion : region = region' := by
        have hr := String.ext hr
        simpa using hr
      exact Or.inl ⟨rfl, hregion⟩

/-! ## The base of the index -/

/-- The base names the project and the region of the record, and its flag. -/
def BaseExact (record : DeploymentResp) : Prop :=
  (getPayload record false).2.deletedPkBase =
    (if record.deleted then "1" else "0") ++ "|DEPLOYMENT#" ++ record.projectId ++ "::" ++
      record.region

theorem baseExact_iff_chars {record : DeploymentResp} :
    BaseExact record ↔
      "::".toList.intercalate ((splitAtSeparator "::".toList
        ((deletedPrefix record.deleted false).toList ++ record.identifier.toList)).take 2) =
        (deletedPrefix record.deleted false).toList ++
          (record.projectId.toList ++ ("::".toList ++ record.region.toList)) := by
  have hbase : (getPayload record false).2.deletedPkBase =
      firstTwoParts (getPayload record false).2.deletedPk := rfl
  unfold BaseExact
  rw [hbase, getPayload_deletedPk, firstTwoParts, ← String.toList_inj, String.toList_ofList,
    String.toList_append]
  have hflag : (if record.deleted then "1" else "0") ++ "|DEPLOYMENT#" =
      deletedPrefix record.deleted false := by
    cases record.deleted <;> rfl
  rw [hflag]
  simp only [String.toList_append, List.append_assoc]

theorem baseExact_iff {record : DeploymentResp} (h : record.environment ≠ "") :
    BaseExact record ↔ ReadsAsTwoParts record.projectId record.region := by
  rw [baseExact_iff_chars, readsAsTwoParts_iff, DeploymentResp.identifier, identifier_chars h]
  have hflag := colon_notMem_deletedPrefix record.deleted false
  generalize (deletedPrefix record.deleted false).toList = flag at hflag
  generalize record.projectId.toList = p
  generalize record.region.toList = r
  generalize record.environment.toList ++ ("::".toList ++ record.deploymentId.toList) = rest
  have hne : "::".toList ≠ [] := colons_ne_nil
  constructor
  · intro heq
    obtain ⟨a, y, htext, ha⟩ := exists_separable hne
      (⟨p, r ++ ("::".toList ++ rest), by simp⟩ :
        "::".toList <:+: p ++ ("::".toList ++ (r ++ ("::".toList ++ rest))))
    have hwithin : "::".toList <:+: y :=
      List.IsInfix.trans ⟨r, rest, by simp⟩ (ha.suffix htext).isInfix
    obtain ⟨b, z, rfl, hb⟩ := exists_separable hne hwithin
    have hfirst : Separable "::".toList (flag ++ a) := ha.append_left hflag
    rw [htext, ← List.append_assoc, intercalate_take_two hne hfirst hb, List.append_assoc] at heq
    exact ⟨a, b, ha, hb, (List.append_cancel_left heq).symm⟩
  · rintro ⟨a, b, ha, hb, heq⟩
    have hfirst : Separable "::".toList (flag ++ a) := ha.append_left hflag
    have htext : flag ++ (p ++ ("::".toList ++ (r ++ ("::".toList ++ rest)))) =
        (flag ++ a) ++ ("::".toList ++ (b ++ ("::".toList ++ rest))) := by
      have happend := congrArg (fun x => flag ++ (x ++ ("::".toList ++ rest))) heq
      simpa using happend
    rw [htext, intercalate_take_two hne hfirst hb, heq, List.append_assoc]

/-! ## Identity -/

/-- The record of a deployment as its request stores it, or as it is when the job has deleted the
deployment. -/
def requestedRecord (prepared : ApiInfraPayloadWithVariables) (jobId : String) (deleted : Bool)
    (parseDuration : String → Option Nat) (epoch : Nat) : DeploymentResp :=
  { DeploymentStatusHandler.ofRequest prepared jobId with deleted := deleted }.deployment
    parseDuration epoch

/-- The record of an accepted claim has the names of the claim. -/
theorem ClaimRequest.Accepted.names {r : ClaimRequest} {isStack : Bool} {module : ModuleResp}
    {prepared : ApiInfraPayloadWithVariables} (h : r.Accepted isStack module prepared)
    (jobId : String) (deleted : Bool) (parseDuration : String → Option Nat) (epoch : Nat) :
    (requestedRecord prepared jobId deleted parseDuration epoch).projectId = r.handler.projectId ∧
      (requestedRecord prepared jobId deleted parseDuration epoch).region = r.claim.spec.region ∧
      (requestedRecord prepared jobId deleted parseDuration epoch).environment = r.environment ∧
      (requestedRecord prepared jobId deleted parseDuration epoch).deploymentId =
        r.deploymentId :=
  ⟨h.projectId, h.region, h.environment, h.deploymentId⟩

theorem ClaimRequest.Accepted.identifier {r : ClaimRequest} {isStack : Bool} {module : ModuleResp}
    {prepared : ApiInfraPayloadWithVariables} (h : r.Accepted isStack module prepared)
    (jobId : String) (deleted : Bool) (parseDuration : String → Option Nat) (epoch : Nat) :
    (requestedRecord prepared jobId deleted parseDuration epoch).identifier =
      getDeploymentIdentifier r.handler.projectId r.claim.spec.region r.deploymentId
        r.environment := by
  obtain ⟨hp, hr, he, hd⟩ := h.names jobId deleted parseDuration epoch
  rw [DeploymentResp.identifier, hp, hr, he, hd]

/-- Records with one key have the same names. -/
def Identified (record record' : DeploymentResp) : Prop :=
  (getPayload record false).1 = (getPayload record' false).1 →
    record.projectId = record'.projectId ∧ record.region = record'.region ∧
      record.environment = record'.environment ∧ record.deploymentId = record'.deploymentId

theorem identified_iff {record record' : DeploymentResp} (h : IsEnvironment record.environment)
    (h' : IsEnvironment record'.environment)
    (hparts : ReadsAsTwoParts record.projectId record.region)
    (hparts' : ReadsAsTwoParts record'.projectId record'.region) :
    Identified record record' ↔
      ¬ (record.environment = record'.environment ∧ record.deploymentId = record'.deploymentId ∧
        (ColonMoved record.projectId record.region record'.projectId record'.region ∨
          ColonMoved record'.projectId record'.region record.projectId record.region)) := by
  have hkey : (getPayload record false).1 = (getPayload record' false).1 ↔
      record.identifier.toList = record'.identifier.toList := by
    rw [getPayload_key, getPayload_key, metadataKey_inj, String.toList_inj]
  unfold Identified
  rw [hkey, DeploymentResp.identifier, DeploymentResp.identifier, identifier_chars h.ne_empty,
    identifier_chars h'.ne_empty]
  constructor
  · rintro hidentified ⟨henvironment, hid, hmoved⟩
    -- A colon that has moved leaves the text as it is.
    have hsame : record.projectId.toList ++ ("::".toList ++ record.region.toList) =
        record'.projectId.toList ++ ("::".toList ++ record'.region.toList) := by
      rcases hmoved with ⟨hp, hr⟩ | ⟨hp, hr⟩ <;> simp [hp, hr]
    have hnames := hidentified (by
      have happend := congrArg (· ++ ("::".toList ++ (record.environment.toList ++
        ("::".toList ++ record.deploymentId.toList)))) hsame
      simpa [← henvironment, ← hid] using happend)
    have hlength := congrArg (fun s : String => s.toList.length) hnames.1
    rcases hmoved with ⟨hp, -⟩ | ⟨hp, -⟩ <;> simp [hp] at hlength
  · intro hkept heq
    obtain ⟨a, b, ha, hb, htext⟩ := readsAsTwoParts_iff.1 hparts
    obtain ⟨a', b', ha', hb', htext'⟩ := readsAsTwoParts_iff.1 hparts'
    generalize hrest : record.environment.toList ++
      ("::".toList ++ record.deploymentId.toList) = rest at heq
    generalize hrest' : record'.environment.toList ++
      ("::".toList ++ record'.deploymentId.toList) = rest' at heq
    have hjoined : a ++ ("::".toList ++ (b ++ ("::".toList ++ rest))) =
        a' ++ ("::".toList ++ (b' ++ ("::".toList ++ rest'))) := by
      have hleft := congrArg (· ++ ("::".toList ++ rest)) htext
      have hright := congrArg (· ++ ("::".toList ++ rest')) htext'
      simp only [List.append_assoc] at hleft hright
      rw [← hleft, ← hright]
      exact heq
    obtain ⟨rfl, hsecond⟩ := ha.append_inj ha' hjoined
    obtain ⟨rfl, rfl⟩ := hb.append_inj hb' hsecond
    obtain ⟨henvironment, hid⟩ := h.append_inj h' (hrest.trans hrest'.symm)
    rcases eq_or_moved hparts hparts' (htext.trans htext'.symm) with ⟨hp, hr⟩ | hmoved
    · exact ⟨hp, hr, henvironment, hid⟩
    · exact absurd ⟨henvironment, hid, hmoved⟩ hkept

/-- Two accepted claims are identified by their keys, with exact bases in the index, exactly when
for both of them the project and the region read as two parts, and the two do not differ by a colon
between project and region alone. -/
theorem identity_iff {r r' : ClaimRequest} {id id' : String}
    {prepared prepared' : ApiInfraPayloadWithVariables} (h : r.prepare = .ok (id, prepared))
    (h' : r'.prepare = .ok (id', prepared')) (jobId jobId' : String) (deleted deleted' : Bool)
    (parseDuration : String → Option Nat) (epoch epoch' : Nat) :
    Identified (requestedRecord prepared jobId deleted parseDuration epoch)
          (requestedRecord prepared' jobId' deleted' parseDuration epoch') ∧
        BaseExact (requestedRecord prepared jobId deleted parseDuration epoch) ∧
        BaseExact (requestedRecord prepared' jobId' deleted' parseDuration epoch') ↔
      ReadsAsTwoParts r.handler.projectId r.claim.spec.region ∧
        ReadsAsTwoParts r'.handler.projectId r'.claim.spec.region ∧
        ¬ (r.environment = r'.environment ∧ r.deploymentId = r'.deploymentId ∧
          (ColonMoved r.handler.projectId r.claim.spec.region r'.handler.projectId
              r'.claim.spec.region ∨
            ColonMoved r'.handler.projectId r'.claim.spec.region r.handler.projectId
              r.claim.spec.region)) := by
  obtain ⟨_, _, haccepted⟩ := r.accepted h
  obtain ⟨_, _, haccepted'⟩ := r'.accepted h'
  obtain ⟨hp, hr, he, hd⟩ := haccepted.names jobId deleted parseDuration epoch
  obtain ⟨hp', hr', he', hd'⟩ := haccepted'.names jobId' deleted' parseDuration epoch'
  have henvironment := isEnvironment_of_isName haccepted.validNamespace
  have henvironment' := isEnvironment_of_isName haccepted'.validNamespace
  generalize requestedRecord prepared jobId deleted parseDuration epoch = record at *
  generalize requestedRecord prepared' jobId' deleted' parseDuration epoch' = record' at *
  rw [← hp, ← hr, ← he, ← hd, ← hp', ← hr', ← he', ← hd']
  rw [← he] at henvironment
  rw [← he'] at henvironment'
  rw [baseExact_iff henvironment.ne_empty, baseExact_iff henvironment'.ne_empty]
  constructor
  · rintro ⟨hidentified, hparts, hparts'⟩
    exact ⟨hparts, hparts', (identified_iff henvironment henvironment' hparts hparts').1 hidentified⟩
  · rintro ⟨hparts, hparts', hkept⟩
    exact ⟨(identified_iff henvironment henvironment' hparts hparts').2 hkept, hparts, hparts'⟩

/-! ## Two claims with one key -/

def localClaimServices : ClaimServices where
  conv := asciiConventions
  registry := localServices
  toLowercase := Text.toLowercase
  getUserId := .ok "cli"

/-- A claim of the module `Web` in a registry that has its first version. -/
def webClaim (name region environment : String) : ClaimRequest where
  services := localClaimServices
  handler := localWorkload
  store := RegionStore.empty.put ⟨.modules, ⟨"MODULE#stable::web", "VERSION#001.000.000"⟩,
    .module (webModule "stable" "1.0.0")⟩
  table := .empty
  claim :=
    { metadata := ⟨name, none⟩
      apiVersion := "infraweave.io/v1"
      kind := "Web"
      spec :=
        { moduleVersion := some "1.0.0"
          stackVersion := none
          region
          reference := none
          vars := []
          dependencies := none
          driftDetection := none } }
  environment
  command := "apply"
  flags := []
  extraData := .null
  referenceFallback := ""

/-- Between the region and the name, an environment and a deployment can be in the key twice. -/
def collidingClaims : ClaimRequest × ClaimRequest :=
  (webClaim "y::cli/ns2::web/z" "a" "cli/ns", webClaim "z" "a::cli/ns::web/y" "cli/ns2")

theorem exists_prepare {r : ClaimRequest} (h : r.prepare.toOption.isSome = true) :
    ∃ id prepared, r.prepare = .ok (id, prepared) := by
  cases hprepare : r.prepare with
  | error e =>
      rw [hprepare] at h
      cases h
  | ok result => exact ⟨result.1, result.2, rfl⟩

theorem not_identified_collidingClaims :
    ∃ id id' prepared prepared', collidingClaims.1.prepare = .ok (id, prepared) ∧
      collidingClaims.2.prepare = .ok (id', prepared') ∧
      ¬ Identified (requestedRecord prepared "job-1" false (fun _ => none) 0)
        (requestedRecord prepared' "job-2" false (fun _ => none) 0) := by
  obtain ⟨id, prepared, h⟩ : ∃ id prepared, collidingClaims.1.prepare = .ok (id, prepared) :=
    exists_prepare (by decide +kernel)
  obtain ⟨id', prepared', h'⟩ : ∃ id prepared, collidingClaims.2.prepare = .ok (id, prepared) :=
    exists_prepare (by decide +kernel)
  refine ⟨id, id', prepared, prepared', h, h', fun hidentified => ?_⟩
  obtain ⟨_, _, haccepted⟩ := collidingClaims.1.accepted h
  obtain ⟨_, _, haccepted'⟩ := collidingClaims.2.accepted h'
  have hkey : (requestedRecord prepared "job-1" false (fun _ => none) 0).identifier =
      (requestedRecord prepared' "job-2" false (fun _ => none) 0).identifier := by
    rw [haccepted.identifier, haccepted'.identifier]
    decide
  have hregion := (hidentified (congrArg metadataKey hkey)).2.1
  have heq : collidingClaims.1.claim.spec.region = collidingClaims.2.claim.spec.region :=
    haccepted.region.symm.trans (hregion.trans haccepted'.region)
  exact absurd heq (by decide)

/-- Claims of two regions, whose names are plain. -/
theorem identity_iff_webClaim :
    ∃ prepared prepared',
      Identified (requestedRecord prepared "job-1" false (fun _ => none) 0)
            (requestedRecord prepared' "job-2" false (fun _ => none) 0) ∧
          BaseExact (requestedRecord prepared "job-1" false (fun _ => none) 0) ∧
          BaseExact (requestedRecord prepared' "job-2" false (fun _ => none) 0) ↔
        ReadsAsTwoParts "111111111111" "eu-central-1" ∧
          ReadsAsTwoParts "111111111111" "eu-north-1" ∧
          ¬ ("cli/default" = "cli/default" ∧
            (webClaim "a" "eu-central-1" "cli/default").deploymentId =
              (webClaim "a" "eu-north-1" "cli/default").deploymentId ∧
            (ColonMoved "111111111111" "eu-central-1" "111111111111" "eu-north-1" ∨
              ColonMoved "111111111111" "eu-north-1" "111111111111" "eu-central-1")) := by
  obtain ⟨id, prepared, h⟩ :
      ∃ id prepared, (webClaim "a" "eu-central-1" "cli/default").prepare = .ok (id, prepared) :=
    exists_prepare (by decide +kernel)
  obtain ⟨id', prepared', h'⟩ :
      ∃ id prepared, (webClaim "a" "eu-north-1" "cli/default").prepare = .ok (id, prepared) :=
    exists_prepare (by decide +kernel)
  exact ⟨prepared, prepared', identity_iff h h' "job-1" "job-2" false false (fun _ => none) 0 0⟩

end EnvCommon
end InfraWeave
