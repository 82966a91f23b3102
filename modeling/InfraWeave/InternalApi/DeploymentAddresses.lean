import InfraWeave.EnvCommon.DeploymentIdentity
import InfraWeave.InternalApi.HttpRouter
import InfraWeave.Lib.UrlPath

/-!
# Addresses of deployments

The client writes what identifies a deployment into the path of a request, separated by slashes and
without encoding.  The server splits the path again.
-/

namespace InfraWeave
namespace InternalApi

open EnvCommon (ClaimRequest)
open FormUrlencoded (hasEscape)
open Text (split)
open UrlPath

/-! ## Requests of the client -/

def apiPath (kind project region rest : String) : String :=
  "/api/v1/" ++ kind ++ "/" ++ project ++ "/" ++ region ++ "/" ++ rest

def httpDescribeDeploymentPath (project region environment deploymentId : String) : String :=
  apiPath "deployment" project region (environment ++ "/" ++ deploymentId)

def httpGetPlanDeploymentPath (project region environment deploymentId jobId : String) : String :=
  apiPath "plan" project region (environment ++ "/" ++ deploymentId ++ "/" ++ jobId)

def httpGetEventsPath (project region environment deploymentId : String) : String :=
  apiPath "events" project region (environment ++ "/" ++ deploymentId)

def httpGetChangeRecordPath (project region environment deploymentId jobId changeType : String) :
    String :=
  apiPath "change_record" project region
    (environment ++ "/" ++ deploymentId ++ "/" ++ jobId ++ "/" ++ changeType)

def httpGetJobStatusPath (project region jobId : String) : String :=
  apiPath "job_status" project region jobId

/-- A request, with the values that the handler is to have. -/
inductive Address where
  | describe (project region environment deploymentId : String)
  | plan (project region environment deploymentId jobId : String)
  | events (project region environment deploymentId : String)
  | changeRecord (project region environment deploymentId jobId changeType : String)
  | jobStatus (project region jobId : String)
  deriving DecidableEq

namespace Address

def path : Address → String
  | .describe project region environment deploymentId =>
      httpDescribeDeploymentPath project region environment deploymentId
  | .plan project region environment deploymentId jobId =>
      httpGetPlanDeploymentPath project region environment deploymentId jobId
  | .events project region environment deploymentId =>
      httpGetEventsPath project region environment deploymentId
  | .changeRecord project region environment deploymentId jobId changeType =>
      httpGetChangeRecordPath project region environment deploymentId jobId changeType
  | .jobStatus project region jobId => httpGetJobStatusPath project region jobId

def kind : Address → String
  | .describe .. => "deployment"
  | .plan .. => "plan"
  | .events .. => "events"
  | .changeRecord .. => "change_record"
  | .jobStatus .. => "job_status"

def project : Address → String
  | .describe project .. | .plan project .. | .events project .. | .changeRecord project ..
  | .jobStatus project .. => project

def region : Address → String
  | .describe _ region .. | .plan _ region .. | .events _ region .. | .changeRecord _ region ..
  | .jobStatus _ region .. => region

/-- What comes after the region. -/
def rest : Address → String
  | .describe _ _ environment deploymentId | .events _ _ environment deploymentId =>
      environment ++ "/" ++ deploymentId
  | .plan _ _ environment deploymentId jobId => environment ++ "/" ++ deploymentId ++ "/" ++ jobId
  | .changeRecord _ _ environment deploymentId jobId changeType =>
      environment ++ "/" ++ deploymentId ++ "/" ++ jobId ++ "/" ++ changeType
  | .jobStatus _ _ jobId => jobId

theorem path_eq (a : Address) : a.path = apiPath a.kind a.project a.region a.rest := by
  cases a <;> rfl

end Address

/-! ## The router -/

/-- The handler of a route, up to the values that it passes on. -/
def handledAddress (kind project region rest : String) : Option Address :=
  if kind = "deployment" then
    (deploymentPath rest).toOption.map fun parts => .describe project region parts.1 parts.2
  else if kind = "plan" then
    (planPath rest).toOption.map fun parts => .plan project region parts.1 parts.2.1 parts.2.2
  else if kind = "events" then
    (deploymentPath rest).toOption.map fun parts => .events project region parts.1 parts.2
  else if kind = "change_record" then
    (changeRecordPath rest).toOption.map fun parts =>
      .changeRecord project region parts.1 parts.2.1 parts.2.2.1 parts.2.2.2
  else if kind = "job_status" then
    some (.jobStatus project region (.ofList (rest.toList.dropWhile (· == '/'))))
  else none

/-- The routes `/api/v1/{kind}/{project}/{region}/{*rest}`: no parameter is empty, and each is
decoded before the handler has it. -/
def routeAddress (d : Decoder) (path : String) : Option Address :=
  match parse (path.toList.drop 1) with
  | api :: v1 :: kind :: project :: region :: rest =>
      if api = "api".toList ∧ v1 = "v1".toList ∧ project ≠ [] ∧ region ≠ [] ∧ rest ≠ [] ∧
          rest ≠ [[]] then
        (d.decode project).bind fun project => (d.decode region).bind fun region =>
          (rest.mapM d.decode).bind fun rest =>
            handledAddress (.ofList kind) (.ofList project) (.ofList region) (.ofList (text rest))
      else none
  | _ => none

theorem routeAddress_of_parse {d : Decoder} {path : String}
    {kind project region : List Char} {rest : List (List Char)}
    (h : parse (path.toList.drop 1) =
      "api".toList :: "v1".toList :: kind :: project :: region :: rest)
    (hproject : project ≠ []) (hregion : region ≠ []) (hrest : rest ≠ []) (hrest' : rest ≠ [[]]) :
    routeAddress d path =
      (d.decode project).bind fun project => (d.decode region).bind fun region =>
        (rest.mapM d.decode).bind fun rest =>
          handledAddress (.ofList kind) (.ofList project) (.ofList region)
            (.ofList (text rest)) := by
  unfold routeAddress
  rw [h]
  exact if_pos ⟨rfl, rfl, hproject, hregion, hrest, hrest'⟩

/-- A request that is routed has a path of at least six segments. -/
theorem exists_parse_of_routeAddress {d : Decoder} {path : String} {a : Address}
    (h : routeAddress d path = some a) : ∃ kind project region rest,
      parse (path.toList.drop 1) =
        "api".toList :: "v1".toList :: kind :: project :: region :: rest ∧
        project ≠ [] ∧ region ≠ [] ∧ rest ≠ [] ∧ rest ≠ [[]] := by
  unfold routeAddress at h
  split at h
  · rename_i api v1 kind project region rest hparse
    split at h
    · rename_i hroute
      obtain ⟨rfl, rfl, hroute⟩ := hroute
      exact ⟨kind, project, region, rest, hparse, hroute⟩
    · cases h
  · cases h

/-! ## Handlers -/

theorem intercalate_split (sep : Char) (s : String) :
    [sep].intercalate ((split sep s).map String.toList) = s.toList := by
  unfold split
  rw [List.map_map]
  simp [Function.comp_def]

theorem deploymentPath_eq_ok {rest : String} {parts : String × String}
    (h : deploymentPath rest = .ok parts) :
    parts.1 ++ "/" ++ parts.2 = rest ∧
      (rest.toList.splitOn '/').length = 4 := by
  have hjoined := intercalate_split '/' rest
  unfold deploymentPath at h
  split at h
  · rename_i hsplit
    obtain rfl := Except.ok.inj h
    rw [hsplit] at hjoined
    have hlength := congrArg List.length hsplit
    exact ⟨String.ext (by simpa [List.intercalate] using hjoined), by simpa [split] using hlength⟩
  · cases h

theorem planPath_eq_ok {rest : String} {parts : String × String × String}
    (h : planPath rest = .ok parts) :
    parts.1 ++ "/" ++ parts.2.1 ++ "/" ++ parts.2.2 = rest ∧
      (rest.toList.splitOn '/').length = 5 := by
  have hjoined := intercalate_split '/' rest
  unfold planPath at h
  split at h
  · rename_i hsplit
    obtain rfl := Except.ok.inj h
    rw [hsplit] at hjoined
    have hlength := congrArg List.length hsplit
    exact ⟨String.ext (by simpa [List.intercalate] using hjoined), by simpa [split] using hlength⟩
  · cases h

theorem changeRecordPath_eq_ok {rest : String} {parts : String × String × String × String}
    (h : changeRecordPath rest = .ok parts) :
    parts.1 ++ "/" ++ parts.2.1 ++ "/" ++ parts.2.2.1 ++ "/" ++ parts.2.2.2 = rest ∧
      (rest.toList.splitOn '/').length = 6 := by
  have hjoined := intercalate_split '/' rest
  unfold changeRecordPath at h
  split at h
  · rename_i hsplit
    obtain rfl := Except.ok.inj h
    rw [hsplit] at hjoined
    have hlength := congrArg List.length hsplit
    exact ⟨String.ext (by simpa [List.intercalate] using hjoined), by simpa [split] using hlength⟩
  · cases h

theorem toOption_eq_some {ε α : Type} {x : Except ε α} {a : α} (h : x.toOption = some a) :
    x = .ok a := by
  cases x with
  | error e => cases h
  | ok b => exact congrArg Except.ok (Option.some.inj h)

/-- A handler passes on what the route has for it; only the job may lose slashes. -/
theorem handledAddress_eq_some {kind project region rest : String} {a : Address}
    (h : handledAddress kind project region rest = some a) :
    a.kind = kind ∧ a.project = project ∧ a.region = region ∧
      a.rest.toList.Sublist rest.toList := by
  unfold handledAddress at h
  split_ifs at h with hdescribe hplan hevents hchange hjob
  · rcases Option.map_eq_some_iff.1 h with ⟨parts, hparts, rfl⟩
    have hrest := (deploymentPath_eq_ok (toOption_eq_some hparts)).1
    exact ⟨hdescribe.symm, rfl, rfl, by rw [← hrest]; exact List.Sublist.refl _⟩
  · rcases Option.map_eq_some_iff.1 h with ⟨parts, hparts, rfl⟩
    have hrest := (planPath_eq_ok (toOption_eq_some hparts)).1
    exact ⟨hplan.symm, rfl, rfl, by rw [← hrest]; exact List.Sublist.refl _⟩
  · rcases Option.map_eq_some_iff.1 h with ⟨parts, hparts, rfl⟩
    have hrest := (deploymentPath_eq_ok (toOption_eq_some hparts)).1
    exact ⟨hevents.symm, rfl, rfl, by rw [← hrest]; exact List.Sublist.refl _⟩
  · rcases Option.map_eq_some_iff.1 h with ⟨parts, hparts, rfl⟩
    have hrest := (changeRecordPath_eq_ok (toOption_eq_some hparts)).1
    exact ⟨hchange.symm, rfl, rfl, by rw [← hrest]; exact List.Sublist.refl _⟩
  · obtain rfl := Option.some.inj h
    refine ⟨hjob.symm, rfl, rfl, ?_⟩
    simpa [Address.rest] using List.dropWhile_sublist (· == '/')

/-! ## Requests that arrive -/

/-- Everything that can stand between a request and its handler. -/
structure Arrives (a : Address) : Prop where
  plain : Plain (a.path.toList.drop 1)
  project : '/' ∉ a.project.toList ∧ a.project ≠ "" ∧ hasEscape a.project.toList = false
  region : '/' ∉ a.region.toList ∧ a.region ≠ "" ∧ hasEscape a.region.toList = false
  rest : a.rest ≠ "" ∧ ∀ segment ∈ a.rest.toList.splitOn '/', hasEscape segment = false
  handled : handledAddress a.kind a.project a.region a.rest = some a

theorem Address.drop_path (a : Address) : a.path.toList.drop 1 =
    text ["api".toList, "v1".toList, a.kind.toList, a.project.toList, a.region.toList,
      a.rest.toList] := by
  rw [a.path_eq]
  simp [apiPath, text, List.intercalate]

/-- The kinds of requests need no encoding. -/
theorem Address.isSegment_kind (a : Address) : IsSegment a.kind.toList := by
  have hkinds : ∀ kind ∈ ["deployment", "plan", "events", "change_record", "job_status"],
      IsSegment kind.toList := by decide
  refine hkinds _ ?_
  cases a <;> simp [kind]

theorem Address.drop_path_of_rest (a : Address) {rest : List (List Char)} (h : rest ≠ [])
    (hrest : a.rest.toList = text rest) : a.path.toList.drop 1 =
      text ("api".toList :: "v1".toList :: a.kind.toList :: a.project.toList :: a.region.toList ::
        rest) := by
  rw [a.drop_path, hrest]
  simp only [text_cons_cons, text_cons h]
  simp [text, List.intercalate]

/-- A request arrives if and only if nothing of its path is left out, resolved or decoded, and the
handler splits the rest where the client has joined it. -/
theorem routeAddress_path_iff (d : Decoder) (a : Address) :
    routeAddress d a.path = some a ↔ Arrives a := by
  have hpath := a.drop_path
  constructor
  · intro h
    rcases exists_parse_of_routeAddress h with
      ⟨kind, projectText, regionText, restText, hparse, hproject, hregion, hne, hne'⟩
    rw [routeAddress_of_parse hparse hproject hregion hne hne'] at h
    rcases Option.bind_eq_some_iff.1 h with ⟨project, hdproject, hbind⟩
    rcases Option.bind_eq_some_iff.1 hbind with ⟨region, hdregion, hbind'⟩
    rcases Option.bind_eq_some_iff.1 hbind' with ⟨rest, hdrest, hhandler⟩
    rcases handledAddress_eq_some hhandler with ⟨hkind, hp, hr, hsublist⟩
    have hkind' : a.kind.toList = kind := by rw [hkind, String.toList_ofList]
    have hp' : a.project.toList = project := by rw [hp, String.toList_ofList]
    have hr' : a.region.toList = region := by rw [hr, String.toList_ofList]
    rw [String.toList_ofList] at hsublist
    -- Every stage can only shorten the text, and what arrives is as long as what was sent.
    have hsent := length_text (List.cons_ne_nil "api".toList ["v1".toList, a.kind.toList,
      a.project.toList, a.region.toList, a.rest.toList])
    rw [← hpath, hkind', hp', hr'] at hsent
    have hread := size_parse (a.path.toList.drop 1)
    rw [hparse] at hread
    have hlproject := d.length_le hdproject
    have hlregion := d.length_le hdregion
    have hlrest := d.size_le hdrest
    have hltext := length_text (d.ne_nil_of_mapM hdrest hne)
    have hlsub := hsublist.length_le
    simp only [size] at hsent hread
    obtain ⟨hescape, rfl⟩ := hlproject.2 (by omega)
    obtain ⟨hescape', rfl⟩ := hlregion.2 (by omega)
    obtain ⟨rfl, hescapes⟩ := hlrest.2 (by omega)
    have hrest : a.rest.toList = text rest := hsublist.eq_of_length_le (by omega)
    have hjoined : a.path.toList.drop 1 =
        text ("api".toList :: "v1".toList :: kind :: project :: region :: rest) := by
      rw [a.drop_path_of_rest hne hrest, hkind', hp', hr']
    have hplain : Plain (a.path.toList.drop 1) := by
      refine plain_of_parse ?_ ?_
      · rw [hparse]
        simp only [size]
        omega
      · rw [hparse, hjoined]
    have hslash : ∀ segment ∈ "api".toList :: "v1".toList :: kind :: project :: region :: rest,
        '/' ∉ segment := by
      rw [← hparse, parse_of_plain hplain]
      exact fun segment => Text.notMem_of_mem_splitOn
    have hsplit : (text rest).splitOn '/' = rest :=
      splitOn_text hne fun segment hmem => hslash segment (by simp [hmem])
    have hhandled : handledAddress a.kind a.project a.region a.rest = some a := by
      have hrest' : a.rest = .ofList (text rest) :=
        String.ext (hrest.trans String.toList_ofList.symm)
      rw [hkind, hp, hr, hrest']
      exact hhandler
    refine ⟨hplain, ?_, ?_, ⟨?_, ?_⟩, hhandled⟩
    · rw [hp']
      exact ⟨hslash _ (by simp), fun hempty => hproject (by rw [← hp', hempty]; rfl), hescape⟩
    · rw [hr']
      exact ⟨hslash _ (by simp), fun hempty => hregion (by rw [← hr', hempty]; rfl), hescape'⟩
    · intro hempty
      rw [hempty] at hrest
      exact hne' (hsplit.symm.trans (congrArg (List.splitOn '/') hrest.symm))
    · rw [hrest, hsplit]
      exact hescapes
  · intro h
    have hne := List.splitOn_ne_nil '/' a.rest.toList
    have hrest : a.rest.toList = text (a.rest.toList.splitOn '/') :=
      (List.intercalate_splitOn '/').symm
    have hsegments : (a.path.toList.drop 1).splitOn '/' = "api".toList :: "v1".toList ::
        a.kind.toList :: a.project.toList :: a.region.toList :: a.rest.toList.splitOn '/' := by
      rw [a.drop_path_of_rest hne hrest]
      refine splitOn_text (List.cons_ne_nil _ _) ?_
      simp only [List.forall_mem_cons]
      exact ⟨by decide, by decide, a.isSegment_kind.slash, h.project.1, h.region.1,
        fun segment => Text.notMem_of_mem_splitOn⟩
    have hne' : a.rest.toList.splitOn '/' ≠ [[]] := by
      intro hempty
      rw [hempty] at hrest
      exact h.rest.1 (String.toList_eq_nil_iff.1 hrest)
    rw [routeAddress_of_parse ((parse_of_plain h.plain).trans hsegments)
        (mt String.toList_eq_nil_iff.1 h.project.2.1) (mt String.toList_eq_nil_iff.1 h.region.2.1)
        hne hne',
      d.decode_plain _ h.project.2.2, d.decode_plain _ h.region.2.2, d.mapM_of_plain h.rest.2]
    simp only [Option.bind_some, String.ofList_toList, ← hrest]
    exact h.handled

theorem Address.endsPlainly_drop_path (a : Address) :
    EndsPlainly (a.path.toList.drop 1) ↔ EndsPlainly a.rest.toList := by
  rw [a.drop_path]
  exact endsPlainly_text (List.cons_ne_nil _ _)

/-! ## Parts -/

namespace Address

/-- What the client joins after the region. -/
def parts : Address → List (List Char)
  | .describe _ _ environment deploymentId | .events _ _ environment deploymentId =>
      environment.toList.splitOn '/' ++ deploymentId.toList.splitOn '/'
  | .plan _ _ environment deploymentId jobId =>
      environment.toList.splitOn '/' ++ deploymentId.toList.splitOn '/' ++ [jobId.toList]
  | .changeRecord _ _ environment deploymentId jobId changeType =>
      environment.toList.splitOn '/' ++ deploymentId.toList.splitOn '/' ++
        [jobId.toList, changeType.toList]
  | .jobStatus _ _ jobId => [jobId.toList]

/-- How many parts the handler takes. -/
def arity : Address → Nat
  | .describe .. | .events .. => 4
  | .plan .. => 5
  | .changeRecord .. => 6
  | .jobStatus .. => 1

/-- The environment has two parts, and the deployment at least two. -/
def OfClaim : Address → Prop
  | .describe _ _ environment deploymentId | .events _ _ environment deploymentId
  | .plan _ _ environment deploymentId _ | .changeRecord _ _ environment deploymentId _ _ =>
      (environment.toList.splitOn '/').length = 2 ∧ 2 ≤ (deploymentId.toList.splitOn '/').length
  | .jobStatus .. => True

theorem parts_ne_nil (a : Address) : a.parts ≠ [] := by
  cases a <;> simp [parts]

theorem rest_eq (a : Address) : a.rest.toList = text a.parts := by
  have hjoin : ∀ s : String, text (s.toList.splitOn '/') = s.toList := fun s =>
    List.intercalate_splitOn '/'
  have hne : ∀ s : String, s.toList.splitOn '/' ≠ [] := fun s => List.splitOn_ne_nil _ _
  have hsingle : ∀ cs : List Char, text [cs] = cs := fun cs => by simp [text, List.intercalate]
  cases a <;> simp [rest, parts, text_append, hjoin, hne, text_cons_cons, hsingle]

theorem arity_le_length {a : Address} (h : a.OfClaim) : a.arity ≤ a.parts.length := by
  cases a <;> simp only [OfClaim] at h <;> simp only [arity, parts, List.length_append,
    List.length_cons, List.length_nil] <;> omega

end Address

/-! ## Handlers and parts -/

/-- A text of two parts. -/
theorem exists_of_splitOn {s : String} (h : (s.toList.splitOn '/').length = 2) :
    ∃ xs ys, s.toList.splitOn '/' = [xs, ys] ∧ String.ofList xs ++ "/" ++ String.ofList ys = s := by
  rcases List.length_eq_two.1 h with ⟨xs, ys, hparts⟩
  have hjoined : ['/'].intercalate (s.toList.splitOn '/') = s.toList :=
    List.intercalate_splitOn '/'
  rw [hparts] at hjoined
  exact ⟨xs, ys, hparts, String.ext (by simpa [List.intercalate] using hjoined)⟩

section

variable {rest environment deploymentId jobId changeType : String}
  (henvironment : (environment.toList.splitOn '/').length = 2)
  (hdeployment : (deploymentId.toList.splitOn '/').length = 2)

include henvironment hdeployment

theorem deploymentPath_of_splitOn
    (h : rest.toList.splitOn '/' =
      environment.toList.splitOn '/' ++ deploymentId.toList.splitOn '/') :
    deploymentPath rest = .ok (environment, deploymentId) := by
  rcases exists_of_splitOn henvironment with ⟨env1, env2, henv, heq⟩
  rcases exists_of_splitOn hdeployment with ⟨dep1, dep2, hdep, heq'⟩
  rw [henv, hdep] at h
  unfold deploymentPath split
  rw [h, ← heq, ← heq']
  rfl

theorem planPath_of_splitOn
    (h : rest.toList.splitOn '/' =
      environment.toList.splitOn '/' ++ deploymentId.toList.splitOn '/' ++ [jobId.toList]) :
    planPath rest = .ok (environment, deploymentId, jobId) := by
  rcases exists_of_splitOn henvironment with ⟨env1, env2, henv, heq⟩
  rcases exists_of_splitOn hdeployment with ⟨dep1, dep2, hdep, heq'⟩
  rw [henv, hdep] at h
  unfold planPath split
  rw [h, ← heq, ← heq']
  simp

theorem changeRecordPath_of_splitOn
    (h : rest.toList.splitOn '/' = environment.toList.splitOn '/' ++
      deploymentId.toList.splitOn '/' ++ [jobId.toList, changeType.toList]) :
    changeRecordPath rest = .ok (environment, deploymentId, jobId, changeType) := by
  rcases exists_of_splitOn henvironment with ⟨env1, env2, henv, heq⟩
  rcases exists_of_splitOn hdeployment with ⟨dep1, dep2, hdep, heq'⟩
  rw [henv, hdep] at h
  unfold changeRecordPath split
  rw [h, ← heq, ← heq']
  simp

end

namespace Address

theorem splitOn_rest (a : Address) :
    a.rest.toList.splitOn '/' = a.parts.flatMap (·.splitOn '/') := by
  rw [a.rest_eq, splitOn_text_eq_flatMap a.parts_ne_nil]

/-- The handlers but the one of jobs count the parts. -/
theorem length_of_handled {a : Address} (hkind : a.kind ≠ "job_status")
    (h : handledAddress a.kind a.project a.region a.rest = some a) :
    (a.rest.toList.splitOn '/').length = a.arity := by
  cases a with
  | describe project region environment deploymentId =>
      rcases Option.map_eq_some_iff.1 h with ⟨parts, hparts, -⟩
      exact (deploymentPath_eq_ok (toOption_eq_some hparts)).2
  | plan project region environment deploymentId jobId =>
      rcases Option.map_eq_some_iff.1 h with ⟨parts, hparts, -⟩
      exact (planPath_eq_ok (toOption_eq_some hparts)).2
  | events project region environment deploymentId =>
      rcases Option.map_eq_some_iff.1 h with ⟨parts, hparts, -⟩
      exact (deploymentPath_eq_ok (toOption_eq_some hparts)).2
  | changeRecord project region environment deploymentId jobId changeType =>
      rcases Option.map_eq_some_iff.1 h with ⟨parts, hparts, -⟩
      exact (changeRecordPath_eq_ok (toOption_eq_some hparts)).2
  | jobStatus project region jobId => exact absurd rfl hkind

/-- None of the parts is split again. -/
structure Unsplit (a : Address) : Prop where
  slash : ∀ part ∈ a.parts, '/' ∉ part
  length : a.parts.length = a.arity

theorem unsplit_of_handled {a : Address} (hclaim : a.OfClaim) (hkind : a.kind ≠ "job_status")
    (h : handledAddress a.kind a.project a.region a.rest = some a) : a.Unsplit := by
  have hlength := length_of_handled hkind h
  have harity := arity_le_length hclaim
  have hparts := flatMap_splitOn a.parts
  rw [← a.splitOn_rest] at hparts
  have hself := hparts.2 (by omega)
  refine ⟨fun part hmem => ?_, by omega⟩
  rw [← hself] at hmem
  exact Text.notMem_of_mem_splitOn hmem

theorem splitOn_rest_of_unsplit {a : Address} (h : a.Unsplit) :
    a.rest.toList.splitOn '/' = a.parts := by
  rw [a.rest_eq, splitOn_text a.parts_ne_nil h.slash]

theorem handled_of_unsplit {a : Address} (hclaim : a.OfClaim) (h : a.Unsplit) :
    handledAddress a.kind a.project a.region a.rest = some a := by
  have hrest := splitOn_rest_of_unsplit h
  have hlength := h.length
  cases a with
  | describe project region environment deploymentId =>
      simp only [parts, arity, OfClaim, List.length_append] at hrest hlength hclaim
      change (deploymentPath _).toOption.map _ = _
      rw [deploymentPath_of_splitOn hclaim.1 (by omega) hrest]
      rfl
  | plan project region environment deploymentId jobId =>
      simp only [parts, arity, OfClaim, List.length_append, List.length_singleton]
        at hrest hlength hclaim
      change (planPath _).toOption.map _ = _
      rw [planPath_of_splitOn hclaim.1 (by omega) hrest]
      rfl
  | events project region environment deploymentId =>
      simp only [parts, arity, OfClaim, List.length_append] at hrest hlength hclaim
      change (deploymentPath _).toOption.map _ = _
      rw [deploymentPath_of_splitOn hclaim.1 (by omega) hrest]
      rfl
  | changeRecord project region environment deploymentId jobId changeType =>
      simp only [parts, arity, OfClaim, List.length_append, List.length_cons, List.length_nil]
        at hrest hlength hclaim
      change (changeRecordPath _).toOption.map _ = _
      rw [changeRecordPath_of_splitOn hclaim.1 (by omega) hrest]
      rfl
  | jobStatus project region jobId =>
      have hslash : '/' ∉ jobId.toList := h.slash _ List.mem_cons_self
      have htrim : jobId.toList.dropWhile (· == '/') = jobId.toList := by
        rw [List.dropWhile_eq_self_iff]
        intro hpos hhead
        refine hslash ?_
        rw [← beq_iff_eq.1 hhead]
        exact List.getElem_mem hpos
      change some (jobStatus project region (.ofList (jobId.toList.dropWhile (· == '/')))) = _
      rw [htrim, String.ofList_toList]

end Address

/-! ## Clean requests -/

namespace Address

/-- All parts of the request stand for themselves. -/
structure Clean (a : Address) : Prop where
  project : IsSegment a.project.toList ∧ a.project ≠ ""
  region : IsSegment a.region.toList ∧ a.region ≠ ""
  parts : ∀ part ∈ a.parts, IsSegment part
  length : a.parts.length = a.arity
  rest : a.rest ≠ "" ∧ EndsPlainly a.rest.toList

theorem Clean.unsplit {a : Address} (h : a.Clean) : a.Unsplit :=
  ⟨fun part hmem => (h.parts part hmem).slash, h.length⟩

/-- The segments of the whole path. -/
def segments (a : Address) : List (List Char) :=
  "api".toList :: "v1".toList :: a.kind.toList :: a.project.toList :: a.region.toList :: a.parts

theorem segments_ne_nil (a : Address) : a.segments ≠ [] :=
  List.cons_ne_nil _ _

theorem drop_path_eq_text (a : Address) : a.path.toList.drop 1 = text a.segments :=
  a.drop_path_of_rest a.parts_ne_nil a.rest_eq

theorem Clean.isSegment {a : Address} (h : a.Clean) :
    ∀ segment ∈ a.segments, IsSegment segment := by
  unfold segments
  simp only [List.forall_mem_cons]
  exact ⟨by decide, by decide, a.isSegment_kind, h.project.1, h.region.1, h.parts⟩

theorem Clean.splitOn_path {a : Address} (h : a.Clean) :
    (a.path.toList.drop 1).splitOn '/' = a.segments := by
  rw [a.drop_path_eq_text]
  exact splitOn_text (List.cons_ne_nil _ _) fun segment hmem => (h.isSegment segment hmem).slash

theorem Clean.arrives {a : Address} (hclaim : a.OfClaim) (h : a.Clean) : Arrives a := by
  refine ⟨⟨?_, a.endsPlainly_drop_path.2 h.rest.2, ?_⟩, ?_, ?_, ⟨h.rest.1, ?_⟩,
    handled_of_unsplit hclaim h.unsplit⟩
  · rw [a.drop_path_eq_text]
    exact (forall_mem_text (by decide)).2 fun segment hmem => (h.isSegment segment hmem).chars
  · rw [h.splitOn_path]
    exact fun segment hmem => (h.isSegment segment hmem).dotless
  · exact ⟨h.project.1.slash, h.project.2, h.project.1.escape⟩
  · exact ⟨h.region.1.slash, h.region.2, h.region.1.escape⟩
  · rw [splitOn_rest_of_unsplit h.unsplit]
    exact fun part hmem => (h.parts part hmem).escape

theorem clean_of_arrives {a : Address} (hclaim : a.OfClaim) (hkind : a.kind ≠ "job_status")
    (h : Arrives a) : a.Clean := by
  have hunsplit := unsplit_of_handled hclaim hkind h.handled
  have hsegments : ∀ segment ∈ a.segments, '/' ∉ segment := by
    unfold segments
    simp only [List.forall_mem_cons]
    exact ⟨by decide, by decide, a.isSegment_kind.slash, h.project.1, h.region.1, hunsplit.slash⟩
  have hsplit : (a.path.toList.drop 1).splitOn '/' = a.segments := by
    rw [a.drop_path_eq_text]
    exact splitOn_text (List.cons_ne_nil _ _) hsegments
  have hchars := h.plain.chars
  rw [a.drop_path_eq_text] at hchars
  have hplain := (forall_mem_text (by decide)).1 hchars
  have hdotless := h.plain.segments
  rw [hsplit] at hdotless
  have hescapes := h.rest.2
  rw [splitOn_rest_of_unsplit hunsplit] at hescapes
  have hproject : a.project.toList ∈ a.segments := by simp [segments]
  have hregion : a.region.toList ∈ a.segments := by simp [segments]
  have hparts : ∀ part ∈ a.parts, part ∈ a.segments := fun part hmem => by simp [segments, hmem]
  exact
    { project :=
        ⟨⟨h.project.1, hplain _ hproject, hdotless _ hproject, h.project.2.2⟩, h.project.2.1⟩
      region := ⟨⟨h.region.1, hplain _ hregion, hdotless _ hregion, h.region.2.2⟩, h.region.2.1⟩
      parts := fun part hmem => ⟨hunsplit.slash part hmem, hplain _ (hparts part hmem),
        hdotless _ (hparts part hmem), hescapes part hmem⟩
      length := hunsplit.length
      rest := ⟨h.rest.1, a.endsPlainly_drop_path.1 h.plain.ends⟩ }

theorem arity_eq_of_kind_eq {a b : Address} (h : a.kind = b.kind) : a.arity = b.arity := by
  have harity : ∀ a : Address, a.arity =
      if a.kind = "plan" then 5 else if a.kind = "change_record" then 6
        else if a.kind = "job_status" then 1 else 4 := by
    intro a
    cases a <;> rfl
  rw [harity, harity, h]

theorem splitOn_injective {s s' : String} (h : s.toList.splitOn '/' = s'.toList.splitOn '/') :
    s = s' := by
  refine String.ext ?_
  calc
    s.toList = ['/'].intercalate (s.toList.splitOn '/') := (List.intercalate_splitOn '/').symm
    _ = ['/'].intercalate (s'.toList.splitOn '/') := by rw [h]
    _ = s'.toList := List.intercalate_splitOn '/'

/-- A request can be told from its kind and its parts. -/
theorem eq_of_parts_eq {a b : Address} (ha : a.OfClaim) (hb : b.OfClaim) (hkind : b.kind = a.kind)
    (hproject : b.project = a.project) (hregion : b.region = a.region)
    (hparts : b.parts = a.parts) : b = a := by
  cases a with
  | describe project region environment deploymentId =>
      cases b with
      | describe project' region' environment' deploymentId' =>
          have hjoined := List.append_inj hparts (hb.1.trans ha.1.symm)
          obtain rfl := splitOn_injective hjoined.1
          obtain rfl := splitOn_injective hjoined.2
          obtain rfl : project' = project := hproject
          obtain rfl : region' = region := hregion
          rfl
      | _ => exact absurd hkind (by simp [kind])
  | plan project region environment deploymentId jobId =>
      cases b with
      | plan project' region' environment' deploymentId' jobId' =>
          have hjob := List.append_inj' hparts rfl
          have hjoined := List.append_inj hjob.1 (hb.1.trans ha.1.symm)
          obtain rfl := splitOn_injective hjoined.1
          obtain rfl := splitOn_injective hjoined.2
          obtain rfl : jobId' = jobId := String.ext (List.cons.inj hjob.2).1
          obtain rfl : project' = project := hproject
          obtain rfl : region' = region := hregion
          rfl
      | _ => exact absurd hkind (by simp [kind])
  | events project region environment deploymentId =>
      cases b with
      | events project' region' environment' deploymentId' =>
          have hjoined := List.append_inj hparts (hb.1.trans ha.1.symm)
          obtain rfl := splitOn_injective hjoined.1
          obtain rfl := splitOn_injective hjoined.2
          obtain rfl : project' = project := hproject
          obtain rfl : region' = region := hregion
          rfl
      | _ => exact absurd hkind (by simp [kind])
  | changeRecord project region environment deploymentId jobId changeType =>
      cases b with
      | changeRecord project' region' environment' deploymentId' jobId' changeType' =>
          have hjob := List.append_inj' hparts rfl
          have hjoined := List.append_inj hjob.1 (hb.1.trans ha.1.symm)
          obtain rfl := splitOn_injective hjoined.1
          obtain rfl := splitOn_injective hjoined.2
          have hlast := List.cons.inj hjob.2
          obtain rfl : jobId' = jobId := String.ext hlast.1
          obtain rfl : changeType' = changeType := String.ext (List.cons.inj hlast.2).1
          obtain rfl : project' = project := hproject
          obtain rfl : region' = region := hregion
          rfl
      | _ => exact absurd hkind (by simp [kind])
  | jobStatus project region jobId =>
      cases b with
      | jobStatus project' region' jobId' =>
          obtain rfl : jobId' = jobId := String.ext (List.cons.inj hparts).1
          obtain rfl : project' = project := hproject
          obtain rfl : region' = region := hregion
          rfl
      | _ => exact absurd hkind (by simp [kind])

/-- No other request has the path of a clean one. -/
theorem Clean.eq_of_path_eq {a b : Address} (h : a.Clean) (ha : a.OfClaim) (hb : b.OfClaim)
    (hpath : b.path = a.path) : b = a := by
  have hsegments : a.segments = b.segments.flatMap (·.splitOn '/') := by
    rw [← h.splitOn_path, ← hpath, b.drop_path_eq_text, splitOn_text_eq_flatMap b.segments_ne_nil]
  have hsplit : b.segments.flatMap (·.splitOn '/') = "api".toList :: "v1".toList ::
      b.kind.toList :: (b.project.toList :: b.region.toList :: b.parts).flatMap
        (·.splitOn '/') := by
    unfold segments
    rw [List.flatMap_cons, List.flatMap_cons, List.flatMap_cons,
      List.splitOn_eq_singleton b.isSegment_kind.slash]
    rfl
  have htail := hsegments.trans hsplit
  unfold segments at htail
  simp only [List.cons.injEq, true_and] at htail
  have hkind : b.kind = a.kind := String.ext htail.1.symm
  -- The path of `a` has no more segments than `b` has parts, so no part of `b` is split.
  have hflat := flatMap_splitOn (b.project.toList :: b.region.toList :: b.parts)
  have harity := arity_eq_of_kind_eq hkind
  have hlength := h.length
  have hle := arity_le_length hb
  rw [← htail.2] at hflat
  simp only [List.length_cons] at hflat
  have hself := hflat.2 (by omega)
  simp only [List.cons.injEq] at hself
  exact eq_of_parts_eq ha hb hkind (String.ext hself.1.symm) (String.ext hself.2.1.symm)
    hself.2.2.symm

end Address

/-! ## Deployments of claims -/

/-- The requests about a deployment. -/
def deploymentAddresses (project region environment deploymentId jobId changeType : String) :
    List Address :=
  [.describe project region environment deploymentId,
    .plan project region environment deploymentId jobId,
    .events project region environment deploymentId,
    .changeRecord project region environment deploymentId jobId changeType,
    .jobStatus project region jobId]

/-- What names a deployment stands for itself in a path. -/
structure Addressable (project region environment module name jobId changeType : String) :
    Prop where
  project : IsSegment project.toList ∧ project ≠ ""
  region : IsSegment region.toList ∧ region ≠ ""
  environment : ∀ part ∈ environment.toList.splitOn '/', IsSegment part
  module : IsSegment module.toList
  name : IsSegment name.toList ∧ EndsPlainly name.toList
  jobId : IsSegment jobId.toList ∧ EndsPlainly jobId.toList ∧ jobId ≠ ""
  changeType : IsSegment changeType.toList ∧ EndsPlainly changeType.toList

theorem toList_joined (s s' : String) : (s ++ "/" ++ s').toList = s.toList ++ '/' :: s'.toList := by
  simp

theorem splitOn_joined (s s' : String) : (s ++ "/" ++ s').toList.splitOn '/' =
    s.toList.splitOn '/' ++ s'.toList.splitOn '/' := by
  rw [toList_joined, List.splitOn_append_cons_self]

theorem endsPlainly_joined (s s' : String) :
    EndsPlainly (s ++ "/" ++ s').toList ↔ EndsPlainly s'.toList := by
  rw [toList_joined, endsPlainly_append_slash]

theorem ofClaim_of_mem {project region environment module name jobId changeType : String}
    (henvironment : (environment.toList.splitOn '/').length = 2) :
    ∀ a ∈ deploymentAddresses project region environment (module ++ "/" ++ name) jobId changeType,
      a.OfClaim := by
  have hmodule := List.length_pos_of_ne_nil (List.splitOn_ne_nil '/' module.toList)
  have hname := List.length_pos_of_ne_nil (List.splitOn_ne_nil '/' name.toList)
  have hdeployment : 2 ≤ ((module ++ "/" ++ name).toList.splitOn '/').length := by
    rw [splitOn_joined, List.length_append]
    omega
  simp only [deploymentAddresses, List.forall_mem_cons]
  exact ⟨⟨henvironment, hdeployment⟩, ⟨henvironment, hdeployment⟩, ⟨henvironment, hdeployment⟩,
    ⟨henvironment, hdeployment⟩, trivial, by simp⟩

theorem Addressable.clean {project region environment module name jobId changeType : String}
    (henvironment : (environment.toList.splitOn '/').length = 2)
    (h : Addressable project region environment module name jobId changeType) :
    ∀ a ∈ deploymentAddresses project region environment (module ++ "/" ++ name) jobId changeType,
      a.Clean := by
  have hdeployment : (module ++ "/" ++ name).toList.splitOn '/' = [module.toList, name.toList] := by
    rw [splitOn_joined, List.splitOn_eq_singleton h.module.slash,
      List.splitOn_eq_singleton h.name.1.slash]
    rfl
  have hparts : ∀ part ∈ environment.toList.splitOn '/' ++
      (module ++ "/" ++ name).toList.splitOn '/', IsSegment part := by
    rw [hdeployment, List.forall_mem_append]
    exact ⟨h.environment, by simpa using ⟨h.module, h.name.1⟩⟩
  have hlength : (environment.toList.splitOn '/' ++
      (module ++ "/" ++ name).toList.splitOn '/').length = 4 := by
    rw [List.length_append, henvironment, hdeployment]
    rfl
  have hends : EndsPlainly (environment ++ "/" ++ (module ++ "/" ++ name)).toList :=
    (endsPlainly_joined _ _).2 ((endsPlainly_joined _ _).2 h.name.2)
  have hjoined : ∀ s s' : String, s ++ "/" ++ s' ≠ "" := by
    intro s s' hempty
    simpa using congrArg String.toList hempty
  simp only [deploymentAddresses, List.forall_mem_cons]
  refine ⟨?_, ?_, ?_, ?_, ?_, by simp⟩
  · exact ⟨h.project, h.region, hparts, hlength, hjoined _ _, hends⟩
  · refine ⟨h.project, h.region, ?_, ?_, hjoined _ _, (endsPlainly_joined _ _).2 h.jobId.2.1⟩
    · exact List.forall_mem_append.2 ⟨hparts, by simpa using h.jobId.1⟩
    · rw [Address.parts, List.length_append, hlength]
      rfl
  · exact ⟨h.project, h.region, hparts, hlength, hjoined _ _, hends⟩
  · refine ⟨h.project, h.region, ?_, ?_, hjoined _ _, (endsPlainly_joined _ _).2 h.changeType.2⟩
    · exact List.forall_mem_append.2 ⟨hparts, by simpa using ⟨h.jobId.1, h.changeType.1⟩⟩
    · rw [Address.parts, List.length_append, hlength]
      rfl
  · exact ⟨h.project, h.region, by simpa [Address.parts] using h.jobId.1, rfl, h.jobId.2.2,
      h.jobId.2.1⟩

theorem addressable_of_arrives {project region environment module name jobId changeType : String}
    (henvironment : (environment.toList.splitOn '/').length = 2)
    (h : ∀ a ∈ deploymentAddresses project region environment (module ++ "/" ++ name) jobId
      changeType, Arrives a) :
    Addressable project region environment module name jobId changeType := by
  have hclaim : ∀ a ∈ deploymentAddresses project region environment (module ++ "/" ++ name) jobId
      changeType, a.OfClaim := ofClaim_of_mem henvironment
  simp only [deploymentAddresses, List.forall_mem_cons] at h hclaim
  have hdescribe := Address.clean_of_arrives hclaim.1 (by simp [Address.kind]) h.1
  have hplan := Address.clean_of_arrives hclaim.2.1 (by simp [Address.kind]) h.2.1
  have hchange := Address.clean_of_arrives hclaim.2.2.2.1 (by simp [Address.kind]) h.2.2.2.1
  have hlength := hdescribe.length
  have hmodule := Text.length_splitOn '/' module.toList
  have hname := Text.length_splitOn '/' name.toList
  simp only [Address.parts, Address.arity, splitOn_joined, List.length_append] at hlength
  have hslash : '/' ∉ module.toList := List.count_eq_zero.1 (by omega)
  have hslash' : '/' ∉ name.toList := List.count_eq_zero.1 (by omega)
  have hparts := hchange.parts
  simp only [Address.parts, splitOn_joined, List.splitOn_eq_singleton hslash,
    List.splitOn_eq_singleton hslash', List.forall_mem_append, List.forall_mem_cons] at hparts
  exact
    { project := hdescribe.project
      region := hdescribe.region
      environment := hparts.1.1
      module := hparts.1.2.1.1
      name := ⟨hparts.1.2.2.1,
        (endsPlainly_joined _ _).1 ((endsPlainly_joined _ _).1 hdescribe.rest.2)⟩
      jobId := ⟨hparts.2.1, (endsPlainly_joined _ _).1 hplan.rest.2, h.2.2.2.2.1.rest.1⟩
      changeType := ⟨hparts.2.2.1, (endsPlainly_joined _ _).1 hchange.rest.2⟩ }

/-! ## Accepted claims -/

theorem length_splitOn_of_isName {environment : String}
    (h : EnvCommon.isName ("/".intercalate ((split '/' environment).drop 1)) = true) :
    (environment.toList.splitOn '/').length = 2 := by
  have hjoined : ("/".intercalate ((split '/' environment).drop 1)).toList =
      ['/'].intercalate ((environment.toList.splitOn '/').drop 1) := by
    rw [String.toList_intercalate, split, ← List.map_drop, List.map_map]
    simp [Function.comp_def]
  cases hparts : environment.toList.splitOn '/' with
  | nil => exact absurd hparts (List.splitOn_ne_nil _ _)
  | cons launcher rest =>
      rw [hparts, List.drop_succ_cons, List.drop_zero] at hjoined
      cases rest with
      | nil =>
          rw [String.toList_eq_nil_iff.1 hjoined] at h
          cases h
      | cons part rest =>
          cases rest with
          | nil => rfl
          | cons next rest =>
              -- A name has no slash.
              have hmem : '/' ∈ ("/".intercalate ((split '/' environment).drop 1)).toList := by
                rw [hjoined, List.intercalate_cons_cons]
                simp
              exact absurd (EnvCommon.mem_isName h hmem) (by decide)

/-- The requests about the deployment of a claim. -/
def claimAddresses (payload : ApiInfraPayload) (jobId changeType : String) :
    List Address :=
  deploymentAddresses payload.projectId payload.region payload.environment payload.deploymentId
    jobId changeType

/-- Every request arrives at its handler with its own values, and no other request about a
deployment of a claim has its path. -/
structure Faithful (d : Decoder) (payload : ApiInfraPayload)
    (jobId changeType : String) : Prop where
  routed : ∀ a ∈ claimAddresses payload jobId changeType, routeAddress d a.path = some a
  distinct : ∀ a ∈ claimAddresses payload jobId changeType,
    ∀ (r : ClaimRequest) (deploymentId : String)
      (prepared : ApiInfraPayloadWithVariables),
      r.prepare = .ok (deploymentId, prepared) → ∀ jobId' changeType' : String,
        ∀ b ∈ claimAddresses prepared.payload jobId' changeType', b.path = a.path → b = a

section

variable {r : ClaimRequest} {deploymentId : String}
  {prepared : ApiInfraPayloadWithVariables}

theorem claimAddresses_eq (h : r.prepare = .ok (deploymentId, prepared))
    (jobId changeType : String) : claimAddresses prepared.payload jobId changeType =
      deploymentAddresses r.handler.projectId r.claim.spec.region r.environment
        (r.services.toLowercase r.claim.kind ++ "/" ++ r.claim.metadata.name) jobId changeType := by
  rcases ClaimRequest.accepted h with ⟨_, _, haccepted⟩
  rw [claimAddresses, haccepted.projectId, haccepted.region, haccepted.environment,
    haccepted.deploymentId]
  rfl

theorem length_environment (h : r.prepare = .ok (deploymentId, prepared)) :
    (r.environment.toList.splitOn '/').length = 2 := by
  rcases ClaimRequest.accepted h with ⟨_, _, haccepted⟩
  exact length_splitOn_of_isName haccepted.validNamespace

theorem ofClaim_claimAddresses (h : r.prepare = .ok (deploymentId, prepared))
    (jobId changeType : String) : ∀ a ∈ claimAddresses prepared.payload jobId changeType,
      a.OfClaim := by
  rw [claimAddresses_eq h]
  exact ofClaim_of_mem (length_environment h)

theorem addressable_of_faithful {d : Decoder} (h : r.prepare = .ok (deploymentId, prepared))
    {jobId changeType : String} (hfaithful : Faithful d prepared.payload jobId changeType) :
    Addressable r.handler.projectId r.claim.spec.region r.environment
      (r.services.toLowercase r.claim.kind) r.claim.metadata.name jobId changeType := by
  refine addressable_of_arrives (length_environment h) fun a hmem => ?_
  rw [← claimAddresses_eq h] at hmem
  exact (routeAddress_path_iff d a).1 (hfaithful.routed a hmem)

/-- The requests about a deployment are faithful if and only if what names it needs no encoding. -/
theorem faithful_iff_addressable (d : Decoder) (h : r.prepare = .ok (deploymentId, prepared))
    (jobId changeType : String) :
    Faithful d prepared.payload jobId changeType ↔
      Addressable r.handler.projectId r.claim.spec.region r.environment
        (r.services.toLowercase r.claim.kind) r.claim.metadata.name jobId changeType := by
  refine ⟨addressable_of_faithful h, fun haddressable => ?_⟩
  have hclean := haddressable.clean (length_environment h)
  rw [← claimAddresses_eq h] at hclean
  have hclaim := ofClaim_claimAddresses h jobId changeType
  refine ⟨fun a hmem => ?_, fun a hmem r' id' prepared' h' jobId' changeType' b hb hpath => ?_⟩
  · exact (routeAddress_path_iff d a).2 ((hclean a hmem).arrives (hclaim a hmem))
  · exact (hclean a hmem).eq_of_path_eq (hclaim a hmem) (ofClaim_claimAddresses h' _ _ b hb) hpath

end

theorem faithful_webClaim : ∃ id prepared,
    (EnvCommon.webClaim "a" "eu-central-1" "cli/default").prepare = .ok (id, prepared) ∧
      Faithful .literal prepared.payload "job-1" "PLAN" := by
  obtain ⟨id, prepared, h⟩ : ∃ id prepared,
      (EnvCommon.webClaim "a" "eu-central-1" "cli/default").prepare = .ok (id, prepared) :=
    EnvCommon.exists_prepare (by decide +kernel)
  refine ⟨id, prepared, h, (faithful_iff_addressable .literal h "job-1" "PLAN").2 ?_⟩
  exact
    { project := by decide
      region := by decide
      environment := by decide
      module := by decide
      name := by decide
      jobId := by decide
      changeType := by decide }

/-- A name may have a slash, and the handlers take another number of segments then. -/
theorem not_faithful_webClaim : ∃ id prepared,
    (EnvCommon.webClaim "blue/green" "eu-central-1" "cli/default").prepare = .ok (id, prepared) ∧
      ¬ Faithful .literal prepared.payload "job-1" "PLAN" := by
  obtain ⟨id, prepared, h⟩ : ∃ id prepared,
      (EnvCommon.webClaim "blue/green" "eu-central-1" "cli/default").prepare = .ok (id, prepared) :=
    EnvCommon.exists_prepare (by decide +kernel)
  refine ⟨id, prepared, h, fun hfaithful => ?_⟩
  exact absurd (addressable_of_faithful h hfaithful).name.1 (by decide)

end InternalApi
end InfraWeave
