import InfraWeave.InternalApi.HttpRouter

/-!
# Which projects a request reaches

`Hands act projects` says that `act` hands out exactly the workload accounts in `projects`; it is
computed for every route from the path and the query string.  Comparing that with what the
middleware checked gives the exact condition for a request to stay inside the caller's projects.
-/

namespace InfraWeave
namespace InternalApi

open Text

/-! ## Accounts handed out by a computation -/

section
variable {α β : Type} {projects : List String}

def HandsWithin (act : StateM Accounts α) (projects : List String) : Prop :=
  ∀ before, ∃ handed, (act.run before).2 = before ++ handed ∧ ∀ p ∈ handed, p ∈ projects

def Hands (act : StateM Accounts α) (projects : List String) : Prop :=
  ∀ before, ∃ handed, (act.run before).2 = before ++ handed ∧ ∀ p, p ∈ handed ↔ p ∈ projects

theorem Hands.within {act : StateM Accounts α} (h : Hands act projects) :
    HandsWithin act projects := by
  intro before
  rcases h before with ⟨handed, hrun, hmem⟩
  exact ⟨handed, hrun, fun p hp => (hmem p).1 hp⟩

theorem hands_pure (a : α) : Hands (pure a) [] := by
  intro before
  exact ⟨[], (List.append_nil before).symm, by simp⟩

theorem handsWithin_pure (a : α) : HandsWithin (pure a) projects := by
  intro before
  exact ⟨[], (List.append_nil before).symm, by simp⟩

theorem run_bind_snd (x : StateM Accounts α) (f : α → StateM Accounts β) (before : Accounts) :
    ((x >>= f).run before).2 = ((f (x.run before).1).run (x.run before).2).2 := rfl

theorem HandsWithin.bind {x : StateM Accounts α} {f : α → StateM Accounts β}
    (hx : HandsWithin x projects) (hf : ∀ a, HandsWithin (f a) projects) :
    HandsWithin (x >>= f) projects := by
  intro before
  rcases hx before with ⟨first, hfirst, hmem⟩
  rcases hf (x.run before).1 (before ++ first) with ⟨second, hsecond, hmem'⟩
  refine ⟨first ++ second, ?_, ?_⟩
  · rw [run_bind_snd, hfirst, hsecond, List.append_assoc]
  · intro p hp
    rcases List.mem_append.1 hp with hp | hp
    · exact hmem p hp
    · exact hmem' p hp

theorem Hands.append {x : StateM Accounts α} {f : α → StateM Accounts β} {more : List String}
    (hx : Hands x projects) (hf : ∀ a, Hands (f a) more) : Hands (x >>= f) (projects ++ more) := by
  intro before
  rcases hx before with ⟨first, hfirst, hmem⟩
  rcases hf (x.run before).1 (before ++ first) with ⟨second, hsecond, hmem'⟩
  refine ⟨first ++ second, ?_, ?_⟩
  · rw [run_bind_snd, hfirst, hsecond, List.append_assoc]
  · intro p
    rw [List.mem_append, List.mem_append, hmem p, hmem' p]

theorem Hands.bind {x : StateM Accounts α} {f : α → StateM Accounts β}
    (hx : Hands x projects) (hf : ∀ a, HandsWithin (f a) projects) : Hands (x >>= f) projects := by
  intro before
  rcases hx before with ⟨first, hfirst, hmem⟩
  rcases hf (x.run before).1 (before ++ first) with ⟨second, hsecond, hmem'⟩
  refine ⟨first ++ second, ?_, ?_⟩
  · rw [run_bind_snd, hfirst, hsecond, List.append_assoc]
  · intro p
    rw [List.mem_append, hmem p]
    exact ⟨fun h => h.elim id (hmem' p), .inl⟩

end

/-! ## Handlers -/

section
variable {α β : Type} {projects : List String}

theorem handsWithin_reply (x : Except String α) : HandsWithin (reply x).run projects :=
  handsWithin_pure x

@[simp] theorem reply_ok_bind (a : α) (f : α → Handler β) : reply (.ok a) >>= f = f a := rfl

theorem handsWithin_get : HandsWithin (get : Handler Accounts).run projects := by
  intro before
  exact ⟨[], (List.append_nil before).symm, by simp⟩

theorem HandsWithin.handlerBind {x : Handler α} {f : α → Handler β}
    (hx : HandsWithin x.run projects) (hf : ∀ a, HandsWithin (f a).run projects) :
    HandsWithin (x >>= f).run projects := by
  rw [ExceptT.run_bind]
  refine hx.bind fun result => ?_
  cases result with
  | ok a => exact hf a
  | error e => exact handsWithin_pure _

theorem Hands.handlerBind {x : Handler α} {f : α → Handler β} (hx : Hands x.run projects)
    (hf : ∀ a, HandsWithin (f a).run projects) : Hands (x >>= f).run projects := by
  rw [ExceptT.run_bind]
  refine hx.bind fun result => ?_
  cases result with
  | ok a => exact hf a
  | error e => exact handsWithin_pure _

theorem hands_adapt {x : Handler α} (f : String → String) (hx : Hands x.run projects) :
    Hands (ExceptT.adapt f x).run projects :=
  Hands.bind hx fun _ => handsWithin_pure _

theorem hands_withWorkloadAccount {account : String} {future : Handler α}
    (h : HandsWithin future.run [account]) :
    Hands (withWorkloadAccount account future).run [account] := by
  intro before
  rcases h (before ++ [account]) with ⟨handed, hrun, hmem⟩
  refine ⟨[account] ++ handed, ?_, ?_⟩
  · have hstep : ((withWorkloadAccount account future).run.run before).2 =
        (future.run.run (before ++ [account])).2 := rfl
    rw [hstep, hrun, List.append_assoc]
  · intro p
    rw [List.mem_append]
    exact ⟨fun h => h.elim id (hmem p), .inl⟩

theorem hands_queryWorkloadAccount {db : Backend} {account container : String} {query : Query}
    {region : Option String} :
    Hands (queryWorkloadAccount db account container query region).run [account] :=
  hands_withWorkloadAccount (handsWithin_get.handlerBind fun _ => handsWithin_reply _)

theorem hands_queryAllForWorkload {codec : Codec} {db : Backend} {account container : String}
    {query : Query} {payload : Json} :
    Hands (queryAllForWorkload codec db account container query payload).run [account] :=
  hands_queryWorkloadAccount

theorem hands_queryOneForWorkload {db : Backend} {account container : String} {query : Query}
    {region : Option String} :
    Hands (queryOneForWorkload db account container query region).run [account] :=
  hands_queryWorkloadAccount.handlerBind fun _ => handsWithin_reply _

theorem hands_joinAll (futures : String → Handler α)
    (h : ∀ project, Hands (futures project).run [project]) (projects : List String) :
    Hands (joinAll (projects.map futures)).run projects := by
  induction projects with
  | nil => exact hands_pure _
  | cons project projects ih =>
      refine @Hands.append _ _ [project] _ _ projects (h project) fun result => ?_
      exact ih.bind fun results => handsWithin_pure _

end

/-! ## The queries -/

section
variable {codec : Codec} {db : Backend} {payload : Json} {project : String}

theorem hands_describeDeploymentImpl (qb : String → String → String → String → Bool → Query)
    {region deploymentId environment : String}
    (hproject : getParam payload "project" = .ok project)
    (hregion : getParam payload "region" = .ok region)
    (hdeployment : getParam payload "deployment_id" = .ok deploymentId)
    (henvironment : getParam payload "environment" = .ok environment) :
    Hands (describeDeploymentImpl db payload qb).run [project] := by
  simp only [describeDeploymentImpl, hproject, hregion, hdeployment, henvironment, reply_ok_bind]
  refine (hands_adapt _ hands_queryOneForWorkload).handlerBind fun record => ?_
  exact handsWithin_get.handlerBind fun _ => handsWithin_pure _

theorem hands_getPlanDeploymentImpl
    (qb : String → String → String → String → String → Query)
    {region deploymentId environment jobId : String}
    (hproject : getParam payload "project" = .ok project)
    (hregion : getParam payload "region" = .ok region)
    (hdeployment : getParam payload "deployment_id" = .ok deploymentId)
    (henvironment : getParam payload "environment" = .ok environment)
    (hjob : getParam payload "job_id" = .ok jobId) :
    Hands (getPlanDeploymentImpl db payload qb).run [project] := by
  simp only [getPlanDeploymentImpl, hproject, hregion, hdeployment, henvironment, hjob,
    reply_ok_bind]
  refine (hands_adapt _ hands_queryOneForWorkload).handlerBind fun record => ?_
  exact handsWithin_get.handlerBind fun _ => handsWithin_pure _

theorem hands_queryProjects (query : String → Query) (projects : List String) :
    Hands (queryProjects codec db (projects.map .string) query payload).run projects := by
  have hstrings : (projects.map Json.string).filterMap Json.asStr = projects := by
    induction projects with
    | nil => rfl
    | cons project projects ih => simp [Json.asStr, ih]
  simp only [queryProjects, hstrings]
  have hall := hands_joinAll
    (fun project => queryAllForWorkload codec db project "deployments" (query project) payload)
    (fun project => hands_queryAllForWorkload) projects
  exact Hands.handlerBind (Hands.bind hall fun _ => handsWithin_pure _) fun _ =>
    handsWithin_reply _

theorem hands_getDeploymentsImpl (codec : Codec) (db : Backend) (project : String)
    (qb : String → String → String → Bool → Query) {region : String}
    (hregion : getParam payload "region" = .ok region) :
    (∀ projects : List String, payload.get? "projects" = some (.array (projects.map .string)) →
      Hands (getDeploymentsImpl codec db payload qb).run projects) ∧
    (payload.get? "projects" = none → getParam payload "project" = .ok project →
      Hands (getDeploymentsImpl codec db payload qb).run [project]) := by
  constructor
  · intro projects hprojects
    simp only [getDeploymentsImpl, hregion, reply_ok_bind, hprojects, Option.bind_some,
      Json.asArray]
    exact hands_queryProjects _ projects
  · intro hprojects hproject
    simp only [getDeploymentsImpl, hregion, reply_ok_bind, hprojects, Option.bind_none, hproject]
    exact hands_queryAllForWorkload

theorem hands_getDeploymentsForModuleImpl (codec : Codec) (db : Backend) (project : String)
    (qb : String → String → String → String → Bool → Query) {region module : String}
    (hregion : getParam payload "region" = .ok region)
    (hmodule : getParam payload "module" = .ok module) :
    (∀ projects : List String, payload.get? "projects" = some (.array (projects.map .string)) →
      Hands (getDeploymentsForModuleImpl codec db payload qb).run projects) ∧
    (payload.get? "projects" = none → getParam payload "project" = .ok project →
      Hands (getDeploymentsForModuleImpl codec db payload qb).run [project]) := by
  constructor
  · intro projects hprojects
    simp only [getDeploymentsForModuleImpl, hregion, hmodule, reply_ok_bind, hprojects,
      Option.bind_some, Json.asArray]
    exact hands_queryProjects _ projects
  · intro hprojects hproject
    simp only [getDeploymentsForModuleImpl, hregion, hmodule, reply_ok_bind, hprojects,
      Option.bind_none, hproject]
    exact hands_queryAllForWorkload

theorem hands_getEventsImpl
    (qb : String → String → String → String → Option String → Query)
    {region deploymentId environment : String}
    (hproject : getParam payload "project" = .ok project)
    (hregion : getParam payload "region" = .ok region)
    (hdeployment : getParam payload "deployment_id" = .ok deploymentId)
    (henvironment : getParam payload "environment" = .ok environment) :
    Hands (getEventsImpl codec db payload qb).run [project] := by
  simp only [getEventsImpl, hproject, hregion, hdeployment, henvironment, reply_ok_bind]
  exact hands_queryAllForWorkload

theorem hands_getChangeRecordsImpl (qb : String → String → String → String → String → Query)
    {region deploymentId environment changeType : String}
    (hproject : getParam payload "project" = .ok project)
    (hregion : getParam payload "region" = .ok region)
    (hdeployment : getParam payload "deployment_id" = .ok deploymentId)
    (henvironment : getParam payload "environment" = .ok environment)
    (hchange : getParam payload "change_type" = .ok changeType) :
    Hands (getChangeRecordsImpl codec db payload qb).run [project] := by
  simp only [getChangeRecordsImpl, hproject, hregion, hdeployment, henvironment, hchange,
    reply_ok_bind]
  exact hands_queryAllForWorkload

theorem hands_getDeploymentHistoryImpl (plansQb deletedQb : String → String → Option String → Query)
    {region historyType : String} (hproject : getParam payload "project" = .ok project)
    (hregion : getParam payload "region" = .ok region)
    (htype : getParam payload "type" = .ok historyType) :
    Hands (getDeploymentHistoryImpl codec db payload plansQb deletedQb).run
      (if historyType = "plans" || historyType = "deleted" then [project] else []) := by
  simp only [getDeploymentHistoryImpl, hproject, hregion, htype, reply_ok_bind]
  by_cases hplans : historyType = "plans"
  · simp only [hplans, if_true, reply_ok_bind, decide_true, Bool.true_or]
    exact hands_queryAllForWorkload.handlerBind fun _ => handsWithin_pure _
  · by_cases hdeleted : historyType = "deleted"
    · simp only [hdeleted, if_true, decide_true, Bool.or_true]
      exact hands_queryAllForWorkload.handlerBind fun _ => handsWithin_pure _
    · simp only [hplans, hdeleted, if_false, decide_false, Bool.or_false, Bool.false_eq_true]
      exact hands_pure _

theorem hands_getChangeRecordImpl
    (qb : String → String → String → String → String → String → Query)
    {region deploymentId environment jobId changeType : String}
    (hproject : getParam payload "project" = .ok project)
    (hregion : getParam payload "region" = .ok region)
    (hdeployment : getParam payload "deployment_id" = .ok deploymentId)
    (henvironment : getParam payload "environment" = .ok environment)
    (hjob : getParam payload "job_id" = .ok jobId)
    (hchange : getParam payload "change_type" = .ok changeType) :
    Hands (getChangeRecordImpl db payload qb).run [project] := by
  simp only [getChangeRecordImpl, hproject, hregion, hdeployment, henvironment, hjob, hchange,
    reply_ok_bind]
  by_cases hplan : normalizeChangeType changeType = "PLAN"
  · rw [if_neg (not_not.2 hplan)]
    exact hands_adapt _ hands_queryOneForWorkload
  · rw [if_pos hplan]
    refine Hands.handlerBind (Hands.bind hands_queryOneForWorkload fun _ => handsWithin_pure _) ?_
    intro result
    cases result with
    | ok changeRecord => exact handsWithin_pure _
    | error e => exact (hands_adapt _ hands_queryOneForWorkload).within

theorem handsWithin_downloadGraph {region contentKey graphKey : String}
    {projects : List String} :
    HandsWithin (downloadGraph db region contentKey graphKey).run projects := by
  refine (handsWithin_reply _).handlerBind fun containerName => ?_
  refine handsWithin_get.handlerBind fun _ => (handsWithin_reply _).handlerBind fun content => ?_
  refine handsWithin_get.handlerBind fun _ => (handsWithin_reply _).handlerBind fun graph => ?_
  split <;> exact handsWithin_pure _

theorem hands_changeRecordGraph (queries : Queries)
    {region deploymentId environment jobId changeType : String}
    (hproject : getParam payload "project" = .ok project)
    (hregion : getParam payload "region" = .ok region)
    (hdeployment : getParam payload "deployment_id" = .ok deploymentId)
    (henvironment : getParam payload "environment" = .ok environment)
    (hjob : getParam payload "job_id" = .ok jobId)
    (hchange : getParam payload "change_type" = .ok changeType) :
    Hands (changeRecordGraph db queries payload).run [project] := by
  simp only [changeRecordGraph, hproject, reply_ok_bind]
  have hrecord : Hands (getChangeRecordImpl db payload queries.getChangeRecordsQuery).run
      [project] :=
    hands_getChangeRecordImpl _ hproject hregion hdeployment henvironment hjob hchange
  refine hands_withWorkloadAccount (hrecord.within.handlerBind fun changeRecord => ?_)
  refine (handsWithin_reply _).handlerBind fun planKey => ?_
  refine (handsWithin_reply _).handlerBind fun graphKey => ?_
  split
  · exact handsWithin_downloadGraph
  · exact handsWithin_pure _

/-- The account is handed out before any other parameter is looked at. -/
theorem hands_deploymentGraph (queries : Queries)
    (hproject : getParam payload "project" = .ok project) :
    Hands (deploymentGraph db queries payload).run [project] := by
  simp only [deploymentGraph, hproject, reply_ok_bind]
  refine hands_withWorkloadAccount ?_
  refine (handsWithin_reply _).handlerBind fun region => ?_
  refine (handsWithin_reply _).handlerBind fun deploymentId => ?_
  refine (handsWithin_reply _).handlerBind fun environment => ?_
  refine (handsWithin_reply _).handlerBind fun jobId => ?_
  refine hands_queryWorkloadAccount.within.handlerBind fun crResp => ?_
  split
  · exact (handsWithin_reply _).handlerBind fun planKey => handsWithin_downloadGraph
  · exact handsWithin_pure _

end

/-! ## Payloads -/

theorem getParam_of_get? {payload : Json} {name value : String}
    (h : payload.get? name = some (.string value)) : getParam payload name = .ok value := by
  simp [getParam, h, Json.asStr]

theorem getParam_ofFields {fields : List (String × Json)} {name value : String}
    (h : fields.reverse.lookup name = some (.string value)) :
    getParam (.ofFields fields) name = .ok value :=
  getParam_of_get? ((Json.get?_ofFields name fields).trans h)

theorem get?_addTo {name : String} (query : PaginationQuery) (payload : Json)
    (hlimit : name ≠ "limit") (htoken : name ≠ "next_token") :
    (query.addTo payload).get? name = payload.get? name := by
  unfold PaginationQuery.addTo
  cases query.limit <;> cases query.nextToken <;> simp [Json.get?_set_of_ne, hlimit, htoken]

theorem getParam_addTo {name : String} (query : PaginationQuery) (payload : Json)
    (hlimit : name ≠ "limit") (htoken : name ≠ "next_token") :
    getParam (query.addTo payload) name = getParam payload name := by
  rw [getParam, get?_addTo query payload hlimit htoken, getParam]

/-- A query parameter replaces the field of its name; the last one wins. -/
theorem get?_mergeParams (name : String) (params : Params) (fields : List (String × Json)) :
    (mergeParams params (.object fields)).get? name =
      match params.reverse.lookup name with
      | some value => some (.string value)
      | none => fields.lookup name := by
  induction params generalizing fields with
  | nil => simp [mergeParams]
  | cons param params ih =>
      rcases param with ⟨key, value⟩
      have hstep : mergeParams ((key, value) :: params) (.object fields) =
          mergeParams params (.object (OrderedMap.insert key (.string value) fields)) := rfl
      rw [hstep, ih, List.reverse_cons, List.lookup_append]
      cases params.reverse.lookup name with
      | some v => rfl
      | none =>
          by_cases h : name = key <;>
            simp [OrderedMap.lookup_insert, OrderedMap.lookup_cons_ite, h]

/-! ## The routes -/

theorem hands_orRespond {α : Type} {x : Except Response α} {next : α → StateM Accounts Response}
    {projects : List String} (h : ∀ a, x = .ok a → Hands (next a) projects) :
    Hands (orRespond x next) (if x.isOk then projects else []) := by
  cases x with
  | ok a => exact h a rfl
  | error response => exact hands_pure response

theorem Hands.respond {handler : Handler Json} {projects : List String}
    (h : Hands handler.run projects) : Hands (respond handler) projects :=
  Hands.bind h fun _ => handsWithin_pure _

theorem Hands.respondGraph {handler : Handler Json} {projects : List String}
    (h : Hands handler.run projects) : Hands (respondGraph handler) projects := by
  refine Hands.bind h fun result => ?_
  cases result <;> exact handsWithin_pure _

/-- The path below the region and the query string are such that the route gets to its query. -/
def reachesQuery (request : ProjectRequest) : Bool :=
  match request.route with
  | .deployment | .deploymentGraph => (deploymentPath request.rest).isOk
  | .deployments | .deploymentsModule => (paginationQuery request.query).isOk
  | .deploymentsHistory =>
      match deploymentHistoryQuery request.query with
      | .ok query => query.type = "plans" || query.type = "deleted"
      | .error _ => false
  | .plan => (planPath request.rest).isOk
  | .events =>
      (paginationQuery request.query).isOk && (optionalField request.query "event_type").isOk &&
        (deploymentPath request.rest).isOk
  | .changeRecords =>
      (paginationQuery request.query).isOk && (requiredField request.query "change_type").isOk &&
        (deploymentPath request.rest).isOk
  | .changeRecord | .changeRecordGraph => (changeRecordPath request.rest).isOk
  | .logs | .jobStatus => false

/-- The `project` parameter of the query string, if there is one. -/
def queryProject (query : Params) : Option String :=
  query.reverse.lookup "project"

/-- The projects a route queries, when it gets to its query. -/
def queriedProjects (request : ProjectRequest) : List String :=
  match request.route with
  | .deployments =>
      if 1 < (projectList request.project).length then projectList request.project
      else [request.project]
  | .deploymentsModule => split ',' request.project
  | .deploymentGraph => [(queryProject request.query).getD request.project]
  | _ => [request.project]

section
variable (api : Api) (project region rest : String) (query : Params)

theorem hands_describeDeployment :
    Hands (describeDeployment api project region rest)
      (if (deploymentPath rest).isOk then [project] else []) := by
  refine hands_orRespond fun path _ => Hands.respond ?_
  exact hands_describeDeploymentImpl _ (getParam_ofFields rfl) (getParam_ofFields rfl)
    (getParam_ofFields rfl) (getParam_ofFields rfl)

theorem hands_describePlanDeployment :
    Hands (describePlanDeployment api project region rest)
      (if (planPath rest).isOk then [project] else []) := by
  refine hands_orRespond fun path _ => Hands.respond ?_
  exact hands_getPlanDeploymentImpl _ (getParam_ofFields rfl) (getParam_ofFields rfl)
    (getParam_ofFields rfl) (getParam_ofFields rfl) (getParam_ofFields rfl)

/-- The payload of the two lists of deployments: several projects, or the raw path text. -/
theorem get?_setProjects (query : PaginationQuery) (projects : List String)
    (fields : List (String × Json)) (hfields : (Json.ofFields fields).get? "projects" = none) :
    (1 < projects.length →
      (query.addTo (setProjects projects project (.ofFields fields))).get? "projects" =
        some (.array (projects.map .string))) ∧
    (¬ 1 < projects.length →
      (query.addTo (setProjects projects project (.ofFields fields))).get? "projects" = none ∧
      getParam (query.addTo (setProjects projects project (.ofFields fields))) "project" =
        .ok project) := by
  constructor
  · intro h
    rw [get?_addTo _ _ (by decide) (by decide), setProjects, if_pos h]
    simp [Json.ofFields, Json.set]
  · intro h
    rw [get?_addTo _ _ (by decide) (by decide), getParam_addTo _ _ (by decide) (by decide),
      setProjects, if_neg h]
    refine ⟨?_, getParam_of_get? ?_⟩
    · rw [Json.get?_set_of_ne (by decide), hfields]
    · simp [Json.ofFields, Json.set]

theorem getParam_setProjects (name : String) (query : PaginationQuery) (projects : List String)
    (payload : Json) (hlimit : name ≠ "limit") (htoken : name ≠ "next_token")
    (hprojects : name ≠ "projects") (hproject : name ≠ "project") :
    getParam (query.addTo (setProjects projects project payload)) name = getParam payload name := by
  rw [getParam_addTo query _ hlimit htoken, setProjects]
  split <;> simp [getParam, Json.get?_set_of_ne, hprojects, hproject]

theorem hands_getDeployments :
    Hands (getDeployments api project region query)
      (if (paginationQuery query).isOk then
        if 1 < (projectList project).length then projectList project else [project]
      else []) := by
  refine hands_orRespond fun page _ => Hands.respond ?_
  have hregion := (getParam_setProjects project "region" page (projectList project)
    (.ofFields [("region", .string region)]) (by decide) (by decide) (by decide)
    (by decide)).trans (getParam_ofFields rfl)
  have hpayload := get?_setProjects project page (projectList project)
    [("region", .string region)] (Json.get?_ofFields _ _)
  have hands := hands_getDeploymentsImpl api.auth.codec api.db project
    api.queries.getAllDeploymentsQuery hregion
  by_cases h : 1 < (projectList project).length
  · rw [if_pos h]
    exact hands.1 _ (hpayload.1 h)
  · rw [if_neg h]
    exact hands.2 (hpayload.2 h).1 (hpayload.2 h).2

/-- A text without a comma is the only piece of its split. -/
theorem split_of_length_le {text : String} (h : ¬ 1 < (split ',' text).length) :
    split ',' text = [text] := by
  refine split_eq_singleton fun hmem => h ?_
  rcases List.append_of_mem hmem with ⟨l₁, l₂, hl⟩
  have h₁ := List.length_pos_of_ne_nil (List.splitOn_ne_nil ',' l₁)
  have h₂ := List.length_pos_of_ne_nil (List.splitOn_ne_nil ',' l₂)
  simp only [split, hl, List.splitOn_append_cons_self, List.length_map, List.length_append]
  omega

theorem hands_getDeploymentsForModule :
    Hands (getDeploymentsForModule api project region rest query)
      (if (paginationQuery query).isOk then split ',' project else []) := by
  refine hands_orRespond fun page _ => Hands.respond ?_
  have hregion := (getParam_setProjects project "region" page (split ',' project)
    (.ofFields [("region", .string region), ("module", .string rest)]) (by decide) (by decide)
    (by decide) (by decide)).trans (getParam_ofFields rfl)
  have hmodule := (getParam_setProjects project "module" page (split ',' project)
    (.ofFields [("region", .string region), ("module", .string rest)]) (by decide) (by decide)
    (by decide) (by decide)).trans (getParam_ofFields rfl)
  have hpayload := get?_setProjects project page (split ',' project)
    [("region", .string region), ("module", .string rest)] (Json.get?_ofFields _ _)
  have hands := hands_getDeploymentsForModuleImpl api.auth.codec api.db project
    api.queries.getDeploymentsUsingModuleQuery hregion hmodule
  by_cases h : 1 < (split ',' project).length
  · exact hands.1 _ (hpayload.1 h)
  · have hraw := hands.2 (hpayload.2 h).1 (hpayload.2 h).2
    rwa [← split_of_length_le h] at hraw

theorem hands_getDeploymentsHistory :
    Hands (getDeploymentsHistory api project region query)
      (if (match deploymentHistoryQuery query with
          | .ok query => query.type = "plans" || query.type = "deleted"
          | .error _ => false) then [project] else []) := by
  unfold getDeploymentsHistory
  cases hquery : deploymentHistoryQuery query with
  | error response => exact hands_pure response
  | ok history =>
      refine Hands.respond ?_
      have hfields : ∀ name, name ≠ "environment" → name ≠ "type" → name ≠ "limit" →
          name ≠ "next_token" → ∀ payload : Json,
          getParam (history.page.addTo ((match history.environment with
            | some environment => payload.set "environment" (.string environment)
            | none => payload).set "type" (.string history.type))) name =
          getParam payload name := by
        intro name henv htype hlimit htoken payload
        rw [getParam_addTo _ _ hlimit htoken]
        cases history.environment <;> simp [getParam, Json.get?_set_of_ne, henv, htype]
      refine hands_getDeploymentHistoryImpl _ _
        ((hfields "project" (by decide) (by decide) (by decide) (by decide) _).trans
          (getParam_ofFields rfl))
        ((hfields "region" (by decide) (by decide) (by decide) (by decide) _).trans
          (getParam_ofFields rfl)) ?_
      rw [getParam_addTo _ _ (by decide) (by decide)]
      cases history.environment <;>
        exact getParam_of_get? (by simp [Json.ofFields, Json.set])

theorem hands_readLogs : Hands (readLogs api project region rest query) [] := by
  unfold readLogs orRespond
  split
  · exact Hands.respond (hands_pure _)
  · exact hands_pure _

theorem hands_getJobStatusHttp : Hands (getJobStatusHttp api project region rest) [] :=
  Hands.respond (hands_pure _)

theorem hands_getEvents :
    Hands (getEvents api project region rest query)
      (if (paginationQuery query).isOk && (optionalField query "event_type").isOk &&
          (deploymentPath rest).isOk then [project] else []) := by
  unfold getEvents
  cases hpage : paginationQuery query with
  | error response => exact hands_pure response
  | ok page =>
      cases hevent : optionalField query "event_type" with
      | error response => exact hands_pure response
      | ok eventType =>
          change Hands (orRespond (deploymentPath rest) _)
            (if (deploymentPath rest).isOk then [project] else [])
          refine hands_orRespond fun path _ => Hands.respond ?_
          clear hevent
          have hfields : ∀ name, name ≠ "event_type" → name ≠ "limit" → name ≠ "next_token" →
              ∀ payload : Json, getParam (match eventType with
                | some eventType => (page.addTo payload).set "event_type" (.string eventType)
                | none => page.addTo payload) name = getParam payload name := by
            intro name hname hlimit htoken payload
            rw [← getParam_addTo page payload hlimit htoken]
            cases eventType <;> simp [getParam, Json.get?_set_of_ne, hname]
          exact hands_getEventsImpl _
            ((hfields "project" (by decide) (by decide) (by decide) _).trans
              (getParam_ofFields rfl))
            ((hfields "region" (by decide) (by decide) (by decide) _).trans
              (getParam_ofFields rfl))
            ((hfields "deployment_id" (by decide) (by decide) (by decide) _).trans
              (getParam_ofFields rfl))
            ((hfields "environment" (by decide) (by decide) (by decide) _).trans
              (getParam_ofFields rfl))

theorem hands_getChangeRecords :
    Hands (getChangeRecords api project region rest query)
      (if (paginationQuery query).isOk && (requiredField query "change_type").isOk &&
          (deploymentPath rest).isOk then [project] else []) := by
  unfold getChangeRecords
  cases hpage : paginationQuery query with
  | error response => exact hands_pure response
  | ok page =>
      cases hchange : requiredField query "change_type" with
      | error response => exact hands_pure response
      | ok changeType =>
          change Hands (orRespond (deploymentPath rest) _)
            (if (deploymentPath rest).isOk then [project] else [])
          refine hands_orRespond fun path _ => Hands.respond ?_
          have hfields : ∀ name, name ≠ "limit" → name ≠ "next_token" → ∀ payload : Json,
              getParam (page.addTo payload) name = getParam payload name :=
            fun name hlimit htoken payload => getParam_addTo page payload hlimit htoken
          exact hands_getChangeRecordsImpl _
            ((hfields "project" (by decide) (by decide) _).trans (getParam_ofFields rfl))
            ((hfields "region" (by decide) (by decide) _).trans (getParam_ofFields rfl))
            ((hfields "deployment_id" (by decide) (by decide) _).trans (getParam_ofFields rfl))
            ((hfields "environment" (by decide) (by decide) _).trans (getParam_ofFields rfl))
            ((hfields "change_type" (by decide) (by decide) _).trans (getParam_ofFields rfl))

theorem hands_getChangeRecord :
    Hands (getChangeRecord api project region rest)
      (if (changeRecordPath rest).isOk then [project] else []) := by
  refine hands_orRespond fun path _ => Hands.respond ?_
  exact hands_getChangeRecordImpl _ (getParam_ofFields rfl) (getParam_ofFields rfl)
    (getParam_ofFields rfl) (getParam_ofFields rfl) (getParam_ofFields rfl) (getParam_ofFields rfl)

theorem hands_getChangeRecordGraph :
    Hands (getChangeRecordGraph api project region rest)
      (if (changeRecordPath rest).isOk then [project] else []) := by
  refine hands_orRespond fun path _ => Hands.respondGraph ?_
  exact hands_changeRecordGraph _ (getParam_ofFields rfl) (getParam_ofFields rfl)
    (getParam_ofFields rfl) (getParam_ofFields rfl) (getParam_ofFields rfl) (getParam_ofFields rfl)

theorem hands_getDeploymentGraph :
    Hands (getDeploymentGraph api project region rest query)
      (if (deploymentPath rest).isOk then [(queryProject query).getD project] else []) := by
  refine hands_orRespond fun path _ => Hands.respondGraph ?_
  refine hands_deploymentGraph _ (getParam_of_get? ?_)
  rw [Json.ofFields, get?_mergeParams, queryProject]
  cases query.reverse.lookup "project" <;> rfl

end

theorem hands_routeHandler (api : Api) (request : ProjectRequest) :
    Hands (routeHandler api request)
      (if reachesQuery request then queriedProjects request else []) := by
  rcases request with ⟨route, headers, project, region, rest, query⟩
  cases route with
  | deployment => exact hands_describeDeployment api project region rest
  | deployments => exact hands_getDeployments api project region query
  | deploymentsModule => exact hands_getDeploymentsForModule api project region rest query
  | deploymentsHistory => exact hands_getDeploymentsHistory api project region query
  | plan => exact hands_describePlanDeployment api project region rest
  | logs => exact hands_readLogs api project region rest query
  | events => exact hands_getEvents api project region rest query
  | changeRecords => exact hands_getChangeRecords api project region rest query
  | changeRecord => exact hands_getChangeRecord api project region rest
  | changeRecordGraph => exact hands_getChangeRecordGraph api project region rest
  | deploymentGraph => exact hands_getDeploymentGraph api project region rest query
  | jobStatus => exact hands_getJobStatusHttp api project region rest

/-! ## Confinement -/

/-- Whatever a request that passes the middleware hands out is one of the caller's projects. -/
def Confined (api : Api) (request : ProjectRequest) : Prop :=
  authMiddleware api.auth request.headers (some request.project) = .ok () →
    ∀ project ∈ handedAccounts api request, project ∈ allowedProjects api.auth request.headers

/-- The route reads the project the way the middleware did: as plain text where it takes the whole
path text, piece by piece where it takes the list apart without trimming it; and a project from the
query string is one the middleware would have let through. -/
def ReadsWhatWasChecked (api : Api) (request : ProjectRequest) : Prop :=
  match request.route with
  | .deployments =>
      1 < (projectList request.project).length ∨ plainProject request.project = true
  | .deploymentsModule => ∀ piece ∈ split ',' request.project, plainProject piece = true
  | .deploymentGraph =>
      match queryProject request.query with
      | some project => ensureAccess api.auth request.headers project = .ok ()
      | none => plainProject request.project = true
  | _ => plainProject request.project = true

theorem mem_allowedProjects_path_iff {config : AuthConfig} {headers : Headers} {project : String}
    (hauth : authMiddleware config headers (some project) = .ok ()) :
    project ∈ allowedProjects config headers ↔ plainProject project = true := by
  constructor
  · exact plainProject_of_mem_allowedProjects
  · intro hplain
    have hsplit : split ',' project = [project] := by
      refine split_eq_singleton ?_
      simp only [plainProject, Bool.and_eq_true] at hplain
      simpa using hplain.1.2
    exact (mem_allowedProjects_iff_plain hauth (by simp [hsplit])).2 hplain

theorem projectList_subset_allowedProjects {config : AuthConfig} {headers : Headers}
    {project : String} (hauth : authMiddleware config headers (some project) = .ok ()) :
    ∀ piece ∈ projectList project, piece ∈ allowedProjects config headers := by
  intro piece hpiece
  rcases bind_eq_ok_iff.1 hauth with ⟨_, -, hall⟩
  simp only [projectList, List.mem_filter, List.mem_map, decide_eq_true_eq] at hpiece
  rcases hpiece with ⟨⟨text, htext, rfl⟩, hne⟩
  exact (ensureAccessToAll_eq_ok_iff config headers _).1 hall text htext (by simpa using hne)

theorem queriedProjects_allowed_iff {api : Api} {request : ProjectRequest}
    (hauth : authMiddleware api.auth request.headers (some request.project) = .ok ()) :
    (∀ project ∈ queriedProjects request, project ∈ allowedProjects api.auth request.headers) ↔
      ReadsWhatWasChecked api request := by
  rcases request with ⟨route, headers, project, region, rest, query⟩
  cases route with
  | deployments =>
      by_cases h : 1 < (projectList project).length
      · simpa [queriedProjects, ReadsWhatWasChecked, h] using
          projectList_subset_allowedProjects hauth
      · simpa [queriedProjects, ReadsWhatWasChecked, h] using mem_allowedProjects_path_iff hauth
  | deploymentsModule =>
      simp only [queriedProjects, ReadsWhatWasChecked]
      exact forall₂_congr fun piece hpiece => mem_allowedProjects_iff_plain hauth hpiece
  | deploymentGraph =>
      cases hquery : queryProject query with
      | none => simpa [queriedProjects, ReadsWhatWasChecked, hquery] using
          mem_allowedProjects_path_iff hauth
      | some other => simp [queriedProjects, ReadsWhatWasChecked, hquery, ensureAccess_eq_ok_iff]
  | _ => simpa [queriedProjects, ReadsWhatWasChecked] using mem_allowedProjects_path_iff hauth

/-- A request stays inside the caller's projects exactly when it is rejected, or does not get to a
query, or its route reads the project the way the middleware did. -/
theorem confined_iff (api : Api) (request : ProjectRequest) :
    Confined api request ↔
      (authMiddleware api.auth request.headers (some request.project) = .ok () →
        reachesQuery request = true → ReadsWhatWasChecked api request) := by
  refine forall_congr' fun hauth => ?_
  rcases hands_routeHandler api request [] with ⟨handed, hrun, hmem⟩
  have haccounts : handedAccounts api request = handed := by
    rw [handedAccounts, serve, hauth]
    simpa [orRespond] using hrun
  rw [haccounts]
  cases hreach : reachesQuery request with
  | false => simp_all
  | true =>
      rw [← queriedProjects_allowed_iff hauth]
      simp [hmem, hreach]

/-- An API whose callers have one project, in front of an empty database. -/
def oneProjectApi : Api where
  auth :=
    { codec :=
        { urlSafeJson := fun text =>
            if text = "e30" then
              some (.object [("custom:allowed_projects", .string "111111111111")])
            else none
          standardJson := fun _ => none }
      allowedProjectsClaimKey := "custom:allowed_projects" }
  db :=
    { queryTable := fun _ _ _ _ => .ok (.object [("Items", .array [])])
      livenessCheck := fun _ record => record
      getBucketNameForRegion := fun _ _ => .error "Missing environment variable"
      downloadFileAsStringFromRegion := fun _ _ _ _ => .error "NoSuchKey"
      processGraph := fun _ _ => .error "invalid graph"
      readLogs := fun _ => .error "log stream not found"
      getJobStatus := fun _ => .error "task not found" }
  queries :=
    { getDeploymentAndDependentsQuery := fun _ _ _ _ _ => []
      getPlanDeploymentQuery := fun _ _ _ _ _ => []
      getAllDeploymentsQuery := fun _ _ _ _ => []
      getDeploymentsUsingModuleQuery := fun _ _ _ _ _ => []
      getEventsQuery := fun _ _ _ _ _ => []
      getChangeRecordsForDeploymentQuery := fun _ _ _ _ _ => []
      getChangeRecordsQuery := fun _ _ _ _ _ _ => []
      getDeploymentHistoryPlansQuery := fun _ _ _ => []
      getDeploymentHistoryDeletedQuery := fun _ _ _ => [] }

/-- `GET /api/v1/deployment_graph/111111111111/us-west-2/prod/eu/web/a?project=222222222222` -/
def graphOfAnotherProject : ProjectRequest where
  route := .deploymentGraph
  headers :=
    { xAuthUser := some "alice", xInfraweaveVerifiedClaims := some "e30", authorization := none }
  project := "111111111111"
  region := "us-west-2"
  rest := "prod/eu/web/a"
  query := [("project", "222222222222")]

/-- The query string names the project that is queried, the path the one that is checked. -/
theorem not_confined_graphOfAnotherProject : ¬ Confined oneProjectApi graphOfAnotherProject := by
  intro h
  have hmem : "222222222222" ∈ handedAccounts oneProjectApi graphOfAnotherProject := by decide
  exact absurd (h rfl _ hmem) (by decide)

end InternalApi
end InfraWeave
