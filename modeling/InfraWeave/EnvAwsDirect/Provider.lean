import InfraWeave.InternalApi.Pagination
import InfraWeave.Utils.ProviderUtil

/-!
# Reads of the provider

A provider reads a table by one query, which DynamoDB answers with a page of the rows.
-/

namespace InfraWeave
namespace EnvAwsDirect

open InternalApi Page ProviderUtil

/-- The accounts that were handed out, the project and the region of a provider, and what it uses
that is not part of the program. -/
structure Provider where
  accounts : Accounts
  projectId : String
  region : String
  dynamo : Dynamo
  encodeToken : Json → String
  records : Records

def readDbEvent (table : String) (query : InternalApi.Query) : Json :=
  .ofFields
    [("event", .string "read_db"), ("table", .string table),
     ("data", .ofFields [("query", .object query)])]

namespace Provider

variable (p : Provider)

/-- `run_function`, for the event that reads a table. -/
def runFunction (payload : Json) : Except String Json :=
  match (payload.get? "event").bind Json.asStr with
  | none => .error "Missing event field"
  | some event =>
      if event = "read_db" then
        match (payload.get? "table").bind Json.asStr with
        | none => .error "Missing table field"
        | some table =>
            match (payload.get? "data").bind fun data => data.get? "query" with
            | none => .error "Missing query field"
            | some query =>
                (readDbDirect p.dynamo p.encodeToken p.accounts table (query.asObject.getD [])
                  (some p.region)).mapError ("Direct DB read failed: " ++ ·)
      else .error ("Unknown event type: " ++ event)

def readDb (table : String) (query : InternalApi.Query) : Except String Json :=
  p.runFunction (readDbEvent table query)

/-- A response without items ends the process. -/
def readDbGeneric (table : String) (query : InternalApi.Query) : Except String (List Json) := do
  let payload ← p.readDb table query
  match payload.get? "Items" with
  | none => .error "No Items field in response"
  | some items =>
      match items.asArray with
      | none => .error "called `Option::unwrap()` on a `None` value"
      | some items => .ok items

/-! ## Queries -/

def getAllPoliciesQuery (environment : String) : InternalApi.Query :=
  queryFields
    [("KeyConditionExpression", .string "PK = :current AND begins_with(SK, :policy_prefix)"),
     ("ExpressionAttributeValues", .ofFields
      [(":current", .string "CURRENT"), (":policy_prefix", .string ("POLICY#" ++ environment))])]

def getDeploymentAndDependentsQuery (projectId region deploymentId environment : String)
    (includeDeleted : Bool) : InternalApi.Query :=
  let pk := "DEPLOYMENT#" ++ getDeploymentIdentifier projectId region deploymentId environment
  if includeDeleted then
    queryFields
      [("KeyConditionExpression", .string "PK = :pk"),
       ("ExpressionAttributeValues", .ofFields [(":pk", .string pk)])]
  else
    queryFields
      [("KeyConditionExpression", .string "PK = :pk"),
       ("FilterExpression", .string "deleted <> :deleted"),
       ("ExpressionAttributeValues", .ofFields
        [(":pk", .string pk), (":deleted", .number (.int 1))])]

def getDeploymentsToDriftcheckQuery (projectId region : String) (epoch : Nat) : InternalApi.Query :=
  queryFields
    [("IndexName", .string "DriftCheckIndex"),
     ("KeyConditionExpression", .string ("deleted_SK_base = :deleted_SK_base AND " ++
      "next_drift_check_epoch BETWEEN :start_epoch AND :current_epoch")),
     ("ExpressionAttributeValues", .ofFields
      [(":deleted_SK_base",
        .string ("0|METADATA#" ++ getDeploymentIdentifier projectId region "" "")),
       (":start_epoch", .number (.int 0)), (":current_epoch", .number (.int epoch))])]

/-! ## Reads that decide something -/

def getAllPolicies (environment : String) : Except String (List PolicyResp) := do
  let items ← p.readDbGeneric "policies" (getAllPoliciesQuery environment)
  getPolicies p.records items

def getDeploymentAndDependents (deploymentId environment : String) (includeDeleted : Bool) :
    Except String (Option DeploymentResp × List Dependent) := do
  let items ← p.readDbGeneric "deployments"
    (getDeploymentAndDependentsQuery p.projectId p.region deploymentId environment includeDeleted)
  ProviderUtil.getDeploymentAndDependents p.records items

/-- The epoch is that of the clock. -/
def getDeploymentsToDriftcheck (epoch : Nat) : Except String (List DeploymentResp) := do
  let items ← p.readDbGeneric "deployments"
    (getDeploymentsToDriftcheckQuery p.projectId p.region epoch)
  getDeployments p.records items

/-! ## What is asked -/

def dynamoQuery (table : String) (query : InternalApi.Query) : DynamoQuery :=
  .ofQuery p.accounts table query (some p.region)

/-- Where a query starts, and its limit. -/
def start (query : InternalApi.Query) : Option Json :=
  (query.lookup "ExclusiveStartKey").bind objectOf

def limit (query : InternalApi.Query) : Option Int :=
  ((query.lookup "Limit").bind Json.asI64).map toI32

variable (rows : DynamoQuery → List (Json × Option Json))

/-- The items that a query matches. -/
def matching (table : String) (query : InternalApi.Query) : List Json :=
  (rows (p.dynamoQuery table query)).filterMap Prod.snd

/-- The database splits the rows of the query so that the first page is of the rows `now`. -/
def FirstPage (table : String) (query : InternalApi.Query)
    (now later : List (Json × Option Json)) : Prop :=
  rows (p.dynamoQuery table query) = now ++ later ∧
    ∃ next, p.dynamo (p.dynamoQuery table query) (start query) (limit query) =
      .ok ⟨now.filterMap Prod.snd, next⟩

/-- Nothing that the query matches is after its first page. -/
def OnePage (table : String) (query : InternalApi.Query) : Prop :=
  ∃ now later, p.FirstPage rows table query now later ∧ later.filterMap Prod.snd = []

/-- The read succeeds, and tells what each of the items is. -/
def Tells {α : Type} (result : Except String (List α)) (read : Json → Except String α)
    (items : List Json) : Prop :=
  ∃ records : List α, result = .ok records ∧ items.map read = records.map .ok

/-- Every item can be read. -/
def Readable {α : Type} (read : Json → Except String α) (items : List Json) : Prop :=
  ∃ records : List α, items.map read = records.map .ok

/-! ## The items of a page -/

section

variable {p : Provider} {rows : DynamoQuery → List (Json × Option Json)} {table : String}
  {query : InternalApi.Query} {items : List Json}

/-- The event goes to the branch for reads with the table and the query that it was made of. -/
theorem readDb_eq (p : Provider) (table : String) (query : InternalApi.Query) :
    p.readDb table query =
      (readDbDirect p.dynamo p.encodeToken p.accounts table query (some p.region)).mapError
        ("Direct DB read failed: " ++ ·) := by
  have hevent : (readDbEvent table query).get? "event" = some (.string "read_db") := by
    rw [readDbEvent, Json.get?_ofFields]
    rfl
  have htable : (readDbEvent table query).get? "table" = some (.string table) := by
    rw [readDbEvent, Json.get?_ofFields]
    rfl
  have hquery : ((readDbEvent table query).get? "data").bind (fun data => data.get? "query") =
      some (.object query) := by
    rw [readDbEvent, Json.get?_ofFields]
    rfl
  unfold readDb runFunction
  rw [hevent, htable, hquery]
  rfl

/-- What is read are the items of the first page. -/
theorem readDbGeneric_eq_ok : p.readDbGeneric table query = .ok items ↔
    ∃ next, p.dynamo (p.dynamoQuery table query) (start query) (limit query) =
      .ok ⟨items, next⟩ := by
  have hread : p.readDb table query =
      (((p.dynamo (p.dynamoQuery table query) (start query) (limit query)).mapError
        ("DynamoDB query failed for table " ++ table ++ ": " ++ ·)).map
          (pageResponse p.encodeToken)).mapError ("Direct DB read failed: " ++ ·) := by
    rw [readDb_eq]
    rfl
  unfold readDbGeneric
  rw [hread]
  cases p.dynamo (p.dynamoQuery table query) (start query) (limit query) with
  | error e =>
      constructor
      · intro h
        cases h
      · rintro ⟨next, h⟩
        cases h
  | ok page =>
      have hitems : (pageResponse p.encodeToken page).get? "Items" =
          some (.array page.items) := get?_items_pageResponse page
      simp only [Except.mapError, Except.map, ok_bind, hitems, Json.asArray]
      constructor
      · intro h
        have hsame : page.items = items := Except.ok.inj h
        exact ⟨page.next, by rw [← hsame]⟩
      · rintro ⟨next, h⟩
        rw [Except.ok.inj h]

/-- The whole result of a query is read exactly when nothing is left after its first page. -/
theorem readDbGeneric_iff :
    p.readDbGeneric table query = .ok (p.matching rows table query) ↔
      p.OnePage rows table query := by
  rw [readDbGeneric_eq_ok]
  constructor
  · intro hpage
    exact ⟨rows (p.dynamoQuery table query), [], ⟨(List.append_nil _).symm, hpage⟩, rfl⟩
  · rintro ⟨now, later, ⟨hrows, next, hpage⟩, hlater⟩
    have hmatching : p.matching rows table query = now.filterMap Prod.snd := by
      rw [matching, hrows, List.filterMap_append, hlater, List.append_nil]
    exact ⟨next, by rw [hmatching]; exact hpage⟩

/-- A query from the beginning and without a limit is answered with a first page. -/
theorem exists_firstPage (h : Reads p.dynamo rows) (hstart : start query = none)
    (hlimit : limit query = none) :
    ∃ now later, p.FirstPage rows table query now later ∧
      p.readDbGeneric table query = .ok (now.filterMap Prod.snd) := by
  have hpages := h.pages (p.dynamoQuery table query) none fun n heq => nomatch heq
  obtain ⟨now, later, next, hrows, hpage, -⟩ := hpages [] _ rfl
  have hpage' : p.dynamo (p.dynamoQuery table query) (start query) (limit query) =
      .ok ⟨now.filterMap Prod.snd, next⟩ := by
    rw [hstart, hlimit]
    exact hpage
  exact ⟨now, later, ⟨hrows, next, hpage'⟩, readDbGeneric_eq_ok.2 ⟨next, hpage'⟩⟩

theorem matching_of_firstPage {now later : List (Json × Option Json)}
    (hfirst : p.FirstPage rows table query now later) :
    p.matching rows table query = now.filterMap Prod.snd ++ later.filterMap Prod.snd := by
  rw [matching, hfirst.1, List.filterMap_append]

/-- Each item of the query is told exactly when nothing is left after the first page, and every item
can be read. -/
theorem tells_iff {α : Type} (h : Reads p.dynamo rows) (hstart : start query = none)
    (hlimit : limit query = none) {parse : List Json → Except String (List α)}
    {read : Json → Except String α}
    (hparse : ∀ items records, parse items = .ok records ↔ items.map read = records.map .ok) :
    Tells (p.readDbGeneric table query >>= parse) read (p.matching rows table query) ↔
      p.OnePage rows table query ∧ Readable read (p.matching rows table query) := by
  constructor
  · rintro ⟨records, hresult, htold⟩
    refine ⟨?_, records, htold⟩
    have hpage : ∃ now later, p.FirstPage rows table query now later ∧
        p.readDbGeneric table query = .ok (now.filterMap Prod.snd) :=
      exists_firstPage h hstart hlimit
    obtain ⟨now, later, hfirst, hread⟩ := hpage
    rw [hread, ok_bind, hparse] at hresult
    -- The items of the first page are as many as all of them.
    have hmatching := matching_of_firstPage hfirst
    have hlength := congrArg List.length (htold.trans hresult.symm)
    rw [List.length_map, List.length_map, hmatching, List.length_append] at hlength
    have hlater : later.filterMap Prod.snd = [] := List.eq_nil_of_length_eq_zero (by omega)
    exact ⟨now, later, hfirst, hlater⟩
  · rintro ⟨hone, records, htold⟩
    have hread := readDbGeneric_iff.2 hone
    have hresult : (p.readDbGeneric table query >>= parse) = .ok records := by
      rw [hread, ok_bind]
      exact (hparse _ _).2 htold
    exact ⟨records, hresult, htold⟩

theorem getDeploymentAndDependents_eq_ok {items : List Json} {deployment : Option DeploymentResp}
    {dependents : List Dependent}
    (h : ProviderUtil.getDeploymentAndDependents p.records items = .ok (deployment, dependents)) :
    (items.filter isDependent).map (readDependent p.records) = dependents.map .ok := by
  unfold ProviderUtil.getDeploymentAndDependents at h
  obtain ⟨found, hfound, hresult⟩ := bind_eq_ok_iff.1 h
  have hdependents : found.filterMap Sum.getRight? = dependents :=
    congrArg Prod.snd (Except.ok.inj hresult)
  rw [← hdependents]
  exact dependents_of_readRows (mapM_eq_ok_iff.1 hfound)

/-- Each dependent is told exactly when none is left after the first page, and the items of that
page can be read. -/
theorem tells_dependents_iff (h : Reads p.dynamo rows) (deploymentId environment : String)
    (includeDeleted : Bool) (hstart : start (getDeploymentAndDependentsQuery p.projectId p.region
      deploymentId environment includeDeleted) = none)
    (hlimit : limit (getDeploymentAndDependentsQuery p.projectId p.region
      deploymentId environment includeDeleted) = none) :
    let query := getDeploymentAndDependentsQuery p.projectId p.region deploymentId environment
      includeDeleted
    Tells ((p.getDeploymentAndDependents deploymentId environment includeDeleted).map Prod.snd)
        (readDependent p.records) ((p.matching rows "deployments" query).filter isDependent) ↔
      ∃ now later, p.FirstPage rows "deployments" query now later ∧
        (later.filterMap Prod.snd).filter isDependent = [] ∧
          Readable (readRow p.records) (now.filterMap Prod.snd) := by
  intro query
  have hcall : p.getDeploymentAndDependents deploymentId environment includeDeleted =
      p.readDbGeneric "deployments" query >>=
        ProviderUtil.getDeploymentAndDependents p.records := rfl
  constructor
  · rintro ⟨dependents, hresult, htold⟩
    have hpage : ∃ now later, p.FirstPage rows "deployments" query now later ∧
        p.readDbGeneric "deployments" query = .ok (now.filterMap Prod.snd) :=
      exists_firstPage h hstart hlimit
    obtain ⟨now, later, hfirst, hread⟩ := hpage
    rw [hcall, hread, ok_bind] at hresult
    cases hrows : ProviderUtil.getDeploymentAndDependents p.records
        (now.filterMap Prod.snd) with
    | error e =>
        rw [hrows] at hresult
        cases hresult
    | ok result =>
        obtain ⟨deployment, found⟩ := result
        rw [hrows] at hresult
        obtain rfl : found = dependents := Except.ok.inj hresult
        have hnow := getDeploymentAndDependents_eq_ok hrows
        have hlength := congrArg List.length (htold.trans hnow.symm)
        rw [List.length_map, List.length_map, matching_of_firstPage hfirst, List.filter_append,
          List.length_append] at hlength
        obtain ⟨read, hreadRows, -⟩ := bind_eq_ok_iff.1 hrows
        exact ⟨now, later, hfirst, List.eq_nil_of_length_eq_zero (by omega), read,
          mapM_eq_ok_iff.1 hreadRows⟩
  · rintro ⟨now, later, hfirst, hlater, read, hreadRows⟩
    obtain ⟨hrows, next, hpage⟩ := hfirst
    have hread := readDbGeneric_eq_ok.2 ⟨next, hpage⟩
    have hdependents := dependents_of_readRows hreadRows
    refine ⟨read.filterMap Sum.getRight?, ?_, ?_⟩
    · have hmap := mapM_eq_ok_iff.2 hreadRows
      rw [hcall, hread, ok_bind, ProviderUtil.getDeploymentAndDependents, hmap]
      rfl
    · rw [matching_of_firstPage ⟨hrows, next, hpage⟩, List.filter_append, hlater,
        List.append_nil]
      exact hdependents

/-! ## Complete reads -/

theorem start_queryFields {fields : List (String × Json)}
    (h : fields.reverse.lookup "ExclusiveStartKey" = none) : start (queryFields fields) = none := by
  rw [start, lookup_queryFields, h]
  rfl

theorem limit_queryFields {fields : List (String × Json)}
    (h : fields.reverse.lookup "Limit" = none) : limit (queryFields fields) = none := by
  rw [limit, lookup_queryFields, h]
  rfl

/-- A read is complete exactly when nothing that it is to find is after the first page: the items
of any query, all policies, all dependents and all deployments that are due. -/
theorem reads_complete_iff (h : Reads p.dynamo rows) :
    (∀ table query, p.readDbGeneric table query = .ok (p.matching rows table query) ↔
      p.OnePage rows table query) ∧
    (∀ environment, let query := getAllPoliciesQuery environment
      Tells (p.getAllPolicies environment) (readPolicy p.records)
          (p.matching rows "policies" query) ↔
        p.OnePage rows "policies" query ∧
          Readable (readPolicy p.records) (p.matching rows "policies" query)) ∧
    (∀ deploymentId environment includeDeleted,
      let query := getDeploymentAndDependentsQuery p.projectId p.region deploymentId environment
        includeDeleted
      Tells ((p.getDeploymentAndDependents deploymentId environment includeDeleted).map Prod.snd)
          (readDependent p.records) ((p.matching rows "deployments" query).filter isDependent) ↔
        ∃ now later, p.FirstPage rows "deployments" query now later ∧
          (later.filterMap Prod.snd).filter isDependent = [] ∧
            Readable (readRow p.records) (now.filterMap Prod.snd)) ∧
    ∀ epoch, let query := getDeploymentsToDriftcheckQuery p.projectId p.region epoch
      Tells (p.getDeploymentsToDriftcheck epoch) (readDeployment p.records)
          (p.matching rows "deployments" query) ↔
        p.OnePage rows "deployments" query ∧
          Readable (readDeployment p.records) (p.matching rows "deployments" query) := by
  refine ⟨fun table query => readDbGeneric_iff, fun environment => ?_,
    fun deploymentId environment includeDeleted => ?_, fun epoch => ?_⟩
  · refine tells_iff h (start_queryFields rfl) (limit_queryFields rfl) fun items records => ?_
    exact mapM_eq_ok_iff
  · cases includeDeleted with
    | true =>
        exact tells_dependents_iff h deploymentId environment true (start_queryFields rfl)
          (limit_queryFields rfl)
    | false =>
        exact tells_dependents_iff h deploymentId environment false (start_queryFields rfl)
          (limit_queryFields rfl)
  · exact tells_iff h (start_queryFields rfl) (limit_queryFields rfl)
      fun items records => getDeployments_eq_ok

end

end Provider

/-! ## Two policies on two pages -/

def policyKey (policy : String) : Json :=
  .object [("PK", .string "CURRENT"), ("SK", .string ("POLICY#stable::" ++ policy))]

def policyRows (_ : DynamoQuery) : List (Json × Option Json) :=
  [(policyKey "tags", some (policyKey "tags")), (policyKey "regions", some (policyKey "regions"))]

/-- At most so many rows on a page. -/
def pagedDynamo (size : Nat) : Dynamo := fun query start limit =>
  match limit with
  | none => .ok (take (policyRows query) size start)
  | some n =>
      if n < 1 then .error "ValidationException"
      else .ok (take (policyRows query) (min size n.toNat) start)

theorem reads_pagedDynamo {size : Nat} (hsize : 0 < size) :
    Reads (pagedDynamo size) policyRows where
  refuses query start limit hlimit := ⟨_, if_pos hlimit⟩
  pages query limit hlimit := by
    have hkeys : ((policyRows query).map Prod.fst).Nodup := by
      change [policyKey "tags", policyKey "regions"].Nodup
      decide
    cases limit with
    | none => exact pages_take hkeys hsize
    | some n =>
        have hn := hlimit n rfl
        have hsource : (fun start => pagedDynamo size query start (some n)) = fun start =>
            .ok (take (policyRows query) (min size n.toNat) start) := by
          funext start
          exact if_neg (by omega)
        rw [hsource]
        exact pages_take hkeys (by omega)
  keys query row hrow := by
    have hobject : ∀ row ∈ policyRows query, ∃ field fields,
        row.1 = .object (field :: fields) := by
      simp [policyRows, policyKey]
    exact hobject row hrow

def webProvider (size : Nat) : Provider where
  accounts := ["111111111111"]
  projectId := "111111111111"
  region := "eu-central-1"
  dynamo := pagedDynamo size
  encodeToken _ := ""
  records := ⟨fun _ => none, fun _ => none, fun _ => none, fun _ => ""⟩

/-- Both policies are on the first page. -/
theorem reads_complete_web :
    (webProvider 2).readDbGeneric "policies" (Provider.getAllPoliciesQuery "stable") =
      .ok [policyKey "tags", policyKey "regions"] := by
  have hcomplete := (Provider.reads_complete_iff (p := webProvider 2)
    (reads_pagedDynamo (by decide))).1 "policies" (Provider.getAllPoliciesQuery "stable")
  have hpage : (webProvider 2).FirstPage policyRows "policies"
      (Provider.getAllPoliciesQuery "stable") (policyRows ((webProvider 2).dynamoQuery "policies"
        (Provider.getAllPoliciesQuery "stable"))) [] :=
    ⟨(List.append_nil _).symm, none, rfl⟩
  exact hcomplete.2 ⟨_, [], hpage, rfl⟩

/-- The second policy is on the second page. -/
theorem not_reads_complete_web : ¬ ∀ (p : Provider)
    (rows : DynamoQuery → List (Json × Option Json)), Reads p.dynamo rows → ∀ table query,
      p.readDbGeneric table query = .ok (p.matching rows table query) := by
  intro hall
  have hread := hall (webProvider 1) policyRows (reads_pagedDynamo (by decide)) "policies"
    (Provider.getAllPoliciesQuery "stable")
  have hfirst : (webProvider 1).readDbGeneric "policies" (Provider.getAllPoliciesQuery "stable") =
      .ok [policyKey "tags"] := Provider.readDbGeneric_eq_ok.2 ⟨some (policyKey "tags"), rfl⟩
  have hlength := congrArg List.length (Except.ok.inj (hfirst.symm.trans hread))
  exact absurd hlength (by decide)

end EnvAwsDirect
end InfraWeave
