import InfraWeave.Defs.Deployment
import InfraWeave.InternalApi.ProjectConfinement
import InfraWeave.Lib.Paging

/-!
# Listing deployments page by page

A client asks for a list of deployments, and goes on with the token of each response until a
response has none.  The rows that a query finds, and how many of them DynamoDB puts on a page, are
not part of the program.
-/

namespace InfraWeave
namespace InternalApi

open Page

/-! ## Reads -/

/-- A query as it is sent to DynamoDB, without the place where it starts and its limit. -/
structure DynamoQuery where
  account : Option String
  table : String
  region : Option String
  keyConditionExpression : Option String
  filterExpression : Option String
  expressionAttributeValues : Option Json
  expressionAttributeNames : Option Json
  indexName : Option String
  scanIndexForward : Option Bool
  deriving DecidableEq

def objectOf (v : Json) : Option Json :=
  v.asObject.map Json.object

/-- The workload account is the one that was handed out last. -/
def DynamoQuery.ofQuery (accounts : Accounts) (table : String) (query : Query)
    (region : Option String) : DynamoQuery where
  account := accounts.getLast?
  table
  region
  keyConditionExpression := (query.lookup "KeyConditionExpression").bind Json.asStr
  filterExpression := (query.lookup "FilterExpression").bind Json.asStr
  expressionAttributeValues := (query.lookup "ExpressionAttributeValues").bind objectOf
  expressionAttributeNames := (query.lookup "ExpressionAttributeNames").bind objectOf
  indexName := (query.lookup "IndexName").bind Json.asStr
  scanIndexForward := (query.lookup "ScanIndexForward").bind Json.asBool

/-- The answer to a query from a start and with a limit; the cursor of a page is its
`LastEvaluatedKey`. -/
abbrev Dynamo :=
  DynamoQuery → Option Json → Option Int → Except String (Page Json Json)

/-- `num as i32`. -/
def toI32 (n : Int) : Int :=
  n.bmod 4294967296

section

variable (dynamo : Dynamo) (encodeToken : Json → String)

/-- The key is given as it is, and as base64 of its text. -/
def pageResponse (page : Page Json Json) : Json :=
  let response := Json.ofFields
    [("Items", .array page.items), ("Count", .number (.int page.items.length))]
  match page.next with
  | some (.object (field :: fields)) =>
      let key := Json.object (field :: fields)
      (response.set "LastEvaluatedKey" key).set "next_token" (.string (encodeToken key))
  | _ => response

def readDbDirect (accounts : Accounts) (table : String) (query : Query) (region : Option String) :
    Except String Json := do
  let start := (query.lookup "ExclusiveStartKey").bind objectOf
  let limit := ((query.lookup "Limit").bind Json.asI64).map toI32
  let page ← (dynamo (.ofQuery accounts table query region) start limit).mapError
    ("DynamoDB query failed for table " ++ table ++ ": " ++ ·)
  .ok (pageResponse encodeToken page)

/-- The backend of the AWS build. -/
def awsBackend (db : Backend) : Backend :=
  { db with queryTable := readDbDirect dynamo encodeToken }

end

/-! ## Queries -/

def queryFields (fields : List (String × Json)) : Query :=
  fields.foldl (fun query (name, value) => OrderedMap.insert name value query) []

def getAllDeploymentsQuery (projectId region environment : String) (includeDeleted : Bool) :
    Query :=
  let start := "DEPLOYMENT#" ++ getDeploymentIdentifier projectId region "" environment
  if includeDeleted then
    queryFields
      [("KeyConditionExpression", .string "begins_with(PK, :deployment_prefix)"),
       ("FilterExpression", .string "SK = :metadata"),
       ("ExpressionAttributeValues", .ofFields
        [(":deployment_prefix", .string start), (":metadata", .string "METADATA")])]
  else
    queryFields
      [("IndexName", .string "DeletedIndex"),
       ("KeyConditionExpression",
        .string "deleted_PK_base = :deleted_PK_base AND begins_with(PK, :deployment_prefix)"),
       ("ExpressionAttributeValues", .ofFields
        [(":deleted_PK_base",
          .string ("0|DEPLOYMENT#" ++ getDeploymentIdentifier projectId region "" "")),
         (":deployment_prefix", .string start)])]

def getDeploymentsUsingModuleQuery (projectId region module environment : String)
    (includeDeleted : Bool) : Query :=
  let start := "DEPLOYMENT#" ++ getDeploymentIdentifier projectId region "" environment
  queryFields
    [("IndexName", .string "ModuleIndex"),
     ("KeyConditionExpression",
      .string "#module = :module AND begins_with(deleted_PK, :deployment_prefix)"),
     ("ExpressionAttributeNames", .ofFields [("#module", .string "module_PK_base")]),
     ("ExpressionAttributeValues", .ofFields
      [(":deployment_prefix", .string (if includeDeleted then start else "0|" ++ start)),
       (":module",
        .string ("MODULE#" ++ getDeploymentIdentifier projectId region "" "" ++ "#" ++ module)),
       (":metadata", .string "METADATA")]),
     ("FilterExpression", .string "SK = :metadata")]

/-! ## Lists -/

inductive ListRoute where
  | deployments
  | deploymentsForModule (module : String)

/-- A list that a client asks for: the projects of the path, and the path as it is. -/
structure ListRequest where
  route : ListRoute
  projects : List String
  project : String
  region : String
  limit : Option Int
  isI64 : ∀ n, limit = some n → -9223372036854775808 ≤ n ∧ n < 9223372036854775808

namespace ListRequest

variable (r : ListRequest)

def fields : List (String × Json) :=
  match r.route with
  | .deployments => [("region", .string r.region)]
  | .deploymentsForModule module => [("region", .string r.region), ("module", .string module)]

def payload (token : Option String) : Json :=
  (PaginationQuery.mk r.limit token).addTo (setProjects r.projects r.project (.ofFields r.fields))

def handler (codec : Codec) (db : Backend) (token : Option String) : Handler Json :=
  match r.route with
  | .deployments => getDeploymentsImpl codec db (r.payload token) getAllDeploymentsQuery
  | .deploymentsForModule _ =>
      getDeploymentsForModuleImpl codec db (r.payload token) getDeploymentsUsingModuleQuery

def response (codec : Codec) (db : Backend) (token : Option String) : Except String Json :=
  ((r.handler codec db token).run []).1

/-- The page that a client makes of a response. -/
def source (codec : Codec) (db : Backend) (token : Option String) :
    Except String (Page String Json) :=
  (r.response codec db token).map fun response =>
    ⟨itemsOf response, (response.get? "next_token").bind Json.asStr⟩

def requested : List String :=
  if 1 < r.projects.length then r.projects else [r.project]

def query (project : String) : Query :=
  match r.route with
  | .deployments => getAllDeploymentsQuery project r.region "" false
  | .deploymentsForModule module =>
      getDeploymentsUsingModuleQuery project r.region module "" false

def dynamoQuery (project : String) : DynamoQuery :=
  .ofQuery [project] "deployments" (r.query project) (some r.region)

def dynamoLimit : Option Int :=
  r.limit.map toI32

/-! ### Payloads -/

theorem payload_region (token : Option String) :
    getParam (r.payload token) "region" = .ok r.region := by
  refine (getParam_setProjects r.project "region" _ _ _ (by decide) (by decide) (by decide)
    (by decide)).trans (getParam_ofFields ?_)
  unfold fields
  cases r.route <;> rfl

theorem payload_module {module : String} (hroute : r.route = .deploymentsForModule module)
    (token : Option String) : getParam (r.payload token) "module" = .ok module := by
  refine (getParam_setProjects r.project "module" _ _ _ (by decide) (by decide) (by decide)
    (by decide)).trans (getParam_ofFields ?_)
  rw [fields, hroute]
  rfl

theorem get?_fields {name : String} (hregion : name ≠ "region") (hmodule : name ≠ "module") :
    (Json.ofFields r.fields).get? name = none := by
  rw [Json.get?_ofFields, fields]
  cases r.route <;> simp [OrderedMap.lookup_cons_ite, hregion, hmodule]

theorem payload_projects (token : Option String) :
    (1 < r.projects.length →
      (r.payload token).get? "projects" = some (.array (r.projects.map .string))) ∧
    (¬ 1 < r.projects.length → (r.payload token).get? "projects" = none ∧
      getParam (r.payload token) "project" = .ok r.project) :=
  get?_setProjects r.project _ _ _ (r.get?_fields (by decide) (by decide))

theorem payload_includeDeleted (token : Option String) : includeDeleted (r.payload token) = false := by
  have hfield : (r.payload token).get? "include_deleted" = none := by
    rw [payload, get?_addTo _ _ (by decide) (by decide), setProjects]
    split <;> rw [Json.get?_set_of_ne (by decide), r.get?_fields (by decide) (by decide)]
  rw [includeDeleted, hfield]
  rfl

theorem get?_setProjects_none {name : String} (hregion : name ≠ "region") (hmodule : name ≠ "module")
    (hprojects : name ≠ "projects") (hproject : name ≠ "project") :
    (setProjects r.projects r.project (.ofFields r.fields)).get? name = none := by
  rw [setProjects]
  split
  · rw [Json.get?_set_of_ne hprojects, r.get?_fields hregion hmodule]
  · rw [Json.get?_set_of_ne hproject, r.get?_fields hregion hmodule]

/-- The fields of a page are read back, unless the payload below has them too. -/
theorem payload_page (token : Option String) :
    ((r.payload token).get? "limit").bind Json.asI64 = r.limit ∧
      ((r.payload token).get? "next_token").bind Json.asStr = token := by
  have hbase : ∃ base, setProjects r.projects r.project (.ofFields r.fields) = .object base := by
    rw [setProjects]
    split <;> exact ⟨_, rfl⟩
  obtain ⟨base, hbase⟩ := hbase
  have hlimit : base.lookup "limit" = none := by
    have h : (setProjects r.projects r.project (.ofFields r.fields)).get? "limit" = none :=
      r.get?_setProjects_none (by decide) (by decide) (by decide) (by decide)
    rwa [hbase] at h
  have htoken : base.lookup "next_token" = none := by
    have h : (setProjects r.projects r.project (.ofFields r.fields)).get? "next_token" = none :=
      r.get?_setProjects_none (by decide) (by decide) (by decide) (by decide)
    rwa [hbase] at h
  rw [payload, hbase, PaginationQuery.addTo]
  cases hl : r.limit with
  | none =>
      cases token with
      | none => simp [hlimit, htoken]
      | some token => simp [Json.set, OrderedMap.lookup_insert, hlimit, Json.asStr]
  | some limit =>
      have hrange : Json.asI64 (.number (.int limit)) = some limit := if_pos (r.isI64 limit hl)
      cases token with
      | none => simp [Json.set, OrderedMap.lookup_insert, htoken, hrange]
      | some token => simp [Json.set, OrderedMap.lookup_insert, Json.asStr, hrange]

end ListRequest

/-! ## Queries with a page -/

theorem lookup_queryFields (name : String) (fields : List (String × Json)) :
    (queryFields fields).lookup name = fields.reverse.lookup name :=
  Json.get?_ofFields name fields

theorem ListRequest.lookup_query (r : ListRequest) (project : String) {name : String}
    (hname : name = "Limit" ∨ name = "ExclusiveStartKey") : (r.query project).lookup name = none := by
  rw [query]
  cases r.route with
  | deployments =>
      rw [getAllDeploymentsQuery, if_neg Bool.false_ne_true, lookup_queryFields]
      rcases hname with rfl | rfl <;> rfl
  | deploymentsForModule module =>
      change (getDeploymentsUsingModuleQuery _ _ _ _ _).lookup name = none
      rw [getDeploymentsUsingModuleQuery, lookup_queryFields]
      rcases hname with rfl | rfl <;> rfl

section

variable (codec : Codec) (query : Query) (payload : Json)

theorem lookup_pageQuery {name : String} (hlimit : name ≠ "Limit")
    (hstart : name ≠ "ExclusiveStartKey") :
    (pageQuery codec query payload).lookup name = query.lookup name := by
  unfold pageQuery
  cases (payload.get? "limit").bind Json.asI64 <;>
    cases ((payload.get? "next_token").bind Json.asStr).bind codec.standardJson <;>
      simp [OrderedMap.lookup_insert, hlimit, hstart]

theorem lookup_limit_pageQuery (hquery : query.lookup "Limit" = none) :
    ((pageQuery codec query payload).lookup "Limit").bind Json.asI64 =
      (payload.get? "limit").bind Json.asI64 := by
  have hrange : ∀ limit, (payload.get? "limit").bind Json.asI64 = some limit →
      Json.asI64 (.number (.int limit)) = some limit := by
    intro limit h
    obtain ⟨v, -, hv⟩ := Option.bind_eq_some_iff.1 h
    unfold Json.asI64 at hv
    split at hv
    · split at hv
      · rename_i hrange
        obtain rfl := Option.some.inj hv
        exact if_pos hrange
      · cases hv
    · cases hv
  unfold pageQuery
  cases hlimit : (payload.get? "limit").bind Json.asI64 with
  | none =>
      cases ((payload.get? "next_token").bind Json.asStr).bind codec.standardJson <;>
        simp [OrderedMap.lookup_insert, hquery]
  | some limit =>
      cases ((payload.get? "next_token").bind Json.asStr).bind codec.standardJson <;>
        simp [OrderedMap.lookup_insert, hrange limit hlimit]

theorem lookup_start_pageQuery (hquery : query.lookup "ExclusiveStartKey" = none) :
    (pageQuery codec query payload).lookup "ExclusiveStartKey" =
      ((payload.get? "next_token").bind Json.asStr).bind codec.standardJson := by
  unfold pageQuery
  cases (payload.get? "limit").bind Json.asI64 <;>
    cases ((payload.get? "next_token").bind Json.asStr).bind codec.standardJson <;>
      simp [OrderedMap.lookup_insert, hquery]

theorem ofQuery_pageQuery (accounts : Accounts) (table : String) (region : Option String) :
    DynamoQuery.ofQuery accounts table (pageQuery codec query payload) region =
      DynamoQuery.ofQuery accounts table query region := by
  simp only [DynamoQuery.ofQuery]
  rw [lookup_pageQuery codec query payload (by decide) (by decide),
    lookup_pageQuery codec query payload (by decide) (by decide),
    lookup_pageQuery codec query payload (by decide) (by decide),
    lookup_pageQuery codec query payload (by decide) (by decide),
    lookup_pageQuery codec query payload (by decide) (by decide),
    lookup_pageQuery codec query payload (by decide) (by decide)]

end

/-! ## Responses -/

section

variable {dynamo : Dynamo} {encodeToken : Json → String} {codec : Codec} {db : Backend}

theorem get?_items_pageResponse (page : Page Json Json) :
    (pageResponse encodeToken page).get? "Items" = some (.array page.items) := by
  unfold pageResponse
  dsimp only
  split
  · rw [Json.get?_set_of_ne (by decide), Json.get?_set_of_ne (by decide), Json.get?_ofFields]
    rfl
  · rw [Json.get?_ofFields]
    rfl

theorem itemsOf_pageResponse (page : Page Json Json) :
    itemsOf (pageResponse encodeToken page) = page.items := by
  rw [itemsOf, get?_items_pageResponse]
  rfl

theorem nextToken_pageResponse {page : Page Json Json}
    (hkey : ∀ key, page.next = some key → ∃ field fields, key = .object (field :: fields)) :
    ((pageResponse encodeToken page).get? "next_token").bind Json.asStr =
      page.next.map encodeToken := by
  unfold pageResponse
  cases hnext : page.next with
  | none =>
      dsimp only
      rw [Json.get?_ofFields]
      rfl
  | some key =>
      obtain ⟨field, fields, rfl⟩ := hkey key hnext
      dsimp only
      simp [Json.ofFields, Json.set, Json.asStr]

/-- What DynamoDB answers for a project. -/
def ListRequest.answer (r : ListRequest) (dynamo : Dynamo) (encodeToken : Json → String)
    (project : String) (start : Option Json) : Except String Json :=
  ((dynamo (r.dynamoQuery project) start r.dynamoLimit).mapError
    ("DynamoDB query failed for table deployments: " ++ ·)).map (pageResponse encodeToken)

end

section

variable (dynamo : Dynamo) (encodeToken : Json → String) (codec : Codec) (db : Backend)

theorem run_queryAllForWorkload (r : ListRequest) (project : String) (token : Option String)
    (accounts : Accounts) :
    (queryAllForWorkload codec (awsBackend dynamo encodeToken db) project "deployments"
        (r.query project) (r.payload token)).run accounts =
      (r.answer dynamo encodeToken project ((token.bind codec.standardJson).bind objectOf),
        accounts ++ [project]) := by
  have hregion : ((r.payload token).get? "region").bind Json.asStr = some r.region := by
    have h := r.payload_region token
    unfold getParam at h
    cases hfield : ((r.payload token).get? "region").bind Json.asStr with
    | none =>
        rw [hfield] at h
        cases h
    | some region =>
        rw [hfield] at h
        exact congrArg some (Except.ok.inj h)
  have hquery : DynamoQuery.ofQuery (accounts ++ [project]) "deployments"
      (pageQuery codec (r.query project) (r.payload token)) (some r.region) =
        r.dynamoQuery project := by
    rw [ofQuery_pageQuery, DynamoQuery.ofQuery, List.getLast?_concat]
    rfl
  have hread : readDbDirect dynamo encodeToken (accounts ++ [project]) "deployments"
      (pageQuery codec (r.query project) (r.payload token)) (some r.region) =
        r.answer dynamo encodeToken project ((token.bind codec.standardJson).bind objectOf) := by
    rw [readDbDirect, hquery,
      lookup_limit_pageQuery _ _ _ (r.lookup_query project (Or.inl rfl)),
      lookup_start_pageQuery _ _ _ (r.lookup_query project (Or.inr rfl)),
      (r.payload_page token).1, (r.payload_page token).2]
    rfl
  rw [queryAllForWorkload, hregion]
  exact congrArg (fun x => (x, accounts ++ [project])) hread

theorem ListRequest.response_of_project {r : ListRequest} (h : ¬ 1 < r.projects.length)
    (token : Option String) :
    r.response codec (awsBackend dynamo encodeToken db) token =
      r.answer dynamo encodeToken r.project ((token.bind codec.standardJson).bind objectOf) := by
  obtain ⟨hnone, hproject⟩ := (r.payload_projects token).2 h
  have hrun := run_queryAllForWorkload dynamo encodeToken codec db r r.project token []
  rw [response, handler]
  cases hroute : r.route with
  | deployments =>
      rw [query, hroute] at hrun
      simp only [getDeploymentsImpl, r.payload_region, reply_ok_bind, hnone, Option.bind_none,
        hproject, r.payload_includeDeleted]
      exact congrArg Prod.fst hrun
  | deploymentsForModule module =>
      rw [query, hroute] at hrun
      simp only [getDeploymentsForModuleImpl, r.payload_region, r.payload_module hroute,
        reply_ok_bind, hnone, Option.bind_none, hproject, r.payload_includeDeleted]
      exact congrArg Prod.fst hrun

/-- The answers for all projects, in their order. -/
theorem run_joinAll (r : ListRequest) (token : Option String) (projects : List String)
    (accounts : Accounts) :
    ((joinAll (projects.map fun project => queryAllForWorkload codec
        (awsBackend dynamo encodeToken db) project "deployments" (r.query project)
        (r.payload token))).run accounts).1 =
      projects.map fun project =>
        r.answer dynamo encodeToken project ((token.bind codec.standardJson).bind objectOf) := by
  induction projects generalizing accounts with
  | nil => rfl
  | cons project projects ih =>
      have hfirst := run_queryAllForWorkload dynamo encodeToken codec db r project token accounts
      have hjoin : ∀ (future : Handler Json) futures, ((joinAll (future :: futures)).run accounts).1 =
          (future.run accounts).1 :: ((joinAll futures).run (future.run accounts).2).1 :=
        fun _ _ => rfl
      rw [List.map_cons, List.map_cons, hjoin, hfirst, ih]

theorem ListRequest.response_of_projects {r : ListRequest} (h : 1 < r.projects.length)
    (token : Option String) :
    r.response codec (awsBackend dynamo encodeToken db) token =
      aggregateItems (r.projects.map fun project =>
        r.answer dynamo encodeToken project ((token.bind codec.standardJson).bind objectOf)) := by
  have hprojects := (r.payload_projects token).1 h
  have hstrings : (r.projects.map Json.string).filterMap Json.asStr = r.projects := by
    rw [List.filterMap_map]
    exact List.filterMap_some
  have hrun := run_joinAll dynamo encodeToken codec db r token r.projects []
  rw [← hrun, response, handler]
  cases hroute : r.route with
  | deployments =>
      have hquery : r.query = fun project => getAllDeploymentsQuery project r.region "" false := by
        funext project
        rw [query, hroute]
      rw [hquery]
      simp only [getDeploymentsImpl, r.payload_region, reply_ok_bind, hprojects, Option.bind_some,
        Json.asArray, queryProjects, hstrings, r.payload_includeDeleted]
      rfl
  | deploymentsForModule module =>
      have hquery : r.query = fun project =>
          getDeploymentsUsingModuleQuery project r.region module "" false := by
        funext project
        rw [query, hroute]
      rw [hquery]
      simp only [getDeploymentsForModuleImpl, r.payload_region, r.payload_module hroute,
        reply_ok_bind, hprojects, Option.bind_some, Json.asArray, queryProjects, hstrings,
        r.payload_includeDeleted]
      rfl

end

/-! ## Complete lists -/

/-- What DynamoDB does: a limit below one is refused, and any other query is answered page by page
with the rows that it finds.  A key has the attributes of the index. -/
structure Reads (dynamo : Dynamo) (rows : DynamoQuery → List (Json × Option Json)) : Prop where
  refuses : ∀ query start limit, limit < 1 → ∃ e, dynamo query start (some limit) = .error e
  pages : ∀ query limit, (∀ n, limit = some n → 1 ≤ n) →
    Pages (fun start => dynamo query start limit) (rows query)
  keys : ∀ query, ∀ row ∈ rows query, ∃ field fields, row.1 = .object (field :: fields)

section

variable (rows : DynamoQuery → List (Json × Option Json)) (r : ListRequest)

/-- The items of a project that the list is for. -/
def ListRequest.matching (project : String) : List Json :=
  (rows (r.dynamoQuery project)).filterMap Prod.snd

/-- The client comes to an end, and has seen every item of every project that it asked for once. -/
def ListRequest.Complete (codec : Codec) (db : Backend) : Prop :=
  ∃ items, Listing (r.source codec db) none items ∧
    items.Perm (r.requested.flatMap (r.matching rows))

/-- The items of a project fit on its first page. -/
def ListRequest.FitsOnPage (dynamo : Dynamo) (project : String) : Prop :=
  ∃ page, dynamo (r.dynamoQuery project) none r.dynamoLimit = .ok page ∧
    page.items = r.matching rows project

end

section

variable {dynamo : Dynamo} {encodeToken : Json → String} {codec : Codec} {db : Backend}
  {rows : DynamoQuery → List (Json × Option Json)} {r : ListRequest}

theorem ListRequest.answer_eq_ok {project : String} {start : Option Json} {response : Json} :
    r.answer dynamo encodeToken project start = .ok response ↔
      ∃ page, dynamo (r.dynamoQuery project) start r.dynamoLimit = .ok page ∧
        response = pageResponse encodeToken page := by
  rw [answer]
  cases dynamo (r.dynamoQuery project) start r.dynamoLimit with
  | error e =>
      constructor
      · intro h
        cases h
      · rintro ⟨page, hpage, -⟩
        cases hpage
  | ok page =>
      constructor
      · intro h
        exact ⟨page, rfl, (Except.ok.inj h).symm⟩
      · rintro ⟨page', hpage, rfl⟩
        rw [Except.ok.inj hpage]
        rfl

theorem aggregateItems_eq_ok {results : List (Except String Json)} {response : Json} :
    aggregateItems results = .ok response ↔ ∃ vals : List Json, results = vals.map Except.ok ∧
      response = .ofFields [("Items", .array (vals.flatMap itemsOf)),
        ("Count", .number (.int (vals.flatMap itemsOf).length))] := by
  have hmap : ∀ (results : List (Except String Json)) (vals : List Json),
      results.mapM id = .ok vals ↔ results = vals.map Except.ok := by
    intro results
    induction results with
    | nil =>
        intro vals
        rw [List.mapM_nil]
        constructor
        · intro h
          rw [← Except.ok.inj h]
          rfl
        · intro h
          rw [List.map_eq_nil_iff.1 h.symm]
          rfl
    | cons result results ih =>
        intro vals
        rw [List.mapM_cons]
        simp only [id_eq, bind_eq_ok_iff, ih]
        constructor
        · rintro ⟨val, rfl, vals', rfl, hvals⟩
          rw [← Except.ok.inj hvals]
          rfl
        · intro h
          cases vals with
          | nil => cases h
          | cons val vals =>
              obtain ⟨rfl, hvals⟩ := List.cons.inj h
              exact ⟨val, rfl, vals, hvals, rfl⟩
  simp only [aggregateItems, bind_eq_ok_iff, hmap]
  constructor
  · rintro ⟨vals, hvals, h⟩
    exact ⟨vals, hvals, (Except.ok.inj h).symm⟩
  · rintro ⟨vals, hvals, rfl⟩
    exact ⟨vals, hvals, rfl⟩

theorem Reads.one_le (h : Reads dynamo rows) {query : DynamoQuery} {limit : Option Int}
    {page : Page Json Json} (hpage : dynamo query none limit = .ok page) :
    ∀ n, limit = some n → 1 ≤ n := by
  rintro n rfl
  by_contra hlow
  obtain ⟨e, he⟩ := h.refuses query none n (by omega)
  rw [hpage] at he
  cases he

/-- The list of one project goes on from page to page. -/
theorem ListRequest.complete_of_project (h : Reads dynamo rows)
    (htoken : ∀ query, ∀ row ∈ rows query, codec.standardJson (encodeToken row.1) = some row.1)
    (hproject : ¬ 1 < r.projects.length) :
    r.Complete rows codec (awsBackend dynamo encodeToken db) ↔
      ∀ n, r.dynamoLimit = some n → 1 ≤ n := by
  have hrequested : r.requested.flatMap (r.matching rows) = r.matching rows r.project := by
    rw [requested, if_neg hproject, List.flatMap_singleton]
  rw [Complete, hrequested]
  constructor
  · rintro ⟨items, hlisting, -⟩
    obtain ⟨page, hpage⟩ := hlisting.of_error
    rw [source, r.response_of_project dynamo encodeToken codec db hproject] at hpage
    cases hanswer : r.answer dynamo encodeToken r.project none with
    | error e =>
        change (r.answer dynamo encodeToken r.project none).map _ = _ at hpage
        rw [hanswer] at hpage
        cases hpage
    | ok response =>
        obtain ⟨page, hpage, -⟩ := r.answer_eq_ok.1 hanswer
        exact h.one_le hpage
  · intro hlimit
    refine ⟨_, Pages.listing_map (f := encodeToken) (h.pages (r.dynamoQuery r.project) _ hlimit)
      fun cursor page hcursor hpage hnext => ?_, .refl _⟩
    have hstart : ((cursor.map encodeToken).bind codec.standardJson).bind objectOf = cursor := by
      cases cursor with
      | none => rfl
      | some key =>
          obtain ⟨row, hrow, rfl⟩ := hcursor key rfl
          obtain ⟨field, fields, hkey⟩ := h.keys _ row hrow
          rw [Option.map_some, Option.bind_some, htoken _ row hrow, hkey]
          rfl
    have hanswer : r.answer dynamo encodeToken r.project cursor =
        .ok (pageResponse encodeToken page) := r.answer_eq_ok.2 ⟨page, hpage, rfl⟩
    rw [source, r.response_of_project dynamo encodeToken codec db hproject, hstart, hanswer]
    have hkeys : ∀ key, page.next = some key → ∃ field fields, key = .object (field :: fields) := by
      intro key hkey
      obtain ⟨row, hrow, rfl⟩ := hnext key hkey
      exact h.keys _ row hrow
    have hmap : (⟨itemsOf (pageResponse encodeToken page),
        ((pageResponse encodeToken page).get? "next_token").bind Json.asStr⟩ : Page String Json) =
          page.map encodeToken := by
      rw [itemsOf_pageResponse, nextToken_pageResponse hkeys]
      rfl
    exact congrArg Except.ok hmap

/-- A list of several projects has no token, so that only first pages are seen. -/
theorem ListRequest.complete_of_projects (h : Reads dynamo rows)
    (hprojects : 1 < r.projects.length) :
    r.Complete rows codec (awsBackend dynamo encodeToken db) ↔
      ∀ project ∈ r.projects, r.FitsOnPage rows dynamo project := by
  have hrequested : r.requested = r.projects := if_pos hprojects
  -- What the client makes of first pages.
  have hsource : ∀ pages : String → Page Json Json,
      (∀ project ∈ r.projects,
        dynamo (r.dynamoQuery project) none r.dynamoLimit = .ok (pages project)) →
      r.source codec (awsBackend dynamo encodeToken db) none =
        .ok ⟨r.projects.flatMap fun project => (pages project).items, none⟩ := by
    intro pages hpages
    have hanswers : (r.projects.map fun project => r.answer dynamo encodeToken project none) =
        (r.projects.map fun project => pageResponse encodeToken (pages project)).map Except.ok := by
      rw [List.map_map]
      refine List.map_congr_left fun project hproject => ?_
      exact r.answer_eq_ok.2 ⟨_, hpages project hproject, rfl⟩
    have hitems : (r.projects.map fun project =>
        pageResponse encodeToken (pages project)).flatMap itemsOf =
          r.projects.flatMap fun project => (pages project).items := by
      rw [List.flatMap_map]
      exact List.flatMap_congr fun project _ => itemsOf_pageResponse _
    rw [source, r.response_of_projects dynamo encodeToken codec db hprojects]
    change (aggregateItems (r.projects.map fun project =>
      r.answer dynamo encodeToken project none)).map _ = _
    rw [aggregateItems_eq_ok.2 ⟨_, hanswers, rfl⟩, hitems]
    have htoken : ∀ items : List Json, (Json.ofFields [("Items", .array items),
        ("Count", .number (.int items.length))]).get? "next_token" = none := by
      intro items
      rw [Json.get?_ofFields]
      rfl
    have hlist : ∀ items : List Json, itemsOf (Json.ofFields [("Items", .array items),
        ("Count", .number (.int items.length))]) = items := by
      intro items
      rw [itemsOf, Json.get?_ofFields]
      rfl
    change Except.ok (Page.mk (itemsOf _) ((Json.get? "next_token" _).bind Json.asStr)) = _
    rw [htoken, hlist]
    rfl
  rw [Complete, hrequested]
  constructor
  · rintro ⟨items, hlisting, hperm⟩
    obtain ⟨page, hpage⟩ := hlisting.of_error
    rw [source, r.response_of_projects dynamo encodeToken codec db hprojects] at hpage
    change (aggregateItems (r.projects.map fun project =>
      r.answer dynamo encodeToken project none)).map _ = _ at hpage
    cases hresponse : aggregateItems (r.projects.map fun project =>
        r.answer dynamo encodeToken project none) with
    | error e =>
        rw [hresponse] at hpage
        cases hpage
    | ok response =>
        obtain ⟨vals, hvals, -⟩ := aggregateItems_eq_ok.1 hresponse
        have hok : ∀ project ∈ r.projects, ∃ page,
            dynamo (r.dynamoQuery project) none r.dynamoLimit = .ok page := by
          intro project hproject
          have hmem : r.answer dynamo encodeToken project none ∈ vals.map Except.ok := by
            rw [← hvals]
            exact List.mem_map_of_mem hproject
          obtain ⟨val, -, hval⟩ := List.mem_map.1 hmem
          obtain ⟨page, hpage, -⟩ := r.answer_eq_ok.1 hval.symm
          exact ⟨page, hpage⟩
        choose! pages hpages using hok
        rw [listing_iff_of_last (hsource pages hpages) rfl] at hlisting
        subst hlisting
        have hfirst : ∀ project ∈ r.projects,
            (pages project).items <+: r.matching rows project := fun project hproject =>
          (h.pages _ _ (h.one_le (hpages project hproject))).first (hpages project hproject)
        intro project hproject
        exact ⟨_, hpages project hproject, eq_of_prefix_of_perm hfirst hperm project hproject⟩
  · intro hfits
    choose! pages hpages using hfits
    have hitems : (r.projects.flatMap fun project => (pages project).items) =
        r.projects.flatMap (r.matching rows) :=
      List.flatMap_congr fun project hproject => (hpages project hproject).2
    refine ⟨_, .last (hsource pages fun project hproject => (hpages project hproject).1) rfl, ?_⟩
    exact .of_eq hitems

/-- A list is complete when it is of one project and its limit is accepted, or when the items of
each of its projects fit on one page. -/
theorem ListRequest.complete_iff (h : Reads dynamo rows)
    (htoken : ∀ query, ∀ row ∈ rows query, codec.standardJson (encodeToken row.1) = some row.1) :
    r.Complete rows codec (awsBackend dynamo encodeToken db) ↔
      (1 < r.projects.length → ∀ project ∈ r.projects, r.FitsOnPage rows dynamo project) ∧
        (¬ 1 < r.projects.length → ∀ n, r.dynamoLimit = some n → 1 ≤ n) := by
  by_cases hprojects : 1 < r.projects.length
  · rw [r.complete_of_projects h hprojects]
    exact ⟨fun hfits => ⟨fun _ => hfits, absurd hprojects⟩, fun hcond => hcond.1 hprojects⟩
  · rw [r.complete_of_project h htoken hprojects]
    exact ⟨fun hlimit => ⟨fun hmany => absurd hmany hprojects, fun _ => hlimit⟩, fun hcond =>
      hcond.2 hprojects⟩

end

/-! ### Two deployments in each of two projects -/

def storedKey (project sk : String) : Json :=
  .object [("PK", .string ("DEPLOYMENT#" ++ project)), ("SK", .string sk)]

def storedKeys : List Json :=
  [storedKey "111111111111" "a", storedKey "111111111111" "b", storedKey "222222222222" "a",
    storedKey "222222222222" "b"]

/-- A query finds the rows of its account. -/
def storedRows (query : DynamoQuery) : List (Json × Option Json) :=
  (storedKeys.filter fun key =>
    key.get? "PK" = some (.string ("DEPLOYMENT#" ++ query.account.getD ""))).map fun key =>
      (key, some key)

/-- As many rows on a page as the limit says. -/
def limitedDynamo : Dynamo := fun query start limit =>
  match limit with
  | none => .ok (take (storedRows query) 1000 start)
  | some n =>
      if n < 1 then .error "ValidationException" else .ok (take (storedRows query) n.toNat start)

theorem reads_limitedDynamo : Reads limitedDynamo storedRows where
  refuses query start limit hlimit := ⟨_, if_pos hlimit⟩
  pages query limit hlimit := by
    have hkeys : ((storedRows query).map Prod.fst).Nodup := by
      have hstored : storedKeys.Nodup := by decide
      rw [storedRows, List.map_map]
      exact (List.map_id _).symm ▸ hstored.filter _
    cases limit with
    | none => exact pages_take hkeys (by decide)
    | some n =>
        have hn := hlimit n rfl
        have hsource : (fun start => limitedDynamo query start (some n)) = fun start =>
            .ok (take (storedRows query) n.toNat start) := by
          funext start
          exact if_neg (by omega)
        rw [hsource]
        exact pages_take hkeys (by omega)
  keys query row hrow := by
    obtain ⟨key, hkey, rfl⟩ := List.mem_map.1 hrow
    have hobject : ∀ key ∈ storedKeys, ∃ field fields, key = .object (field :: fields) := by
      simp [storedKeys, storedKey]
    exact hobject key (List.mem_of_mem_filter hkey)

/-- The texts of both attributes of a key. -/
def keyToken (key : Json) : String :=
  let text := fun name => ((key.get? name).bind Json.asStr).getD ""
  text "PK" ++ "|" ++ text "SK"

def keyCodec : Codec where
  urlSafeJson _ := none
  standardJson token := storedKeys.find? fun key => keyToken key = token

theorem keyCodec_keyToken : ∀ query, ∀ row ∈ storedRows query,
    keyCodec.standardJson (keyToken row.1) = some row.1 := by
  intro query row hrow
  obtain ⟨key, hkey, rfl⟩ := List.mem_map.1 hrow
  have hdecode : ∀ key ∈ storedKeys, keyCodec.standardJson (keyToken key) = some key := by
    decide +kernel
  exact hdecode key (List.mem_of_mem_filter hkey)

def listOf (projects : List String) : ListRequest where
  route := .deployments
  projects
  project := ",".intercalate projects
  region := "eu-central-1"
  limit := some 1
  isI64 n hn := by
    obtain rfl := Option.some.inj hn
    decide

theorem complete_oneProject :
    (listOf ["111111111111"]).Complete storedRows keyCodec
      (awsBackend limitedDynamo keyToken oneProjectApi.db) := by
  refine (ListRequest.complete_iff reads_limitedDynamo keyCodec_keyToken).2
    ⟨fun hmany => absurd hmany (by decide), fun _ n hn => ?_⟩
  obtain rfl := Option.some.inj hn
  decide

theorem not_complete_twoProjects :
    ¬ (listOf ["111111111111", "222222222222"]).Complete storedRows keyCodec
      (awsBackend limitedDynamo keyToken oneProjectApi.db) := by
  intro hcomplete
  have hfits := (ListRequest.complete_of_projects reads_limitedDynamo (by decide)).1 hcomplete
    "111111111111" List.mem_cons_self
  obtain ⟨page, hpage, hitems⟩ := hfits
  obtain rfl := Except.ok.inj hpage
  exact absurd hitems (by decide +kernel)

end InternalApi
end InfraWeave
