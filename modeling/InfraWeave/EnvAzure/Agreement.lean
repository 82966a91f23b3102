import InfraWeave.EnvAwsDirect.Queries
import InfraWeave.EnvAzure.Queries

/-!
# Queries in two languages

The two providers ask their databases the same questions.  With the same rows in both, some queries
give the same answers for whatever the table holds, some for tables that meet a condition, and some
never.
-/

namespace InfraWeave
namespace EnvAzure

universe v

variable {ν : Type v}

/-- The rows of a table, which are known by their keys. -/
structure TableRows (ν : Type v) where
  attr : ν → String → Option Attribute
  rows : List ν
  nodup : rows.Nodup
  keyed : ∀ row ∈ rows, (attr row "PK").isSome = true ∧ (attr row "SK").isSome = true
  unique : ∀ a ∈ rows, ∀ b ∈ rows, attr a "PK" = attr b "PK" → attr a "SK" = attr b "SK" → a = b

/-- The answers of Cosmos DB are answers of DynamoDB. -/
abbrev TableRows.Agree (t : TableRows ν) (table : TableSchema) (q : PartitionQuery)
    (c : DocumentQuery) : Prop :=
  c.Agrees t.attr q table t.rows

section

variable {t : TableRows ν} {table : TableSchema} {schema : KeySchema} {q : PartitionQuery}
  {c : DocumentQuery}

/-- The queries have the same conditions, and where only the partition is named every row of it has
the attribute that it is sorted by. -/
structure Twins (q : PartitionQuery) (c : DocumentQuery) (table : TableSchema) (schema : KeySchema) :
    Prop where
  suits : q.Suits table schema
  filter : c.filter = q.keyCondition.map .test ++ q.filter
  range : q.keyCondition.length = 2 ∨ schema.range = "PK" ∨ schema.range = "SK"

theorem Twins.isSome_range (h : Twins q c table schema) {row : ν} (hrow : row ∈ t.rows) :
    q.keyCondition.length = 2 ∨ (t.attr row schema.range).isSome = true := by
  rcases h.range with hlength | hrange | hrange
  · exact Or.inl hlength
  · exact Or.inr (hrange ▸ (t.keyed row hrow).1)
  · exact Or.inr (hrange ▸ (t.keyed row hrow).2)

theorem Twins.selects_eq (h : Twins q c table schema) {row : ν} (hrow : row ∈ t.rows)
    (hdefined : ∀ filter ∈ c.filter,
      filter.isPositive = true ∨ (filter.value? (t.attr row)).isSome = true) :
    q.selects schema t.attr row = c.selects t.attr row :=
  h.suits.selects_eq (fun filter => by rw [h.filter]) (h.isSome_range hrow) hdefined

/-- No condition is undefined where it would hold. -/
def IsPositive (c : DocumentQuery) : Prop :=
  c.filter.all Filter.isPositive = true

theorem Twins.selects_eq_of_isPositive (h : Twins q c table schema) (hpositive : IsPositive c) :
    ∀ row ∈ t.rows, q.selects schema t.attr row = c.selects t.attr row :=
  fun _ hrow => h.selects_eq hrow fun filter hfilter =>
    Or.inl (List.all_eq_true.1 hpositive filter hfilter)

/-- With one condition that is not positive, only rows count for which it is undefined and the others
hold: DynamoDB selects these and Cosmos DB does not. -/
theorem Twins.selects_eq_iff (h : Twins q c table schema) {before : List Filter} {last : Filter}
    (hsplit : c.filter = before ++ [last]) (hpositive : before.all Filter.isPositive = true)
    {row : ν} (hrow : row ∈ t.rows)
    (hundefined : last.value? (t.attr row) = none → last.holds (t.attr row) = true) :
    q.selects schema t.attr row = c.selects t.attr row ↔
      ((∀ filter ∈ before, filter.holds (t.attr row) = true) →
        (last.value? (t.attr row)).isSome = true) := by
  have hdynamo := h.suits.selects_iff (h.isSome_range hrow)
  rw [← h.filter, hsplit, List.forall_mem_append, List.forall_mem_singleton] at hdynamo
  have hcosmos : c.selects t.attr row = true ↔
      (∀ filter ∈ before, filter.holds (t.attr row) = true) ∧ last.value? (t.attr row) = some true := by
    rw [DocumentQuery.selects, hsplit, List.all_eq_true, List.forall_mem_append,
      List.forall_mem_singleton, decide_eq_true_eq]
    refine and_congr_left fun _ => forall₂_congr fun filter hfilter => ?_
    rw [decide_eq_true_eq]
    exact Filter.value?_eq_true_iff (Or.inl (List.all_eq_true.1 hpositive filter hfilter))
  rw [Bool.eq_iff_iff, hdynamo, hcosmos]
  refine and_congr_right_iff.trans (imp_congr_right fun _ => ?_)
  constructor
  · intro hiff
    by_contra hnone
    rw [Option.not_isSome_iff_eq_none] at hnone
    have hvalue := hiff.1 (hundefined hnone)
    rw [hnone] at hvalue
    cases hvalue
  · intro hsome
    exact ⟨Filter.value?_of_isSome hsome, Filter.holds_of_value?⟩

theorem Twins.agree_iff_defined (h : Twins q c table schema) (hlimit : q.limit = none)
    (hopen : q.scanIndexForward = none) (htop : c.top = none) {before : List Filter} {last : Filter}
    (hsplit : c.filter = before ++ [last]) (hpositive : before.all Filter.isPositive = true)
    (hundefined : ∀ attr : String → Option Attribute, last.value? attr = none →
      last.holds attr = true) :
    t.Agree table q c ↔ ∀ row ∈ t.rows, (∀ filter ∈ before, filter.holds (t.attr row) = true) →
      (last.value? (t.attr row)).isSome = true :=
  (DocumentQuery.agrees_iff_selects h.suits hlimit hopen htop).trans
    (forall₂_congr fun _ hrow => h.selects_eq_iff hsplit hpositive hrow (hundefined _))

/-- Lists in no order. -/
theorem Twins.agree_of_isPositive (h : Twins q c table schema) (hpositive : IsPositive c)
    (hlimit : q.limit = none) (hopen : q.scanIndexForward = none) (htop : c.top = none) :
    t.Agree table q c :=
  (DocumentQuery.agrees_iff_selects h.suits hlimit hopen htop).2
    (h.selects_eq_of_isPositive hpositive)

theorem selects_iff_of_isPositive (hpositive : IsPositive c) {row : ν} :
    c.selects t.attr row = true ↔ ∀ filter ∈ c.filter, filter.holds (t.attr row) = true := by
  simp only [DocumentQuery.selects, List.all_eq_true, decide_eq_true_eq]
  exact forall₂_congr fun filter hmem =>
    Filter.value?_eq_true_iff (Or.inl (List.all_eq_true.1 hpositive filter hmem))

theorem eq_of_selects {name : String} {value : Attribute}
    (hmem : Filter.test (.equals name value) ∈ c.filter) {row : ν}
    (h : c.selects t.attr row = true) : t.attr row name = some value := by
  have hvalue := of_decide_eq_true (List.all_eq_true.1 h _ hmem)
  exact of_decide_eq_true (Filter.holds_of_value? hvalue)

/-- Rows of one partition that are sorted alike are the same. -/
theorem eq_of_selects_pk {pk : String} (hmem : pkIs pk ∈ c.filter) {a b : ν} (ha : a ∈ t.rows)
    (hb : b ∈ t.rows) (hselected : c.selects t.attr a = true) (hselected' : c.selects t.attr b = true)
    (hsk : t.attr a "SK" = t.attr b "SK") : a = b := by
  have hpk := eq_of_selects hmem hselected
  have hpk' := eq_of_selects hmem hselected'
  exact t.unique a ha b hb (hpk.trans hpk'.symm) hsk

theorem suits_keyQuery (hprimary : table.primary = ⟨"PK", "SK"⟩) (pk sk : String)
    (limit : Option Nat) : (EnvAwsDirect.keyQuery pk sk limit).Suits table ⟨"PK", "SK"⟩ :=
  ⟨congrArg some hprimary, rfl⟩

/-- Queries for one row. -/
theorem agree_keyQuery (hprimary : table.primary = ⟨"PK", "SK"⟩) (pk sk : String)
    {limit top : Option Nat} (hlimit : limit ≠ some 0) (htop : top ≠ some 0)
    (orderBy : Option String) :
    t.Agree table (EnvAwsDirect.keyQuery pk sk limit) ⟨[pkIs pk, skIs sk], orderBy, top⟩ := by
  have htwins : Twins (EnvAwsDirect.keyQuery pk sk limit) ⟨[pkIs pk, skIs sk], orderBy, top⟩ table
      ⟨"PK", "SK"⟩ := ⟨suits_keyQuery hprimary pk sk limit, rfl, Or.inl rfl⟩
  have hpositive : IsPositive ⟨[pkIs pk, skIs sk], orderBy, top⟩ := rfl
  refine DocumentQuery.agrees_of_unique htwins.suits rfl hlimit htop t.nodup
    (htwins.selects_eq_of_isPositive hpositive) fun a ha b hb hselected hselected' => ?_
  have hsk := eq_of_selects (List.mem_cons_of_mem _ List.mem_cons_self) hselected
  have hsk' := eq_of_selects (List.mem_cons_of_mem _ List.mem_cons_self) hselected'
  exact eq_of_selects_pk List.mem_cons_self ha hb hselected hselected' (hsk.trans hsk'.symm)

end

/-! ## Single rows -/

/-- Where a version is no version both queries panic. -/
def AgreeIfAny (t : TableRows ν) (table : TableSchema) (q : Option PartitionQuery)
    (c : Option DocumentQuery) : Prop :=
  Option.Rel (t.Agree table) q c

theorem agreeIfAny_map {α : Type} {t : TableRows ν} {table : TableSchema} (version : Option α)
    {q : α → PartitionQuery} {c : α → DocumentQuery} (h : ∀ v, t.Agree table (q v) (c v)) :
    AgreeIfAny t table (version.map q) (version.map c) := by
  cases version with
  | none => exact .none
  | some v => exact .some (h v)

/-- Every query for a single row gives the same row in both databases, whatever the table holds. -/
theorem agree_rows (t : TableRows ν) :
    (∀ module track, t.Agree EnvAwsDirect.modulesTable
        (EnvAwsDirect.getLatestModuleVersionQuery module track)
        (getLatestModuleVersionQuery module track)) ∧
      (∀ stack track, t.Agree EnvAwsDirect.modulesTable
        (EnvAwsDirect.getLatestStackVersionQuery stack track)
        (getLatestStackVersionQuery stack track)) ∧
      (∀ provider, t.Agree EnvAwsDirect.modulesTable
        (EnvAwsDirect.getLatestProviderVersionQuery provider)
        (getLatestProviderVersionQuery provider)) ∧
      (∀ module track version, AgreeIfAny t EnvAwsDirect.modulesTable
        (EnvAwsDirect.getModuleVersionQuery module track version)
        (getModuleVersionQuery module track version)) ∧
      (∀ stack track version, AgreeIfAny t EnvAwsDirect.modulesTable
        (EnvAwsDirect.getStackVersionQuery stack track version)
        (getStackVersionQuery stack track version)) ∧
      (∀ provider version, AgreeIfAny t EnvAwsDirect.modulesTable
        (EnvAwsDirect.getProviderVersionQuery provider version)
        (getProviderVersionQuery provider version)) ∧
      (∀ policy environment version, AgreeIfAny t EnvAwsDirect.policiesTable
        (EnvAwsDirect.getPolicyQuery policy environment version)
        (getPolicyQuery policy environment version)) ∧
      ∀ projectId region environment deploymentId jobId changeType,
        t.Agree EnvAwsDirect.changeRecordsTable
          (EnvAwsDirect.getChangeRecordsQuery projectId region environment deploymentId jobId changeType)
          (getChangeRecordsQuery projectId region environment deploymentId jobId changeType) := by
  have hone : some 1 ≠ some 0 := by decide
  have hnone : (none : Option Nat) ≠ some 0 := by decide
  refine ⟨?_, ?_, ?_, ?_, ?_, ?_, ?_, ?_⟩
  · exact fun module track => agree_keyQuery rfl _ _ hone hnone none
  · exact fun stack track => agree_keyQuery rfl _ _ hone hnone none
  · exact fun provider => agree_keyQuery rfl _ _ hone hnone none
  · exact fun module track version =>
      agreeIfAny_map _ fun v => agree_keyQuery rfl _ _ hone hone none
  · exact fun stack track version =>
      agreeIfAny_map _ fun v => agree_keyQuery rfl _ _ hone hone none
  · exact fun provider version =>
      agreeIfAny_map _ fun v => agree_keyQuery rfl _ _ hone hone none
  · exact fun policy environment version =>
      agreeIfAny_map _ fun v => agree_keyQuery rfl _ _ hone hone none
  · exact fun projectId region environment deploymentId jobId changeType =>
      agree_keyQuery rfl _ _ hnone hnone none

/-! ## Lists -/

/-- These queries for deployments give the same rows in both databases, whatever the table holds. -/
theorem agree_deployments (t : TableRows ν) :
    (∀ projectId region environment, t.Agree EnvAwsDirect.deploymentsTable
        (EnvAwsDirect.getAllDeploymentsQuery projectId region environment false).partitioned
        (getAllDeploymentsQuery projectId region environment false)) ∧
      (∀ projectId region deploymentId environment, t.Agree EnvAwsDirect.deploymentsTable
        (EnvAwsDirect.getDeploymentAndDependentsQuery projectId region deploymentId environment
          true).partitioned
        (getDeploymentAndDependentsQuery projectId region deploymentId environment true)) ∧
      (∀ projectId region deploymentId environment includeDeleted,
        t.Agree EnvAwsDirect.deploymentsTable
          (EnvAwsDirect.getDeploymentQuery projectId region deploymentId environment
            includeDeleted).partitioned
          (getDeploymentQuery projectId region deploymentId environment includeDeleted)) ∧
      (∀ projectId region module environment includeDeleted,
        t.Agree EnvAwsDirect.deploymentsTable
          (EnvAwsDirect.getDeploymentsUsingModuleQuery projectId region module environment
            includeDeleted).partitioned
          (getDeploymentsUsingModuleQuery projectId region module environment includeDeleted)) ∧
      (∀ projectId region deploymentId environment, t.Agree EnvAwsDirect.deploymentsTable
        (EnvAwsDirect.getDependentsQuery projectId region deploymentId environment).partitioned
        (getDependentsQuery projectId region deploymentId environment)) ∧
      ∀ projectId region epoch, t.Agree EnvAwsDirect.deploymentsTable
        (EnvAwsDirect.getDeploymentsToDriftcheckQuery projectId region epoch).partitioned
        (getDeploymentsToDriftcheckQuery projectId region epoch) := by
  refine ⟨?_, ?_, ?_, ?_, ?_, ?_⟩
  · intro projectId region environment
    exact Twins.agree_of_isPositive ⟨⟨rfl, rfl⟩, rfl, Or.inl rfl⟩ rfl rfl rfl rfl
  · intro projectId region deploymentId environment
    exact Twins.agree_of_isPositive ⟨⟨rfl, rfl⟩, rfl, Or.inr (Or.inr rfl)⟩ rfl rfl rfl rfl
  · intro projectId region deploymentId environment includeDeleted
    cases includeDeleted with
    | true => exact Twins.agree_of_isPositive ⟨⟨rfl, rfl⟩, rfl, Or.inl rfl⟩ rfl rfl rfl rfl
    | false => exact Twins.agree_of_isPositive ⟨⟨rfl, rfl⟩, rfl, Or.inl rfl⟩ rfl rfl rfl rfl
  · intro projectId region module environment includeDeleted
    exact Twins.agree_of_isPositive ⟨⟨rfl, rfl⟩, rfl, Or.inl rfl⟩ rfl rfl rfl rfl
  · intro projectId region deploymentId environment
    exact Twins.agree_of_isPositive ⟨⟨rfl, rfl⟩, rfl, Or.inl rfl⟩ rfl rfl rfl rfl
  · intro projectId region epoch
    exact Twins.agree_of_isPositive ⟨⟨rfl, rfl⟩, rfl, Or.inl rfl⟩ rfl rfl rfl rfl

/-- So do the queries for the latest providers, for the policies of an environment and for the
regions of a project. -/
theorem agree_listings (t : TableRows ν) :
    t.Agree EnvAwsDirect.modulesTable EnvAwsDirect.getAllLatestProvidersQuery
        getAllLatestProvidersQuery ∧
      (∀ environment, t.Agree EnvAwsDirect.policiesTable
        (EnvAwsDirect.getAllPoliciesQuery environment) (getAllPoliciesQuery environment)) ∧
      ∀ projectId, ∃ c, getCurrentProjectQuery projectId = .query c ∧
        t.Agree EnvAwsDirect.configTable (EnvAwsDirect.getCurrentProjectQuery projectId) c := by
  refine ⟨?_, ?_, ?_⟩
  · exact Twins.agree_of_isPositive ⟨⟨rfl, rfl⟩, rfl, Or.inr (Or.inr rfl)⟩ rfl rfl rfl rfl
  · intro environment
    exact Twins.agree_of_isPositive ⟨⟨rfl, rfl⟩, rfl, Or.inl rfl⟩ rfl rfl rfl rfl
  · intro projectId
    refine ⟨_, rfl, ?_⟩
    exact Twins.agree_of_isPositive ⟨⟨rfl, rfl⟩, rfl, Or.inr (Or.inl rfl)⟩ rfl rfl rfl rfl

/-! ## Attributes that may be missing -/

section

variable {attr : String → Option Attribute} {name : String}

theorem isSome_value?_differs {n : Int} :
    ((Filter.test (.differs name (.number n))).value? attr).isSome = true ↔
      ∃ m, attr name = some (.number m) := by
  simp only [Filter.value?, Condition.value?]
  cases attr name with
  | none => simp
  | some found => cases found <;> simp [Attribute.sameType]

theorem holds_differs_of_undefined {n : Int}
    (h : (Filter.test (.differs name (.number n))).value? attr = none) :
    (Filter.test (.differs name (.number n))).holds attr = true := by
  have hnumber : ¬ ∃ m, attr name = some (.number m) := by
    rw [← isSome_value?_differs, h]
    exact Bool.false_ne_true
  exact decide_eq_true fun heq => hnumber ⟨n, heq⟩

theorem isSome_value?_not_beginsWith {start : String} :
    ((Filter.not (.test (.beginsWith name start))).value? attr).isSome = true ↔
      ∃ s, attr name = some (.text s) := by
  simp only [Filter.value?, Condition.value?]
  cases attr name with
  | none => simp
  | some found => cases found <;> simp

theorem holds_not_beginsWith_of_undefined {start : String}
    (h : (Filter.not (.test (.beginsWith name start))).value? attr = none) :
    (Filter.not (.test (.beginsWith name start))).holds attr = true := by
  have htext : ¬ ∃ s, attr name = some (.text s) := by
    rw [← isSome_value?_not_beginsWith, h]
    exact Bool.false_ne_true
  simp only [Filter.holds, Condition.holds, Bool.not_eq_true']
  cases hfound : attr name with
  | none => rfl
  | some found =>
      cases found with
      | text s => exact absurd ⟨s, hfound⟩ htext
      | number n => rfl
      | flag b => rfl

end

/-- A deployment with its dependents, without what is deleted: the databases agree exactly when every
row of the deployment says in a number whether it is deleted. -/
theorem agree_deploymentAndDependents_iff (t : TableRows ν)
    (projectId region deploymentId environment : String) :
    t.Agree EnvAwsDirect.deploymentsTable
        (EnvAwsDirect.getDeploymentAndDependentsQuery projectId region deploymentId environment
          false).partitioned
        (getDeploymentAndDependentsQuery projectId region deploymentId environment false) ↔
      ∀ row ∈ t.rows, t.attr row "PK" = some (.text ("DEPLOYMENT#" ++
          getDeploymentIdentifier projectId region deploymentId environment)) →
        ∃ n, t.attr row "deleted" = some (.number n) := by
  have htwins : Twins
      (EnvAwsDirect.getDeploymentAndDependentsQuery projectId region deploymentId environment
        false).partitioned
      (getDeploymentAndDependentsQuery projectId region deploymentId environment false)
      EnvAwsDirect.deploymentsTable ⟨"PK", "SK"⟩ := ⟨⟨rfl, rfl⟩, rfl, Or.inr (Or.inr rfl)⟩
  have hsplit : (getDeploymentAndDependentsQuery projectId region deploymentId environment
      false).filter = [pkIs _] ++ [.test (.differs "deleted" (.number 1))] := rfl
  refine (htwins.agree_iff_defined rfl rfl rfl hsplit rfl
    fun _ => holds_differs_of_undefined).trans (forall₂_congr fun row hrow => ?_)
  rw [isSome_value?_differs, List.forall_mem_singleton]
  exact imp_congr_left decide_eq_true_iff

theorem agree_planDeployment_iff (t : TableRows ν)
    (projectId region deploymentId environment jobId : String) :
    t.Agree EnvAwsDirect.deploymentsTable
        (EnvAwsDirect.getPlanDeploymentQuery projectId region deploymentId environment
          jobId).partitioned
        (getPlanDeploymentQuery projectId region deploymentId environment jobId) ↔
      ∀ row ∈ t.rows, t.attr row "PK" = some (.text ("PLAN#" ++
          getDeploymentIdentifier projectId region deploymentId environment)) →
        t.attr row "SK" = some (.text jobId) → ∃ n, t.attr row "deleted" = some (.number n) := by
  have htwins : Twins
      (EnvAwsDirect.getPlanDeploymentQuery projectId region deploymentId environment
        jobId).partitioned
      (getPlanDeploymentQuery projectId region deploymentId environment jobId)
      EnvAwsDirect.deploymentsTable ⟨"PK", "SK"⟩ := ⟨⟨rfl, rfl⟩, rfl, Or.inl rfl⟩
  have hsplit : (getPlanDeploymentQuery projectId region deploymentId environment jobId).filter =
      [pkIs _, skIs jobId] ++ [.test (.differs "deleted" (.number 1))] := rfl
  refine (htwins.agree_iff_defined rfl rfl rfl hsplit rfl
    fun _ => holds_differs_of_undefined).trans (forall₂_congr fun row hrow => ?_)
  rw [isSome_value?_differs, List.forall_mem_cons, List.forall_mem_singleton, and_imp]
  exact imp_congr decide_eq_true_iff (imp_congr_left decide_eq_true_iff)

/-! ## Lists of versions -/

theorem versionFilters_eq : versionFilters = EnvAwsDirect.versionFilters := rfl

/-- With development versions left out, a version that is no text is left out in Cosmos DB only. -/
theorem Twins.selects_eq_iff_version {t : TableRows ν} {table : TableSchema} {schema : KeySchema}
    {q : PartitionQuery} {c : DocumentQuery} (h : Twins q c table schema) {keys : List Filter}
    (includeDeprecated : Bool) {includeDev000 : Bool} (hkeys : keys.all Filter.isPositive = true)
    (hfilter : c.filter = keys ++ versionFilters includeDeprecated includeDev000)
    {row : ν} (hrow : row ∈ t.rows) :
    q.selects schema t.attr row = c.selects t.attr row ↔
      (includeDev000 = false →
        (selectWhere (keys ++ versionFilters includeDeprecated true)).selects t.attr row = true →
          ∃ s, t.attr row "version" = some (.text s)) := by
  have hpositive : (keys ++ versionFilters includeDeprecated true).all Filter.isPositive = true := by
    rw [List.all_append, hkeys]
    cases includeDeprecated <;> rfl
  cases includeDev000 with
  | true =>
      have hsame : IsPositive c := by rw [IsPositive, hfilter]; exact hpositive
      simp [h.selects_eq_of_isPositive hsame row hrow]
  | false =>
      have hsplit : c.filter = (keys ++ versionFilters includeDeprecated true) ++
          [.not (.test (.beginsWith "version" "0.0.0-dev"))] := by
        rw [hfilter]
        simp [versionFilters]
      rw [h.selects_eq_iff hsplit hpositive hrow holds_not_beginsWith_of_undefined,
        isSome_value?_not_beginsWith]
      have hselects : (selectWhere (keys ++ versionFilters includeDeprecated true)).selects t.attr
          row = true ↔ ∀ filter ∈ keys ++ versionFilters includeDeprecated true,
            filter.holds (t.attr row) = true := by
        simp only [DocumentQuery.selects, selectWhere, List.all_eq_true, decide_eq_true_eq]
        exact forall₂_congr fun filter hmem => Filter.value?_eq_true_iff
          (Or.inl (List.all_eq_true.1 hpositive filter hmem))
      rw [hselects]
      simp

/-- The conditions on the keys of the latest versions. -/
def latestKeys (pk track : String) : List Filter :=
  pkIs pk :: if track.isEmpty then [] else [skStarts ("MODULE#" ++ track ++ "::")]

theorem twins_allLatest (pk track : String) (includeDeprecated includeDev000 : Bool) :
    Twins (EnvAwsDirect.allLatestQuery pk track includeDeprecated includeDev000)
      (allLatestQuery pk track includeDeprecated includeDev000) EnvAwsDirect.modulesTable
      ⟨"PK", "SK"⟩ := by
  refine ⟨⟨rfl, ?_⟩, ?_, Or.inr (Or.inr rfl)⟩
  · by_cases htrack : track.isEmpty = true <;> cases includeDeprecated <;> cases includeDev000 <;>
      simp [EnvAwsDirect.allLatestQuery, PartitionQuery.accepted, Query.keyConditionAccepted, htrack,
        EnvAwsDirect.versionFilters, Filter.names, Condition.name, Condition.isRange]
  · by_cases htrack : track.isEmpty = true <;>
      simp [EnvAwsDirect.allLatestQuery, allLatestQuery, selectWhere, htrack, versionFilters_eq,
        pkIs, skStarts]

/-- The latest modules, and the latest stacks: the databases agree when development versions are
asked for, and otherwise exactly when the version of every one that is listed with them is a text. -/
theorem agree_allLatest_iff (t : TableRows ν) (pk track : String)
    (includeDeprecated includeDev000 : Bool) :
    t.Agree EnvAwsDirect.modulesTable
        (EnvAwsDirect.allLatestQuery pk track includeDeprecated includeDev000)
        (allLatestQuery pk track includeDeprecated includeDev000) ↔
      (includeDev000 = false → ∀ row ∈ t.rows,
        (allLatestQuery pk track includeDeprecated true).selects t.attr row = true →
          ∃ s, t.attr row "version" = some (.text s)) := by
  have htwins := twins_allLatest pk track includeDeprecated includeDev000
  have hkeys : (latestKeys pk track).all Filter.isPositive = true := by
    unfold latestKeys
    split <;> rfl
  have hagrees : t.Agree EnvAwsDirect.modulesTable
      (EnvAwsDirect.allLatestQuery pk track includeDeprecated includeDev000)
      (allLatestQuery pk track includeDeprecated includeDev000) ↔ _ :=
    DocumentQuery.agrees_iff_selects htwins.suits rfl rfl rfl
  rw [hagrees, forall_comm]
  refine forall_congr' fun row => ?_
  rw [forall_comm]
  exact forall_congr' fun hrow => htwins.selects_eq_iff_version includeDeprecated hkeys rfl hrow

/-- All versions of a module, the newest first: Cosmos DB promises no order, so that the databases
agree only where at most one version is listed. -/
theorem agree_allModuleVersions_iff (t : TableRows ν) (module track : String)
    (includeDeprecated includeDev000 : Bool) :
    t.Agree EnvAwsDirect.modulesTable
        (EnvAwsDirect.getAllModuleVersionsQuery module track includeDeprecated includeDev000)
        (getAllModuleVersionsQuery module track includeDeprecated includeDev000) ↔
      (includeDev000 = false → ∀ row ∈ t.rows,
        (getAllModuleVersionsQuery module track includeDeprecated true).selects t.attr row = true →
          ∃ s, t.attr row "version" = some (.text s)) ∧
        ∀ a ∈ t.rows, ∀ b ∈ t.rows,
          (getAllModuleVersionsQuery module track includeDeprecated includeDev000).selects t.attr a =
            true →
          (getAllModuleVersionsQuery module track includeDeprecated includeDev000).selects t.attr b =
            true →
            a = b := by
  have htwins : Twins
      (EnvAwsDirect.getAllModuleVersionsQuery module track includeDeprecated includeDev000)
      (getAllModuleVersionsQuery module track includeDeprecated includeDev000)
      EnvAwsDirect.modulesTable ⟨"PK", "SK"⟩ := by
    refine ⟨⟨rfl, ?_⟩, rfl, Or.inl rfl⟩
    cases includeDeprecated <;> cases includeDev000 <;> rfl
  have hkeys : [pkIs (EnvCommon.moduleId module track), skStarts "VERSION#"].all
      Filter.isPositive = true := rfl
  constructor
  · intro hagrees
    have hselects := DocumentQuery.selects_eq_of_agrees htwins.suits rfl rfl hagrees
    refine ⟨fun hdev row hrow hlisted => ?_, fun a ha b hb hselected hselected' => ?_⟩
    · exact (htwins.selects_eq_iff_version includeDeprecated hkeys rfl hrow).1 (hselects row hrow) hdev
        hlisted
    · have hsame := (DocumentQuery.agrees_iff_of_noOrder htwins.suits rfl hselects rfl rfl rfl).1
        hagrees a ha b hb hselected hselected'
      exact eq_of_selects_pk List.mem_cons_self ha hb hselected hselected' hsame
  · rintro ⟨hversions, hone⟩
    have hselects : ∀ row ∈ t.rows, _ = _ := fun row hrow =>
      (htwins.selects_eq_iff_version includeDeprecated hkeys rfl hrow).2 fun hdev hlisted =>
        hversions hdev row hrow hlisted
    refine (DocumentQuery.agrees_iff_of_noOrder htwins.suits rfl hselects rfl rfl rfl).2
      fun a ha b hb hselected hselected' => ?_
    rw [hone a ha b hb hselected hselected']

/-! ## Refused queries -/

/-- DynamoDB refuses two queries, so that the databases agree on no table: that for all deployments
with the deleted ones, and that for the deleted deployments of an environment. -/
theorem not_agree_refused (t : TableRows ν) (projectId region environment : String) :
    ¬ t.Agree EnvAwsDirect.deploymentsTable
        (EnvAwsDirect.getAllDeploymentsQuery projectId region environment true).partitioned
        (getAllDeploymentsQuery projectId region environment true) ∧
      ¬ t.Agree EnvAwsDirect.deploymentsTable
        (EnvAwsDirect.getDeploymentHistoryDeletedQuery projectId region
          (some environment)).partitioned
        (getDeploymentHistoryDeletedQuery projectId region (some environment)) :=
  ⟨DocumentQuery.not_agrees_of_refused rfl rfl, DocumentQuery.not_agrees_of_refused rfl rfl⟩

/-! ## Histories -/

/-- What the keys of the plans of an environment, or of all environments, begin with. -/
def plansStart (projectId region : String) (environment : Option String) : String :=
  match environment with
  | some env => "PLAN#" ++ getDeploymentIdentifier projectId region "" env
  | none => "PLAN#" ++ projectId ++ "::" ++ region

/-- The history of plans: the databases agree exactly when, of the rows whose key begins as asked for,
those in the partition of plans are those that are not deleted. -/
theorem agree_deploymentHistoryPlans_iff (t : TableRows ν) (projectId region : String)
    (environment : Option String) :
    t.Agree EnvAwsDirect.deploymentsTable
        (EnvAwsDirect.getDeploymentHistoryPlansQuery projectId region environment).partitioned
        (getDeploymentHistoryPlansQuery projectId region environment) ↔
      ∀ row ∈ t.rows,
        (Condition.beginsWith "PK" (plansStart projectId region environment)).holds (t.attr row) =
          true →
        (t.attr row "deleted_PK_base" = some (.text ("0|PLAN#" ++ projectId ++ "::" ++ region)) ↔
          t.attr row "deleted" = some (.number 0)) := by
  have hsuits : (EnvAwsDirect.getDeploymentHistoryPlansQuery projectId region
      environment).partitioned.Suits EnvAwsDirect.deploymentsTable ⟨"deleted_PK_base", "PK"⟩ :=
    ⟨rfl, rfl⟩
  have hagrees : t.Agree EnvAwsDirect.deploymentsTable
      (EnvAwsDirect.getDeploymentHistoryPlansQuery projectId region environment).partitioned
      (getDeploymentHistoryPlansQuery projectId region environment) ↔ _ :=
    DocumentQuery.agrees_iff_selects hsuits rfl rfl rfl
  refine hagrees.trans (forall₂_congr fun row _ => ?_)
  have hpositive : IsPositive (getDeploymentHistoryPlansQuery projectId region environment) := rfl
  rw [Bool.eq_iff_iff, hsuits.selects_iff (Or.inl rfl), selects_iff_of_isPositive hpositive]
  have hdynamo : (EnvAwsDirect.getDeploymentHistoryPlansQuery projectId region
      environment).partitioned.keyCondition.map Filter.test ++
        (EnvAwsDirect.getDeploymentHistoryPlansQuery projectId region environment).partitioned.filter =
      [.test (.equals "deleted_PK_base" (.text ("0|PLAN#" ++ projectId ++ "::" ++ region))),
       pkStarts (plansStart projectId region environment)] := rfl
  have hcosmos : (getDeploymentHistoryPlansQuery projectId region environment).filter =
      [pkStarts (plansStart projectId region environment), deletedIs 0] := rfl
  rw [hdynamo, hcosmos, List.forall_mem_cons, List.forall_mem_singleton, List.forall_mem_cons,
    List.forall_mem_singleton, and_comm, and_congr_right_iff]
  exact imp_congr_right fun _ => iff_congr decide_eq_true_iff decide_eq_true_iff

/-- The history of deleted deployments: the databases agree exactly when the partition of deleted
deployments has those rows of deployments that say that they are deleted. -/
theorem agree_deploymentHistoryDeleted_iff (t : TableRows ν) (projectId region : String) :
    t.Agree EnvAwsDirect.deploymentsTable
        (EnvAwsDirect.getDeploymentHistoryDeletedQuery projectId region none).partitioned
        (getDeploymentHistoryDeletedQuery projectId region none) ↔
      ∀ row ∈ t.rows, t.attr row "SK" = some (.text "METADATA") →
        (t.attr row "deleted_PK_base" =
            some (.text ("1|DEPLOYMENT#" ++ projectId ++ "::" ++ region)) ↔
          (Condition.beginsWith "PK" ("DEPLOYMENT#" ++ projectId ++ "::" ++ region)).holds
              (t.attr row) = true ∧
            t.attr row "deleted" = some (.number 1)) := by
  have hsuits : (EnvAwsDirect.getDeploymentHistoryDeletedQuery projectId region
      none).partitioned.Suits EnvAwsDirect.deploymentsTable ⟨"deleted_PK_base", "PK"⟩ := ⟨rfl, rfl⟩
  have hagrees : t.Agree EnvAwsDirect.deploymentsTable
      (EnvAwsDirect.getDeploymentHistoryDeletedQuery projectId region none).partitioned
      (getDeploymentHistoryDeletedQuery projectId region none) ↔ _ :=
    DocumentQuery.agrees_iff_selects hsuits rfl rfl rfl
  refine hagrees.trans (forall₂_congr fun row hrow => ?_)
  have hpositive : IsPositive (getDeploymentHistoryDeletedQuery projectId region none) := rfl
  rw [Bool.eq_iff_iff, hsuits.selects_iff (Or.inr (t.keyed row hrow).1),
    selects_iff_of_isPositive hpositive]
  have hdynamo : (EnvAwsDirect.getDeploymentHistoryDeletedQuery projectId region
      none).partitioned.keyCondition.map Filter.test ++
        (EnvAwsDirect.getDeploymentHistoryDeletedQuery projectId region none).partitioned.filter =
      [.test (.equals "deleted_PK_base"
        (.text ("1|DEPLOYMENT#" ++ projectId ++ "::" ++ region))), skIs "METADATA"] := rfl
  have hcosmos : (getDeploymentHistoryDeletedQuery projectId region none).filter =
      [pkStarts ("DEPLOYMENT#" ++ projectId ++ "::" ++ region), deletedIs 1, skIs "METADATA"] := rfl
  rw [hdynamo, hcosmos, List.forall_mem_cons, List.forall_mem_singleton, List.forall_mem_cons,
    List.forall_mem_cons, List.forall_mem_singleton, ← and_assoc, and_congr_left_iff]
  exact imp_congr decide_eq_true_iff
    (iff_congr decide_eq_true_iff (and_congr_right fun _ => decide_eq_true_iff))

/-! ## Events -/

theorem eventFilter_eq : eventFilter = EnvAwsDirect.eventFilter := rfl

theorem of_mem_eventFilter {eventType : Option String} {filter : Filter}
    (h : filter ∈ EnvAwsDirect.eventFilter eventType) :
    filter.isPositive = true ∧ ∀ name ∈ filter.names, name = "event" := by
  have hevent (value : Attribute) : (Filter.test (.equals "event" value)).isPositive = true ∧
      ∀ name ∈ (Filter.test (.equals "event" value)).names, name = "event" :=
    ⟨rfl, fun name hname => List.mem_singleton.1 hname⟩
  unfold EnvAwsDirect.eventFilter at h
  split at h
  · cases h
  · rcases List.mem_singleton.1 h with rfl
    refine ⟨rfl, fun name hname => ?_⟩
    exact (List.mem_append.1 hname).elim List.mem_singleton.1 List.mem_singleton.1
  · rcases List.mem_singleton.1 h with rfl
    exact hevent _
  · split at h
    · cases h
    · rcases List.mem_singleton.1 h with rfl
      exact hevent _

/-- Events of a deployment come in the same order. -/
theorem agree_events (t : TableRows ν) (projectId region deploymentId environment : String)
    (eventType : Option String) :
    t.Agree EnvAwsDirect.eventsTable
      (EnvAwsDirect.getEventsQuery projectId region deploymentId environment eventType)
      (getEventsQuery projectId region deploymentId environment eventType) := by
  have hnames : (EnvAwsDirect.getEventsQuery projectId region deploymentId environment
      eventType).accepted ⟨"PK", "SK"⟩ = true := by
    refine Bool.and_eq_true_iff.2 ⟨rfl, List.all_eq_true.2 fun filter hfilter => ?_⟩
    refine List.all_eq_true.2 fun name hname => ?_
    -- The filter names no key attribute.
    rw [(of_mem_eventFilter hfilter).2 name hname]
    decide
  have htwins : Twins
      (EnvAwsDirect.getEventsQuery projectId region deploymentId environment eventType)
      (getEventsQuery projectId region deploymentId environment eventType)
      EnvAwsDirect.eventsTable ⟨"PK", "SK"⟩ := ⟨⟨rfl, hnames⟩, rfl, Or.inr (Or.inr rfl)⟩
  have hpositive : IsPositive
      (getEventsQuery projectId region deploymentId environment eventType) := by
    refine List.all_eq_true.2 fun filter hfilter => ?_
    rcases List.mem_cons.1 hfilter with rfl | hevent
    · rfl
    · exact (of_mem_eventFilter hevent).1
  exact DocumentQuery.agrees_of_sameOrder htwins.suits rfl
    (htwins.selects_eq_of_isPositive hpositive) rfl rfl rfl

/-- Events between two times, the newest first: Cosmos DB promises no order, so that the databases
agree exactly when all of them have the same time. -/
theorem agree_allEventsBetween_iff (t : TableRows ν) (region : String) (startEpoch endEpoch : Nat) :
    t.Agree EnvAwsDirect.eventsTable
        (EnvAwsDirect.getAllEventsBetweenQuery region startEpoch endEpoch)
        (getAllEventsBetweenQuery region startEpoch endEpoch) ↔
      ∀ a ∈ t.rows, ∀ b ∈ t.rows,
        (getAllEventsBetweenQuery region startEpoch endEpoch).selects t.attr a = true →
        (getAllEventsBetweenQuery region startEpoch endEpoch).selects t.attr b = true →
          t.attr a "SK" = t.attr b "SK" := by
  have htwins : Twins (EnvAwsDirect.getAllEventsBetweenQuery region startEpoch endEpoch)
      (getAllEventsBetweenQuery region startEpoch endEpoch) EnvAwsDirect.eventsTable
      ⟨"PK_base_region", "SK"⟩ := ⟨⟨rfl, rfl⟩, rfl, Or.inl rfl⟩
  have hselects := htwins.selects_eq_of_isPositive (t := t) rfl
  exact DocumentQuery.agrees_iff_of_noOrder htwins.suits rfl hselects rfl rfl rfl

/-! ## Change records -/

/-- The change records of a deployment, the newest first: DynamoDB goes by the epoch and Cosmos DB by
the job, so that the databases agree exactly when every record has an epoch and jobs with a greater
name are not earlier. -/
theorem agree_changeRecordsForDeployment_iff (t : TableRows ν)
    (projectId region environment deploymentId changeType : String) :
    t.Agree EnvAwsDirect.changeRecordsTable
        (EnvAwsDirect.getChangeRecordsForDeploymentQuery projectId region environment deploymentId
          changeType)
        (getChangeRecordsForDeploymentQuery projectId region environment deploymentId changeType) ↔
      (∀ row ∈ t.rows, t.attr row "PK" =
          some (.text (changeRecordPk changeType projectId region deploymentId environment)) →
        (t.attr row "epoch").isSome = true) ∧
        ∀ a ∈ t.rows, ∀ b ∈ t.rows,
          t.attr a "PK" =
            some (.text (changeRecordPk changeType projectId region deploymentId environment)) →
          t.attr b "PK" =
            some (.text (changeRecordPk changeType projectId region deploymentId environment)) →
          Falling t.attr "SK" a b → Falling t.attr "epoch" a b := by
  have hsuits : (EnvAwsDirect.getChangeRecordsForDeploymentQuery projectId region environment
      deploymentId changeType).Suits EnvAwsDirect.changeRecordsTable ⟨"PK", "epoch"⟩ := ⟨rfl, rfl⟩
  have hcosmos (row : ν) :
      (getChangeRecordsForDeploymentQuery projectId region environment deploymentId
        changeType).selects t.attr row = true ↔
      t.attr row "PK" =
        some (.text (changeRecordPk changeType projectId region deploymentId environment)) := by
    have hpositive : IsPositive (getChangeRecordsForDeploymentQuery projectId region environment
        deploymentId changeType) := rfl
    exact (selects_iff_of_isPositive hpositive).trans
      (List.forall_mem_singleton.trans decide_eq_true_iff)
  have hdynamo (row : ν) :
      (EnvAwsDirect.getChangeRecordsForDeploymentQuery projectId region environment deploymentId
        changeType).selects ⟨"PK", "epoch"⟩ t.attr row = true ↔
      t.attr row "PK" =
          some (.text (changeRecordPk changeType projectId region deploymentId environment)) ∧
        (t.attr row "epoch").isSome = true := by
    constructor
    · intro hselects
      obtain ⟨hreads, -⟩ := Bool.and_eq_true_iff.1 hselects
      obtain ⟨hkeys, hpk⟩ := Bool.and_eq_true_iff.1 hreads
      obtain ⟨-, hepoch⟩ := Bool.and_eq_true_iff.1 hkeys
      exact ⟨of_decide_eq_true (List.all_eq_true.1 hpk _ List.mem_cons_self), hepoch⟩
    · rintro ⟨hpk, hepoch⟩
      refine (hsuits.selects_iff (Or.inr hepoch)).2 ?_
      exact List.forall_mem_singleton.2 (decide_eq_true hpk)
  have hdistinct : ∀ a ∈ t.rows, ∀ b ∈ t.rows, _ = true → _ = true → _ = _ → a = b :=
    fun a ha b hb hselected hselected' =>
      eq_of_selects_pk (c := getChangeRecordsForDeploymentQuery projectId region environment
        deploymentId changeType) List.mem_cons_self ha hb hselected hselected'
  simp only [← hcosmos]
  constructor
  · intro hagrees
    have hselects := DocumentQuery.selects_eq_of_agrees hsuits rfl rfl hagrees
    have horder := (DocumentQuery.agrees_iff_of_order hsuits rfl hselects rfl rfl rfl hdistinct).1
      hagrees
    refine ⟨fun row hrow hselected => ?_, horder⟩
    exact ((hdynamo row).1 ((hselects row hrow).trans hselected)).2
  · rintro ⟨hepoch, horder⟩
    have hselects : ∀ row ∈ t.rows, _ = _ := fun row hrow => by
      refine Bool.eq_iff_iff.2 ((hdynamo row).trans ?_)
      rw [hcosmos]
      exact and_iff_left_of_imp fun hpk => hepoch row hrow ((hcosmos row).2 hpk)
    exact (DocumentQuery.agrees_iff_of_order hsuits rfl hselects rfl rfl rfl hdistinct).2 horder

/-! ## Policies -/

/-- The newest policy: DynamoDB takes that of the greatest version, and Cosmos DB the one that has
been stored last, so that the databases agree exactly when each that may have been stored last has
the greatest version. -/
theorem agree_newestPolicyVersion_iff (t : TableRows ν) (policy environment : String) :
    t.Agree EnvAwsDirect.policiesTable
        (EnvAwsDirect.getNewestPolicyVersionQuery policy environment)
        (getNewestPolicyVersionQuery policy environment) ↔
      ∀ a ∈ t.rows, t.attr a "PK" = some (.text (EnvCommon.policyId policy environment)) →
        (∀ b ∈ t.rows, t.attr b "PK" = some (.text (EnvCommon.policyId policy environment)) →
          Falling t.attr "_ts" a b) →
        ∀ b ∈ t.rows, t.attr b "PK" = some (.text (EnvCommon.policyId policy environment)) →
          Falling t.attr "SK" a b := by
  have htwins : Twins (EnvAwsDirect.getNewestPolicyVersionQuery policy environment)
      (getNewestPolicyVersionQuery policy environment) EnvAwsDirect.policiesTable ⟨"PK", "SK"⟩ :=
    ⟨⟨rfl, rfl⟩, rfl, Or.inr (Or.inr rfl)⟩
  have hselects := htwins.selects_eq_of_isPositive (t := t) rfl
  have hagrees : t.Agree EnvAwsDirect.policiesTable
      (EnvAwsDirect.getNewestPolicyVersionQuery policy environment)
      (getNewestPolicyVersionQuery policy environment) ↔ _ :=
    DocumentQuery.agrees_iff_of_first htwins.suits rfl hselects rfl rfl rfl rfl
  have hcosmos (row : ν) :
      (getNewestPolicyVersionQuery policy environment).selects t.attr row = true ↔
        t.attr row "PK" = some (.text (EnvCommon.policyId policy environment)) := by
    have hpositive : IsPositive (getNewestPolicyVersionQuery policy environment) := rfl
    exact (selects_iff_of_isPositive hpositive).trans
      (List.forall_mem_singleton.trans decide_eq_true_iff)
  rw [hagrees]
  simp only [List.mem_filter, hcosmos, and_imp]

end EnvAzure
end InfraWeave
