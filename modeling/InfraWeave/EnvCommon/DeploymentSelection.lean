import InfraWeave.EnvCommon.DeploymentKeys
import InfraWeave.EnvCommon.DeploymentRuns

/-!
# What the queries on deployments select

Each query should select the rows of deployments, or of plans, of one project and region, and in
these those of an environment, a module and a `deleted` flag.
-/

namespace InfraWeave
namespace EnvCommon

open EnvAwsDirect

inductive SelectionKind where
  | allDeployments (environment : String) (includeDeleted : Bool)
  | deployment (deploymentId environment : String) (includeDeleted : Bool)
  | usingModule (module environment : String) (includeDeleted : Bool)
  | historyPlans (environment : Option String)
  | historyDeleted (environment : Option String)
  deriving DecidableEq

structure Selection where
  projectId : String
  region : String
  kind : SelectionKind

namespace SelectionKind

def withDeleted : SelectionKind → SelectionKind
  | allDeployments environment _ => allDeployments environment true
  | deployment deploymentId environment _ => deployment deploymentId environment true
  | usingModule module environment _ => usingModule module environment true
  | kind => kind

/-- The environment that is asked for; none, or an empty one, stands for all. -/
def environment : SelectionKind → String
  | allDeployments environment _ => environment
  | deployment _ environment _ => environment
  | usingModule _ environment _ => environment
  | historyPlans environment => environment.getD ""
  | historyDeleted environment => environment.getD ""

/-- The queries that DynamoDB accepts and that have the prefixes of the writer: all but three. -/
def supported : SelectionKind → Bool
  | allDeployments _ includeDeleted => !includeDeleted
  | usingModule _ _ includeDeleted => !includeDeleted
  | historyDeleted environment => environment.isNone
  | _ => true

/-- What is asked for besides project, region and environment. -/
def Matches (record : DeploymentResp) (isPlan : Bool) : SelectionKind → Prop
  | allDeployments _ includeDeleted =>
      isPlan = false ∧ (includeDeleted = true ∨ record.deleted = false)
  | deployment deploymentId environment includeDeleted =>
      isPlan = false ∧ record.deploymentId = deploymentId ∧ record.environment = environment ∧
        (includeDeleted = true ∨ record.deleted = false)
  | usingModule module _ includeDeleted =>
      isPlan = false ∧ record.module = module ∧ (includeDeleted = true ∨ record.deleted = false)
  | historyPlans _ => isPlan = true ∧ record.deleted = false
  | historyDeleted _ => isPlan = false ∧ record.deleted = true

end SelectionKind

namespace Selection

def query (s : Selection) : Query :=
  match s.kind with
  | .allDeployments environment includeDeleted =>
      getAllDeploymentsQuery s.projectId s.region environment includeDeleted
  | .deployment deploymentId environment includeDeleted =>
      getDeploymentQuery s.projectId s.region deploymentId environment includeDeleted
  | .usingModule module environment includeDeleted =>
      getDeploymentsUsingModuleQuery s.projectId s.region module environment includeDeleted
  | .historyPlans environment => getDeploymentHistoryPlansQuery s.projectId s.region environment
  | .historyDeleted environment =>
      getDeploymentHistoryDeletedQuery s.projectId s.region environment

def withDeleted (s : Selection) : Selection :=
  { s with kind := s.kind.withDeleted }

/-- The record is one that is asked for. -/
def Wants (s : Selection) (record : DeploymentResp) (isPlan : Bool) : Prop :=
  record.projectId = s.projectId ∧ record.region = s.region ∧
    (s.kind.environment = "" ∨ record.environment = s.kind.environment) ∧
    s.kind.Matches record isPlan

/-- The query returns the rows of the records that are asked for, and nothing else. -/
def Exact (t : Deployments) (s : Selection) : Prop :=
  ∃ rows, t.read s.query = .ok rows ∧
    ∀ row, row ∈ rows ↔ ∃ record isPlan, s.Wants record isPlan ∧
      row = ((getPayload record isPlan).1, .deployment (getPayload record isPlan).2) ∧
      t.item row.1 = some row.2

/-- With deleted deployments included, no row is missing. -/
def Grows (t : Deployments) (s : Selection) : Prop :=
  ∀ rows, t.read s.query = .ok rows →
    ∃ rows', t.read s.withDeleted.query = .ok rows' ∧ ∀ row ∈ rows, row ∈ rows'

/-- The names of a record can be told from its keys; in the index of modules a `#` comes after the
region. -/
structure Readable (s : Selection) (record : DeploymentResp) : Prop where
  project : Plain record.projectId
  region : Plain record.region
  environment : Plain record.environment
  environment_ne : record.environment ≠ ""
  module : ∀ module environment includeDeleted,
    s.kind = .usingModule module environment includeDeleted → '#' ∉ record.region.toList

/-- The names that are asked for can be told from the keys. -/
structure PlainNames (s : Selection) : Prop where
  project : Plain s.projectId
  region : Plain s.region
  environment : Plain s.kind.environment
  module : ∀ module environment includeDeleted,
    s.kind = .usingModule module environment includeDeleted → '#' ∉ s.region.toList

end Selection

/-! ## Conditions on the rows of records -/

theorem holds_equals_text {attr : String → Option Attribute} {name value text : String}
    (h : attr name = some (.text value)) :
    (Condition.equals name (.text text)).holds attr = true ↔ value = text := by
  simp [Condition.holds, h]

theorem holds_beginsWith_text {attr : String → Option Attribute} {name value start : String}
    (h : attr name = some (.text value)) :
    (Condition.beginsWith name start).holds attr = true ↔ start.toList <+: value.toList := by
  simp [Condition.holds, h, List.isPrefixOf_iff_prefix]

/-- The row that is written for a record. -/
def recordRow (record : DeploymentResp) (isPlan : Bool) : Key × DeploymentRow :=
  ((getPayload record isPlan).1, .deployment (getPayload record isPlan).2)

theorem recordRow_pk_prefix_iff {record : DeploymentResp} {isPlan : Bool} {start : String} :
    ("DEPLOYMENT#" ++ start).toList <+: (recordRow record isPlan).1.pk.toList ↔
      isPlan = false ∧ start.toList <+: record.identifier.toList := by
  cases isPlan <;> simp [recordRow, getPayload, List.cons_prefix_cons]

theorem recordRow_plan_pk_prefix_iff {record : DeploymentResp} {isPlan : Bool} {start : String} :
    ("PLAN#" ++ start).toList <+: (recordRow record isPlan).1.pk.toList ↔
      isPlan = true ∧ start.toList <+: record.identifier.toList := by
  cases isPlan <;> simp [recordRow, getPayload, List.cons_prefix_cons]

variable {t : Deployments} {s : Selection}

/-- A query on an index is exact when its conditions hold of the row of a record exactly when the
record is asked for; the rows of dependents are in no index. -/
theorem Selection.exact_of_index (hwf : t.WellFormed) (schema : KeySchema)
    (hschema : s.query.schema? deploymentKeys deploymentIndexes = some schema)
    (haccepted : s.query.accepted schema = true)
    (hdependent : ∀ key item, DeploymentRow.attr (key, .dependent item) schema.hash = none)
    (hattrs : ∀ record isPlan,
      (DeploymentRow.attr (recordRow record isPlan) schema.hash).isSome = true ∧
        (DeploymentRow.attr (recordRow record isPlan) schema.range).isSome = true)
    (hconditions : ∀ record isPlan,
      t.item (recordRow record isPlan).1 = some (recordRow record isPlan).2 →
        (((∀ condition ∈ s.query.keyCondition,
            condition.holds (DeploymentRow.attr (recordRow record isPlan)) = true) ∧
          ∀ condition ∈ s.query.filter,
            condition.holds (DeploymentRow.attr (recordRow record isPlan)) = true) ↔
          s.Wants record isPlan)) :
    s.Exact t := by
  refine ⟨_, Query.evaluate_of_accepted hschema haccepted DeploymentRow.attr t.rows, ?_⟩
  rintro ⟨key, row⟩
  rw [Query.mem_select, KeyedTable.mem_rows_iff]
  constructor
  · rintro ⟨hrow, hhash, -, hholds⟩
    cases row with
    | dependent item =>
        rw [hdependent] at hhash
        cases hhash
    | deployment item =>
        obtain ⟨isPlan, hpayload⟩ := hwf _ _ hrow
        have heq : (key, DeploymentRow.deployment item) = recordRow item.record isPlan := by
          rw [recordRow, ← hpayload]
        rw [heq] at hholds
        have hrow' : t.item (recordRow item.record isPlan).1 =
            some (recordRow item.record isPlan).2 := by
          rw [← heq]
          exact hrow
        exact ⟨item.record, isPlan, (hconditions _ _ hrow').1 hholds, heq, hrow⟩
  · rintro ⟨record, isPlan, hwants, heq, hrow⟩
    obtain ⟨rfl, rfl⟩ := Prod.mk.inj heq
    exact ⟨hrow, (hattrs _ _).1, (hattrs _ _).2, (hconditions _ _ hrow).2 hwants⟩

theorem deletedPrefix_live : deletedPrefix false false = "0|DEPLOYMENT#" := by decide

theorem deletedPrefix_deleted : deletedPrefix true false = "1|DEPLOYMENT#" := by decide

theorem deletedPrefix_plan : deletedPrefix false true = "0|PLAN#" := by decide

theorem identifier_empty (projectId region : String) :
    getDeploymentIdentifier projectId region "" "" = projectId ++ "::" ++ region := rfl

section

variable {record : DeploymentResp} {isPlan : Bool}

/-- The condition on the partition of the index of deleted deployments. -/
theorem Selection.Readable.base_iff (h : s.Readable record) (hplain : s.PlainNames)
    (deleted' isPlan' : Bool) :
    (Condition.equals "deleted_PK_base" (.text (deletedPrefix deleted' isPlan' ++
        (s.projectId ++ "::" ++ s.region)))).holds
        (DeploymentRow.attr (recordRow record isPlan)) = true ↔
      (record.deleted = deleted' ∧ isPlan = isPlan') ∧
        record.projectId = s.projectId ∧ record.region = s.region :=
  (holds_equals_text rfl).trans
    (deletedPkBase_eq_iff h.project h.region h.environment_ne hplain.project _ _)

theorem Selection.Readable.environment_iff (h : s.Readable record) (hplain : s.PlainNames)
    (hp : record.projectId = s.projectId) (hr : record.region = s.region) :
    (getDeploymentIdentifier s.projectId s.region "" s.kind.environment).toList <+:
        record.identifier.toList ↔
      s.kind.environment = "" ∨ record.environment = s.kind.environment := by
  rw [← hp, ← hr]
  exact identifier_prefix_iff h.environment h.environment_ne hplain.environment

end

theorem Selection.exact_allDeployments (hwf : t.WellFormed) {environment : String}
    (hkind : s.kind = .allDeployments environment false) (hplain : s.PlainNames)
    (hreadable : ∀ record isPlan,
      t.item (recordRow record isPlan).1 = some (recordRow record isPlan).2 → s.Readable record) :
    s.Exact t := by
  have hquery : s.query = getAllDeploymentsQuery s.projectId s.region environment false := by
    rw [Selection.query, hkind]
  refine Selection.exact_of_index hwf ⟨"deleted_PK_base", "PK"⟩ (by rw [hquery]; rfl)
    (by rw [hquery]; rfl) (fun _ _ => rfl) (fun _ _ => ⟨rfl, rfl⟩) fun record isPlan hrow => ?_
  have hread := hreadable record isPlan hrow
  have henv : s.kind.environment = environment := by rw [hkind]; rfl
  have henvironment := hread.environment_iff hplain
  rw [henv] at henvironment
  rw [hquery, Selection.Wants, henv, hkind]
  simp only [getAllDeploymentsQuery, Bool.false_eq_true, if_false, List.forall_mem_cons,
    List.not_mem_nil, false_imp_iff, implies_true, and_true, identifier_empty]
  rw [← deletedPrefix_live, hread.base_iff hplain, holds_beginsWith_text rfl,
    recordRow_pk_prefix_iff]
  unfold SelectionKind.Matches
  constructor
  · rintro ⟨⟨⟨hdeleted, hplan⟩, hp, hr⟩, -, hstart⟩
    exact ⟨hp, hr, (henvironment hp hr).1 hstart, hplan, Or.inr hdeleted⟩
  · rintro ⟨hp, hr, henvs, hplan, hdeleted⟩
    exact ⟨⟨⟨hdeleted.resolve_left Bool.false_ne_true, hplan⟩, hp, hr⟩, hplan,
      (henvironment hp hr).2 henvs⟩

theorem recordRow_deletedPk_prefix_iff {record : DeploymentResp} {isPlan : Bool}
    {start : String} :
    ("0|" ++ ("DEPLOYMENT#" ++ start)).toList <+: (getPayload record isPlan).2.deletedPk.toList ↔
      (record.deleted = false ∧ isPlan = false) ∧
        start.toList <+: record.identifier.toList := by
  have hstart : "0|" ++ ("DEPLOYMENT#" ++ start) = deletedPrefix false false ++ start := by
    rw [← String.append_assoc]
    rfl
  rw [hstart, getPayload_deletedPk]
  simp only [String.toList_append]
  rw [deletedPrefix_prefix_iff, @eq_comm _ false, @eq_comm _ false]

theorem holds_isMetadata {record : DeploymentResp} :
    isMetadata.holds (DeploymentRow.attr (recordRow record false)) = true := by
  exact (holds_equals_text rfl).2 rfl

theorem Selection.exact_usingModule (hwf : t.WellFormed) {module environment : String}
    (hkind : s.kind = .usingModule module environment false) (hplain : s.PlainNames)
    (hreadable : ∀ record isPlan,
      t.item (recordRow record isPlan).1 = some (recordRow record isPlan).2 → s.Readable record) :
    s.Exact t := by
  have hquery : s.query =
      getDeploymentsUsingModuleQuery s.projectId s.region module environment false := by
    rw [Selection.query, hkind]
  refine Selection.exact_of_index hwf ⟨"module_PK_base", "deleted_PK"⟩
    (by rw [hquery]; rfl) (by rw [hquery]; rfl) (fun _ _ => rfl) (fun _ _ => ⟨rfl, rfl⟩)
    fun record isPlan hrow => ?_
  have hread := hreadable record isPlan hrow
  have henv : s.kind.environment = environment := by rw [hkind]; rfl
  have henvironment := hread.environment_iff hplain
  rw [henv] at henvironment
  rw [hquery, Selection.Wants, henv, hkind]
  simp only [getDeploymentsUsingModuleQuery, Bool.false_eq_true, if_false, List.forall_mem_cons,
    List.not_mem_nil, false_imp_iff, implies_true, and_true]
  rw [holds_equals_text rfl, modulePkBase_eq_iff hread.project (hread.module _ _ _ hkind)
    hplain.project (hplain.module _ _ _ hkind), holds_beginsWith_text rfl,
    recordRow_deletedPk_prefix_iff]
  unfold SelectionKind.Matches
  constructor
  · rintro ⟨⟨⟨hp, hr, hm⟩, ⟨hdeleted, hplan⟩, hstart⟩, -⟩
    exact ⟨hp, hr, (henvironment hp hr).1 hstart, hplan, hm, Or.inr hdeleted⟩
  · rintro ⟨hp, hr, henvs, rfl, hm, hdeleted⟩
    exact ⟨⟨⟨hp, hr, hm⟩, ⟨hdeleted.resolve_left Bool.false_ne_true, rfl⟩,
      (henvironment hp hr).2 henvs⟩, holds_isMetadata⟩

/-- Without an environment, the start is that of an empty one. -/
theorem getDeploymentHistoryPlansQuery_eq (projectId region : String)
    (environment : Option String) :
    getDeploymentHistoryPlansQuery projectId region environment =
      { indexName := some "DeletedIndex"
        keyCondition :=
          [.equals "deleted_PK_base"
            (.text (deletedPrefix false true ++ (projectId ++ "::" ++ region))),
           .beginsWith "PK"
            ("PLAN#" ++ getDeploymentIdentifier projectId region "" (environment.getD ""))]
        filter := [] } := by
  cases environment <;>
    simp [getDeploymentHistoryPlansQuery, deletedPrefix_plan, identifier_empty,
      String.append_assoc]

theorem Selection.exact_historyPlans (hwf : t.WellFormed) {environment : Option String}
    (hkind : s.kind = .historyPlans environment) (hplain : s.PlainNames)
    (hreadable : ∀ record isPlan,
      t.item (recordRow record isPlan).1 = some (recordRow record isPlan).2 → s.Readable record) :
    s.Exact t := by
  have hquery : s.query = getDeploymentHistoryPlansQuery s.projectId s.region environment := by
    rw [Selection.query, hkind]
  refine Selection.exact_of_index hwf ⟨"deleted_PK_base", "PK"⟩ (by rw [hquery]; rfl)
    (by rw [hquery]; rfl) (fun _ _ => rfl) (fun _ _ => ⟨rfl, rfl⟩) fun record isPlan hrow => ?_
  have hread := hreadable record isPlan hrow
  have henv : s.kind.environment = environment.getD "" := by rw [hkind]; rfl
  have henvironment := hread.environment_iff hplain
  rw [henv] at henvironment
  rw [hquery, Selection.Wants, henv, hkind, getDeploymentHistoryPlansQuery_eq]
  simp only [List.forall_mem_cons, List.not_mem_nil, false_imp_iff, implies_true, and_true]
  rw [hread.base_iff hplain, holds_beginsWith_text rfl,
    recordRow_plan_pk_prefix_iff]
  unfold SelectionKind.Matches
  constructor
  · rintro ⟨⟨⟨hdeleted, hplan⟩, hp, hr⟩, -, hstart⟩
    exact ⟨hp, hr, (henvironment hp hr).1 hstart, hplan, hdeleted⟩
  · rintro ⟨hp, hr, henvs, hplan, hdeleted⟩
    exact ⟨⟨⟨hdeleted, hplan⟩, hp, hr⟩, hplan, (henvironment hp hr).2 henvs⟩

theorem Selection.exact_historyDeleted (hwf : t.WellFormed)
    (hkind : s.kind = .historyDeleted none) (hplain : s.PlainNames)
    (hreadable : ∀ record isPlan,
      t.item (recordRow record isPlan).1 = some (recordRow record isPlan).2 → s.Readable record) :
    s.Exact t := by
  have hquery : s.query = getDeploymentHistoryDeletedQuery s.projectId s.region none := by
    rw [Selection.query, hkind]
  refine Selection.exact_of_index hwf ⟨"deleted_PK_base", "PK"⟩ (by rw [hquery]; rfl)
    (by rw [hquery]; rfl) (fun _ _ => rfl) (fun _ _ => ⟨rfl, rfl⟩) fun record isPlan hrow => ?_
  have hread := hreadable record isPlan hrow
  have hbase : "1|DEPLOYMENT#" ++ s.projectId ++ "::" ++ s.region =
      deletedPrefix true false ++ (s.projectId ++ "::" ++ s.region) := by
    simp [deletedPrefix_deleted, String.append_assoc]
  rw [hquery, Selection.Wants, hkind]
  simp only [getDeploymentHistoryDeletedQuery, List.forall_mem_cons, List.not_mem_nil,
    false_imp_iff, implies_true, and_true]
  rw [hbase, hread.base_iff hplain]
  unfold SelectionKind.Matches SelectionKind.environment
  constructor
  · rintro ⟨⟨⟨hdeleted, hplan⟩, hp, hr⟩, -⟩
    exact ⟨hp, hr, Or.inl rfl, hplan, hdeleted⟩
  · rintro ⟨hp, hr, -, rfl, hdeleted⟩
    exact ⟨⟨⟨hdeleted, rfl⟩, hp, hr⟩, holds_isMetadata⟩

/-- The identifier of a readable record names its deployment. -/
theorem Selection.Readable.identifier_eq_iff {record : DeploymentResp} (h : s.Readable record)
    (hplain : s.PlainNames) (deploymentId : String) :
    record.identifier =
        getDeploymentIdentifier s.projectId s.region deploymentId s.kind.environment ↔
      record.projectId = s.projectId ∧ record.region = s.region ∧
        record.environment = s.kind.environment ∧ record.deploymentId = deploymentId := by
  by_cases hne : s.kind.environment = ""
  · -- An identifier of two parts is that of no readable record.
    rw [hne]
    refine iff_of_false (fun heq => ?_) fun heq => h.environment_ne heq.2.2.1
    rw [← String.toList_inj, DeploymentResp.identifier, identifier_chars h.environment_ne,
      identifier_chars_empty] at heq
    obtain ⟨-, hr⟩ := h.project.append_inj hplain.project heq
    refine hplain.region ?_
    rw [← hr]
    exact ⟨record.region.toList, _, by simp only [List.append_assoc]; rfl⟩
  · exact identifier_inj h.project hplain.project h.region hplain.region h.environment
      hplain.environment h.environment_ne hne

theorem Selection.exact_deployment (hwf : t.WellFormed) {deploymentId environment : String}
    {includeDeleted : Bool} (hkind : s.kind = .deployment deploymentId environment includeDeleted)
    (hplain : s.PlainNames)
    (hreadable : ∀ record isPlan,
      t.item (recordRow record isPlan).1 = some (recordRow record isPlan).2 → s.Readable record) :
    s.Exact t := by
  have hquery : s.query =
      getDeploymentQuery s.projectId s.region deploymentId environment includeDeleted := by
    rw [Selection.query, hkind]
  have henv : s.kind.environment = environment := by rw [hkind]; rfl
  have hidentifier := fun record (h : s.Readable record) =>
    h.identifier_eq_iff hplain deploymentId
  rw [henv] at hidentifier
  unfold Selection.Exact Selection.Wants
  rw [hquery, henv, hkind]
  have haccepted : (getDeploymentQuery s.projectId s.region deploymentId environment
      includeDeleted).accepted deploymentKeys = true := by
    cases includeDeleted <;> rfl
  refine ⟨_, Query.evaluate_of_accepted rfl haccepted DeploymentRow.attr t.rows, fun row => ?_⟩
  · rw [Deployments.mem_select_getDeploymentQuery ⟨s.projectId, s.region⟩ deploymentId environment
      hwf includeDeleted row]
    constructor
    · rintro ⟨identifier, item, rfl, rfl, hrow, hdeleted⟩
      obtain ⟨isPlan, hpayload⟩ := hwf _ _ hrow
      have hkey := congrArg Prod.fst hpayload
      cases isPlan with
      | true => exact absurd hkey.symm (planKey_ne rfl)
      | false =>
          have hsame := metadataKey_inj.1 (hkey.trans (getPayload_key _))
          have hrecord : t.item (recordRow item.record false).1 =
              some (recordRow item.record false).2 := by
            rw [recordRow, ← hpayload]
            exact hrow
          obtain ⟨hp, hr, he, hd⟩ :=
            (hidentifier _ (hreadable _ _ hrecord)).1 hsame.symm
          refine ⟨item.record, false, ⟨hp, hr, Or.inr he, rfl, hd, he, ?_⟩, ?_, hrow⟩
          · simpa using hdeleted
          · rw [← hpayload]
    · rintro ⟨record, isPlan, ⟨hp, hr, -, rfl, hd, he, hdeleted⟩, rfl, hrow⟩
      have hsame := (hidentifier record (hreadable record false hrow)).2 ⟨hp, hr, he, hd⟩
      have hkey : (getPayload record false).1 = metadataKey (getDeploymentIdentifier s.projectId
          s.region deploymentId environment) := by
        rw [getPayload_key, hsame]
      refine ⟨_, (getPayload record false).2, rfl, by rw [hkey], by rw [← hkey]; exact hrow, ?_⟩
      simpa [getPayload] using hdeleted

/-! ## Runs -/

theorem Selection.exact_run (calls : List SetDeployment) (hsupported : s.kind.supported = true)
    (hplain : s.PlainNames) (hreadable : ∀ call ∈ calls, s.Readable call.deployment) :
    s.Exact (Deployments.run calls) := by
  have hwf := Deployments.wellFormed_run calls
  have hrecords : ∀ record isPlan, (Deployments.run calls).item (recordRow record isPlan).1 =
      some (recordRow record isPlan).2 → s.Readable record := by
    intro record isPlan hrow
    obtain ⟨call, hcall, heq⟩ := Deployments.exists_call_of_item hrow
    have heq : record = call.deployment := heq
    exact heq ▸ hreadable call hcall
  cases hkind : s.kind with
  | allDeployments environment includeDeleted =>
      obtain rfl : includeDeleted = false := by simpa [hkind, SelectionKind.supported] using hsupported
      exact exact_allDeployments hwf hkind hplain hrecords
  | deployment deploymentId environment includeDeleted =>
      exact exact_deployment hwf hkind hplain hrecords
  | usingModule module environment includeDeleted =>
      obtain rfl : includeDeleted = false := by simpa [hkind, SelectionKind.supported] using hsupported
      exact exact_usingModule hwf hkind hplain hrecords
  | historyPlans environment => exact exact_historyPlans hwf hkind hplain hrecords
  | historyDeleted environment =>
      obtain rfl : environment = none := by simpa [hkind, SelectionKind.supported] using hsupported
      exact exact_historyDeleted hwf hkind hplain hrecords

theorem SelectionKind.environment_withDeleted (kind : SelectionKind) :
    kind.withDeleted.environment = kind.environment := by
  cases kind <;> rfl

theorem SelectionKind.usingModule_of_withDeleted {kind : SelectionKind}
    {module environment : String} {includeDeleted : Bool}
    (h : kind.withDeleted = .usingModule module environment includeDeleted) :
    ∃ includeDeleted', kind = .usingModule module environment includeDeleted' := by
  cases kind with
  | usingModule module' environment' includeDeleted' =>
      obtain ⟨rfl, rfl, -⟩ := SelectionKind.usingModule.inj h
      exact ⟨includeDeleted', rfl⟩
  | _ => cases h

theorem Selection.Wants.withDeleted {record : DeploymentResp} {isPlan : Bool}
    (h : s.Wants record isPlan) : s.withDeleted.Wants record isPlan := by
  obtain ⟨hp, hr, he, hmatches⟩ := h
  refine ⟨hp, hr, ?_, ?_⟩
  · change s.kind.withDeleted.environment = "" ∨ _ = s.kind.withDeleted.environment
    rw [SelectionKind.environment_withDeleted]
    exact he
  · change s.kind.withDeleted.Matches record isPlan
    cases hkind : s.kind with
    | allDeployments environment includeDeleted =>
        rw [hkind] at hmatches
        exact ⟨hmatches.1, Or.inl rfl⟩
    | deployment deploymentId environment includeDeleted =>
        rw [hkind] at hmatches
        exact ⟨hmatches.1, hmatches.2.1, hmatches.2.2.1, Or.inl rfl⟩
    | usingModule module environment includeDeleted =>
        rw [hkind] at hmatches
        exact ⟨hmatches.1, hmatches.2.1, Or.inl rfl⟩
    | historyPlans environment =>
        rw [hkind] at hmatches
        exact hmatches
    | historyDeleted environment =>
        rw [hkind] at hmatches
        exact hmatches

theorem Selection.PlainNames.withDeleted (h : s.PlainNames) : s.withDeleted.PlainNames where
  project := h.project
  region := h.region
  environment := by
    change Plain s.kind.withDeleted.environment
    rw [SelectionKind.environment_withDeleted]
    exact h.environment
  module := fun module environment includeDeleted hkind => by
    obtain ⟨includeDeleted', hkind⟩ := SelectionKind.usingModule_of_withDeleted hkind
    exact h.module _ _ _ hkind

theorem Selection.Readable.withDeleted {record : DeploymentResp} (h : s.Readable record) :
    s.withDeleted.Readable record where
  project := h.project
  region := h.region
  environment := h.environment
  environment_ne := h.environment_ne
  module := fun module environment includeDeleted hkind => by
    obtain ⟨includeDeleted', hkind⟩ := SelectionKind.usingModule_of_withDeleted hkind
    exact h.module _ _ _ hkind

theorem Selection.Exact.grows (h : s.Exact t) (h' : s.withDeleted.Exact t) : s.Grows t := by
  obtain ⟨rows, hread, hmem⟩ := h
  obtain ⟨rows', hread', hmem'⟩ := h'
  intro found hfound
  obtain rfl : rows = found := Except.ok.inj (hread.symm.trans hfound)
  refine ⟨rows', hread', fun row hrow => ?_⟩
  obtain ⟨record, isPlan, hwants, heq, hitem⟩ := (hmem row).1 hrow
  exact (hmem' row).2 ⟨record, isPlan, hwants.withDeleted, heq, hitem⟩

/-- In every reachable table whose records have plain names, the supported queries are exact, and
including deleted deployments loses no row. -/
theorem selection_exact_and_grows (calls : List SetDeployment) (s : Selection)
    (hsupported : s.kind.supported = true) (hplain : s.PlainNames)
    (hreadable : ∀ call ∈ calls, s.Readable call.deployment) :
    s.Exact (Deployments.run calls) ∧
      (s.withDeleted.kind.supported = true → s.Grows (Deployments.run calls)) := by
  have hexact := Selection.exact_run calls hsupported hplain hreadable
  refine ⟨hexact, fun hdeleted => hexact.grows ?_⟩
  exact Selection.exact_run calls hdeleted hplain.withDeleted
    fun call hcall => (hreadable call hcall).withDeleted

/-! ## Queries with deleted deployments -/

def localSelection (kind : SelectionKind) : Selection :=
  ⟨"111111111111", "eu-central-1", kind⟩

/-- One query is refused, one finds nothing, and one filters by a key of its index. -/
theorem not_exact_withDeleted :
    ¬ (localSelection (.allDeployments "cli/default" true)).Exact (Deployments.run [applied]) ∧
    ¬ (localSelection (.usingModule "web" "cli/default" true)).Exact
        (Deployments.run [applied]) ∧
    ¬ (localSelection (.historyDeleted (some "cli/default"))).Exact
        (Deployments.run [applied]) := by
  refine ⟨?_, ?_, ?_⟩
  · rintro ⟨rows, hread, -⟩
    cases hread
  · rintro ⟨rows, hread, hmem⟩
    have hnone : (Deployments.run [applied]).read
        (localSelection (.usingModule "web" "cli/default" true)).query = .ok [] := by
      decide +kernel
    obtain rfl : rows = [] := Except.ok.inj (hread.symm.trans hnone)
    have hrow := (hmem (recordRow webDeployment false)).2
      ⟨webDeployment, false, ⟨rfl, rfl, Or.inr rfl, rfl, rfl, Or.inr rfl⟩, rfl, by decide +kernel⟩
    cases hrow
  · rintro ⟨rows, hread, -⟩
    cases hread

theorem selection_exact_applied :
    (localSelection (.deployment "web/a" "cli/default" false)).Exact
        (Deployments.run [applied]) ∧
      ((localSelection (.deployment "web/a" "cli/default" false)).withDeleted.kind.supported =
          true →
        (localSelection (.deployment "web/a" "cli/default" false)).Grows
          (Deployments.run [applied])) := by
  have hplain : Plain "111111111111" ∧ Plain "eu-central-1" ∧ Plain "cli/default" :=
    ⟨.of_colon_notMem (by decide), .of_colon_notMem (by decide), .of_colon_notMem (by decide)⟩
  refine selection_exact_and_grows [applied] _ rfl
    ⟨hplain.1, hplain.2.1, hplain.2.2, nofun⟩ fun call hcall => ?_
  obtain rfl := List.mem_singleton.1 hcall
  exact ⟨hplain.1, hplain.2.1, hplain.2.2, by decide, nofun⟩

end EnvCommon
end InfraWeave
