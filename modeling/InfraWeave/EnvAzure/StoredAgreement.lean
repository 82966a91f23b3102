import InfraWeave.EnvAzure.Agreement
import InfraWeave.EnvCommon.DeploymentSelection

/-!
# Queries on what is stored

Both databases hold the rows that a run of `set_deployment` leaves.  A deployment's dependents have
no `deleted` attribute, and a region whose name goes on another region's name is told from it by the
index of DynamoDB only.
-/

namespace InfraWeave
namespace EnvAzure

open EnvCommon

/-! ## Rows -/

theorem attr_pk_eq {a b : Key × DeploymentRow} :
    DeploymentRow.attr a "PK" = DeploymentRow.attr b "PK" ↔ a.1.pk = b.1.pk := by
  change some (Attribute.text a.1.pk) = some (.text b.1.pk) ↔ _
  simp

theorem attr_sk_eq {a b : Key × DeploymentRow} :
    DeploymentRow.attr a "SK" = DeploymentRow.attr b "SK" ↔ a.1.sk = b.1.sk := by
  change some (Attribute.text a.1.sk) = some (.text b.1.sk) ↔ _
  simp

/-- The rows of the deployments table. -/
def storedRows (t : Deployments) : TableRows (Key × DeploymentRow) where
  attr := DeploymentRow.attr
  rows := t.rows
  nodup := t.ascending.imp fun hlt heq => by
    rw [heq] at hlt
    exact irrefl_of (· < ·) _ hlt
  keyed := fun _ _ => ⟨rfl, rfl⟩
  unique := by
    rintro ⟨key, row⟩ ha ⟨key', row'⟩ hb hpk hsk
    have hkey : key = key' := by
      cases key
      cases key'
      exact congrArg₂ Key.mk (attr_pk_eq.1 hpk) (attr_sk_eq.1 hsk)
    have hrow := (t.mem_rows_iff.1 ha).symm.trans (hkey ▸ t.mem_rows_iff.1 hb)
    exact Prod.ext hkey (Option.some.inj hrow)

variable {t : Deployments}

theorem mem_storedRows {key : Key} {row : DeploymentRow} :
    (key, row) ∈ (storedRows t).rows ↔ t.item key = some row :=
  t.mem_rows_iff

/-- A row is that of a record, or says that a deployment depends on another one. -/
theorem storedRows_cases (hwf : t.WellFormed) {row : Key × DeploymentRow}
    (hrow : row ∈ (storedRows t).rows) :
    (∃ record isPlan, row = recordRow record isPlan) ∨
      ∃ dependency dependent item, row = (dependentKey dependency dependent, .dependent item) := by
  obtain ⟨key, row⟩ := row
  have hwritten := hwf key row (mem_storedRows.1 hrow)
  cases row with
  | deployment item =>
      obtain ⟨isPlan, hpayload⟩ := hwritten
      refine Or.inl ⟨item.record, isPlan, ?_⟩
      rw [recordRow, ← hpayload]
  | dependent item =>
      obtain ⟨dependency, dependent, hkey⟩ := hwritten
      exact Or.inr ⟨dependency, dependent, item, by rw [hkey]⟩

theorem attr_pk_dependent {dependency dependent identifier : String} {item : DependentItem} :
    DeploymentRow.attr (dependentKey dependency dependent, .dependent item) "PK" =
        some (.text (deploymentPk identifier)) ↔ dependency = identifier := by
  change some (Attribute.text (deploymentPk dependency)) = _ ↔ _
  rw [Option.some_inj, Attribute.text.injEq, deploymentPk_injective.eq_iff]

theorem attr_deleted_recordRow (record : DeploymentResp) (isPlan : Bool) :
    DeploymentRow.attr (recordRow record isPlan) "deleted" =
      some (.number (if record.deleted then 1 else 0)) := rfl

theorem dependentKey_pk_ne_plan (dependency dependent identifier : String) :
    (dependentKey dependency dependent).pk ≠ "PLAN#" ++ identifier := by
  intro hpk
  have hchars := congrArg (fun pk => pk.toList.head?) hpk
  simp [dependentKey, deploymentPk] at hchars

/-! ## Dependents -/

/-- A deployment with its dependents: on what is stored the databases agree exactly when nothing
depends on it, since Cosmos DB returns no dependent. -/
theorem agree_deploymentAndDependents_run_iff (calls : List SetDeployment)
    (projectId region deploymentId environment : String) :
    (storedRows (Deployments.run calls)).Agree EnvAwsDirect.deploymentsTable
        (EnvAwsDirect.getDeploymentAndDependentsQuery projectId region deploymentId environment
          false).partitioned
        (getDeploymentAndDependentsQuery projectId region deploymentId environment false) ↔
      ∀ dependent, (Deployments.run calls).item (dependentKey
        (getDeploymentIdentifier projectId region deploymentId environment) dependent) = none := by
  have hwf := Deployments.wellFormed_run calls
  refine (agree_deploymentAndDependents_iff _ _ _ _ _).trans ⟨fun hnumbers dependent => ?_, ?_⟩
  · by_contra hitem
    obtain ⟨row, hrow⟩ := Option.ne_none_iff_exists'.1 hitem
    cases row with
    | deployment item =>
        obtain ⟨isPlan, hpayload⟩ := hwf _ _ hrow
        have hkey := congrArg Prod.fst hpayload
        cases isPlan with
        | true => exact dependentKey_pk_ne_plan _ _ _ (congrArg Key.pk hkey)
        | false => exact dependentKey_ne_metadataKey _ _ _ hkey
    | dependent item =>
        obtain ⟨n, hn⟩ := hnumbers _ (mem_storedRows.2 hrow) (attr_pk_dependent.2 rfl)
        cases hn
  · intro hnone row hrow hpk
    rcases storedRows_cases hwf hrow with ⟨record, isPlan, rfl⟩ | ⟨dependency, dependent, item, rfl⟩
    · exact ⟨_, attr_deleted_recordRow record isPlan⟩
    · obtain rfl := attr_pk_dependent.1 hpk
      have hitem := mem_storedRows.1 hrow
      rw [hnone dependent] at hitem
      cases hitem

/-- A plan is read alike. -/
theorem agree_planDeployment_run (calls : List SetDeployment)
    (projectId region deploymentId environment jobId : String) :
    (storedRows (Deployments.run calls)).Agree EnvAwsDirect.deploymentsTable
        (EnvAwsDirect.getPlanDeploymentQuery projectId region deploymentId environment
          jobId).partitioned
        (getPlanDeploymentQuery projectId region deploymentId environment jobId) := by
  refine (agree_planDeployment_iff _ _ _ _ _ _).2 fun row hrow hpk _ => ?_
  rcases storedRows_cases (Deployments.wellFormed_run calls) hrow with
    ⟨record, isPlan, rfl⟩ | ⟨dependency, dependent, item, rfl⟩
  · exact ⟨_, attr_deleted_recordRow record isPlan⟩
  · have hname : some (Attribute.text (dependentKey dependency dependent).pk) = some _ := hpk
    exact absurd (Attribute.text.inj (Option.some.inj hname)) (dependentKey_pk_ne_plan _ _ _)

/-! ## Selections -/

/-- The query for Cosmos DB. -/
def documentQuery (s : Selection) : DocumentQuery :=
  match s.kind with
  | .allDeployments environment includeDeleted =>
      getAllDeploymentsQuery s.projectId s.region environment includeDeleted
  | .deployment deploymentId environment includeDeleted =>
      getDeploymentQuery s.projectId s.region deploymentId environment includeDeleted
  | .usingModule module environment includeDeleted =>
      getDeploymentsUsingModuleQuery s.projectId s.region module environment includeDeleted
  | .historyPlans environment => getDeploymentHistoryPlansQuery s.projectId s.region environment
  | .historyDeleted environment => getDeploymentHistoryDeletedQuery s.projectId s.region environment

/-- DynamoDB does not refuse the query. -/
def isAccepted : SelectionKind → Bool
  | .allDeployments _ includeDeleted => !includeDeleted
  | .historyDeleted environment => environment.isNone
  | _ => true

def isHistory : SelectionKind → Bool
  | .historyPlans _ => true
  | .historyDeleted _ => true
  | _ => false

/-- A record of another region, whose name goes on the name of the region that is asked for. -/
structure Confused (s : Selection) (record : DeploymentResp) (isPlan : Bool) : Prop where
  project : record.projectId = s.projectId
  start : s.region.toList <+: record.region.toList
  other : record.region ≠ s.region
  kind : s.kind.Matches record isPlan

/-- A plain name begins a text before a double colon only when it begins what stands before it. -/
theorem plain_prefix_iff {region : String} (h : Plain region) (region' rest : List Char) :
    region.toList <+: region' ++ ("::".toList ++ rest) ↔ region.toList <+: region' := by
  have hcolons : "::".toList = [':', ':'] := by decide
  unfold Plain at h
  rw [hcolons] at h ⊢
  constructor
  · rintro ⟨tail, heq⟩
    rcases List.append_eq_append_iff.1 heq with ⟨middle, hmiddle, -⟩ | ⟨middle, hmiddle, hrest⟩
    · exact ⟨middle, hmiddle.symm⟩
    · -- Colons at the end of the name would come too early.
      cases middle with
      | nil => exact ⟨[], by rw [hmiddle, List.append_nil, List.append_nil]⟩
      | cons c middle =>
          obtain ⟨rfl, hafter⟩ := List.cons.inj hrest
          refine absurd ?_ h
          rw [hmiddle]
          cases middle with
          | nil => exact ⟨region', [], by simp⟩
          | cons c' middle =>
              obtain ⟨rfl, -⟩ := List.cons.inj hafter
              exact ⟨region', middle ++ [':'], by simp⟩
  · intro hstart
    exact hstart.trans (List.prefix_append _ _)

variable {s : Selection} {record : DeploymentResp} {isPlan : Bool}

/-- Where an identifier begins as asked for, it is of the project and, in a region whose name goes
on, of no environment that is named. -/
theorem start_iff (hread : s.Readable record) (hplain : s.PlainNames) :
    (getDeploymentIdentifier s.projectId s.region "" s.kind.environment).toList <+:
        record.identifier.toList ↔
      record.projectId = s.projectId ∧
        if s.kind.environment = "" then s.region.toList <+: record.region.toList
        else record.region = s.region ∧ record.environment = s.kind.environment := by
  rw [DeploymentResp.identifier, identifier_chars hread.environment_ne]
  split
  · rename_i hempty
    rw [hempty, identifier_chars_empty, hplain.project.prefix_iff hread.project,
      plain_prefix_iff hplain.region, String.toList_inj, eq_comm]
  · rename_i hne
    rw [identifier_chars hne, hplain.project.prefix_iff hread.project,
      hplain.region.prefix_iff hread.region, hplain.environment.prefix_iff hread.environment]
    simp only [String.toList_inj, eq_comm, String.toList_empty, List.nil_prefix, and_true]

/-- Records that match are told from others by where their identifiers begin exactly when none of
them is confused. -/
theorem forall_region_iff (hread : s.Readable record) (hplain : s.PlainNames) :
    (s.kind.Matches record isPlan →
        (getDeploymentIdentifier s.projectId s.region "" s.kind.environment).toList <+:
          record.identifier.toList →
          record.projectId = s.projectId ∧ record.region = s.region) ↔
      (s.kind.environment = "" → ¬ Confused s record isPlan) := by
  rw [start_iff hread hplain]
  constructor
  · rintro htold hempty ⟨hproject, hstart, hother, hkind⟩
    rw [if_pos hempty] at htold
    exact hother (htold hkind ⟨hproject, hstart⟩).2
  · rintro hclear hkind ⟨hproject, hstart⟩
    refine ⟨hproject, ?_⟩
    split at hstart
    · rename_i hempty
      by_contra hother
      exact hclear hempty ⟨hproject, hstart, hother, hkind⟩
    · exact hstart.1

/-- No record that is stored, and asked for in all environments, is confused. -/
def Clear (t : Deployments) (s : Selection) : Prop :=
  s.kind.environment = "" → ∀ record isPlan,
    recordRow record isPlan ∈ (storedRows t).rows → ¬ Confused s record isPlan

theorem clear_iff (hplain : s.PlainNames)
    (hreadable : ∀ record isPlan, recordRow record isPlan ∈ (storedRows t).rows →
      s.Readable record) :
    Clear t s ↔ ∀ record isPlan, recordRow record isPlan ∈ (storedRows t).rows →
      s.kind.Matches record isPlan →
        (getDeploymentIdentifier s.projectId s.region "" s.kind.environment).toList <+:
          record.identifier.toList →
          record.projectId = s.projectId ∧ record.region = s.region := by
  unfold Clear
  constructor
  · intro hclear record isPlan hrow
    exact (forall_region_iff (hreadable _ _ hrow) hplain).2 fun hempty => hclear hempty _ _ hrow
  · intro htold hempty record isPlan hrow
    exact (forall_region_iff (hreadable _ _ hrow) hplain).1 (htold _ _ hrow) hempty

theorem plansStart_eq (projectId region : String) (environment : Option String) :
    plansStart projectId region environment =
      "PLAN#" ++ getDeploymentIdentifier projectId region "" (environment.getD "") := by
  cases environment with
  | none => simp [plansStart, identifier_empty, String.append_assoc]
  | some environment => rfl

theorem deleted_eq_iff (deleted : Bool) :
    DeploymentRow.attr (recordRow record isPlan) "deleted" =
        some (.number (if deleted then 1 else 0)) ↔ record.deleted = deleted := by
  rw [attr_deleted_recordRow]
  cases record.deleted <;> cases deleted <;> simp

theorem base_eq_iff (hread : s.Readable record) (hplain : s.PlainNames) (deleted' isPlan' : Bool) :
    DeploymentRow.attr (recordRow record isPlan) "deleted_PK_base" =
        some (.text (deletedPrefix deleted' isPlan' ++ (s.projectId ++ "::" ++ s.region))) ↔
      (record.deleted = deleted' ∧ isPlan = isPlan') ∧
        record.projectId = s.projectId ∧ record.region = s.region :=
  decide_eq_true_iff.symm.trans (hread.base_iff hplain deleted' isPlan')

theorem agree_historyPlans_iff (hwf : t.WellFormed) {environment : Option String}
    (hkind : s.kind = .historyPlans environment) (hplain : s.PlainNames)
    (hreadable : ∀ record isPlan, recordRow record isPlan ∈ (storedRows t).rows →
      s.Readable record) :
    (storedRows t).Agree EnvAwsDirect.deploymentsTable s.query.partitioned (documentQuery s) ↔
      Clear t s := by
  have hqueries : s.query = EnvAwsDirect.getDeploymentHistoryPlansQuery s.projectId s.region
      environment ∧ documentQuery s =
        getDeploymentHistoryPlansQuery s.projectId s.region environment := by
    unfold Selection.query documentQuery
    rw [hkind]
    exact ⟨rfl, rfl⟩
  have henvironment : s.kind.environment = environment.getD "" := by rw [hkind]; rfl
  rw [hqueries.1, hqueries.2, clear_iff hplain hreadable]
  refine (agree_deploymentHistoryPlans_iff _ _ _ _).trans ?_
  rw [plansStart_eq, ← henvironment]
  -- What the condition says about the row of a record.
  have hrecord : ∀ record isPlan, recordRow record isPlan ∈ (storedRows t).rows →
      (((Condition.beginsWith "PK" ("PLAN#" ++ getDeploymentIdentifier s.projectId s.region ""
          s.kind.environment)).holds (DeploymentRow.attr (recordRow record isPlan)) = true →
        (DeploymentRow.attr (recordRow record isPlan) "deleted_PK_base" =
            some (.text ("0|PLAN#" ++ s.projectId ++ "::" ++ s.region)) ↔
          DeploymentRow.attr (recordRow record isPlan) "deleted" = some (.number 0))) ↔
      (s.kind.Matches record isPlan →
        (getDeploymentIdentifier s.projectId s.region "" s.kind.environment).toList <+:
          record.identifier.toList →
          record.projectId = s.projectId ∧ record.region = s.region)) := by
    intro record isPlan hrow
    have hread := hreadable record isPlan hrow
    have htext : "0|PLAN#" ++ s.projectId ++ "::" ++ s.region =
        deletedPrefix false true ++ (s.projectId ++ "::" ++ s.region) := by
      simp [deletedPrefix_plan, String.append_assoc]
    have hdeleted : DeploymentRow.attr (recordRow record isPlan) "deleted" = some (.number 0) ↔ _ :=
      deleted_eq_iff false
    have hmatches : s.kind.Matches record isPlan ↔ isPlan = true ∧ record.deleted = false := by
      rw [hkind]
      exact Iff.rfl
    rw [holds_beginsWith_text rfl, recordRow_plan_pk_prefix_iff, htext,
      base_eq_iff hread hplain, hdeleted, hmatches]
    tauto
  constructor
  · intro hrows record isPlan hrow
    exact (hrecord record isPlan hrow).1 (hrows _ hrow)
  · intro hrecords row hrow hstart
    rcases storedRows_cases hwf hrow with ⟨record, isPlan, rfl⟩ | ⟨dependency, dependent, item, rfl⟩
    · exact (hrecord record isPlan hrow).2 (hrecords record isPlan hrow) hstart
    · have hname := (holds_beginsWith_text rfl).1 hstart
      simp [dependentKey, deploymentPk, List.cons_prefix_cons] at hname

theorem agree_historyDeleted_iff (hwf : t.WellFormed) (hkind : s.kind = .historyDeleted none)
    (hplain : s.PlainNames)
    (hreadable : ∀ record isPlan, recordRow record isPlan ∈ (storedRows t).rows →
      s.Readable record) :
    (storedRows t).Agree EnvAwsDirect.deploymentsTable s.query.partitioned (documentQuery s) ↔
      Clear t s := by
  have hqueries : s.query = EnvAwsDirect.getDeploymentHistoryDeletedQuery s.projectId s.region
      none ∧ documentQuery s = getDeploymentHistoryDeletedQuery s.projectId s.region none := by
    unfold Selection.query documentQuery
    rw [hkind]
    exact ⟨rfl, rfl⟩
  have henvironment : s.kind.environment = "" := by rw [hkind]; rfl
  rw [hqueries.1, hqueries.2, clear_iff hplain hreadable]
  refine (agree_deploymentHistoryDeleted_iff _ _ _).trans ?_
  have hrecord : ∀ record isPlan, recordRow record isPlan ∈ (storedRows t).rows →
      ((DeploymentRow.attr (recordRow record isPlan) "SK" = some (.text "METADATA") →
        (DeploymentRow.attr (recordRow record isPlan) "deleted_PK_base" =
            some (.text ("1|DEPLOYMENT#" ++ s.projectId ++ "::" ++ s.region)) ↔
          (Condition.beginsWith "PK" ("DEPLOYMENT#" ++ s.projectId ++ "::" ++ s.region)).holds
              (DeploymentRow.attr (recordRow record isPlan)) = true ∧
            DeploymentRow.attr (recordRow record isPlan) "deleted" = some (.number 1))) ↔
      (s.kind.Matches record isPlan →
        (getDeploymentIdentifier s.projectId s.region "" s.kind.environment).toList <+:
          record.identifier.toList →
          record.projectId = s.projectId ∧ record.region = s.region)) := by
    intro record isPlan hrow
    have hread := hreadable record isPlan hrow
    have htext : "1|DEPLOYMENT#" ++ s.projectId ++ "::" ++ s.region =
        deletedPrefix true false ++ (s.projectId ++ "::" ++ s.region) := by
      simp [deletedPrefix_deleted, String.append_assoc]
    have hstart : "DEPLOYMENT#" ++ s.projectId ++ "::" ++ s.region =
        "DEPLOYMENT#" ++ getDeploymentIdentifier s.projectId s.region "" s.kind.environment := by
      simp [henvironment, identifier_empty, String.append_assoc]
    have hdeleted : DeploymentRow.attr (recordRow record isPlan) "deleted" = some (.number 1) ↔ _ :=
      deleted_eq_iff true
    have hmatches : s.kind.Matches record isPlan ↔ isPlan = false ∧ record.deleted = true := by
      rw [hkind]
      exact Iff.rfl
    have hmetadata : isPlan = false →
        DeploymentRow.attr (recordRow record isPlan) "SK" = some (.text "METADATA") := by
      rintro rfl
      rfl
    rw [hstart, holds_beginsWith_text rfl, recordRow_pk_prefix_iff, htext,
      base_eq_iff hread hplain, hdeleted, hmatches]
    have hsame : record.projectId = s.projectId ∧ record.region = s.region →
        (getDeploymentIdentifier s.projectId s.region "" s.kind.environment).toList <+:
          record.identifier.toList :=
      fun h => (hread.environment_iff hplain h.1 h.2).2 (Or.inl henvironment)
    tauto
  constructor
  · intro hrows record isPlan hrow
    exact (hrecord record isPlan hrow).1 (hrows _ hrow)
  · intro hrecords row hrow hmetadata
    rcases storedRows_cases hwf hrow with ⟨record, isPlan, rfl⟩ | ⟨dependency, dependent, item, rfl⟩
    · exact (hrecord record isPlan hrow).2 (hrecords record isPlan hrow) hmetadata
    · have hname : some (Attribute.text ("DEPENDENT#" ++ dependent)) = some (.text "METADATA") :=
        hmetadata
      have hchars := congrArg (fun name => name.toList.head?)
        (Attribute.text.inj (Option.some.inj hname))
      simp at hchars

/-- On what is stored, with names that the keys tell apart, the databases agree exactly where
DynamoDB does not refuse the query and, for a history, no region's name goes on that of the region
that is asked for. -/
theorem agree_selection_run_iff (calls : List SetDeployment) (s : Selection)
    (hplain : s.PlainNames) (hreadable : ∀ call ∈ calls, s.Readable call.deployment) :
    (storedRows (Deployments.run calls)).Agree EnvAwsDirect.deploymentsTable s.query.partitioned
        (documentQuery s) ↔
      isAccepted s.kind = true ∧
        (isHistory s.kind = true → Clear (Deployments.run calls) s) := by
  have hwf := Deployments.wellFormed_run calls
  have hrecords : ∀ record isPlan, recordRow record isPlan ∈
      (storedRows (Deployments.run calls)).rows → s.Readable record := by
    intro record isPlan hrow
    obtain ⟨call, hcall, heq⟩ := Deployments.exists_call_of_item (mem_storedRows.1 hrow)
    have heq : record = call.deployment := heq
    exact heq ▸ hreadable call hcall
  obtain ⟨projectId, region, kind⟩ := s
  have hall := agree_deployments (storedRows (Deployments.run calls))
  have hrefused := not_agree_refused (storedRows (Deployments.run calls)) projectId region
  cases kind with
  | allDeployments environment includeDeleted =>
      cases includeDeleted with
      | true => exact iff_of_false (hrefused environment).1 fun h => Bool.false_ne_true h.1
      | false =>
          refine iff_of_true (hall.1 _ _ _) ⟨rfl, fun h => absurd h Bool.false_ne_true⟩
  | deployment deploymentId environment includeDeleted =>
      refine iff_of_true (hall.2.2.1 _ _ _ _ _) ⟨rfl, fun h => absurd h Bool.false_ne_true⟩
  | usingModule module environment includeDeleted =>
      refine iff_of_true (hall.2.2.2.1 _ _ _ _ _) ⟨rfl, fun h => absurd h Bool.false_ne_true⟩
  | historyPlans environment =>
      refine (agree_historyPlans_iff hwf rfl hplain hrecords).trans ?_
      simp [isAccepted, isHistory]
  | historyDeleted environment =>
      cases environment with
      | none =>
          refine (agree_historyDeleted_iff hwf rfl hplain hrecords).trans ?_
          simp [isAccepted, isHistory]
      | some environment =>
          exact iff_of_false (hrefused environment).2 fun h => Bool.false_ne_true h.1

/-! ## A region whose name goes on -/

def eastus2Deployment : DeploymentResp :=
  { webDeployment with region := "eastus2", deleted := true }

def deletedInEastus2 : SetDeployment :=
  ⟨⟨"111111111111", "eastus2"⟩, eastus2Deployment, false, 1⟩

def eastusHistory : Selection :=
  ⟨"111111111111", "eastus", .historyDeleted none⟩

/-- What is deleted in `eastus2` is in the history of `eastus`. -/
theorem not_agree_eastusHistory :
    ¬ (storedRows (Deployments.run [deletedInEastus2])).Agree EnvAwsDirect.deploymentsTable
        eastusHistory.query.partitioned (documentQuery eastusHistory) := by
  have hplain : Plain "111111111111" ∧ Plain "eastus" ∧ Plain "eastus2" ∧ Plain "cli/default" :=
    ⟨.of_colon_notMem (by decide), .of_colon_notMem (by decide), .of_colon_notMem (by decide),
      .of_colon_notMem (by decide)⟩
  intro hagree
  have hclear := ((agree_selection_run_iff [deletedInEastus2] eastusHistory
    ⟨hplain.1, hplain.2.1, .of_colon_notMem (by decide), fun _ _ _ h => by cases h⟩ fun call hcall => by
      obtain rfl := List.mem_singleton.1 hcall
      exact ⟨hplain.1, hplain.2.2.1, hplain.2.2.2, by decide, fun _ _ _ h => by cases h⟩).1 hagree).2 rfl rfl
  refine hclear eastus2Deployment false (mem_storedRows.2 (by decide +kernel)) ?_
  exact ⟨rfl, by decide, by decide, rfl, rfl⟩

end EnvAzure
end InfraWeave
