import InfraWeave.EnvCommon.DeploymentRuns

/-!
# Describing a deployment

The AWS build describes a deployment by the first row of its partition.  The rows of deployments
that depend on it are in the same partition and come before its own row.
-/

namespace InfraWeave
namespace InternalApi

open EnvAwsDirect EnvCommon

/-- A row as it is stored, or the record of a deployment whose job has stopped. -/
inductive DescribedDeployment where
  | stored (row : Key × DeploymentRow)
  | stopped (deployment : DeploymentResp)
  deriving DecidableEq

/-- The status of a job and the reason why it stopped, for a job, a project and a region. -/
abbrev JobStatuses :=
  String → String → String → Except String (String × String)

/-- A row that is no deployment record is returned as it is. -/
def ecsLivenessCheck (getJobStatus : JobStatuses) (row : Key × DeploymentRow) :
    DescribedDeployment :=
  match row.2 with
  | .dependent _ => .stored row
  | .deployment { record := deployment, .. } =>
      if !deployment.status.isBusy then .stored row
      else if deployment.jobId.isEmpty || deployment.projectId.isEmpty ||
          deployment.region.isEmpty then .stored row
      else
        let jobIdShort := (Text.split '/' deployment.jobId).getLast?.getD deployment.jobId
        match getJobStatus jobIdShort deployment.projectId deployment.region with
        | .error _ => .stored row
        | .ok (taskStatus, stoppedReason) =>
            if taskStatus = "STOPPED" ∨ taskStatus = "DEPROVISIONING" then
              let reason :=
                if stoppedReason.isEmpty then "task exited before writing final status"
                else stoppedReason
              .stopped
                { deployment with status := .failed, errorText := "ECS task stopped: " ++ reason }
            else .stored row

variable (getJobStatus : JobStatuses) (t : Deployments)
  (project region environment deploymentId : String)

/-- `describe_deployment` on the table of the project and region. -/
def describeDeploymentAws : Except String DescribedDeployment :=
  match t.read (getDeploymentAndDependentsQuery project region deploymentId environment true) with
  | .ok (row :: _) => .ok (ecsLivenessCheck getJobStatus row)
  | _ => .error "Deployment not found"

def parseDeployment : DescribedDeployment → Except String DeploymentResp
  | .stored (_, .deployment item) => .ok item.record
  | .stored (_, .dependent _) => .error "Invalid deployment record: missing field `epoch`"
  | .stopped deployment => .ok deployment

def loadDeployment : Except String DeploymentResp := do
  let described ← describeDeploymentAws getJobStatus t project region environment deploymentId
  parseDeployment described

/-- The deployment is described by its own row, and can be loaded. -/
def DescribesItself (item : DeploymentItem) : Prop :=
  describeDeploymentAws getJobStatus t project region environment deploymentId =
      .ok (ecsLivenessCheck getJobStatus
        (metadataKey (getDeploymentIdentifier project region deploymentId environment),
          .deployment item)) ∧
    ∃ deployment,
      loadDeployment getJobStatus t project region environment deploymentId = .ok deployment

/-! ## Rows of a partition -/

variable {t}

/-- In the partition of a deployment are its own row and those of its dependents. -/
theorem row_cases (h : t.WellFormed) {key : Key} {row : DeploymentRow} {identifier : String}
    (hrow : t.item key = some row) (hpk : key.pk = deploymentPk identifier) :
    (key = metadataKey identifier ∧ ∃ item, row = .deployment item) ∨
      ∃ dependent item, key = dependentKey identifier dependent ∧ row = .dependent item := by
  have hwritten := h key row hrow
  cases row with
  | deployment item =>
      obtain ⟨isPlan, hpayload⟩ := hwritten
      have hkey : key = (getPayload item.record isPlan).1 := congrArg Prod.fst hpayload
      cases isPlan with
      | true => exact absurd hkey.symm (planKey_ne hpk)
      | false =>
          rw [getPayload_key] at hkey
          subst hkey
          obtain rfl := deploymentPk_injective hpk
          exact Or.inl ⟨rfl, item, rfl⟩
  | dependent item =>
      obtain ⟨dependency, dependent, rfl⟩ := hwritten
      obtain rfl := deploymentPk_injective hpk
      exact Or.inr ⟨dependent, item, rfl, rfl⟩

/-- `DEPENDENT#` sorts before `METADATA`. -/
theorem dependent_lt_metadata (dependent : String) : "DEPENDENT#" ++ dependent < "METADATA" := by
  change ("DEPENDENT#" ++ dependent).toList < "METADATA".toList
  have hdependent : "DEPENDENT#".toList = 'D' :: "EPENDENT#".toList := by decide
  have hmetadata : "METADATA".toList = 'M' :: "ETADATA".toList := by decide
  rw [String.toList_append, hdependent, hmetadata, List.cons_append]
  exact List.cons_lt_cons_iff.2 (Or.inl (by decide))

theorem mem_select_iff {row : Key × DeploymentRow} :
    row ∈ (getDeploymentAndDependentsQuery project region deploymentId environment true).select
        deploymentKeys DeploymentRow.attr t.rows ↔
      t.item row.1 = some row.2 ∧
        row.1.pk = deploymentPk (getDeploymentIdentifier project region deploymentId
          environment) := by
  obtain ⟨key, row⟩ := row
  rw [Query.mem_select, KeyedTable.mem_rows_iff]
  constructor
  · rintro ⟨hrow, -, -, hkeys, -⟩
    exact ⟨hrow, Deployments.holds_equals_pk.1 (hkeys _ List.mem_cons_self)⟩
  · rintro ⟨hrow, hpk⟩
    refine ⟨hrow, rfl, rfl, fun condition hcondition => ?_, fun condition hcondition => ?_⟩
    · obtain rfl := List.mem_singleton.1 hcondition
      exact Deployments.holds_equals_pk.2 hpk
    · cases hcondition

/-- A deployment is described by the row of its partition with the least sort key. -/
theorem describeDeploymentAws_eq (row : Key × DeploymentRow) {identifier : String}
    (hidentifier : getDeploymentIdentifier project region deploymentId environment = identifier)
    (hrow : t.item row.1 = some row.2) (hpk : row.1.pk = deploymentPk identifier) :
    ∃ first, describeDeploymentAws getJobStatus t project region environment deploymentId =
        .ok (ecsLivenessCheck getJobStatus first) ∧
      t.item first.1 = some first.2 ∧ first.1.pk = deploymentPk identifier ∧
      ∀ key row, t.item key = some row → key.pk = deploymentPk identifier →
        first.1.sk ≤ key.sk := by
  subst hidentifier
  let query := getDeploymentAndDependentsQuery project region deploymentId environment true
  have hread : t.read query = .ok (query.select deploymentKeys DeploymentRow.attr t.rows) :=
    Query.evaluate_of_accepted rfl rfl _ _
  have hself := (mem_select_iff project region environment deploymentId).2 ⟨hrow, hpk⟩
  cases hrows : query.select deploymentKeys DeploymentRow.attr t.rows with
  | nil =>
      rw [hrows] at hself
      cases hself
  | cons first rest =>
      have hmem : first ∈ query.select deploymentKeys DeploymentRow.attr t.rows :=
        hrows ▸ List.mem_cons_self
      have hfirst := (mem_select_iff project region environment deploymentId).1 hmem
      refine ⟨first, ?_, hfirst.1, hfirst.2, fun key row hrow hpk => ?_⟩
      · unfold describeDeploymentAws
        change t.read (getDeploymentAndDependentsQuery _ _ _ _ _) = _ at hread
        rw [hread, hrows]
      · have hother : (key, row) ∈ query.select deploymentKeys DeploymentRow.attr t.rows :=
          (mem_select_iff project region environment deploymentId).2 ⟨hrow, hpk⟩
        have hle := Query.le_of_mem_select hrows hother
        exact of_decide_eq_true hle

/-- A deployment is described by its own row when no other one depends on it, and else by the row of a
dependent, unless its partition is empty. -/
theorem describeDeploymentAws_cases (h : t.WellFormed) {identifier : String}
    (hidentifier : getDeploymentIdentifier project region deploymentId environment = identifier) :
    (∃ item, t.item (metadataKey identifier) = some (.deployment item) ∧
        (∀ dependent, t.item (dependentKey identifier dependent) = none) ∧
        describeDeploymentAws getJobStatus t project region environment deploymentId =
          .ok (ecsLivenessCheck getJobStatus (metadataKey identifier, .deployment item))) ∨
      (∃ dependent item, t.item (dependentKey identifier dependent) = some (.dependent item) ∧
        describeDeploymentAws getJobStatus t project region environment deploymentId =
          .ok (.stored (dependentKey identifier dependent, .dependent item))) ∨
      (t.item (metadataKey identifier) = none ∧
        describeDeploymentAws getJobStatus t project region environment deploymentId =
          .error "Deployment not found") := by
  by_cases hany : ∃ row : Key × DeploymentRow,
    t.item row.1 = some row.2 ∧ row.1.pk = deploymentPk identifier
  · rcases hany with ⟨row, hrow, hpk⟩
    rcases describeDeploymentAws_eq getJobStatus project region environment deploymentId row
      hidentifier hrow hpk with ⟨⟨key, first⟩, hdescribe, hfirst, hpk, hleast⟩
    rcases row_cases h hfirst hpk with ⟨hkey, item, hitem⟩ | ⟨dependent, item, hkey, hitem⟩
    · dsimp only at hkey hitem hfirst
      subst hkey hitem
      refine Or.inl ⟨item, hfirst, fun dependent => ?_, hdescribe⟩
      -- The row of a dependent would come before the row that is first.
      cases hother : t.item (dependentKey identifier dependent) with
      | none => rfl
      | some other =>
          have hle : "METADATA" ≤ "DEPENDENT#" ++ dependent := hleast _ other hother rfl
          exact absurd (dependent_lt_metadata dependent) (String.not_lt.2 hle)
    · dsimp only at hkey hitem hfirst
      subst hkey hitem
      exact Or.inr (Or.inl ⟨dependent, item, hfirst, hdescribe⟩)
  · refine Or.inr (Or.inr ⟨?_, ?_⟩)
    · cases hown : t.item (metadataKey identifier) with
      | none => rfl
      | some row => exact absurd ⟨(metadataKey identifier, row), hown, rfl⟩ hany
    · subst hidentifier
      let query := getDeploymentAndDependentsQuery project region deploymentId environment true
      have hread : t.read query = .ok (query.select deploymentKeys DeploymentRow.attr t.rows) :=
        Query.evaluate_of_accepted rfl rfl _ _
      have hnone : query.select deploymentKeys DeploymentRow.attr t.rows = [] :=
        List.eq_nil_iff_forall_not_mem.2 fun row hrow =>
          hany ⟨row, (mem_select_iff project region environment deploymentId).1 hrow⟩
      unfold describeDeploymentAws
      change t.read (getDeploymentAndDependentsQuery _ _ _ _ _) = _ at hread
      rw [hread, hnone]

theorem ecsLivenessCheck_ne_dependent {row : Key × DeploymentRow} {item : DependentItem}
    (h : row.2 = .dependent item) (key : Key) (item' : DeploymentItem) :
    ecsLivenessCheck getJobStatus row ≠ ecsLivenessCheck getJobStatus (key, .deployment item') := by
  obtain ⟨rowKey, row⟩ := row
  obtain rfl : row = .dependent item := h
  unfold ecsLivenessCheck
  dsimp only
  intro heq
  repeat' split at heq
  all_goals cases heq

theorem parseDeployment_ecsLivenessCheck (key : Key) (item : DeploymentItem) :
    ∃ deployment, parseDeployment (ecsLivenessCheck getJobStatus (key, .deployment item)) =
      .ok deployment := by
  unfold ecsLivenessCheck
  dsimp only
  repeat' split
  all_goals exact ⟨_, rfl⟩

/-- In every reachable table, a deployment that is stored is described by its own row exactly when
no other deployment depends on it. -/
theorem describesItself_iff (calls : List SetDeployment) {item : DeploymentItem}
    (hitem : (Deployments.run calls).item (metadataKey (getDeploymentIdentifier project region
      deploymentId environment)) = some (.deployment item)) :
    DescribesItself getJobStatus (Deployments.run calls) project region environment deploymentId
        item ↔
      ∀ dependent, (Deployments.run calls).item (dependentKey (getDeploymentIdentifier project
        region deploymentId environment) dependent) = none := by
  have hwf := Deployments.wellFormed_run calls
  generalize Deployments.run calls = t at hitem hwf ⊢
  obtain ⟨first, hdescribe, hrow, hpk, hleast⟩ := describeDeploymentAws_eq getJobStatus
    project region environment deploymentId (metadataKey _, .deployment item) rfl hitem rfl
  unfold DescribesItself loadDeployment
  rw [hdescribe, ok_bind]
  generalize getDeploymentIdentifier project region deploymentId environment = identifier at *
  rcases row_cases hwf hrow hpk with ⟨hkey, item', hfirst⟩ | ⟨dependent, item', hkey, hfirst⟩
  · obtain ⟨key, row⟩ := first
    dsimp only at hkey hfirst hrow
    subst hkey hfirst
    obtain rfl : item' = item := by simpa using hrow.symm.trans hitem
    refine iff_of_true ⟨rfl, parseDeployment_ecsLivenessCheck _ _ _⟩ fun dependent => ?_
    -- The row of a dependent would come before the row that is first.
    cases hother : t.item (dependentKey identifier dependent) with
    | none => rfl
    | some other =>
        have hle : "METADATA" ≤ "DEPENDENT#" ++ dependent := hleast _ other hother rfl
        exact absurd (dependent_lt_metadata dependent) (String.not_lt.2 hle)
  · refine iff_of_false (fun hdescribes => ?_) fun hnone => ?_
    · exact ecsLivenessCheck_ne_dependent getJobStatus hfirst _ _ (Except.ok.inj hdescribes.1)
    · rw [hkey, hnone] at hrow
      cases hrow

/-! ## A deployment that another one depends on -/

def noStatuses : JobStatuses :=
  fun _ _ _ => .error "Task not found"

def appliedDependent : SetDeployment where
  handler := localWorkload
  deployment :=
    { webDeployment with
      deploymentId := "app/c"
      dependencies := [⟨"111111111111", "eu-central-1", "web/a", "cli/default"⟩] }
  isPlan := false
  carriedOut := 1

theorem not_describesItself_of_dependent :
    ∃ item, (Deployments.run [applied, appliedDependent]).item
        (metadataKey webDeployment.identifier) = some (.deployment item) ∧
      ¬ DescribesItself noStatuses (Deployments.run [applied, appliedDependent]) "111111111111"
        "eu-central-1" "cli/default" "web/a" item := by
  refine ⟨(getPayload webDeployment false).2, by decide +kernel, ?_⟩
  rintro ⟨-, deployment, hload⟩
  have hfails : loadDeployment noStatuses (Deployments.run [applied, appliedDependent])
      "111111111111" "eu-central-1" "cli/default" "web/a" =
        .error "Invalid deployment record: missing field `epoch`" := by
    decide +kernel
  rw [hfails] at hload
  cases hload

theorem describesItself_applied :
    DescribesItself noStatuses (Deployments.run [applied]) "111111111111" "eu-central-1"
        "cli/default" "web/a" (getPayload webDeployment false).2 ↔
      ∀ dependent, (Deployments.run [applied]).item
        (dependentKey webDeployment.identifier dependent) = none :=
  describesItself_iff noStatuses "111111111111" "eu-central-1" "cli/default" "web/a" [applied]
    (by decide +kernel)

end InternalApi
end InfraWeave
