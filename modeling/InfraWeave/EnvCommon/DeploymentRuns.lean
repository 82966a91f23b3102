import InfraWeave.EnvCommon.ApiDeployment
import InfraWeave.Lib.Runs

/-!
# Runs of `set_deployment`

A step is one call of `set_deployment`.  Of the transactions that it makes, a number is carried out;
a call whose next request fails makes no more of them.
-/

namespace InfraWeave
namespace EnvCommon

open EnvAwsDirect

structure SetDeployment where
  handler : WorkloadHandler
  deployment : DeploymentResp
  isPlan : Bool
  /-- How many transactions are carried out before a request fails. -/
  carriedOut : Nat

def Deployments.step (t : Deployments) (call : SetDeployment) : Deployments :=
  ((setDeployment t call.handler call.deployment call.isPlan).writes.take call.carriedOut).foldl
    KeyedTable.transact t

def Deployments.run (calls : List SetDeployment) : Deployments :=
  InfraWeave.run Deployments.step .empty calls

/-! ## Attributes -/

namespace DeploymentRow

variable (key : Key)

@[simp] theorem attr_pk (row : DeploymentRow) : attr (key, row) "PK" = some (.text key.pk) := rfl

@[simp] theorem attr_sk (row : DeploymentRow) : attr (key, row) "SK" = some (.text key.sk) := rfl

@[simp] theorem attr_deleted (item : DeploymentItem) : attr (key, .deployment item) "deleted" =
    some (.number (if item.record.deleted then 1 else 0)) := rfl

@[simp] theorem attr_deleted_dependent (item : DependentItem) :
    attr (key, .dependent item) "deleted" = none := rfl

@[simp] theorem attr_deletedPkBase (item : DeploymentItem) :
    attr (key, .deployment item) "deleted_PK_base" = some (.text item.deletedPkBase) := rfl

@[simp] theorem attr_deletedPkBase_dependent (item : DependentItem) :
    attr (key, .dependent item) "deleted_PK_base" = none := rfl

@[simp] theorem attr_deletedPk (item : DeploymentItem) :
    attr (key, .deployment item) "deleted_PK" = some (.text item.deletedPk) := rfl

@[simp] theorem attr_deletedPk_dependent (item : DependentItem) :
    attr (key, .dependent item) "deleted_PK" = none := rfl

@[simp] theorem attr_modulePkBase (item : DeploymentItem) :
    attr (key, .deployment item) "module_PK_base" = some (.text item.modulePkBase) := rfl

end DeploymentRow

/-! ## Keys -/

def metadataKey (identifier : String) : Key :=
  ⟨deploymentPk identifier, "METADATA"⟩

theorem deploymentPk_injective : Function.Injective deploymentPk := by
  intro a b h
  have hchars := congrArg String.toList h
  simp only [deploymentPk, String.toList_append, List.append_cancel_left_eq] at hchars
  exact String.ext hchars

theorem metadataKey_inj {a b : String} : metadataKey a = metadataKey b ↔ a = b := by
  constructor
  · intro h
    exact deploymentPk_injective (congrArg Key.pk h)
  · rintro rfl
    rfl

theorem dependentKey_inj {a b a' b' : String} :
    dependentKey a b = dependentKey a' b' ↔ a = a' ∧ b = b' := by
  constructor
  · intro h
    have hsk := congrArg (fun key => key.sk.toList) h
    simp only [dependentKey, String.toList_append, List.append_cancel_left_eq] at hsk
    exact ⟨deploymentPk_injective (congrArg Key.pk h), String.ext hsk⟩
  · rintro ⟨rfl, rfl⟩
    rfl

theorem dependentKey_ne_metadataKey (a b c : String) : dependentKey a b ≠ metadataKey c := by
  intro h
  have hsk := congrArg (fun key => key.sk.toList.head?) h
  simp [dependentKey, metadataKey] at hsk

/-- Plans are in partitions of their own. -/
theorem planKey_ne {deployment : DeploymentResp} {key : Key} {identifier : String}
    (h : key.pk = deploymentPk identifier) : (getPayload deployment true).1 ≠ key := by
  intro hkey
  have hpk := congrArg (fun key => key.pk.toList.head?) hkey
  simp [getPayload, h, deploymentPk] at hpk

theorem getPayload_key (deployment : DeploymentResp) :
    (getPayload deployment false).1 = metadataKey deployment.identifier := rfl

/-! ## Well-formed tables -/

/-- The row is one that is written under this key. -/
def DeploymentRow.WrittenUnder (key : Key) : DeploymentRow → Prop
  | .deployment item => ∃ isPlan, (key, item) = getPayload item.record isPlan
  | .dependent _ => ∃ dependency dependent, key = dependentKey dependency dependent

def Deployments.WellFormed (t : Deployments) : Prop :=
  ∀ key row, t.item key = some row → row.WrittenUnder key

namespace Deployments

variable {t : Deployments}

/-- The record in the row of a deployment. -/
def stored (t : Deployments) (identifier : String) : Option DeploymentResp :=
  match t.item (metadataKey identifier) with
  | some (.deployment item) => some item.record
  | _ => none

theorem stored_eq_some {identifier : String} {record : DeploymentResp} :
    t.stored identifier = some record ↔
      ∃ item, t.item (metadataKey identifier) = some (.deployment item) ∧ item.record = record := by
  unfold stored
  split
  · rename_i item hitem
    simp [hitem]
  · rename_i hitem
    simp only [reduceCtorEq, false_iff, not_exists, not_and]
    exact fun item h => absurd h (hitem item)

theorem WellFormed.exists_of_metadataKey (h : t.WellFormed) {identifier : String}
    {row : DeploymentRow} (hrow : t.item (metadataKey identifier) = some row) :
    ∃ item, row = .deployment item := by
  cases row with
  | deployment item => exact ⟨item, rfl⟩
  | dependent item =>
      obtain ⟨dependency, dependent, hkey⟩ := h _ _ hrow
      exact absurd hkey.symm (dependentKey_ne_metadataKey _ _ _)

/-! ## Reads -/

theorem parseRows_deployments (rows : List (Key × DeploymentRow))
    (h : ∀ row ∈ rows, (∃ identifier, row.1 = metadataKey identifier) ∧
      ∃ item, row.2 = .deployment item) :
    ∃ records, parseRows rows = .ok (records, []) ∧
      records.head? = rows.head?.bind fun row =>
        match row.2 with
        | .deployment item => some item.record
        | .dependent _ => none := by
  induction rows with
  | nil => exact ⟨[], rfl, rfl⟩
  | cons row rows ih =>
      obtain ⟨records, hrecords, -⟩ := ih fun row hrow => h row (List.mem_cons_of_mem _ hrow)
      obtain ⟨⟨identifier, hkey⟩, item, hitem⟩ := h row List.mem_cons_self
      obtain ⟨key, row⟩ := row
      dsimp only at hkey hitem
      subst hkey hitem
      have hprefix : Text.stripPrefix "DEPENDENT#" (metadataKey identifier).sk = none := by
        change Text.stripPrefix "DEPENDENT#" "METADATA" = none
        decide
      exact ⟨item.record :: records, by simp [parseRows, hrecords, hprefix], rfl⟩

variable (handler : WorkloadHandler) (deploymentId environment : String)

theorem holds_equals_pk {row : Key × DeploymentRow} {pk : String} :
    (Condition.equals "PK" (.text pk)).holds (DeploymentRow.attr row) = true ↔ row.1.pk = pk := by
  simp [Condition.holds, DeploymentRow.attr]

theorem holds_equals_sk {row : Key × DeploymentRow} {sk : String} :
    (Condition.equals "SK" (.text sk)).holds (DeploymentRow.attr row) = true ↔ row.1.sk = sk := by
  simp [Condition.holds, DeploymentRow.attr]

theorem mem_select_getDeploymentQuery (h : t.WellFormed) (includeDeleted : Bool)
    (row : Key × DeploymentRow) :
    row ∈ (getDeploymentQuery handler.projectId handler.region deploymentId environment
        includeDeleted).select deploymentKeys DeploymentRow.attr t.rows ↔
      ∃ identifier item,
        identifier = getDeploymentIdentifier handler.projectId handler.region deploymentId
          environment ∧
        row = (metadataKey identifier, .deployment item) ∧
        t.item (metadataKey identifier) = some (.deployment item) ∧
        (includeDeleted || !item.record.deleted) = true := by
  obtain ⟨key, row⟩ := row
  rw [Query.mem_select, KeyedTable.mem_rows_iff]
  constructor
  · rintro ⟨hrow, -, -, hkeys, hfilter⟩
    have hpk := holds_equals_pk.1 (hkeys _ List.mem_cons_self)
    have hsk := holds_equals_sk.1 (hkeys isMetadata (by simp [getDeploymentQuery]))
    obtain rfl : key = metadataKey (getDeploymentIdentifier handler.projectId handler.region
        deploymentId environment) := by
      cases key
      exact congrArg₂ Key.mk hpk hsk
    obtain ⟨item, rfl⟩ := h.exists_of_metadataKey hrow
    refine ⟨_, item, rfl, rfl, hrow, ?_⟩
    cases includeDeleted with
    | true => rfl
    | false =>
        have hdeleted := hfilter (.equals "deleted" (.number 0)) (by simp [getDeploymentQuery])
        simpa [Condition.holds] using hdeleted
  · rintro ⟨identifier, item, rfl, heq, hrow, hdeleted⟩
    obtain ⟨rfl, rfl⟩ := Prod.mk.inj heq
    refine ⟨hrow, rfl, rfl, fun condition hcondition => ?_, fun condition hcondition => ?_⟩
    · rcases List.mem_pair.1 hcondition with rfl | rfl
      · exact holds_equals_pk.2 rfl
      · exact holds_equals_sk.2 rfl
    · cases includeDeleted with
      | true => simp [getDeploymentQuery] at hcondition
      | false =>
          obtain rfl := List.mem_singleton.1 hcondition
          simpa [Condition.holds] using hdeleted

/-- What a deployment is read as: its stored record, unless it is deleted and deleted deployments
are left out. -/
theorem getDeployment_eq (h : t.WellFormed) (includeDeleted : Bool) :
    handler.getDeployment t deploymentId environment includeDeleted =
      .ok ((t.stored (getDeploymentIdentifier handler.projectId handler.region deploymentId
        environment)).filter fun d => includeDeleted || !d.deleted) := by
  let query := getDeploymentQuery handler.projectId handler.region deploymentId environment
    includeDeleted
  have hread : t.read query = .ok (query.select deploymentKeys DeploymentRow.attr t.rows) := by
    refine Query.evaluate_of_accepted rfl ?_ _ _
    cases includeDeleted <;> rfl
  have hmem := mem_select_getDeploymentQuery handler deploymentId environment h includeDeleted
  change ∀ row, row ∈ query.select deploymentKeys DeploymentRow.attr t.rows ↔ _ at hmem
  generalize query.select deploymentKeys DeploymentRow.attr t.rows = rows at hread hmem
  obtain ⟨records, hrecords, hhead⟩ := parseRows_deployments rows fun row hrow => by
    obtain ⟨identifier, item, -, rfl, -⟩ := (hmem row).1 hrow
    exact ⟨⟨identifier, rfl⟩, item, rfl⟩
  have hresult : handler.getDeployment t deploymentId environment includeDeleted =
      .ok records.head? := by
    unfold WorkloadHandler.getDeployment getDeploymentAndDependents
    change t.read (getDeploymentQuery _ _ _ _ _) = _ at hread
    rw [hread, ok_bind, hrecords]
    rfl
  rw [hresult, hhead]
  congr 1
  cases rows with
  | nil =>
      -- Nothing is selected, so there is no such record.
      symm
      rw [List.head?_nil, Option.bind_none, Option.filter_eq_none_iff]
      intro record hstored hdeleted
      obtain ⟨item, hitem, rfl⟩ := stored_eq_some.1 hstored
      have := (hmem _).2 ⟨_, item, rfl, rfl, hitem, hdeleted⟩
      cases this
  | cons row rows =>
      obtain ⟨identifier, item, rfl, rfl, hitem, hdeleted⟩ := (hmem row).1 List.mem_cons_self
      have hstored := stored_eq_some.2 ⟨item, hitem, rfl⟩
      rw [hstored, Option.filter_some, if_pos hdeleted]
      rfl

/-- The query for dependents asks for an attribute that their rows do not have. -/
theorem getDependents_eq (h : t.WellFormed) :
    handler.getDependents t deploymentId environment = .ok [] := by
  let query := getDependentsQuery handler.projectId handler.region deploymentId environment
  have hread : t.read query = .ok (query.select deploymentKeys DeploymentRow.attr t.rows) :=
    Query.evaluate_of_accepted rfl rfl _ _
  have hnone : query.select deploymentKeys DeploymentRow.attr t.rows = [] := by
    rw [List.eq_nil_iff_forall_not_mem]
    rintro ⟨key, row⟩ hmem
    rw [Query.mem_select, KeyedTable.mem_rows_iff] at hmem
    obtain ⟨hrow, -, -, hkeys, hfilter⟩ := hmem
    have hpk := holds_equals_pk.1 (hkeys _ List.mem_cons_self)
    cases row with
    | dependent item =>
        have hdeleted := hfilter _ List.mem_cons_self
        simp [Condition.holds] at hdeleted
    | deployment item =>
        -- The row of a deployment in this partition has another sort key.
        obtain ⟨isPlan, hpayload⟩ := h _ _ hrow
        have hkey : key = (getPayload item.record isPlan).1 := congrArg Prod.fst hpayload
        cases isPlan with
        | true => exact planKey_ne hpk hkey.symm
        | false =>
            have hsk := hkeys (.beginsWith "SK" "DEPENDENT#") (by simp [query, getDependentsQuery])
            subst hkey
            have hmetadata : Condition.holds (DeploymentRow.attr
                (metadataKey item.record.identifier, .deployment item))
                (.beginsWith "SK" "DEPENDENT#") = false := by
              change "DEPENDENT#".toList.isPrefixOf "METADATA".toList = false
              decide
            rw [getPayload_key, hmetadata] at hsk
            cases hsk
  unfold WorkloadHandler.getDependents getDeploymentAndDependents
  change t.read (getDependentsQuery _ _ _ _) = _ at hread
  rw [hread, ok_bind, hnone]
  rfl

/-! ## Steps -/

/-- The record of a deployment that is not deleted. -/
def live (t : Deployments) (identifier : String) : Option DeploymentResp :=
  (t.stored identifier).filter fun d => !d.deleted

/-- The operations of the first transaction. -/
def operations (t : Deployments) (call : SetDeployment) : Transaction :=
  let existing := t.live (getDeploymentIdentifier call.handler.projectId call.handler.region
    call.deployment.deploymentId call.deployment.environment)
  let existingDependencies := (existing.map DeploymentResp.dependencies).getD []
  putDeployment call.deployment call.isPlan ::
    if call.isPlan then []
    else if call.deployment.deleted then deletionOperations call.deployment [] existingDependencies
    else updateOperations call.deployment existingDependencies

theorem setDeployment_eq (h : t.WellFormed) (call : SetDeployment) :
    setDeployment t call.handler call.deployment call.isPlan =
      (commit (t.operations call) >>= fun _ =>
        if call.isPlan && call.deployment.hasDrifted then
          .write [putDeployment call.deployment false]
        else pure ()) := by
  unfold setDeployment operations
  rw [getDeployment_eq _ _ _ h, getDependents_eq _ _ _ h]
  cases call.isPlan with
  | true => rfl
  | false =>
      cases hdeleted : call.deployment.deleted with
      | true => rfl
      | false => rfl

/-- The writes of a call: nothing, or the first transaction, and after it the record of a
deployment that has drifted. -/
theorem writes_setDeployment (h : t.WellFormed) (call : SetDeployment) :
    (setDeployment t call.handler call.deployment call.isPlan).writes =
      if KeyedTable.transactionAccepted (t.operations call) then
        t.operations call ::
          if call.isPlan && call.deployment.hasDrifted then [[putDeployment call.deployment false]]
          else []
      else [] := by
  rw [setDeployment_eq h, Outcome.writes_bind]
  unfold commit
  by_cases haccepted : KeyedTable.transactionAccepted (t.operations call) = true
  · rw [if_pos haccepted, if_pos haccepted]
    change _ :: (ite _ _ _ : Outcome Transaction String Unit).writes = _
    split <;> rfl
  · rw [if_neg haccepted, if_neg haccepted]
    rfl

theorem accepted_of_setDeployment_ok (h : t.WellFormed) {call : SetDeployment}
    (hok : (setDeployment t call.handler call.deployment call.isPlan).result = .ok ()) :
    KeyedTable.transactionAccepted (t.operations call) = true := by
  rw [setDeployment_eq h, Outcome.result_bind_eq_ok] at hok
  obtain ⟨_, hcommit, -⟩ := hok
  by_contra haccepted
  rw [commit, if_neg haccepted] at hcommit
  cases hcommit

/-- What a step does to the table: nothing, the first transaction, or both. -/
theorem step_cases (h : t.WellFormed) (call : SetDeployment) :
    t.step call = t ∨
      KeyedTable.transactionAccepted (t.operations call) = true ∧
        (t.step call = t.transact (t.operations call) ∨
          call.isPlan = true ∧ call.deployment.hasDrifted = true ∧
            t.step call = (t.transact (t.operations call)).transact
              [putDeployment call.deployment false]) := by
  unfold step
  rw [writes_setDeployment h]
  split
  · rename_i haccepted
    cases call.carriedOut with
    | zero => exact Or.inl rfl
    | succ n =>
        refine Or.inr ⟨haccepted, ?_⟩
        rw [List.take_succ_cons]
        split
        · rename_i hdrift
          cases n with
          | zero => exact Or.inl rfl
          | succ n =>
              obtain ⟨hplan, hdrifted⟩ := Bool.and_eq_true_iff.1 hdrift
              refine Or.inr ⟨hplan, hdrifted, ?_⟩
              rw [List.take_succ_cons, List.take_nil]
              rfl
        · rw [List.take_nil]
          exact Or.inl rfl
  · rw [List.take_nil]
    exact Or.inl rfl

/-- A call that succeeds stores its record. -/
theorem stored_step (h : t.WellFormed) {call : SetDeployment} (hplan : call.isPlan = false)
    (hcarried : 0 < call.carriedOut)
    (hok : (setDeployment t call.handler call.deployment call.isPlan).result = .ok ()) :
    (t.step call).stored call.deployment.identifier = some call.deployment := by
  have haccepted := accepted_of_setDeployment_ok h hok
  have hnodup : ((t.operations call).map KeyedTable.Operation.key).Nodup := by
    simp only [KeyedTable.transactionAccepted, decide_eq_true_eq] at haccepted
    exact haccepted.2
  have hstep : t.step call = t.transact (t.operations call) := by
    unfold step
    rw [writes_setDeployment h, if_pos haccepted, hplan, Bool.false_and,
      if_neg Bool.false_ne_true, List.take_of_length_le hcarried]
    rfl
  have hput : putDeployment call.deployment false ∈ t.operations call := by
    unfold operations
    rw [hplan]
    exact List.mem_cons_self
  rw [hstep]
  exact stored_eq_some.2 ⟨_, KeyedTable.item_transact_of_mem hnodup hput t, rfl⟩

/-- A property of rows is kept by a step when the records that it puts and the rows of its
deployment as a dependent have it. -/
theorem forall_item_step_of_puts {p : Key → DeploymentRow → Prop} (hwf : t.WellFormed)
    (h : ∀ key row, t.item key = some row → p key row) {call : SetDeployment}
    (hrecord : ∀ isPlan, isPlan = call.isPlan ∨
        isPlan = false ∧ call.isPlan = true ∧ call.deployment.hasDrifted = true →
      p (getPayload call.deployment isPlan).1 (.deployment (getPayload call.deployment isPlan).2))
    (hdependent : ∀ dependency item,
      p (dependentKey dependency call.deployment.identifier) (.dependent item)) :
    ∀ key row, (t.step call).item key = some row → p key row := by
  have hput : ∀ isPlan, (isPlan = call.isPlan ∨
      isPlan = false ∧ call.isPlan = true ∧ call.deployment.hasDrifted = true) →
      ∀ row, (putDeployment call.deployment isPlan).row = some row →
        p (putDeployment call.deployment isPlan).key row := by
    intro isPlan hputs row hrow
    obtain rfl := Option.some.inj hrow
    exact hrecord isPlan hputs
  have hfirst : ∀ key row, KeyedTable.item (t.transact (t.operations call)) key = some row →
      p key row := by
    refine KeyedTable.forall_item_transact h fun operation hoperation row hrow => ?_
    rcases List.mem_cons.1 hoperation with rfl | hoperation
    · exact hput _ (.inl rfl) row hrow
    · split at hoperation
      · cases hoperation
      · split at hoperation
        · -- A deletion puts no row.
          rcases List.mem_append.1 hoperation with hmem | hmem
          · cases hmem
          · obtain ⟨dependency, -, rfl⟩ := List.mem_map.1 hmem
            cases hrow
        · rcases List.mem_append.1 hoperation with hmem | hmem
          · obtain ⟨dependency, -, rfl⟩ := List.mem_map.1 hmem
            obtain rfl := Option.some.inj hrow
            exact hdependent _ _
          · obtain ⟨dependency, -, rfl⟩ := List.mem_map.1 hmem
            cases hrow
  rcases step_cases hwf call with heq | ⟨-, heq | ⟨hplan, hdrifted, heq⟩⟩
  · rw [heq]
    exact h
  · rw [heq]
    exact hfirst
  · rw [heq]
    refine KeyedTable.forall_item_transact hfirst fun operation hoperation => ?_
    obtain rfl := List.mem_singleton.1 hoperation
    exact hput false (.inr ⟨rfl, hplan, hdrifted⟩)

theorem forall_item_step {p : Key → DeploymentRow → Prop} (hwf : t.WellFormed)
    (h : ∀ key row, t.item key = some row → p key row) {call : SetDeployment}
    (hrecord : ∀ isPlan, p (getPayload call.deployment isPlan).1
      (.deployment (getPayload call.deployment isPlan).2))
    (hdependent : ∀ dependency item,
      p (dependentKey dependency call.deployment.identifier) (.dependent item)) :
    ∀ key row, (t.step call).item key = some row → p key row :=
  forall_item_step_of_puts hwf h (fun isPlan _ => hrecord isPlan) hdependent

theorem WellFormed.step (h : t.WellFormed) (call : SetDeployment) : (t.step call).WellFormed :=
  forall_item_step h h (fun isPlan => ⟨isPlan, rfl⟩) fun _ _ => ⟨_, _, rfl⟩

theorem wellFormed_empty : WellFormed .empty := by
  intro key row hrow
  cases hrow

theorem wellFormed_run (calls : List SetDeployment) : (run calls).WellFormed :=
  run_invariant WellFormed (fun _ call h (_ : True) => h.step call) wellFormed_empty
    (meets_of_forall (p := fun _ => True) (fun _ _ => trivial) _)

/-- The records of a run are those of its calls. -/
theorem exists_call_of_item {calls : List SetDeployment} {key : Key} {item : DeploymentItem}
    (h : (run calls).item key = some (.deployment item)) :
    ∃ call ∈ calls, item.record = call.deployment := by
  let fromCalls : Key → DeploymentRow → Prop := fun _ row =>
    ∀ item, row = .deployment item → ∃ call ∈ calls, item.record = call.deployment
  let inv : Deployments → Prop := fun t =>
    t.WellFormed ∧ ∀ key row, t.item key = some row → fromCalls key row
  have hstep : ∀ t call, inv t → call ∈ calls → inv (t.step call) := by
    intro t call ⟨hwf, hrows⟩ hcall
    refine ⟨hwf.step call, forall_item_step hwf hrows (fun isPlan item heq => ?_)
      fun dependency item item' heq => ?_⟩
    · obtain rfl := DeploymentRow.deployment.inj heq
      exact ⟨call, hcall, rfl⟩
    · cases heq
  have hempty : inv .empty := ⟨wellFormed_empty, fun key row hrow => by cases hrow⟩
  have hrun : inv (run calls) :=
    run_invariant inv hstep hempty (meets_of_forall (p := (· ∈ calls)) (fun _ h => h) _)
  exact hrun.2 key _ h item rfl

end Deployments

/-! ## A deployment in one region -/

def webDeployment : DeploymentResp where
  epoch := 0
  deploymentId := "web/a"
  status := .successful
  jobId := "job-1"
  environment := "cli/default"
  projectId := "111111111111"
  region := "eu-central-1"
  module := "web"
  moduleVersion := "1.0.0"
  moduleType := "module"
  moduleTrack := "stable"
  driftDetection := .default
  nextDriftCheckEpoch := -1
  hasDrifted := false
  vars := .object []
  output := .null
  policyResults := []
  errorText := ""
  deleted := false
  dependencies := []
  initiatedBy := "cli"
  cpu := "256"
  memory := "512"
  reference := ""
  tfResources := none

def localWorkload : WorkloadHandler :=
  ⟨"111111111111", "eu-central-1"⟩

def applied : SetDeployment :=
  ⟨localWorkload, webDeployment, false, 1⟩

end EnvCommon
end InfraWeave
