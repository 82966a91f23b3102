import InfraWeave.EnvCommon.DeploymentRuns

/-!
# Records that are stored

What a call of `set_deployment` that succeeds leaves in the rows of deployments and of plans.
-/

namespace InfraWeave
namespace EnvCommon

open Deployments

/-- The record is stored, and every write of the call is carried out. -/
def Saves (handler : WorkloadHandler) (t : Deployments) (record : DeploymentResp) (isPlan : Bool)
    (t' : Deployments) : Prop :=
  (setDeployment t handler record isPlan).result = .ok () ∧
    t' = (setDeployment t handler record isPlan).writes.foldl KeyedTable.transact t

variable {handler : WorkloadHandler} {t t' : Deployments} {record : DeploymentResp} {isPlan : Bool}

/-- The call as one whose writes are all carried out. -/
def storing (handler : WorkloadHandler) (record : DeploymentResp) (isPlan : Bool) :
    SetDeployment :=
  ⟨handler, record, isPlan, 2⟩

theorem Saves.eq_step (hwf : t.WellFormed) (h : Saves handler t record isPlan t') :
    t' = t.step (storing handler record isPlan) := by
  rw [h.2, Deployments.step]
  congr 1
  refine (List.take_of_length_le ?_).symm
  have hwrites := writes_setDeployment hwf (storing handler record isPlan)
  change (setDeployment t handler record isPlan).writes = _ at hwrites
  rw [hwrites]
  split
  · split
    · exact Nat.le_refl _
    · exact Nat.le_succ _
  · exact Nat.zero_le _

theorem Saves.wellFormed (hwf : t.WellFormed) (h : Saves handler t record isPlan t') :
    t'.WellFormed := by
  rw [h.eq_step hwf]
  exact hwf.step _

/-- The table after the first transaction, and after the record of a deployment that has drifted. -/
theorem Saves.eq (hwf : t.WellFormed) (h : Saves handler t record isPlan t') :
    KeyedTable.transactionAccepted (t.operations (storing handler record isPlan)) = true ∧
      t' = if (isPlan && record.hasDrifted) = true then
          (t.transact (t.operations (storing handler record isPlan))).transact
            [putDeployment record false]
        else t.transact (t.operations (storing handler record isPlan)) := by
  have haccepted : KeyedTable.transactionAccepted
      (t.operations (storing handler record isPlan)) = true := accepted_of_setDeployment_ok hwf h.1
  refine ⟨haccepted, ?_⟩
  have hwrites := writes_setDeployment hwf (storing handler record isPlan)
  rw [if_pos haccepted] at hwrites
  rw [h.2]
  change List.foldl _ _ (setDeployment t handler record isPlan).writes = _
  change (setDeployment t handler record isPlan).writes =
    _ :: ite ((isPlan && record.hasDrifted) = true) _ _ at hwrites
  rw [hwrites]
  split
  · rfl
  · rfl

/-! ## Keys of the operations -/

/-- After the record itself come the rows of the deployment as a dependent. -/
theorem operations_eq (call : SetDeployment) : ∃ index : Transaction,
    t.operations call = putDeployment call.deployment call.isPlan :: index ∧
      ∀ operation ∈ index, ∃ a b, operation.key = dependentKey a b := by
  refine ⟨_, rfl, fun operation hoperation => ?_⟩
  split at hoperation
  · cases hoperation
  · split at hoperation
    · rcases List.mem_append.1 hoperation with hmem | hmem
      · cases hmem
      · obtain ⟨dependency, -, rfl⟩ := List.mem_map.1 hmem
        exact ⟨_, _, rfl⟩
    · rcases List.mem_append.1 hoperation with hmem | hmem
      · obtain ⟨dependency, -, rfl⟩ := List.mem_map.1 hmem
        exact ⟨_, _, rfl⟩
      · obtain ⟨dependency, -, rfl⟩ := List.mem_map.1 hmem
        exact ⟨_, _, rfl⟩

/-- A row that is neither that of the record nor one of a dependent is left as it is. -/
theorem item_transact_operations (call : SetDeployment) {key : Key}
    (hkey : (putDeployment call.deployment call.isPlan).key ≠ key)
    (hdependent : ∀ a b, dependentKey a b ≠ key) :
    (t.transact (t.operations call)).item key = t.item key := by
  obtain ⟨index, hoperations, hindex⟩ := operations_eq (t := t) call
  rw [hoperations]
  refine KeyedTable.item_transact_of_notMem (fun operation hoperation heq => ?_) t
  rcases List.mem_cons.1 hoperation with rfl | hoperation
  · exact hkey heq
  · obtain ⟨a, b, hab⟩ := hindex operation hoperation
    exact hdependent a b (hab.symm.trans heq)

theorem item_transact_operations_self {call : SetDeployment}
    (haccepted : KeyedTable.transactionAccepted (t.operations call) = true) :
    (t.transact (t.operations call)).item (getPayload call.deployment call.isPlan).1 =
      some (.deployment (getPayload call.deployment call.isPlan).2) := by
  obtain ⟨index, hoperations, -⟩ := operations_eq (t := t) call
  have hnodup : ((t.operations call).map KeyedTable.Operation.key).Nodup := by
    simp only [KeyedTable.transactionAccepted, decide_eq_true_eq] at haccepted
    exact haccepted.2
  have hput : putDeployment call.deployment call.isPlan ∈ t.operations call := by
    rw [hoperations]
    exact List.mem_cons_self
  exact KeyedTable.item_transact_of_mem hnodup hput t

/-! ## What is stored -/

theorem metadataKey_ne_plan {key : Key} (hplan : ∀ identifier, key.pk ≠ deploymentPk identifier)
    (identifier : String) : metadataKey identifier ≠ key :=
  fun heq => hplan identifier (congrArg Key.pk heq.symm)

/-- The row of a deployment: the record, if it is that of the deployment or that of a plan that has
found it to have drifted. -/
theorem Saves.stored (hwf : t.WellFormed) (h : Saves handler t record isPlan t')
    (identifier : String) : t'.stored identifier =
      if record.identifier = identifier ∧ (isPlan = false ∨ record.hasDrifted = true) then
        some record
      else t.stored identifier := by
  obtain ⟨haccepted, heq⟩ := h.eq hwf
  have hdependent : ∀ a b, dependentKey a b ≠ metadataKey identifier :=
    fun a b => dependentKey_ne_metadataKey a b identifier
  have hput : ∀ t : Deployments, Deployments.stored (t.transact [putDeployment record false])
      identifier = if record.identifier = identifier then some record else t.stored identifier := by
    intro t
    split
    · rename_i hid
      subst hid
      have hnodup : ([putDeployment record false].map KeyedTable.Operation.key).Nodup :=
        List.nodup_singleton _
      exact stored_eq_some.2
        ⟨_, KeyedTable.item_transact_of_mem hnodup (List.mem_singleton_self _) t, rfl⟩
    · rename_i hid
      have hkey : ∀ operation ∈ [putDeployment record false],
          operation.key ≠ metadataKey identifier := by
        intro operation hoperation hkey
        obtain rfl := List.mem_singleton.1 hoperation
        exact hid (metadataKey_inj.1 hkey)
      unfold Deployments.stored
      rw [KeyedTable.item_transact_of_notMem hkey]
  have hself := item_transact_operations_self haccepted
  cases isPlan with
  | false =>
      rw [Bool.false_and, if_neg Bool.false_ne_true] at heq
      rw [heq]
      by_cases hid : record.identifier = identifier
      · subst hid
        rw [if_pos ⟨rfl, .inl rfl⟩]
        exact stored_eq_some.2 ⟨_, hself, rfl⟩
      · rw [if_neg fun hand => hid hand.1]
        unfold Deployments.stored
        have hkey : (putDeployment record false).key ≠ metadataKey identifier :=
          fun hkey => hid (metadataKey_inj.1 hkey)
        rw [item_transact_operations (storing handler record false) hkey hdependent]
  | true =>
      have hfirst : Deployments.stored (t.transact (t.operations (storing handler record true)))
          identifier = t.stored identifier := by
        have hkey : (putDeployment record true).key ≠ metadataKey identifier := planKey_ne rfl
        unfold Deployments.stored
        rw [item_transact_operations (storing handler record true) hkey hdependent]
      cases hdrifted : record.hasDrifted with
      | false =>
          rw [hdrifted, Bool.and_false, if_neg Bool.false_ne_true] at heq
          rw [heq, hfirst, if_neg (by simp)]
      | true =>
          rw [hdrifted, Bool.and_true, if_pos rfl] at heq
          rw [heq, hput, hfirst]
          simp

/-- The row of a plan: the record, if it is that of the plan. -/
theorem Saves.item_plan (hwf : t.WellFormed) (h : Saves handler t record isPlan t') {key : Key}
    (hplan : ∀ identifier, key.pk ≠ deploymentPk identifier) : t'.item key =
      if isPlan = true ∧ (getPayload record true).1 = key then
        some (.deployment (getPayload record true).2)
      else t.item key := by
  obtain ⟨haccepted, heq⟩ := h.eq hwf
  have hdependent : ∀ a b, dependentKey a b ≠ key :=
    fun a b heq => hplan a (congrArg Key.pk heq.symm)
  have hmetadata := metadataKey_ne_plan hplan record.identifier
  have hself := item_transact_operations_self haccepted
  have hfirst : (t.transact (t.operations (storing handler record isPlan))).item key =
      if isPlan = true ∧ (getPayload record true).1 = key then
        some (.deployment (getPayload record true).2)
      else t.item key := by
    cases isPlan with
    | false =>
        rw [if_neg (by simp),
          item_transact_operations (storing handler record false) hmetadata hdependent]
    | true =>
        by_cases hkey : (getPayload record true).1 = key
        · rw [if_pos ⟨rfl, hkey⟩, ← hkey]
          exact hself
        · rw [if_neg fun hand => hkey hand.2,
            item_transact_operations (storing handler record true) hkey hdependent]
  have hput : ∀ t : Deployments, KeyedTable.item (t.transact [putDeployment record false]) key =
      t.item key := by
    refine fun t => KeyedTable.item_transact_of_notMem (fun operation hoperation heq => ?_) t
    obtain rfl := List.mem_singleton.1 hoperation
    exact hmetadata heq
  rw [heq, ← hfirst]
  split
  · exact hput _
  · rfl

/-! ## Reading a plan -/

theorem exists_of_parseRows {rows : List (Key × DeploymentRow)} {records : List DeploymentResp}
    {dependents : List Dependent} (h : parseRows rows = .ok (records, dependents)) :
    ∀ record ∈ records, ∃ key item, (key, .deployment item) ∈ rows ∧ item.record = record := by
  induction rows generalizing records dependents with
  | nil =>
      simp only [parseRows, Except.ok.injEq, Prod.mk.injEq] at h
      obtain ⟨rfl, -⟩ := h
      intro record hrecord
      cases hrecord
  | cons row rows ih =>
      obtain ⟨key, row⟩ := row
      unfold parseRows at h
      cases hrest : parseRows rows with
      | error e =>
          rw [hrest] at h
          simp at h
      | ok rest =>
          obtain ⟨records', dependents'⟩ := rest
          have hold : ∀ record ∈ records', ∃ key' item,
              (key', .deployment item) ∈ (key, row) :: rows ∧ item.record = record := by
            intro record hrecord
            obtain ⟨key', item, hmem, heq⟩ := ih hrest record hrecord
            exact ⟨key', item, List.mem_cons_of_mem _ hmem, heq⟩
          rw [hrest, ok_bind] at h
          dsimp only at h
          split at h
          · cases row with
            | deployment item => simp at h
            | dependent item =>
                simp only [Except.ok.injEq, Prod.mk.injEq] at h
                exact h.1 ▸ hold
          · cases row with
            | dependent item => simp at h
            | deployment item =>
                simp only [Except.ok.injEq, Prod.mk.injEq] at h
                obtain ⟨rfl, -⟩ := h
                intro record hrecord
                rcases List.mem_cons.1 hrecord with rfl | hrecord
                · exact ⟨key, item, List.mem_cons_self, rfl⟩
                · exact hold record hrecord

theorem item_of_getPlanDeployment {deploymentId environment jobId : String}
    {record : DeploymentResp}
    (h : handler.getPlanDeployment t deploymentId environment jobId = .ok (some record)) :
    ∃ item, t.item ⟨"PLAN#" ++ getDeploymentIdentifier handler.projectId handler.region
      deploymentId environment, jobId⟩ = some (.deployment item) ∧ item.record = record := by
  let query := EnvAwsDirect.getPlanDeploymentQuery handler.projectId handler.region deploymentId
    environment jobId
  have hread : t.read query = .ok (query.select EnvAwsDirect.deploymentKeys DeploymentRow.attr
      t.rows) := Query.evaluate_of_accepted rfl rfl _ _
  unfold WorkloadHandler.getPlanDeployment getDeploymentAndDependents at h
  change t.read (EnvAwsDirect.getPlanDeploymentQuery _ _ _ _ _) = _ at hread
  rw [hread, ok_bind] at h
  cases hrows : parseRows (query.select EnvAwsDirect.deploymentKeys DeploymentRow.attr t.rows) with
  | error e =>
      change (parseRows _ >>= _) >>= _ = _ at h
      rw [hrows] at h
      cases h
  | ok result =>
      obtain ⟨records, dependents⟩ := result
      change (parseRows _ >>= _) >>= _ = _ at h
      rw [hrows] at h
      have hhead : records.head? = some record := Except.ok.inj h
      obtain ⟨key, item, hmem, heq⟩ :=
        exists_of_parseRows hrows record (List.mem_of_mem_head? hhead)
      rw [Query.mem_select, KeyedTable.mem_rows_iff] at hmem
      obtain ⟨hrow, -, -, hkeys, -⟩ := hmem
      have hpk := holds_equals_pk.1 (hkeys _ List.mem_cons_self)
      have hsk := holds_equals_sk.1 (hkeys _ (List.mem_cons_of_mem _ List.mem_cons_self))
      obtain ⟨pk, sk⟩ := key
      obtain rfl : pk = _ := hpk
      obtain rfl : sk = _ := hsk
      exact ⟨item, hrow, heq⟩

end EnvCommon
end InfraWeave
