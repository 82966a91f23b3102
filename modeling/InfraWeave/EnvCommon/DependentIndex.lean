import InfraWeave.EnvCommon.DeploymentRuns
import Mathlib.Data.List.Dedup

/-!
# The rows of dependents

A row says that one deployment depends on another.  It should be there exactly when the dependent
one is not deleted and lists the other among its dependencies.
-/

namespace InfraWeave
namespace EnvCommon
namespace Deployments

variable {t : Deployments}

/-- The stored deployment is not deleted and has the dependency. -/
def Lists (t : Deployments) (dependent dependency : String) : Prop :=
  ∃ record, t.live dependent = some record ∧
    dependency ∈ record.dependencies.map Dependency.identifier

def Indexed (t : Deployments) : Prop :=
  ∀ dependent dependency,
    (t.item (dependentKey dependency dependent)).isSome = true ↔ t.Lists dependent dependency

/-- The record of the call lists the dependency and is not deleted. -/
def ListsAfter (call : SetDeployment) (dependency : String) : Prop :=
  call.deployment.deleted = false ∧
    dependency ∈ call.deployment.dependencies.map Dependency.identifier

/-- The handler is one for the project and region of the deployment, and the plan of a deployment
that has drifted has the dependencies that are stored. -/
def KeepsIndex (t : Deployments) (call : SetDeployment) : Prop :=
  (call.handler.projectId = call.deployment.projectId ∧
    call.handler.region = call.deployment.region) ∧
  (call.isPlan = true → call.deployment.hasDrifted = true →
    ∀ dependency, t.Lists call.deployment.identifier dependency ↔ ListsAfter call dependency)

/-! ## Lookups after a transaction -/

theorem live_eq_of_item {t' : Deployments} {identifier : String}
    (h : t'.item (metadataKey identifier) = t.item (metadataKey identifier)) :
    t'.live identifier = t.live identifier := by
  unfold live stored
  rw [h]

theorem lists_iff_of_item {t' : Deployments} {dependent dependency : String}
    (h : t'.item (metadataKey dependent) = t.item (metadataKey dependent)) :
    t'.Lists dependent dependency ↔ t.Lists dependent dependency := by
  unfold Lists
  rw [live_eq_of_item h]

/-- Once the record of the call is stored, it says what is listed. -/
theorem lists_iff_of_stored {call : SetDeployment} {dependency : String}
    (h : t.item (metadataKey call.deployment.identifier) =
      some (.deployment (getPayload call.deployment false).2)) :
    t.Lists call.deployment.identifier dependency ↔ ListsAfter call dependency := by
  have hstored : t.stored call.deployment.identifier = some call.deployment :=
    stored_eq_some.2 ⟨_, h, rfl⟩
  unfold Lists live ListsAfter
  rw [hstored, Option.filter_some]
  cases call.deployment.deleted <;> simp

/-! ## The first transaction -/

theorem mem_existing_iff {dependent dependency : String} :
    dependency ∈ (((t.live dependent).map DeploymentResp.dependencies).getD []).map
        Dependency.identifier ↔ t.Lists dependent dependency := by
  unfold Lists
  cases t.live dependent <;> simp

/-- Rows are put for the dependencies that are new, and deleted for those that are gone. -/
theorem mem_operations_iff {call : SetDeployment} (hplan : call.isPlan = false)
    (hhandler : call.handler.projectId = call.deployment.projectId ∧
      call.handler.region = call.deployment.region)
    (operation : KeyedTable.Operation Key DeploymentRow) :
    operation ∈ t.operations call ↔
      operation = putDeployment call.deployment false ∨
      (∃ dependency, (ListsAfter call dependency ∧
        ¬ t.Lists call.deployment.identifier dependency) ∧
        operation = putDependent call.deployment dependency) ∨
      ∃ dependency, (t.Lists call.deployment.identifier dependency ∧
        ¬ ListsAfter call dependency) ∧
        operation = deleteDependent dependency call.deployment.identifier := by
  have hexisting : ∀ dependency, dependency ∈ (((t.live call.deployment.identifier).map
      DeploymentResp.dependencies).getD []).map Dependency.identifier ↔
        t.Lists call.deployment.identifier dependency := fun _ => mem_existing_iff
  have hidentifier : getDeploymentIdentifier call.handler.projectId call.handler.region
      call.deployment.deploymentId call.deployment.environment = call.deployment.identifier := by
    rw [hhandler.1, hhandler.2]
    rfl
  unfold operations
  rw [hidentifier, hplan]
  dsimp only
  generalize ((t.live call.deployment.identifier).map DeploymentResp.dependencies).getD [] =
    existing at hexisting
  rw [List.mem_cons, if_neg Bool.false_ne_true]
  refine or_congr_right ?_
  unfold ListsAfter
  cases call.deployment.deleted with
  | true =>
      simp only [if_true, deletionOperations, List.map_nil, List.nil_append, List.mem_map,
        reduceCtorEq, false_and, not_false_eq_true, and_true, exists_false, false_or]
      constructor
      · rintro ⟨dependency, hmem, rfl⟩
        exact ⟨_, (hexisting _).1 (List.mem_map_of_mem hmem), rfl⟩
      · rintro ⟨dependency, hlists, rfl⟩
        obtain ⟨d, hd, rfl⟩ := List.mem_map.1 ((hexisting _).2 hlists)
        exact ⟨d, hd, rfl⟩
  | false =>
      rw [if_neg Bool.false_ne_true]
      unfold updateOperations
      generalize call.deployment.dependencies.map Dependency.identifier = new
      generalize existing.map Dependency.identifier = old at hexisting
      simp only [List.mem_append, List.mem_map, List.mem_filter, List.mem_dedup, ← hexisting,
        decide_eq_true_eq, true_and, @eq_comm _ operation]

theorem key_of_mem_operations {call : SetDeployment} (hplan : call.isPlan = false)
    (hhandler : call.handler.projectId = call.deployment.projectId ∧
      call.handler.region = call.deployment.region)
    {operation : KeyedTable.Operation Key DeploymentRow} (h : operation ∈ t.operations call) :
    operation.key = metadataKey call.deployment.identifier ∨
      ∃ dependency, operation.key = dependentKey dependency call.deployment.identifier := by
  rcases (mem_operations_iff hplan hhandler _).1 h with rfl | ⟨dependency, -, rfl⟩ |
    ⟨dependency, -, rfl⟩
  · exact Or.inl rfl
  · exact Or.inr ⟨dependency, rfl⟩
  · exact Or.inr ⟨dependency, rfl⟩

/-- A row of a dependent that keeps its dependency, or does not have it, is not touched. -/
theorem notMem_operations {call : SetDeployment} (hplan : call.isPlan = false)
    (hhandler : call.handler.projectId = call.deployment.projectId ∧
      call.handler.region = call.deployment.region) {dependency : String}
    (hsame : t.Lists call.deployment.identifier dependency ↔ ListsAfter call dependency) :
    ∀ operation ∈ t.operations call,
      operation.key ≠ dependentKey dependency call.deployment.identifier := by
  intro operation hoperation hkey
  rcases (mem_operations_iff hplan hhandler _).1 hoperation with rfl | ⟨other, ⟨hnew, hold⟩, rfl⟩ |
    ⟨other, ⟨hold, hnew⟩, rfl⟩
  · exact dependentKey_ne_metadataKey _ _ _ hkey.symm
  · obtain rfl := (dependentKey_inj.1 hkey).1
    exact hold (hsame.2 hnew)
  · obtain rfl := (dependentKey_inj.1 hkey).1
    exact hnew (hsame.1 hold)

/-- The first transaction of a call that is no plan keeps the index. -/
theorem Indexed.transact (h : t.Indexed) {call : SetDeployment} (hplan : call.isPlan = false)
    (hhandler : call.handler.projectId = call.deployment.projectId ∧
      call.handler.region = call.deployment.region)
    (haccepted : KeyedTable.transactionAccepted (t.operations call) = true) :
    Indexed (t.transact (t.operations call)) := by
  have hnodup : ((t.operations call).map KeyedTable.Operation.key).Nodup := by
    simp only [KeyedTable.transactionAccepted, decide_eq_true_eq] at haccepted
    exact haccepted.2
  have hmem := fun operation => mem_operations_iff (t := t) hplan hhandler operation
  intro dependent dependency
  by_cases hdependent : dependent = call.deployment.identifier
  · subst hdependent
    have hput := (hmem (putDeployment call.deployment false)).2 (Or.inl rfl)
    have hstored := KeyedTable.item_transact_of_mem hnodup hput t
    rw [lists_iff_of_stored (t := t.transact (t.operations call)) hstored]
    by_cases hsame : t.Lists call.deployment.identifier dependency ↔ ListsAfter call dependency
    · rw [KeyedTable.item_transact_of_notMem (notMem_operations hplan hhandler hsame), ← hsame]
      exact h call.deployment.identifier dependency
    · by_cases hnew : ListsAfter call dependency
      · have hold : ¬ t.Lists call.deployment.identifier dependency :=
          fun hold => hsame (iff_of_true hold hnew)
        have hadd := (hmem _).2 (Or.inr (Or.inl ⟨dependency, ⟨hnew, hold⟩, rfl⟩))
        have hrow := KeyedTable.item_transact_of_mem hnodup hadd t
        change (t.transact _).item (dependentKey dependency _) = some _ at hrow
        simp [hrow, hnew]
      · have hold : t.Lists call.deployment.identifier dependency := by
          by_contra hold
          exact hsame (iff_of_false hold hnew)
        have hremove := (hmem _).2 (Or.inr (Or.inr ⟨dependency, ⟨hold, hnew⟩, rfl⟩))
        have hrow := KeyedTable.item_transact_of_mem hnodup hremove t
        change (t.transact _).item (dependentKey dependency _) = none at hrow
        simp [hrow, hnew]
  · -- The rows of another dependent are under other keys.
    have hother : ∀ key, (∀ identifier, key = metadataKey identifier →
        identifier ≠ call.deployment.identifier) →
        (∀ other, key ≠ dependentKey other call.deployment.identifier) →
        (t.transact (t.operations call)).item key = t.item key := by
      intro key hmetadata hkey
      refine KeyedTable.item_transact_of_notMem (fun operation hoperation heq => ?_) t
      rcases key_of_mem_operations hplan hhandler hoperation with hop | ⟨other, hop⟩
      · exact hmetadata _ (heq.symm.trans hop) rfl
      · exact hkey other (heq.symm.trans hop)
    rw [lists_iff_of_item (t := t), hother, h dependent dependency]
    · exact fun identifier heq => absurd heq (dependentKey_ne_metadataKey _ _ _)
    · exact fun other heq => hdependent (dependentKey_inj.1 heq).2
    · refine hother _ (fun identifier heq => ?_) fun other heq => ?_
      · exact metadataKey_inj.1 heq ▸ hdependent
      · exact dependentKey_ne_metadataKey _ _ _ heq.symm

/-! ## Runs -/

theorem operations_of_plan {call : SetDeployment} (hplan : call.isPlan = true) :
    t.operations call = [putDeployment call.deployment true] := by
  unfold operations
  rw [hplan]
  rfl

/-- A plan has a partition of its own. -/
theorem item_transact_plan (deployment : DeploymentResp) {key : Key} {identifier : String}
    (hkey : key.pk = deploymentPk identifier) :
    (t.transact [putDeployment deployment true]).item key = t.item key := by
  refine KeyedTable.item_transact_of_notMem (fun operation hoperation => ?_) t
  obtain rfl := List.mem_singleton.1 hoperation
  exact planKey_ne hkey

/-- A record may be stored on its own when it lists the dependencies that are listed already. -/
theorem Indexed.transact_record (h : t.Indexed) {call : SetDeployment}
    (hsame : ∀ dependency,
      t.Lists call.deployment.identifier dependency ↔ ListsAfter call dependency) :
    Indexed (t.transact [putDeployment call.deployment false]) := by
  intro dependent dependency
  have hkept : ∀ key, key ≠ metadataKey call.deployment.identifier →
      (t.transact [putDeployment call.deployment false]).item key = t.item key := by
    intro key hkey
    refine KeyedTable.item_transact_of_notMem (fun operation hoperation => ?_) t
    obtain rfl := List.mem_singleton.1 hoperation
    exact hkey.symm
  rw [hkept _ (dependentKey_ne_metadataKey _ _ _), h dependent dependency]
  by_cases hdependent : dependent = call.deployment.identifier
  · subst hdependent
    have hnodup : ([putDeployment call.deployment false].map KeyedTable.Operation.key).Nodup :=
      List.nodup_singleton _
    have hstored := KeyedTable.item_transact_of_mem hnodup List.mem_cons_self t
    rw [hsame, lists_iff_of_stored (t := t.transact _) hstored]
  · rw [lists_iff_of_item (hkept _ fun heq => hdependent (metadataKey_inj.1 heq))]

theorem Indexed.step (h : t.Indexed) (hwf : t.WellFormed) {call : SetDeployment}
    (hkeeps : t.KeepsIndex call) : (t.step call).Indexed := by
  obtain ⟨hhandler, hdrift⟩ := hkeeps
  cases hplan : call.isPlan with
  | false =>
      rcases step_cases hwf call with heq | ⟨haccepted, heq | ⟨hplan', -, -⟩⟩
      · rw [heq]
        exact h
      · rw [heq]
        exact h.transact hplan hhandler haccepted
      · rw [hplan] at hplan'
        cases hplan'
  | true =>
      have hplanned : Indexed (t.transact (t.operations call)) := by
        intro dependent dependency
        rw [operations_of_plan hplan, item_transact_plan _ rfl,
          lists_iff_of_item (item_transact_plan _ rfl)]
        exact h dependent dependency
      rcases step_cases hwf call with heq | ⟨-, heq | ⟨-, hdrifted, heq⟩⟩
      · rw [heq]
        exact h
      · rw [heq]
        exact hplanned
      · rw [heq]
        exact hplanned.transact_record fun dependency => by
          rw [operations_of_plan hplan, lists_iff_of_item (item_transact_plan _ rfl)]
          exact hdrift hplan hdrifted dependency

/-- In a run of `set_deployment` whose calls keep the index, the rows of dependents are those of
the stored dependencies. -/
theorem indexed_run (calls : List SetDeployment)
    (h : Meets Deployments.step KeepsIndex .empty calls) : (run calls).Indexed := by
  have hempty : Indexed .empty := by
    intro dependent dependency
    simp [Lists, live, stored]
  have hstep : ∀ (t : Deployments) call, t.WellFormed ∧ t.Indexed → t.KeepsIndex call →
      WellFormed (t.step call) ∧ Indexed (t.step call) :=
    fun t call ht hkeeps => ⟨ht.1.step call, ht.2.step ht.1 hkeeps⟩
  have hrun := run_invariant (fun t => WellFormed t ∧ Indexed t) hstep ⟨wellFormed_empty, hempty⟩ h
  exact hrun.2

end Deployments

/-! ## A plan that stores its own dependencies -/

def driftedDeployment : DeploymentResp :=
  { webDeployment with
    hasDrifted := true
    dependencies := [⟨"111111111111", "eu-central-1", "db/b", "cli/default"⟩] }

/-- A drift check with a dependency that is not stored: the plan stores its record, and the update
after it finds the dependency listed already. -/
def driftCheck : List SetDeployment :=
  [⟨localWorkload, driftedDeployment, true, 2⟩, ⟨localWorkload, driftedDeployment, false, 1⟩]

theorem not_indexed_driftCheck : ¬ (Deployments.run driftCheck).Indexed := by
  intro h
  have hlists : (Deployments.run driftCheck).Lists webDeployment.identifier
      (getDeploymentIdentifier "111111111111" "eu-central-1" "db/b" "cli/default") :=
    ⟨driftedDeployment, by decide +kernel, by decide +kernel⟩
  have hrow := (h _ _).2 hlists
  exact absurd hrow (by decide +kernel)

/-- A dependency that is added by an update, and a deployment that is deleted. -/
theorem indexed_run_apply_destroy : (Deployments.run
    [⟨localWorkload,
      { webDeployment with
        dependencies := [⟨"111111111111", "eu-central-1", "db/b", "cli/default"⟩] }, false, 1⟩,
     ⟨localWorkload, { webDeployment with deleted := true }, false, 1⟩]).Indexed :=
  Deployments.indexed_run _
    ⟨⟨⟨rfl, rfl⟩, fun h => by cases h⟩, ⟨⟨rfl, rfl⟩, fun h => by cases h⟩, trivial⟩

end EnvCommon
end InfraWeave
