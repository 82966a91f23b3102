import InfraWeave.EnvCommon.DeploymentRuns
import Mathlib.Data.Finset.Card
import Mathlib.Data.Finset.SymmDiff
import Mathlib.Data.List.Nodup

/-!
# Transactions that the database accepts

`set_deployment` makes one transaction of the record and of the rows of dependents that change.  The
database refuses one that names a key twice or has more than a hundred operations.  An update goes
through sets of dependencies, a deletion through the stored list as it is.
-/

namespace InfraWeave
namespace EnvCommon

open EnvAwsDirect

/-- The operations that `set_deployment` collects before it sends them. -/
def transactionItems (t : Deployments) (handler : WorkloadHandler) (deployment : DeploymentResp)
    (isPlan : Bool) : Except String Transaction := do
  let existing ← (handler.getDeployment t deployment.deploymentId deployment.environment
    false).mapError ("Failed to get deployment to find dependents: " ++ ·)
  let existingDependencies := (existing.map DeploymentResp.dependencies).getD []
  let index ←
    if isPlan then pure []
    else if deployment.deleted then do
      let dependents ← handler.getDependents t deployment.deploymentId deployment.environment
      pure (deletionOperations deployment dependents existingDependencies)
    else pure (updateOperations deployment existingDependencies)
  pure (putDeployment deployment isPlan :: index)

/-- What has been collected is sent, and a deployment that has drifted is stored after its plan. -/
theorem setDeployment_eq_transactionItems (t : Deployments) (handler : WorkloadHandler)
    (deployment : DeploymentResp) (isPlan : Bool) :
    setDeployment t handler deployment isPlan =
      (.ofExcept (transactionItems t handler deployment isPlan) >>= fun operations => do
        commit operations
        if isPlan && deployment.hasDrifted then .write [putDeployment deployment false]
        else pure ()) := by
  unfold setDeployment transactionItems
  cases (handler.getDeployment t deployment.deploymentId deployment.environment false).mapError
      ("Failed to get deployment to find dependents: " ++ ·) with
  | error e => rfl
  | ok existing =>
      cases isPlan with
      | true => rfl
      | false =>
          cases deployment.deleted with
          | false => rfl
          | true =>
              cases handler.getDependents t deployment.deploymentId
                deployment.environment with
              | error e =>
                  simp only [ok_bind]
                  rfl
              | ok dependents =>
                  simp only [ok_bind]
                  rfl

namespace Deployments

variable (t : Deployments) (call : SetDeployment)

/-- The call collects a transaction, with different keys and at most a hundred operations. -/
def SendsAccepted : Prop :=
  ∃ operations, transactionItems t call.handler call.deployment call.isPlan = .ok operations ∧
    (operations.map KeyedTable.Operation.key).Nodup ∧ operations.length ≤ 100

/-- The dependencies of the record that is stored and not deleted. -/
def existingDependencies : List String :=
  (((t.live (getDeploymentIdentifier call.handler.projectId call.handler.region
    call.deployment.deploymentId call.deployment.environment)).map
      DeploymentResp.dependencies).getD []).map Dependency.identifier

def newDependencies : List String :=
  call.deployment.dependencies.map Dependency.identifier

/-- A plan always fits in a transaction.  A deletion does when the stored record repeats no
dependency and has at most 99 of them, and an update when it adds and removes at most 99. -/
def Fits : Prop :=
  call.isPlan = false →
    if call.deployment.deleted then
      (t.existingDependencies call).Nodup ∧ (t.existingDependencies call).length ≤ 99
    else
      (symmDiff (t.existingDependencies call).toFinset (newDependencies call).toFinset).card ≤ 99

variable {t} {call}

theorem transactionItems_eq (h : t.WellFormed) :
    transactionItems t call.handler call.deployment call.isPlan = .ok (t.operations call) := by
  unfold transactionItems operations
  rw [getDeployment_eq _ _ _ h, getDependents_eq _ _ _ h]
  cases call.isPlan with
  | true => rfl
  | false =>
      cases call.deployment.deleted with
      | true => rfl
      | false => rfl

/-! ## Rows of dependents -/

/-- The rows of one dependent under different dependencies have different keys. -/
theorem nodup_dependentKeys {dependencies : List String} {dependent : String} :
    (dependencies.map fun dependency => dependentKey dependency dependent).Nodup ↔
      dependencies.Nodup := by
  refine List.nodup_map_iff fun a b h => ?_
  exact (dependentKey_inj.1 h).1

/-- The record of a deployment has another key than the rows of dependents. -/
theorem nodup_putDeployment {deployment : DeploymentResp} {dependencies : List String}
    {dependent : String} :
    (metadataKey deployment.identifier :: dependencies.map fun dependency =>
      dependentKey dependency dependent).Nodup ↔ dependencies.Nodup := by
  rw [List.nodup_cons, nodup_dependentKeys]
  refine and_iff_right fun hmem => ?_
  obtain ⟨dependency, -, hkey⟩ := List.mem_map.1 hmem
  exact dependentKey_ne_metadataKey _ _ _ hkey

/-! ## Deletions and updates -/

theorem keys_deletion (hplan : call.isPlan = false) (hdeleted : call.deployment.deleted = true) :
    (t.operations call).map KeyedTable.Operation.key =
      metadataKey call.deployment.identifier :: (t.existingDependencies call).map
        fun dependency => dependentKey dependency call.deployment.identifier := by
  unfold operations existingDependencies
  simp only [hplan, hdeleted, deletionOperations, Bool.false_eq_true, if_false, if_true,
    List.map_nil, List.nil_append, List.map_cons, List.map_map]
  rfl

/-- The dependencies that an update adds and those that it removes. -/
def changedDependencies (old new : List String) : List String :=
  new.dedup.filter (· ∉ old.dedup) ++ old.dedup.filter (· ∉ new.dedup)

theorem keys_update (hplan : call.isPlan = false) (hdeleted : call.deployment.deleted = false) :
    (t.operations call).map KeyedTable.Operation.key =
      metadataKey call.deployment.identifier ::
        (changedDependencies (t.existingDependencies call) (newDependencies call)).map
          fun dependency => dependentKey dependency call.deployment.identifier := by
  unfold operations existingDependencies newDependencies changedDependencies
  simp only [hplan, hdeleted, updateOperations, Bool.false_eq_true, if_false, List.map_cons,
    List.map_append, List.map_map]
  rfl

theorem nodup_changedDependencies (old new : List String) :
    (changedDependencies old new).Nodup := by
  refine List.Nodup.append ((List.nodup_dedup _).filter _) ((List.nodup_dedup _).filter _) ?_
  intro dependency hadded hremoved
  have hnew := (List.mem_filter.1 hadded).1
  have hgone := (List.mem_filter.1 hremoved).2
  exact of_decide_eq_true hgone hnew

theorem toFinset_changedDependencies (old new : List String) :
    (changedDependencies old new).toFinset = symmDiff old.toFinset new.toFinset := by
  ext dependency
  simp only [changedDependencies, List.toFinset_append, Finset.mem_union, List.mem_toFinset,
    List.mem_filter, List.mem_dedup, decide_eq_true_eq, Finset.mem_symmDiff]
  exact or_comm

theorem length_changedDependencies (old new : List String) :
    (changedDependencies old new).length = (symmDiff old.toFinset new.toFinset).card := by
  rw [← toFinset_changedDependencies, List.toFinset_card_of_nodup
    (nodup_changedDependencies old new)]

/-- In every well-formed table, the transaction of a call is accepted exactly when it fits. -/
theorem WellFormed.sendsAccepted_iff (h : t.WellFormed) : t.SendsAccepted call ↔ t.Fits call := by
  have hsends : t.SendsAccepted call ↔ ((t.operations call).map KeyedTable.Operation.key).Nodup ∧
      (t.operations call).length ≤ 100 := by
    unfold SendsAccepted
    rw [transactionItems_eq h]
    simp
  have hlength : (t.operations call).length =
      ((t.operations call).map KeyedTable.Operation.key).length := by
    rw [List.length_map]
  -- The record is one of the operations.
  have hone : ∀ n : Nat, n + 1 ≤ 100 ↔ n ≤ 99 := fun n => Nat.succ_le_succ_iff
  rw [hsends, hlength]
  unfold Fits
  cases hplan : call.isPlan with
  | true =>
      -- The transaction of a plan is its record.
      simp [operations, hplan]
  | false =>
      cases hdeleted : call.deployment.deleted with
      | true =>
          rw [keys_deletion hplan hdeleted, nodup_putDeployment, List.length_cons, List.length_map,
            hone]
          simp
      | false =>
          rw [keys_update hplan hdeleted, nodup_putDeployment, List.length_cons, List.length_map,
            length_changedDependencies, hone]
          simp [nodup_changedDependencies]

/-! ## Runs -/

/-- A call succeeds when its transaction is accepted. -/
theorem WellFormed.setDeployment_ok_iff (h : t.WellFormed) :
    (setDeployment t call.handler call.deployment call.isPlan).result = .ok () ↔
      t.SendsAccepted call := by
  unfold SendsAccepted
  rw [setDeployment_eq_transactionItems, transactionItems_eq h, Outcome.ofExcept_ok_bind]
  by_cases haccepted : KeyedTable.transactionAccepted (t.operations call) = true
  · have hsent := haccepted
    simp only [KeyedTable.transactionAccepted, decide_eq_true_eq] at hsent
    refine iff_of_true ?_ ⟨_, rfl, hsent.2, hsent.1⟩
    rw [commit, if_pos haccepted]
    split <;> rfl
  · refine iff_of_false ?_ ?_
    · rw [commit, if_neg haccepted]
      intro hok
      cases hok
    · rintro ⟨operations, heq, hnodup, hlength⟩
      obtain rfl := Except.ok.inj heq
      exact haccepted (by simp [KeyedTable.transactionAccepted, hnodup, hlength])

/-- In every reachable table, for every record, the transaction is one that the database accepts,
and the call succeeds, exactly when the transaction fits. -/
theorem sendsAccepted_run_iff (calls : List SetDeployment) (call : SetDeployment) :
    ((run calls).SendsAccepted call ↔ (run calls).Fits call) ∧
      ((setDeployment (run calls) call.handler call.deployment call.isPlan).result = .ok () ↔
        (run calls).Fits call) := by
  have hwf := wellFormed_run calls
  exact ⟨hwf.sendsAccepted_iff, hwf.setDeployment_ok_iff.trans hwf.sendsAccepted_iff⟩

end Deployments

/-! ## A dependency that is listed twice -/

def listedTwice : DeploymentResp :=
  { webDeployment with
    dependencies := [⟨"111111111111", "eu-central-1", "db/b", "cli/default"⟩,
      ⟨"111111111111", "eu-central-1", "db/b", "cli/default"⟩] }

/-- The deployment can be created, and can not be marked deleted. -/
theorem not_sendsAccepted_listedTwice :
    Deployments.SendsAccepted .empty ⟨localWorkload, listedTwice, false, 1⟩ ∧
      ¬ (Deployments.run [⟨localWorkload, listedTwice, false, 1⟩]).SendsAccepted
        ⟨localWorkload, { listedTwice with deleted := true }, false, 1⟩ := by
  constructor
  · exact ⟨_, Deployments.transactionItems_eq Deployments.wellFormed_empty,
      by decide +kernel, by decide +kernel⟩
  · rintro ⟨operations, hitems, hnodup, -⟩
    rw [Deployments.transactionItems_eq (Deployments.wellFormed_run _)] at hitems
    obtain rfl := Except.ok.inj hitems
    revert hnodup
    decide +kernel

end EnvCommon
end InfraWeave
