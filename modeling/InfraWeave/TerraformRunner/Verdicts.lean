import InfraWeave.TerraformRunner.Runner

/-!
# A runner has one verdict

A runner stores that its job has failed at its beginning or at its end, and that it was successful
after its change.  It never stores both.
-/

namespace InfraWeave
namespace TerraformRunner

open EnvCommon (DeploymentStatusHandler initiateDeploymentStatusHandler)
open Runner

/-- What a runner has tried to store. -/
structure Verdict where
  failed : Bool
  successful : Bool
  deriving DecidableEq

namespace Verdict

def open' : Verdict :=
  ⟨false, false⟩

def after (v : Verdict) : Operation → Verdict
  | .setDeployment record _ =>
      ⟨v.failed || record.status = .failed, v.successful || record.status = .successful⟩
  | _ => v

/-- Neither verdict follows the other one, and no drift is told of a job that is still busy. -/
def Allows (v : Verdict) : Operation → Prop
  | .setDeployment record _ =>
      (record.status = .failed → v.successful = false) ∧
        (record.status = .successful → v.failed = false) ∧
        (record.status.isBusy = true → record.hasDrifted = false)
  | _ => True

end Verdict

def verdictEnvironment : Environment Operation Operation.Answer Verdict where
  step v op _ v' := v' = v.after op
  safe v op := v.Allows op

def Neutral (h : DeploymentStatusHandler) : Prop :=
  h.status ≠ .failed ∧ h.status ≠ .successful

/-- A job that has ended otherwise, or waits. -/
def Undecided (status : DeploymentStatus) : Prop :=
  status ≠ .failed ∧ status ≠ .successful ∧ status.isBusy = false

instance (status : DeploymentStatus) : Decidable (Undecided status) :=
  inferInstanceAs (Decidable (_ ∧ _))

/-- The step stores no verdict, and its handler stays as it should be. -/
def Silent {α : Type} (P : DeploymentStatusHandler → Prop) (x : Runner α) : Prop :=
  ∀ h, P h → Process.WP verdictEnvironment (fun v _ h' => v = .open' ∧ P h') .open' h x

/-! ## Rules -/

section

variable {α β : Type} {P : DeploymentStatusHandler → Prop}

theorem silent_pure (a : α) : Silent P (pure a) :=
  fun _ hh => ⟨rfl, hh⟩

theorem silent_stop (stop : Stop) : Silent P (Process.stop stop : Runner α) :=
  fun _ hh => ⟨rfl, hh⟩

theorem Silent.bind {x : Runner α} {f : α → Runner β} (hx : Silent P x)
    (hf : ∀ a, Silent P (f a)) :
    Silent P (x >>= f) := by
  intro h hh
  refine Process.wp_bind (hx h hh) ?_ fun _ _ _ hmid => hmid
  rintro _ a h' ⟨rfl, hh'⟩
  exact hf a h' hh'

theorem Silent.attempt {x : Runner α} (hx : Silent P x) : Silent P (Runner.attempt x) := by
  intro h hh
  exact Process.wp_catching (hx h hh) (fun _ _ _ hmid => hmid)
    (fun _ _ _ _ _ hmid => hmid) fun _ _ _ _ hmid => hmid

theorem silent_update {f : DeploymentStatusHandler → DeploymentStatusHandler}
    (hf : ∀ h, P h → P (f h)) : Silent P (Process.update f) :=
  fun h hh => ⟨rfl, hf h hh⟩

theorem silent_update_bind {f : DeploymentStatusHandler → DeploymentStatusHandler}
    {g : Unit → Runner β} (hf : ∀ h, P h → P (f h)) (hg : Silent P (g ())) :
    Silent P (Process.update f >>= g) :=
  (silent_update hf).bind fun _ => hg

theorem silent_state {f : DeploymentStatusHandler → Runner β} (hf : ∀ h, Silent P (f h)) :
    Silent P (Process.state >>= f) :=
  fun h hh => hf h h hh

/-- An operation that stores no record. -/
theorem silent_perform {op : Operation}
    (hop : ∀ record isPlan, op ≠ .setDeployment record isPlan) :
    Silent P (Process.perform op) := by
  intro h hh
  have hsame : ∀ v : Verdict, v.Allows op ∧ v.after op = v := by
    intro v
    cases op with
    | setDeployment record isPlan => exact absurd rfl (hop record isPlan)
    | _ => exact ⟨trivial, rfl⟩
  refine ⟨(hsame _).1, ?_⟩
  rintro answer _ rfl
  exact ⟨(hsame _).2, hh⟩

theorem silent_handled (reply : Reply α) : Silent P (handled reply) := by
  cases reply with
  | value a => exact silent_pure _
  | error text => exact silent_pure _
  | panic message => exact silent_stop _

theorem silent_unwrap (reply : Reply α) : Silent P (unwrap reply) := by
  cases reply with
  | value a => exact silent_pure _
  | error text => exact silent_stop _
  | panic message => exact silent_stop _

theorem silent_propagate (text : String) (reply : Reply α) : Silent P (propagate text reply) := by
  cases reply with
  | value a => exact silent_pure _
  | error text => exact silent_stop _
  | panic message => exact silent_stop _

theorem silent_orExit (reply : Reply α) : Silent P (orExit reply) := by
  cases reply with
  | value a => exact silent_pure _
  | error text => exact silent_stop _
  | panic message => exact silent_stop _

theorem silent_request {op : Operation} {f : op.Answer → Runner β}
    (hop : ∀ record isPlan, op ≠ .setDeployment record isPlan)
    (hf : ∀ answer, Silent P (f answer)) :
    Silent P (Process.perform op >>= f) :=
  (silent_perform hop).bind hf

end

/-! ## Records -/

variable (rt : Runtime)

/-- The status of the handler counts, however the answer was. -/
def Counts (v : Verdict) (h : DeploymentStatusHandler) (v' : Verdict) (_ : Except Stop Unit)
    (h' : DeploymentStatusHandler) : Prop :=
  h' = h ∧ v'.failed = (v.failed || h.status = .failed) ∧
    v'.successful = (v.successful || h.status = .successful)

theorem wp_sendDeployment_verdict {v : Verdict} {h : DeploymentStatusHandler}
    (hfailed : h.status = .failed → v.successful = false)
    (hsuccessful : h.status = .successful → v.failed = false)
    (hbusy : h.status.isBusy = true → h.hasDrifted = false) :
    Process.WP verdictEnvironment (Counts v h) v h (sendDeployment rt) := by
  refine ⟨trivial, fun epoch v' hv => ?_⟩
  rw [show v' = v from hv]
  refine ⟨⟨hfailed, hsuccessful, hbusy⟩, ?_⟩
  rintro answer _ rfl
  cases answer with
  | error e => exact ⟨rfl, rfl, rfl⟩
  | panic message => exact ⟨rfl, rfl, rfl⟩
  | value _ =>
      let sent : Verdict :=
        ⟨v.failed || h.status = .failed, v.successful || h.status = .successful⟩
      change Process.WP verdictEnvironment (Counts v h) sent h (if _ then _ else _)
      split
      · -- The second record has the same status.
        have hsafe : (h.status = .failed →
            (v.successful || decide (h.status = .successful)) = false) ∧
            (h.status = .successful → (v.failed || decide (h.status = .failed)) = false) ∧
            (h.status.isBusy = true → h.hasDrifted = false) := by
          refine ⟨fun heq => ?_, fun heq => ?_, hbusy⟩
          · simp [heq, hfailed heq]
          · simp [heq, hsuccessful heq]
        refine ⟨hsafe, ?_⟩
        rintro answer _ rfl
        have hsame : ((v.failed || decide (h.status = .failed)) || decide (h.status = .failed)) =
            (v.failed || decide (h.status = .failed)) ∧
            ((v.successful || decide (h.status = .successful)) ||
              decide (h.status = .successful)) =
            (v.successful || decide (h.status = .successful)) := by
          simp
        cases answer with
        | value _ => exact ⟨rfl, hsame⟩
        | error e => exact ⟨rfl, hsame⟩
        | panic message => exact ⟨rfl, hsame⟩
      · exact ⟨rfl, rfl, rfl⟩

theorem silent_sendDeployment : Silent (fun h => Undecided h.status) (sendDeployment rt) := by
  rintro h ⟨hfailed, hsuccessful, hbusy⟩
  have hnot : h.status.isBusy = true → h.hasDrifted = false := by
    rw [hbusy]
    exact nofun
  refine Process.wp_mono ?_
    (wp_sendDeployment_verdict rt (v := .open') (fun _ => rfl) (fun _ => rfl) hnot)
  rintro ⟨failed, successful⟩ _ _ ⟨rfl, hv⟩
  refine ⟨?_, hfailed, hsuccessful, hbusy⟩
  simpa [Verdict.open', hfailed, hsuccessful] using hv

variable {α : Type} {status : DeploymentStatus}

theorem silent_setStatus_bind {g : Unit → Runner α} (hstatus : Undecided status)
    (hg : Silent (fun h => Undecided h.status) (g ())) :
    Silent Neutral (setStatus status >>= g) := by
  intro h _
  change Process.WP verdictEnvironment (fun v _ h' => v = .open' ∧ Neutral h') .open'
    { h with status } (g ())
  refine Process.wp_mono ?_ (hg { h with status } hstatus)
  rintro v _ h' ⟨rfl, hfailed, hsuccessful, -⟩
  exact ⟨rfl, hfailed, hsuccessful⟩

/-- A status that is no verdict is stored. -/
theorem silent_reportStatus (errorText : String) (hstatus : Undecided status) :
    Silent Neutral (reportStatus rt status errorText) :=
  silent_setStatus_bind hstatus <|
    silent_update_bind (fun _ hundecided => hundecided) (silent_sendDeployment rt)

theorem silent_fail (errorText message : String) (hstatus : Undecided status) :
    Silent Neutral (fail rt status errorText message : Runner α) :=
  (silent_reportStatus rt errorText hstatus).bind fun _ => silent_stop _

theorem silent_failCommand (errorText message : String) (hstatus : Undecided status) :
    Silent Neutral (failCommand rt status errorText message : Runner α) :=
  (silent_reportStatus rt errorText hstatus).bind fun _ =>
    silent_update_bind (fun _ hneutral => hneutral) (silent_stop _)

/-! ## Commands and files -/

theorem silent_runTerraform (command : TerraformCommand) : Silent Neutral (runTerraform command) :=
  silent_request (fun _ _ => nofun) silent_handled

theorem silent_writeFile (name content : String) : Silent Neutral (writeFile name content) := by
  refine silent_request (fun _ _ => nofun) fun answer => (silent_handled answer).bind fun r => ?_
  cases r with
  | ok _ => exact silent_pure _
  | error e => exact silent_stop _

theorem silent_upload (key content : String) :
    Silent Neutral (uploadFileToChangeRecords key content) :=
  silent_request (fun _ _ => nofun) fun answer =>
    (silent_handled answer).bind fun _ => silent_pure _

theorem silent_terraformInit : Silent Neutral (terraformInit rt) := by
  refine (silent_runTerraform _).bind fun r => ?_
  cases r with
  | ok _ => exact silent_pure _
  | error e => exact silent_fail rt _ _ (by decide)

theorem silent_terraformValidate : Silent Neutral (terraformValidate rt) := by
  refine (silent_runTerraform _).bind fun r => ?_
  cases r with
  | ok _ => exact silent_pure _
  | error e => exact silent_failCommand rt _ _ (by decide)

theorem silent_terraformPlan : Silent Neutral (terraformPlan rt) := by
  refine (silent_runTerraform _).bind fun r => ?_
  cases r with
  | ok _ => exact silent_pure _
  | error e => exact silent_failCommand rt _ _ (by decide)

theorem silent_terraformGraph (jobId : String) : Silent Neutral (terraformGraph rt jobId) := by
  refine (silent_runTerraform _).bind fun r => ?_
  cases r with
  | ok _ => exact (silent_writeFile _ _).bind fun _ => silent_upload _ _
  | error e => exact silent_failCommand rt _ _ (by decide)

/-! ## Show -/

theorem silent_sendWebhooks (message : String) (webhooks : List (Option String)) :
    Silent Neutral (sendWebhooks message webhooks) := by
  induction webhooks with
  | nil => exact silent_pure _
  | cons webhook webhooks ih =>
      cases webhook with
      | none => exact ih
      | some url =>
          exact silent_request (fun _ _ => nofun) fun answer =>
            (silent_handled answer).bind fun _ => ih

theorem silent_recordDrift (content : Json) : Silent Neutral (recordDrift rt content) := by
  unfold recordDrift
  split
  · have hoccurred : Silent Neutral (driftHasOccurred content) := by
      unfold driftHasOccurred
      split
      · exact silent_pure _
      · exact silent_stop _
    refine hoccurred.bind fun hasDrifted => silent_update_bind (fun _ hneutral => hneutral) ?_
    split
    · exact silent_sendWebhooks _ _
    · exact silent_pure _
  · exact silent_pure _

theorem silent_recordPlanChanges (jobId : String) (module : ModuleResp) (planStdOutput : String)
    (content : Json) : Silent Neutral (recordPlanChanges rt jobId module planStdOutput content) :=
  silent_state fun _ => silent_request (fun _ _ => nofun) fun answer =>
    (silent_handled answer).bind fun _ => silent_pure _

theorem silent_terraformShow (jobId : String) (module : ModuleResp) (planStdOutput : String)
    (usePlanfile : Bool) :
    Silent Neutral (terraformShow rt jobId module planStdOutput usePlanfile) := by
  refine (silent_runTerraform _).bind fun r => ?_
  cases r with
  | error e => exact silent_failCommand rt _ _ (by decide)
  | ok stdout =>
      refine (silent_writeFile _ _).bind fun _ => ?_
      cases rt.parseJson stdout with
      | error e => exact silent_stop _
      | ok content =>
          refine (silent_upload _ _).bind fun _ => (silent_recordDrift rt content).bind fun _ => ?_
          split
          · exact silent_recordPlanChanges rt jobId module planStdOutput content
          · exact silent_pure _

/-! ## The change -/

theorem silent_terraformApplyDestroy : Silent Neutral (terraformApplyDestroy rt) := by
  refine silent_update_bind (fun _ hneutral => hneutral) ?_
  refine (silent_runTerraform _).bind fun r => ?_
  cases r with
  | ok stdout =>
      dsimp only
      split
      · exact silent_update_bind (fun _ hneutral => hneutral) (silent_pure _)
      · exact silent_pure _
  | error e => exact silent_failCommand rt _ _ (by decide)

theorem silent_terraformStateList : Silent Neutral terraformStateList := by
  refine (silent_runTerraform _).bind fun r => ?_
  cases r with
  | ok _ => exact silent_pure _
  | error e => exact silent_pure _

theorem silent_approvedChanges : Silent Neutral (approvedChanges rt) := by
  refine silent_request (fun _ _ => nofun) fun answer => (silent_handled answer).bind fun r => ?_
  cases r with
  | error e => exact silent_pure _
  | ok plan =>
      dsimp only
      split
      · exact silent_pure _
      · exact silent_pure _

theorem silent_recordApplyDestroyChanges (jobId : String) (module : ModuleResp)
    (applyOutput : String) :
    Silent Neutral (recordApplyDestroyChanges rt jobId module applyOutput) := by
  refine (silent_approvedChanges rt).bind fun changes => (silent_upload _ _).bind fun _ => ?_
  refine silent_state fun _ => silent_request (fun _ _ => nofun) fun answer =>
    (silent_handled answer).bind fun r => ?_
  cases r with
  | ok _ => exact silent_pure _
  | error e => exact silent_stop _

theorem silent_settleChange (applyResult : Except String String)
    (resources : Option (List String)) :
    Silent Neutral (settleChange rt applyResult resources) := by
  unfold settleChange
  split
  · exact silent_pure _
  · split
    · exact silent_update fun _ hneutral => hneutral
    · exact silent_stop _

/-! ## Modules and policies -/

theorem silent_getModule : Silent Neutral (getModule rt) := by
  refine silent_request (fun _ _ => nofun) fun answer => (silent_handled answer).bind fun r => ?_
  rcases r with e | found
  · exact silent_fail rt _ _ (by decide)
  cases found with
  | none => exact silent_fail rt _ _ (by decide)
  | some module =>
      refine silent_request (fun _ _ => nofun) fun answer =>
        (silent_handled answer).bind fun r => ?_
      cases r with
      | ok _ => exact silent_pure _
      | error e => exact silent_fail rt _ _ (by decide)

theorem silent_compareModuleIntegrity (oci db : ModuleResp) :
    Silent Neutral (compareModuleIntegrity rt oci db) := by
  unfold compareModuleIntegrity
  dsimp only
  split
  · exact silent_pure _
  · exact silent_fail rt _ _ (by decide)

theorem silent_downloadModule (module : ModuleResp) :
    Silent Neutral (downloadModule rt module) := by
  unfold downloadModule
  split
  · cases module.ociArtifactSet with
    | none => exact silent_stop _
    | some artifacts =>
        refine silent_request (fun _ _ => nofun) fun answer =>
          (silent_handled answer).bind fun r => ?_
        cases r with
        | error e =>
            exact Silent.bind (silent_fail rt _ _ (by decide)) fun oci =>
              (silent_compareModuleIntegrity rt oci module).bind fun same => by
                cases same with
                | true => exact silent_pure _
                | false => exact silent_stop _
        | ok oci =>
            refine (silent_compareModuleIntegrity rt oci module).bind fun same => ?_
            cases same with
            | true => exact silent_pure _
            | false => exact silent_stop _
  · exact silent_request (fun _ _ => nofun) fun answer => silent_propagate _ _

theorem silent_removeFiles (names : List String) : Silent Neutral (removeFiles names) := by
  induction names with
  | nil => exact silent_pure _
  | cons name names ih =>
      exact silent_request (fun _ _ => nofun) fun answer => (silent_unwrap answer).bind fun _ => ih

theorem silent_readOpaResult (policy : PolicyResp) (stdout : String) :
    Silent Neutral (readOpaResult rt policy stdout) := by
  unfold readOpaResult
  split
  · exact silent_stop _
  · split
    · exact silent_stop _
    · exact silent_pure _

theorem silent_evaluatePolicy (policy : PolicyResp) :
    Silent Neutral (evaluatePolicy rt policy) := by
  refine silent_request (fun _ _ => nofun) fun answer => (silent_unwrap answer).bind fun _ => ?_
  refine silent_request (fun _ _ => nofun) fun answer => (silent_unwrap answer).bind fun _ => ?_
  refine silent_request (fun _ _ => nofun) fun answer =>
    (silent_unwrap answer).bind fun regoFiles => ?_
  refine silent_request (fun _ _ => nofun) fun answer => (silent_handled answer).bind fun r => ?_
  cases r with
  | ok stdout =>
      exact (silent_readOpaResult rt policy stdout).bind fun _ =>
        (silent_removeFiles regoFiles).bind fun _ => silent_pure _
  | error e =>
      exact (silent_reportStatus rt e (by decide)).bind fun _ =>
        silent_update_bind (fun _ hneutral => hneutral) (silent_stop _)

theorem silent_evaluatePolicies (policies : List PolicyResp) :
    Silent Neutral (evaluatePolicies rt policies) := by
  induction policies with
  | nil => exact silent_pure _
  | cons policy policies ih =>
      exact (silent_evaluatePolicy rt policy).bind fun _ => ih.bind fun _ => silent_pure _

theorem silent_runOpaPolicyChecks : Silent Neutral (runOpaPolicyChecks rt) := by
  refine silent_request (fun _ _ => nofun) fun answer => (silent_handled answer).bind fun _ => ?_
  refine silent_request (fun _ _ => nofun) fun answer =>
    (silent_unwrap answer).bind fun policies => ?_
  refine (silent_evaluatePolicies rt policies).bind fun results =>
    silent_update_bind (fun _ hneutral => hneutral) ?_
  split
  · exact silent_fail rt _ _ (by decide)
  · exact silent_pure _

/-! ## Relatives -/

theorem silent_checkDependencyStatus (dependency : Dependency) :
    Silent Neutral (checkDependencyStatus dependency) := by
  refine silent_request (fun _ _ => nofun) fun answer => (silent_handled answer).bind fun r => ?_
  rcases r with e | found
  · exact silent_stop _
  cases found with
  | none => exact silent_stop _
  | some deployment =>
      dsimp only
      split
      · exact silent_pure _
      · exact silent_pure _

theorem silent_dependenciesNotFinished (dependencies : List Dependency) :
    Silent Neutral (dependenciesNotFinished dependencies) := by
  induction dependencies with
  | nil => exact silent_pure _
  | cons dependency dependencies ih =>
      refine (silent_checkDependencyStatus dependency).bind fun status => ih.bind fun rest => ?_
      cases status with
      | ok _ => exact silent_pure _
      | error e => exact silent_pure _

theorem silent_checkRelatives : Silent Neutral (checkRelatives rt) := by
  unfold checkRelatives
  split
  · refine (silent_dependenciesNotFinished _).bind fun notFinished => ?_
    split
    · exact silent_pure _
    · exact silent_setStatus_bind (by decide)
        ((silent_sendDeployment rt).bind fun _ => silent_stop _)
  · split
    · refine silent_request (fun _ _ => nofun) fun answer =>
        (silent_handled answer).bind fun r => ?_
      rcases r with e | ⟨deployment, dependants⟩
      · exact silent_fail rt _ _ (by decide)
      · dsimp only
        split
        · exact silent_pure _
        · exact silent_fail rt _ _ (by decide)
    · exact silent_pure _

theorem silent_prepareChange (jobId : String) : Silent Neutral (prepareChange rt jobId) := by
  refine (silent_getModule rt).bind fun module => ?_
  refine silent_request (fun _ _ => nofun) fun answer => (silent_handled answer).bind fun _ => ?_
  refine (silent_downloadModule rt module).bind fun _ => ?_
  refine (silent_terraformInit rt).bind fun _ => (silent_terraformValidate rt).bind fun _ => ?_
  refine (silent_terraformPlan rt).bind fun planStdOutput => ?_
  refine (silent_terraformShow rt jobId module planStdOutput true).bind fun _ => ?_
  exact (silent_terraformGraph rt jobId).bind fun _ =>
    (silent_runOpaPolicyChecks rt).bind fun _ => silent_pure _

/-! ## The verdict of the flow -/

/-- No failure was stored, and success only under the status of the handler. -/
structure Promising (v : Verdict) (h : DeploymentStatusHandler) : Prop where
  failed : v.failed = false
  status : h.status ≠ .failed
  successful : v.successful = true → h.status = .successful

theorem promising_open {h : DeploymentStatusHandler} (hneutral : Neutral h) :
    Promising .open' h where
  failed := rfl
  status := hneutral.1
  successful := nofun

/-- Success is stored. -/
theorem wp_succeed {v : Verdict} {h : DeploymentStatusHandler} (hfailed : v.failed = false)
    (hstatus : h.status = .successful) :
    Process.WP verdictEnvironment (fun v' _ h' => Promising v' h') v h (sendDeployment rt) := by
  have hbusy : h.status.isBusy = true → h.hasDrifted = false := by
    rw [hstatus]
    exact nofun
  have hnot : h.status ≠ .failed := by
    rw [hstatus]
    exact nofun
  refine Process.wp_mono ?_
    (wp_sendDeployment_verdict rt (fun heq => absurd heq hnot) (fun _ => hfailed) hbusy)
  rintro v' _ _ ⟨rfl, hv, -⟩
  refine ⟨?_, hnot, fun _ => hstatus⟩
  rw [hv, hfailed]
  exact decide_eq_false hnot

theorem wp_terraformOutput {h : DeploymentStatusHandler} (hneutral : Neutral h) :
    Process.WP verdictEnvironment (fun v _ h' => Promising v h') .open' h (terraformOutput rt) := by
  refine Process.wp_bind (silent_runTerraform _ h hneutral) ?_ fun _ _ _ hmid => ?_
  · rintro _ r h ⟨rfl, hneutral⟩
    cases r with
    | error e =>
        refine Process.wp_mono ?_ (silent_fail rt _ _ (by decide) h hneutral)
        rintro _ _ h' ⟨rfl, hneutral'⟩
        exact promising_open hneutral'
    | ok stdout =>
        dsimp only
        cases rt.parseJson stdout with
        | error e => exact promising_open hneutral
        | ok json => exact wp_succeed rt rfl rfl
  · exact hmid.1 ▸ promising_open hmid.2

theorem wp_performChange {h : DeploymentStatusHandler} (hneutral : Neutral h) (jobId : String)
    (module : ModuleResp) (planStdOutput : String) :
    Process.WP verdictEnvironment (fun v _ h' => Promising v h') .open' h
      (performChange rt jobId module planStdOutput) := by
  have hstop : ∀ (v : Verdict) (e : Stop) (h : DeploymentStatusHandler),
      v = .open' ∧ Neutral h → Promising v h := by
    rintro _ _ h ⟨rfl, hneutral⟩
    exact promising_open hneutral
  refine Process.wp_bind ((silent_terraformApplyDestroy rt).attempt h hneutral) ?_ hstop
  rintro _ applyResult h ⟨rfl, hneutral⟩
  refine Process.wp_bind (silent_terraformShow rt jobId module planStdOutput false h hneutral) ?_
    hstop
  rintro _ _ h ⟨rfl, hneutral⟩
  refine Process.wp_bind (silent_terraformStateList h hneutral) ?_ hstop
  rintro _ resources h ⟨rfl, hneutral⟩
  have hresources : Silent Neutral
      (Process.update fun h => { h with tfResources := resources } : Runner Unit) :=
    silent_update fun _ hneutral => hneutral
  refine Process.wp_bind (hresources h hneutral) ?_ hstop
  rintro _ _ h ⟨rfl, hneutral⟩
  have hrecord : ∀ applyOutput, Silent Neutral
      (Runner.attempt (recordApplyDestroyChanges rt jobId module applyOutput)) :=
    fun applyOutput => (silent_recordApplyDestroyChanges rt jobId module applyOutput).attempt
  refine Process.wp_bind (hrecord _ h hneutral) ?_ hstop
  rintro _ _ h ⟨rfl, hneutral⟩
  refine Process.wp_bind (silent_settleChange rt applyResult resources h hneutral) ?_ hstop
  rintro _ _ h ⟨rfl, hneutral⟩
  split
  · exact wp_terraformOutput rt hneutral
  · exact promising_open hneutral

theorem wp_terraformFlow {h : DeploymentStatusHandler} (hneutral : Neutral h) (jobId : String) :
    Process.WP verdictEnvironment (fun v _ h' => Promising v h') .open' h
      (terraformFlow rt jobId) := by
  have hstop : ∀ (v : Verdict) (e : Stop) (h : DeploymentStatusHandler),
      v = .open' ∧ Neutral h → Promising v h := by
    rintro _ _ h ⟨rfl, hneutral⟩
    exact promising_open hneutral
  refine Process.wp_bind (silent_checkRelatives rt h hneutral) ?_ hstop
  rintro _ _ h ⟨rfl, hneutral⟩
  refine Process.wp_bind (silent_prepareChange rt jobId h hneutral) ?_ hstop
  rintro _ ⟨module, planStdOutput⟩ h ⟨rfl, hneutral⟩
  dsimp only
  split
  · refine Process.wp_bind (wp_performChange rt hneutral jobId module planStdOutput) ?_
      fun _ _ _ hpromising => hpromising
    exact fun v _ h hpromising => wp_succeed rt hpromising.failed rfl
  · exact wp_succeed rt rfl rfl

/-! ## The verdict of a runner -/

/-- What was stored is the status of the handler. -/
structure Concluded (v : Verdict) (h : DeploymentStatusHandler) : Prop where
  failed : v.failed = true → v.successful = false ∧ h.status = .failed
  successful : v.successful = true → h.status = .successful

theorem Promising.concluded {v : Verdict} {h : DeploymentStatusHandler}
    (hpromising : Promising v h) : Concluded v h where
  failed hfailed := by
    rw [hpromising.failed] at hfailed
    cases hfailed
  successful := hpromising.successful

/-- The job has not started, and no drift is known. -/
def Early (h : DeploymentStatusHandler) : Prop :=
  Neutral h ∧ h.hasDrifted = false

theorem Early.concluded {h : DeploymentStatusHandler} (hearly : Early h) : Concluded .open' h :=
  (promising_open hearly.1).concluded

/-- A failure is stored when there is no success. -/
theorem wp_reportFailed {v : Verdict} (hv : v.successful = false) (errorText : String)
    (h : DeploymentStatusHandler) :
    Process.WP verdictEnvironment (fun v _ h' => Concluded v h') v h
      (attempt (reportStatus rt .failed errorText)) := by
  let failing : DeploymentStatusHandler := { h with status := .failed, errorText := errorText }
  have hsend : Process.WP verdictEnvironment (fun v _ h' => Concluded v h') v h
      (reportStatus rt .failed errorText) := by
    refine Process.wp_mono ?_ (wp_sendDeployment_verdict rt (v := v) (h := failing) (fun _ => hv)
      nofun nofun)
    rintro v' _ _ ⟨rfl, -, hsuccessful⟩
    have hnot : v'.successful = false := by
      rw [hsuccessful, hv]
      rfl
    refine ⟨fun _ => ⟨hnot, rfl⟩, fun htrue => ?_⟩
    rw [hnot] at htrue
    cases htrue
  exact Process.wp_catching hsend (fun _ _ _ hmid => hmid) (fun _ _ _ _ _ hmid => hmid)
    fun _ _ _ _ hmid => hmid

/-! ## Before the flow -/

theorem silent_getJobDeployment {P : DeploymentStatusHandler → Prop} :
    Silent P (getJobDeployment rt) := by
  unfold getJobDeployment
  split
  · refine silent_request (fun _ _ => nofun) fun answer =>
      (silent_propagate _ answer).bind fun jobId => ?_
    exact silent_request (fun _ _ => nofun) silent_handled
  · exact silent_request (fun _ _ => nofun) silent_handled

theorem silent_fetchDeploymentVariables {P : DeploymentStatusHandler → Prop} :
    Silent P (fetchDeploymentVariables rt) := by
  refine (silent_getJobDeployment rt).bind fun r => ?_
  rcases r with e | found
  · exact silent_stop _
  cases found with
  | none => exact silent_stop _
  | some deployment => exact silent_pure _

theorem silent_getInitialDeployment {P : DeploymentStatusHandler → Prop} :
    Silent P (getInitialDeployment rt) :=
  silent_request (fun _ _ => nofun) fun answer => silent_propagate _ answer

/-- The job has not started, or its failure is stored. -/
def Opening {α : Type} (v : Verdict) (r : Except Stop α) (h : DeploymentStatusHandler) : Prop :=
  match r with
  | .ok _ => v = .open' ∧ Early h
  | .error _ => Concluded v h

theorem Opening.of_silent {α : Type} {x : Runner α} (hsilent : Silent Early x)
    {h : DeploymentStatusHandler} (hearly : Early h) :
    Process.WP verdictEnvironment Opening .open' h x := by
  refine Process.wp_mono ?_ (hsilent h hearly)
  rintro _ r h' ⟨rfl, hearly'⟩
  cases r with
  | ok a => exact ⟨rfl, hearly'⟩
  | error e => exact hearly'.concluded

/-- A failure is stored, and the step stops. -/
theorem Opening.of_failed {α : Type} (errorText message : String) (h : DeploymentStatusHandler) :
    Process.WP verdictEnvironment Opening .open' h
      (attempt (reportStatus rt .failed errorText) >>= fun _ => (bail message : Runner α)) :=
  Process.wp_bind (wp_reportFailed rt rfl errorText h) (fun _ _ _ hconcluded => hconcluded)
    fun _ _ _ hconcluded => hconcluded

theorem wp_getCurrentJobId {h : DeploymentStatusHandler} (hearly : Early h) :
    Process.WP verdictEnvironment Opening .open' h (getCurrentJobId rt) := by
  have hask : Silent Early (Process.perform .getCurrentJobId) := silent_perform fun _ _ => nofun
  refine Process.wp_bind (Opening.of_silent hask hearly) ?_ fun _ _ _ hconcluded => hconcluded
  rintro _ answer h ⟨rfl, hearly⟩
  refine Process.wp_bind (Opening.of_silent (silent_handled answer) hearly) ?_
    fun _ _ _ hconcluded => hconcluded
  rintro _ r h ⟨rfl, hearly⟩
  cases r with
  | ok jobId => exact ⟨rfl, hearly⟩
  | error e => exact Opening.of_failed rt _ _ h

theorem wp_ensureValidJobId {h : DeploymentStatusHandler} (hearly : Early h)
    (jobId jobIdForVariables : String) :
    Process.WP verdictEnvironment Opening .open' h
      (ensureValidJobId rt jobId jobIdForVariables) := by
  unfold ensureValidJobId
  split
  · exact Opening.of_failed rt _ _ h
  · exact ⟨rfl, hearly⟩

theorem silent_markDriftCheck : Silent Early (markDriftCheck rt) := by
  unfold markDriftCheck
  split
  · exact silent_update fun _ hearly => hearly
  · exact silent_pure _

/-- That the job has started is no verdict. -/
theorem silent_started : Silent Early (sendDeployment rt) := by
  rintro h ⟨⟨hfailed, hsuccessful⟩, hdrifted⟩
  refine Process.wp_mono ?_ (wp_sendDeployment_verdict rt (v := .open') (fun _ => rfl)
    (fun _ => rfl) fun _ => hdrifted)
  rintro ⟨failed, successful⟩ _ _ ⟨rfl, hv⟩
  refine ⟨?_, ⟨hfailed, hsuccessful⟩, hdrifted⟩
  simpa [Verdict.open', hfailed, hsuccessful] using hv

theorem wp_opening_bind {α β : Type} {x : Runner α} {f : α → Runner β}
    {h : DeploymentStatusHandler} (hx : Process.WP verdictEnvironment Opening .open' h x)
    (hf : ∀ a h, Early h →
      Process.WP verdictEnvironment (fun v _ h' => Concluded v h') .open' h (f a)) :
    Process.WP verdictEnvironment (fun v _ h' => Concluded v h') .open' h (x >>= f) := by
  refine Process.wp_bind hx ?_ fun _ _ _ hconcluded => hconcluded
  rintro _ a h ⟨rfl, hearly⟩
  exact hf a h hearly

theorem wp_opening_perform {β : Type} {op : Operation} {f : op.Answer → Runner β}
    {h : DeploymentStatusHandler} (hop : ∀ record isPlan, op ≠ .setDeployment record isPlan)
    (hearly : Early h)
    (hf : ∀ a h, Early h →
      Process.WP verdictEnvironment (fun v _ h' => Concluded v h') .open' h (f a)) :
    Process.WP verdictEnvironment (fun v _ h' => Concluded v h') .open' h
      (Process.perform op >>= f) :=
  wp_opening_bind (Opening.of_silent (silent_perform hop) hearly) hf

theorem wp_runRunnerInner {h : DeploymentStatusHandler} (hearly : Early h) :
    Process.WP verdictEnvironment (fun v _ h' => Concluded v h') .open' h (runRunnerInner rt) := by
  refine wp_opening_bind (Opening.of_silent (silent_fetchDeploymentVariables rt) hearly) ?_
  rintro ⟨vars, jobIdForVariables⟩ h hearly
  have hvars : Silent Early (Process.update fun h => { h with vars } : Runner Unit) :=
    silent_update fun _ hearly => hearly
  refine wp_opening_bind (Opening.of_silent hvars hearly) fun _ h hearly => ?_
  refine wp_opening_perform (fun _ _ => nofun) hearly fun answer h hearly => ?_
  refine wp_opening_bind (Opening.of_silent (silent_orExit answer) hearly) fun _ h hearly => ?_
  refine wp_opening_perform (fun _ _ => nofun) hearly fun answer h hearly => ?_
  refine wp_opening_bind (Opening.of_silent (silent_orExit answer) hearly) fun _ h hearly => ?_
  refine wp_opening_bind (Opening.of_silent (silent_getInitialDeployment rt) hearly) ?_
  intro initial h hearly
  have hinitial : ∀ h : DeploymentStatusHandler, Early h → ∀ deployment : DeploymentResp, Early
      { h with output := deployment.output, policyResults := deployment.policyResults } :=
    fun _ hearly _ => hearly
  refine wp_opening_bind (Opening.of_silent (silent_update fun h hearly => ?_) hearly)
    fun _ h hearly => ?_
  · cases initial with
    | none => exact hearly
    | some deployment => exact hinitial h hearly deployment
  refine wp_opening_bind (wp_getCurrentJobId rt hearly) fun jobId h hearly => ?_
  refine wp_opening_bind (wp_ensureValidJobId rt hearly jobId jobIdForVariables) fun _ h hearly => ?_
  refine wp_opening_bind (Opening.of_silent (silent_markDriftCheck rt) hearly) fun _ h hearly => ?_
  refine wp_opening_bind (Opening.of_silent (silent_started rt) hearly) fun _ h hearly => ?_
  exact Process.wp_mono (fun _ _ _ hpromising => hpromising.concluded)
    (wp_terraformFlow rt hearly.1 jobId)

/-! ## After the flow -/

/-- A failure is flushed only when nothing was decided. -/
theorem wp_finishRunnerFlow {v : Verdict} {h : DeploymentStatusHandler}
    (hconcluded : Concluded v h) (result : Except String Unit) :
    Process.WP verdictEnvironment (fun _ _ _ => True) v h (finishRunnerFlow rt result) := by
  cases result with
  | ok _ => exact trivial
  | error e =>
      have hflush : Process.WP verdictEnvironment (fun _ _ _ => True) v h
          (flushFailedStatusIfNeeded rt e) := by
        change Process.WP verdictEnvironment (fun _ _ _ => True) v h (if _ then _ else _)
        split
        · exact trivial
        · rename_i hnot
          have hv : v.successful = false := by
            by_contra htrue
            have hstatus := hconcluded.successful (Bool.not_eq_false _ ▸ htrue)
            rw [hstatus] at hnot
            exact hnot rfl
          exact Process.wp_bind (wp_reportFailed rt hv e h) (fun _ _ _ _ => trivial)
            fun _ _ _ _ => trivial
      exact Process.wp_bind hflush (fun _ _ _ _ => trivial) fun _ _ _ _ => trivial

/-- Whatever the answers, a runner never stores both verdicts. -/
theorem runnerProgram_verdict :
    Program.WP verdictEnvironment (fun _ _ => True) .open' (runnerProgram rt) := by
  have hearly : Early (initiateDeploymentStatusHandler rt.payload) :=
    ⟨⟨nofun, nofun⟩, rfl⟩
  have hguarded : Process.WP verdictEnvironment (fun v _ h' => Concluded v h') .open'
      (initiateDeploymentStatusHandler rt.payload) (crashGuarded (runRunnerInner rt)) :=
    Process.wp_catching (wp_runRunnerInner rt hearly) (fun _ _ _ hmid => hmid)
      (fun _ _ _ _ _ hmid => hmid) fun _ _ _ _ hmid => hmid
  change Process.WP verdictEnvironment (fun _ _ _ => True) .open' _ (runTerraformRunner rt)
  refine Process.wp_bind hguarded (fun v result h hconcluded => ?_) fun _ _ _ _ => trivial
  refine Process.wp_bind (wp_finishRunnerFlow rt hconcluded result) (fun v r h _ => ?_)
    fun _ _ _ _ => trivial
  -- A notification is no record.
  refine ⟨trivial, fun answer v' _ => ?_⟩
  cases answer with
  | value _ => exact trivial
  | error e => exact trivial
  | panic message => exact trivial

end TerraformRunner
end InfraWeave
