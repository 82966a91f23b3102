import InfraWeave.TerraformRunner.Conformance

/-!
# The steps of the flow keep to what they may ask for

Until the change, a step of the flow leaves the progress as it is, but for what it was made for.
-/

namespace InfraWeave
namespace TerraformRunner

open EnvCommon (DeploymentStatusHandler initiateDeploymentStatusHandler)
open Runner

variable {rt : Runtime} {p : Progress} {h : DeploymentStatusHandler}

/-- Nothing is different. -/
def Same {α : Type} (p : Progress) (h : DeploymentStatusHandler) :
    α → Progress → DeploymentStatusHandler → Prop :=
  fun _ p' h' => p = p' ∧ h = h'

variable (rt) in
/-- The step changes nothing and does not end the process, whatever its result. -/
def Quiet {α : Type} (p : Progress) (h : DeploymentStatusHandler) (x : Runner α) : Prop :=
  Process.WP (jobEnvironment rt)
    (fun p' r h' => (p = p' ∧ h = h') ∧ ∀ code, r ≠ .error (.exited code)) p h x

theorem quiet_pure {α : Type} (a : α) : Quiet rt p h (pure a) :=
  ⟨⟨rfl, rfl⟩, nofun⟩

theorem quiet_bail {α : Type} (text : String) : Quiet rt p h (bail text : Runner α) :=
  ⟨⟨rfl, rfl⟩, nofun⟩

theorem quiet_handled {α : Type} (reply : Reply α) : Quiet rt p h (handled reply) := by
  cases reply with
  | value a => exact quiet_pure _
  | error e => exact quiet_pure _
  | panic message => exact ⟨⟨rfl, rfl⟩, nofun⟩

section

variable {α β : Type} {x : Runner α}

theorem Quiet.bind {f : α → Runner β} (hx : Quiet rt p h x) (hf : ∀ a, Quiet rt p h (f a)) :
    Quiet rt p h (x >>= f) := by
  refine Process.wp_bind hx ?_ ?_
  · rintro _ a _ ⟨⟨rfl, rfl⟩, -⟩
    exact hf a
  · rintro _ stop _ ⟨hsame, hstop⟩
    exact ⟨hsame, fun code heq => hstop code (congrArg Except.error (Except.error.inj heq))⟩

theorem Quiet.conforms (hx : Quiet rt p h x) (hstands : Stands rt p h) :
    Conforms rt p h x (Same p h) := by
  refine Process.wp_mono ?_ hx
  rintro _ r _ ⟨⟨rfl, rfl⟩, hstop⟩
  cases r with
  | ok a => exact ⟨rfl, rfl⟩
  | error stop =>
      cases stop with
      | failed text => exact hstands
      | panicked message => exact hstands
      | exited code => exact absurd rfl (hstop code)

/-- What the step has done is known even when it has failed. -/
theorem Quiet.conforms_attempt (hx : Quiet rt p h x) (hstands : Stands rt p h) :
    Conforms rt p h (attempt x) (Same p h) := by
  refine Process.wp_catching hx (fun _ _ _ hsame => hsame.1) (fun _ _ _ _ _ hsame => hsame.1) ?_
  rintro _ stop _ hcaught ⟨⟨rfl, rfl⟩, hstop⟩
  cases stop with
  | failed text => cases hcaught
  | panicked message => exact hstands
  | exited code => exact absurd rfl (hstop code)

end

/-- An answer that is only logged. -/
theorem conforms_handled {α : Type} (hstands : Stands rt p h) (reply : Reply α) :
    Conforms rt p h (handled reply) (Same p h) :=
  (quiet_handled reply).conforms hstands

/-! ## Files and commands -/

theorem conforms_writeFile (hstands : Stands rt p h) {name content : String}
    (hallowed : name = "tf_plan.json" → p.printed = some content) :
    Conforms rt p h (writeFile name content)
      (Same (p.after rt.parseJson (.writeFile name content) (.value ())) h) := by
  refine Conforms.call hallowed fun answer => ?_
  cases answer with
  | value _ => exact conforms_pure ⟨rfl, rfl⟩
  | error e => exact Conforms.panic hstands _
  | panic message => exact hstands

theorem quiet_upload (key content : String) :
    Quiet rt p h (uploadFileToChangeRecords key content) := by
  refine ⟨trivial, ?_⟩
  rintro answer _ rfl
  exact (quiet_handled answer).bind fun _ => quiet_pure ()

theorem conforms_upload (hstands : Stands rt p h) (key content : String) :
    Conforms rt p h (uploadFileToChangeRecords key content) (Same p h) :=
  (quiet_upload key content).conforms hstands

theorem conforms_sendWebhooks (hstands : Stands rt p h) (message : String)
    (webhooks : List (Option String)) :
    Conforms rt p h (sendWebhooks message webhooks) (Same p h) := by
  induction webhooks with
  | nil => exact conforms_pure ⟨rfl, rfl⟩
  | cons webhook webhooks ih =>
      cases webhook with
      | none => exact ih
      | some url =>
          refine Conforms.call trivial fun answer => ?_
          cases answer with
          | value _ => exact ih
          | error e => exact ih
          | panic message => exact hstands

/-- The command neither changes nor plans anything, and tells nothing of what there is. -/
def TerraformCommand.IsLocal (command : TerraformCommand) : Prop :=
  ∀ word ∈ ["apply", "destroy", "state", "output", "plan", "show"], command.args.head? ≠ some word

theorem TerraformCommand.IsLocal.of_head {command : TerraformCommand} {word : String}
    (hhead : command.args.head? = some word)
    (hword : word ∉ ["apply", "destroy", "state", "output", "plan", "show"]) :
    command.IsLocal := by
  intro word' hword' heq
  rw [hhead] at heq
  obtain rfl := Option.some.inj heq
  exact hword hword'

theorem conforms_runTerraform {command : TerraformCommand} (hlocal : command.IsLocal)
    (hstands : Stands rt p h) : Conforms rt p h (runTerraform command) (Same p h) := by
  have happly : ¬ (command.args.head? = some "apply" ∨ command.args.head? = some "destroy") := by
    rintro (heq | heq)
    · exact hlocal "apply" (by simp) heq
    · exact hlocal "destroy" (by simp) heq
  have hplan := hlocal "plan" (by simp)
  have hstate := hlocal "state" (by simp)
  have houtput := hlocal "output" (by simp)
  have hmay : MayRun rt p command :=
    ⟨fun heq => absurd heq happly, fun heq => absurd heq hplan, fun heq => absurd heq hstate,
      fun heq => absurd heq houtput⟩
  refine Conforms.call hmay fun answer => ?_
  have hafter : p.after rt.parseJson (.terraform command) answer = p := by
    change (if _ then _ else _) = p
    rw [if_neg happly, if_neg hstate, if_neg houtput, if_neg hplan,
      if_neg fun hshow => hlocal "show" (by simp) hshow.1]
  rw [hafter]
  cases answer with
  | value stdout => exact conforms_pure ⟨rfl, rfl⟩
  | error e => exact conforms_pure ⟨rfl, rfl⟩
  | panic message => exact hstands

/-- The first argument of a command tells what is to be said about it. -/
theorem mayRun_of_head {command : TerraformCommand} {word : String}
    (hhead : command.args.head? = some word)
    (hchange : word = "apply" ∨ word = "destroy" → MayChange rt p command)
    (hplan : word = "plan" → command = planCommand rt)
    (hlist : word = "state" → p.change.isSome = true)
    (houtput : word = "output" → p.change = some true) : MayRun rt p command where
  change heq := by
    have heq' : command.args.head? = some "apply" ∨ command.args.head? = some "destroy" := heq
    rw [hhead] at heq'
    exact hchange (heq'.imp Option.some.inj Option.some.inj)
  plan heq := hplan (Option.some.inj (hhead.symm.trans heq))
  list heq := hlist (Option.some.inj (hhead.symm.trans heq))
  output heq := houtput (Option.some.inj (hhead.symm.trans heq))

/-- A new plan takes the place of the one that was shown. -/
def Progress.replanned (p : Progress) : Progress :=
  { p with printed := none, shown := none }

theorem Progress.ran_planCommand (reply : Reply String) :
    p.ran rt.parseJson (planCommand rt) reply = p.replanned := by
  have hhead : (planCommand rt).args.head? = some "plan" := rfl
  unfold Progress.ran
  rw [hhead, if_neg (by decide), if_neg (by decide), if_neg (by decide), if_pos rfl]
  rfl

theorem Stands.replanned (hstands : Stands rt p h) : Stands rt p.replanned h :=
  ⟨{ hstands.fits with }, hstands.reported⟩

theorem conforms_runTerraform_plan (hstands : Stands rt p h) :
    Conforms rt p h (runTerraform (planCommand rt)) (Same p.replanned h) := by
  have hmay : MayRun rt p (planCommand rt) :=
    mayRun_of_head rfl (fun heq => absurd heq (by decide)) (fun _ => rfl)
      (fun heq => absurd heq (by decide)) fun heq => absurd heq (by decide)
  refine Conforms.call hmay fun answer => ?_
  change Conforms rt (p.ran rt.parseJson (planCommand rt) answer) h (handled answer) _
  rw [Progress.ran_planCommand]
  exact conforms_handled hstands.replanned answer

/-- What the plan file is printed as is known. -/
def Progress.printedAs (p : Progress) (stdout : String) (usePlanfile : Bool) : Progress :=
  if usePlanfile then { p with printed := some stdout } else p

theorem Progress.ran_showCommand (usePlanfile : Bool) (reply : Reply String) :
    p.ran rt.parseJson (showCommand rt usePlanfile) reply =
      match reply with
      | .value stdout => p.printedAs stdout usePlanfile
      | _ => p := by
  have hhead : (showCommand rt usePlanfile).args.head? = some "show" := rfl
  unfold Progress.ran
  rw [hhead, if_neg (by decide), if_neg (by decide), if_neg (by decide), if_neg (by decide)]
  cases usePlanfile with
  | true =>
      rw [if_pos ⟨rfl, by simp [showCommand, terraformCommand]⟩]
      rfl
  | false =>
      rw [if_neg (by simp [showCommand, terraformCommand])]
      cases reply <;> rfl

theorem Stands.printedAs (hstands : Stands rt p h) (stdout : String) (usePlanfile : Bool) :
    Stands rt (p.printedAs stdout usePlanfile) h := by
  cases usePlanfile with
  | true => exact ⟨{ hstands.fits with }, hstands.reported⟩
  | false => exact hstands

theorem conforms_runTerraform_show (hstands : Stands rt p h) (usePlanfile : Bool) :
    Conforms rt p h (runTerraform (showCommand rt usePlanfile)) fun shown p' h' =>
      h = h' ∧ match shown with
        | .ok stdout => p' = p.printedAs stdout usePlanfile
        | .error _ => p' = p := by
  have hmay : MayRun rt p (showCommand rt usePlanfile) :=
    mayRun_of_head rfl (fun heq => absurd heq (by decide)) (fun heq => absurd heq (by decide))
      (fun heq => absurd heq (by decide)) fun heq => absurd heq (by decide)
  refine Conforms.call hmay fun answer => ?_
  change Conforms rt (p.ran rt.parseJson (showCommand rt usePlanfile) answer) h (handled answer) _
  rw [Progress.ran_showCommand]
  cases answer with
  | value stdout => exact ⟨rfl, rfl⟩
  | error e => exact ⟨rfl, rfl⟩
  | panic message => exact hstands

/-! ## Before the change -/

variable (rt) in
/-- The job has started and is in order, and has not changed anything. -/
structure Underway (p : Progress) (h : DeploymentStatusHandler) : Prop where
  fits : Fits rt p h
  status : h.status = .initiated
  identified : p.identified.isSome = true
  started : p.started = true
  checked : p.Checked rt
  change : p.change = none
  resources : p.resources = none
  sendFailed : p.sendFailed = false

theorem stands_of_initiated (hfits : Fits rt p h) (hstatus : h.status = .initiated) :
    Stands rt p h := by
  refine ⟨hfits, fun hfinal => ?_⟩
  rw [hstatus] at hfinal
  cases hfinal

theorem Underway.stands (hunder : Underway rt p h) : Stands rt p h :=
  stands_of_initiated hunder.fits hunder.status

theorem conforms_terraformInit (hunder : Underway rt p h) :
    Conforms rt p h (terraformInit rt) (Same p h) := by
  refine Conforms.bind (conforms_runTerraform (.of_head rfl (by decide)) hunder.stands) ?_
  rintro (e | stdout) _ _ ⟨rfl, rfl⟩
  · exact conforms_fail _ _ hunder.fits rfl (by decide)
  · exact conforms_pure ⟨rfl, rfl⟩

theorem conforms_terraformValidate (hunder : Underway rt p h) :
    Conforms rt p h (terraformValidate rt) (Same p h) := by
  refine Conforms.bind (conforms_runTerraform (.of_head rfl (by decide)) hunder.stands) ?_
  rintro (e | stdout) _ _ ⟨rfl, rfl⟩
  · exact conforms_failCommand _ _ hunder.fits rfl (by decide)
  · exact conforms_pure ⟨rfl, rfl⟩

theorem Underway.replanned (hunder : Underway rt p h) : Underway rt p.replanned h :=
  { hunder with fits := { hunder.fits with } }

theorem conforms_terraformPlan (hunder : Underway rt p h) :
    Conforms rt p h (terraformPlan rt) (Same p.replanned h) := by
  refine Conforms.bind (conforms_runTerraform_plan hunder.stands) ?_
  rintro (e | stdout) _ _ ⟨rfl, rfl⟩
  · exact conforms_failCommand _ _ hunder.replanned.fits rfl (by decide)
  · exact conforms_pure ⟨rfl, rfl⟩

theorem conforms_terraformGraph (hunder : Underway rt p h) (jobId : String) :
    Conforms rt p h (terraformGraph rt jobId) (Same p h) := by
  refine Conforms.bind (conforms_runTerraform (.of_head rfl (by decide)) hunder.stands) ?_
  rintro (e | graph) _ _ ⟨rfl, rfl⟩
  · exact conforms_failCommand _ _ hunder.fits rfl (by decide)
  · refine Conforms.bind (conforms_writeFile hunder.stands fun heq => absurd heq (by decide)) ?_
    rintro _ _ _ ⟨rfl, rfl⟩
    exact conforms_upload hunder.stands _ _

theorem conforms_getModule (hunder : Underway rt p h) :
    Conforms rt p h (getModule rt) (Same p h) := by
  refine Conforms.call trivial fun answer => ?_
  refine Conforms.handled hunder.stands (fun found hvalue => ?_) fun e herror => ?_
  · subst hvalue
    cases found with
    | none => exact conforms_fail _ _ hunder.fits rfl (by decide)
    | some module =>
        refine Conforms.call trivial fun answer => ?_
        refine Conforms.handled hunder.stands (fun _ hvalue => ?_) fun e herror => ?_
        · subst hvalue
          exact conforms_pure ⟨rfl, rfl⟩
        · subst herror
          exact conforms_fail _ _ hunder.fits rfl (by decide)
  · subst herror
    exact conforms_fail _ _ hunder.fits rfl (by decide)

theorem conforms_compareModuleIntegrity (hunder : Underway rt p h) (oci db : ModuleResp) :
    Conforms rt p h (compareModuleIntegrity rt oci db) (Same p h) := by
  change Conforms rt p h (if _ then _ else _) _
  split
  · exact conforms_pure ⟨rfl, rfl⟩
  · exact conforms_fail _ _ hunder.fits rfl (by decide)

theorem conforms_downloadModule (hunder : Underway rt p h) (module : ModuleResp) :
    Conforms rt p h (downloadModule rt module) (Same p h) := by
  change Conforms rt p h (if _ then _ else _) _
  split
  · cases module.ociArtifactSet with
    | none => exact Conforms.panic hunder.stands _
    | some artifacts =>
        refine Conforms.call trivial fun answer => ?_
        refine Conforms.handled hunder.stands (fun oci hvalue => ?_) fun e herror => ?_
        · subst hvalue
          change Conforms rt p h (compareModuleIntegrity rt oci module >>= _) _
          refine Conforms.bind (conforms_compareModuleIntegrity hunder oci module) ?_
          rintro same _ _ ⟨rfl, rfl⟩
          cases same with
          | true => exact conforms_pure ⟨rfl, rfl⟩
          | false => exact Conforms.bail hunder.stands _
        · subst herror
          exact Conforms.bind_of_stop (conforms_fail _ _ hunder.fits rfl (by decide))
  · refine Conforms.call trivial fun answer => ?_
    refine Conforms.propagate_last hunder.stands fun _ hvalue => ?_
    subst hvalue
    exact ⟨rfl, rfl⟩

/-! ## Show -/

theorem Stands.shownAs (hstands : Stands rt p h) (content : String) (usePlanfile : Bool) :
    Stands rt (p.shownAs content usePlanfile) h := by
  cases usePlanfile with
  | true => exact ⟨{ hstands.fits with }, hstands.reported⟩
  | false => exact hstands

theorem Progress.identified_shownAs (content : String) (usePlanfile : Bool) :
    (p.shownAs content usePlanfile).identified = p.identified := by
  cases usePlanfile with
  | true => rfl
  | false => rfl

/-- The text that was printed is stored. -/
theorem conforms_writeFile_shown (hstands : Stands rt p h) (stdout : String)
    (usePlanfile : Bool) :
    Conforms rt (p.printedAs stdout usePlanfile) h (writeFile (showOutputFile usePlanfile) stdout)
      (Same (p.shownAs stdout usePlanfile) h) := by
  cases usePlanfile with
  | true => exact conforms_writeFile (hstands.printedAs stdout true) fun _ => rfl
  | false => exact conforms_writeFile hstands fun heq => absurd heq (by decide)

theorem Fits.of_hasDrifted (hfits : Fits rt p h) (hcheck : IsDriftCheck rt)
    (hid : p.identified.isSome = true) (hasDrifted : Bool) : Fits rt p { h with hasDrifted } :=
  { hfits with unchanged := { hfits.unchanged with }, hasDrifted := fun _ => ⟨hcheck, hid⟩ }

theorem conforms_recordDrift (hstands : Stands rt p h) (hid : p.identified.isSome = true)
    (content : Json) :
    Conforms rt p h (recordDrift rt content) fun _ p' h' =>
      p = p' ∧ ∃ hasDrifted, h' = { h with hasDrifted } ∧ Stands rt p h' := by
  change Conforms rt p h (if _ then _ else _) _
  split
  · rename_i hcheck
    change Conforms rt p h (driftHasOccurred content >>= _) _
    unfold driftHasOccurred
    cases ((content.get? "resource_drift").getD (.array [])).asArray with
    | none => exact Conforms.panic hstands _
    | some drift =>
        have hstands' : Stands rt p { h with hasDrifted := !drift.isEmpty } :=
          ⟨hstands.fits.of_hasDrifted hcheck hid _, hstands.reported⟩
        change Conforms rt p { h with hasDrifted := !drift.isEmpty } (if _ then _ else _) _
        split
        · refine (conforms_sendWebhooks hstands' _ _).mono ?_
          rintro _ _ _ ⟨rfl, rfl⟩
          exact ⟨rfl, _, rfl, hstands'⟩
        · exact conforms_pure ⟨rfl, _, rfl, hstands'⟩
  · exact conforms_pure ⟨rfl, h.hasDrifted, rfl, hstands⟩

theorem conforms_recordPlanChanges (hstands : Stands rt p h) (jobId : String) (module : ModuleResp)
    (planStdOutput : String) (content : Json) :
    Conforms rt p h (recordPlanChanges rt jobId module planStdOutput content) (Same p h) := by
  refine Conforms.state (Conforms.call trivial fun answer => ?_)
  refine Conforms.bind (conforms_handled hstands answer) ?_
  rintro _ _ _ ⟨rfl, rfl⟩
  exact conforms_pure ⟨rfl, rfl⟩

/-- What is shown is stored; only a drift check learns something from it. -/
theorem conforms_terraformShow (hstands : Stands rt p h) (hid : p.identified.isSome = true)
    (jobId : String) (module : ModuleResp) (planStdOutput : String) (usePlanfile : Bool) :
    Conforms rt p h (terraformShow rt jobId module planStdOutput usePlanfile) fun _ p' h' =>
      ∃ content hasDrifted, p' = p.shownAs content usePlanfile ∧
        h' = { h with hasDrifted } ∧ Stands rt p' h' := by
  refine Conforms.bind (conforms_runTerraform_show hstands usePlanfile) ?_
  rintro (e | stdout) _ _ ⟨rfl, rfl⟩
  · exact conforms_failCommand _ _ hstands.fits rfl (by decide)
  · refine Conforms.bind (conforms_writeFile_shown hstands stdout usePlanfile) ?_
    rintro _ _ _ ⟨rfl, rfl⟩
    have hshown := hstands.shownAs stdout usePlanfile
    have hid' : (p.shownAs stdout usePlanfile).identified.isSome = true := by
      rw [Progress.identified_shownAs]
      exact hid
    cases rt.parseJson stdout with
    | error e => exact Conforms.panic hshown _
    | ok content =>
        change Conforms rt _ h (uploadFileToChangeRecords _ _ >>= _) _
        refine Conforms.bind (conforms_upload hshown _ _) ?_
        rintro _ _ _ ⟨rfl, rfl⟩
        refine Conforms.bind (conforms_recordDrift hshown hid' content) ?_
        rintro _ _ _ ⟨rfl, hasDrifted, rfl, hstands'⟩
        change Conforms rt _ _ (if _ then _ else _) _
        split
        · refine (conforms_recordPlanChanges hstands' _ _ _ _).mono ?_
          rintro _ _ _ ⟨rfl, rfl⟩
          exact ⟨stdout, hasDrifted, rfl, rfl, hstands'⟩
        · exact conforms_pure ⟨stdout, hasDrifted, rfl, rfl, hstands'⟩

/-! ## Policies -/

theorem conforms_removeFiles (hstands : Stands rt p h) (names : List String) :
    Conforms rt p h (removeFiles names) (Same p h) := by
  induction names with
  | nil => exact conforms_pure ⟨rfl, rfl⟩
  | cons name names ih =>
      refine Conforms.call trivial fun answer => ?_
      cases answer with
      | value _ => exact ih
      | error e => exact hstands
      | panic message => exact hstands

theorem Stands.evaluating (hstands : Stands rt p h) (policy : Option PolicyResp)
    (passed : List PolicyResp) : Stands rt { p with policy, passed } h :=
  ⟨{ hstands.fits with }, hstands.reported⟩

/-- The policy has passed when its result says so. -/
theorem conforms_readOpaResult (hstands : Stands rt p h) {policy : PolicyResp}
    (hpolicy : p.policy = some policy) (stdout : String) :
    Conforms rt (p.evaluated rt.parseJson stdout) h (readOpaResult rt policy stdout)
      fun result p' h' => h = h' ∧ ∃ passed, p' = { p with policy := some policy, passed } ∧
        (result.failed = false → passed = p.passed ++ [policy]) := by
  unfold readOpaResult Progress.evaluated
  cases rt.parseJson stdout with
  | error e => exact Conforms.panic hstands _
  | ok json =>
      have hsame : p = { p with policy := some policy, passed := p.passed } := by
        rw [← hpolicy]
      simp only
      cases hviolations : json.asObject.bind violationsOf with
      | none => exact Conforms.panic hstands _
      | some violations =>
          cases violations with
          | nil =>
              refine conforms_pure ⟨rfl, p.passed ++ [policy], ?_, fun _ => rfl⟩
              rw [if_pos rfl, hpolicy]
              rfl
          | cons violation violations =>
              refine conforms_pure ⟨rfl, p.passed, ?_, fun hpassed => ?_⟩
              · rw [if_neg (by simp)]
                exact hsame
              · cases hpassed

theorem conforms_evaluatePolicy (hunder : Underway rt p h) (policy : PolicyResp) :
    Conforms rt p h (evaluatePolicy rt policy) fun result p' h' =>
      h = h' ∧ ∃ passed, p' = { p with policy := some policy, passed } ∧
        (result.failed = false → passed = p.passed ++ [policy]) := by
  have hstands := hunder.stands
  have hstands' : Stands rt { p with policy := some policy } h :=
    hstands.evaluating (some policy) p.passed
  refine Conforms.call trivial fun answer => ?_
  cases answer with
  | error e => exact hstands
  | panic message => exact hstands
  | value _ =>
      refine Conforms.call trivial fun answer => ?_
      cases answer with
      | error e => exact hstands'
      | panic message => exact hstands'
      | value _ =>
          refine Conforms.call trivial fun answer => ?_
          cases answer with
          | error e => exact hstands'
          | panic message => exact hstands'
          | value regoFiles =>
              refine Conforms.call trivial fun answer => ?_
              cases answer with
              | panic message => exact hstands'
              | error e =>
                  -- The process ends, with its status stored.
                  change Conforms rt _ h (reportStatus rt .failedPolicy e >>= _) _
                  refine Conforms.bind (conforms_reportStatus e hstands'.fits
                    (.of_failure rfl (by decide))) ?_
                  rintro _ _ _ ⟨rfl, rfl⟩
                  exact .inr (.inr ⟨_, rfl, rfl, nofun⟩)
              | value stdout =>
                  change Conforms rt (Progress.evaluated rt.parseJson _ stdout) h
                    (readOpaResult rt policy stdout >>= _) _
                  refine Conforms.bind (conforms_readOpaResult hstands' rfl stdout) ?_
                  rintro result _ _ ⟨rfl, passed, rfl, hpassed⟩
                  refine Conforms.bind
                    (conforms_removeFiles (hstands.evaluating (some policy) passed) regoFiles) ?_
                  rintro _ _ _ ⟨rfl, rfl⟩
                  exact conforms_pure ⟨rfl, passed, rfl, hpassed⟩

theorem Underway.evaluating (hunder : Underway rt p h) (policy : Option PolicyResp)
    (passed : List PolicyResp) : Underway rt { p with policy, passed } h :=
  { hunder with fits := { hunder.fits with } }

theorem conforms_evaluatePolicies (hunder : Underway rt p h) (policies : List PolicyResp) :
    Conforms rt p h (evaluatePolicies rt policies) fun results p' h' =>
      h = h' ∧ ∃ policy passed, p' = { p with policy, passed } ∧
        (results.any PolicyResult.failed = false → passed = p.passed ++ policies) := by
  induction policies generalizing p with
  | nil => exact conforms_pure ⟨rfl, p.policy, p.passed, rfl, fun _ => (List.append_nil _).symm⟩
  | cons policy policies ih =>
      refine Conforms.bind (conforms_evaluatePolicy hunder policy) ?_
      rintro result _ _ ⟨rfl, passed, rfl, hpassed⟩
      refine Conforms.bind (ih (hunder.evaluating (some policy) passed)) ?_
      rintro results _ _ ⟨rfl, policy', passed', rfl, hrest⟩
      refine conforms_pure ⟨rfl, policy', passed', rfl, fun hnone => ?_⟩
      rw [List.any_cons, Bool.or_eq_false_iff] at hnone
      rw [hrest hnone.2, hpassed hnone.1, List.append_assoc]
      rfl

/-- A job that goes on has passed every policy. -/
theorem conforms_runOpaPolicyChecks (hunder : Underway rt p h) (hshown : p.shown.isSome = true) :
    Conforms rt p h (runOpaPolicyChecks rt) fun _ p' h' => Underway rt p' h' ∧ p'.Cleared := by
  have hstands := hunder.stands
  refine Conforms.call trivial fun answer => ?_
  refine Conforms.bind (conforms_handled hstands answer) ?_
  rintro _ _ _ ⟨rfl, rfl⟩
  refine Conforms.call trivial fun answer => ?_
  cases answer with
  | error e => exact hstands
  | panic message => exact hstands
  | value policies =>
      have hunder' : Underway rt { p with policies := some policies, passed := [] } h :=
        { hunder with fits := { hunder.fits with } }
      change Conforms rt _ h (evaluatePolicies rt policies >>= _) _
      refine Conforms.bind (conforms_evaluatePolicies hunder' policies) ?_
      rintro results _ _ ⟨rfl, policy, passed, rfl, hpassed⟩
      have hfits := (hunder'.evaluating policy passed).fits
      have hfits' : Fits rt { p with policies := some policies, policy, passed }
          { h with policyResults := results.map PolicyResult.toJson } :=
        { hfits with unchanged := { hfits.unchanged with } }
      change Conforms rt _ { h with policyResults := results.map PolicyResult.toJson }
        (if _ then _ else _) _
      split
      · exact conforms_fail _ _ hfits' rfl (by decide)
      · rename_i hfailed
        refine conforms_pure ⟨{ hunder with fits := hfits' }, hshown, ?_⟩
        rw [hpassed (Bool.not_eq_true _ ▸ hfailed)]
        rfl

end TerraformRunner
end InfraWeave
