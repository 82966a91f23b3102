import InfraWeave.TerraformRunner.FlowConformance

/-!
# Runners keep to what they may ask for, from start to end

The change itself, what comes before the flow and what comes after it.
-/

namespace InfraWeave
namespace TerraformRunner

open EnvCommon (DeploymentStatusHandler initiateDeploymentStatusHandler)
open Runner

variable {rt : Runtime} {p : Progress} {h : DeploymentStatusHandler}

/-! ## The change -/

theorem Underway.shown (hunder : Underway rt p h) (content : String) {hasDrifted : Bool}
    (hfits : Fits rt (p.shownAs content true) { h with hasDrifted }) :
    Underway rt (p.shownAs content true) { h with hasDrifted } :=
  { hunder with fits := hfits }

theorem conforms_prepareChange (hunder : Underway rt p h) (jobId : String) :
    Conforms rt p h (prepareChange rt jobId) fun _ p' h' => Underway rt p' h' ∧ p'.Cleared := by
  refine Conforms.bind (conforms_getModule hunder) ?_
  rintro module _ _ ⟨rfl, rfl⟩
  refine Conforms.call trivial fun answer => ?_
  refine Conforms.bind (conforms_handled hunder.stands answer) ?_
  rintro _ _ _ ⟨rfl, rfl⟩
  refine Conforms.bind (conforms_downloadModule hunder module) ?_
  rintro _ _ _ ⟨rfl, rfl⟩
  refine Conforms.bind (conforms_terraformInit hunder) ?_
  rintro _ _ _ ⟨rfl, rfl⟩
  refine Conforms.bind (conforms_terraformValidate hunder) ?_
  rintro _ _ _ ⟨rfl, rfl⟩
  refine Conforms.bind (conforms_terraformPlan hunder) ?_
  rintro planStdOutput _ _ ⟨rfl, rfl⟩
  refine Conforms.bind
    (conforms_terraformShow hunder.replanned.stands hunder.identified jobId module planStdOutput
      true) ?_
  rintro _ _ _ ⟨content, hasDrifted, rfl, rfl, hstands⟩
  have hunder' := hunder.replanned.shown content hstands.fits
  refine Conforms.bind (conforms_terraformGraph hunder' jobId) ?_
  rintro _ _ _ ⟨rfl, rfl⟩
  refine Conforms.bind (conforms_runOpaPolicyChecks hunder' rfl) ?_
  intro _ p' h' hcleared
  exact conforms_pure hcleared

variable (rt) in
/-- The change was made, with this result. -/
structure Changed (succeeded : Bool) (p : Progress) (h : DeploymentStatusHandler) : Prop where
  stands : Stands rt p h
  identified : p.identified.isSome = true
  started : p.started = true
  checked : p.Checked rt
  change : p.change = some succeeded
  /-- A change that has failed has stored that. -/
  reported : succeeded = false → h.status.isFinal = true
  status : succeeded = true → h.status = .initiated

variable (rt) in
/-- How the change ends: with its result, or the step has stopped. -/
def ChangeEnds (p : Progress) (r : Except Stop String) (h : DeploymentStatusHandler) : Prop :=
  match r with
  | .ok _ => Changed rt true p h ∧ p.resources = none
  | .error (.failed _) => Changed rt false p h ∧ p.resources = none
  | .error stop => Stopped rt p h stop

theorem Progress.ran_applyDestroyCommand
    (hchange : rt.payload.command = "apply" ∨ rt.payload.command = "destroy")
    (reply : Reply String) : p.ran rt.parseJson (applyDestroyCommand rt) reply =
      match reply with
      | .value _ => { p with change := some true }
      | _ => { p with change := some false } := by
  have hhead : (applyDestroyCommand rt).args.head? = some "apply" ∨
      (applyDestroyCommand rt).args.head? = some "destroy" := by
    rcases hchange with heq | heq
    · exact .inl (congrArg some heq)
    · exact .inr (congrArg some heq)
  change (if _ then _ else _) = _
  refine (if_pos hhead).trans ?_
  cases reply with
  | value stdout => rfl
  | error e => rfl
  | panic message => rfl

theorem Fits.changed (hfits : Fits rt p h) (hnone : p.change = none) (succeeded : Bool) :
    Fits rt { p with change := some succeeded } h :=
  { hfits with
    deleted := fun hdeleted => by
      obtain ⟨-, hgone | ⟨hgone, -⟩⟩ := hfits.deleted hdeleted
      · rw [hnone] at hgone
        cases hgone
      · rw [hnone] at hgone
        cases hgone }

theorem wp_failedChange (hunder : Underway rt p h) (errorText message : String) :
    Process.WP (jobEnvironment rt) (ChangeEnds rt) { p with change := some false } h
      (failCommand rt .error errorText message) := by
  have hfits := hunder.fits.changed hunder.change false
  have hfits' := hfits.of_status .error errorText
  have hchanged : ∀ errorText' {last started unsaved sendFailed}, started = true →
      (sendFailed = true ∨ last = some .error) →
      Changed rt false { p with change := some false, last, started, unsaved, sendFailed }
        { h with status := .error, errorText := errorText' } ∧ p.resources = none := by
    intro errorText' last started unsaved sendFailed hstarted hreported
    have hfits'' := hfits.of_status .error errorText'
    have hsome : ∀ (status : Option DeploymentStatus), status = some .error →
        ∃ s, status = some s ∧ s.isFinal = true ∧ (unsaved = true → some false = some false) := by
      rintro _ rfl
      exact ⟨_, rfl, rfl, fun _ => rfl⟩
    exact ⟨⟨⟨{ hfits'' with }, fun _ => hreported.imp id (hsome last)⟩, hunder.identified, hstarted,
      hunder.checked, rfl, fun _ => rfl, nofun⟩, hunder.resources⟩
  have hmay : MayReport rt { p with change := some false } .error :=
    .of_failure rfl (by decide)
  refine Process.wp_bind (wp_sendDeployment hfits' hmay) ?_ ?_
  · rintro _ _ _ ⟨rfl, rfl⟩
    exact hchanged "" (Bool.or_eq_true_iff.2 (.inl hunder.started)) (.inr rfl)
  · intro p' stop h' hsent
    cases stop with
    | failed text =>
        obtain ⟨rfl, -, rfl | rfl⟩ := hsent
        · exact hchanged errorText hunder.started (.inl rfl)
        · exact hchanged errorText (Bool.or_eq_true_iff.2 (.inl hunder.started)) (.inl rfl)
    | panicked message => exact hsent.stands hfits'
    | exited code => exact hsent.stands hfits'

/-- The command that changes the infrastructure is run on a plan that has passed every policy. -/
theorem conforms_terraformApplyDestroy (hunder : Underway rt p h) (hcleared : p.Cleared)
    (hchange : rt.payload.command = "apply" ∨ rt.payload.command = "destroy") :
    Conforms rt p h (attempt (terraformApplyDestroy rt)) fun result p' h' =>
      Changed rt result.isOk p' h' ∧ p'.resources = none := by
  have hunder' : Underway rt p { h with command := rt.payload.command } :=
    { hunder with
      fits := { hunder.fits with unchanged := { hunder.fits.unchanged with command := rfl } } }
  have hmay : MayChange rt p (applyDestroyCommand rt) :=
    ⟨rfl, hchange, hunder.started, hunder.checked, hcleared, hunder.change, hunder.sendFailed⟩
  have hends : Process.WP (jobEnvironment rt) (ChangeEnds rt) p h (terraformApplyDestroy rt) := by
    have hnot : ∀ word, word = "plan" ∨ word = "state" ∨ word = "output" →
        rt.payload.command ≠ word := by
      intro word hword heq
      rw [heq] at hchange
      rcases hword with rfl | rfl | rfl
      · exact absurd hchange (by decide)
      · exact absurd hchange (by decide)
      · exact absurd hchange (by decide)
    refine ⟨mayRun_of_head rfl (fun _ => hmay) (fun heq => absurd heq (hnot _ (.inl rfl)))
      (fun heq => absurd heq (hnot _ (.inr (.inl rfl))))
      fun heq => absurd heq (hnot _ (.inr (.inr rfl))), ?_⟩
    rintro answer _ rfl
    have hran := Progress.ran_applyDestroyCommand (p := p) hchange answer
    change Process.WP _ _ (p.ran rt.parseJson (applyDestroyCommand rt) answer) _
      (handled answer >>= _)
    rw [hran]
    cases answer with
    | panic message =>
        exact stands_of_initiated (hunder'.fits.changed hunder.change false) hunder'.status
    | error e => exact wp_failedChange hunder' e _
    | value stdout =>
        have hfits := hunder'.fits.changed hunder.change true
        change Process.WP _ _ { p with change := some true } _ (if _ then _ else _)
        split
        · rename_i hdestroy
          have hfits' : Fits rt { p with change := some true }
              { h with command := rt.payload.command, deleted := true } :=
            { hfits with
              unchanged := { hfits.unchanged with }
              deleted := fun _ => ⟨hdestroy, .inl rfl⟩ }
          exact ⟨⟨stands_of_initiated hfits' hunder.status, hunder.identified, hunder.started,
            hunder.checked, rfl, nofun, fun _ => hunder.status⟩, hunder.resources⟩
        · exact ⟨⟨stands_of_initiated hfits hunder.status, hunder.identified, hunder.started,
            hunder.checked, rfl, nofun, fun _ => hunder.status⟩, hunder.resources⟩
  refine Process.wp_catching hends ?_ ?_ ?_
  · intro p' stdout h' hchanged
    exact hchanged
  · intro p' stop caught h' hcaught hchanged
    cases stop with
    | failed text => exact hchanged
    | panicked message => cases hcaught
    | exited code => cases hcaught
  · intro p' stop h' hcaught hchanged
    cases stop with
    | failed text => cases hcaught
    | panicked message => exact hchanged
    | exited code => exact hchanged

/-! ## After the change -/

theorem Changed.shown {succeeded hasDrifted : Bool} (hchanged : Changed rt succeeded p h)
    (hstands : Stands rt p { h with hasDrifted }) :
    Changed rt succeeded p { h with hasDrifted } :=
  { hchanged with stands := hstands }

/-- Resources that are captured do not undo what is gone. -/
theorem Changed.captured {succeeded : Bool} (hchanged : Changed rt succeeded p h)
    (hnone : p.resources = none) (resources : Option (List String)) (unsaved : Bool) :
    Changed rt succeeded { p with resources, unsaved } { h with tfResources := resources } := by
  have hfits := hchanged.stands.fits
  have hdeleted : h.deleted = true → Progress.Gone rt { p with resources, unsaved } := by
    intro hdeleted
    obtain ⟨hdestroy, hgone | ⟨-, hgone⟩⟩ := hfits.deleted hdeleted
    · exact ⟨hdestroy, .inl hgone⟩
    · rw [hnone] at hgone
      cases hgone
  have hreported : h.status.isFinal = true →
      Progress.Reported { p with resources, unsaved } := by
    intro hfinal
    cases succeeded with
    | true =>
        rw [hchanged.status rfl] at hfinal
        cases hfinal
    | false =>
        refine (hchanged.stands.reported hfinal).imp id ?_
        rintro ⟨status, hlast, hstatus, -⟩
        exact ⟨status, hlast, hstatus, fun _ => hchanged.change⟩
  exact
    { hchanged with
      stands :=
        ⟨{ hfits with
            unchanged := { hfits.unchanged with }, tfResources := rfl, deleted := hdeleted },
          hreported⟩ }

theorem Progress.ran_stateListCommand (hnone : p.resources = none) (reply : Reply String) :
    p.ran rt.parseJson stateListCommand reply =
      match reply with
      | .value stdout => { p with resources := some (resourcesOf stdout), unsaved := true }
      | _ => { p with resources := none } := by
  have hhead : ¬ (stateListCommand.args.head? = some "apply" ∨
      stateListCommand.args.head? = some "destroy") := by decide
  have hstate : stateListCommand.args.head? = some "state" := rfl
  change (if _ then _ else if _ then _ else _) = _
  rw [if_neg hhead, if_pos hstate]
  cases reply with
  | value stdout => rfl
  | error e => simp only [← hnone]
  | panic message => simp only [← hnone]

theorem conforms_terraformStateList (hstands : Stands rt p h) (hnone : p.resources = none)
    (hchange : p.change.isSome = true) :
    Conforms rt p h terraformStateList fun resources p' h' =>
      h = h' ∧ ∃ unsaved, p' = { p with resources, unsaved } := by
  have hsame : p = { p with resources := none } := by rw [← hnone]
  have hmay : MayRun rt p stateListCommand :=
    mayRun_of_head rfl (fun heq => absurd heq (by decide)) (fun heq => absurd heq (by decide))
      (fun _ => hchange) fun heq => absurd heq (by decide)
  refine Conforms.call hmay fun answer => ?_
  change Conforms rt (p.ran rt.parseJson stateListCommand answer) h (handled answer >>= _) _
  rw [Progress.ran_stateListCommand hnone]
  cases answer with
  | value stdout => exact conforms_pure ⟨rfl, true, rfl⟩
  | error e => exact conforms_pure ⟨rfl, p.unsaved, rfl⟩
  | panic message =>
      change Stands rt { p with resources := none } h
      rw [← hsame]
      exact hstands

theorem quiet_approvedChanges : Quiet rt p h (approvedChanges rt) := by
  refine ⟨trivial, ?_⟩
  rintro answer _ rfl
  refine (quiet_handled answer).bind fun read => ?_
  cases read with
  | error e => exact quiet_pure _
  | ok plan =>
      dsimp only
      cases rt.parseJson plan with
      | error e => exact quiet_pure _
      | ok content => exact quiet_pure _

theorem quiet_recordApplyDestroyChanges (jobId : String) (module : ModuleResp)
    (applyOutput : String) :
    Quiet rt p h (recordApplyDestroyChanges rt jobId module applyOutput) := by
  refine quiet_approvedChanges.bind fun changes => ?_
  refine (quiet_upload _ _).bind fun _ => ⟨trivial, ?_⟩
  rintro answer _ rfl
  refine (quiet_handled answer).bind fun inserted => ?_
  cases inserted with
  | ok _ => exact quiet_pure _
  | error e => exact quiet_bail _

variable (rt) in
/-- The change, if there was one to make, was made: the job may end. -/
structure Accomplished (p : Progress) (h : DeploymentStatusHandler) : Prop where
  fits : Fits rt p h
  mayReport : MayReport rt p .successful

theorem conforms_settleChange {applyResult : Except String String}
    {resources : Option (List String)} (hchanged : Changed rt applyResult.isOk p h)
    (hresources : p.resources = resources) :
    Conforms rt p h (settleChange rt applyResult resources) fun _ p' h' =>
      p = p' ∧ Accomplished rt p' h' ∧
        (rt.payload.command = "apply" → h = h' ∧ Changed rt true p h) := by
  have hmay : (rt.payload.command = "apply" → p.change = some true) →
      (rt.payload.command = "destroy" → p.Gone rt) → MayReport rt p .successful :=
    fun happly hdestroy =>
      ⟨.inl rfl, fun _ => ⟨hchanged.started, hchanged.checked, happly, hdestroy⟩⟩
  cases applyResult with
  | ok stdout =>
      refine conforms_pure ⟨rfl, ⟨hchanged.stands.fits, hmay (fun _ => hchanged.change) ?_⟩,
        fun _ => ⟨rfl, hchanged⟩⟩
      exact fun hdestroy => ⟨hdestroy, .inl hchanged.change⟩
  | error e =>
      change Conforms rt p h (if _ then _ else _) _
      split
      · -- A destroy that has failed, but has left nothing.
        rename_i hgone
        have happly : rt.payload.command ≠ "apply" := by
          rw [hgone.1]
          decide
        have hgone' : p.Gone rt := ⟨hgone.1, .inr ⟨hchanged.change, hresources.trans hgone.2⟩⟩
        have hfits := hchanged.stands.fits
        have hfits' : Fits rt p { h with deleted := true } :=
          { hfits with unchanged := { hfits.unchanged with }, deleted := fun _ => hgone' }
        exact ⟨rfl, ⟨hfits', hmay (fun heq => absurd heq happly) fun _ => hgone'⟩,
          fun heq => absurd heq happly⟩
      · exact Conforms.bail hchanged.stands _

theorem Progress.ran_outputCommand (reply : Reply String) :
    p.ran rt.parseJson (outputCommand rt) reply =
      match reply with
      | .value stdout =>
          match rt.parseJson stdout with
          | .ok json => { p with output := sanitizeTerraformOutput json, unsaved := true }
          | .error _ => p
      | _ => p := by
  have hhead : (outputCommand rt).args.head? = some "output" := rfl
  have hchange : ¬ ((outputCommand rt).args.head? = some "apply" ∨
      (outputCommand rt).args.head? = some "destroy") := by
    rw [hhead]
    decide
  have hstate : (outputCommand rt).args.head? ≠ some "state" := by
    rw [hhead]
    decide
  change (if _ then _ else if _ then _ else if _ then _ else _) = _
  refine (if_neg hchange).trans ((if_neg hstate).trans ((if_pos hhead).trans ?_))
  cases reply with
  | value stdout => rfl
  | error e => rfl
  | panic message => rfl

theorem conforms_terraformOutput (hchanged : Changed rt true p h)
    (hmay : MayReport rt p .successful) :
    Conforms rt p h (terraformOutput rt) fun _ p' h' => Accomplished rt p' h' := by
  have hrun : MayRun rt p (outputCommand rt) :=
    mayRun_of_head rfl (fun heq => absurd heq (by decide)) (fun heq => absurd heq (by decide))
      (fun heq => absurd heq (by decide)) fun _ => hchanged.change
  refine Conforms.call hrun fun answer => ?_
  change Conforms rt (p.ran rt.parseJson (outputCommand rt) answer) h (handled answer >>= _) _
  rw [Progress.ran_outputCommand]
  cases answer with
  | panic message => exact hchanged.stands
  | error e => exact conforms_fail _ _ hchanged.stands.fits rfl (by decide)
  | value stdout =>
      change Conforms rt
        (match rt.parseJson stdout with
          | .ok json => { p with output := sanitizeTerraformOutput json, unsaved := true }
          | .error _ => p) h
        (match rt.parseJson stdout with | .ok _ => _ | .error _ => _) _
      cases rt.parseJson stdout with
      | error e => exact Conforms.bail hchanged.stands _
      | ok json =>
          have hfits := hchanged.stands.fits
          have hfits' : Fits rt { p with output := sanitizeTerraformOutput json, unsaved := true }
              { h with status := .successful, output := sanitizeTerraformOutput json } :=
            { hfits with unchanged := { hfits.unchanged with }, output := rfl }
          have hmay' : MayReport rt
              { p with output := sanitizeTerraformOutput json, unsaved := true } .successful :=
            { hmay with }
          refine (conforms_sendDeployment hfits' hmay').mono ?_
          rintro _ _ _ ⟨rfl, rfl⟩
          obtain ⟨hstarted, hrest⟩ := hmay.ofSuccessful rfl
          exact ⟨hfits'.sent _,
            ⟨.inl rfl, fun _ => ⟨Bool.or_eq_true_iff.2 (.inl hstarted), hrest⟩⟩⟩

/-- A job is done with its change only when it has succeeded, or has left nothing. -/
theorem conforms_performChange (hunder : Underway rt p h) (hcleared : p.Cleared)
    (hchange : rt.payload.command = "apply" ∨ rt.payload.command = "destroy") (jobId : String)
    (module : ModuleResp) (planStdOutput : String) :
    Conforms rt p h (performChange rt jobId module planStdOutput) fun _ p' h' =>
      Accomplished rt p' h' := by
  refine Conforms.bind (conforms_terraformApplyDestroy hunder hcleared hchange) ?_
  rintro applyResult p h ⟨hchanged, hnone⟩
  refine Conforms.bind (conforms_terraformShow hchanged.stands hchanged.identified jobId module
    planStdOutput false) ?_
  rintro _ p' _ ⟨content, hasDrifted, hp, rfl, hstands⟩
  have hsame : p' = p := hp
  rw [hsame] at hstands ⊢
  have hchanged' := hchanged.shown hstands
  have hmade : p.change.isSome = true := by
    rw [hchanged.change]
    rfl
  refine Conforms.bind (conforms_terraformStateList hchanged'.stands hnone hmade) ?_
  rintro resources _ _ ⟨rfl, unsaved, rfl⟩
  have hcaptured := hchanged'.captured hnone resources unsaved
  change Conforms rt { p with resources, unsaved } { h with hasDrifted, tfResources := resources }
    (attempt (recordApplyDestroyChanges rt jobId module _) >>= _) _
  refine Conforms.bind
    ((quiet_recordApplyDestroyChanges jobId module _).conforms_attempt hcaptured.stands) ?_
  rintro _ _ _ ⟨rfl, rfl⟩
  refine Conforms.bind (conforms_settleChange hcaptured rfl) ?_
  rintro _ _ h' ⟨rfl, hdone, happly⟩
  change Conforms rt _ _ (if _ then _ else _) _
  split
  · rename_i hcommand
    obtain ⟨rfl, hchanged''⟩ := happly hcommand
    exact conforms_terraformOutput hchanged'' hdone.mayReport
  · exact conforms_pure hdone

/-! ## Relatives -/

variable (rt) in
/-- It is stored that the job has started. -/
structure Begun (p : Progress) (h : DeploymentStatusHandler) : Prop where
  fits : Fits rt p h
  status : h.status = .initiated
  identified : p.identified.isSome = true
  source : p.source.isSome = true
  initial : p.initial.isSome = true
  started : p.started = true
  change : p.change = none
  resources : p.resources = none
  sendFailed : p.sendFailed = false

theorem Begun.underway (hbegun : Begun rt p h) (hchecked : p.Checked rt) : Underway rt p h :=
  { hbegun with checked := hchecked }

theorem Begun.stands (hbegun : Begun rt p h) : Stands rt p h :=
  stands_of_initiated hbegun.fits hbegun.status

theorem Begun.ready (hbegun : Begun rt p h) (ready : List (String × String)) :
    Begun rt { p with ready } h :=
  { hbegun with fits := { hbegun.fits with } }

theorem Begun.failed (hbegun : Begun rt p h) : p.failed = p := by
  have hid : p.identified.isNone = false := by
    rw [← Option.not_isSome, hbegun.identified, Bool.not_true]
  unfold Progress.failed
  rw [hid]
  rfl

theorem Begun.read (hbegun : Begun rt p h) (deploymentId environment : String)
    (found : Option DeploymentResp) : p.read deploymentId environment found =
      if found.map DeploymentResp.status = some .successful then
        { p with ready := (deploymentId, environment) :: p.ready }
      else p := by
  have hsource : p.source.isNone = false := by
    rw [← Option.not_isSome, hbegun.source, Bool.not_true]
  have hinitial : p.initial.isNone = false := by
    rw [← Option.not_isSome, hbegun.initial, Bool.not_true]
  unfold Progress.read
  rw [hsource, hinitial]
  simp only [Bool.false_eq_true, if_false, hbegun.started, true_and]

theorem conforms_checkDependencyStatus (hbegun : Begun rt p h) (dependency : Dependency) :
    Conforms rt p h (checkDependencyStatus dependency) fun status p' h' =>
      h = h' ∧ ∃ ready, p' = { p with ready } ∧ p.ready ⊆ ready ∧
        (status = .ok () → (dependency.deploymentId, dependency.environment) ∈ ready) := by
  have hfailed : Stands rt p.failed h := by
    rw [hbegun.failed]
    exact hbegun.stands
  refine Conforms.call ⟨rfl, .inl hbegun.initial⟩ fun answer => ?_
  cases answer with
  | error e => exact hfailed
  | panic message => exact hfailed
  | value found =>
      change Conforms rt (p.read _ _ found) h _ _
      rw [hbegun.read]
      cases found with
      | none => exact hbegun.stands
      | some deployment =>
          by_cases hstatus : deployment.status = .successful
          · have hfound : (some deployment).map DeploymentResp.status = some .successful :=
              congrArg some hstatus
            change Conforms rt _ h (if _ then _ else _) _
            rw [if_pos hfound, if_pos hstatus]
            exact conforms_pure
              ⟨rfl, _, rfl, List.subset_cons_self _ _, fun _ => List.mem_cons_self⟩
          · have hfound : ¬ (some deployment).map DeploymentResp.status = some .successful :=
              fun heq => hstatus (Option.some.inj heq)
            change Conforms rt _ h (if _ then _ else _) _
            rw [if_neg hfound, if_neg hstatus]
            exact conforms_pure ⟨rfl, p.ready, rfl, List.Subset.refl _, nofun⟩

theorem conforms_dependenciesNotFinished (hbegun : Begun rt p h) (dependencies : List Dependency) :
    Conforms rt p h (dependenciesNotFinished dependencies) fun rest p' h' =>
      h = h' ∧ ∃ ready, p' = { p with ready } ∧ p.ready ⊆ ready ∧
        (rest = [] → ∀ dependency ∈ dependencies,
          (dependency.deploymentId, dependency.environment) ∈ ready) := by
  induction dependencies generalizing p with
  | nil => exact conforms_pure ⟨rfl, p.ready, rfl, List.Subset.refl _, fun _ => nofun⟩
  | cons dependency dependencies ih =>
      refine Conforms.bind (conforms_checkDependencyStatus hbegun dependency) ?_
      rintro status _ _ ⟨rfl, ready, rfl, hsub, hready⟩
      refine Conforms.bind (ih (hbegun.ready ready)) ?_
      rintro rest _ _ ⟨rfl, ready', rfl, hsub', hrest⟩
      cases status with
      | error e => exact conforms_pure ⟨rfl, ready', rfl, List.Subset.trans hsub hsub', nofun⟩
      | ok _ =>
          refine conforms_pure ⟨rfl, ready', rfl, List.Subset.trans hsub hsub', fun hnil d hd => ?_⟩
          rcases List.mem_cons.1 hd with rfl | hd
          · exact hsub' (hready rfl)
          · exact hrest hnil d hd

/-- Every dependency is found to be successful, after the start of the job. -/
theorem conforms_checkDependencies (hbegun : Begun rt p h)
    (happly : rt.payload.command = "apply") :
    Conforms rt p h (checkDependencies rt) fun _ p' h' => Underway rt p' h' := by
  refine Conforms.bind (conforms_dependenciesNotFinished hbegun rt.payload.dependencies) ?_
  rintro notFinished _ _ ⟨rfl, ready, rfl, -, hready⟩
  have hbegun' := hbegun.ready ready
  change Conforms rt _ h (if _ then _ else _) _
  split
  · rename_i hempty
    refine conforms_pure (hbegun'.underway ⟨fun _ => hready (List.isEmpty_iff.1 hempty), ?_⟩)
    intro hdestroy
    rw [happly] at hdestroy
    exact absurd hdestroy (by decide)
  · have hfits := hbegun'.fits.of_status .waitingOnDependency h.errorText
    have hmay : MayReport rt { p with ready } .waitingOnDependency := .of_failure rfl (by decide)
    change Conforms rt _ { h with status := .waitingOnDependency } (sendDeployment rt >>= _) _
    refine Conforms.bind (conforms_sendDeployment hfits hmay) ?_
    rintro _ _ _ ⟨rfl, rfl⟩
    exact Conforms.bail ((hfits.sent .waitingOnDependency).stands_of_sent rfl) _

theorem conforms_checkDependants (hbegun : Begun rt p h)
    (hdestroy : rt.payload.command = "destroy") :
    Conforms rt p h (checkDependants rt) fun _ p' h' => Underway rt p' h' := by
  refine Conforms.call trivial fun answer => ?_
  cases answer with
  | panic message => exact hbegun.stands
  | error e => exact conforms_fail _ _ hbegun.fits rfl (by decide)
  | value found =>
      obtain ⟨deployment, dependants⟩ := found
      cases dependants with
      | cons dependant dependants => exact conforms_fail _ _ hbegun.fits rfl (by decide)
      | nil =>
          have hbegun' : Begun rt { p with unused := p.started } h :=
            { hbegun with fits := { hbegun.fits with } }
          refine conforms_pure (hbegun'.underway ⟨fun happly => ?_, fun _ => hbegun.started⟩)
          rw [hdestroy] at happly
          exact absurd happly (by decide)

theorem conforms_checkRelatives (hbegun : Begun rt p h) :
    Conforms rt p h (checkRelatives rt) fun _ p' h' => Underway rt p' h' := by
  change Conforms rt p h (if _ then _ else if _ then _ else _) _
  split
  · rename_i happly
    exact conforms_checkDependencies hbegun happly
  · rename_i happly
    split
    · rename_i hdestroy
      exact conforms_checkDependants hbegun hdestroy
    · rename_i hdestroy
      exact conforms_pure (hbegun.underway ⟨fun heq => absurd heq happly,
        fun heq => absurd heq hdestroy⟩)

/-! ## The flow -/

theorem conforms_accomplished (hdone : Accomplished rt p h) :
    Conforms rt p h (setStatus .successful >>= fun _ => sendDeployment rt) fun _ p' h' =>
      Stands rt p' h' ∧ h'.status.isFinal = true := by
  have hfits := hdone.fits.of_status .successful h.errorText
  refine (conforms_sendDeployment hfits hdone.mayReport).mono ?_
  rintro _ _ _ ⟨rfl, rfl⟩
  exact ⟨(hfits.sent .successful).stands_of_sent rfl, rfl⟩

theorem conforms_terraformFlow (hbegun : Begun rt p h) (jobId : String) :
    Conforms rt p h (terraformFlow rt jobId) fun _ p' h' =>
      Stands rt p' h' ∧ h'.status.isFinal = true := by
  refine Conforms.bind (conforms_checkRelatives hbegun) ?_
  intro _ p h hunder
  refine Conforms.bind (conforms_prepareChange hunder jobId) ?_
  rintro ⟨module, planStdOutput⟩ p h ⟨hunder, hcleared⟩
  change Conforms rt p h (if _ then _ else _) _
  split
  · rename_i hchange
    refine Conforms.bind
      (conforms_performChange hunder hcleared hchange jobId module planStdOutput) ?_
    exact fun _ p h hdone => conforms_accomplished hdone
  · rename_i hchange
    have hmay : MayReport rt p .successful :=
      ⟨.inl rfl, fun _ => ⟨hunder.started, hunder.checked, fun heq => absurd (.inl heq) hchange,
        fun heq => absurd (.inr heq) hchange⟩⟩
    exact conforms_accomplished ⟨hunder.fits, hmay⟩

/-! ## Before the flow -/

theorem fits_start : Fits rt .start (initiateDeploymentStatusHandler rt.payload) where
  unchanged := ⟨rfl, rfl, rfl, rfl, rfl, rfl, rfl, rfl, rfl, rfl, rfl, rfl, rfl, rfl, rfl⟩
  jobId := rfl
  vars := rfl
  output := rfl
  tfResources := rfl
  hasDrifted := nofun
  isDriftCheck := nofun
  deleted := nofun
  source := nofun
  known := .inr (.inr rfl)

/-- What is known once the record of the job is found. -/
def Progress.found (planJob : Option String) (source : DeploymentResp) : Progress :=
  { Progress.start with planJob, source := some source }

theorem stands_start (planJob : Option String) (halted : Bool) :
    Stands rt { Progress.start with planJob, halted }
      (initiateDeploymentStatusHandler rt.payload) :=
  ⟨{ (fits_start : Fits rt .start _) with known := .inr (.inr rfl) }, nofun⟩

theorem conforms_getJobDeployment :
    Conforms rt .start (initiateDeploymentStatusHandler rt.payload) (getJobDeployment rt)
      fun result p' h' => h' = initiateDeploymentStatusHandler rt.payload ∧
        ∃ planJob, match result with
          | .ok source => p' = { Progress.start with planJob, source }
          | .error _ => p' = { Progress.start with planJob, halted := true } := by
  change Conforms rt _ _ (if _ then _ else _) _
  split
  · rename_i hplan
    refine Conforms.call rfl fun answer => ?_
    cases answer with
    | error e => exact stands_start none true
    | panic message => exact stands_start none true
    | value jobId =>
        refine Conforms.call ⟨rfl, rfl, rfl, hplan, rfl, rfl⟩ fun answer => ?_
        cases answer with
        | value found => exact conforms_pure ⟨rfl, some jobId, rfl⟩
        | error e => exact conforms_pure ⟨rfl, some jobId, rfl⟩
        | panic message => exact stands_start (some jobId) true
  · rename_i hplan
    refine Conforms.call ⟨rfl, .inr ⟨rfl, rfl, rfl, .inr hplan⟩⟩ fun answer => ?_
    cases answer with
    | value found => exact conforms_pure ⟨rfl, none, rfl⟩
    | error e => exact conforms_pure ⟨rfl, none, rfl⟩
    | panic message => exact stands_start none true

theorem conforms_fetchDeploymentVariables :
    Conforms rt .start (initiateDeploymentStatusHandler rt.payload) (fetchDeploymentVariables rt)
      fun found p' h' => h' = initiateDeploymentStatusHandler rt.payload ∧
        ∃ planJob source, p' = .found planJob source ∧ found = (source.vars, source.jobId) := by
  refine Conforms.bind conforms_getJobDeployment ?_
  rintro result p _ ⟨rfl, planJob, hp⟩
  cases result with
  | error e =>
      obtain rfl := hp
      exact stands_start planJob true
  | ok found =>
      obtain rfl := hp
      cases found with
      | none => exact stands_start planJob false
      | some source => exact conforms_pure ⟨rfl, planJob, source, rfl, rfl⟩

/-- The crash guard has nothing more to store. -/
theorem conforms_attempt_reportFailed (hfits : Fits rt p h) (errorText : String) :
    Conforms rt p h (attempt (reportStatus rt .failed errorText)) fun _ p' h' =>
      Stands rt p' h' := by
  have hmay : MayReport rt p .failed := .of_failure rfl (by decide)
  have hreport := conforms_reportStatus errorText hfits hmay
  refine Conforms.attempt hreport ?_ fun _ _ _ hstands => hstands
  rintro _ _ _ ⟨rfl, rfl⟩
  exact ((hfits.of_status .failed errorText).sent .failed).stands_of_sent rfl

theorem Holds.halted (hholds : Holds rt p h) : Fits rt { p with halted := true } h :=
  { hholds with known := .inr (.inl rfl) }

theorem conforms_getCurrentJobId (hholds : Holds rt p h) (hstatus : h.status = .initiated)
    (hid : p.identified = none) (hinitial : p.initial.isSome = true) (hhalted : p.halted = false) :
    Conforms rt p h (getCurrentJobId rt) fun jobId p' h' =>
      p' = { p with identified := some jobId } ∧ h' = { h with jobId } := by
  have hfailed : p.failed = { p with halted := true } := by
    unfold Progress.failed
    rw [hid]
    rfl
  refine Conforms.call hhalted fun answer => ?_
  cases answer with
  | panic message =>
      change Stands rt p.failed h
      rw [hfailed]
      exact stands_of_initiated hholds.halted hstatus
  | error e =>
      change Conforms rt p.failed h (attempt (reportStatus rt .failed _) >>= _) _
      rw [hfailed]
      refine Conforms.bind (conforms_attempt_reportFailed hholds.halted _) ?_
      exact fun _ _ _ hstands => Conforms.bail hstands _
  | value jobId =>
      refine conforms_pure ⟨?_, rfl⟩
      change (if _ then _ else _) = _
      rw [if_pos hinitial]

theorem conforms_ensureValidJobId (hfits : Fits rt p h) (jobId jobIdForVariables : String) :
    Conforms rt p h (ensureValidJobId rt jobId jobIdForVariables) fun _ p' h' =>
      p = p' ∧ h = h' ∧ jobId = jobIdForVariables := by
  change Conforms rt p h (if _ then _ else _) _
  split
  · refine Conforms.bind (conforms_attempt_reportFailed hfits _) ?_
    exact fun _ _ _ hstands => Conforms.bail hstands _
  · rename_i hsame
    exact conforms_pure ⟨rfl, rfl, not_not.1 hsame⟩

theorem conforms_markDriftCheck (hfits : Fits rt p h) (hid : p.identified.isSome = true) :
    Conforms rt p h (markDriftCheck rt) fun _ p' h' => p = p' ∧ Fits rt p h' ∧
      h'.status = h.status := by
  change Conforms rt p h (if _ then _ else _) _
  split
  · rename_i hcheck
    exact ⟨rfl, { hfits with
      unchanged := { hfits.unchanged with }, isDriftCheck := fun _ => ⟨hcheck, hid⟩ }, rfl⟩
  · exact conforms_pure ⟨rfl, hfits, rfl⟩

theorem conforms_runRunnerInner :
    Conforms rt .start (initiateDeploymentStatusHandler rt.payload) (runRunnerInner rt)
      fun _ p' h' => Stands rt p' h' ∧ h'.status.isFinal = true := by
  refine Conforms.bind conforms_fetchDeploymentVariables ?_
  rintro _ _ _ ⟨rfl, planJob, source, rfl, rfl⟩
  have hstart := (fits_start : Fits rt .start _)
  have hholds : Holds rt (.found planJob source)
      { initiateDeploymentStatusHandler rt.payload with vars := source.vars } :=
    { hstart with unchanged := { hstart.unchanged with }, vars := rfl, source := nofun }
  refine Conforms.call trivial fun answer => ?_
  cases answer with
  | error e => exact .inl rfl
  | panic message => exact stands_of_initiated hholds.halted rfl
  | value _ =>
  refine Conforms.call trivial fun answer => ?_
  cases answer with
  | error e => exact .inl rfl
  | panic message => exact stands_of_initiated hholds.halted rfl
  | value _ =>
  refine Conforms.call ⟨rfl, .inr ⟨rfl, rfl, rfl, .inl rfl⟩⟩ fun answer => ?_
  cases answer with
  | error e => exact stands_of_initiated hholds.halted rfl
  | panic message => exact stands_of_initiated hholds.halted rfl
  | value initial =>
  let p₂ : Progress :=
    { Progress.found planJob source with
      initial := some initial, output := (initial.map DeploymentResp.output).getD .null }
  have hrest : ∀ h₂, Holds rt p₂ h₂ → h₂.status = .initiated →
      Conforms rt p₂ h₂ (do
        let jobId ← getCurrentJobId rt
        ensureValidJobId rt jobId source.jobId
        markDriftCheck rt
        sendDeployment rt
        terraformFlow rt jobId) fun _ p' h' => Stands rt p' h' ∧ h'.status.isFinal = true := by
    intro h₂ hholds₂ hstatus₂
    refine Conforms.bind (conforms_getCurrentJobId hholds₂ hstatus₂ rfl rfl rfl) ?_
    rintro jobId _ _ ⟨rfl, rfl⟩
    have hfits₃ : Fits rt { p₂ with identified := some jobId } { h₂ with jobId } :=
      { hholds₂ with
        unchanged := { hholds₂.unchanged with }
        jobId := rfl
        hasDrifted := fun hdrifted => ⟨(hholds₂.hasDrifted hdrifted).1, rfl⟩
        isDriftCheck := fun hcheck => ⟨(hholds₂.isDriftCheck hcheck).1, rfl⟩
        source := fun _ => rfl
        known := .inl rfl }
    refine Conforms.bind (conforms_ensureValidJobId hfits₃ jobId source.jobId) ?_
    rintro _ _ _ ⟨rfl, rfl, rfl⟩
    refine Conforms.bind (conforms_markDriftCheck hfits₃ rfl) ?_
    rintro _ _ h₄ ⟨rfl, hfits₄, hstatus₄⟩
    have hinitiated : h₄.status = .initiated := hstatus₄.trans hstatus₂
    have hmay : MayReport rt { p₂ with identified := some source.jobId } h₄.status := by
      rw [hinitiated]
      exact ⟨.inr ⟨rfl, rfl, rfl, rfl, source, rfl, rfl⟩, nofun⟩
    refine Conforms.bind (conforms_sendDeployment hfits₄ hmay) ?_
    rintro _ _ _ ⟨rfl, rfl⟩
    rw [hinitiated]
    exact conforms_terraformFlow
      ⟨hfits₄.sent .initiated, hinitiated, rfl, rfl, rfl, rfl, rfl, rfl, rfl⟩ source.jobId
  cases initial with
  | none => exact hrest _ { hholds with } rfl
  | some deployment =>
      exact hrest _ { hholds with unchanged := { hholds.unchanged with }, output := rfl } rfl

/-! ## After the flow -/

/-- A final status is stored, unless the store has failed or the job could not begin. -/
def Progress.Over (p : Progress) : Prop :=
  p.halted = true ∨ p.Reported

theorem wp_flushFailedStatusIfNeeded (hstands : Stands rt p h) (errorText : String) :
    Process.WP (jobEnvironment rt) (fun p' _ _ => p'.Over) p h
      (flushFailedStatusIfNeeded rt errorText) := by
  refine Process.wp_state_bind.2 ?_
  split
  · rename_i hfinal
    exact .inr (hstands.reported hfinal)
  · have hmay : MayReport rt p .failed := .of_failure rfl (by decide)
    have hfailed : ∀ {p' : Progress} {stop : Stop} {h' : DeploymentStatusHandler},
        Sent p { h with status := .failed, errorText } p' (.error stop) h' → p'.Over := by
      rintro _ stop _ ⟨-, -, rfl | rfl⟩
      · exact .inr (.inl rfl)
      · exact .inr (.inl rfl)
    have hreport : Process.WP (jobEnvironment rt) (fun p' _ _ => p'.Over) p h
        (attempt (reportStatus rt .failed errorText)) := by
      refine Process.wp_catching (wp_sendDeployment (hstands.fits.of_status .failed errorText) hmay)
        ?_ (fun _ _ _ _ _ hsent => hfailed hsent) fun _ _ _ _ hsent => hfailed hsent
      rintro _ _ _ ⟨-, rfl⟩
      exact .inr (.inr ⟨.failed, rfl, rfl, nofun⟩)
    exact Process.wp_bind hreport (fun _ _ _ hover => hover) fun _ _ _ hover => hover

theorem wp_publishRunnerNotification (hover : p.Over) (status errorText : String) :
    Process.WP (jobEnvironment rt) (fun p' _ _ => p'.Over) p h
      (publishRunnerNotification rt status errorText) := by
  refine ⟨trivial, ?_⟩
  rintro answer _ rfl
  cases answer with
  | value _ => exact hover
  | error e => exact hover
  | panic message => exact hover

/-- Whatever the answers are, a runner asks only for what it may ask for, and does not end before
its job is over. -/
theorem runnerProgram_conforms (rt : Runtime) :
    Program.WP (jobEnvironment rt) (fun p _ => p.Over) .start (runnerProgram rt) := by
  have hguarded : Process.WP (jobEnvironment rt)
      (fun p r h => match r with
        | .ok (.ok _) => Stands rt p h ∧ h.status.isFinal = true
        | .ok (.error _) => Stands rt p h
        | .error _ => p.Over)
      .start (initiateDeploymentStatusHandler rt.payload)
      (crashGuarded (runRunnerInner rt)) := by
    refine Process.wp_catching conforms_runRunnerInner (fun _ _ _ hdone => hdone) ?_ ?_
    · intro p stop caught h hcaught hstopped
      cases stop with
      | failed text => exact hstopped
      | panicked message => exact hstopped
      | exited code => cases hcaught
    · intro p stop h hcaught hstopped
      cases stop with
      | failed text => cases hcaught
      | panicked message => cases hcaught
      | exited code => exact hstopped
  have hprogram : Process.WP (jobEnvironment rt) (fun p _ _ => p.Over) .start
      (initiateDeploymentStatusHandler rt.payload) (runTerraformRunner rt) := by
    refine Process.wp_bind hguarded ?_ fun _ _ _ hover => hover
    intro p result h hresult
    have hfinish : Process.WP (jobEnvironment rt) (fun p' _ _ => p'.Over) p h
        (finishRunnerFlow rt result) := by
      cases result with
      | ok _ => exact .inr (hresult.1.reported hresult.2)
      | error e =>
          exact Process.wp_bind (wp_flushFailedStatusIfNeeded hresult e)
            (fun _ _ _ hover => hover) fun _ _ _ hover => hover
    refine Process.wp_bind hfinish ?_ fun _ _ _ hover => hover
    rintro p ⟨status, errorText⟩ h hover
    exact wp_publishRunnerNotification hover status errorText
  exact hprogram

end TerraformRunner
end InfraWeave
