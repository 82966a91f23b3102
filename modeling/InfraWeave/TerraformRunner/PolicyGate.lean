import InfraWeave.EnvCommon.Catalogue
import InfraWeave.TerraformRunner.JobRecord
import Mathlib.Data.Set.Basic

/-!
# Policies and what is applied

The policies are evaluated on a plan that is stored as a file.  The command that changes the
infrastructure is not given that plan: it makes one of its own, when it is run.
-/

namespace InfraWeave
namespace TerraformRunner

/-- What terraform plans to do in an infrastructure, by its command, and the actions of a plan that
it has printed. -/
structure Terraform (Infra Action : Type) where
  plan : TerraformCommand → Infra → Set Action
  actions : String → Set Action

structure SavedPlan (Infra : Type) where
  command : TerraformCommand
  infra : Infra

/-- A command that changes the infrastructure, with what was there when it was run. -/
structure Change (Infra : Type) where
  command : TerraformCommand
  infra : Infra
  planfile : Option (SavedPlan Infra)
  planJson : Option String

/-- The infrastructure, the files of the container that hold a plan, and the changes so far. -/
structure Site (Infra : Type) where
  infra : Infra
  planfile : Option (SavedPlan Infra)
  planJson : Option String
  changes : List (Change Infra)

namespace Site

variable {Infra Action : Type}

def start (infra : Infra) : Site Infra :=
  ⟨infra, none, none, []⟩

def change (s : Site Infra) (command : TerraformCommand) : Change Infra :=
  ⟨command, s.infra, s.planfile, s.planJson⟩

/-- Nothing is different but the infrastructure. -/
def Keeps (s s' : Site Infra) : Prop :=
  s'.planfile = s.planfile ∧ s'.planJson = s.planJson ∧ s'.changes = s.changes

/-- What a command does.  A plan that has failed leaves its file as it was. -/
def Runs (tf : Terraform Infra Action) (s : Site Infra) (command : TerraformCommand)
    (answer : Reply String) (s' : Site Infra) : Prop :=
  (command.IsChange → s'.planfile = s.planfile ∧ s'.planJson = s.planJson ∧
    s'.changes = s.changes ++ [s.change command]) ∧
  (command.args.head? = some "plan" → s'.planJson = s.planJson ∧ s'.changes = s.changes ∧
    ((∃ stdout, answer = .value stdout) ∧ "-out=planfile" ∈ command.args ∧
        s'.planfile = some ⟨command, s.infra⟩ ∨
      ¬ ((∃ stdout, answer = .value stdout) ∧ "-out=planfile" ∈ command.args) ∧
        s'.planfile = s.planfile)) ∧
  (¬ command.IsChange → command.args.head? ≠ some "plan" → s.Keeps s') ∧
  (command.args.head? = some "show" → "planfile" ∈ command.args →
    ∀ stdout, answer = .value stdout → ∃ saved, s.planfile = some saved ∧
      tf.actions stdout = tf.plan saved.command saved.infra)

def Responds (tf : Terraform Infra Action) (s : Site Infra) :
    (op : Operation) → op.Answer → Site Infra → Prop
  | .terraform command, answer, s' => s.Runs tf command answer s'
  | .writeFile name content, answer, s' =>
      s'.planfile = s.planfile ∧ s'.changes = s.changes ∧
        (answer = .value () ∧ name = "tf_plan.json" ∧ s'.planJson = some content ∨
          ¬ (answer = .value () ∧ name = "tf_plan.json") ∧ s'.planJson = s.planJson)
  | _, _, s' => s.Keeps s'

end Site

section

variable {Infra Action : Type} (tf : Terraform Infra Action)

/-- The infrastructure may become anything between two operations. -/
def Terraform.environment : Environment Operation Operation.Answer (Site Infra) where
  step s op answer s' := ∃ infra, Site.Responds tf { s with infra } op answer s'
  safe _ _ := True

/-- The actions of a change: those of its plan file, or of a plan that is made for it. -/
def Change.actions (change : Change Infra) : Set Action :=
  if "planfile" ∈ change.command.args then
    { action | ∃ saved, change.planfile = some saved ∧ action ∈ tf.plan saved.command saved.infra }
  else tf.plan change.command change.infra

/-! ## What is asked -/

/-- Every action is one of the plan that is stored for the policies. -/
def Change.IsCovered (change : Change Infra) : Prop :=
  ∀ action ∈ change.actions tf, ∃ content, change.planJson = some content ∧
    action ∈ tf.actions content

/-- What a command that changes the infrastructure does belongs to the plan that was stored, on
which every policy was evaluated and has denied nothing. -/
structure Gated (rt : Runtime) (trace : List Event) (s : Site Infra) : Prop where
  covered : ∀ change ∈ s.changes, change.IsCovered tf
  cleared : ∀ before command answer rest, trace = before ++ ⟨.terraform command, answer⟩ :: rest →
    command.IsChange → (Progress.along rt.parseJson before).Cleared

/-- What is planned when the change is made was planned before. -/
def Change.IsForeseen (rt : Runtime) (change : Change Infra) : Prop :=
  ∀ saved, change.planfile = some saved →
    tf.plan (applyDestroyCommand rt) change.infra ⊆ tf.plan (planCommand rt) saved.infra

end

/-! ## What is kept -/

section

variable {Infra Action : Type} {tf : Terraform Infra Action} {rt : Runtime}

/-- A plan of the job is in its file, and was printed. -/
def IsPrinted (tf : Terraform Infra Action) (rt : Runtime)
    (planfile : Option (SavedPlan Infra)) (content : String) : Prop :=
  ∃ infra, planfile = some ⟨planCommand rt, infra⟩ ∧
    tf.actions content = tf.plan (planCommand rt) infra

/-- The change is that of the job, and was made with its plan at hand. -/
def IsPlanned (tf : Terraform Infra Action) (rt : Runtime) (change : Change Infra) : Prop :=
  change.command = applyDestroyCommand rt ∧ "planfile" ∉ change.command.args ∧
    ∃ content, change.planJson = some content ∧ IsPrinted tf rt change.planfile content

structure GateInv (tf : Terraform Infra Action) (rt : Runtime) (p : Progress) (s : Site Infra)
    (trace : List Event) : Prop where
  along : p = .along rt.parseJson trace
  saved : ∀ saved, s.planfile = some saved → saved.command = planCommand rt
  printed : ∀ content, p.printed = some content → IsPrinted tf rt s.planfile content
  shown : ∀ content, p.shown = some content →
    s.planJson = some content ∧ IsPrinted tf rt s.planfile content
  changes : ∀ change ∈ s.changes, IsPlanned tf rt change
  cleared : ∀ before command answer rest, trace = before ++ ⟨.terraform command, answer⟩ :: rest →
    command.IsChange → (Progress.along rt.parseJson before).Cleared

variable {p : Progress} {s s' : Site Infra} {trace : List Event}

theorem isPlanned_iff_covered {change : Change Infra} (h : IsPlanned tf rt change) :
    change.IsCovered tf ↔ change.IsForeseen tf rt := by
  obtain ⟨hcommand, hfresh, content, hjson, infra, hfile, hactions⟩ := h
  have hperformed : change.actions tf = tf.plan (applyDestroyCommand rt) change.infra := by
    unfold Change.actions
    rw [if_neg hfresh, hcommand]
  constructor
  · intro hcovered saved hsaved action haction
    obtain rfl := Option.some.inj (hsaved.symm.trans hfile)
    obtain ⟨content', hjson', hmem⟩ := hcovered action (hperformed ▸ haction)
    obtain rfl := Option.some.inj (hjson'.symm.trans hjson)
    rwa [hactions] at hmem
  · intro hforeseen action haction
    refine ⟨content, hjson, ?_⟩
    rw [hactions]
    exact hforeseen _ hfile (hperformed ▸ haction)

/-- A list that is split by one more event is split before it, or at it. -/
theorem eq_or_of_concat_eq {before rest : List Event} {event event' : Event}
    (h : trace ++ [event] = before ++ event' :: rest) :
    (trace = before ∧ event = event') ∨ ∃ rest', trace = before ++ event' :: rest' := by
  induction rest using List.reverseRecOn with
  | nil =>
      obtain ⟨hbefore, hevent⟩ := List.append_inj' h rfl
      exact .inl ⟨hbefore, List.singleton_inj.1 hevent⟩
  | append_singleton rest last _ =>
      have hsplit : trace ++ [event] = (before ++ event' :: rest) ++ [last] := by
        rw [h, List.append_assoc]
        rfl
      obtain ⟨hbefore, -⟩ := List.append_inj' hsplit rfl
      exact .inr ⟨rest, hbefore⟩

/-- An event is cleared if it is not one of a change, or all policies have passed before it. -/
theorem GateInv.cleared_concat (hinv : GateInv tf rt p s trace) {event : Event}
    (hevent : ∀ command answer,
      event = ⟨.terraform command, answer⟩ → command.IsChange → p.Cleared) :
    ∀ before command answer rest,
      trace ++ [event] = before ++ ⟨.terraform command, answer⟩ :: rest →
        command.IsChange → (Progress.along rt.parseJson before).Cleared := by
  intro before command answer rest heq hchange
  rcases eq_or_of_concat_eq heq with ⟨rfl, hlast⟩ | ⟨rest', hold⟩
  · rw [← hinv.along]
    exact hevent command answer hlast hchange
  · exact hinv.cleared before command answer rest' hold hchange

/-- What the gate reads of the progress. -/
def Progress.plans (p : Progress) : Option String × Option String :=
  (p.printed, p.shown)

/-- Neither the plans nor what is known of them are touched. -/
theorem GateInv.keep (hinv : GateInv tf rt p s trace) {event : Event} {p' : Progress}
    (hplans : p'.plans = p.plans) (hkeeps : s.Keeps s')
    (halong : p' = .along rt.parseJson (trace ++ [event]))
    (hevent : ∀ command answer,
      event = ⟨.terraform command, answer⟩ → command.IsChange → p.Cleared) :
    GateInv tf rt p' s' (trace ++ [event]) := by
  obtain ⟨hprinted, hshown⟩ := Prod.mk.inj hplans
  obtain ⟨hfile, hjson, hchanges⟩ := hkeeps
  constructor
  · exact halong
  · rw [hfile]
    exact hinv.saved
  · rw [hprinted, hfile]
    exact hinv.printed
  · rw [hshown, hfile, hjson]
    exact hinv.shown
  · rw [hchanges]
    exact hinv.changes
  · exact hinv.cleared_concat hevent

theorem Progress.plans_evaluated (parseJson : String → Except String Json) (p : Progress)
    (stdout : String) : (p.evaluated parseJson stdout).plans = p.plans := by
  unfold Progress.evaluated
  cases parseJson stdout with
  | error e => rfl
  | ok json =>
      dsimp only
      split
      · rfl
      · rfl

theorem Progress.plans_failed (p : Progress) : p.failed.plans = p.plans := by
  unfold Progress.failed
  split
  · rfl
  · rfl

theorem Progress.plans_read (p : Progress) (deploymentId environment : String)
    (found : Option DeploymentResp) : (p.read deploymentId environment found).plans = p.plans := by
  unfold Progress.read
  split
  · rfl
  · split
    · rfl
    · split
      · rfl
      · rfl

/-- Only commands and files tell of plans. -/
def Operation.IsRemote : Operation → Prop
  | terraform _ | writeFile _ _ => False
  | _ => True

theorem Progress.plans_after (parseJson : String → Except String Json) (p : Progress)
    {op : Operation} (hremote : op.IsRemote) (answer : op.Answer) :
    (p.after parseJson op answer).plans = p.plans := by
  cases op with
  | terraform command => cases hremote
  | writeFile name content => cases hremote
  | getCurrentJobId =>
      cases answer with
      | value jobId =>
          change (if _ then _ else _ : Progress).plans = _
          split
          · rfl
          · rfl
      | error e => exact plans_failed p
      | panic message => exact plans_failed p
  | getPlanDeployment deploymentId environment jobId =>
      cases answer with
      | value found => rfl
      | error e => exact plans_failed p
      | panic message => exact plans_failed p
  | getDeployment deploymentId environment includeDeleted =>
      cases answer with
      | value found => exact plans_read p deploymentId environment found
      | error e => exact plans_failed p
      | panic message => exact plans_failed p
  | getDeploymentAndDependents deploymentId environment includeDeleted =>
      cases answer with
      | value found =>
          obtain ⟨deployment, dependants⟩ := found
          cases dependants with
          | nil => rfl
          | cons dependant dependants => rfl
      | error e => rfl
      | panic message => rfl
  | storeTfVarsJson vars =>
      cases answer with
      | value _ => rfl
      | error e => exact plans_failed p
      | panic message => exact plans_failed p
  | storeBackendFile =>
      cases answer with
      | value _ => rfl
      | error e => exact plans_failed p
      | panic message => exact plans_failed p
  | setDeployment record isPlan => cases answer <;> rfl
  | getAllPolicies environment => cases answer <;> rfl
  | downloadPolicy policy => cases answer <;> rfl
  | opa policyName regoFiles =>
      cases answer with
      | value stdout => exact plans_evaluated parseJson p stdout
      | error e => rfl
      | panic message => rfl
  | _ => rfl

theorem applyDestroyCommand_fresh
    (hchange : rt.payload.command = "apply" ∨ rt.payload.command = "destroy") :
    "planfile" ∉ (applyDestroyCommand rt).args := by
  rcases hchange with heq | heq
  · simp [applyDestroyCommand, terraformCommand, heq]
  · simp [applyDestroyCommand, terraformCommand, heq]

theorem GateInv.writeFile (hinv : GateInv tf rt p s trace) {name content : String}
    {answer : Reply Unit} (hallowed : Allowed rt p (.writeFile name content))
    (hresponds : s.Responds tf (.writeFile name content) answer s')
    (halong : p.after rt.parseJson (.writeFile name content) answer =
      .along rt.parseJson (trace ++ [⟨.writeFile name content, answer⟩])) :
    GateInv tf rt (p.after rt.parseJson (.writeFile name content) answer) s'
      (trace ++ [⟨.writeFile name content, answer⟩]) := by
  have hcleared : ∀ command (answer' : Reply String),
      (⟨.writeFile name content, answer⟩ : Event) = ⟨.terraform command, answer'⟩ →
        command.IsChange → p.Cleared := by
    intro command answer' heq
    cases heq
  obtain ⟨hfile, hchanges, ⟨rfl, rfl, hjson⟩ | ⟨hother, hjson⟩⟩ := hresponds
  · -- The plan that was printed is stored.
    have hafter : p.after rt.parseJson (.writeFile "tf_plan.json" content) (.value ()) =
        { p with shown := some content, policies := none, passed := [] } :=
      (Progress.after_writeFile _ _ _ _).trans (if_pos rfl)
    have hprinted := hinv.printed content (hallowed rfl)
    rw [hafter] at halong ⊢
    constructor
    · exact halong
    · rw [hfile]
      exact hinv.saved
    · rw [hfile]
      exact hinv.printed
    · rintro content' heq
      obtain rfl := Option.some.inj heq
      exact ⟨hjson, hfile ▸ hprinted⟩
    · rw [hchanges]
      exact hinv.changes
    · exact hinv.cleared_concat hcleared
  · refine hinv.keep ?_ ⟨hfile, hjson, hchanges⟩ halong hcleared
    cases answer with
    | value _ =>
        rw [Progress.after_writeFile, if_neg fun heq => hother ⟨rfl, heq⟩]
    | error e => rfl
    | panic message => rfl

/-- The progress after a command that changes the infrastructure. -/
theorem Progress.plans_ran_of_isChange {command : TerraformCommand} (hchange : command.IsChange)
    (reply : Reply String) : (p.ran rt.parseJson command reply).plans = p.plans := by
  have hhead : command.args.head? = some "apply" ∨ command.args.head? = some "destroy" := hchange
  unfold Progress.ran
  rw [if_pos hhead]
  cases reply <;> rfl

/-- Any other command but a plan tells at most what the plan file is printed as. -/
theorem Progress.plans_ran {command : TerraformCommand} (hchange : ¬ command.IsChange)
    (hplan : command.args.head? ≠ some "plan") (reply : Reply String) :
    (p.ran rt.parseJson command reply).plans = p.plans ∨
      (command.args.head? = some "show" ∧ "planfile" ∈ command.args) ∧
        ∃ stdout, reply = .value stdout ∧
          (p.ran rt.parseJson command reply).plans = (some stdout, p.shown) := by
  have hhead : ¬ (command.args.head? = some "apply" ∨ command.args.head? = some "destroy") :=
    hchange
  unfold Progress.ran
  rw [if_neg hhead, if_neg hplan]
  split
  · left
    cases reply <;> rfl
  · split
    · left
      cases reply with
      | value stdout =>
          dsimp only
          cases rt.parseJson stdout <;> rfl
      | error e => rfl
      | panic message => rfl
    · split
      · rename_i hshow
        cases reply with
        | value stdout => exact .inr ⟨hshow, stdout, rfl, rfl⟩
        | error e => exact .inl rfl
        | panic message => exact .inl rfl
      · exact .inl rfl

theorem GateInv.change (hinv : GateInv tf rt p s trace) {command : TerraformCommand}
    {answer : Reply String} (hchange : command.IsChange)
    (hallowed : Allowed rt p (.terraform command))
    (hresponds : s.Runs tf command answer s')
    (halong : p.ran rt.parseJson command answer =
      .along rt.parseJson (trace ++ [⟨.terraform command, answer⟩])) :
    GateInv tf rt (p.ran rt.parseJson command answer) s'
      (trace ++ [⟨.terraform command, answer⟩]) := by
  have hmay := MayRun.change hallowed hchange
  obtain ⟨hfile, hjson, hchanges⟩ := hresponds.1 hchange
  obtain ⟨hprinted, hshown⟩ := Prod.mk.inj (Progress.plans_ran_of_isChange (p := p) hchange answer)
  have hplanned : IsPlanned tf rt (s.change command) := by
    obtain ⟨content, hcontent⟩ := Option.isSome_iff_exists.1 hmay.cleared.1
    obtain ⟨hjson', hsaved⟩ := hinv.shown content hcontent
    refine ⟨hmay.command, ?_, content, hjson', hsaved⟩
    change "planfile" ∉ command.args
    rw [hmay.command]
    exact applyDestroyCommand_fresh hmay.isChange
  constructor
  · exact halong
  · rw [hfile]
    exact hinv.saved
  · rw [hprinted, hfile]
    exact hinv.printed
  · rw [hshown, hfile, hjson]
    exact hinv.shown
  · rw [hchanges]
    intro change hmem
    rcases List.mem_append.1 hmem with hold | hnew
    · exact hinv.changes change hold
    · obtain rfl := List.mem_singleton.1 hnew
      exact hplanned
  · exact hinv.cleared_concat fun _ _ _ _ => hmay.cleared

theorem GateInv.plan (hinv : GateInv tf rt p s trace) {answer : Reply String}
    (hresponds : s.Runs tf (planCommand rt) answer s')
    (halong : p.replanned =
      .along rt.parseJson (trace ++ [⟨.terraform (planCommand rt), answer⟩])) :
    GateInv tf rt p.replanned s' (trace ++ [⟨.terraform (planCommand rt), answer⟩]) := by
  obtain ⟨-, hchanges, hsaved⟩ := hresponds.2.1 rfl
  have hnot : ¬ (planCommand rt).IsChange := by
    rintro (heq | heq)
    · exact absurd (Option.some.inj heq) (by decide)
    · exact absurd (Option.some.inj heq) (by decide)
  refine ⟨halong, ?_, nofun, nofun, ?_, ?_⟩
  · rcases hsaved with ⟨-, -, hfile⟩ | ⟨-, hfile⟩
    · rw [hfile]
      intro saved heq
      obtain rfl := Option.some.inj heq
      rfl
    · rw [hfile]
      exact hinv.saved
  · rw [hchanges]
    exact hinv.changes
  · refine hinv.cleared_concat fun command answer' heq hchange => ?_
    cases heq
    exact absurd hchange hnot

theorem GateInv.terraform (hinv : GateInv tf rt p s trace) {command : TerraformCommand}
    {answer : Reply String} (hallowed : Allowed rt p (.terraform command))
    (hresponds : s.Runs tf command answer s')
    (halong : p.ran rt.parseJson command answer =
      .along rt.parseJson (trace ++ [⟨.terraform command, answer⟩])) :
    GateInv tf rt (p.ran rt.parseJson command answer) s'
      (trace ++ [⟨.terraform command, answer⟩]) := by
  by_cases hchange : command.IsChange
  · exact hinv.change hchange hallowed hresponds halong
  by_cases hplan : command.args.head? = some "plan"
  · obtain rfl := MayRun.plan hallowed hplan
    rw [Progress.ran_planCommand] at halong ⊢
    exact hinv.plan hresponds halong
  have hkeeps := hresponds.2.2.1 hchange hplan
  have hcleared : ∀ command' (answer' : Reply String),
      (⟨.terraform command, answer⟩ : Event) = ⟨.terraform command', answer'⟩ →
        command'.IsChange → p.Cleared := by
    intro command' answer' heq hchange'
    cases heq
    exact absurd hchange' hchange
  have hran : (p.ran rt.parseJson command answer).plans = p.plans ∨
      (command.args.head? = some "show" ∧ "planfile" ∈ command.args) ∧
        ∃ stdout, answer = .value stdout ∧
          (p.ran rt.parseJson command answer).plans = (some stdout, p.shown) :=
    Progress.plans_ran hchange hplan answer
  rcases hran with hplans | ⟨⟨hshow, hfile⟩, stdout, rfl, hplans⟩
  · exact hinv.keep hplans hkeeps halong hcleared
  · -- What is printed is the plan in its file.
    obtain ⟨hsame, hjson, hchanges⟩ := hkeeps
    obtain ⟨hprinted, hshown⟩ := Prod.mk.inj hplans
    obtain ⟨⟨command', infra⟩, hsaved, hactions⟩ := hresponds.2.2.2 hshow hfile stdout rfl
    obtain rfl := hinv.saved _ hsaved
    constructor
    · exact halong
    · rw [hsame]
      exact hinv.saved
    · rw [hprinted, hsame]
      intro content heq
      obtain rfl := Option.some.inj heq
      exact ⟨infra, hsaved, hactions⟩
    · rw [hshown, hsame, hjson]
      exact hinv.shown
    · rw [hchanges]
      exact hinv.changes
    · exact hinv.cleared_concat hcleared

/-- What an operation keeps, whatever has become of the infrastructure before it. -/
theorem GateInv.step (hinv : GateInv tf rt p s trace) {op : Operation} {answer : op.Answer}
    (hallowed : Allowed rt p op) (hstep : (Terraform.environment tf).step s op answer s') :
    GateInv tf rt (p.after rt.parseJson op answer) s' (trace ++ [⟨op, answer⟩]) := by
  obtain ⟨infra, hresponds⟩ := hstep
  have hinv' : GateInv tf rt p { s with infra } trace := { hinv with }
  have halong : p.after rt.parseJson op answer =
      .along rt.parseJson (trace ++ [⟨op, answer⟩]) := by
    rw [Progress.along_concat, ← hinv.along]
  cases op with
  | terraform command => exact hinv'.terraform hallowed hresponds halong
  | writeFile name content => exact hinv'.writeFile hallowed hresponds halong
  | _ =>
      refine hinv'.keep (Progress.plans_after rt.parseJson p ?_ answer) hresponds halong ?_
      · trivial
      · intro command answer' heq
        cases heq

theorem gateInv_start (infra : Infra) : GateInv tf rt .start (.start infra) [] where
  along := rfl
  saved saved hsaved := absurd hsaved (Option.some_ne_none saved).symm
  printed content hprinted := absurd hprinted (Option.some_ne_none content).symm
  shown content hshown := absurd hshown (Option.some_ne_none content).symm
  changes _ hmem := absurd hmem List.not_mem_nil
  cleared _ _ _ _ heq := absurd heq.symm (by simp)

/-! ## Runs -/

theorem gateInv_of_run {infra : Infra}
    {result : Except Stop Unit × EnvCommon.DeploymentStatusHandler}
    (hrun : Program.Runs (Terraform.environment tf) (.start infra) (runnerProgram rt) trace s'
      result) : ∃ p, GateInv tf rt p s' trace := by
  let inv : Progress → Site Infra × List Event → Prop := fun p s => GateInv tf rt p s.1 s.2
  have hstart : inv .start (.start infra, []) := gateInv_start infra
  have hkept : Program.WP (Terraform.environment tf).recorded (fun s _ => ∃ p, inv p s ∧ p.Over)
      (.start infra, []) (runnerProgram rt) := by
    refine (runnerProgram_conforms rt).transfer ?_ ?_ hstart
    · exact fun p s op _ _ => trivial
    · intro p s op answer s' hinv hallowed hstep
      refine ⟨_, rfl, ?_⟩
      change GateInv tf rt _ _ _
      rw [hstep.2]
      exact GateInv.step hinv hallowed hstep.1
  obtain ⟨p, hinv, -⟩ := hkept.sound (hrun.recorded [])
  exact ⟨p, hinv⟩

/-- Every change is made after all policies have passed on the plan that is stored; that it does
what is in this plan depends on what has become of the infrastructure since, and on the flags. -/
theorem gated_iff {infra : Infra}
    {result : Except Stop Unit × EnvCommon.DeploymentStatusHandler}
    (hrun : Program.Runs (Terraform.environment tf) (.start infra) (runnerProgram rt) trace s'
      result) : Gated tf rt trace s' ↔ ∀ change ∈ s'.changes, change.IsForeseen tf rt := by
  obtain ⟨p, hinv⟩ := gateInv_of_run hrun
  constructor
  · intro hgated change hmem
    exact (isPlanned_iff_covered (hinv.changes change hmem)).1 (hgated.covered change hmem)
  · intro hforeseen
    refine ⟨fun change hmem => ?_, hinv.cleared⟩
    exact (isPlanned_iff_covered (hinv.changes change hmem)).2 (hforeseen change hmem)

end

/-! ## An apply in an infrastructure that may change -/

/-- Everything goes well, for a deployment with this record and without policies. -/
def Operation.granted (record : DeploymentResp) : (op : Operation) → op.Answer
  | getEpoch => 0
  | getCurrentJobId => .value record.jobId
  | getDeployment _ _ _ => .value (some record)
  | getPlanDeployment _ _ _ => .value (some record)
  | getDeploymentAndDependents _ _ _ => .value (some record, [])
  | getModuleVersion _ track version => .value (some (EnvCommon.webModule track version))
  | downloadModuleOci _ => .value (EnvCommon.webModule "stable" "1.0.0")
  | getAllPolicies _ | getAllRegoFilenames => .value []
  | terraform _ | opa _ _ | readFile _ => .value "\x7b\x7d"
  | setDeployment _ _ | checkModuleDeprecation _ _ _ _ _ _ | setUpProviderMirror _ _
  | downloadModuleZip _ | downloadPolicy _ | storeTfVarsJson _ | storeBackendFile | storeEnvAsJson
  | storePolicyInput _ | writeFile _ _ | removeFile _ | uploadFile _ _
  | insertInfraChangeRecord _ | postWebhook _ _ | publishNotification _ => .value ()

/-- Terraform in an infrastructure that is told by a number: its one action is to repair it.  What
it prints is the plan for the number zero. -/
def repair : Terraform Nat Nat where
  plan _ infra := {infra}
  actions _ := {0}

/-- A site in which everything goes well, and the infrastructure is another one when it is
changed. -/
def Site.respond (record : DeploymentResp) (later : Nat) (s : Site Nat) :
    (op : Operation) → Option (op.Answer × Site Nat)
  | .terraform command =>
      let answer : Reply String := Operation.granted record (.terraform command)
      if command.args.head? = some "apply" ∨ command.args.head? = some "destroy" then
        let s := { s with infra := later }
        some (answer, { s with changes := s.changes ++ [s.change command] })
      else if command.args.head? = some "plan" then
        if "-out=planfile" ∈ command.args then
          some (answer, { s with planfile := some ⟨command, s.infra⟩ })
        else none
      else if s.planfile.map SavedPlan.infra = some 0 ∨ command.args.head? ≠ some "show" then
        some (answer, s)
      else none
  | .writeFile name content =>
      some (.value (), if name = "tf_plan.json" then { s with planJson := some content } else s)
  | op => some (op.granted record, s)

theorem Site.step_of_respond (record : DeploymentResp) (later : Nat) (s : Site Nat)
    (op : Operation) (answer : op.Answer) (s' : Site Nat)
    (h : s.respond record later op = some (answer, s')) :
    repair.environment.step s op answer s' := by
  cases op with
  | terraform command =>
      simp only [Site.respond] at h
      split at h
      · rename_i hchange
        obtain ⟨rfl, rfl⟩ := Prod.mk.inj (Option.some.inj h)
        refine ⟨later, fun _ => ⟨rfl, rfl, rfl⟩, fun hplan => ?_, fun hnot => absurd hchange hnot,
          fun hshow => ?_⟩
        · rw [hplan] at hchange
          exact absurd hchange (by decide)
        · rw [hshow] at hchange
          exact absurd hchange (by decide)
      · rename_i hchange
        split at h
        · rename_i hplan
          split at h
          · rename_i hout
            obtain ⟨rfl, rfl⟩ := Prod.mk.inj (Option.some.inj h)
            refine ⟨s.infra, fun hhead => absurd hhead hchange, fun _ => ?_,
              fun _ hnot => absurd hplan hnot, fun hshow => ?_⟩
            · exact ⟨rfl, rfl, .inl ⟨⟨_, rfl⟩, hout, rfl⟩⟩
            · rw [hplan] at hshow
              exact absurd hshow (by decide)
          · cases h
        · rename_i hplan
          split at h
          · rename_i hsaved
            obtain ⟨rfl, rfl⟩ := Prod.mk.inj (Option.some.inj h)
            refine ⟨s.infra, fun hhead => absurd hhead hchange, fun hhead => absurd hhead hplan,
              fun _ _ => ⟨rfl, rfl, rfl⟩, fun hshow _ stdout _ => ?_⟩
            rcases hsaved with hsaved | hnot
            · obtain ⟨saved, hfile, hinfra⟩ := Option.map_eq_some_iff.1 hsaved
              refine ⟨saved, hfile, ?_⟩
              change ({0} : Set Nat) = {saved.infra}
              rw [hinfra]
            · exact absurd hshow hnot
          · cases h
  | writeFile name content =>
      obtain ⟨rfl, rfl⟩ := Prod.mk.inj (Option.some.inj h)
      refine ⟨s.infra, ?_⟩
      split
      · rename_i hname
        exact ⟨rfl, rfl, .inl ⟨rfl, hname, rfl⟩⟩
      · rename_i hname
        exact ⟨rfl, rfl, .inr ⟨fun hand => hname hand.2, rfl⟩⟩
  | _ =>
      obtain ⟨-, rfl⟩ := Prod.mk.inj (Option.some.inj h)
      exact ⟨s.infra, rfl, rfl, rfl⟩

/-- The runtime of the job, with a JSON library that knows the empty object. -/
def webChange : Runtime :=
  { webRuntime with parseJson := fun _ => .ok (.object []) }

/-- The number of the infrastructure at a change, and when the change was planned. -/
def Change.infras (change : Change Nat) : Nat × Option Nat :=
  (change.infra, change.planfile.map SavedPlan.infra)

def changesOf (later : Nat) : Option (List (Nat × Option Nat)) :=
  (Program.execute (Site.respond (webJob.request 0) later) (.start 0)
    (runnerProgram webChange)).map fun r => r.2.1.changes.map Change.infras

theorem Change.isForeseen_repair {change : Change Nat} {later : Nat}
    (hinfras : change.infras = (later, some 0)) :
    change.IsForeseen repair webChange ↔ later = 0 := by
  obtain ⟨hlater, hfile⟩ := Prod.mk.inj hinfras
  obtain ⟨saved, hsaved, hinfra⟩ := Option.map_eq_some_iff.1 hfile
  constructor
  · intro hforeseen
    have hmem : later ∈ ({saved.infra} : Set Nat) := hforeseen saved hsaved hlater.symm
    exact hmem.trans hinfra
  · rintro rfl saved' hsaved' action haction
    obtain rfl := Option.some.inj (hsaved'.symm.trans hsaved)
    exact (haction.trans hlater).trans hinfra.symm

/-- Nothing has changed since the plan. -/
theorem gated_web : ∃ trace s' result,
    Program.Runs repair.environment (.start 0) (runnerProgram webChange) trace s' result ∧
      s'.changes ≠ [] ∧ Gated repair webChange trace s' := by
  have hrun : changesOf 0 = some [(0, some 0)] := by decide +kernel
  obtain ⟨⟨trace, s', result⟩, hexecute, hchanges⟩ := Option.map_eq_some_iff.1 hrun
  obtain ⟨change, hsingle, hinfras⟩ := List.map_eq_singleton_iff.1 hchanges
  have hsome : s'.changes = [change] := hsingle
  have hruns := Program.runs_execute (Site.step_of_respond (webJob.request 0) 0) hexecute
  refine ⟨trace, s', result, hruns, ?_, (gated_iff hruns).2 ?_⟩
  · rw [hsome]
    exact List.cons_ne_nil _ _
  · rw [hsome]
    rintro change' hmem
    obtain rfl := List.mem_singleton.1 hmem
    exact (Change.isForeseen_repair hinfras).2 rfl

/-- The infrastructure has become another one between the plan and the apply. -/
theorem not_gated_web : ¬ ∀ (infra : Nat) (trace : List Event) (s' : Site Nat)
    (result : Except Stop Unit × EnvCommon.DeploymentStatusHandler),
      Program.Runs repair.environment (.start infra) (runnerProgram webChange) trace s' result →
        Gated repair webChange trace s' := by
  have hrun : changesOf 1 = some [(1, some 0)] := by decide +kernel
  obtain ⟨⟨trace, s', result⟩, hexecute, hchanges⟩ := Option.map_eq_some_iff.1 hrun
  obtain ⟨change, hsingle, hinfras⟩ := List.map_eq_singleton_iff.1 hchanges
  have hsome : s'.changes = [change] := hsingle
  have hmem : change ∈ s'.changes := hsome ▸ List.mem_singleton_self change
  have hruns := Program.runs_execute (Site.step_of_respond (webJob.request 0) 1) hexecute
  intro h
  obtain ⟨p, hinv⟩ := gateInv_of_run hruns
  have hcovered := (h 0 trace s' result hruns).covered change hmem
  have hforeseen := (isPlanned_iff_covered (hinv.changes change hmem)).1 hcovered
  exact absurd ((Change.isForeseen_repair hinfras).1 hforeseen) Nat.one_ne_zero

end TerraformRunner
end InfraWeave
