import InfraWeave.TerraformRunner.JobRecord
import Mathlib.Logic.Function.Basic

/-!
# The jobs of a deployment

A client starts a runner, and inserts the record of its request afterwards.  The runners of a
deployment and their clients take turns in any order; a runner may stop at any time, and a client
may never insert its record.
-/

namespace InfraWeave
namespace TerraformRunner

open EnvCommon

abbrev RunnerProgram :=
  Program Operation Operation.Answer (Except Stop Unit × DeploymentStatusHandler)

structure Fleet where
  handler : WorkloadHandler
  identifier : String
  job : Nat → Job
  handler_eq : ∀ i, (job i).handler = handler
  identifier_eq : ∀ i, (job i).identifier = identifier
  distinct : ∀ i j, (job i).jobId = (job j).jobId → i = j

namespace Fleet

/-- The table and the runners, with what their operations and answers have told them. -/
structure State where
  table : Deployments
  requested : Nat → Bool
  runner : Nat → Option RunnerProgram
  progress : Nat → Progress

inductive Act where
  | start (i : Nat)
  | insert (i : Nat) (epoch : Nat)
  | call (i : Nat) (op : Operation) (answer : op.Answer)

def State.begin (table : Deployments) : State where
  table
  requested _ := false
  runner _ := none
  progress _ := .start

/-- A call of `set_deployment` that has failed before its last transaction. -/
def Aborts (handler : WorkloadHandler) (t : Deployments) (record : DeploymentResp) (isPlan : Bool)
    (t' : Deployments) : Prop :=
  ∃ carriedOut ≤ if (isPlan && record.hasDrifted) = true then 1 else 0,
    t' = t.step ⟨handler, record, isPlan, carriedOut⟩

variable (fleet : Fleet)

/-- How an operation of a runner may be answered, and what it does to the table. -/
def Responds (i : Nat) (t : Deployments) : (op : Operation) → op.Answer → Deployments → Prop
  | .setDeployment record isPlan, answer, t' =>
      answer = .value () ∧ Saves fleet.handler t record isPlan t' ∨
        answer ≠ .value () ∧ Aborts fleet.handler t record isPlan t'
  | .getDeployment deploymentId environment includeDeleted, answer, t' => t' = t ∧
      ∀ found, answer = .value found →
        fleet.handler.getDeployment t deploymentId environment includeDeleted = .ok found
  | .getPlanDeployment deploymentId environment jobId, answer, t' => t' = t ∧
      ∀ found, answer = .value found →
        fleet.handler.getPlanDeployment t deploymentId environment jobId = .ok found
  | .getCurrentJobId, answer, t' => t' = t ∧
      ∀ jobId, answer = .value jobId → jobId = (fleet.job i).jobId
  | _, _, t' => t' = t

/-- One step of a client or of a runner. -/
inductive Step : State → Act → State → Prop
  | start {s : State} {i : Nat} (hidle : s.runner i = none) :
      Step s (.start i)
        { s with runner := Function.update s.runner i (some (runnerProgram (fleet.job i).rt)) }
  | insert {s : State} {i epoch : Nat} {t : Deployments} (hstarted : s.runner i ≠ none)
      (hnew : s.requested i = false)
      (hsaves : Saves fleet.handler s.table ((fleet.job i).request epoch) (fleet.job i).isPlan t) :
      Step s (.insert i epoch)
        { s with table := t, requested := Function.update s.requested i true }
  | call {s : State} {i : Nat} {op : Operation} {next : op.Answer → RunnerProgram}
      {answer : op.Answer} {t : Deployments} (hcalls : s.runner i = some (.call op next))
      (hresponds : fleet.Responds i s.table op answer t) :
      Step s (.call i op answer)
        { s with
          table := t
          runner := Function.update s.runner i (some (next answer))
          progress := Function.update s.progress i
            ((s.progress i).after (fleet.job i).rt.parseJson op answer) }

/-- The record of the deployment. -/
def stored (s : State) : Option DeploymentResp :=
  s.table.stored fleet.identifier

/-- The record that an act stores as that of the deployment. -/
def metadata : Act → Option DeploymentResp
  | .insert i epoch => if (fleet.job i).isPlan then none else some ((fleet.job i).request epoch)
  | .call _ (.setDeployment record isPlan) (.value ()) =>
      if isPlan = false ∨ record.hasDrifted = true then some record else none
  | _ => none

/-- The runner has done everything it had to do. -/
def Ended (s : State) (i : Nat) : Prop :=
  ∃ result, s.runner i = some (.done result)

/-! ## What every state keeps -/

structure Sound (s : State) : Prop where
  wellFormed : s.table.WellFormed
  idle : ∀ i, s.runner i = none → s.progress i = .start ∧ s.requested i = false
  conforms : ∀ i program, s.runner i = some program →
    Program.WP (jobEnvironment (fleet.job i).rt) (fun p _ => p.Over) (s.progress i) program
  planJob : ∀ i jobId, (s.progress i).planJob = some jobId → jobId = (fleet.job i).jobId
  identified : ∀ i jobId, (s.progress i).identified = some jobId → jobId = (fleet.job i).jobId

end Fleet

/-! ## The records of a table -/

section

variable {handler : WorkloadHandler} {t t' : Deployments} {record : DeploymentResp} {isPlan : Bool}

theorem Fleet.Aborts.wellFormed (hwf : t.WellFormed)
    (h : Fleet.Aborts handler t record isPlan t') : t'.WellFormed := by
  obtain ⟨carriedOut, -, rfl⟩ := h
  exact hwf.step _

/-- What has failed is not a record of the deployment. -/
theorem Fleet.Aborts.eq (hwf : t.WellFormed) (h : Fleet.Aborts handler t record isPlan t') :
    t' = t ∨ isPlan = true ∧
      KeyedTable.transactionAccepted (t.operations (storing handler record true)) = true ∧
      t' = t.transact (t.operations (storing handler record true)) := by
  obtain ⟨carriedOut, hle, rfl⟩ := h
  cases hcarried : carriedOut with
  | zero => exact .inl rfl
  | succ n =>
      rw [hcarried] at hle
      split at hle
      · rename_i hboth
        obtain ⟨rfl, hdrifted⟩ := Bool.and_eq_true_iff.1 hboth
        obtain rfl : n = 0 := by omega
        have hwrites := Deployments.writes_setDeployment hwf (storing handler record true)
        change (setDeployment t handler record true).writes = _ at hwrites
        unfold Deployments.step
        dsimp only
        rw [hwrites]
        split
        · rename_i haccepted
          exact .inr ⟨rfl, haccepted, rfl⟩
        · exact .inl rfl
      · omega

theorem Fleet.Aborts.stored (hwf : t.WellFormed) (h : Fleet.Aborts handler t record isPlan t')
    (identifier : String) : t'.stored identifier = t.stored identifier := by
  rcases h.eq hwf with rfl | ⟨rfl, -, rfl⟩
  · rfl
  · have hkey : (putDeployment record true).key ≠ metadataKey identifier := planKey_ne rfl
    unfold Deployments.stored
    rw [item_transact_operations (storing handler record true) hkey
      fun a b => dependentKey_ne_metadataKey a b identifier]

/-- The row of a plan may have been stored all the same. -/
theorem Fleet.Aborts.item_plan (hwf : t.WellFormed)
    (h : Fleet.Aborts handler t record isPlan t') {key : Key}
    (hplan : ∀ identifier, key.pk ≠ deploymentPk identifier) : t'.item key = t.item key ∨
      isPlan = true ∧ (getPayload record true).1 = key ∧
        t'.item key = some (.deployment (getPayload record true).2) := by
  rcases h.eq hwf with rfl | ⟨rfl, haccepted, rfl⟩
  · exact .inl rfl
  · by_cases hkey : (getPayload record true).1 = key
    · refine .inr ⟨rfl, hkey, ?_⟩
      rw [← hkey]
      exact item_transact_operations_self haccepted
    · exact .inl (item_transact_operations (storing handler record true) hkey
        fun a b heq => hplan a (congrArg Key.pk heq.symm))

end

/-! ## What operations tell -/

/-- The job that a runner knows, and what it has done. -/
def Progress.deeds (p : Progress) : (Option String × Option String) × Bool × Option Bool ×
    Option (List String) × Bool × Option DeploymentStatus × Bool :=
  ((p.planJob, p.identified), p.started, p.change, p.resources, p.unsaved, p.last, p.sendFailed)

/-- An operation that reads something, or that changes a file. -/
def Operation.IsLookup : Operation → Prop
  | getCurrentJobId | setDeployment _ _ | terraform _ => False
  | _ => True

/-- What a lookup may tell. -/
structure Progress.LooksUp (p p' : Progress) (event : Event) : Prop where
  deeds : p'.deeds = p.deeds
  initial : p.initial.isSome = true → p'.initial.isSome = true
  halted : p'.halted = true → p.halted = true ∨ p.identified = none
  output : p'.output = p.output ∨ p.initial = none ∧
    ∃ deploymentId environment includeDeleted found,
      event = ⟨.getDeployment deploymentId environment includeDeleted, .value found⟩ ∧
        p'.output = (found.map DeploymentResp.output).getD p.output

theorem Progress.looksUp_rfl (p : Progress) (event : Event) : p.LooksUp p event :=
  ⟨rfl, id, .inl, .inl rfl⟩

theorem Progress.looksUp_failed (p : Progress) (event : Event) : p.LooksUp p.failed event := by
  unfold Progress.failed
  split
  · rename_i hnone
    exact ⟨rfl, id, fun _ => .inr (Option.isNone_iff_eq_none.1 hnone), .inl rfl⟩
  · exact p.looksUp_rfl event

theorem Progress.looksUp_read (p : Progress) (deploymentId environment : String)
    (includeDeleted : Bool) (found : Option DeploymentResp) :
    p.LooksUp (p.read deploymentId environment found)
      ⟨.getDeployment deploymentId environment includeDeleted, .value found⟩ := by
  unfold Progress.read
  split
  · exact ⟨rfl, id, .inl, .inl rfl⟩
  · split
    · rename_i hnone
      have hnone' := Option.isNone_iff_eq_none.1 hnone
      exact ⟨rfl, fun _ => rfl, .inl, .inr ⟨hnone', _, _, _, _, rfl, rfl⟩⟩
    · split
      · exact ⟨rfl, id, .inl, .inl rfl⟩
      · exact p.looksUp_rfl _

theorem Progress.looksUp_evaluated (parseJson : String → Except String Json) (p : Progress)
    (stdout : String) (event : Event) : p.LooksUp (p.evaluated parseJson stdout) event := by
  unfold Progress.evaluated
  cases parseJson stdout with
  | error e => exact p.looksUp_rfl event
  | ok json =>
      dsimp only
      split
      · exact ⟨rfl, id, .inl, .inl rfl⟩
      · exact p.looksUp_rfl event

theorem Progress.looksUp_after (parseJson : String → Except String Json) (p : Progress)
    {op : Operation} (hlookup : op.IsLookup) (answer : op.Answer) :
    p.LooksUp (p.after parseJson op answer) ⟨op, answer⟩ := by
  cases op with
  | getCurrentJobId => cases hlookup
  | setDeployment record isPlan => cases hlookup
  | terraform command => cases hlookup
  | getPlanDeployment deploymentId environment jobId =>
      cases answer with
      | value found => exact ⟨rfl, id, .inl, .inl rfl⟩
      | error e => exact looksUp_failed p _
      | panic message => exact looksUp_failed p _
  | getDeployment deploymentId environment includeDeleted =>
      cases answer with
      | value found => exact looksUp_read p deploymentId environment includeDeleted found
      | error e => exact looksUp_failed p _
      | panic message => exact looksUp_failed p _
  | getDeploymentAndDependents deploymentId environment includeDeleted =>
      cases answer with
      | value found =>
          obtain ⟨deployment, dependants⟩ := found
          cases dependants with
          | nil => exact ⟨rfl, id, .inl, .inl rfl⟩
          | cons dependant dependants => exact p.looksUp_rfl _
      | error e => exact p.looksUp_rfl _
      | panic message => exact p.looksUp_rfl _
  | storeTfVarsJson vars =>
      cases answer with
      | value _ => exact p.looksUp_rfl _
      | error e => exact looksUp_failed p _
      | panic message => exact looksUp_failed p _
  | storeBackendFile =>
      cases answer with
      | value _ => exact p.looksUp_rfl _
      | error e => exact looksUp_failed p _
      | panic message => exact looksUp_failed p _
  | writeFile name content =>
      cases answer with
      | value _ =>
          rw [after_writeFile]
          split
          · exact ⟨rfl, id, .inl, .inl rfl⟩
          · exact p.looksUp_rfl _
      | error e => exact p.looksUp_rfl _
      | panic message => exact p.looksUp_rfl _
  | getAllPolicies environment => cases answer <;> exact ⟨rfl, id, .inl, .inl rfl⟩
  | downloadPolicy policy => cases answer <;> exact ⟨rfl, id, .inl, .inl rfl⟩
  | opa policyName regoFiles =>
      cases answer with
      | value stdout => exact looksUp_evaluated parseJson p stdout _
      | error e => exact p.looksUp_rfl _
      | panic message => exact p.looksUp_rfl _
  | _ => exact p.looksUp_rfl _

def Progress.ids (p : Progress) : Option String × Option String :=
  p.deeds.1

/-- What a command tells: the result of a change, what there is after one, or what is planned. -/
theorem Progress.ran_cases (parseJson : String → Except String Json) (p : Progress)
    (command : TerraformCommand) (reply : Reply String) :
    (command.IsChange ∧ ∃ succeeded,
      p.ran parseJson command reply = { p with change := some succeeded } ∧
        (succeeded = true → ∃ stdout, reply = .value stdout)) ∨
    (command.args.head? = some "state" ∧ ∃ stdout, reply = .value stdout ∧
      p.ran parseJson command reply =
        { p with resources := some (resourcesOf stdout), unsaved := true }) ∨
    (command.args.head? = some "output" ∧ ∃ stdout json, reply = .value stdout ∧
      parseJson stdout = .ok json ∧ p.ran parseJson command reply =
        { p with output := sanitizeTerraformOutput json, unsaved := true }) ∨
    (¬ command.IsChange ∧
      (command.args.head? = some "state" → ∀ stdout, reply ≠ .value stdout) ∧
      (command.args.head? = some "output" → ∀ stdout json, reply = .value stdout →
        parseJson stdout ≠ .ok json) ∧
      ∃ printed shown, p.ran parseJson command reply = { p with printed, shown }) := by
  have hsame : ∃ printed shown, p = { p with printed, shown } := ⟨p.printed, p.shown, rfl⟩
  unfold Progress.ran
  split
  · rename_i hchange
    refine .inl ⟨hchange, ?_⟩
    cases reply with
    | value stdout => exact ⟨true, rfl, fun _ => ⟨stdout, rfl⟩⟩
    | error e => exact ⟨false, rfl, nofun⟩
    | panic message => exact ⟨false, rfl, nofun⟩
  rename_i hchange
  refine .inr ?_
  split
  · rename_i hstate
    have houtput : command.args.head? ≠ some "output" := by
      rw [hstate]
      decide
    cases reply with
    | value stdout => exact .inl ⟨hstate, stdout, rfl, rfl⟩
    | error e =>
        exact .inr (.inr ⟨hchange, fun _ => nofun, fun heq => absurd heq houtput, hsame⟩)
    | panic message =>
        exact .inr (.inr ⟨hchange, fun _ => nofun, fun heq => absurd heq houtput, hsame⟩)
  rename_i hstate
  refine .inr ?_
  split
  · rename_i houtput
    cases reply with
    | value stdout =>
        dsimp only
        cases hjson : parseJson stdout with
        | ok json => exact .inl ⟨houtput, stdout, json, rfl, hjson, rfl⟩
        | error e =>
            refine .inr
              ⟨hchange, fun heq => absurd heq hstate, fun _ stdout' json heq hok => ?_, hsame⟩
            obtain rfl := Reply.value.inj heq
            rw [hjson] at hok
            cases hok
    | error e =>
        exact .inr ⟨hchange, fun heq => absurd heq hstate, fun _ _ _ heq => (nomatch heq), hsame⟩
    | panic message =>
        exact .inr ⟨hchange, fun heq => absurd heq hstate, fun _ _ _ heq => (nomatch heq), hsame⟩
  rename_i houtput
  refine .inr ⟨hchange, fun heq => absurd heq hstate, fun heq => absurd heq houtput, ?_⟩
  split
  · exact ⟨none, none, rfl⟩
  · split
    · cases reply with
      | value stdout => exact ⟨some stdout, p.shown, rfl⟩
      | error e => exact hsame
      | panic message => exact hsame
    · exact hsame

theorem Progress.ids_ran (parseJson : String → Except String Json) (p : Progress)
    (command : TerraformCommand) (reply : Reply String) :
    (p.ran parseJson command reply).ids = p.ids := by
  rcases ran_cases parseJson p command reply with ⟨-, succeeded, hran, -⟩ | ⟨-, stdout, -, hran⟩ |
    ⟨-, stdout, json, -, -, hran⟩ | ⟨-, -, -, printed, shown, hran⟩
  · rw [hran]
    rfl
  · rw [hran]
    rfl
  · rw [hran]
    rfl
  · rw [hran]
    rfl

/-- A runner is told its job in no other way. -/
theorem Progress.ids_after (parseJson : String → Except String Json) (p : Progress)
    (op : Operation) (answer : op.Answer) : (p.after parseJson op answer).ids = p.ids ∨
      ∃ jobId, (⟨op, answer⟩ : Event) = ⟨.getCurrentJobId, .value jobId⟩ ∧
        ((p.after parseJson op answer).ids = (some jobId, p.identified) ∨
          (p.after parseJson op answer).ids = (p.planJob, some jobId)) := by
  cases op with
  | getCurrentJobId =>
      cases answer with
      | value jobId =>
          refine .inr ⟨jobId, rfl, ?_⟩
          change (if _ then _ else _ : Progress).ids = _ ∨ (if _ then _ else _ : Progress).ids = _
          split
          · exact .inr rfl
          · exact .inl rfl
      | error e =>
          have hlooked := looksUp_failed p ⟨.getCurrentJobId, .error e⟩
          exact .inl (congrArg Prod.fst hlooked.deeds)
      | panic message =>
          have hlooked := looksUp_failed p ⟨.getCurrentJobId, .panic message⟩
          exact .inl (congrArg Prod.fst hlooked.deeds)
  | setDeployment record isPlan => cases answer <;> exact .inl rfl
  | terraform command => exact .inl (ids_ran parseJson p command answer)
  | _ =>
      refine .inl (congrArg Prod.fst (looksUp_after parseJson p ?_ answer).deeds)
      trivial

/-! ## Steps -/

namespace Fleet

section

variable {fleet : Fleet} {s s' : State} {a : Act}

/-- What is asked next may be asked, and the rest is right for every answer. -/
theorem Sound.calls (hsound : fleet.Sound s) {i : Nat} {op : Operation}
    {next : op.Answer → RunnerProgram} (hcalls : s.runner i = some (.call op next)) :
    Allowed (fleet.job i).rt (s.progress i) op ∧ ∀ answer,
      Program.WP (jobEnvironment (fleet.job i).rt) (fun p _ => p.Over)
        ((s.progress i).after (fleet.job i).rt.parseJson op answer) (next answer) := by
  obtain ⟨hallowed, hnext⟩ := hsound.conforms i _ hcalls
  exact ⟨hallowed, fun answer => hnext answer _ rfl⟩

theorem Sound.allowed (hsound : fleet.Sound s) {i : Nat} {op : Operation} {answer : op.Answer}
    (hstep : fleet.Step s (.call i op answer) s') :
    Allowed (fleet.job i).rt (s.progress i) op := by
  cases hstep with
  | call hcalls hresponds => exact (hsound.calls hcalls).1

theorem Sound.over (hsound : fleet.Sound s) {i : Nat} (hended : Ended s i) :
    (s.progress i).Over := by
  obtain ⟨result, hdone⟩ := hended
  exact hsound.conforms i _ hdone

theorem Step.wellFormed (hwf : s.table.WellFormed) (hstep : fleet.Step s a s') :
    s'.table.WellFormed := by
  cases hstep with
  | start hidle => exact hwf
  | insert hstarted hnew hsaves => exact hsaves.wellFormed hwf
  | @call i op next answer t hcalls hresponds =>
      change t.WellFormed
      cases op with
      | setDeployment record isPlan =>
          rcases hresponds with ⟨-, hsaves⟩ | ⟨-, haborts⟩
          · exact hsaves.wellFormed hwf
          · exact haborts.wellFormed hwf
      | getDeployment deploymentId environment includeDeleted => exact hresponds.1 ▸ hwf
      | getPlanDeployment deploymentId environment jobId => exact hresponds.1 ▸ hwf
      | getCurrentJobId => exact hresponds.1 ▸ hwf
      | _ =>
          have hsame : t = s.table := hresponds
          exact hsame ▸ hwf

/-- An act of a runner is known to this runner alone. -/
theorem Step.progress (hstep : fleet.Step s a s') (i : Nat) :
    s'.progress i = s.progress i ∨ ∃ op answer, a = .call i op answer ∧
      s'.progress i = (s.progress i).after (fleet.job i).rt.parseJson op answer := by
  cases hstep with
  | start hidle => exact .inl rfl
  | insert hstarted hnew hsaves => exact .inl rfl
  | @call j op next answer t hcalls hresponds =>
      by_cases hij : i = j
      · subst hij
        exact .inr ⟨op, answer, rfl, Function.update_self _ _ _⟩
      · exact .inl (Function.update_of_ne hij _ _)

/-- A runner is started, or goes on with an answer. -/
theorem Step.runner (hstep : fleet.Step s a s') (i : Nat) : s'.runner i = s.runner i ∨
    (a = .start i ∧ s.runner i = none ∧
      s'.runner i = some (runnerProgram (fleet.job i).rt)) ∨
    ∃ op next answer, a = .call i op answer ∧ s.runner i = some (.call op next) ∧
      s'.runner i = some (next answer) := by
  cases hstep with
  | @start j hidle =>
      by_cases hij : i = j
      · subst hij
        exact .inr (.inl ⟨rfl, hidle, Function.update_self _ _ _⟩)
      · exact .inl (Function.update_of_ne hij _ _)
  | insert hstarted hnew hsaves => exact .inl rfl
  | @call j op next answer t hcalls hresponds =>
      by_cases hij : i = j
      · subst hij
        exact .inr (.inr ⟨op, next, answer, rfl, hcalls, Function.update_self _ _ _⟩)
      · exact .inl (Function.update_of_ne hij _ _)

theorem Step.requested (hstep : fleet.Step s a s') (i : Nat) : s'.requested i = s.requested i ∨
    ∃ epoch, a = .insert i epoch ∧ s.runner i ≠ none ∧ s.requested i = false ∧
      s'.requested i = true := by
  cases hstep with
  | start hidle => exact .inl rfl
  | @insert j epoch t hstarted hnew hsaves =>
      by_cases hij : i = j
      · subst hij
        exact .inr ⟨epoch, rfl, hstarted, hnew, Function.update_self _ _ _⟩
      · exact .inl (Function.update_of_ne hij _ _)
  | call hcalls hresponds => exact .inl rfl

theorem Step.runner_ne_none (hstep : fleet.Step s a s') {i : Nat} (hsome : s.runner i ≠ none) :
    s'.runner i ≠ none := by
  rcases hstep.runner i with heq | ⟨-, hnone, -⟩ | ⟨op, next, answer, -, -, heq⟩
  · rw [heq]
    exact hsome
  · exact absurd hnone hsome
  · rw [heq]
    exact Option.some_ne_none _

theorem Step.next {i : Nat} {op : Operation} {answer : op.Answer}
    (hstep : fleet.Step s (.call i op answer) s') : ∃ next : op.Answer → RunnerProgram,
      s.runner i = some (.call op next) ∧ s'.runner i = some (next answer) := by
  cases hstep with
  | @call i op next answer t hcalls hresponds =>
      exact ⟨next, hcalls, Function.update_self _ _ _⟩

theorem Step.responds {i : Nat} {op : Operation} {answer : op.Answer}
    (hstep : fleet.Step s (.call i op answer) s') :
    fleet.Responds i s.table op answer s'.table := by
  cases hstep with
  | call hcalls hresponds => exact hresponds

/-- Nothing but a record that is sent changes the table. -/
theorem Step.table_eq {i : Nat} {op : Operation} {answer : op.Answer}
    (hstep : fleet.Step s (.call i op answer) s') (hsend : ¬ IsSend ⟨op, answer⟩) :
    s'.table = s.table := by
  have hresponds := hstep.responds
  cases op with
  | setDeployment record isPlan => exact absurd ⟨record, isPlan, answer, rfl⟩ hsend
  | getDeployment deploymentId environment includeDeleted => exact hresponds.1
  | getPlanDeployment deploymentId environment jobId => exact hresponds.1
  | getCurrentJobId => exact hresponds.1
  | _ => exact hresponds

theorem Step.progress_call {i : Nat} {op : Operation} {answer : op.Answer}
    (hstep : fleet.Step s (.call i op answer) s') :
    s'.progress i = (s.progress i).after (fleet.job i).rt.parseJson op answer := by
  cases hstep with
  | call hcalls hresponds => exact Function.update_self _ _ _

theorem Step.currentJobId {i : Nat} {op : Operation} {answer : op.Answer}
    (hstep : fleet.Step s (.call i op answer) s') {jobId : String}
    (hevent : (⟨op, answer⟩ : Event) = ⟨.getCurrentJobId, .value jobId⟩) :
    jobId = (fleet.job i).jobId := by
  cases hevent
  cases hstep with
  | call hcalls hresponds => exact hresponds.2 jobId rfl

/-- The job that a runner knows is its own. -/
theorem Sound.step (hsound : fleet.Sound s) (hstep : fleet.Step s a s') : fleet.Sound s' := by
  refine ⟨hstep.wellFormed hsound.wellFormed, ?_, ?_, ?_, ?_⟩
  · intro i hidle'
    have hidle : s.runner i = none := by
      by_contra hsome
      exact hstep.runner_ne_none hsome hidle'
    obtain ⟨hprogress, hrequested⟩ := hsound.idle i hidle
    constructor
    · rcases hstep.progress i with heq | ⟨op, answer, rfl, -⟩
      · exact heq.trans hprogress
      · cases hstep with
        | call hcalls hresponds =>
            rw [hidle] at hcalls
            cases hcalls
    · rcases hstep.requested i with heq | ⟨epoch, -, hsome, -⟩
      · exact heq.trans hrequested
      · exact absurd hidle hsome
  · intro i program hrunner
    rcases hstep.runner i with heq | ⟨rfl, hnone, heq⟩ | ⟨op, next, answer, rfl, hcalls, heq⟩
    · rw [heq] at hrunner
      rcases hstep.progress i with hsame | ⟨op, answer, rfl, hafter⟩
      · rw [hsame]
        exact hsound.conforms i program hrunner
      · -- A runner whose program is the same after an answer is at the same operation.
        obtain ⟨next, hcalls, hnext⟩ := hstep.next
        rw [hafter]
        obtain rfl := Option.some.inj (hrunner.symm.trans (heq.symm.trans hnext))
        exact (hsound.calls hcalls).2 answer
    · rw [heq] at hrunner
      obtain rfl := Option.some.inj hrunner
      have hsame : s'.progress i = s.progress i := by
        rcases hstep.progress i with hsame | ⟨op, answer, hact, -⟩
        · exact hsame
        · cases hact
      rw [hsame, (hsound.idle i hnone).1]
      exact runnerProgram_conforms (fleet.job i).rt
    · rw [heq] at hrunner
      obtain rfl := Option.some.inj hrunner
      rw [hstep.progress_call]
      exact (hsound.calls hcalls).2 answer
  · intro i jobId hplan
    rcases hstep.progress i with hsame | ⟨op, answer, rfl, hafter⟩
    · exact hsound.planJob i jobId (hsame ▸ hplan)
    · rw [hafter] at hplan
      rcases Progress.ids_after _ (s.progress i) op answer with hids | ⟨jobId', hevent, hids⟩
      · exact hsound.planJob i jobId ((congrArg Prod.fst hids).symm.trans hplan)
      · rcases hids with hids | hids
        · have hsome : some jobId' = some jobId := (congrArg Prod.fst hids).symm.trans hplan
          exact Option.some.inj hsome ▸ hstep.currentJobId hevent
        · exact hsound.planJob i jobId ((congrArg Prod.fst hids).symm.trans hplan)
  · intro i jobId hid
    rcases hstep.progress i with hsame | ⟨op, answer, rfl, hafter⟩
    · exact hsound.identified i jobId (hsame ▸ hid)
    · rw [hafter] at hid
      rcases Progress.ids_after _ (s.progress i) op answer with hids | ⟨jobId', hevent, hids⟩
      · exact hsound.identified i jobId ((congrArg Prod.snd hids).symm.trans hid)
      · rcases hids with hids | hids
        · exact hsound.identified i jobId ((congrArg Prod.snd hids).symm.trans hid)
        · have hsome : some jobId' = some jobId := (congrArg Prod.snd hids).symm.trans hid
          exact Option.some.inj hsome ▸ hstep.currentJobId hevent

theorem Sound.begin {t : Deployments} (hwf : t.WellFormed) : fleet.Sound (.begin t) where
  wellFormed := hwf
  idle _ _ := ⟨rfl, rfl⟩
  conforms _ program hrunner := absurd hrunner (Option.some_ne_none program).symm
  planJob _ jobId hplan := absurd hplan (Option.some_ne_none jobId).symm
  identified _ jobId hid := absurd hid (Option.some_ne_none jobId).symm

/-! ## The record of the deployment -/

/-- A record that is sent is one of the deployment. -/
theorem Sound.sent (hsound : fleet.Sound s) {i : Nat} {record : DeploymentResp} {isPlan : Bool}
    {answer : Reply Unit}
    (hstep : fleet.Step s (.call i (.setDeployment record isPlan) answer) s') :
    ∃ h epoch, Fits (fleet.job i).rt (s.progress i) h ∧
      MayReport (fleet.job i).rt (s.progress i) h.status ∧
      record = h.deployment (fleet.job i).rt.parseDuration epoch ∧
      record.identifier = fleet.identifier ∧ (isPlan = true → (fleet.job i).isPlan = true) := by
  obtain ⟨h, epoch, hfits, hmay, rfl, hplan⟩ := hsound.allowed hstep
  have hrecord : (h.deployment (fleet.job i).rt.parseDuration epoch).identifier =
      (fleet.job i).identifier ∧ h.isPlan = (fleet.job i).isPlan := hfits.deployment epoch
  obtain ⟨hid, hisPlan⟩ := hrecord
  refine ⟨h, epoch, hfits, hmay, rfl, hid.trans (fleet.identifier_eq i), fun htrue => ?_⟩
  rcases hplan with heq | ⟨hfalse, -⟩
  · rw [← hisPlan, ← heq, htrue]
  · rw [hfalse] at htrue
    cases htrue

/-- Only the acts that store a record of the deployment change it. -/
theorem Step.stored (hsound : fleet.Sound s) (hstep : fleet.Step s a s') :
    fleet.stored s' = (fleet.metadata a).or (fleet.stored s) := by
  have hwf := hsound.wellFormed
  cases hstep with
  | start hidle => rfl
  | @insert i epoch t hstarted hnew hsaves =>
      change t.stored fleet.identifier = _
      have hid : ((fleet.job i).request epoch).identifier = fleet.identifier :=
        (Job.request_identifier epoch).trans (fleet.identifier_eq i)
      rw [hsaves.stored hwf]
      change _ = (ite ((fleet.job i).isPlan = true) none (some _) : Option DeploymentResp).or _
      cases hplan : (fleet.job i).isPlan with
      | true =>
          rw [if_neg fun hand => absurd hand.2 (by rintro (heq | heq) <;> cases heq), if_pos rfl]
          rfl
      | false =>
          rw [if_pos ⟨hid, .inl rfl⟩, if_neg Bool.false_ne_true]
          rfl
  | @call i op next answer t hcalls hresponds =>
      change t.stored fleet.identifier = _
      cases op with
      | setDeployment record isPlan =>
          obtain ⟨-, -, -, -, -, hid, -⟩ := hsound.sent (.call hcalls hresponds)
          rcases hresponds with ⟨rfl, hsaves⟩ | ⟨hfailed, haborts⟩
          · rw [hsaves.stored hwf]
            change _ = (if _ then some record else none : Option DeploymentResp).or _
            by_cases hwrites : isPlan = false ∨ record.hasDrifted = true
            · rw [if_pos ⟨hid, hwrites⟩, if_pos hwrites]
              rfl
            · rw [if_neg fun hand => hwrites hand.2, if_neg hwrites]
              rfl
          · rw [haborts.stored hwf]
            cases answer with
            | value _ => exact absurd rfl hfailed
            | error e => rfl
            | panic message => rfl
      | getDeployment deploymentId environment includeDeleted => exact hresponds.1 ▸ rfl
      | getPlanDeployment deploymentId environment jobId => exact hresponds.1 ▸ rfl
      | getCurrentJobId => exact hresponds.1 ▸ rfl
      | _ =>
          have hsame : t = s.table := hresponds
          exact hsame ▸ rfl

end

end Fleet

end TerraformRunner
end InfraWeave
