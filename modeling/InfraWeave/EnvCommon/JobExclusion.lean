import InfraWeave.EnvCommon.JobSystem

/-!
# One job at a time

Nothing keeps two clients from reading the record before either has stored its own, so two jobs can
run.  When the submissions follow each other, and are stored, they cannot.
-/

namespace InfraWeave
namespace EnvCommon

open Program Request Deployments

variable {target : Target} {parseDuration : String → Option Nat}

/-! ## What a runner stores -/

/-- Until it stores its last record, the program stores only that the deployment is busy with its
own job. -/
inductive WritesAs (target : Target) (jobId : String) : Remote Unit → Prop
  | done (a : Unit) : WritesAs target jobId (.done a)
  | busy {record : DeploymentStatusHandler} {next : Except String Nat → Remote Unit}
      (hbusy : StoresBusy target jobId record)
      (hnext : ∀ answer, WritesAs target jobId (next answer)) :
      WritesAs target jobId (.call (.sendDeployment record) next)
  | last {record : DeploymentStatusHandler} {next : Except String Nat → Remote Unit}
      (hnext : ∀ answer, (next answer).HasEnded) :
      WritesAs target jobId (.call (.sendDeployment record) next)
  | self {next : Except String String → Remote Unit}
      (hnext : ∀ answer : Except String String, (∀ other, answer = .ok other → other = jobId) →
        WritesAs target jobId (next answer)) :
      WritesAs target jobId (.call .getCurrentJobId next)
  | read {deploymentId environment : String} {includeDeleted : Bool}
      {next : Except String (Option DeploymentResp) → Remote Unit}
      (hnext : ∀ answer, WritesAs target jobId (next answer)) :
      WritesAs target jobId (.call (.getDeployment deploymentId environment includeDeleted) next)
  | terraform {payload : ApiInfraPayload} {next : TerraformOutcome → Remote Unit}
      (hnext : ∀ answer, WritesAs target jobId (next answer)) :
      WritesAs target jobId (.call (.terraform payload) next)

theorem writesAs_finish (jobId : String) (record : DeploymentStatusHandler) :
    WritesAs target jobId (finish record) :=
  .last fun _ => hasEnded_done ()

/-- A runner stores that it has begun only when the stored job is its own. -/
theorem writesAs_runTerraformRunner {payload : ApiInfraPayload} (h : target.Names payload)
    (jobId : String) : WritesAs target jobId (runTerraformRunner payload) := by
  have hfailed : ∀ record errorText, WritesAs target jobId (flushFailedStatus record errorText) :=
    fun record errorText => writesAs_finish jobId _
  have hbusy : StoresBusy target "unknown_jobid" (.ofRequest ⟨payload, .null⟩ "unknown_jobid") :=
    storesBusy_ofRequest h "unknown_jobid"
  refine .read fun answer => ?_
  match answer with
  | .error e => exact hfailed _ _
  | .ok none => exact hfailed _ _
  | .ok (some deployment) =>
      refine .read fun initial => ?_
      match initial with
      | .error e => exact hfailed _ _
      | .ok initial =>
          refine .self fun current hcurrent => ?_
          match current with
          | .error e => exact hfailed _ _
          | .ok current =>
              obtain rfl := hcurrent current rfl
              dsimp only
              split
              · exact hfailed _ _
              · refine .busy ?_ fun stored => ?_
                · exact { hbusy with isBusy := rfl, jobId := rfl }
                · match stored with
                  | .error e => exact hfailed _ _
                  | .ok epoch => exact .terraform fun outcome => writesAs_finish _ _

/-! ## The invariant -/

/-- The row of the deployment says that it is busy with the job. -/
def BusyWith (target : Target) (t : Deployments) (jobId : String) : Prop :=
  ∃ d, t.live target.identifier = some d ∧ d.status.isBusy = true ∧ d.jobId = jobId

theorem busyWith_step {t : Deployments} (h : t.WellFormed) {jobId : String}
    {record : DeploymentStatusHandler} (hrecord : StoresBusy target jobId record) {epoch : Nat}
    (hok : (setDeployment t target.handler (record.deployment parseDuration epoch)
      record.isPlan).result = .ok ()) :
    BusyWith target
      (t.step ⟨target.handler, record.deployment parseDuration epoch, record.isPlan, 2⟩) jobId := by
  let call : SetDeployment :=
    ⟨target.handler, record.deployment parseDuration epoch, record.isPlan, 2⟩
  have hidentifier : call.deployment.identifier = target.identifier := by
    change getDeploymentIdentifier record.projectId record.region record.deploymentId
      record.environment = _
    rw [hrecord.projectId, hrecord.region, hrecord.deploymentId, hrecord.environment]
    rfl
  have hstored : (t.step call).stored call.deployment.identifier = some call.deployment :=
    stored_step h hrecord.noPlan (Nat.zero_lt_succ 1) hok
  refine ⟨call.deployment, ?_, hrecord.isBusy, hrecord.jobId⟩
  rw [← hidentifier, live, hstored, Option.filter_some]
  have hkept : call.deployment.deleted = false := hrecord.kept
  simp [hkept]

/-- Where a client is, and what it may rely on there. -/
inductive Placed (target : Target) (s : System) (p : Remote Unit) : Prop
  | ended (h : p.HasEnded)
  | read (h : AtRead target p)
  | status {jobId : String} (h : AtStatus target jobId p)
      (honly : ∀ other, s.Running other → other = jobId)
  | start (h : AtStart target p) (hnone : ∀ other, ¬ s.Running other)
  | store {jobId : String} (h : AtStore target jobId p)
      (honly : ∀ other, s.Running other → other = jobId)

/-- What keeps a second job from being started: a job that runs is one that the row names, or one
whose client is about to store it. -/
structure OneJob (target : Target) (s : System) : Prop where
  wellFormed : s.table.WellFormed
  runner : ∀ jobId p, s.jobs jobId = some p → WritesAs target jobId p
  client : ∀ i, Placed target s (s.clients i)
  alone : ∀ i i', s.Submitting i → s.Submitting i' → i = i'
  single : ∀ jobId jobId', s.Running jobId → s.Running jobId' → jobId = jobId'
  current : ∀ jobId, s.Running jobId →
    BusyWith target s.table jobId ∨ ∃ i, AtStore target jobId (s.clients i)

/-! ## Places -/

section

variable {s s' : System} {p : Remote Unit} {jobId : String}

theorem AtRead.not_submits (h : AtRead target p) : ¬ Submits p := by
  rintro ⟨-, hcalls⟩
  obtain ⟨next, rfl, -⟩ := h
  exact hcalls _ _ _ ⟨next, rfl⟩

theorem submits_call {op : Request} {next : op.Answer → Remote Unit}
    (h : ∀ deploymentId environment includeDeleted,
      op ≠ .getDeployment deploymentId environment includeDeleted) : Submits (.call op next) := by
  refine ⟨not_hasEnded_call _ _, fun deploymentId environment includeDeleted => ?_⟩
  rintro ⟨next', heq⟩
  injection heq with hop
  exact h _ _ _ hop

theorem Placed.mono (h : Placed target s p)
    (hrunning : ∀ jobId, s'.Running jobId → s.Running jobId) : Placed target s' p := by
  cases h with
  | ended h => exact .ended h
  | read h => exact .read h
  | status h honly => exact .status h fun other hother => honly other (hrunning other hother)
  | start h hnone => exact .start h fun other hother => hnone other (hrunning other hother)
  | store h honly => exact .store h fun other hother => honly other (hrunning other hother)

/-- A client that is not submitting relies on nothing. -/
theorem Placed.of_not_submits (h : Placed target s p) (hnot : ¬ Submits p) :
    Placed target s' p := by
  cases h with
  | ended h => exact .ended h
  | read h => exact .read h
  | status h =>
      obtain ⟨next, rfl, -⟩ := h
      exact absurd (submits_call fun _ _ _ heq => by cases heq) hnot
  | start h =>
      obtain ⟨payload, next, rfl, -⟩ := h
      exact absurd (submits_call fun _ _ _ heq => by cases heq) hnot
  | store h =>
      obtain ⟨record, next, rfl, -⟩ := h
      exact absurd (submits_call fun _ _ _ heq => by cases heq) hnot

end

/-! ## Steps -/

namespace OneJob

variable {s : System} {i : Nat} {jobId : String}

/-- A client goes on, and nothing else changes. -/
theorem withClient (h : OneJob target s) {p : Remote Unit} (hplaced : Placed target s p)
    (halone : Submits p → ∀ other, other ≠ i → ¬ s.Submitting other)
    (hcurrent : ∀ jobId, s.Running jobId → AtStore target jobId (s.clients i) →
      BusyWith target s.table jobId) :
    OneJob target { s with clients := Function.update s.clients i p } where
  wellFormed := h.wellFormed
  runner := h.runner
  client other := by
    change Placed target _ (Function.update s.clients i p other)
    by_cases hother : other = i
    · rw [hother, Function.update_self]
      exact hplaced.mono fun _ hrunning => hrunning
    · rw [Function.update_of_ne hother]
      exact (h.client other).mono fun _ hrunning => hrunning
  alone := by
    have hold : ∀ other, other ≠ i →
        Submits (Function.update s.clients i p other) → s.Submitting other := by
      intro other hother hsubmits
      rwa [Function.update_of_ne hother] at hsubmits
    intro first second hfirst hsecond
    change Submits (Function.update s.clients i p first) at hfirst
    change Submits (Function.update s.clients i p second) at hsecond
    by_cases hi : first = i
    · subst hi
      rw [Function.update_self] at hfirst
      by_contra hne
      have hne' : second ≠ first := fun heq => hne heq.symm
      exact halone hfirst second hne' (hold second hne' hsecond)
    · by_cases hi' : second = i
      · subst hi'
        rw [Function.update_self] at hsecond
        exact absurd (hold first hi hfirst) (halone hsecond first hi)
      · exact h.alone first second (hold first hi hfirst) (hold second hi' hsecond)
  single := h.single
  current jobId hrunning := by
    rcases h.current jobId hrunning with hbusy | ⟨other, hstore⟩
    · exact Or.inl hbusy
    · by_cases hother : other = i
      · subst hother
        exact Or.inl (hcurrent jobId hrunning hstore)
      · refine Or.inr ⟨other, ?_⟩
        simpa [Function.update_of_ne hother] using hstore

/-- The table changes, and what runs is the job that its row is busy with. -/
theorem withTable (h : OneJob target s) {t : Deployments} (ht : t.WellFormed)
    (hbusy : ∀ jobId, s.Running jobId → BusyWith target t jobId) :
    OneJob target { s with table := t } where
  wellFormed := ht
  runner := h.runner
  client other := (h.client other).mono fun _ hrunning => hrunning
  alone := h.alone
  single := h.single
  current jobId hrunning := Or.inl (hbusy jobId hrunning)

theorem running_of_withJob {p q : Remote Unit} (hjob : s.jobs jobId = some p)
    (hended : p.HasEnded → q.HasEnded) {other : String}
    (hrunning : System.Running { s with jobs := Function.update s.jobs jobId (some q) } other) :
    s.Running other := by
  obtain ⟨q', hq', hnot⟩ := hrunning
  by_cases hother : other = jobId
  · subst hother
    refine ⟨p, hjob, fun hp => hnot ?_⟩
    obtain rfl : q = q' := by simpa using hq'
    exact hended hp
  · exact ⟨q', by simpa [Function.update_of_ne hother] using hq', hnot⟩

/-- A job goes on. -/
theorem withJob (h : OneJob target s) {p q : Remote Unit} (hjob : s.jobs jobId = some p)
    (hended : p.HasEnded → q.HasEnded) (hwrites : WritesAs target jobId q) :
    OneJob target { s with jobs := Function.update s.jobs jobId (some q) } where
  wellFormed := h.wellFormed
  runner other r hr := by
    by_cases hother : other = jobId
    · subst hother
      obtain rfl : q = r := by simpa using hr
      exact hwrites
    · exact h.runner other r (by simpa [Function.update_of_ne hother] using hr)
  client other := (h.client other).mono fun _ => running_of_withJob hjob hended
  alone := h.alone
  single first second hfirst hsecond :=
    h.single first second (running_of_withJob hjob hended hfirst)
      (running_of_withJob hjob hended hsecond)
  current other hrunning := h.current other (running_of_withJob hjob hended hrunning)

/-- A job is started while none runs, and its client is about to store it. -/
theorem withNewJob (h : OneJob target s) {p q : Remote Unit} (hsubmitting : s.Submitting i)
    (hnone : ∀ other, ¬ s.Running other) (hwrites : WritesAs target jobId q)
    (hstore : AtStore target jobId p) :
    OneJob target
      { s with
        jobs := Function.update s.jobs jobId (some q)
        clients := Function.update s.clients i p } := by
  have honly : ∀ other,
      System.Running { s with jobs := Function.update s.jobs jobId (some q) } other →
        other = jobId := by
    rintro other ⟨r, hr, hnot⟩
    by_contra hother
    exact hnone other ⟨r, by simpa [Function.update_of_ne hother] using hr, hnot⟩
  have hothers : ∀ other, other ≠ i → ¬ s.Submitting other :=
    fun other hother hsubmits => hother (h.alone other i hsubmits hsubmitting)
  refine
    { wellFormed := h.wellFormed
      runner := fun other r hr => ?_
      client := fun other => ?_
      alone := fun first second hfirst hsecond => ?_
      single := fun first second hfirst hsecond =>
        (honly first hfirst).trans (honly second hsecond).symm
      current := fun other hrunning => ?_ }
  · by_cases hother : other = jobId
    · subst hother
      obtain rfl : q = r := by simpa using hr
      exact hwrites
    · exact h.runner other r (by simpa [Function.update_of_ne hother] using hr)
  · change Placed target _ (Function.update s.clients i p other)
    by_cases hother : other = i
    · rw [hother, Function.update_self]
      exact .store hstore honly
    · rw [Function.update_of_ne hother]
      exact (h.client other).of_not_submits (hothers other hother)
  · have hi : ∀ other, Submits (Function.update s.clients i p other) → other = i := by
      intro other hsubmits
      by_contra hother
      rw [Function.update_of_ne hother] at hsubmits
      exact hothers other hother hsubmits
    exact (hi first hfirst).trans (hi second hsecond).symm
  · obtain rfl := honly other hrunning
    exact Or.inr ⟨i, by simpa using hstore⟩

/-! ### Clients -/

variable {answer : Except String (Option DeploymentResp)}

/-- A job that runs is the one that a client reads, when no other one is submitting. -/
theorem busyWith_of_read (h : OneJob target s) (hread : AtRead target (s.clients i))
    (hothers : ∀ other, other ≠ i → ¬ s.Submitting other) (hrunning : s.Running jobId) :
    BusyWith target s.table jobId := by
  rcases h.current jobId hrunning with hbusy | ⟨other, record, next, hcall, -⟩
  · exact hbusy
  · have hsubmits : s.Submitting other := by
      rw [System.Submitting, hcall]
      exact submits_call fun _ _ _ heq => by cases heq
    by_cases hother : other = i
    · subst hother
      exact absurd hsubmits hread.not_submits
    · exact absurd hsubmits (hothers other hother)

theorem read_eq (h : OneJob target s) (hbusy : BusyWith target s.table jobId)
    (hpossible : Possible target parseDuration s none
      (.getDeployment target.deploymentId target.environment false) answer)
    (herror : ∀ e, answer ≠ .error e) :
    ∃ d, answer = .ok (some d) ∧ d.status.isBusy = true ∧ d.jobId = jobId := by
  obtain ⟨d, hlive, hstatus, hjob⟩ := hbusy
  rcases hpossible with heq | ⟨e, heq⟩
  · refine ⟨d, ?_, hstatus, hjob⟩
    rw [heq, getDeployment_eq _ _ _ h.wellFormed, ← hlive]
    simp only [Bool.false_or]
    rfl
  · exact absurd heq (herror e)

theorem read (h : OneJob target s)
    {next : Except String (Option DeploymentResp) → Remote Unit}
    (hcall : s.clients i = .call (.getDeployment target.deploymentId target.environment false) next)
    (hread : AtRead target (s.clients i))
    (hpossible : Possible target parseDuration s none
      (.getDeployment target.deploymentId target.environment false) answer)
    (hsequential : Sequential s
      (.client i (.getDeployment target.deploymentId target.environment false) answer)) :
    OneJob target { s with clients := Function.update s.clients i (next answer) } := by
  obtain ⟨hothers, hfailed⟩ := hsequential
  have hread' := hread
  obtain ⟨next', heq, hplace⟩ := hread'
  obtain rfl : next = next' := by
    rw [hcall] at heq
    injection heq
  -- What runs is what the answer names.
  have hrunning : ∀ jobId, s.Running jobId →
      ∃ d, answer = .ok (some d) ∧ d.status.isBusy = true ∧ d.jobId = jobId := by
    intro jobId hrunning
    refine read_eq h (busyWith_of_read h hread hothers hrunning) hpossible fun e he => ?_
    exact hfailed ⟨e, he⟩ jobId hrunning
  refine h.withClient ?_ (fun _ => hothers) fun jobId _ ⟨record, next', heq, _⟩ => ?_
  · rcases hplace answer with hended | ⟨hstart, hfree⟩ | ⟨d, hd, hstatus⟩
    · exact .ended hended
    · refine .start hstart fun jobId hjob => ?_
      obtain ⟨d, hd, hbusy, -⟩ := hrunning jobId hjob
      rw [hfree d hd] at hbusy
      cases hbusy
    · refine .status hstatus fun jobId hjob => ?_
      obtain ⟨d', hd', -, hjobId⟩ := hrunning jobId hjob
      rw [hd] at hd'
      cases hd'
      exact hjobId.symm
  · rw [hcall] at heq
    injection heq with hop
    cases hop

theorem submitting_of_call {op : Request} {next : op.Answer → Remote Unit}
    (hcall : s.clients i = .call op next)
    (hop : ∀ deploymentId environment includeDeleted,
      op ≠ .getDeployment deploymentId environment includeDeleted) : s.Submitting i := by
  rw [System.Submitting, hcall]
  exact submits_call hop

/-- A submitting client goes on, and is not about to store the record of its request. -/
theorem goOn (h : OneJob target s) {op : Request} {next : op.Answer → Remote Unit} {p : Remote Unit}
    (hcall : s.clients i = .call op next) (hsubmitting : s.Submitting i)
    (hop : ∀ record, op ≠ .sendDeployment record) (hplaced : Placed target s p) :
    OneJob target { s with clients := Function.update s.clients i p } := by
  refine h.withClient hplaced (fun _ other hother hsubmits => ?_) fun jobId _ hstore => ?_
  · exact hother (h.alone other i hsubmits hsubmitting)
  · obtain ⟨record, next', heq, -⟩ := hstore
    rw [hcall] at heq
    injection heq with heq
    exact absurd heq (hop record)

theorem run (h : OneJob target s) {payload : ApiInfraPayload}
    {next : Except String RunnerResponse → Remote Unit} {answer : Except String RunnerResponse}
    (hcall : s.clients i = .call (.runFunction payload) next)
    (hstart : AtStart target (s.clients i)) (hnone : ∀ other, ¬ s.Running other)
    (hpossible : Possible target parseDuration s none (.runFunction payload) answer) :
    OneJob target
      { s.after target parseDuration (.runFunction payload) answer with
        clients := Function.update s.clients i (next answer) } := by
  have hsubmitting : s.Submitting i := submitting_of_call hcall fun _ _ _ heq => by cases heq
  obtain ⟨payload', next', heq, hnames, herror, hstore⟩ := hstart
  rw [hcall] at heq
  cases heq
  match answer with
  | .error e =>
      exact h.goOn hcall hsubmitting (fun _ heq => by cases heq) (.ended (herror e))
  | .ok response =>
      obtain ⟨jobId, hjob, hne, -⟩ := hpossible response rfl
      have hafter : s.after target parseDuration (.runFunction payload) (.ok response) =
          { s with jobs := Function.update s.jobs jobId (some (runTerraformRunner payload)) } := by
        simp [System.after, hjob]
      rw [hafter]
      exact h.withNewJob hsubmitting hnone (writesAs_runTerraformRunner hnames jobId)
        (hstore response jobId hjob hne)

theorem store (h : OneJob target s) {record : DeploymentStatusHandler}
    {next : Except String Nat → Remote Unit} {answer : Except String Nat}
    (hrecord : StoresBusy target jobId record) (hended : ∀ answer, (next answer).HasEnded)
    (honly : ∀ other, s.Running other → other = jobId)
    (hpossible : Possible target parseDuration s none (.sendDeployment record) answer)
    (hsequential : Sequential s (.client i (.sendDeployment record) answer)) :
    OneJob target
      { s.after target parseDuration (.sendDeployment record) answer with
        clients := Function.update s.clients i (next answer) } := by
  match answer with
  | .error e =>
      refine h.withClient (.ended (hended _)) (fun hsubmits => ?_) fun other hrunning _ => ?_
      · exact absurd (hended _) hsubmits.1
      · exact absurd hrunning (hsequential ⟨e, rfl⟩ other)
  | .ok epoch =>
      have hbusy := busyWith_step h.wellFormed hrecord (hpossible epoch rfl)
      have hrunning : ∀ other, s.Running other → BusyWith target (s.table.step
          ⟨target.handler, record.deployment parseDuration epoch, record.isPlan, 2⟩) other := by
        intro other hother
        rw [honly other hother]
        exact hbusy
      refine (h.withTable (h.wellFormed.step _) hrunning).withClient (.ended (hended _))
        (fun hsubmits => ?_) fun other hother _ => hrunning other hother
      exact absurd (hended _) hsubmits.1

theorem client_step (h : OneJob target s) {op : Request} {answer : op.Answer}
    {next : op.Answer → Remote Unit} (hcall : s.clients i = .call op next)
    (hpossible : Possible target parseDuration s none op answer)
    (hsequential : Sequential s (.client i op answer)) :
    OneJob target
      { s.after target parseDuration op answer with
        clients := Function.update s.clients i (next answer) } := by
  have hplaced := h.client i
  cases hplaced with
  | ended hended =>
      rw [hcall] at hended
      exact absurd hended (not_hasEnded_call _ _)
  | read hread =>
      obtain ⟨next', heq, -⟩ := id hread
      rw [hcall] at heq
      cases heq
      exact h.read hcall hread hpossible hsequential
  | status hstatus honly =>
      obtain ⟨next', heq, hplace⟩ := hstatus
      rw [hcall] at heq
      cases heq
      refine h.goOn hcall (submitting_of_call hcall fun _ _ _ heq => by cases heq)
        (fun _ heq => by cases heq) ?_
      rcases hplace answer with hended | ⟨hstart, status, hanswer, hstopped⟩
      · exact .ended hended
      · refine .start hstart fun other hother => ?_
        -- The only job that could run is the one that has been asked for.
        have hjob := honly other hother
        exact hpossible status hanswer hstopped (hjob ▸ hother)
  | start hstart hnone =>
      obtain ⟨payload, next', heq, -⟩ := id hstart
      rw [hcall] at heq
      cases heq
      exact h.run hcall hstart hnone hpossible
  | store hstore honly =>
      obtain ⟨record, next', heq, hrecord, hended⟩ := hstore
      rw [hcall] at heq
      cases heq
      exact h.store hrecord hended honly hpossible hsequential

/-! ### Jobs -/

theorem job_step (h : OneJob target s) {op : Request} {answer : op.Answer}
    {next : op.Answer → Remote Unit} (hcall : s.jobs jobId = some (.call op next))
    (hpossible : Possible target parseDuration s (some jobId) op answer) :
    OneJob target
      { s.after target parseDuration op answer with
        jobs := Function.update (s.after target parseDuration op answer).jobs jobId
          (some (next answer)) } := by
  have hrunning : s.Running jobId := ⟨_, hcall, not_hasEnded_call _ _⟩
  have hnever : (Program.call op next).HasEnded → (next answer).HasEnded :=
    fun hended => absurd hended (not_hasEnded_call _ _)
  have hwrites := h.runner jobId _ hcall
  cases hwrites with
  | @busy record next hbusy hnext =>
      match answer with
      | .error e => exact h.withJob hcall hnever (hnext _)
      | .ok epoch =>
          have hstored := busyWith_step h.wellFormed hbusy (hpossible epoch rfl)
          refine (h.withTable (h.wellFormed.step _) fun other hother => ?_).withJob hcall hnever
            (hnext _)
          rw [h.single other jobId hother hrunning]
          exact hstored
  | @last record next hended =>
      have hstopped := h.withJob (q := next answer) hcall hnever (by
        obtain ⟨a, ha⟩ := hended answer
        rw [ha]
        exact .done a)
      match answer with
      | .error e => exact hstopped
      | .ok epoch =>
          -- The job was the only one that ran, and has ended.
          refine hstopped.withTable (h.wellFormed.step _) fun other hother => ?_
          have hold := running_of_withJob hcall hnever hother
          obtain rfl := h.single other jobId hold hrunning
          obtain ⟨q, hq, hnot⟩ := hother
          obtain rfl : next (.ok epoch) = q := by simpa using hq
          exact absurd (hended _) hnot
  | self hnext =>
      refine h.withJob hcall hnever (hnext answer fun other hother => ?_)
      exact (Option.some.inj (hpossible other hother)).symm
  | read hnext => exact h.withJob hcall hnever (hnext answer)
  | terraform hnext => exact h.withJob hcall hnever (hnext answer)

theorem step (h : OneJob target s) {event : Event} {s' : System} (hsequential : Sequential s event)
    (hstep : Step target parseDuration s event s') : OneJob target s' := by
  cases hstep with
  | client hcall hpossible => exact h.client_step hcall hpossible hsequential
  | job hcall hpossible => exact h.job_step hcall hpossible
  | stop hjob => exact h.withJob hjob (fun _ => hasEnded_done ()) (.done ())

end OneJob

theorem oneJob_start {t : Deployments} (ht : t.WellFormed) (submissions : Nat → Submission target) :
    OneJob target (System.start t submissions) where
  wellFormed := ht
  runner jobId p hp := by cases hp
  client i := .read (atRead_program (submissions i))
  alone i i' hi := absurd hi (atRead_program (submissions i)).not_submits
  single jobId jobId' := by
    rintro ⟨p, hp, -⟩
    cases hp
  current jobId := by
    rintro ⟨p, hp, -⟩
    cases hp

def webRequest : ApiInfraPayloadWithVariables where
  payload :=
    { command := "apply"
      flags := []
      module := "web"
      moduleVersion := "1.0.0"
      moduleType := "module"
      moduleTrack := "stable"
      name := "a"
      environment := "cli/default"
      deploymentId := "web/a"
      projectId := localWorkload.projectId
      region := localWorkload.region
      driftDetection := .default
      nextDriftCheckEpoch := -1
      annotations := .null
      dependencies := []
      initiatedBy := "cli"
      cpu := "256"
      memory := "512"
      reference := ""
      extraData := .null }
  vars := .object []

def webTarget : Target :=
  ⟨localWorkload, "web/a", "cli/default"⟩

def webSubmission : Submission webTarget where
  prepared := webRequest
  names := ⟨rfl, rfl, rfl, rfl, Or.inl rfl⟩
  route := .submitClaimJob

/-- Nothing is stored yet, and every client submits the same claim. -/
def webStart : System :=
  .start .empty fun _ => webSubmission

def noDuration : String → Option Nat :=
  fun _ => none

def readWeb : Request :=
  .getDeployment "web/a" "cli/default" false

def webRecord (jobId : String) (status : DeploymentStatus) : DeploymentStatusHandler :=
  { DeploymentStatusHandler.ofRequest webRequest jobId with status }

end EnvCommon
end InfraWeave
