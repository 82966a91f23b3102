import InfraWeave.EnvCommon.DeploymentIdentity
import InfraWeave.EnvCommon.DriftCheck
import InfraWeave.TerraformRunner.StaleRunners

/-!
# Drift checks of a deployment

A drift check is made from the record of the deployment, and stores what it was made from in that
record when it ends.  The record should go on holding what the latest apply or destroy has stored.
-/

namespace InfraWeave
namespace TerraformRunner

open EnvCommon

/-! ## What is decided by an apply or a destroy -/

structure Contents where
  deleted : Bool
  moduleVersion : String
  moduleTrack : String
  vars : Json
  dependencies : List Dependency
  reference : String

def contents (record : DeploymentResp) : Contents where
  deleted := record.deleted
  moduleVersion := record.moduleVersion
  moduleTrack := record.moduleTrack
  vars := record.vars
  dependencies := record.dependencies
  reference := record.reference

/-- What the request of a job asks for. -/
def Job.contents (job : Job) : Contents where
  deleted := false
  moduleVersion := job.rt.payload.moduleVersion
  moduleTrack := job.rt.payload.moduleTrack
  vars := job.vars
  dependencies := job.rt.payload.dependencies
  reference := job.rt.payload.reference

/-- A drift check may change whether the deployment has drifted, how the check went, and when the
next one is due. -/
def driftFields (record check : DeploymentResp) : DeploymentResp :=
  { record with
    hasDrifted := check.hasDrifted
    status := check.status
    errorText := check.errorText
    nextDriftCheckEpoch := check.nextDriftCheckEpoch }

def OnlyDrift (before after : Option DeploymentResp) : Prop :=
  after = before ∨
    ∃ record check, before = some record ∧ after = some check ∧ check = driftFields record check

namespace Fleet

/-! ## Runs with drift checks -/

/-- The runners, the record that an apply or a destroy has stored last, and the jobs that were made
as drift checks. -/
structure DriftHistory where
  state : State
  latest : Option DeploymentResp
  checked : Nat → Bool

inductive DriftAct where
  | check (i : Nat)
  | act (a : Act)

variable (fleet : Fleet)

def DriftHistory.begin (t : Deployments) : DriftHistory where
  state := .begin t
  latest := t.stored fleet.identifier
  checked _ := false

def IsCheck (i : Nat) : Prop :=
  IsDriftCheck (fleet.job i).rt

/-- The record of the deployment that an apply or a destroy stores by an act. -/
def change : Act → Option DeploymentResp
  | .call i op answer =>
      if (fleet.job i).isPlan then none else fleet.metadata (.call i op answer)
  | a => fleet.metadata a

/-- A drift check is made from the record that is read, and is started after that. -/
inductive DriftStep : DriftHistory → DriftAct → DriftHistory → Prop
  | check {h : DriftHistory} {i : Nat} {services : ClaimServices} {extraData : Json}
      (hidle : h.state.runner i = none) (hnew : h.checked i = false)
      (hrequest : driftcheckRequest services fleet.handler h.state.table
        (fleet.job i).rt.payload.deploymentId (fleet.job i).rt.payload.environment false extraData =
          .ok ⟨(fleet.job i).rt.payload, (fleet.job i).vars⟩) :
      DriftStep h (.check i) { h with checked := Function.update h.checked i true }
  | act {h : DriftHistory} {a : Act} {s' : State} (hstep : fleet.Step h.state a s')
      (hchecked : ∀ i, a = .start i → fleet.IsCheck i → h.checked i = true) :
      DriftStep h (.act a)
        { state := s', latest := (fleet.change a).or h.latest, checked := h.checked }

/-! ## What is asked -/

/-- The record of the deployment holds what the latest apply or destroy has stored. -/
def HoldsLatest (h : DriftHistory) : Prop :=
  (fleet.stored h.state).map contents = h.latest.map contents

/-- An apply or a destroy stores the record of the deployment when every drift check that was made
has ended. -/
def Undisturbed (h : DriftHistory) : DriftAct → Prop
  | .check _ => True
  | .act a => (fleet.change a).isSome = true → ∀ i, h.checked i = true → Ended h.state i

/-! ## What is kept -/

structure Current (h : DriftHistory) : Prop where
  sound : fleet.Sound h.state
  latest : fleet.HoldsLatest h
  checked : ∀ i, fleet.IsCheck i → h.state.runner i ≠ none → h.checked i = true
  fresh : ∀ i, h.checked i = true → ¬ Ended h.state i →
    (fleet.stored h.state).map contents = some (fleet.job i).contents
  own : ∀ i record, (fleet.job i).isPlan = true → fleet.own h.state i = some record →
    record.vars = (fleet.job i).vars
  initial : ∀ i, (h.state.progress i).initial.isSome = true →
    (h.state.progress i).source.isSome = true
  source : ∀ i record, (fleet.job i).isPlan = true → (h.state.progress i).source = some record →
    record.vars = (fleet.job i).vars

end Fleet

/-! ## The source of the variables -/

/-- The record from which the variables are taken is read from the row of the plan, or is the first
record that is read. -/
theorem Progress.source_after (parseJson : String → Except String Json) (p : Progress)
    (op : Operation) (answer : op.Answer) :
    ((p.after parseJson op answer).source = p.source ∧
      ((p.after parseJson op answer).initial = p.initial ∨ p.source.isSome = true)) ∨
    (∃ deploymentId environment jobId found,
      (⟨op, answer⟩ : Event) =
        ⟨.getPlanDeployment deploymentId environment jobId, .value found⟩ ∧
      (p.after parseJson op answer).source = found ∧
        (p.after parseJson op answer).initial = p.initial) ∨
    ∃ deploymentId environment includeDeleted found,
      (⟨op, answer⟩ : Event) =
        ⟨.getDeployment deploymentId environment includeDeleted, .value found⟩ ∧
      p.source = none ∧ (p.after parseJson op answer).source = found ∧
        (p.after parseJson op answer).initial = p.initial := by
  have hfailed : p.failed.source = p.source ∧ p.failed.initial = p.initial := by
    unfold Progress.failed
    split
    · exact ⟨rfl, rfl⟩
    · exact ⟨rfl, rfl⟩
  cases op with
  | getPlanDeployment deploymentId environment jobId =>
      cases answer with
      | value found => exact .inr (.inl ⟨_, _, _, found, rfl, rfl, rfl⟩)
      | error e => exact .inl ⟨hfailed.1, .inl hfailed.2⟩
      | panic message => exact .inl ⟨hfailed.1, .inl hfailed.2⟩
  | getDeployment deploymentId environment includeDeleted =>
      cases answer with
      | error e => exact .inl ⟨hfailed.1, .inl hfailed.2⟩
      | panic message => exact .inl ⟨hfailed.1, .inl hfailed.2⟩
      | value found =>
          cases hsource : p.source with
          | none =>
              have hread : p.read deploymentId environment found = { p with source := found } :=
                if_pos (by rw [hsource]; rfl)
              refine .inr (.inr ⟨_, _, _, found, rfl, rfl, ?_⟩)
              change (p.read deploymentId environment found).source = found ∧
                (p.read deploymentId environment found).initial = p.initial
              rw [hread]
              exact ⟨rfl, rfl⟩
          | some record =>
              refine .inl ⟨?_, .inr rfl⟩
              change (p.read deploymentId environment found).source = some record
              unfold Progress.read
              rw [if_neg (by rw [hsource]; exact Bool.false_ne_true)]
              split
              · exact hsource
              · split
                · exact hsource
                · exact hsource
  | getCurrentJobId =>
      cases answer with
      | error e => exact .inl ⟨hfailed.1, .inl hfailed.2⟩
      | panic message => exact .inl ⟨hfailed.1, .inl hfailed.2⟩
      | value jobId =>
          refine .inl ?_
          change (if _ then _ else _ : Progress).source = _ ∧
            ((if _ then _ else _ : Progress).initial = _ ∨ _)
          split
          · exact ⟨rfl, .inl rfl⟩
          · exact ⟨rfl, .inl rfl⟩
  | setDeployment record isPlan =>
      cases answer with
      | value _ => exact .inl ⟨rfl, .inl rfl⟩
      | error e => exact .inl ⟨rfl, .inl rfl⟩
      | panic message => exact .inl ⟨rfl, .inl rfl⟩
  | _ =>
      rcases Progress.after_local parseJson p (by trivial) answer with hcore | heq
      · simp only [Progress.core, Prod.mk.injEq] at hcore
        exact .inl ⟨hcore.2.1, .inl hcore.2.2.2.1⟩
      · rw [heq]
        exact .inl ⟨hfailed.1, .inl hfailed.2⟩

namespace Fleet

section

variable {fleet : Fleet} {h h' : DriftHistory} {s s' : State} {i : Nat}

/-! ## Acts -/

theorem change_cases (fleet : Fleet) (a : Act) : fleet.change a = fleet.metadata a ∨
    ∃ i op answer, a = .call i op answer ∧ (fleet.job i).isPlan = true ∧
      fleet.change a = none := by
  cases a with
  | start i => exact .inl rfl
  | insert i epoch => exact .inl rfl
  | call i op answer =>
      cases hplan : (fleet.job i).isPlan with
      | true => exact .inr ⟨i, op, answer, rfl, hplan, if_pos hplan⟩
      | false =>
          have hnot : ¬ (fleet.job i).isPlan = true := by
            rw [hplan]
            exact Bool.false_ne_true
          exact .inl (if_neg hnot)

/-- Of the plans, only a drift check stores a record of the deployment: what was asked for, with the
variables that it has read. -/
theorem Sound.metadata_plan (hsound : fleet.Sound s) (hplan : (fleet.job i).isPlan = true)
    {op : Operation} {answer : op.Answer} (hstep : fleet.Step s (.call i op answer) s')
    {record : DeploymentResp} (hmeta : fleet.metadata (.call i op answer) = some record) :
    fleet.IsCheck i ∧ record.jobId = (fleet.job i).jobId ∧
      ∃ source, (s.progress i).source = some source ∧
        contents record = { (fleet.job i).contents with vars := source.vars } := by
  cases op with
  | setDeployment record' isPlan =>
      cases answer with
      | error e => cases hmeta
      | panic message => cases hmeta
      | value _ =>
          change (if _ then some record' else none) = _ at hmeta
          split at hmeta
          · rename_i hwrites
            obtain rfl := Option.some.inj hmeta
            obtain ⟨handler, epoch, hfits, -, heq, hisPlan⟩ := hsound.allowed hstep
            have hcommand : (fleet.job i).rt.payload.command = "plan" := of_decide_eq_true hplan
            have hcheck : IsDriftCheck (fleet.job i).rt ∧
                (s.progress i).identified.isSome = true := by
              rcases hwrites with hfalse | hdrifted
              · rcases hisPlan with hsame | ⟨-, hmarked, -⟩
                · -- The record of a plan goes to the row of the plan.
                  have hrecord : (handler.deployment (fleet.job i).rt.parseDuration
                      epoch).identifier = (fleet.job i).identifier ∧
                        handler.isPlan = (fleet.job i).isPlan := hfits.deployment epoch
                  rw [hrecord.2, hplan, hfalse] at hsame
                  cases hsame
                · exact hfits.isDriftCheck hmarked
              · rw [heq] at hdrifted
                exact hfits.hasDrifted hdrifted
            obtain ⟨hcheck, hknown⟩ := hcheck
            obtain ⟨source, hsource⟩ := Option.isSome_iff_exists.1 (hfits.source hknown)
            refine ⟨hcheck, hsound.sent_jobId hstep hknown, source, hsource, ?_⟩
            have hvars : handler.vars = source.vars := by
              rw [hfits.vars, hsource]
              rfl
            have hdeleted : handler.deleted = false := by
              refine Bool.eq_false_iff.2 fun hdeleted => ?_
              have hdestroy := (hfits.deleted hdeleted).1
              rw [hcommand] at hdestroy
              exact absurd hdestroy (by decide)
            have hsame := hfits.unchanged
            rw [heq]
            change (⟨handler.deleted, handler.moduleVersion, handler.moduleTrack, handler.vars,
              handler.dependencies, handler.reference⟩ : Contents) = _
            rw [hdeleted, hvars, hsame.moduleVersion, hsame.moduleTrack, hsame.dependencies,
              hsame.reference]
            rfl
          · cases hmeta
  | _ => cases hmeta

/-! ## What drift checks are made from -/

/-- The row of a plan holds the variables that were submitted. -/
theorem Current.own_step (hcurrent : fleet.Current h) {a : Act} (hstep : fleet.Step h.state a s')
    (hplan : (fleet.job i).isPlan = true) {record : DeploymentResp}
    (hown : fleet.own s' i = some record) : record.vars = (fleet.job i).vars := by
  have hsound := hcurrent.sound
  rcases hsound.own_plan hstep hplan with hsame | ⟨new, hnew, hjobId, hact⟩
  · exact hcurrent.own i record hplan (hsame.symm.trans hown)
  obtain rfl := Option.some.inj (hnew.symm.trans hown)
  rcases hact with ⟨epoch, -, rfl⟩ | ⟨k, answer, rfl⟩
  · rfl
  · -- A runner that does not know its job stores its record under no job's name.
    obtain ⟨handler, epoch, hfits, -, rfl, -⟩ := hsound.sent hstep
    have hnamed : handler.jobId = (fleet.job i).jobId := hjobId
    rw [hfits.jobId] at hnamed
    cases hid : (h.state.progress k).identified with
    | none =>
        rw [hid] at hnamed
        exact absurd hnamed.symm (fleet.job i).named
    | some jobId =>
        rw [hid] at hnamed
        have hk := hsound.identified k jobId hid
        obtain rfl := fleet.distinct k i (hk.symm.trans hnamed)
        have hknown : (h.state.progress k).identified.isSome = true := by
          rw [hid]
          rfl
        obtain ⟨source, hsource⟩ := Option.isSome_iff_exists.1 (hfits.source hknown)
        have hvars : handler.vars = source.vars := by
          rw [hfits.vars, hsource]
          rfl
        exact hvars.trans (hcurrent.source k source hplan hsource)

/-- The row of a plan is found under the name of its job. -/
theorem own_of_getPlanDeployment (hsound : fleet.Sound s) (hplan : (fleet.job i).isPlan = true)
    {deploymentId environment jobId : String} {record : DeploymentResp}
    (hstep : fleet.Step s
      (.call i (.getPlanDeployment deploymentId environment jobId) (.value (some record))) s') :
    fleet.own s i = some record := by
  obtain ⟨-, -, hjob, -, rfl, rfl⟩ := hsound.allowed hstep
  obtain ⟨item, hitem, hrecord⟩ := item_of_getPlanDeployment (hstep.responds.2 _ rfl)
  refine Job.own_eq_some.2 ⟨item, ?_, hrecord⟩
  have hkey : (fleet.job i).key = ⟨"PLAN#" ++ (fleet.job i).identifier, jobId⟩ := by
    rw [Job.key, if_pos hplan, hsound.planJob i jobId hjob]
  rw [hkey, ← hitem, ← fleet.handler_eq i]
  rfl

theorem Current.source_step (hcurrent : fleet.Current h) {a : Act}
    (hstep : fleet.Step h.state a s') (i : Nat) :
    ((s'.progress i).initial.isSome = true → (s'.progress i).source.isSome = true) ∧
      ∀ record, (fleet.job i).isPlan = true → (s'.progress i).source = some record →
        record.vars = (fleet.job i).vars := by
  have hsound := hcurrent.sound
  rcases hstep.progress i with hsame | ⟨op, answer, rfl, hafter⟩
  · rw [hsame]
    exact ⟨hcurrent.initial i, fun record => hcurrent.source i record⟩
  rw [hafter]
  rcases Progress.source_after (fleet.job i).rt.parseJson (h.state.progress i) op answer with
    ⟨hsource, hinitial⟩ | ⟨deploymentId, environment, jobId, found, hevent, hfound, hinitial⟩ |
      ⟨deploymentId, environment, includeDeleted, found, hevent, hnone, hfound, hinitial⟩
  · rw [hsource]
    refine ⟨fun hsome => ?_, fun record => hcurrent.source i record⟩
    rcases hinitial with heq | hset
    · rw [heq] at hsome
      exact hcurrent.initial i hsome
    · exact hset
  · cases hevent
    obtain ⟨-, hnone, -⟩ := hsound.allowed hstep
    rw [hinitial, hfound]
    constructor
    · intro hsome
      have hset := hcurrent.initial i hsome
      rw [hnone] at hset
      cases hset
    · rintro record hplan rfl
      exact hcurrent.own i record hplan (own_of_getPlanDeployment hsound hplan hstep)
  · cases hevent
    rw [hinitial, hfound]
    have hnot : (h.state.progress i).initial.isSome ≠ true := by
      intro hsome
      have hset := hcurrent.initial i hsome
      rw [hnone] at hset
      cases hset
    refine ⟨fun hsome => absurd hsome hnot, fun record hplan hrecord => ?_⟩
    -- The first record that the runner of a plan reads is that of the plan.
    obtain ⟨-, hsome | ⟨-, -, -, hset | hcommand⟩⟩ := hsound.allowed hstep
    · exact absurd hsome hnot
    · rw [hnone] at hset
      cases hset
    · exact absurd (of_decide_eq_true hplan) hcommand

/-! ## The record of the deployment -/

/-- A drift check that goes on was made from what the deployment still holds. -/
theorem Current.contents_call (hcurrent : fleet.Current h) {op : Operation} {answer : op.Answer}
    (hstep : fleet.Step h.state (.call i op answer) s') (hplan : (fleet.job i).isPlan = true) :
    (fleet.stored s').map contents = (fleet.stored h.state).map contents := by
  have hsound := hcurrent.sound
  rw [hstep.stored hsound]
  cases hmeta : fleet.metadata (.call i op answer) with
  | none => rfl
  | some record =>
      obtain ⟨hcheck, -, source, hsource, hcontents⟩ := hsound.metadata_plan hplan hstep hmeta
      have hvars := hcurrent.source i source hplan hsource
      have hrunner : h.state.runner i ≠ none := by
        obtain ⟨next, hcalls, -⟩ := hstep.next
        rw [hcalls]
        exact Option.some_ne_none _
      have hfresh := hcurrent.fresh i (hcurrent.checked i hcheck hrunner) hstep.not_ended
      calc (some record).map contents = some (contents record) := rfl
        _ = some (fleet.job i).contents := by
          rw [hcontents, hvars]
          rfl
        _ = (fleet.stored h.state).map contents := hfresh.symm

theorem Current.contents_step (hcurrent : fleet.Current h) {a : Act}
    (hstep : fleet.Step h.state a s') :
    (fleet.stored s').map contents =
      ((fleet.change a).or (fleet.stored h.state)).map contents := by
  rcases change_cases fleet a with heq | ⟨i, op, answer, rfl, hplan, hnone⟩
  · rw [heq, hstep.stored hcurrent.sound]
  · rw [hnone, hcurrent.contents_call hstep hplan]
    rfl

/-- A drift check is made from what the deployment holds. -/
theorem contents_of_request (hsound : fleet.Sound s) {services : ClaimServices} {extraData : Json}
    (hrequest : driftcheckRequest services fleet.handler s.table
      (fleet.job i).rt.payload.deploymentId (fleet.job i).rt.payload.environment false extraData =
        .ok ⟨(fleet.job i).rt.payload, (fleet.job i).vars⟩) :
    (fleet.stored s).map contents = some (fleet.job i).contents := by
  obtain ⟨deployment, hstored, hlive, hprepared⟩ :=
    driftcheckRequest_eq_ok hsound.wellFormed hrequest
  have hid : getDeploymentIdentifier fleet.handler.projectId fleet.handler.region
      (fleet.job i).rt.payload.deploymentId (fleet.job i).rt.payload.environment =
        fleet.identifier := by
    rw [← fleet.identifier_eq i, ← fleet.handler_eq i]
    rfl
  rw [hid] at hstored
  have hpayload := congrArg ApiInfraPayloadWithVariables.payload hprepared
  have hvars : (fleet.job i).vars = deployment.vars :=
    congrArg ApiInfraPayloadWithVariables.vars hprepared
  change Option.map contents (s.table.stored fleet.identifier) = _
  rw [hstored]
  change some (⟨deployment.deleted, _, _, deployment.vars, _, _⟩ : Contents) = _
  rw [hlive, ← hvars]
  change _ = some (⟨false, (fleet.job i).rt.payload.moduleVersion,
    (fleet.job i).rt.payload.moduleTrack, _, (fleet.job i).rt.payload.dependencies,
    (fleet.job i).rt.payload.reference⟩ : Contents)
  rw [show (fleet.job i).rt.payload = _ from hpayload]
  rfl

/-! ## Runs -/

theorem Current.check (hcurrent : fleet.Current h) {services : ClaimServices} {extraData : Json}
    (hrequest : driftcheckRequest services fleet.handler h.state.table
      (fleet.job i).rt.payload.deploymentId (fleet.job i).rt.payload.environment false extraData =
        .ok ⟨(fleet.job i).rt.payload, (fleet.job i).vars⟩) :
    fleet.Current { h with checked := Function.update h.checked i true } where
  sound := hcurrent.sound
  latest := hcurrent.latest
  checked k hcheck hrunner := by
    by_cases hki : k = i
    · subst hki
      exact Function.update_self _ _ _
    · have hchecked := hcurrent.checked k hcheck hrunner
      exact (Function.update_of_ne hki _ _).trans hchecked
  fresh k hchecked hended := by
    by_cases hki : k = i
    · subst hki
      exact contents_of_request hcurrent.sound hrequest
    · have hbefore : h.checked k = true := (Function.update_of_ne hki _ _).symm.trans hchecked
      exact hcurrent.fresh k hbefore hended
  own := hcurrent.own
  initial := hcurrent.initial
  source := hcurrent.source

theorem Current.act (hcurrent : fleet.Current h) {a : Act} (hstep : fleet.Step h.state a s')
    (hchecked : ∀ i, a = .start i → fleet.IsCheck i → h.checked i = true)
    (hundisturbed : fleet.Undisturbed h (.act a)) :
    fleet.Current
      { state := s', latest := (fleet.change a).or h.latest, checked := h.checked } := by
  have hcontents := hcurrent.contents_step hstep
  constructor
  · exact hcurrent.sound.step hstep
  · have hlatest : (fleet.stored h.state).map contents = h.latest.map contents := hcurrent.latest
    change (fleet.stored s').map contents = ((fleet.change a).or h.latest).map contents
    rw [hcontents]
    cases fleet.change a with
    | none => exact hlatest
    | some record => rfl
  · intro i hcheck hrunner
    rcases hstep.runner i with hsame | ⟨hact, -, -⟩ | ⟨op, next, answer, -, hcalls, -⟩
    · exact hcurrent.checked i hcheck (hsame ▸ hrunner)
    · exact hchecked i hact hcheck
    · refine hcurrent.checked i hcheck ?_
      rw [hcalls]
      exact Option.some_ne_none _
  · intro i hi hended
    have hended' : ¬ Ended h.state i := fun hdone => hended (hstep.ended hdone)
    change (fleet.stored s').map contents = _
    rw [hcontents]
    cases hchange : fleet.change a with
    | none => exact hcurrent.fresh i hi hended'
    | some record =>
        -- Nothing but a drift check stores the record while one goes on.
        have hsome : (fleet.change a).isSome = true := by
          rw [hchange]
          rfl
        exact absurd (hundisturbed hsome i hi) hended'
  · exact fun i record hplan hown => hcurrent.own_step hstep hplan hown
  · exact fun i => (hcurrent.source_step hstep i).1
  · exact fun i => (hcurrent.source_step hstep i).2

theorem Current.step (hcurrent : fleet.Current h) {a : DriftAct}
    (hundisturbed : fleet.Undisturbed h a) (hstep : fleet.DriftStep h a h') :
    fleet.Current h' := by
  cases hstep with
  | check hidle hnew hrequest => exact hcurrent.check hrequest
  | act hstep hchecked => exact hcurrent.act hstep hchecked hundisturbed

theorem Current.begin {t : Deployments} (hwf : t.WellFormed)
    (hfresh : ∀ i record, (fleet.job i).own t = some record →
      record.jobId ≠ (fleet.job i).jobId) : fleet.Current (.begin fleet t) where
  sound := .begin hwf
  latest := rfl
  checked _ _ hrunner := absurd rfl hrunner
  fresh _ hchecked := absurd hchecked Bool.false_ne_true
  own i record hplan hown := by
    -- A row of a plan is that of its job.
    obtain ⟨item, hitem, rfl⟩ := Job.own_eq_some.1 hown
    obtain ⟨isPlan, hkey⟩ := hwf _ _ hitem
    refine absurd ?_ (hfresh i item.record hown)
    cases isPlan with
    | false =>
        have hkey' : (fleet.job i).key = metadataKey item.record.identifier :=
          congrArg Prod.fst hkey
        exact absurd (congrArg Key.pk hkey') (Job.key_pk_of_isPlan hplan _)
    | true =>
        have hsk : (fleet.job i).key.sk = item.record.jobId := congrArg (Key.sk ∘ Prod.fst) hkey
        rw [Job.key, if_pos hplan] at hsk
        exact hsk.symm
  initial _ hsome := absurd hsome Bool.false_ne_true
  source _ record _ hsome := absurd hsome (Option.some_ne_none record).symm

/-- A drift check that stores its record over that of another job changes more than the drift. -/
theorem Current.onlyDrift_iff (hcurrent : fleet.Current h) {op : Operation} {answer : op.Answer}
    (hstep : fleet.Step h.state (.call i op answer) s') (hplan : (fleet.job i).isPlan = true)
    (hother : ∀ record, fleet.stored h.state = some record →
      record.jobId ≠ (fleet.job i).jobId) :
    OnlyDrift (fleet.stored h.state) (fleet.stored s') ↔
      fleet.stored s' = fleet.stored h.state := by
  refine ⟨fun honly => ?_, .inl⟩
  rcases honly with heq | ⟨record, check, hrecord, hcheck, hfields⟩
  · exact heq
  · have hsound := hcurrent.sound
    have hstored := hstep.stored hsound
    cases hmeta : fleet.metadata (.call i op answer) with
    | none =>
        rw [hmeta] at hstored
        exact hstored
    | some new =>
        rw [hmeta, hcheck] at hstored
        obtain rfl : check = new := Option.some.inj hstored
        have hjob := (hsound.metadata_plan hplan hstep hmeta).2.1
        have hsame : check.jobId = record.jobId := by
          rw [hfields]
          rfl
        exact absurd (hsame.symm.trans hjob) (hother record hrecord)

/-- In every run in which no apply or destroy stores the record of the deployment while a drift
check goes on, that record holds what the latest of them has stored, and no drift check changes it;
it changes nothing but the drift as long as it leaves the record of another job as it is. -/
theorem drift_checks_keep {t : Deployments} (hwf : t.WellFormed)
    (hfresh : ∀ i record, (fleet.job i).own t = some record →
      record.jobId ≠ (fleet.job i).jobId)
    (hreaches : Reaches fleet.DriftStep fleet.Undisturbed (.begin fleet t) h) :
    fleet.HoldsLatest h ∧ ∀ i op answer h', fleet.IsCheck i →
      fleet.DriftStep h (.act (.call i op answer)) h' →
        (fleet.stored h'.state).map contents = (fleet.stored h.state).map contents ∧
        ((∀ record, fleet.stored h.state = some record → record.jobId ≠ (fleet.job i).jobId) →
          (OnlyDrift (fleet.stored h.state) (fleet.stored h'.state) ↔
            fleet.stored h'.state = fleet.stored h.state)) := by
  have hcurrent : fleet.Current h :=
    hreaches.invariant (fun _ _ _ hcurrent hundisturbed hstep => hcurrent.step hundisturbed hstep)
      (.begin hwf hfresh)
  refine ⟨hcurrent.latest, fun i op answer h' hcheck hstep => ?_⟩
  have hplan : (fleet.job i).isPlan = true := decide_eq_true hcheck.1
  cases hstep with
  | act hstep hchecked =>
      exact ⟨hcurrent.contents_call hstep hplan, hcurrent.onlyDrift_iff hstep hplan⟩

end

end Fleet

/-! ## A runner on its own -/

namespace Fleet

section

variable {fleet : Fleet} {s : State} {i : Nat}

variable (fleet) in
/-- A table that can be read and written, for a runner that is refused everything else. -/
def respondPlan (i : Nat) (t : Deployments) : (op : Operation) → Option (op.Answer × Deployments)
  | .getPlanDeployment deploymentId environment jobId =>
      match fleet.handler.getPlanDeployment t deploymentId environment jobId with
      | .ok found => some (.value found, t)
      | .error _ => none
  | op => fleet.respond i t op

theorem responds_of_respondPlan (i : Nat) (t : Deployments) (op : Operation) (answer : op.Answer)
    (t' : Deployments) (h : fleet.respondPlan i t op = some (answer, t')) :
    (fleet.solo i).step t op answer t' := by
  cases op with
  | getPlanDeployment deploymentId environment jobId =>
      simp only [respondPlan] at h
      split at h
      · rename_i found hfound
        obtain ⟨rfl, rfl⟩ := Prod.mk.inj (Option.some.inj h)
        refine ⟨rfl, fun found' heq => ?_⟩
        obtain rfl := Reply.value.inj heq
        exact hfound
      · cases h
  | _ => exact responds_of_respond i t _ answer t' h

/-- A record of the deployment is one of the version that its job has asked for. -/
theorem Sound.change_version (hsound : fleet.Sound s) {op : Operation} {answer : op.Answer}
    (hstep : fleet.Step s (.call i op answer) s') {record : DeploymentResp}
    (hchange : fleet.change (.call i op answer) = some record) :
    record.moduleVersion = (fleet.job i).rt.payload.moduleVersion := by
  have hmeta : fleet.metadata (.call i op answer) = some record := by
    rcases change_cases fleet (.call i op answer) with heq | ⟨_, _, _, -, -, hnone⟩
    · exact heq.symm.trans hchange
    · rw [hnone] at hchange
      cases hchange
  cases op with
  | setDeployment record' isPlan =>
      cases answer with
      | error e => cases hmeta
      | panic message => cases hmeta
      | value _ =>
          change (if _ then some record' else none) = _ at hmeta
          split at hmeta
          · obtain rfl := Option.some.inj hmeta
            obtain ⟨handler, epoch, hfits, -, rfl, -⟩ := hsound.sent hstep
            exact hfits.unchanged.moduleVersion
          · cases hmeta
  | _ => cases hmeta

/-- A runner that goes to its end while nobody else does anything. -/
theorem reaches_of_solo {t t' : Deployments} {program : RunnerProgram} {trace : List Event}
    {result : Except Stop Unit × DeploymentStatusHandler}
    (hrun : Program.Runs (fleet.solo i) t program trace t' result) {h : DriftHistory}
    (hsound : fleet.Sound h.state) (htable : h.state.table = t)
    (hrunner : h.state.runner i = some program) :
    ∃ h' : DriftHistory, Reaches fleet.DriftStep (fun _ _ => True) h h' ∧ fleet.Sound h'.state ∧
      h'.state.table = t' ∧ Ended h'.state i ∧
        (∀ k, k ≠ i → h'.state.runner k = h.state.runner k) ∧
          (h'.latest = h.latest ∨ (fleet.job i).isPlan = false ∧
            h'.latest.map DeploymentResp.moduleVersion =
              some (fleet.job i).rt.payload.moduleVersion) := by
  induction hrun generalizing h with
  | done => exact ⟨h, .refl, hsound, htable, ⟨_, hrunner⟩, fun _ _ => rfl, .inl rfl⟩
  | @call t t₁ t' op answer next trace result hresponds hrest ih =>
      subst htable
      have hstep := Step.call hrunner hresponds
      obtain ⟨h₁, hdrift, hsound₁, htable₁, hrunner₁, hothers₁, hlatest₁⟩ : ∃ h₁ : DriftHistory,
          fleet.DriftStep h (.act (.call i op answer)) h₁ ∧ fleet.Sound h₁.state ∧
            h₁.state.table = t₁ ∧ h₁.state.runner i = some (next answer) ∧
              (∀ k, k ≠ i → h₁.state.runner k = h.state.runner k) ∧
                h₁.latest = (fleet.change (.call i op answer)).or h.latest :=
        ⟨_, DriftStep.act hstep fun k hact => (nomatch hact), hsound.step hstep, rfl,
          Function.update_self _ _ _, fun k hki => Function.update_of_ne hki _ _, rfl⟩
      obtain ⟨h', hreaches, hsound', htable', hended, hothers, hlatest⟩ :=
        ih hsound₁ htable₁ hrunner₁
      refine ⟨h', hreaches.cons trivial hdrift, hsound', htable', hended,
        fun k hki => (hothers k hki).trans (hothers₁ k hki), ?_⟩
      rcases hlatest with heq | hversion
      · rw [heq, hlatest₁]
        cases hchange : fleet.change (.call i op answer) with
        | none => exact .inl rfl
        | some record =>
            refine .inr ⟨?_, congrArg some (hsound.change_version hstep hchange)⟩
            refine Bool.eq_false_iff.2 fun hplan => ?_
            have hnone : fleet.change (.call i op answer) = none := if_pos hplan
            rw [hnone] at hchange
            cases hchange
      · exact .inr hversion

end

end Fleet

/-! ## A drift check that is overtaken -/

def webCheckPayload : ApiInfraPayloadWithVariables :=
  driftcheckPayload localClaimServices webOther "web/a" false .null

/-- The first job is a drift check, and the others apply another version. -/
def webDriftJob : Nat → Job
  | 0 =>
      { webFleetJob 0 with
        rt := { webChange with payload := webCheckPayload.payload }, vars := webCheckPayload.vars }
  | i + 1 =>
      { webFleetJob (i + 1) with
        rt := { webChange with payload := { webPayload with moduleVersion := "2.0.0" } } }

def webDriftFleet : Fleet where
  handler := webFleet.handler
  identifier := webFleet.identifier
  job := webDriftJob
  handler_eq i := by cases i <;> rfl
  identifier_eq i := by cases i <;> rfl
  distinct i j heq := by
    have hid : ∀ k, (webDriftJob k).jobId = (webFleet.job k).jobId := by
      intro k
      cases k <;> rfl
    exact webFleet.distinct i j ((hid i).symm.trans (heq.trans (hid j)))

theorem webDriftRequest : driftcheckRequest localClaimServices webDriftFleet.handler webOtherTable
    (webDriftFleet.job 0).rt.payload.deploymentId (webDriftFleet.job 0).rt.payload.environment
      false .null = .ok ⟨(webDriftFleet.job 0).rt.payload, (webDriftFleet.job 0).vars⟩ := by
  decide +kernel

theorem fresh_webDrift (i : Nat) (record : DeploymentResp)
    (hown : (webDriftFleet.job i).own webOtherTable = some record) :
    record.jobId ≠ (webDriftFleet.job i).jobId := by
  cases i with
  | zero =>
      have hnone : (webDriftFleet.job 0).own webOtherTable = none := by decide +kernel
      rw [hnone] at hown
      cases hown
  | succ n => exact fresh_webOther (n + 1) record hown

/-- The table after a job is recorded. -/
def webDriftStored (t : Deployments) (i : Nat) : Deployments :=
  (setDeployment t webDriftFleet.handler ((webDriftFleet.job i).request 0)
    (webDriftFleet.job i).isPlan).writes.foldl KeyedTable.transact t

theorem drift_checks_keep_web : ∃ h : Fleet.DriftHistory,
    Reaches webDriftFleet.DriftStep webDriftFleet.Undisturbed
        (.begin webDriftFleet webOtherTable) h ∧ h.checked 0 = true ∧
      webDriftFleet.HoldsLatest h := by
  let h₀ : Fleet.DriftHistory := .begin webDriftFleet webOtherTable
  let h₁ : Fleet.DriftHistory := { h₀ with checked := Function.update h₀.checked 0 true }
  have hcheck : webDriftFleet.DriftStep h₀ (.check 0) h₁ := .check rfl rfl webDriftRequest
  have hany : webDriftFleet.Undisturbed h₀ (.check 0) := trivial
  have hreaches : Reaches webDriftFleet.DriftStep webDriftFleet.Undisturbed h₀ h₁ :=
    Reaches.cons hany hcheck .refl
  have hholds := Fleet.drift_checks_keep wellFormed_webOther fresh_webDrift hreaches
  exact ⟨h₁, hreaches, rfl, hholds.1⟩

/-- A drift check is made, another version is applied, and the check puts the first version back. -/
theorem not_drift_checks_keep_web : ¬ ∀ (fleet : Fleet) (t : Deployments), t.WellFormed →
    (∀ i record, (fleet.job i).own t = some record → record.jobId ≠ (fleet.job i).jobId) →
      ∀ h : Fleet.DriftHistory,
        Reaches fleet.DriftStep (fun _ _ => True) (.begin fleet t) h →
          (∀ i, h.state.runner i ≠ none → Fleet.Ended h.state i) → fleet.HoldsLatest h := by
  intro hall
  let h₀ : Fleet.DriftHistory := .begin webDriftFleet webOtherTable
  let checked : Nat → Bool := Function.update h₀.checked 0 true
  have hcheck : webDriftFleet.DriftStep h₀ (.check 0) { h₀ with checked } :=
    .check rfl rfl webDriftRequest
  -- The drift check is started and recorded, and then the other job.
  let s₁ := webDriftFleet.started h₀.state 0
  have hstart₁ : webDriftFleet.Step h₀.state (.start 0) s₁ := .start rfl
  have hsaves₂ : Saves webDriftFleet.handler webOtherTable ((webDriftFleet.job 0).request 0)
      (webDriftFleet.job 0).isPlan (webDriftStored webOtherTable 0) := ⟨by decide +kernel, rfl⟩
  let s₂ : Fleet.State :=
    { s₁ with
      table := webDriftStored webOtherTable 0
      requested := Function.update s₁.requested 0 true }
  have hinsert₂ : webDriftFleet.Step s₁ (.insert 0 0) s₂ :=
    .insert (Option.some_ne_none (runnerProgram (webDriftFleet.job 0).rt)) rfl hsaves₂
  let s₃ := webDriftFleet.started s₂ 1
  have hstart₃ : webDriftFleet.Step s₂ (.start 1) s₃ := .start rfl
  have hsaves₄ : Saves webDriftFleet.handler s₂.table ((webDriftFleet.job 1).request 0)
      (webDriftFleet.job 1).isPlan (webDriftStored s₂.table 1) := ⟨by decide +kernel, rfl⟩
  let s₄ : Fleet.State :=
    { s₃ with
      table := webDriftStored s₂.table 1, requested := Function.update s₃.requested 1 true }
  have hinsert₄ : webDriftFleet.Step s₃ (.insert 1 0) s₄ :=
    .insert (Option.some_ne_none (runnerProgram (webDriftFleet.job 1).rt)) rfl hsaves₄
  let latest : Option DeploymentResp := some ((webDriftFleet.job 1).request 0)
  let h₄ : Fleet.DriftHistory := ⟨s₄, latest, checked⟩
  have hsound₄ : webDriftFleet.Sound s₄ :=
    (((Fleet.Sound.begin wellFormed_webOther).step hstart₁).step hinsert₂).step hstart₃
      |>.step hinsert₄
  have hreaches₄ : Reaches webDriftFleet.DriftStep (fun _ _ => True) h₀ h₄ := by
    have hfirst : webDriftFleet.DriftStep ⟨h₀.state, h₀.latest, checked⟩ (.act (.start 0))
        ⟨s₁, h₀.latest, checked⟩ := .act hstart₁ fun i hact _ => by cases hact; rfl
    have hsecond : webDriftFleet.DriftStep ⟨s₁, h₀.latest, checked⟩ (.act (.insert 0 0))
        ⟨s₂, h₀.latest, checked⟩ := .act hinsert₂ fun i hact => (nomatch hact)
    have hthird : webDriftFleet.DriftStep ⟨s₂, h₀.latest, checked⟩ (.act (.start 1))
        ⟨s₃, h₀.latest, checked⟩ := .act hstart₃ fun i hact hcheck => by
      cases hact
      exact absurd hcheck.1 (by decide)
    have hfourth : webDriftFleet.DriftStep ⟨s₃, h₀.latest, checked⟩ (.act (.insert 1 0)) h₄ :=
      .act hinsert₄ fun i hact => (nomatch hact)
    exact Reaches.cons trivial hcheck (Reaches.cons trivial hfirst (Reaches.cons trivial hsecond
      (Reaches.cons trivial hthird (Reaches.cons trivial hfourth .refl))))
  -- The runners go to their ends, first that of the other job.
  have hrun : ((Program.execute (webDriftFleet.respondPlan 1) s₄.table
      (runnerProgram (webDriftFleet.job 1).rt)).bind fun r =>
        (Program.execute (webDriftFleet.respondPlan 0) r.2.1
          (runnerProgram (webDriftFleet.job 0).rt)).map fun r' =>
            (r'.2.1.stored webDriftFleet.identifier).map DeploymentResp.moduleVersion) =
      some (some "1.0.0") := by
    decide +kernel
  obtain ⟨⟨trace₅, t₅, result₅⟩, hexecute₅, hrest⟩ := Option.bind_eq_some_iff.1 hrun
  obtain ⟨⟨trace₆, t₆, result₆⟩, hexecute₆, hversion⟩ := Option.map_eq_some_iff.1 hrest
  have hruns₅ := Program.runs_execute (Fleet.responds_of_respondPlan 1) hexecute₅
  have hruns₆ := Program.runs_execute (Fleet.responds_of_respondPlan 0) hexecute₆
  obtain ⟨h₅, hreaches₅, hsound₅, htable₅, hended₅, hothers₅, hlatest₅⟩ :=
    Fleet.reaches_of_solo hruns₅ (h := h₄) hsound₄ rfl rfl
  have hrunner₅ : h₅.state.runner 0 = some (runnerProgram (webDriftFleet.job 0).rt) :=
    hothers₅ 0 (by decide)
  obtain ⟨h₆, hreaches₆, hsound₆, htable₆, hended₆, hothers₆, hlatest₆⟩ :=
    Fleet.reaches_of_solo hruns₆ hsound₅ htable₅ hrunner₅
  have hlatest : h₆.latest.map DeploymentResp.moduleVersion = some "2.0.0" := by
    rcases hlatest₆ with heq | ⟨hplan, -⟩
    · rw [heq]
      rcases hlatest₅ with heq | ⟨-, hversion⟩
      · rw [heq]
        rfl
      · exact hversion
    · cases hplan
  have hfinished : ∀ i, h₆.state.runner i ≠ none → Fleet.Ended h₆.state i := by
    intro i hrunner
    match i with
    | 0 => exact hended₆
    | 1 =>
        obtain ⟨result, hdone⟩ := hended₅
        exact ⟨result, (hothers₆ 1 (by decide)).trans hdone⟩
    | i + 2 =>
        have hnone : h₆.state.runner (i + 2) = none :=
          (hothers₆ _ (by omega)).trans (hothers₅ _ (by omega))
        exact absurd hnone hrunner
  have hholds := hall webDriftFleet webOtherTable wellFormed_webOther fresh_webDrift h₆
    ((hreaches₄.trans hreaches₅).trans hreaches₆) hfinished
  have hsame := congrArg (Option.map Contents.moduleVersion) hholds
  rw [Option.map_map, Option.map_map] at hsame
  change (h₆.state.table.stored webDriftFleet.identifier).map DeploymentResp.moduleVersion =
    h₆.latest.map DeploymentResp.moduleVersion at hsame
  rw [hlatest, htable₆, hversion] at hsame
  exact absurd (Option.some.inj hsame) (by decide)

end TerraformRunner
end InfraWeave
