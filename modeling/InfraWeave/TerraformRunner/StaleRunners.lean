import InfraWeave.TerraformRunner.Inventory

/-!
# Stale runners

A runner whose job is not the one that is stored should leave the record of the deployment alone,
and a job that has ended should stay so.
-/

namespace InfraWeave
namespace TerraformRunner

open EnvCommon

namespace Fleet

variable (fleet : Fleet)

/-- The record that was inserted for a job. -/
def own (s : State) (i : Nat) : Option DeploymentResp :=
  (fleet.job i).own s.table

/-! ## What is asked -/

/-- A runner that is not the one of the record leaves it as it is. -/
def KeepsOff (s : State) (a : Act) (s' : State) : Prop :=
  ∀ i op answer, a = .call i op answer →
    (∀ record, fleet.stored s = some record → record.jobId ≠ (fleet.job i).jobId) →
      fleet.stored s' = fleet.stored s

/-- A final status of a job is only replaced by one. -/
def StaysFinal (s s' : State) : Prop :=
  ∀ i record record', fleet.own s i = some record → record.jobId = (fleet.job i).jobId →
    record.status.isFinal = true → fleet.own s' i = some record' →
      record'.jobId = (fleet.job i).jobId → record'.status.isFinal = true

/-- A runner begins once its own request is recorded, and is told its job before it stores
anything; no drift check stores a record of the deployment; and a request is recorded when the jobs
that were recorded before it have ended, plans apart. -/
def Orderly (s : State) : Act → Prop
  | .start _ => True
  | .insert i _ => (fleet.job i).isPlan = false → ∀ k, (fleet.job k).isPlan = false →
      s.requested k = true → Ended s k
  | .call i op answer => s.requested i = true ∧
      (IsSend ⟨op, answer⟩ → (s.progress i).identified.isSome = true) ∧
      ((fleet.job i).isPlan = true → fleet.metadata (.call i op answer) = none)

/-! ## What is kept -/

structure InOrder (s : State) : Prop where
  sound : fleet.Sound s
  current : ∀ i, (fleet.job i).isPlan = false → s.requested i = true → ¬ Ended s i →
    ∃ record, fleet.stored s = some record ∧ record.jobId = (fleet.job i).jobId
  fresh : ∀ i record, s.requested i = false → fleet.own s i = some record →
    record.jobId ≠ (fleet.job i).jobId
  unsent : ∀ i record, s.requested i = true → (s.progress i).last = none →
    (s.progress i).sendFailed = false → fleet.own s i = some record →
      record.jobId = (fleet.job i).jobId → record.status.isFinal = false

variable {fleet : Fleet} {s s' : State} {a : Act} {i : Nat}

theorem own_eq_stored (hplan : (fleet.job i).isPlan = false) (s : State) :
    fleet.own s i = fleet.stored s := by
  unfold own stored
  rw [Job.own_eq_stored hplan, fleet.identifier_eq]

theorem Step.ended (hstep : fleet.Step s a s') (hended : Ended s i) : Ended s' i := by
  obtain ⟨result, hdone⟩ := hended
  rcases hstep.runner i with heq | ⟨-, hnone, -⟩ | ⟨op, next, answer, -, hcalls, -⟩
  · exact ⟨result, heq.trans hdone⟩
  · rw [hdone] at hnone
    cases hnone
  · rw [hdone] at hcalls
    cases hcalls

theorem Step.not_ended {op : Operation} {answer : op.Answer}
    (hstep : fleet.Step s (.call i op answer) s') : ¬ Ended s i := by
  rintro ⟨result, hdone⟩
  obtain ⟨next, hcalls, -⟩ := hstep.next
  rw [hdone] at hcalls
  cases hcalls

/-- A record that is sent is one of the job, once the job is known. -/
theorem Sound.sent_jobId (hsound : fleet.Sound s) {record : DeploymentResp} {isPlan : Bool}
    {answer : Reply Unit} (hstep : fleet.Step s (.call i (.setDeployment record isPlan) answer) s')
    (hknown : (s.progress i).identified.isSome = true) :
    record.jobId = (fleet.job i).jobId := by
  obtain ⟨h, epoch, hfits, -, rfl, -⟩ := hsound.sent hstep
  obtain ⟨jobId, hid⟩ := Option.isSome_iff_exists.1 hknown
  have hjob : (h.deployment (fleet.job i).rt.parseDuration epoch).jobId =
      (s.progress i).identified.getD "unknown_jobid" := hfits.jobId
  rw [hjob, hid, Option.getD_some]
  exact hsound.identified i jobId hid

/-- A record of the deployment is that of the act's job. -/
theorem Sound.metadata_jobId (hsound : fleet.Sound s) (hstep : fleet.Step s a s')
    (horderly : fleet.Orderly s a) {record : DeploymentResp}
    (hmeta : fleet.metadata a = some record) :
    ∃ k, record.jobId = (fleet.job k).jobId ∧ (fleet.job k).isPlan = false ∧
      ((∃ epoch, a = .insert k epoch ∧ record = (fleet.job k).request epoch) ∨
        ∃ isPlan, a = .call k (.setDeployment record isPlan) (.value ())) := by
  cases a with
  | start k => cases hmeta
  | insert k epoch =>
      change (if _ then none else some _) = _ at hmeta
      split at hmeta
      · cases hmeta
      · rename_i hplan
        obtain rfl := Option.some.inj hmeta
        exact ⟨k, rfl, Bool.not_eq_true _ ▸ hplan, .inl ⟨epoch, rfl, rfl⟩⟩
  | call k op answer =>
      have hnotPlan : (fleet.job k).isPlan = false := by
        cases hplan : (fleet.job k).isPlan with
        | false => rfl
        | true =>
            rw [horderly.2.2 hplan] at hmeta
            cases hmeta
      cases op with
      | setDeployment record' isPlan =>
          cases answer with
          | error e => cases hmeta
          | panic message => cases hmeta
          | value _ =>
              change (if _ then some record' else none) = _ at hmeta
              split at hmeta
              · obtain rfl := Option.some.inj hmeta
                exact ⟨k, hsound.sent_jobId hstep (horderly.2.1 ⟨_, _, _, rfl⟩), hnotPlan,
                  .inr ⟨isPlan, rfl⟩⟩
              · cases hmeta
      | _ => cases hmeta

/-- The row of a plan is stored by its client or its runner. -/
theorem Sound.own_plan (hsound : fleet.Sound s) (hstep : fleet.Step s a s')
    (hplan : (fleet.job i).isPlan = true) : fleet.own s' i = fleet.own s i ∨
      ∃ record, fleet.own s' i = some record ∧ record.jobId = (fleet.job i).jobId ∧
        ((∃ epoch, a = .insert i epoch ∧ record = (fleet.job i).request epoch) ∨
          ∃ k answer, a = .call k (.setDeployment record true) answer) := by
  have hwf := hsound.wellFormed
  have hpk : ∀ identifier, (fleet.job i).key.pk ≠ deploymentPk identifier :=
    Job.key_pk_of_isPlan hplan
  have hkey : ∀ record : DeploymentResp, (getPayload record true).1 = (fleet.job i).key →
      record.jobId = (fleet.job i).jobId := by
    intro record heq
    have hsk := congrArg Key.sk heq
    simpa [getPayload, Job.key, hplan] using hsk
  have hsame : s'.table.item (fleet.job i).key = s.table.item (fleet.job i).key →
      fleet.own s' i = fleet.own s i := by
    intro heq
    unfold own Job.own
    rw [heq]
  have hstored : ∀ record : DeploymentResp, (getPayload record true).1 = (fleet.job i).key →
      s'.table.item (fleet.job i).key = some (.deployment (getPayload record true).2) →
        fleet.own s' i = some record ∧ record.jobId = (fleet.job i).jobId :=
    fun record heq hitem => ⟨Job.own_eq_some.2 ⟨_, hitem, rfl⟩, hkey record heq⟩
  cases hstep with
  | start hidle => exact .inl rfl
  | @insert k epoch t hstarted hnew hsaves =>
      by_cases hrow : (fleet.job k).isPlan = true ∧
          (getPayload ((fleet.job k).request epoch) true).1 = (fleet.job i).key
      · have hitem := hsaves.item_plan hwf hpk
        rw [if_pos hrow] at hitem
        obtain ⟨hown, hjobId⟩ := hstored _ hrow.2 hitem
        obtain rfl : k = i := fleet.distinct k i hjobId
        exact .inr ⟨_, hown, hjobId, .inl ⟨epoch, rfl, rfl⟩⟩
      · have hitem := hsaves.item_plan hwf hpk
        rw [if_neg hrow] at hitem
        exact .inl (hsame hitem)
  | @call k op next answer t hcalls hresponds =>
      by_cases hsend : IsSend ⟨op, answer⟩
      · obtain ⟨record, isPlan, answer', heq⟩ := hsend
        cases heq
        rcases hresponds with ⟨rfl, hsaves⟩ | ⟨-, haborts⟩
        · have hitem := hsaves.item_plan hwf hpk
          by_cases hrow : isPlan = true ∧ (getPayload record true).1 = (fleet.job i).key
          · rw [if_pos hrow] at hitem
            obtain ⟨hown, hjobId⟩ := hstored record hrow.2 hitem
            obtain rfl := hrow.1
            exact .inr ⟨record, hown, hjobId, .inr ⟨k, .value (), rfl⟩⟩
          · rw [if_neg hrow] at hitem
            exact .inl (hsame hitem)
        · rcases haborts.item_plan hwf hpk with hitem | ⟨rfl, hrow, hitem⟩
          · exact .inl (hsame hitem)
          · obtain ⟨hown, hjobId⟩ := hstored record hrow hitem
            exact .inr ⟨record, hown, hjobId, .inr ⟨k, answer', rfl⟩⟩
      · have htable := (Step.call hcalls hresponds).table_eq hsend
        refine .inl (hsame ?_)
        rw [htable]

theorem InOrder.keepsOff (horder : fleet.InOrder s) (horderly : fleet.Orderly s a)
    (hstep : fleet.Step s a s') : fleet.KeepsOff s a s' := by
  rintro i op answer rfl hother
  rw [hstep.stored horder.sound]
  cases hmeta : fleet.metadata (.call i op answer) with
  | none => rfl
  | some record =>
      obtain ⟨k, -, hnotPlan, ⟨epoch, hact, -⟩ | ⟨isPlan, hact⟩⟩ :=
        horder.sound.metadata_jobId hstep horderly hmeta
      · cases hact
      · cases hact
        obtain ⟨current, hstored, hjobId⟩ :=
          horder.current i hnotPlan horderly.1 hstep.not_ended
        exact absurd hjobId (hother current hstored)

/-- What becomes of the record of a job. -/
theorem InOrder.own_step (horder : fleet.InOrder s) (horderly : fleet.Orderly s a)
    (hstep : fleet.Step s a s') (i : Nat) : fleet.own s' i = fleet.own s i ∨
      ∃ record, fleet.own s' i = some record ∧ (record.jobId = (fleet.job i).jobId →
        (∃ epoch, a = .insert i epoch ∧ record = (fleet.job i).request epoch) ∨
          ∃ isPlan answer, a = .call i (.setDeployment record isPlan) answer) := by
  have hsound := horder.sound
  cases hplan : (fleet.job i).isPlan with
  | true =>
      rcases hsound.own_plan hstep hplan with hsame | ⟨record, hown, hjobId, hact⟩
      · exact .inl hsame
      refine .inr ⟨record, hown, fun _ => ?_⟩
      rcases hact with hinsert | ⟨k, answer, rfl⟩
      · exact .inl hinsert
      · have hk := hsound.sent_jobId hstep (horderly.2.1 ⟨_, _, _, rfl⟩)
        obtain rfl := fleet.distinct k i (hk.symm.trans hjobId)
        exact .inr ⟨true, answer, rfl⟩
  | false =>
      rw [own_eq_stored hplan, own_eq_stored hplan, hstep.stored hsound]
      cases hmeta : fleet.metadata a with
      | none => exact .inl rfl
      | some record =>
          obtain ⟨k, hk, -, hact⟩ := hsound.metadata_jobId hstep horderly hmeta
          refine .inr ⟨record, rfl, fun hjobId => ?_⟩
          obtain rfl := fleet.distinct k i (hk.symm.trans hjobId)
          rcases hact with hinsert | ⟨isPlan, hcall⟩
          · exact .inl hinsert
          · exact .inr ⟨isPlan, .value (), hcall⟩

theorem Step.not_requested {epoch : Nat} (hstep : fleet.Step s (.insert i epoch) s') :
    s.requested i = false := by
  cases hstep with
  | insert hstarted hnew hsaves => exact hnew

theorem Step.requested_insert {epoch : Nat} (hstep : fleet.Step s (.insert i epoch) s') :
    s'.requested i = true := by
  cases hstep with
  | insert hstarted hnew hsaves => exact Function.update_self _ _ _

theorem InOrder.staysFinal (horder : fleet.InOrder s) (horderly : fleet.Orderly s a)
    (hstep : fleet.Step s a s') : fleet.StaysFinal s s' := by
  intro i record record' hown hjobId hfinal hown' hjobId'
  rcases horder.own_step horderly hstep i with hsame | ⟨new, hnew, hact⟩
  · obtain rfl := Option.some.inj (hown.symm.trans (hsame.symm.trans hown'))
    exact hfinal
  obtain rfl := Option.some.inj (hnew.symm.trans hown')
  rcases hact hjobId' with ⟨epoch, rfl, -⟩ | ⟨isPlan, answer, rfl⟩
  · -- A request is recorded once.
    have hfresh := horder.fresh i record hstep.not_requested hown
    exact absurd hjobId hfresh
  · obtain ⟨h, epoch, -, hmay, rfl, -⟩ := horder.sound.sent hstep
    rcases hmay.isFinal with hstatus | ⟨-, -, hlast, hstored, -⟩
    · exact hstatus
    · -- The first record that is sent takes the place of the request.
      have hnot := horder.unsent i record horderly.1 hlast hstored hown hjobId
      rw [hfinal] at hnot
      cases hnot

/-- Only a record that is sent counts as stored, or as not stored. -/
theorem last_after {parseJson : String → Except String Json} {p : Progress} {op : Operation}
    {answer : op.Answer} (hlast : (p.after parseJson op answer).last = none)
    (hfailed : (p.after parseJson op answer).sendFailed = false) :
    ¬ IsSend ⟨op, answer⟩ ∧ p.last = none ∧ p.sendFailed = false := by
  cases op with
  | setDeployment record isPlan => cases answer <;> first | cases hlast | cases hfailed
  | getCurrentJobId =>
      have hnot : ¬ IsSend ⟨.getCurrentJobId, answer⟩ := by
        rintro ⟨record, isPlan, answer', heq⟩
        cases heq
      have hsame : ∀ q : Progress, q.failed.last = q.last ∧ q.failed.sendFailed = q.sendFailed := by
        intro q
        unfold Progress.failed
        split
        · exact ⟨rfl, rfl⟩
        · exact ⟨rfl, rfl⟩
      cases answer with
      | error e => exact ⟨hnot, (hsame p).1.symm.trans hlast, (hsame p).2.symm.trans hfailed⟩
      | panic message => exact ⟨hnot, (hsame p).1.symm.trans hlast, (hsame p).2.symm.trans hfailed⟩
      | value jobId =>
          change (if _ then _ else _ : Progress).last = none at hlast
          change (if _ then _ else _ : Progress).sendFailed = false at hfailed
          split at hlast
          · rename_i hinitial
            rw [if_pos hinitial] at hfailed
            exact ⟨hnot, hlast, hfailed⟩
          · rename_i hinitial
            rw [if_neg hinitial] at hfailed
            exact ⟨hnot, hlast, hfailed⟩
  | terraform command =>
      have hnot : ¬ IsSend ⟨.terraform command, answer⟩ := by
        rintro ⟨record, isPlan, answer', heq⟩
        cases heq
      change (p.ran parseJson command answer).last = none at hlast
      change (p.ran parseJson command answer).sendFailed = false at hfailed
      rcases Progress.ran_cases parseJson p command answer with ⟨-, succeeded, hran, -⟩ |
        ⟨-, stdout, -, hran⟩ | ⟨-, stdout, json, -, -, hran⟩ | ⟨-, -, -, printed, shown, hran⟩
      · rw [hran] at hlast hfailed
        exact ⟨hnot, hlast, hfailed⟩
      · rw [hran] at hlast hfailed
        exact ⟨hnot, hlast, hfailed⟩
      · rw [hran] at hlast hfailed
        exact ⟨hnot, hlast, hfailed⟩
      · rw [hran] at hlast hfailed
        exact ⟨hnot, hlast, hfailed⟩
  | _ =>
      have hdeeds := (Progress.looksUp_after parseJson p (by trivial) answer).deeds
      simp only [Progress.deeds, Prod.mk.injEq] at hdeeds
      refine ⟨?_, hdeeds.2.2.2.2.2.1.symm.trans hlast, hdeeds.2.2.2.2.2.2.symm.trans hfailed⟩
      rintro ⟨record, isPlan, answer', heq⟩
      cases heq

theorem InOrder.current_step (horder : fleet.InOrder s) (horderly : fleet.Orderly s a)
    (hstep : fleet.Step s a s') (hnotPlan : (fleet.job i).isPlan = false)
    (hrequested : s'.requested i = true) (hended : ¬ Ended s' i) :
    ∃ record, fleet.stored s' = some record ∧ record.jobId = (fleet.job i).jobId := by
  have hsound := horder.sound
  have hnot : ¬ Ended s i := fun hended' => hended (hstep.ended hended')
  rcases hstep.requested i with hsame | ⟨epoch, rfl, -⟩
  · obtain ⟨record, hstored, hjobId⟩ :=
      horder.current i hnotPlan (hsame.symm.trans hrequested) hnot
    rw [hstep.stored hsound]
    cases hmeta : fleet.metadata a with
    | none => exact ⟨record, hstored, hjobId⟩
    | some new =>
        obtain ⟨k, hk, hkPlan, ⟨epoch, rfl, -⟩ | ⟨isPlan, rfl⟩⟩ :=
          hsound.metadata_jobId hstep horderly hmeta
        · exact absurd (horderly hkPlan i hnotPlan (hsame.symm.trans hrequested)) hnot
        · -- The runner that stores a record is the one of the record before.
          obtain ⟨record', hstored', hjobId'⟩ := horder.current k hkPlan horderly.1 hstep.not_ended
          obtain rfl := Option.some.inj (hstored.symm.trans hstored')
          obtain rfl := fleet.distinct k i (hjobId'.symm.trans hjobId)
          exact ⟨new, rfl, hk⟩
  · have hmeta : fleet.metadata (.insert i epoch) = some ((fleet.job i).request epoch) := by
      change (if _ then none else some _) = _
      rw [hnotPlan, if_neg Bool.false_ne_true]
    rw [hstep.stored hsound, hmeta]
    exact ⟨_, rfl, rfl⟩

theorem InOrder.step (horder : fleet.InOrder s) (horderly : fleet.Orderly s a)
    (hstep : fleet.Step s a s') : fleet.InOrder s' := by
  have hbefore : ∀ i, s'.requested i = false → s.requested i = false := by
    intro i hnot
    rcases hstep.requested i with hsame | ⟨epoch, -, -, -, htrue⟩
    · exact hsame.symm.trans hnot
    · rw [hnot] at htrue
      cases htrue
  refine ⟨horder.sound.step hstep, ?_, ?_, ?_⟩
  · exact fun i hnotPlan hrequested hended =>
      horder.current_step horderly hstep hnotPlan hrequested hended
  · intro i record hnot hown hjobId
    rcases horder.own_step horderly hstep i with hsame | ⟨new, hnew, hact⟩
    · exact horder.fresh i record (hbefore i hnot) (hsame.symm.trans hown) hjobId
    obtain rfl := Option.some.inj (hnew.symm.trans hown)
    rcases hact hjobId with ⟨epoch, rfl, -⟩ | ⟨isPlan, answer, rfl⟩
    · rw [hstep.requested_insert] at hnot
      cases hnot
    · have hrequested := horderly.1
      rw [hbefore i hnot] at hrequested
      cases hrequested
  · intro i record hrequested hlast hfailed hown hjobId
    rcases horder.own_step horderly hstep i with hsame | ⟨new, hnew, hact⟩
    · have hunsent : s.requested i = true ∨ ∃ epoch, a = .insert i epoch := by
        rcases hstep.requested i with heq | ⟨epoch, hact, -⟩
        · exact .inl (heq.symm.trans hrequested)
        · exact .inr ⟨epoch, hact⟩
      have hown' := hsame.symm.trans hown
      rcases hunsent with hrequested' | ⟨epoch, rfl⟩
      · rcases hstep.progress i with hprogress | ⟨op, answer, rfl, hafter⟩
        · rw [hprogress] at hlast hfailed
          exact horder.unsent i record hrequested' hlast hfailed hown' hjobId
        · rw [hafter] at hlast hfailed
          obtain ⟨-, hlast', hfailed'⟩ := last_after hlast hfailed
          exact horder.unsent i record hrequested' hlast' hfailed' hown' hjobId
      · exact absurd hjobId (horder.fresh i record hstep.not_requested hown')
    obtain rfl := Option.some.inj (hnew.symm.trans hown)
    rcases hact hjobId with ⟨epoch, rfl, rfl⟩ | ⟨isPlan, answer, rfl⟩
    · rfl
    · rw [hstep.progress_call] at hlast hfailed
      exact absurd ⟨_, _, _, rfl⟩ (last_after hlast hfailed).1

/-- The ids of the jobs are new. -/
theorem InOrder.begin {t : Deployments} (hwf : t.WellFormed)
    (hfresh : ∀ i record, (fleet.job i).own t = some record →
      record.jobId ≠ (fleet.job i).jobId) : fleet.InOrder (.begin t) where
  sound := .begin hwf
  current _ _ hrequested := absurd hrequested Bool.false_ne_true
  fresh i record _ := hfresh i record
  unsent _ _ hrequested := absurd hrequested Bool.false_ne_true

/-- In every run in which the jobs are recorded in order, a stale runner leaves the record of the
deployment alone, and no status goes back. -/
theorem keepsOff_and_staysFinal {t : Deployments} (hwf : t.WellFormed)
    (hfresh : ∀ i record, (fleet.job i).own t = some record →
      record.jobId ≠ (fleet.job i).jobId)
    (hreaches : Reaches fleet.Step fleet.Orderly (.begin t) s)
    (horderly : fleet.Orderly s a) (hstep : fleet.Step s a s') :
    fleet.KeepsOff s a s' ∧ fleet.StaysFinal s s' := by
  have horder : fleet.InOrder s :=
    hreaches.invariant (fun _ _ _ horder horderly hstep => horder.step horderly hstep)
      (.begin hwf hfresh)
  exact ⟨horder.keepsOff horderly hstep, horder.staysFinal horderly hstep⟩

/-! ## A runner on its own -/

variable (fleet) in
/-- The operations of one runner, while nobody else does anything. -/
def solo (i : Nat) : Environment Operation Operation.Answer Deployments where
  step := fleet.Responds i
  safe _ _ := True

variable (fleet) in
def started (s : State) (i : Nat) : State :=
  { s with runner := Function.update s.runner i (some (runnerProgram (fleet.job i).rt)) }

/-- A runner that always keeps off leaves the record of another job as it is to its end. -/
theorem stored_of_solo {ok : State → Act → Prop} {begin : State}
    (hkeeps : ∀ s a s', Reaches fleet.Step ok begin s → fleet.Step s a s' → fleet.KeepsOff s a s')
    (hok : ∀ s a, ok s a) {t t' : Deployments} {program : RunnerProgram} {trace : List Event}
    {result : Except Stop Unit × DeploymentStatusHandler}
    (hrun : Program.Runs (fleet.solo i) t program trace t' result)
    {record : DeploymentResp} (hother : record.jobId ≠ (fleet.job i).jobId)
    (hstored : t.stored fleet.identifier = some record) {s : State} (htable : s.table = t)
    (hreaches : Reaches fleet.Step ok begin s) (hrunner : s.runner i = some program) :
    t'.stored fleet.identifier = some record := by
  induction hrun generalizing s with
  | done => exact hstored
  | @call t t₁ t' op answer next trace result hresponds hrest ih =>
      subst htable
      have hstep := Step.call hrunner hresponds
      have hsame := hkeeps _ _ _ hreaches hstep i op answer rfl fun record' hrecord => by
        obtain rfl := Option.some.inj (hstored.symm.trans hrecord)
        exact hother
      exact ih (hsame.trans hstored) rfl (hreaches.tail ⟨_, hok _ _, hstep⟩)
        (Function.update_self _ _ _)

variable (fleet) in
/-- A table that can be read and written, for a runner that is refused everything else. -/
def respond (i : Nat) (t : Deployments) : (op : Operation) → Option (op.Answer × Deployments)
  | .setDeployment record isPlan =>
      let stored := EnvCommon.setDeployment t fleet.handler record isPlan
      match stored.result with
      | .ok () => some (.value (), stored.writes.foldl KeyedTable.transact t)
      | .error _ => none
  | .getDeployment deploymentId environment includeDeleted =>
      match fleet.handler.getDeployment t deploymentId environment includeDeleted with
      | .ok found => some (.value found, t)
      | .error _ => none
  | .getPlanDeployment _ _ _ => none
  | .getCurrentJobId => some (.value (fleet.job i).jobId, t)
  | op => some (op.refused, t)

theorem responds_of_respond (i : Nat) (t : Deployments) (op : Operation) (answer : op.Answer)
    (t' : Deployments) (h : fleet.respond i t op = some (answer, t')) :
    (fleet.solo i).step t op answer t' := by
  change fleet.Responds i t op answer t'
  cases op with
  | setDeployment record isPlan =>
      simp only [respond] at h
      split at h
      · rename_i hstored
        obtain ⟨rfl, rfl⟩ := Prod.mk.inj (Option.some.inj h)
        exact .inl ⟨rfl, hstored, rfl⟩
      · cases h
  | getDeployment deploymentId environment includeDeleted =>
      simp only [respond] at h
      split at h
      · rename_i found hfound
        obtain ⟨rfl, rfl⟩ := Prod.mk.inj (Option.some.inj h)
        refine ⟨rfl, fun found' heq => ?_⟩
        obtain rfl := Reply.value.inj heq
        exact hfound
      · cases h
  | getPlanDeployment deploymentId environment jobId => cases h
  | getCurrentJobId =>
      obtain ⟨rfl, rfl⟩ := Prod.mk.inj (Option.some.inj h)
      exact ⟨rfl, fun jobId heq => (Reply.value.inj heq).symm⟩
  | _ =>
      obtain ⟨-, rfl⟩ := Prod.mk.inj (Option.some.inj h)
      rfl

end Fleet

/-! ## A deployment of another job -/

/-- The record of a job that is none of the others. -/
def webOther : DeploymentResp :=
  { (webFleet.job 0).request 0 with jobId := "y", status := .successful }

def webOtherTable : Deployments :=
  webStored .empty webOther

theorem wellFormed_webOther : webOtherTable.WellFormed := by
  have hsaves : Saves webFleet.handler .empty webOther false webOtherTable :=
    ⟨by decide +kernel, rfl⟩
  exact hsaves.wellFormed Deployments.wellFormed_empty

theorem fresh_webOther (i : Nat) (record : DeploymentResp)
    (hown : (webFleet.job i).own webOtherTable = some record) :
    record.jobId ≠ (webFleet.job i).jobId := by
  have hplan : (webFleet.job i).isPlan = false := rfl
  have hstored : webOtherTable.stored webFleet.identifier = some webOther := by decide +kernel
  rw [Job.own_eq_stored hplan, webFleet.identifier_eq, hstored] at hown
  obtain rfl := Option.some.inj hown
  intro heq
  have hlist : ['y'] = List.replicate i 'x' := by
    have heq' : "y" = String.ofList (List.replicate i 'x') := heq
    rw [← String.toList_ofList (l := List.replicate i 'x'), ← heq']
    rfl
  cases i with
  | zero => cases hlist
  | succ n => exact absurd (List.cons.inj hlist).1 (by decide)

/-- The runner finds the record of its own request. -/
theorem keepsOff_and_staysFinal_web : ∃ s a s',
    Reaches webFleet.Step webFleet.Orderly (.begin webOtherTable) s ∧ webFleet.Step s a s' ∧
      webFleet.KeepsOff s a s' ∧ webFleet.StaysFinal s s' := by
  have hsaves : Saves webFleet.handler webOtherTable ((webFleet.job 0).request 0)
      (webFleet.job 0).isPlan (webStored webOtherTable ((webFleet.job 0).request 0)) :=
    ⟨by decide +kernel, rfl⟩
  let started := webFleet.started (.begin webOtherTable) 0
  have hstart : webFleet.Step (.begin webOtherTable) (.start 0) started := .start rfl
  have hrunner : started.runner 0 ≠ none := Option.some_ne_none (runnerProgram webChange)
  have hinsert := Fleet.Step.insert (s := started) hrunner rfl hsaves
  have hany : webFleet.Orderly (.begin webOtherTable) (.start 0) := trivial
  have hreaches : Reaches webFleet.Step webFleet.Orderly (.begin webOtherTable) started :=
    Reaches.cons hany hstart .refl
  have horderly : webFleet.Orderly started (.insert 0 0) := by
    intro _ k _ hrequested
    cases hrequested
  obtain ⟨hkeeps, hfinal⟩ := Fleet.keepsOff_and_staysFinal wellFormed_webOther fresh_webOther
    hreaches horderly hinsert
  exact ⟨started, .insert 0 0, _, hreaches, hinsert, hkeeps, hfinal⟩

/-- A runner that is started before its request is recorded finds the record of another job, and
stores its complaint in its place. -/
theorem not_keepsOff_web : ¬ ∀ (fleet : Fleet) (t : Deployments), t.WellFormed →
    (∀ i record, (fleet.job i).own t = some record → record.jobId ≠ (fleet.job i).jobId) →
      ∀ s a s', Reaches fleet.Step (fun _ _ => True) (.begin t) s → fleet.Step s a s' →
        fleet.KeepsOff s a s' := by
  intro hall
  have hkeeps := hall webFleet webOtherTable wellFormed_webOther fresh_webOther
  let started := webFleet.started (.begin webOtherTable) 0
  have hstart : webFleet.Step (.begin webOtherTable) (.start 0) started := .start rfl
  have hrunner : started.runner 0 = some (runnerProgram (webFleet.job 0).rt) := rfl
  have hrun : ((Program.execute (webFleet.respond 0) webOtherTable
      (runnerProgram (webFleet.job 0).rt)).map fun r =>
        (r.2.1.stored webFleet.identifier).map DeploymentResp.jobId) = some (some "") := by
    decide +kernel
  obtain ⟨⟨trace, t', result⟩, hexecute, hjobId⟩ := Option.map_eq_some_iff.1 hrun
  have hruns := Program.runs_execute (Fleet.responds_of_respond 0) hexecute
  have hstored : webOtherTable.stored webFleet.identifier = some webOther := by decide +kernel
  have hother : webOther.jobId ≠ (webFleet.job 0).jobId := by decide
  have hsame := Fleet.stored_of_solo hkeeps (fun _ _ => trivial) hruns hother hstored rfl
    (Reaches.cons trivial hstart .refl) hrunner
  have hjobId' : (t'.stored webFleet.identifier).map DeploymentResp.jobId = some "" := hjobId
  rw [hsame] at hjobId'
  exact absurd (Option.some.inj hjobId') (by decide)

end TerraformRunner
end InfraWeave
