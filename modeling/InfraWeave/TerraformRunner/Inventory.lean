import InfraWeave.TerraformRunner.Fleet
import InfraWeave.TerraformRunner.PolicyGate

/-!
# The inventory of a deployment

A job that has changed the infrastructure captures what there is afterwards: the resources in the
state, and the outputs.  Every record that is stored holds the inventory that its writer knows.
-/

namespace InfraWeave
namespace TerraformRunner

open EnvCommon

/-! ## The order of a job -/

/-- A job is known before it starts, and has started before it changes anything. -/
structure Progress.Ordered (p : Progress) : Prop where
  initial : p.identified.isSome = true → p.initial.isSome = true
  halted : p.halted = true → p.identified = none
  started : p.started = true → p.identified.isSome = true
  change : p.change.isSome = true → p.started = true

theorem Progress.Ordered.of_deeds {p p' : Progress} (hordered : p.Ordered)
    (hdeeds : p'.deeds = p.deeds) (hinitial : p.initial.isSome = true → p'.initial.isSome = true)
    (hhalted : p'.halted = true → p.halted = true ∨ p.identified = none) : p'.Ordered := by
  simp only [Progress.deeds, Prod.mk.injEq] at hdeeds
  obtain ⟨⟨-, hidentified⟩, hstarted, hchange, -⟩ := hdeeds
  constructor
  · rw [hidentified]
    exact fun hid => hinitial (hordered.initial hid)
  · rw [hidentified]
    exact fun heq => (hhalted heq).elim hordered.halted id
  · rw [hstarted, hidentified]
    exact hordered.started
  · rw [hchange, hstarted]
    exact hordered.change

theorem Progress.Ordered.after {rt : Runtime} {p : Progress} (hordered : p.Ordered)
    {op : Operation} (hallowed : Allowed rt p op) (answer : op.Answer) :
    (p.after rt.parseJson op answer).Ordered := by
  have hfailed : p.failed.Ordered := by
    have hlooked := p.looksUp_failed ⟨op, answer⟩
    exact hordered.of_deeds hlooked.deeds hlooked.initial hlooked.halted
  cases op with
  | getCurrentJobId =>
      cases answer with
      | error e => exact hfailed
      | panic message => exact hfailed
      | value jobId =>
          change Progress.Ordered (if _ then _ else _)
          split
          · rename_i hinitial
            have hnot : p.halted ≠ true := by
              rw [show p.halted = false from hallowed]
              exact Bool.false_ne_true
            exact
              { hordered with
                initial := fun _ => hinitial
                halted := fun heq => absurd heq hnot
                started := fun _ => rfl }
          · exact { hordered with }
  | setDeployment record isPlan =>
      obtain ⟨h, epoch, -, hmay, rfl, -⟩ := hallowed
      cases answer with
      | error e => exact { hordered with }
      | panic message => exact { hordered with }
      | value _ =>
          refine
            { hordered with
              started := fun hstarted => ?_
              change := fun hchange => Bool.or_eq_true_iff.2 (.inl (hordered.change hchange)) }
          rcases Bool.or_eq_true_iff.1 hstarted with hstarted | hinitiated
          · exact hordered.started hstarted
          · have hstatus : h.status = .initiated := of_decide_eq_true hinitiated
            rcases hmay.isFinal with hfinal | ⟨-, -, -, -, source, -, hid⟩
            · rw [hstatus] at hfinal
              cases hfinal
            · exact Option.isSome_iff_exists.2 ⟨_, hid⟩
  | terraform command =>
      change (p.ran rt.parseJson command answer).Ordered
      rcases Progress.ran_cases rt.parseJson p command answer with
        ⟨hchange, succeeded, hran, -⟩ | ⟨-, stdout, -, hran⟩ | ⟨-, stdout, json, -, -, hran⟩ |
        ⟨-, -, -, printed, shown, hran⟩
      · rw [hran]
        exact { hordered with change := fun _ => (MayRun.change hallowed hchange).started }
      · rw [hran]
        exact { hordered with }
      · rw [hran]
        exact { hordered with }
      · rw [hran]
        exact { hordered with }
  | _ =>
      have hlooked := Progress.looksUp_after rt.parseJson p (by trivial) answer
      exact hordered.of_deeds hlooked.deeds hlooked.initial hlooked.halted

/-! ## Inventories -/

structure Inventory where
  resources : Option (List String)
  output : Json
  deriving DecidableEq

namespace Inventory

def empty : Inventory :=
  ⟨none, .null⟩

/-- What a command captures, after what was captured before it. -/
def capture (parseJson : String → Except String Json) (captured : Option Inventory) :
    Event → Option Inventory
  | ⟨.terraform command, .value stdout⟩ =>
      let before := captured.getD empty
      if command.args.head? = some "state" then
        some { before with resources := some (resourcesOf stdout) }
      else if command.args.head? = some "output" then
        match parseJson stdout with
        | .ok json => some { before with output := sanitizeTerraformOutput json }
        | .error _ => captured
      else captured
  | _ => captured

end Inventory

def Progress.inventory (p : Progress) : Inventory :=
  ⟨p.resources, p.output⟩

namespace Fleet

/-- The runners, and what was captured last. -/
abbrev History :=
  State × Option Inventory

variable (fleet : Fleet)

def inventory (s : State) : Inventory :=
  (fleet.stored s).elim .empty fun record => ⟨record.tfResources, record.output⟩

def capture (captured : Option Inventory) : Act → Option Inventory
  | .call i op answer => Inventory.capture (fleet.job i).rt.parseJson captured ⟨op, answer⟩
  | _ => captured

def HistoryStep (h : History) (a : Act) (h' : History) : Prop :=
  fleet.Step h.1 a h'.1 ∧ h'.2 = fleet.capture h.2 a

/-- An act of a job whose change has succeeded. -/
def IsLate (s : State) (a : Act) : Prop :=
  ∃ i op answer, a = .call i op answer ∧ (s.progress i).change = some true

/-! ## What is asked -/

/-- The record of the deployment holds what was captured last, unless a job has captured something
since it has stored a record and goes on. -/
def Preserved (h : History) : Prop :=
  (∀ i, Ended h.1 i ∨ (h.1.progress i).unsaved = false) →
    fleet.inventory h.1 = h.2.getD .empty

/-- Nothing was captured before a record of the deployment is stored by a request, by a job that has
not made its change, or by a drift check; no change is made after one that has succeeded; one that
has failed captures nothing, and one that has succeeded stores what it sends. -/
structure Spares (h : History) (a : Act) : Prop where
  early : (fleet.metadata a).isSome = true → ¬ IsLate h.1 a → h.2 = none
  alone : ∀ i command answer, a = .call i (.terraform command) answer → command.IsChange →
    ∀ k, k ≠ i → (h.1.progress k).change ≠ some true
  succeeds : ∀ i command stdout, a = .call i (.terraform command) (.value stdout) →
    command.args.head? = some "state" → (h.1.progress i).change = some true
  stores : ∀ i record isPlan answer, a = .call i (.setDeployment record isPlan) answer →
    IsLate h.1 a → answer = .value ()

/-! ## What is kept -/

/-- The job has captured what was captured last, and stored it unless it is to do so. -/
structure Owned (h : History) (captured : Inventory) (k : Nat) : Prop where
  change : (h.1.progress k).change = some true
  alone : ∀ i, (h.1.progress i).change = some true → i = k
  inventory : (h.1.progress k).inventory = captured
  stored : (h.1.progress k).unsaved = true ∨ fleet.inventory h.1 = captured

/-- Nothing was captured since the beginning, and no job can change anything. -/
structure Untouched (h : History) (captured : Inventory) : Prop where
  started : ∀ i, (fleet.job i).isPlan = false → (h.1.progress i).started = false
  inventory : fleet.inventory h.1 = captured

structure Kept (h : History) : Prop where
  sound : fleet.Sound h.1
  ordered : ∀ i, (h.1.progress i).Ordered
  isPlan : ∀ i, (h.1.progress i).change.isSome = true → (fleet.job i).isPlan = false
  sendFailed : ∀ i, (h.1.progress i).change = some true → (h.1.progress i).sendFailed = false
  alone : ∀ i k, (h.1.progress i).change = some true → (h.1.progress k).change = some true → i = k
  fresh : h.2 = none →
    fleet.inventory h.1 = .empty ∧ ∀ i, (h.1.progress i).inventory = .empty
  captured : ∀ captured, h.2 = some captured →
    fleet.Untouched h captured ∨ ∃ k, fleet.Owned h captured k

variable {fleet : Fleet} {h h' : History} {a : Act} {captured : Inventory} {i k : Nat}

theorem Untouched.not_change (huntouched : fleet.Untouched h captured) (hkept : fleet.Kept h)
    (i : Nat) : (h.1.progress i).change = none := by
  by_contra hsome
  have hchange := Option.isSome_iff_ne_none.2 hsome
  have hstarted := (hkept.ordered i).change hchange
  rw [huntouched.started i (hkept.isPlan i hchange)] at hstarted
  cases hstarted

/-- A job that has captured something is the only one that may. -/
theorem Kept.owned (hkept : fleet.Kept h) (hcaptured : h.2 = some captured)
    (hchange : (h.1.progress i).change = some true) : fleet.Owned h captured i := by
  rcases hkept.captured captured hcaptured with huntouched | ⟨k, howned⟩
  · rw [huntouched.not_change hkept i] at hchange
    cases hchange
  · rw [howned.alone i hchange]
    exact howned

/-- Nothing is known to the jobs that matters here. -/
theorem Kept.frame (hkept : fleet.Kept h) (hsound : fleet.Sound h'.1)
    (hprogress : h'.1.progress = h.1.progress) (hcaptured : h'.2 = h.2)
    (hinventory : fleet.inventory h'.1 = fleet.inventory h.1) : fleet.Kept h' := by
  refine ⟨hsound, ?_, ?_, ?_, ?_, ?_, ?_⟩
  · rw [hprogress]
    exact hkept.ordered
  · rw [hprogress]
    exact hkept.isPlan
  · rw [hprogress]
    exact hkept.sendFailed
  · rw [hprogress]
    exact hkept.alone
  · rw [hcaptured, hinventory, hprogress]
    exact hkept.fresh
  · rw [hcaptured]
    intro captured hsome
    rcases hkept.captured captured hsome with huntouched | ⟨k, howned⟩
    · exact .inl
        ⟨by rw [hprogress]; exact huntouched.started, hinventory.trans huntouched.inventory⟩
    · refine .inr ⟨k, ?_, ?_, ?_, ?_⟩
      · rw [hprogress]
        exact howned.change
      · rw [hprogress]
        exact howned.alone
      · rw [hprogress]
        exact howned.inventory
      · rw [hprogress, hinventory]
        exact howned.stored

/-- The inventory after an act, by the record that it stores. -/
theorem inventory_step (hsound : fleet.Sound h.1) (hstep : fleet.Step h.1 a h'.1) :
    fleet.inventory h'.1 = match fleet.metadata a with
      | some record => ⟨record.tfResources, record.output⟩
      | none => fleet.inventory h.1 := by
  unfold inventory
  rw [hstep.stored hsound]
  cases fleet.metadata a with
  | none => rfl
  | some record => rfl

/-- What the runner of an act is told, with the other runners as they were. -/
structure Moves (h h' : History) (i : Nat) (p' : Progress) : Prop where
  self : h'.1.progress i = p'
  others : ∀ k, k ≠ i → h'.1.progress k = h.1.progress k

theorem Step.moves {op : Operation} {answer : op.Answer}
    (hstep : fleet.Step h.1 (.call i op answer) h'.1) :
    Moves h h' i ((h.1.progress i).after (fleet.job i).rt.parseJson op answer) := by
  refine ⟨hstep.progress_call, fun k hk => ?_⟩
  rcases hstep.progress k with hsame | ⟨op', answer', hact, -⟩
  · exact hsame
  · cases hact
    exact absurd rfl hk

/-- A property of every runner is one of the runner that has moved and of the others. -/
theorem Moves.forall {p' : Progress} (hmoves : Moves h h' i p') {q : Nat → Progress → Prop}
    (hself : q i p') (hothers : ∀ k, q k (h.1.progress k)) : ∀ k, q k (h'.1.progress k) := by
  intro k
  by_cases hk : k = i
  · subst hk
    rw [hmoves.self]
    exact hself
  · rw [hmoves.others k hk]
    exact hothers k

/-- An operation that neither captures, changes nor stores anything. -/
theorem Kept.quiet {p' : Progress} (hkept : fleet.Kept h) (hsound : fleet.Sound h'.1)
    (hmoves : Moves h h' i p') (hordered : p'.Ordered)
    (hchange : p'.change = (h.1.progress i).change)
    (hstarted : (fleet.job i).isPlan = false → h.2 ≠ none → (h.1.progress i).change ≠ some true →
      p'.started = (h.1.progress i).started)
    (hinventory : h.2 = none → p'.inventory = .empty)
    (hfailed : (h.1.progress i).change = some true →
      p'.sendFailed = (h.1.progress i).sendFailed)
    (howner : h.2 ≠ none → (h.1.progress i).change = some true →
      p'.inventory = (h.1.progress i).inventory ∧ p'.unsaved = (h.1.progress i).unsaved)
    (hcaptured : h'.2 = h.2) (hstored : fleet.inventory h'.1 = fleet.inventory h.1) :
    fleet.Kept h' := by
  have hsame : ∀ k, (h'.1.progress k).change = (h.1.progress k).change :=
    hmoves.forall (q := fun k p => p.change = (h.1.progress k).change) hchange fun _ => rfl
  refine ⟨hsound, ?_, ?_, ?_, ?_, ?_, ?_⟩
  · exact hmoves.forall (q := fun _ p => p.Ordered) hordered hkept.ordered
  · intro k hk
    rw [hsame] at hk
    exact hkept.isPlan k hk
  · intro k hk
    rw [hsame] at hk
    by_cases hki : k = i
    · subst hki
      rw [hmoves.self, hfailed hk]
      exact hkept.sendFailed k hk
    · rw [hmoves.others k hki]
      exact hkept.sendFailed k hk
  · intro k l hk hl
    rw [hsame] at hk hl
    exact hkept.alone k l hk hl
  · intro hnone
    rw [hcaptured] at hnone
    obtain ⟨hempty, hall⟩ := hkept.fresh hnone
    refine ⟨hstored.trans hempty, ?_⟩
    exact hmoves.forall (q := fun _ p => p.inventory = .empty) (hinventory hnone) hall
  · intro captured hsome
    rw [hcaptured] at hsome
    have hne : h.2 ≠ none := by
      rw [hsome]
      exact Option.some_ne_none captured
    rcases hkept.captured captured hsome with huntouched | ⟨k, howned⟩
    · refine .inl ⟨?_, hstored.trans huntouched.inventory⟩
      refine hmoves.forall (q := fun k p => (fleet.job k).isPlan = false → p.started = false) ?_
        huntouched.started
      intro hplan
      have hnot : (h.1.progress i).change ≠ some true := by
        rw [huntouched.not_change hkept i]
        exact Option.some_ne_none true |>.symm
      rw [hstarted hplan hne hnot]
      exact huntouched.started i hplan
    · refine .inr ⟨k, ?_, ?_, ?_, ?_⟩
      · rw [hsame]
        exact howned.change
      · intro l hl
        rw [hsame] at hl
        exact howned.alone l hl
      · by_cases hki : k = i
        · subst hki
          rw [hmoves.self, (howner hne howned.change).1]
          exact howned.inventory
        · rw [hmoves.others k hki]
          exact howned.inventory
      · rw [hstored]
        by_cases hki : k = i
        · subst hki
          rw [hmoves.self, (howner hne howned.change).2]
          exact howned.stored
        · rw [hmoves.others k hki]
          exact howned.stored

/-! ## Acts of a runner -/

/-- The record with which a job begins is that of the deployment. -/
theorem stored_of_initial (hsound : fleet.Sound h.1) {deploymentId environment : String}
    {includeDeleted : Bool} {found : Option DeploymentResp}
    (hstep : fleet.Step h.1
      (.call i (.getDeployment deploymentId environment includeDeleted) (.value found)) h'.1)
    (hinitial : (h.1.progress i).initial = none) :
    ∀ record, found = some record → fleet.stored h.1 = some record := by
  rintro record rfl
  obtain ⟨rfl, hsome | ⟨rfl, rfl, -⟩⟩ := hsound.allowed hstep
  · rw [hinitial] at hsome
    cases hsome
  · have hread := hstep.responds.2 _ rfl
    rw [Deployments.getDeployment_eq _ _ _ hsound.wellFormed] at hread
    obtain ⟨hstored, -⟩ := Option.filter_eq_some_iff.1 (Except.ok.inj hread)
    have hid : getDeploymentIdentifier fleet.handler.projectId fleet.handler.region
        (fleet.job i).rt.payload.deploymentId (fleet.job i).rt.payload.environment =
          fleet.identifier := by
      rw [← fleet.identifier_eq i, ← fleet.handler_eq i]
      rfl
    unfold Fleet.stored
    rw [← hid]
    exact hstored

theorem Kept.lookup {op : Operation} {answer : op.Answer} (hkept : fleet.Kept h)
    (hlookup : op.IsLookup) (hstep : fleet.HistoryStep h (.call i op answer) h') :
    fleet.Kept h' := by
  obtain ⟨hstep, hcaptured⟩ := hstep
  have hlooked := Progress.looksUp_after (fleet.job i).rt.parseJson (h.1.progress i) hlookup answer
  have hordered := (hkept.ordered i).after (hkept.sound.allowed hstep) answer
  have hmeta : fleet.metadata (.call i op answer) = none := by
    cases op with
    | setDeployment record isPlan => cases hlookup
    | _ => rfl
  have hcapture : fleet.capture h.2 (.call i op answer) = h.2 := by
    cases op with
    | terraform command => cases hlookup
    | _ => rfl
  have hstored : fleet.inventory h'.1 = fleet.inventory h.1 := by
    rw [inventory_step hkept.sound hstep, hmeta]
  have hdeeds := hlooked.deeds
  simp only [Progress.deeds, Prod.mk.injEq] at hdeeds
  obtain ⟨-, hstarted, hchange, hresources, hunsaved, -, hfailed⟩ := hdeeds
  refine hkept.quiet (hkept.sound.step hstep) (Step.moves hstep) hordered hchange
    (fun _ _ _ => hstarted) ?_ (fun _ => hfailed) ?_ (hcaptured.trans hcapture) hstored
  · intro hnone
    obtain ⟨hempty, hall⟩ := hkept.fresh hnone
    obtain ⟨hres, hout⟩ := Inventory.mk.inj (hall i)
    have houtput : (Progress.after (fleet.job i).rt.parseJson (h.1.progress i) op answer).output =
        .null := by
      rcases hlooked.output with hsame | ⟨hinitial, d, e, b, found, hevent, heq⟩
      · exact hsame.trans hout
      · rw [heq, hout]
        cases hevent
        cases found with
        | none => rfl
        | some record =>
            have hrecord := stored_of_initial hkept.sound hstep hinitial record rfl
            unfold Fleet.inventory at hempty
            rw [hrecord] at hempty
            exact (Inventory.mk.inj hempty).2
    unfold Progress.inventory
    rw [hresources, houtput, hres]
    rfl
  · intro _ hlate
    refine ⟨?_, hunsaved⟩
    -- The record at the beginning was read before the change.
    have hstart := (hkept.ordered i).change (Option.isSome_iff_exists.2 ⟨true, hlate⟩)
    have hsome := (hkept.ordered i).initial ((hkept.ordered i).started hstart)
    unfold Progress.inventory
    rw [hresources]
    rcases hlooked.output with hsame | ⟨hinitial, -⟩
    · rw [hsame]
    · rw [hinitial] at hsome
      cases hsome

theorem Kept.currentJobId {answer : Reply String} (hkept : fleet.Kept h)
    (hstep : fleet.HistoryStep h (.call i .getCurrentJobId answer) h') : fleet.Kept h' := by
  obtain ⟨hstep, hcaptured⟩ := hstep
  have hordered := (hkept.ordered i).after (hkept.sound.allowed hstep) answer
  have hstored := inventory_step hkept.sound hstep
  have hsame : ∃ p',
      (h.1.progress i).after (fleet.job i).rt.parseJson .getCurrentJobId answer = p' ∧
      p'.change = (h.1.progress i).change ∧ p'.started = (h.1.progress i).started ∧
      p'.inventory = (h.1.progress i).inventory ∧ p'.unsaved = (h.1.progress i).unsaved ∧
      p'.sendFailed = (h.1.progress i).sendFailed := by
    have hfailed : ∀ p : Progress, p.failed.change = p.change ∧ p.failed.started = p.started ∧
        p.failed.inventory = p.inventory ∧ p.failed.unsaved = p.unsaved ∧
        p.failed.sendFailed = p.sendFailed := by
      intro p
      unfold Progress.failed
      split
      · exact ⟨rfl, rfl, rfl, rfl, rfl⟩
      · exact ⟨rfl, rfl, rfl, rfl, rfl⟩
    cases answer with
    | error e => exact ⟨_, rfl, hfailed _⟩
    | panic message => exact ⟨_, rfl, hfailed _⟩
    | value jobId =>
        refine ⟨_, rfl, ?_⟩
        change (if _ then _ else _ : Progress).change = _ ∧
          (if _ then _ else _ : Progress).started = _ ∧
          (if _ then _ else _ : Progress).inventory = _ ∧
          (if _ then _ else _ : Progress).unsaved = _ ∧
          (if _ then _ else _ : Progress).sendFailed = _
        split
        · exact ⟨rfl, rfl, rfl, rfl, rfl⟩
        · exact ⟨rfl, rfl, rfl, rfl, rfl⟩
  obtain ⟨p', hp', hchange, hstarted, hinventory, hunsaved, hfailed⟩ := hsame
  have hmoves := Step.moves hstep
  rw [hp'] at hmoves hordered
  refine hkept.quiet (hkept.sound.step hstep) hmoves hordered hchange (fun _ _ _ => hstarted)
    (fun hnone => ?_) (fun _ => hfailed) (fun _ _ => ⟨hinventory, hunsaved⟩) hcaptured hstored
  exact hinventory.trans ((hkept.fresh hnone).2 i)

/-- A job whose change has succeeded knows what was captured last. -/
theorem Kept.inventory_late (hkept : fleet.Kept h) (hlate : (h.1.progress i).change = some true) :
    (h.1.progress i).inventory = h.2.getD .empty := by
  cases hcaptured : h.2 with
  | none => exact (hkept.fresh hcaptured).2 i
  | some captured => exact (hkept.owned hcaptured hlate).inventory

theorem Kept.sendFails {record : DeploymentResp} {isPlan : Bool} {answer : Reply Unit}
    (hkept : fleet.Kept h) (hfails : answer ≠ .value ())
    (hspares : fleet.Spares h (.call i (.setDeployment record isPlan) answer))
    (hstep : fleet.HistoryStep h (.call i (.setDeployment record isPlan) answer) h') :
    fleet.Kept h' := by
  obtain ⟨hstep, hcaptured⟩ := hstep
  have hordered := (hkept.ordered i).after (hkept.sound.allowed hstep) answer
  have hnot : (h.1.progress i).change ≠ some true :=
    fun hlate => hfails (hspares.stores i record isPlan answer rfl ⟨i, _, _, rfl, hlate⟩)
  have hmoves := Step.moves hstep
  have hstored := inventory_step hkept.sound hstep
  cases answer with
  | value _ => exact absurd rfl hfails
  | error e =>
      exact hkept.quiet (hkept.sound.step hstep) hmoves hordered rfl (fun _ _ _ => rfl)
        (fun hnone => (hkept.fresh hnone).2 i) (fun hlate => absurd hlate hnot)
        (fun _ hlate => absurd hlate hnot) hcaptured hstored
  | panic message =>
      exact hkept.quiet (hkept.sound.step hstep) hmoves hordered rfl (fun _ _ _ => rfl)
        (fun hnone => (hkept.fresh hnone).2 i) (fun hlate => absurd hlate hnot)
        (fun _ hlate => absurd hlate hnot) hcaptured hstored

theorem Kept.send {record : DeploymentResp} {isPlan : Bool} (hkept : fleet.Kept h)
    (hspares : fleet.Spares h (.call i (.setDeployment record isPlan) (.value ())))
    (hstep : fleet.HistoryStep h (.call i (.setDeployment record isPlan) (.value ())) h') :
    fleet.Kept h' := by
  obtain ⟨hstep, hcaptured⟩ := hstep
  have hordered := (hkept.ordered i).after (hkept.sound.allowed hstep) (.value ())
  have hmoves := Step.moves hstep
  obtain ⟨hd, epoch, hfits, -, rfl, -, hplan⟩ := hkept.sound.sent hstep
  have hsent : (Inventory.mk hd.tfResources hd.output) = (h.1.progress i).inventory := by
    rw [hfits.tfResources, hfits.output]
    rfl
  have hmeta : fleet.metadata
      (.call i (.setDeployment (hd.deployment (fleet.job i).rt.parseDuration epoch) isPlan)
        (.value ())) =
      if isPlan = false ∨ hd.hasDrifted = true then
        some (hd.deployment (fleet.job i).rt.parseDuration epoch) else none := rfl
  have hstored := inventory_step hkept.sound hstep
  rw [hmeta] at hstored
  by_cases hlate : (h.1.progress i).change = some true
  · -- A job that has made a change is not a plan, so that its record is that of the deployment.
    have hnotPlan : (fleet.job i).isPlan = false :=
      hkept.isPlan i (Option.isSome_iff_exists.2 ⟨true, hlate⟩)
    have hfalse : isPlan = false := by
      cases isPlan with
      | false => rfl
      | true =>
          rw [hplan rfl] at hnotPlan
          cases hnotPlan
    rw [if_pos (.inl hfalse)] at hstored
    have hinventory : fleet.inventory h'.1 = h.2.getD .empty :=
      hstored.trans (hsent.trans (hkept.inventory_late hlate))
    cases hnone : h.2 with
    | none =>
        rw [hnone] at hinventory
        exact hkept.quiet (hkept.sound.step hstep) hmoves hordered rfl
          (fun _ _ hnot => absurd hlate hnot) (fun hnone => (hkept.fresh hnone).2 i)
          (fun _ => rfl) (fun hsome => absurd hnone hsome) hcaptured
          (hinventory.trans (hkept.fresh hnone).1.symm)
    | some captured =>
        have howned := hkept.owned hnone hlate
        rw [hnone] at hinventory
        have hsame : ∀ k, (h'.1.progress k).change = (h.1.progress k).change :=
          hmoves.forall (q := fun k p => p.change = (h.1.progress k).change) rfl fun _ => rfl
        refine ⟨hkept.sound.step hstep, ?_, ?_, ?_, ?_, ?_, ?_⟩
        · exact hmoves.forall (q := fun _ p => p.Ordered) hordered hkept.ordered
        · intro k hk
          rw [hsame] at hk
          exact hkept.isPlan k hk
        · refine hmoves.forall (q := fun _ p => p.change = some true → p.sendFailed = false) ?_
            hkept.sendFailed
          exact fun _ => hkept.sendFailed i hlate
        · intro k l hk hl
          rw [hsame] at hk hl
          exact hkept.alone k l hk hl
        · intro hnone'
          have hnone'' : h.2 = none := hcaptured.symm.trans hnone'
          rw [hnone] at hnone''
          cases hnone''
        · intro captured' hsome
          have hsome' : h.2 = some captured' := hcaptured.symm.trans hsome
          obtain rfl := Option.some.inj (hnone.symm.trans hsome')
          refine .inr ⟨i, ?_, ?_, ?_, .inr hinventory⟩
          · rw [hsame]
            exact hlate
          · intro k hk
            rw [hsame] at hk
            exact howned.alone k hk
          · rw [hmoves.self]
            exact howned.inventory
  · by_cases hwrites : isPlan = false ∨ hd.hasDrifted = true
    · have hnone : h.2 = none := by
        refine hspares.early ?_ ?_
        · rw [hmeta, if_pos hwrites]
          rfl
        · rintro ⟨k, op, answer, hact, hk⟩
          cases hact
          exact hlate hk
      rw [if_pos hwrites] at hstored
      obtain ⟨hempty, hall⟩ := hkept.fresh hnone
      exact hkept.quiet (hkept.sound.step hstep) hmoves hordered rfl
        (fun _ hsome _ => absurd hnone hsome) (fun _ => hall i)
        (fun hlate' => absurd hlate' hlate) (fun hsome => absurd hnone hsome) hcaptured
        ((hstored.trans (hsent.trans (hall i))).trans hempty.symm)
    · -- The record of a plan is of no interest.
      rw [if_neg hwrites] at hstored
      have hisPlan : (fleet.job i).isPlan = true :=
        hplan (Bool.not_eq_false _ ▸ fun hfalse => hwrites (.inl hfalse))
      refine hkept.quiet (hkept.sound.step hstep) hmoves hordered rfl (fun hnot => ?_)
        (fun hnone => (hkept.fresh hnone).2 i) (fun hlate' => absurd hlate' hlate)
        (fun _ hlate' => absurd hlate' hlate) hcaptured hstored
      rw [hisPlan] at hnot
      cases hnot

/-- The change of a job is made while nothing was captured. -/
theorem Kept.change {command : TerraformCommand} {answer : Reply String} (hkept : fleet.Kept h)
    (hchange : command.IsChange) (hspares : fleet.Spares h (.call i (.terraform command) answer))
    (hstep : fleet.Step h.1 (.call i (.terraform command) answer) h'.1)
    (hcaptured : h'.2 = h.2) {succeeded : Bool}
    (hran : (h.1.progress i).ran (fleet.job i).rt.parseJson command answer =
      { h.1.progress i with change := some succeeded }) : fleet.Kept h' := by
  have hallowed := hkept.sound.allowed hstep
  have hmay := MayRun.change hallowed hchange
  have hordered := (hkept.ordered i).after hallowed answer
  have hmoves := Step.moves hstep
  have hstored := inventory_step hkept.sound hstep
  change Moves h h' i ((h.1.progress i).ran (fleet.job i).rt.parseJson command answer) at hmoves
  change ((h.1.progress i).ran (fleet.job i).rt.parseJson command answer).Ordered at hordered
  rw [hran] at hmoves hordered
  have hnotPlan : (fleet.job i).isPlan = false := by
    refine decide_eq_false fun heq => ?_
    rcases hmay.isChange with hcommand | hcommand
    · rw [hcommand] at heq
      exact absurd heq (by decide)
    · rw [hcommand] at heq
      exact absurd heq (by decide)
  have hnone : h.2 = none := by
    cases hsome : h.2 with
    | none => rfl
    | some captured =>
        rcases hkept.captured captured hsome with huntouched | ⟨k, howned⟩
        · have hstarted := huntouched.started i hnotPlan
          rw [hmay.started] at hstarted
          cases hstarted
        · by_cases hki : k = i
          · have hmade := howned.change
            rw [hki, hmay.unchanged] at hmade
            cases hmade
          · exact absurd howned.change (hspares.alone i command answer rfl hchange k hki)
  refine ⟨hkept.sound.step hstep, ?_, ?_, ?_, ?_, ?_, ?_⟩
  · exact hmoves.forall (q := fun _ p => p.Ordered) hordered hkept.ordered
  · exact hmoves.forall (q := fun k p => p.change.isSome = true → (fleet.job k).isPlan = false)
      (fun _ => hnotPlan) hkept.isPlan
  · exact hmoves.forall (q := fun _ p => p.change = some true → p.sendFailed = false)
      (fun _ => hmay.stored) hkept.sendFailed
  · have hself : ∀ k, (h'.1.progress k).change = some true → k = i := by
      intro k hk
      by_contra hki
      rw [hmoves.others k hki] at hk
      exact hspares.alone i command answer rfl hchange k hki hk
    intro k l hk hl
    rw [hself k hk, hself l hl]
  · intro _
    obtain ⟨hempty, hall⟩ := hkept.fresh hnone
    exact ⟨hstored.trans hempty, hmoves.forall (q := fun _ p => p.inventory = .empty) (hall i) hall⟩
  · intro captured hsome
    rw [hcaptured, hnone] at hsome
    cases hsome

/-- A job whose change has succeeded captures something more. -/
theorem Kept.captures {command : TerraformCommand} {answer : Reply String} {p' : Progress}
    {more : Inventory} (hkept : fleet.Kept h) (hlate : (h.1.progress i).change = some true)
    (hstep : fleet.Step h.1 (.call i (.terraform command) answer) h'.1)
    (hran : (h.1.progress i).ran (fleet.job i).rt.parseJson command answer = p')
    (hdeeds : p'.change = (h.1.progress i).change ∧
      p'.sendFailed = (h.1.progress i).sendFailed ∧ p'.unsaved = true)
    (hmore : p'.inventory = more) (hcaptured : h'.2 = some more) : fleet.Kept h' := by
  obtain ⟨hchange, hfailed, hunsaved⟩ := hdeeds
  have hordered := (hkept.ordered i).after (hkept.sound.allowed hstep) answer
  have hmoves := Step.moves hstep
  change Moves h h' i ((h.1.progress i).ran (fleet.job i).rt.parseJson command answer) at hmoves
  change ((h.1.progress i).ran (fleet.job i).rt.parseJson command answer).Ordered at hordered
  rw [hran] at hmoves hordered
  have hsame : ∀ k, (h'.1.progress k).change = (h.1.progress k).change :=
    hmoves.forall (q := fun k p => p.change = (h.1.progress k).change) hchange fun _ => rfl
  refine ⟨hkept.sound.step hstep, ?_, ?_, ?_, ?_, ?_, ?_⟩
  · exact hmoves.forall (q := fun _ p => p.Ordered) hordered hkept.ordered
  · intro k hk
    rw [hsame] at hk
    exact hkept.isPlan k hk
  · refine hmoves.forall (q := fun _ p => p.change = some true → p.sendFailed = false) ?_
      hkept.sendFailed
    exact fun _ => hfailed.trans (hkept.sendFailed i hlate)
  · intro k l hk hl
    rw [hsame] at hk hl
    exact hkept.alone k l hk hl
  · intro hnone
    rw [hcaptured] at hnone
    cases hnone
  · intro captured hsome
    obtain rfl := Option.some.inj (hcaptured.symm.trans hsome)
    refine .inr ⟨i, ?_, ?_, ?_, .inl ?_⟩
    · rw [hsame]
      exact hlate
    · intro k hk
      rw [hsame] at hk
      exact hkept.alone k i hk hlate
    · rw [hmoves.self]
      exact hmore
    · rw [hmoves.self]
      exact hunsaved

theorem Kept.terraform {command : TerraformCommand} {answer : Reply String}
    (hkept : fleet.Kept h) (hspares : fleet.Spares h (.call i (.terraform command) answer))
    (hstep : fleet.HistoryStep h (.call i (.terraform command) answer) h') : fleet.Kept h' := by
  obtain ⟨hstep, hcaptured⟩ := hstep
  have hallowed := hkept.sound.allowed hstep
  change h'.2 = Inventory.capture _ h.2 ⟨.terraform command, answer⟩ at hcaptured
  rcases Progress.ran_cases (fleet.job i).rt.parseJson (h.1.progress i) command answer with
    ⟨hchange, succeeded, hran, -⟩ | ⟨hstate, stdout, rfl, hran⟩ |
    ⟨houtput, stdout, json, rfl, hjson, hran⟩ | ⟨hchange, hstate, houtput, printed, shown, hran⟩
  · refine hkept.change hchange hspares hstep (hcaptured.trans ?_) hran
    have hword : ∀ word, word = "state" ∨ word = "output" → command.args.head? ≠ some word := by
      intro word hword heq
      rcases hchange with hhead | hhead
      · rw [heq] at hhead
        rcases hword with rfl | rfl
        · exact absurd hhead (by decide)
        · exact absurd hhead (by decide)
      · rw [heq] at hhead
        rcases hword with rfl | rfl
        · exact absurd hhead (by decide)
        · exact absurd hhead (by decide)
    cases answer with
    | error e => rfl
    | panic message => rfl
    | value stdout =>
        simp only [Inventory.capture, if_neg (hword "state" (.inl rfl)),
          if_neg (hword "output" (.inr rfl))]
  · have hlate := hspares.succeeds i command stdout rfl hstate
    refine hkept.captures hlate hstep hran ⟨rfl, rfl, rfl⟩ rfl ?_
    rw [hcaptured]
    have hout := congrArg Inventory.output (hkept.inventory_late hlate)
    simp only [Inventory.capture, if_pos hstate, Progress.inventory, Option.some.injEq]
    rw [← hout]
    rfl
  · have hlate := MayRun.output hallowed houtput
    refine hkept.captures hlate hstep hran ⟨rfl, rfl, rfl⟩ rfl ?_
    rw [hcaptured]
    have hres := congrArg Inventory.resources (hkept.inventory_late hlate)
    have hnot : command.args.head? ≠ some "state" := by
      rw [houtput]
      decide
    simp only [Inventory.capture, if_neg hnot, if_pos houtput, hjson, Progress.inventory,
      Option.some.injEq]
    rw [← hres]
    rfl
  · have hmoves := Step.moves hstep
    have hordered := (hkept.ordered i).after hallowed answer
    have hstored := inventory_step hkept.sound hstep
    change Moves h h' i ((h.1.progress i).ran (fleet.job i).rt.parseJson command answer) at hmoves
    change ((h.1.progress i).ran (fleet.job i).rt.parseJson command answer).Ordered at hordered
    rw [hran] at hmoves hordered
    have hsame : h'.2 = h.2 := by
      rw [hcaptured]
      cases answer with
      | error e => rfl
      | panic message => rfl
      | value stdout =>
          have hnot : command.args.head? ≠ some "state" := fun heq => hstate heq stdout rfl
          unfold Inventory.capture
          dsimp only
          rw [if_neg hnot]
          split
          · rename_i hhead
            cases hjson : (fleet.job i).rt.parseJson stdout with
            | error e => rfl
            | ok json => exact absurd hjson (houtput hhead stdout json rfl)
          · rfl
    exact hkept.quiet (hkept.sound.step hstep) hmoves hordered rfl (fun _ _ _ => rfl)
      (fun hnone => (hkept.fresh hnone).2 i) (fun _ => rfl) (fun _ _ => ⟨rfl, rfl⟩) hsame hstored

theorem Kept.step (hkept : fleet.Kept h) (hspares : fleet.Spares h a)
    (hstep : fleet.HistoryStep h a h') : fleet.Kept h' := by
  have hsound := hkept.sound.step hstep.1
  have hstored := inventory_step hkept.sound hstep.1
  cases a with
  | start i =>
      refine hkept.frame hsound ?_ hstep.2 hstored
      funext k
      rcases hstep.1.progress k with hsame | ⟨op, answer, hact, -⟩
      · exact hsame
      · cases hact
  | insert i epoch =>
      refine hkept.frame hsound ?_ hstep.2 ?_
      · funext k
        rcases hstep.1.progress k with hsame | ⟨op, answer, hact, -⟩
        · exact hsame
        · cases hact
      · rw [hstored]
        cases hmeta : fleet.metadata (.insert i epoch) with
        | none => rfl
        | some record =>
            have hnone : h.2 = none := by
              refine hspares.early (by rw [hmeta]; rfl) ?_
              rintro ⟨k, op, answer, hact, -⟩
              cases hact
            change (if _ then none else some _) = _ at hmeta
            split at hmeta
            · cases hmeta
            · obtain rfl := Option.some.inj hmeta
              exact (hkept.fresh hnone).1.symm
  | call i op answer =>
      cases op with
      | getCurrentJobId => exact hkept.currentJobId hstep
      | terraform command => exact hkept.terraform hspares hstep
      | setDeployment record isPlan =>
          cases answer with
          | value _ => exact hkept.send hspares hstep
          | error e => exact hkept.sendFails (by intro heq; cases heq) hspares hstep
          | panic message => exact hkept.sendFails (by intro heq; cases heq) hspares hstep
      | _ =>
          refine hkept.lookup ?_ hstep
          trivial

/-! ## Runs -/

theorem Kept.begin {t : Deployments} {captured : Option Inventory} (hwf : t.WellFormed)
    (hinventory : fleet.inventory (.begin t) = captured.getD .empty) :
    fleet.Kept (.begin t, captured) where
  sound := .begin hwf
  ordered _ := ⟨fun heq => absurd heq Bool.false_ne_true, fun heq => absurd heq Bool.false_ne_true,
    fun heq => absurd heq Bool.false_ne_true, fun heq => absurd heq Bool.false_ne_true⟩
  isPlan _ hchange := absurd hchange Bool.false_ne_true
  sendFailed _ hchange := absurd hchange (Option.some_ne_none true).symm
  alone _ _ hchange := absurd hchange (Option.some_ne_none true).symm
  fresh hnone := by
    have hnone' : captured = none := hnone
    rw [hnone'] at hinventory
    exact ⟨hinventory, fun _ => rfl⟩
  captured captured' hsome := by
    have hsome' : captured = some captured' := hsome
    rw [hsome'] at hinventory
    exact .inl ⟨fun _ _ => rfl, hinventory⟩

theorem Kept.preserved (hkept : fleet.Kept h) : fleet.Preserved h := by
  intro hdone
  cases hcaptured : h.2 with
  | none => exact (hkept.fresh hcaptured).1
  | some captured =>
      rcases hkept.captured captured hcaptured with huntouched | ⟨k, howned⟩
      · exact huntouched.inventory
      rcases howned.stored with hunsaved | hstored
      · -- A job that has ended has stored what it has captured.
        rcases hdone k with hended | hsaved
        · have hchange := Option.isSome_iff_exists.2 ⟨true, howned.change⟩
          have hid := (hkept.ordered k).started ((hkept.ordered k).change hchange)
          rcases hkept.sound.over hended with hhalted | hfailed | ⟨status, -, -, hstored⟩
          · rw [(hkept.ordered k).halted hhalted] at hid
            cases hid
          · rw [hkept.sendFailed k howned.change] at hfailed
            cases hfailed
          · have hnot := hstored hunsaved
            rw [howned.change] at hnot
            cases hnot
        · rw [hsaved] at hunsaved
          cases hunsaved
      · exact hstored

/-- A job that has not made its change leaves the inventory as it is. -/
theorem Kept.inventory_early (hkept : fleet.Kept h) (hspares : fleet.Spares h a)
    (hstep : fleet.HistoryStep h a h') (hearly : ¬ IsLate h.1 a) :
    fleet.inventory h'.1 = fleet.inventory h.1 := by
  have hkept' := hkept.step hspares hstep
  cases hmeta : fleet.metadata a with
  | none =>
      rw [inventory_step hkept.sound hstep.1, hmeta]
  | some record =>
      have hnone : h.2 = none := hspares.early (by rw [hmeta]; rfl) hearly
      have hnone' : h'.2 = none := by
        rw [hstep.2, hnone]
        cases a with
        | start i => rfl
        | insert i epoch => rfl
        | call i op answer =>
            cases op with
            | setDeployment record isPlan => rfl
            | _ => cases hmeta
      exact (hkept'.fresh hnone').1.trans (hkept.fresh hnone).1.symm

/-- In every history in which nothing was captured when a record is stored that does not know it,
the record of the deployment holds what was captured last. -/
theorem inventory_preserved {t : Deployments} {captured : Option Inventory}
    (hwf : t.WellFormed) (hinventory : fleet.inventory (.begin t) = captured.getD .empty)
    (hreaches : Reaches fleet.HistoryStep fleet.Spares (.begin t, captured) h) :
    fleet.Preserved h ∧ ∀ a h', fleet.Spares h a → fleet.HistoryStep h a h' →
      ¬ IsLate h.1 a → fleet.inventory h'.1 = fleet.inventory h.1 := by
  have hkept : fleet.Kept h :=
    hreaches.invariant (fun _ _ _ hkept hspares hstep => hkept.step hspares hstep)
      (.begin hwf hinventory)
  exact ⟨hkept.preserved, fun a h' hspares hstep => hkept.inventory_early hspares hstep⟩

end Fleet

/-! ## A deployment that is applied again -/

/-- The jobs of a deployment that is applied over and over; their ids differ in length. -/
def webFleetJob (i : Nat) : Job where
  rt := webChange
  vars := .object []
  jobId := .ofList (List.replicate i 'x')
  named heq := by
    have hlist : List.replicate i 'x' = "unknown_jobid".toList := by
      rw [← heq, String.toList_ofList]
    cases i with
    | zero => cases hlist
    | succ n => exact absurd (List.cons.inj hlist).1 (by decide)

def webFleet : Fleet where
  handler := ⟨"1", "eu"⟩
  identifier := webJob.identifier
  job := webFleetJob
  handler_eq _ := rfl
  identifier_eq _ := rfl
  distinct i j heq := by
    have hlist : List.replicate i 'x' = List.replicate j 'x' := String.ofList_injective heq
    have hlength := congrArg List.length hlist
    rwa [List.length_replicate, List.length_replicate] at hlength

/-- The table after the record is stored. -/
def webStored (t : Deployments) (record : DeploymentResp) : Deployments :=
  (setDeployment t webFleet.handler record false).writes.foldl KeyedTable.transact t

/-- Nothing is asked of a client but that nothing was captured. -/
theorem Fleet.spares_of_ne_call {fleet : Fleet} {h : Fleet.History} {a : Fleet.Act}
    (hcall : ∀ i op answer, a ≠ .call i op answer) (hnone : h.2 = none) : fleet.Spares h a where
  early _ _ := hnone
  alone i _ _ heq := absurd heq (hcall i _ _)
  succeeds i _ _ heq := absurd heq (hcall i _ _)
  stores i _ _ _ heq := absurd heq (hcall i _ _)

theorem inventory_preserved_web : ∃ h : Fleet.History,
    Reaches webFleet.HistoryStep webFleet.Spares (.begin .empty, none) h ∧
      (webFleet.stored h.1).isSome = true ∧ webFleet.Preserved h := by
  have hsaves : Saves webFleet.handler .empty ((webFleet.job 0).request 0)
      (webFleet.job 0).isPlan (webStored .empty ((webFleet.job 0).request 0)) :=
    ⟨by decide +kernel, rfl⟩
  let begun : Fleet.State := .begin .empty
  let started : Fleet.State :=
    { begun with
      runner := Function.update begun.runner 0 (some (runnerProgram (webFleet.job 0).rt)) }
  let inserted : Fleet.State :=
    { started with
      table := webStored .empty ((webFleet.job 0).request 0)
      requested := Function.update started.requested 0 true }
  have hstart : webFleet.Step begun (.start 0) started := .start rfl
  have hinsert : webFleet.Step started (.insert 0 0) inserted :=
    .insert (Option.some_ne_none _) rfl hsaves
  have hfirst : webFleet.HistoryStep (begun, none) (.start 0) (started, none) := ⟨hstart, rfl⟩
  have hsecond : webFleet.HistoryStep (started, none) (.insert 0 0) (inserted, none) :=
    ⟨hinsert, rfl⟩
  have hreaches : Reaches webFleet.HistoryStep webFleet.Spares (begun, none) (inserted, none) :=
    Reaches.cons (Fleet.spares_of_ne_call (by intro i op answer heq; cases heq) rfl) hfirst
      (Reaches.cons (Fleet.spares_of_ne_call (by intro i op answer heq; cases heq) rfl) hsecond
        .refl)
  have hempty : webFleet.inventory begun = (none : Option Inventory).getD .empty := by
    decide +kernel
  have hsome : (webFleet.stored inserted).isSome = true := by decide +kernel
  exact ⟨(inserted, none), hreaches, hsome,
    (Fleet.inventory_preserved Deployments.wellFormed_empty hempty hreaches).1⟩

/-- The record of a deployment that has been applied. -/
def webApplied : DeploymentResp :=
  { (webFleet.job 0).request 0 with status := .successful, tfResources := some ["bucket"] }

/-- A new request erases the inventory of the job before it. -/
theorem inventory_not_preserved_web : ¬ ∀ (fleet : Fleet) (t : Deployments)
    (captured : Option Inventory) (h : Fleet.History), t.WellFormed →
      fleet.inventory (.begin t) = captured.getD .empty →
        Reaches fleet.HistoryStep (fun _ _ => True) (.begin t, captured) h →
          fleet.Preserved h := by
  intro hall
  have happlied : Saves webFleet.handler .empty webApplied false (webStored .empty webApplied) :=
    ⟨by decide +kernel, rfl⟩
  have hsaves : Saves webFleet.handler (webStored .empty webApplied) ((webFleet.job 1).request 0)
      (webFleet.job 1).isPlan
      (webStored (webStored .empty webApplied) ((webFleet.job 1).request 0)) :=
    ⟨by decide +kernel, rfl⟩
  let begun : Fleet.State := .begin (webStored .empty webApplied)
  let started : Fleet.State :=
    { begun with
      runner := Function.update begun.runner 1 (some (runnerProgram (webFleet.job 1).rt)) }
  let inserted : Fleet.State :=
    { started with
      table := webStored (webStored .empty webApplied) ((webFleet.job 1).request 0)
      requested := Function.update started.requested 1 true }
  have hstart : webFleet.Step begun (.start 1) started := .start rfl
  have hinsert : webFleet.Step started (.insert 1 0) inserted :=
    .insert (Option.some_ne_none _) rfl hsaves
  let captured : Option Inventory := some ⟨some ["bucket"], .null⟩
  have hreaches : Reaches webFleet.HistoryStep (fun _ _ => True) (begun, captured)
      (inserted, captured) := by
    have hfirst : webFleet.HistoryStep (begun, captured) (.start 1) (started, captured) :=
      ⟨hstart, rfl⟩
    have hsecond : webFleet.HistoryStep (started, captured) (.insert 1 0) (inserted, captured) :=
      ⟨hinsert, rfl⟩
    exact Reaches.cons trivial hfirst (Reaches.cons trivial hsecond .refl)
  have hinventory : webFleet.inventory begun = captured.getD .empty := by decide +kernel
  have hpreserved := hall webFleet _ captured (inserted, captured)
    (happlied.wellFormed Deployments.wellFormed_empty) hinventory hreaches fun _ => .inr rfl
  have herased : webFleet.inventory inserted ≠ captured.getD .empty := by decide +kernel
  exact herased hpreserved

end TerraformRunner
end InfraWeave
