import InfraWeave.TerraformRunner.Progress

/-!
# Runners keep to what they may ask for

Every operation of a runner is allowed at the point at which it is called, whatever the answers
were.  A step that stops has stored a final status, or leaves that to the crash guard.
-/

namespace InfraWeave
namespace TerraformRunner

open EnvCommon (DeploymentStatusHandler initiateDeploymentStatusHandler)
open Runner

variable (rt : Runtime)

/-- A final status is stored, unless the store has failed, with what was captured if the change has
not failed. -/
def Progress.Reported (p : Progress) : Prop :=
  p.sendFailed = true ∨ ∃ status, p.last = some status ∧ status.isFinal = true ∧
    (p.unsaved = true → p.change = some false)

/-- A handler with a final status has stored it. -/
structure Stands (p : Progress) (h : DeploymentStatusHandler) : Prop where
  fits : Fits rt p h
  reported : h.status.isFinal = true → p.Reported

def Stopped (p : Progress) (h : DeploymentStatusHandler) : Stop → Prop
  | .exited _ => p.halted = true ∨ p.Reported
  | _ => Stands rt p h

/-- The result is as the postcondition says, or the step has stopped. -/
def Ends {α : Type} (post : α → Progress → DeploymentStatusHandler → Prop) (p : Progress) :
    Except Stop α → DeploymentStatusHandler → Prop
  | .ok a, h => post a p h
  | .error stop, h => Stopped rt p h stop

def Conforms {α : Type} (p : Progress) (h : DeploymentStatusHandler) (x : Runner α)
    (post : α → Progress → DeploymentStatusHandler → Prop) : Prop :=
  Process.WP (jobEnvironment rt) (Ends rt post) p h x

/-! ## Rules -/

section

variable {rt} {α β : Type} {p : Progress} {h : DeploymentStatusHandler}
  {post : β → Progress → DeploymentStatusHandler → Prop}

theorem Conforms.bind {x : Runner α} {f : α → Runner β}
    {mid : α → Progress → DeploymentStatusHandler → Prop} (hx : Conforms rt p h x mid)
    (hf : ∀ a p h, mid a p h → Conforms rt p h (f a) post) : Conforms rt p h (x >>= f) post :=
  Process.wp_bind hx (fun p a h hmid => hf a p h hmid) fun _ _ _ hstop => hstop

/-- What follows a step that always stops does not matter. -/
theorem Conforms.bind_of_stop {x : Runner α} {f : α → Runner β}
    (hx : Conforms rt p h x fun _ _ _ => False) : Conforms rt p h (x >>= f) post :=
  hx.bind fun _ _ _ hfalse => hfalse.elim

theorem Conforms.mono {x : Runner β} {post' : β → Progress → DeploymentStatusHandler → Prop}
    (hx : Conforms rt p h x post) (hpost : ∀ b p h, post b p h → post' b p h) :
    Conforms rt p h x post' := by
  refine Process.wp_mono ?_ hx
  intro p r h hends
  cases r with
  | ok b => exact hpost b p h hends
  | error stop => exact hends

theorem conforms_pure {b : β} (hpost : post b p h) : Conforms rt p h (pure b) post :=
  hpost

theorem Conforms.update {post : Unit → Progress → DeploymentStatusHandler → Prop}
    {f : DeploymentStatusHandler → DeploymentStatusHandler} (hpost : post () p (f h)) :
    Conforms rt p h (Process.update f) post :=
  hpost

/-- What is not an error goes on; an error has stopped the step, and is known to the next one. -/
theorem Conforms.attempt {x : Runner β}
    {post' : Except String β → Progress → DeploymentStatusHandler → Prop}
    (hx : Conforms rt p h x post) (hok : ∀ b p h, post b p h → post' (.ok b) p h)
    (herror : ∀ e p h, Stands rt p h → post' (.error e) p h) :
    Conforms rt p h (Runner.attempt x) post' := by
  refine Process.wp_catching hx (fun p b h hpost => hok b p h hpost) ?_ ?_
  · intro p stop caught h hcaught hstopped
    cases stop with
    | failed text => exact herror _ p h hstopped
    | panicked message => cases hcaught
    | exited code => cases hcaught
  · intro p stop h _ hstopped
    exact hstopped

theorem Conforms.state {f : DeploymentStatusHandler → Runner β}
    (hnext : Conforms rt p h (f h) post) : Conforms rt p h (Process.state >>= f) post :=
  hnext

theorem Conforms.call {op : Operation} {f : op.Answer → Runner β} (hallowed : Allowed rt p op)
    (hnext : ∀ answer, Conforms rt (p.after rt.parseJson op answer) h (f answer) post) :
    Conforms rt p h (Process.perform op >>= f) post := by
  refine ⟨hallowed, ?_⟩
  rintro answer _ rfl
  exact hnext answer

theorem Conforms.panic (hstands : Stands rt p h) (message : String) :
    Conforms rt p h (Process.stop (.panicked message)) post :=
  hstands

theorem Conforms.bail (hstands : Stands rt p h) (text : String) :
    Conforms rt p h (bail text) post :=
  hstands

/-- Its error is that of the step. -/
theorem Conforms.propagate {reply : Reply α} {text : String} {f : α → Runner β}
    (hstands : Stands rt p h) (hnext : ∀ a, reply = .value a → Conforms rt p h (f a) post) :
    Conforms rt p h (propagate text reply >>= f) post := by
  cases reply with
  | value a => exact hnext a rfl
  | error e => exact hstands
  | panic message => exact hstands

theorem Conforms.propagate_last {reply : Reply β} {text : String}
    (hstands : Stands rt p h) (hpost : ∀ b, reply = .value b → post b p h) :
    Conforms rt p h (Runner.propagate text reply) post := by
  cases reply with
  | value b => exact hpost b rfl
  | error e => exact hstands
  | panic message => exact hstands

theorem Conforms.unwrap {reply : Reply α} {f : α → Runner β}
    (hstands : Stands rt p h) (hnext : ∀ a, reply = .value a → Conforms rt p h (f a) post) :
    Conforms rt p h (unwrap reply >>= f) post := by
  cases reply with
  | value a => exact hnext a rfl
  | error e => exact hstands
  | panic message => exact hstands

theorem Conforms.handled {reply : Reply α} {f : Except String α → Runner β}
    (hstands : Stands rt p h) (hok : ∀ a, reply = .value a → Conforms rt p h (f (.ok a)) post)
    (herror : ∀ e, reply = .error e → Conforms rt p h (f (.error e)) post) :
    Conforms rt p h (handled reply >>= f) post := by
  cases reply with
  | value a => exact hok a rfl
  | error e => exact herror e rfl
  | panic message => exact hstands

end

/-! ## Statuses -/

section

variable {rt} {α : Type} {p : Progress} {h : DeploymentStatusHandler}

theorem Fits.of_status (hfits : Fits rt p h) (status : DeploymentStatus) (errorText : String) :
    Fits rt p { h with status, errorText } :=
  { hfits with unchanged := { hfits.unchanged with } }

/-- What is known about the stored status does not matter to the handler. -/
theorem Fits.sent (hfits : Fits rt p h) (status : DeploymentStatus) : Fits rt (p.sent status) h :=
  { hfits with }

theorem Fits.sendFailed (hfits : Fits rt p h) : Fits rt { p with sendFailed := true } h :=
  { hfits with }

theorem Progress.sent_sent (status : DeploymentStatus) :
    (p.sent status).sent status = p.sent status := by
  simp [Progress.sent]

theorem MayReport.of_failure {status : DeploymentStatus} (hfinal : status.isFinal = true)
    (hfailure : status ≠ .successful) : MayReport rt p status where
  isFinal := .inl hfinal
  ofSuccessful h := absurd h hfailure

/-- How a record is sent: it is stored, or the store has failed at one of its records. -/
def Sent (p : Progress) (h : DeploymentStatusHandler) (p' : Progress) (r : Except Stop Unit)
    (h' : DeploymentStatusHandler) : Prop :=
  h' = h ∧
    match r with
    | .ok () => p' = p.sent h.status
    | .error stop => (∀ code, stop ≠ .exited code) ∧
        (p' = { p with sendFailed := true } ∨ p' = { p.sent h.status with sendFailed := true })

theorem wp_sendDeployment (hfits : Fits rt p h) (hmay : MayReport rt p h.status) :
    Process.WP (jobEnvironment rt) (Sent p h) p h (sendDeployment rt) := by
  refine ⟨trivial, fun epoch p' hp => ?_⟩
  rw [show p' = p from hp]
  refine ⟨⟨h, epoch, hfits, hmay, rfl, .inl rfl⟩, ?_⟩
  rintro answer _ rfl
  cases answer with
  | error e => exact ⟨rfl, fun _ => nofun, .inl rfl⟩
  | panic message => exact ⟨rfl, fun _ => nofun, .inl rfl⟩
  | value _ =>
      change Process.WP _ _ (p.sent h.status) h (if _ then _ else _)
      split
      · -- A drift check that has ended stores the record of the deployment too.
        rename_i hdrift
        obtain ⟨hcheck, hfinal⟩ := Bool.and_eq_true_iff.1 hdrift
        have hmay' : MayReport rt (p.sent h.status) h.status :=
          { isFinal := .inl hfinal
            ofSuccessful := fun hsuccess => by
              obtain ⟨hstarted, hrest⟩ := hmay.ofSuccessful hsuccess
              exact ⟨Bool.or_eq_true_iff.2 (.inl hstarted), hrest⟩ }
        refine ⟨⟨h, epoch, hfits.sent _, hmay', rfl, .inr ⟨rfl, hcheck, hfinal, rfl⟩⟩, ?_⟩
        rintro answer _ rfl
        cases answer with
        | error e => exact ⟨rfl, fun _ => nofun, .inr rfl⟩
        | panic message => exact ⟨rfl, fun _ => nofun, .inr rfl⟩
        | value _ => exact ⟨rfl, Progress.sent_sent h.status⟩
      · exact ⟨rfl, rfl⟩

theorem Sent.stands {p' : Progress} {stop : Stop} {h' : DeploymentStatusHandler}
    (hsent : Sent p h p' (.error stop) h') (hfits : Fits rt p h) : Stopped rt p' h' stop := by
  obtain ⟨rfl, hstop, hfailed⟩ := hsent
  have hstands : Stands rt p' h' := by
    rcases hfailed with rfl | rfl
    · exact ⟨hfits.sendFailed, fun _ => .inl rfl⟩
    · exact ⟨(hfits.sent _).sendFailed, fun _ => .inl rfl⟩
  cases stop with
  | failed text => exact hstands
  | panicked message => exact hstands
  | exited code => exact absurd rfl (hstop code)

/-- A status that may be reported is stored, or the step stops. -/
theorem conforms_sendDeployment (hfits : Fits rt p h) (hmay : MayReport rt p h.status) :
    Conforms rt p h (sendDeployment rt) fun _ p' h' => p' = p.sent h.status ∧ h' = h := by
  refine Process.wp_mono ?_ (wp_sendDeployment hfits hmay)
  intro p' r h' hsent
  cases r with
  | ok _ => exact ⟨hsent.2, hsent.1⟩
  | error stop => exact hsent.stands hfits

theorem conforms_reportStatus {status : DeploymentStatus} (errorText : String)
    (hfits : Fits rt p h) (hmay : MayReport rt p status) :
    Conforms rt p h (reportStatus rt status errorText) fun _ p' h' =>
      p' = p.sent status ∧ h' = { h with status, errorText } :=
  conforms_sendDeployment (hfits.of_status status errorText) hmay

theorem Fits.stands_of_sent {status : DeploymentStatus} (hfits : Fits rt (p.sent status) h)
    (hfinal : status.isFinal = true) : Stands rt (p.sent status) h :=
  ⟨hfits, fun _ => .inr ⟨status, rfl, hfinal, nofun⟩⟩

variable {post : α → Progress → DeploymentStatusHandler → Prop}

theorem conforms_fail {status : DeploymentStatus} (errorText message : String)
    (hfits : Fits rt p h) (hfinal : status.isFinal = true) (hfailure : status ≠ .successful) :
    Conforms rt p h (fail rt status errorText message) post := by
  refine Conforms.bind (conforms_reportStatus errorText hfits (.of_failure hfinal hfailure)) ?_
  rintro _ _ _ ⟨rfl, rfl⟩
  exact Conforms.bail (((hfits.of_status status errorText).sent status).stands_of_sent hfinal) _

theorem conforms_failCommand {status : DeploymentStatus} (errorText message : String)
    (hfits : Fits rt p h) (hfinal : status.isFinal = true) (hfailure : status ≠ .successful) :
    Conforms rt p h (failCommand rt status errorText message) post := by
  refine Conforms.bind (conforms_reportStatus errorText hfits (.of_failure hfinal hfailure)) ?_
  rintro _ _ _ ⟨rfl, rfl⟩
  exact Conforms.bail (((hfits.of_status status "").sent status).stands_of_sent hfinal) _

end

end TerraformRunner
end InfraWeave
