import InfraWeave.Lib.Program
import Mathlib.Data.List.Basic

/-!
# Weakest preconditions of programs

An environment says what a state becomes by an operation and its answer, and which operations are
safe in a state.  A program meets a postcondition when, whatever the answers, each of its operations
is safe in the state in which it is called and its result is right in the state in which it is done.
-/

namespace InfraWeave

universe u v w

structure Environment (Op : Type u) (Answer : Op → Type v) (σ : Type w) where
  step : σ → (op : Op) → Answer op → σ → Prop
  safe : σ → Op → Prop

/-- The operations so far, with their answers, are a part of the state. -/
def Environment.recorded {Op : Type u} {Answer : Op → Type v} {σ : Type w}
    (env : Environment Op Answer σ) : Environment Op Answer (σ × List (Sigma Answer)) where
  step s op answer s' := env.step s.1 op answer s'.1 ∧ s'.2 = s.2 ++ [⟨op, answer⟩]
  safe s op := env.safe s.1 op

/-- Others go on before each operation. -/
def Environment.interleaved {Op : Type u} {Answer : Op → Type v} {σ : Type w}
    (env : Environment Op Answer σ) (others : σ → σ → Prop) : Environment Op Answer σ where
  step s op answer s' := ∃ s₁, others s s₁ ∧ env.step s₁ op answer s'
  safe s op := ∀ s₁, others s s₁ → env.safe s₁ op

namespace Program

variable {Op : Type u} {Answer : Op → Type v} {σ : Type w} {α β : Type v}

/-- A complete run, with the operations and their answers. -/
inductive Runs (env : Environment Op Answer σ) :
    σ → Program Op Answer α → List (Sigma Answer) → σ → α → Prop
  | done {s : σ} {a : α} : Runs env s (.done a) [] s a
  | call {s s' s'' : σ} {op : Op} {answer : Answer op} {next : Answer op → Program Op Answer α}
      {trace : List (Sigma Answer)} {a : α} (hstep : env.step s op answer s')
      (hrest : Runs env s' (next answer) trace s'' a) :
      Runs env s (.call op next) (⟨op, answer⟩ :: trace) s'' a

def WP (env : Environment Op Answer σ) (post : σ → α → Prop) : σ → Program Op Answer α → Prop
  | s, .done a => post s a
  | s, .call op next =>
      env.safe s op ∧ ∀ answer s', env.step s op answer s' → WP env post s' (next answer)

variable {env : Environment Op Answer σ}

theorem wp_mono {post post' : σ → α → Prop} (hpost : ∀ s a, post s a → post' s a) {s : σ}
    {p : Program Op Answer α} (h : WP env post s p) : WP env post' s p := by
  induction p generalizing s with
  | done a => exact hpost s a h
  | call op next ih => exact ⟨h.1, fun answer s' hstep => ih answer (h.2 answer s' hstep)⟩

theorem wp_bind {post : σ → β → Prop} {s : σ} {p : Program Op Answer α}
    {f : α → Program Op Answer β} :
    WP env post s (p >>= f) ↔ WP env (fun s a => WP env post s (f a)) s p := by
  induction p generalizing s with
  | done a => exact Iff.rfl
  | call op next ih =>
      refine and_congr_right fun _ => forall_congr' fun answer => forall_congr' fun s' => ?_
      exact imp_congr_right fun _ => ih answer

/-- A run of a program that meets a postcondition ends in it. -/
theorem WP.sound {post : σ → α → Prop} {s s' : σ} {p : Program Op Answer α}
    {trace : List (Sigma Answer)} {a : α} (h : WP env post s p) (hrun : Runs env s p trace s' a) :
    post s' a := by
  induction hrun with
  | done => exact h
  | call hstep _ ih => exact ih (h.2 _ _ hstep)

/-- A program that meets a postcondition in one environment meets it in another one whose states are
tied to those of the first by an invariant that every safe operation keeps. -/
theorem WP.transfer {τ : Type w} {env' : Environment Op Answer τ} {inv : σ → τ → Prop}
    (hsafe : ∀ s t op, inv s t → env.safe s op → env'.safe t op)
    (hstep : ∀ s t op answer t', inv s t → env.safe s op → env'.step t op answer t' →
      ∃ s', env.step s op answer s' ∧ inv s' t')
    {post : σ → α → Prop} {s : σ} {t : τ} {p : Program Op Answer α} (h : WP env post s p)
    (hinv : inv s t) : WP env' (fun t a => ∃ s, inv s t ∧ post s a) t p := by
  induction p generalizing s t with
  | done a => exact ⟨s, hinv, h⟩
  | call op next ih =>
      refine ⟨hsafe s t op hinv h.1, fun answer t' ht => ?_⟩
      obtain ⟨s', hs, hinv'⟩ := hstep s t op answer t' hinv h.1 ht
      exact ih answer (h.2 answer s' hs) hinv'

/-- A program stays right while others go on. -/
theorem WP.others {others : σ → σ → Prop}
    (htrans : ∀ s s' s'', others s s' → others s' s'' → others s s'') {post : σ → α → Prop}
    (hpost : ∀ s s' a, others s s' → post s a → post s' a) {s s' : σ}
    {p : Program Op Answer α} (h : WP (env.interleaved others) post s p) (hothers : others s s') :
    WP (env.interleaved others) post s' p := by
  cases p with
  | done a => exact hpost s s' a hothers h
  | call op next =>
      refine ⟨fun s₁ h₁ => h.1 s₁ (htrans s s' s₁ hothers h₁), fun answer s'' hstep => ?_⟩
      obtain ⟨s₁, h₁, hstep⟩ := hstep
      exact h.2 answer s'' ⟨s₁, htrans s s' s₁ hothers h₁, hstep⟩

/-- Whatever the answers, only such operations are called. -/
def Only (P : Op → Prop) : Program Op Answer α → Prop
  | .done _ => True
  | .call op next => P op ∧ ∀ answer, Only P (next answer)

theorem Only.bind {P : Op → Prop} {p : Program Op Answer α} {f : α → Program Op Answer β}
    (hp : Only P p) (hf : ∀ a, Only P (f a)) : Only P (p >>= f) := by
  induction p with
  | done a => exact hf a
  | call op next ih => exact ⟨hp.1, fun answer => ih answer (hp.2 answer)⟩

/-- Operations that stay safe make a safe program, which leaves a later state. -/
theorem Only.wp {P : Op → Prop} {later : σ → σ → Prop} (hrefl : ∀ s, later s s)
    (htrans : ∀ s s' s'', later s s' → later s' s'' → later s s'')
    (hstep : ∀ s op answer s', P op → env.step s op answer s' → later s s') {s : σ}
    (hsafe : ∀ s' op, later s s' → P op → env.safe s' op) {p : Program Op Answer α} (hp : Only P p) :
    WP env (fun s' _ => later s s') s p := by
  induction p generalizing s with
  | done a => exact hrefl s
  | call op next ih =>
      refine ⟨hsafe s op (hrefl s) hp.1, fun answer s' h => ?_⟩
      have hlater := hstep s op answer s' hp.1 h
      have hrest := ih answer (fun s'' op hs hop => hsafe s'' op (htrans _ _ _ hlater hs) hop)
        (hp.2 answer)
      exact wp_mono (fun s'' _ hs => htrans _ _ _ hlater hs) hrest

/-! ## Runs with their trace -/

/-- A run of a program is one in which the trace is a part of the state. -/
theorem Runs.recorded {s s' : σ} {p : Program Op Answer α} {trace : List (Sigma Answer)} {a : α}
    (h : Runs env s p trace s' a) (before : List (Sigma Answer)) :
    Runs env.recorded (s, before) p trace (s', before ++ trace) a := by
  induction h generalizing before with
  | done =>
      rw [List.append_nil]
      exact .done
  | @call s s' s'' op answer next trace a hstep _ ih =>
      have hrest := ih (before ++ [⟨op, answer⟩])
      rw [List.append_assoc] at hrest
      exact .call ⟨hstep, rfl⟩ hrest

/-! ## Execution -/

/-- The run in which every operation is answered as `respond` says, if it is never at a loss. -/
def execute (respond : σ → (op : Op) → Option (Answer op × σ)) :
    σ → Program Op Answer α → Option (List (Sigma Answer) × σ × α)
  | s, .done a => some ([], s, a)
  | s, .call op next =>
      match respond s op with
      | none => none
      | some (answer, s') =>
          (execute respond s' (next answer)).map fun r => (⟨op, answer⟩ :: r.1, r.2)

theorem runs_execute {respond : σ → (op : Op) → Option (Answer op × σ)}
    (hrespond : ∀ s op answer s', respond s op = some (answer, s') → env.step s op answer s')
    {s s' : σ} {p : Program Op Answer α} {trace : List (Sigma Answer)} {a : α}
    (h : execute respond s p = some (trace, s', a)) : Runs env s p trace s' a := by
  induction p generalizing s trace with
  | done b =>
      simp only [execute, Option.some.injEq, Prod.mk.injEq] at h
      obtain ⟨rfl, rfl, rfl⟩ := h
      exact .done
  | call op next ih =>
      unfold execute at h
      split at h
      · cases h
      · rename_i answer s₁ hanswer
        obtain ⟨⟨rest, s₂, b⟩, hrest, heq⟩ := Option.map_eq_some_iff.1 h
        simp only [Prod.mk.injEq] at heq
        obtain ⟨rfl, rfl, rfl⟩ := heq
        exact .call (hrespond _ _ _ _ hanswer) (ih answer hrest)

/-- The execution up to an operation that it pauses before, with the program that is left. -/
def executeUntil (respond : σ → (op : Op) → Option (Answer op × σ)) (pause : Op → Bool) :
    σ → Program Op Answer α → Option (σ × Program Op Answer α)
  | _, .done _ => none
  | s, .call op next =>
      if pause op then some (s, .call op next)
      else (respond s op).bind fun r => executeUntil respond pause r.2 (next r.1)

theorem calls_of_executeUntil {respond : σ → (op : Op) → Option (Answer op × σ)} {pause : Op → Bool}
    {s s' : σ} {p p' : Program Op Answer α} (h : executeUntil respond pause s p = some (s', p')) :
    ∃ op, pause op = true ∧ p'.Calls op := by
  induction p generalizing s with
  | done a => cases h
  | call op next ih =>
      unfold executeUntil at h
      split at h
      next hpause =>
        cases h
        exact ⟨op, hpause, next, rfl⟩
      next =>
        obtain ⟨r, _, hrest⟩ := Option.bind_eq_some_iff.1 h
        exact ih r.1 hrest

end Program
end InfraWeave
