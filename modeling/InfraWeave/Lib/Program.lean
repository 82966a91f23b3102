import Mathlib.Logic.Relation

/-!
# Programs that call operations

A program is done, or calls an operation and goes on with the answer.  What an operation does is
not part of the program, so that programs can be interleaved: a system takes one call of one of its
programs at a time.
-/

namespace InfraWeave

universe u v

inductive Program (Op : Type u) (Answer : Op → Type v) (α : Type v)
  | done (a : α)
  | call (op : Op) (next : Answer op → Program Op Answer α)

namespace Program

variable {Op : Type u} {Answer : Op → Type v} {α β : Type v}

def bind : Program Op Answer α → (α → Program Op Answer β) → Program Op Answer β
  | done a, f => f a
  | call op next, f => call op fun answer => bind (next answer) f

instance : Monad (Program Op Answer) where
  pure := done
  bind := bind

def perform (op : Op) : Program Op Answer (Answer op) :=
  call op done

@[simp] theorem done_bind (a : α) (f : α → Program Op Answer β) :
    (done a : Program Op Answer α) >>= f = f a := rfl

@[simp] theorem call_bind (op : Op) (next : Answer op → Program Op Answer α)
    (f : α → Program Op Answer β) :
    call op next >>= f = call op fun answer => next answer >>= f := rfl

@[simp] theorem perform_bind (op : Op) (f : Answer op → Program Op Answer β) :
    (perform op : Program Op Answer (Answer op)) >>= f = call op f := rfl

theorem bind_assoc {γ : Type v} (p : Program Op Answer α) (f : α → Program Op Answer β)
    (g : β → Program Op Answer γ) : (p >>= f) >>= g = p >>= fun a => f a >>= g := by
  induction p with
  | done a => rfl
  | call op next ih => exact congrArg (call op) (funext ih)

/-- No operation is left to be called. -/
def HasEnded (p : Program Op Answer α) : Prop :=
  ∃ a, p = done a

theorem hasEnded_done (a : α) : (done a : Program Op Answer α).HasEnded :=
  ⟨a, rfl⟩

theorem not_hasEnded_call (op : Op) (next : Answer op → Program Op Answer α) :
    ¬ (call op next).HasEnded := by
  rintro ⟨a, heq⟩
  cases heq

/-- An operation is called next. -/
def Calls (op : Op) (p : Program Op Answer α) : Prop :=
  ∃ next, p = call op next

/-- An operation that is called after some answers to the ones before it. -/
inductive MayCall (op : Op) : Program Op Answer α → Prop
  | now (next : Answer op → Program Op Answer α) : MayCall op (call op next)
  | later (before : Op) (next : Answer before → Program Op Answer α) (answer : Answer before) :
      MayCall op (next answer) → MayCall op (call before next)

theorem not_mayCall_done {op : Op} (a : α) : ¬ MayCall op (done a : Program Op Answer α) := by
  intro h
  cases h

theorem mayCall_call_iff {op before : Op} {next : Answer before → Program Op Answer α} :
    MayCall op (call before next) ↔ op = before ∨ ∃ answer, MayCall op (next answer) := by
  constructor
  · intro h
    cases h with
    | now next => exact Or.inl rfl
    | later before next answer h => exact Or.inr ⟨answer, h⟩
  · rintro (rfl | ⟨answer, h⟩)
    · exact .now next
    · exact .later before next answer h

/-- A program in two parts calls what the parts call. -/
theorem mayCall_bind {op : Op} {p : Program Op Answer α} {f : α → Program Op Answer β}
    (h : MayCall op (p >>= f)) : MayCall op p ∨ ∃ a, MayCall op (f a) := by
  induction p with
  | done a => exact Or.inr ⟨a, h⟩
  | call before next ih =>
      rcases mayCall_call_iff.1 h with rfl | ⟨answer, h⟩
      · exact Or.inl (.now next)
      · rcases ih answer h with h | h
        · exact Or.inl (.later before next answer h)
        · exact Or.inr h

/-- Every operation that may be called is one of these. -/
def Within (allowed : Op → Prop) (p : Program Op Answer α) : Prop :=
  ∀ op, MayCall op p → allowed op

variable {allowed : Op → Prop}

theorem within_done (a : α) : Within allowed (done a : Program Op Answer α) :=
  fun _ h => absurd h (not_mayCall_done a)

theorem within_call_iff {op : Op} {next : Answer op → Program Op Answer α} :
    Within allowed (call op next) ↔ allowed op ∧ ∀ answer, Within allowed (next answer) := by
  constructor
  · intro h
    exact ⟨h op (.now next), fun answer before hbefore => h before (.later op next answer hbefore)⟩
  · rintro ⟨hop, hnext⟩ before hbefore
    rcases mayCall_call_iff.1 hbefore with rfl | ⟨answer, hlater⟩
    · exact hop
    · exact hnext answer before hlater

theorem within_bind {p : Program Op Answer α} {f : α → Program Op Answer β}
    (hp : Within allowed p) (hf : ∀ a, Within allowed (f a)) : Within allowed (p >>= f) := by
  intro op h
  rcases mayCall_bind h with h | ⟨a, h⟩
  · exact hp op h
  · exact hf a op h

/-- What the first part of a program calls, the whole program calls. -/
theorem mayCall_bind_left {op : Op} {p : Program Op Answer α} {f : α → Program Op Answer β}
    (h : MayCall op p) : MayCall op (p >>= f) := by
  induction h with
  | now next => exact .now _
  | later before next answer _ ih => exact .later before _ answer ih

theorem within_of_bind {p : Program Op Answer α} {f : α → Program Op Answer β}
    (h : Within allowed (p >>= f)) : Within allowed p :=
  fun op hop => h op (mayCall_bind_left hop)

/-! ## Fixed answers -/

/-- The result of a program and the operations that it calls, when each of them has one answer. -/
def eval (answer : (op : Op) → Answer op) : Program Op Answer α → α × List Op
  | done a => (a, [])
  | call op next =>
      let (a, ops) := eval answer (next (answer op))
      (a, op :: ops)

variable (answer : (op : Op) → Answer op)

@[simp] theorem eval_done (a : α) : (done a : Program Op Answer α).eval answer = (a, []) := rfl

@[simp] theorem eval_call (op : Op) (next : Answer op → Program Op Answer α) :
    (call op next).eval answer =
      (((next (answer op)).eval answer).1, op :: ((next (answer op)).eval answer).2) := rfl

/-- The second part goes on with the result of the first. -/
theorem eval_bind (p : Program Op Answer α) (f : α → Program Op Answer β) :
    (p >>= f).eval answer =
      (((f (p.eval answer).1).eval answer).1,
        (p.eval answer).2 ++ ((f (p.eval answer).1).eval answer).2) := by
  induction p with
  | done a => rfl
  | call op next ih => simp [ih]

end Program

/-! ## Runs of a labelled relation -/

section

variable {σ : Type u} {α : Type v} (step : σ → α → σ → Prop) (ok : σ → α → Prop)

/-- A state is reached by steps whose labels meet the condition in the states before them. -/
def Reaches : σ → σ → Prop :=
  Relation.ReflTransGen fun s s' => ∃ a, ok s a ∧ step s a s'

variable {step ok}

theorem Reaches.cons {s s' s'' : σ} {a : α} (hok : ok s a) (hstep : step s a s')
    (h : Reaches step ok s' s'') : Reaches step ok s s'' :=
  Relation.ReflTransGen.head ⟨a, hok, hstep⟩ h

theorem Reaches.exists_cons {p : σ → Prop} {s s' : σ} {a : α} (hok : ok s a) (hstep : step s a s')
    (h : ∃ s'', Reaches step ok s' s'' ∧ p s'') : ∃ s'', Reaches step ok s s'' ∧ p s'' := by
  obtain ⟨s'', h, hp⟩ := h
  exact ⟨s'', h.cons hok hstep, hp⟩

/-- What every step keeps that meets the condition holds in every state that is reached. -/
theorem Reaches.invariant {inv : σ → Prop}
    (hstep : ∀ s a s', inv s → ok s a → step s a s' → inv s') {s s' : σ} (h : Reaches step ok s s')
    (hs : inv s) : inv s' := by
  induction h with
  | refl => exact hs
  | tail _ hlast ih =>
      obtain ⟨a, hok, hs'⟩ := hlast
      exact hstep _ a _ ih hok hs'

end

end InfraWeave
