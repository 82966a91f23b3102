import InfraWeave.Lib.Weakest

/-!
# Programs with a state of their own

A process has a state that it reads and changes between its operations, and may stop.  Its state
survives a stop.  Postconditions are over the state of the environment, the result and the state of
the process.
-/

namespace InfraWeave

universe u v

/-- A process with states `σ`, which may stop with an `ε`. -/
def Process (Op : Type u) (Answer : Op → Type) (σ ε α : Type) : Type u :=
  σ → Program Op Answer (Except ε α × σ)

namespace Process

variable {Op : Type u} {Answer : Op → Type} {σ ε α β : Type}

def bind (x : Process Op Answer σ ε α) (f : α → Process Op Answer σ ε β) :
    Process Op Answer σ ε β := fun s =>
  x s >>= fun
    | (.ok a, s) => f a s
    | (.error e, s) => .done (.error e, s)

instance : Monad (Process Op Answer σ ε) where
  pure a s := .done (.ok a, s)
  bind := bind

def stop (e : ε) : Process Op Answer σ ε α := fun s => .done (.error e, s)

def state : Process Op Answer σ ε σ := fun s => .done (.ok s, s)

def update (f : σ → σ) : Process Op Answer σ ε Unit := fun s => .done (.ok (), f s)

/-- An operation whose answer says whether the process goes on. -/
def request (op : Op) (result : Answer op → Except ε α) : Process Op Answer σ ε α := fun s =>
  .call op fun answer => .done (result answer, s)

def perform (op : Op) : Process Op Answer σ ε (Answer op) := fun s =>
  .call op fun answer => .done (.ok answer, s)

/-- A stop that `f` accepts becomes a result. -/
def catching {γ : Type} (f : ε → Option γ) (x : Process Op Answer σ ε α) :
    Process Op Answer σ ε (Except γ α) := fun s =>
  x s >>= fun
    | (.ok a, s) => .done (.ok (.ok a), s)
    | (.error e, s) =>
        match f e with
        | some caught => .done (.ok (.error caught), s)
        | none => .done (.error e, s)

@[simp] theorem pure_bind (a : α) (f : α → Process Op Answer σ ε β) : pure a >>= f = f a := rfl

@[simp] theorem stop_bind (e : ε) (f : α → Process Op Answer σ ε β) :
    (stop e : Process Op Answer σ ε α) >>= f = stop e := rfl

theorem bind_assoc {γ : Type} (x : Process Op Answer σ ε α) (f : α → Process Op Answer σ ε β)
    (g : β → Process Op Answer σ ε γ) : (x >>= f) >>= g = x >>= fun a => f a >>= g := by
  funext s
  change (x s >>= _) >>= _ = x s >>= _
  rw [Program.bind_assoc]
  refine congrArg (x s >>= ·) (funext fun r => ?_)
  obtain ⟨result, s⟩ := r
  cases result with
  | ok a => rfl
  | error e => rfl

/-! ## Weakest preconditions -/

section

variable {γ : Type v} (env : Environment Op Answer γ)

def WP (post : γ → Except ε α → σ → Prop) (g : γ) (s : σ) (x : Process Op Answer σ ε α) : Prop :=
  Program.WP env (fun g (r : Except ε α × σ) => post g r.1 r.2) g (x s)

variable {env} {g : γ} {s : σ} {x : Process Op Answer σ ε α}

theorem wp_mono {post post' : γ → Except ε α → σ → Prop} (hpost : ∀ g r s, post g r s → post' g r s)
    (h : WP env post g s x) : WP env post' g s x :=
  Program.wp_mono (fun g (r : Except ε α × σ) => hpost g r.1 r.2) h

theorem wp_state_bind {post : γ → Except ε β → σ → Prop} {f : σ → Process Op Answer σ ε β} :
    WP env post g s (state >>= f) ↔ WP env post g s (f s) := Iff.rfl

theorem wp_request {op : Op} {result : Answer op → Except ε α} {post : γ → Except ε α → σ → Prop} :
    WP env post g s (request op result) ↔
      env.safe g op ∧ ∀ answer g', env.step g op answer g' → post g' (result answer) s := Iff.rfl

/-- The first part ends where the second one begins, or stops as a whole. -/
theorem wp_bind {f : α → Process Op Answer σ ε β} {mid : γ → Except ε α → σ → Prop}
    {post : γ → Except ε β → σ → Prop} (hx : WP env mid g s x)
    (hok : ∀ g a s, mid g (.ok a) s → WP env post g s (f a))
    (hstop : ∀ g e s, mid g (.error e) s → post g (.error e) s) : WP env post g s (x >>= f) := by
  refine Program.wp_bind.2 (Program.wp_mono ?_ hx)
  rintro g ⟨result, s⟩ hmid
  cases result with
  | ok a => exact hok g a s hmid
  | error e => exact hstop g e s hmid

theorem wp_catching {δ : Type} {f : ε → Option δ} {mid : γ → Except ε α → σ → Prop}
    {post : γ → Except ε (Except δ α) → σ → Prop} (hx : WP env mid g s x)
    (hok : ∀ g a s, mid g (.ok a) s → post g (.ok (.ok a)) s)
    (hcaught : ∀ g e caught s, f e = some caught → mid g (.error e) s →
      post g (.ok (.error caught)) s)
    (hstop : ∀ g e s, f e = none → mid g (.error e) s → post g (.error e) s) :
    WP env post g s (x.catching f) := by
  refine Program.wp_bind.2 (Program.wp_mono ?_ hx)
  rintro g ⟨result, s⟩ hmid
  cases result with
  | ok a => exact hok g a s hmid
  | error e =>
      cases hf : f e with
      | some caught =>
          simp only [hf]
          exact hcaught g e caught s hf hmid
      | none =>
          simp only [hf]
          exact hstop g e s hf hmid

end

/-! ## The operations of a process -/

section

/-- Whatever the answers, only such operations are called. -/
def Only (P : Op → Prop) (x : Process Op Answer σ ε α) : Prop :=
  ∀ s, Program.Only P (x s)

variable {P : Op → Prop} {x : Process Op Answer σ ε α}

theorem only_pure (a : α) : Only P (pure a : Process Op Answer σ ε α) :=
  fun _ => trivial

theorem only_stop (e : ε) : Only P (stop e : Process Op Answer σ ε α) :=
  fun _ => trivial

theorem only_request {op : Op} (h : P op) (result : Answer op → Except ε α) :
    Only P (request op result : Process Op Answer σ ε α) :=
  fun _ => ⟨h, fun _ => trivial⟩

theorem Only.bind {f : α → Process Op Answer σ ε β} (hx : Only P x) (hf : ∀ a, Only P (f a)) :
    Only P (x >>= f) := by
  intro s
  refine Program.Only.bind (hx s) ?_
  rintro ⟨result, s'⟩
  cases result with
  | ok a => exact hf a s'
  | error e => trivial

end

/-! ## Processes that only go forward -/

section

variable {γ : Type v} (env : Environment Op Answer γ) (later : γ → γ → Prop)

/-- Every operation is safe, and the environment is left in a later state. -/
def Advances (g : γ) (s : σ) (x : Process Op Answer σ ε α) : Prop :=
  WP env (fun g' _ _ => later g g') g s x

variable {env later} {g : γ} {s : σ} {x : Process Op Answer σ ε α}

theorem advances_pure (hrefl : ∀ g, later g g) (a : α) :
    Advances env later g s (pure a : Process Op Answer σ ε α) :=
  hrefl g

theorem Only.advances {P : Op → Prop} (hrefl : ∀ g, later g g)
    (htrans : ∀ g g' g'', later g g' → later g' g'' → later g g'')
    (hstep : ∀ g op answer g', P op → env.step g op answer g' → later g g')
    (hsafe : ∀ g' op, later g g' → P op → env.safe g' op) (hx : Only P x) :
    Advances env later g s x :=
  Program.Only.wp hrefl htrans hstep hsafe (hx s)

/-- What is known of the result of the first part is used in the second one. -/
theorem Advances.bind_of {f : α → Process Op Answer σ ε β} {mid : γ → α → σ → Prop}
    (htrans : ∀ {g g' g''}, later g g' → later g' g'' → later g g'')
    (hx : WP env (fun g' r s' => later g g' ∧ ∀ a, r = .ok a → mid g' a s') g s x)
    (hf : ∀ g' a s', later g g' → mid g' a s' → Advances env later g' s' (f a)) :
    Advances env later g s (x >>= f) := by
  refine wp_bind hx ?_ fun g' e s' h => h.1
  intro g' a s' h
  exact wp_mono (fun g'' _ _ h'' => htrans h.1 h'') (hf g' a s' h.1 (h.2 a rfl))

theorem Advances.bind {f : α → Process Op Answer σ ε β}
    (htrans : ∀ {g g' g''}, later g g' → later g' g'' → later g g'')
    (hx : Advances env later g s x)
    (hf : ∀ g' a s', later g g' → Advances env later g' s' (f a)) :
    Advances env later g s (x >>= f) := by
  have hmid : WP env (fun g' r s' => later g g' ∧ ∀ a, r = .ok a → True) g s x :=
    wp_mono (fun _ _ _ h => ⟨h, fun _ _ => trivial⟩) hx
  exact .bind_of htrans hmid fun g' a s' h _ => hf g' a s' h

end

end Process
end InfraWeave
