import Mathlib.Data.List.Basic

/-!
# Runs of a state machine

A run folds a step function over a list of actions.  `Meets` says that every action of a run meets
a condition in the state in which it is taken; invariants and relations that one such step keeps
are kept by the run.
-/

namespace InfraWeave

universe u v

variable {σ : Type u} {α : Type v}

def run (step : σ → α → σ) (s : σ) (actions : List α) : σ :=
  actions.foldl step s

/-- Every action of the run meets the condition. -/
def Meets (step : σ → α → σ) (ok : σ → α → Prop) : σ → List α → Prop
  | _, [] => True
  | s, a :: as => ok s a ∧ Meets step ok (step s a) as

variable {step : σ → α → σ} {ok : σ → α → Prop}

@[simp] theorem run_nil (s : σ) : run step s [] = s := rfl

@[simp] theorem run_cons (s : σ) (a : α) (as : List α) :
    run step s (a :: as) = run step (step s a) as := rfl

theorem run_append (s : σ) (xs ys : List α) :
    run step s (xs ++ ys) = run step (run step s xs) ys :=
  List.foldl_append

theorem meets_append (s : σ) (xs ys : List α) :
    Meets step ok s (xs ++ ys) ↔ Meets step ok s xs ∧ Meets step ok (run step s xs) ys := by
  induction xs generalizing s with
  | nil => simp [Meets]
  | cons x xs ih => simp [Meets, ih, and_assoc]

theorem meets_of_forall {p : α → Prop} {as : List α} (h : ∀ a ∈ as, p a) (s : σ) :
    Meets step (fun _ => p) s as := by
  induction as generalizing s with
  | nil => trivial
  | cons a as ih => exact ⟨h a (by simp), ih (fun b hb => h b (by simp [hb])) _⟩

theorem Meets.and_forall {p : α → Prop} {s : σ} {as : List α} (h : Meets step ok s as)
    (hp : ∀ a ∈ as, p a) : Meets step (fun s a => ok s a ∧ p a) s as := by
  induction as generalizing s with
  | nil => trivial
  | cons a as ih =>
      exact ⟨⟨h.1, hp a (by simp)⟩, ih h.2 fun b hb => hp b (by simp [hb])⟩

/-- What a step keeps, a run keeps. -/
theorem run_invariant (inv : σ → Prop) (hstep : ∀ s a, inv s → ok s a → inv (step s a)) {s : σ}
    {as : List α} (hs : inv s) (hok : Meets step ok s as) : inv (run step s as) := by
  induction as generalizing s with
  | nil => exact hs
  | cons a as ih => exact ih (hstep s a hs hok.1) hok.2

/-- A reflexive and transitive relation between the states before and after a step holds between
the states before and after a run. -/
theorem run_relation {inv : σ → Prop} (R : σ → σ → Prop) (hrefl : ∀ s, R s s)
    (htrans : ∀ {a b c}, R a b → R b c → R a c)
    (hstep : ∀ s a, inv s → ok s a → inv (step s a) ∧ R s (step s a)) {s : σ} {as : List α}
    (hs : inv s) (hok : Meets step ok s as) : R s (run step s as) := by
  induction as generalizing s with
  | nil => exact hrefl s
  | cons a as ih =>
      obtain ⟨hinv, hrel⟩ := hstep s a hs hok.1
      exact htrans hrel (ih hinv hok.2)

/-! ## Histories that ascend -/

section

variable (reset : α → Prop) (le : α → α → Prop)

/-- The last entry of a history is not below any entry that no reset has followed. -/
def AscendsSince (history : List α) : Prop :=
  ∀ earlier a later, history = earlier ++ a :: later → (∀ b ∈ later, ¬ reset b) →
    ∀ last, history.getLast? = some last → le a last

variable {reset le}

theorem ascendsSince_nil : AscendsSince reset le [] := by
  intro earlier a later h
  simp at h

/-- An entry that resets the history, or is not below its last entry, keeps it ascending. -/
theorem AscendsSince.concat [IsTrans α le] {history : List α}
    (h : AscendsSince reset le history) {b : α} (hrefl : le b b)
    (hb : reset b ∨ ∀ last, history.getLast? = some last → le last b) :
    AscendsSince reset le (history ++ [b]) := by
  intro earlier a later hsplit hlater last hlast
  obtain rfl : b = last := by simpa using hlast
  rcases List.eq_nil_or_concat later with rfl | ⟨later, b', rfl⟩
  · obtain ⟨-, rfl⟩ := List.append_inj' hsplit rfl |>.imp_right List.singleton_inj.1
    exact hrefl
  · have hsplit : history ++ [b] = (earlier ++ a :: later) ++ [b'] := by simpa using hsplit
    obtain ⟨hhistory, hb'⟩ := List.append_inj' hsplit rfl
    obtain rfl := List.singleton_inj.1 hb'
    have hnoReset : ∀ c ∈ later, ¬ reset c := fun c hc => hlater c (by simp [hc])
    rcases hb with hreset | hle
    · exact absurd hreset (hlater b (by simp))
    · have hne : history ≠ [] := by simp [hhistory]
      have hold := List.getLast?_eq_some_getLast hne
      exact IsTrans.trans _ _ _ (h earlier a later hhistory hnoReset _ hold) (hle _ hold)

end

end InfraWeave
