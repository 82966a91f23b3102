import Mathlib.Data.List.Basic

/-!
# Computations that may fail

The bind lemma of `Except`, which takes a chain of fallible steps apart, its simp forms, and
traversals of lists.
-/

namespace InfraWeave

universe u v

variable {ε : Type u} {α β : Type v}

theorem bind_eq_ok_iff {x : Except ε α} {f : α → Except ε β} {b : β} :
    x >>= f = .ok b ↔ ∃ a, x = .ok a ∧ f a = .ok b := by
  cases x with
  | ok a => simp [bind, Except.bind]
  | error e => simp [bind, Except.bind]

@[simp] theorem ok_bind (a : α) (f : α → Except ε β) : (Except.ok a >>= f) = f a := rfl

@[simp] theorem error_bind (e : ε) (f : α → Except ε β) :
    ((Except.error e : Except ε α) >>= f) = .error e := rfl

theorem mapError_eq_ok_iff {ε ε' : Type u} {α : Type v} {f : ε → ε'} {x : Except ε α} {a : α} :
    x.mapError f = .ok a ↔ x = .ok a := by
  constructor
  · intro h
    cases x with
    | ok b => exact congrArg Except.ok (Except.ok.inj h)
    | error e => cases h
  · rintro rfl
    rfl

/-- A traversal succeeds when every one of its steps does. -/
theorem mapM_eq_ok_iff {ε : Type u} {α β : Type v} {f : α → Except ε β} {xs : List α}
    {ys : List β} : xs.mapM f = .ok ys ↔ xs.map f = ys.map .ok := by
  induction xs generalizing ys with
  | nil =>
      rw [List.mapM_nil, List.map_nil]
      constructor
      · intro h
        rw [← Except.ok.inj h, List.map_nil]
      · intro h
        rw [List.map_eq_nil_iff.1 h.symm]
        rfl
  | cons x xs ih =>
      rw [List.mapM_cons, bind_eq_ok_iff]
      constructor
      · rintro ⟨y, hy, hrest⟩
        obtain ⟨zs, hzs, heq⟩ := bind_eq_ok_iff.1 hrest
        have hys : y :: zs = ys := Except.ok.inj heq
        rw [← hys, List.map_cons, List.map_cons, hy, ih.1 hzs]
      · intro h
        cases ys with
        | nil => cases h
        | cons y ys =>
            obtain ⟨hy, hys⟩ := List.cons.inj h
            have hrest : xs.mapM f = .ok ys := ih.2 hys
            exact ⟨y, hy, by rw [hrest]; rfl⟩

theorem exists_mapM_iff {ε α β : Type} {f : α → Except ε β} {xs : List α} :
    (∃ ys, xs.mapM f = .ok ys) ↔ ∀ x ∈ xs, ∃ y, f x = .ok y := by
  simp only [mapM_eq_ok_iff]
  induction xs with
  | nil => exact ⟨fun _ _ hx => absurd hx List.not_mem_nil, fun _ => ⟨[], rfl⟩⟩
  | cons x xs ih =>
      rw [List.forall_mem_cons, ← ih]
      constructor
      · rintro ⟨ys, hys⟩
        cases ys with
        | nil => cases hys
        | cons y ys =>
            rcases List.cons.inj hys with ⟨hx, hxs⟩
            exact ⟨⟨y, hx⟩, ys, hxs⟩
      · rintro ⟨⟨y, hx⟩, ys, hxs⟩
        exact ⟨y :: ys, by rw [List.map_cons, List.map_cons, hx, hxs]⟩

theorem forM_eq_ok_iff {α ε : Type} {f : α → Except ε Unit} {xs : List α} :
    xs.forM f = .ok () ↔ ∀ x ∈ xs, f x = .ok () := by
  induction xs with
  | nil => exact ⟨fun _ x hx => (List.not_mem_nil hx).elim, fun _ => rfl⟩
  | cons x xs ih =>
      have hcons : (x :: xs).forM f = f x >>= fun _ => xs.forM f := rfl
      rw [hcons, bind_eq_ok_iff, List.forall_mem_cons]
      exact ⟨fun ⟨_, hx, hxs⟩ => ⟨hx, ih.1 hxs⟩, fun ⟨hx, hxs⟩ => ⟨(), hx, ih.2 hxs⟩⟩

/-- What fails is the function at one of the elements. -/
theorem exists_error_of_forM {α ε : Type} {f : α → Except ε Unit} {xs : List α} {e : ε}
    (h : xs.forM f = .error e) : ∃ x ∈ xs, f x = .error e := by
  induction xs with
  | nil => cases h
  | cons x xs ih =>
      have hcons : (x :: xs).forM f = f x >>= fun _ => xs.forM f := rfl
      rw [hcons] at h
      cases hx : f x with
      | error e' =>
          rw [hx, error_bind] at h
          exact ⟨x, List.mem_cons_self, hx.trans h⟩
      | ok u =>
          rw [hx, ok_bind] at h
          rcases ih h with ⟨y, hy, hfailed⟩
          exact ⟨y, List.mem_cons_of_mem _ hy, hfailed⟩

/-! ## Folds -/

section

variable {σ : Type u} {f : σ → α → Except ε σ}

theorem foldlM_cons_eq_ok_iff {a : α} {xs : List α} {s t : σ} :
    (a :: xs).foldlM f s = .ok t ↔ ∃ s', f s a = .ok s' ∧ xs.foldlM f s' = .ok t := by
  rw [List.foldlM_cons, bind_eq_ok_iff]

/-- A fold in which each step that succeeds gives what `g` gives. -/
theorem eq_foldl_of_foldlM {g : σ → α → σ} {xs : List α} {s t : σ}
    (hstep : ∀ s a t, f s a = .ok t → t = g s a) (h : xs.foldlM f s = .ok t) :
    t = xs.foldl g s := by
  induction xs generalizing s with
  | nil => exact (Except.ok.inj h).symm
  | cons a xs ih =>
      rcases foldlM_cons_eq_ok_iff.1 h with ⟨s', hs', hrest⟩
      rw [List.foldl_cons, ← hstep s a s' hs']
      exact ih hrest

/-- A fold in which every step succeeds. -/
theorem foldlM_eq_foldl {g : σ → α → σ} {xs : List α}
    (hstep : ∀ a ∈ xs, ∀ s, f s a = .ok (g s a)) (s : σ) :
    xs.foldlM f s = .ok (xs.foldl g s) := by
  induction xs generalizing s with
  | nil => rfl
  | cons a xs ih =>
      refine foldlM_cons_eq_ok_iff.2 ⟨g s a, hstep a List.mem_cons_self s, ?_⟩
      exact ih (fun b hb => hstep b (List.mem_cons_of_mem _ hb)) _

/-- What each step keeps, a fold that succeeds keeps. -/
theorem foldlM_invariant {P : σ → Prop} {xs : List α} {s t : σ} (h : xs.foldlM f s = .ok t)
    (hstep : ∀ s, ∀ a ∈ xs, ∀ t, P s → f s a = .ok t → P t) (hs : P s) : P t := by
  induction xs generalizing s with
  | nil => exact Except.ok.inj h ▸ hs
  | cons a xs ih =>
      obtain ⟨s', ha, hrest⟩ := foldlM_cons_eq_ok_iff.1 h
      have hs' : P s' := hstep s a List.mem_cons_self s' hs ha
      exact ih hrest (fun s b hb => hstep s b (List.mem_cons_of_mem _ hb)) hs'

/-- A fold that succeeds has passed each element. -/
theorem forall_of_foldlM {Q : α → Prop} {xs : List α} {s t : σ} (h : xs.foldlM f s = .ok t)
    (hstep : ∀ s a t, f s a = .ok t → Q a) : ∀ a ∈ xs, Q a := by
  induction xs generalizing s with
  | nil =>
      intro a ha
      cases ha
  | cons b xs ih =>
      obtain ⟨s', hb, hrest⟩ := foldlM_cons_eq_ok_iff.1 h
      intro a ha
      rcases List.mem_cons.1 ha with rfl | ha
      · exact hstep s a s' hb
      · exact ih hrest a ha

end

/-! ## What a computation fails with -/

/-- Every failure is one of `P`. -/
def FailsOnly (P : ε → Prop) (x : Except ε α) : Prop :=
  ∀ e, x = .error e → P e

@[simp] theorem failsOnly_ok (P : ε → Prop) (a : α) : FailsOnly P (.ok a : Except ε α) := by
  intro e h
  cases h

@[simp] theorem failsOnly_error {P : ε → Prop} {e : ε} :
    FailsOnly P (.error e : Except ε α) ↔ P e := by
  constructor
  · exact fun h => h e rfl
  · intro h e' heq
    exact Except.error.inj heq ▸ h

theorem failsOnly_bind_iff {P : ε → Prop} {x : Except ε α} {f : α → Except ε β} :
    FailsOnly P (x >>= f) ↔ FailsOnly P x ∧ ∀ a, x = .ok a → FailsOnly P (f a) := by
  cases x with
  | ok a => simp
  | error e => simp

/-- A computation that cannot fail with one of `P` succeeds. -/
theorem FailsOnly.exists_ok {P : ε → Prop} {x : Except ε α} (h : FailsOnly P x)
    (hnone : ∀ e, x = .error e → ¬ P e) : ∃ a, x = .ok a := by
  cases x with
  | ok a => exact ⟨a, rfl⟩
  | error e => exact absurd (h e rfl) (hnone e rfl)

end InfraWeave
