import InfraWeave.Lib.Fallible
import Mathlib.Data.List.Basic

/-!
# Computations that write and may fail

An `Outcome` lists what a computation wrote, in order, and what it returned.  What was written
before a failure stays written.
-/

namespace InfraWeave

universe u v w

structure Outcome (ω : Type u) (ε : Type v) (α : Type w) where
  writes : List ω
  result : Except ε α

namespace Outcome

variable {ω : Type u} {ε ε' : Type v} {α β : Type w}

/-- Nothing is written. -/
def ofExcept (result : Except ε α) : Outcome ω ε α :=
  ⟨[], result⟩

def bind (x : Outcome ω ε α) (f : α → Outcome ω ε β) : Outcome ω ε β :=
  match x.result with
  | .ok a => ⟨x.writes ++ (f a).writes, (f a).result⟩
  | .error e => ⟨x.writes, .error e⟩

instance : Monad (Outcome ω ε) where
  pure a := ofExcept (.ok a)
  bind := bind

def write (w : ω) : Outcome ω ε Unit :=
  ⟨[w], .ok ()⟩

def error (e : ε) : Outcome ω ε α :=
  ofExcept (.error e)

def mapError (f : ε → ε') (x : Outcome ω ε α) : Outcome ω ε' α :=
  ⟨x.writes, x.result.mapError f⟩

/-- One after the other, up to the first failure. -/
def forEach {ι : Type*} : List ι → (ι → Outcome ω ε Unit) → Outcome ω ε Unit
  | [], _ => pure ()
  | i :: is, f => bind (f i) fun _ => forEach is f

/-- All of them, whatever the others return; the first failure is returned. -/
def collect : List (Outcome ω ε Unit) → Outcome ω ε Unit
  | [] => pure ()
  | x :: xs =>
      let rest := collect xs
      ⟨x.writes ++ rest.writes, match x.result with
        | .ok _ => rest.result
        | .error e => .error e⟩

/-! ## What is written -/

@[simp] theorem writes_pure (a : α) : (pure a : Outcome ω ε α).writes = [] := rfl

@[simp] theorem writes_ofExcept (result : Except ε α) :
    (ofExcept result : Outcome ω ε α).writes = [] := rfl

@[simp] theorem writes_error (e : ε) : (error e : Outcome ω ε α).writes = [] := rfl

@[simp] theorem writes_write (w : ω) : (write w : Outcome ω ε Unit).writes = [w] := rfl

@[simp] theorem writes_mapError (f : ε → ε') (x : Outcome ω ε α) :
    (x.mapError f).writes = x.writes := rfl

@[simp] theorem ofExcept_ok_bind (a : α) (f : α → Outcome ω ε β) :
    (ofExcept (.ok a) >>= f) = f a := rfl

@[simp] theorem pure_bind (a : α) (f : α → Outcome ω ε β) : (pure a >>= f) = f a := rfl

theorem bind_pure (x : Outcome ω ε α) : (x >>= fun a => pure a) = x := by
  obtain ⟨writes, result⟩ := x
  cases result with
  | ok a =>
      change (⟨writes ++ [], .ok a⟩ : Outcome ω ε α) = _
      rw [List.append_nil]
  | error e => rfl

theorem writes_bind (x : Outcome ω ε α) (f : α → Outcome ω ε β) :
    (x >>= f).writes = x.writes ++
      match x.result with
      | .ok a => (f a).writes
      | .error _ => [] := by
  change (bind x f).writes = _
  unfold bind
  cases x.result with
  | ok a => rfl
  | error e => simp

/-- A write of a chain is one of its first part, or of its second part once the first is done. -/
theorem mem_writes_bind {x : Outcome ω ε α} {f : α → Outcome ω ε β} {w : ω} :
    w ∈ (x >>= f).writes ↔ w ∈ x.writes ∨ ∃ a, x.result = .ok a ∧ w ∈ (f a).writes := by
  rw [writes_bind, List.mem_append]
  cases x.result with
  | ok a => simp
  | error e => simp

theorem mem_writes_forEach {ι : Type*} {is : List ι} {f : ι → Outcome ω ε Unit} {w : ω}
    (h : w ∈ (forEach is f).writes) : ∃ i ∈ is, w ∈ (f i).writes := by
  induction is with
  | nil => simp [forEach] at h
  | cons i is ih =>
      rcases mem_writes_bind.1 h with h | ⟨_, -, h⟩
      · exact ⟨i, by simp, h⟩
      · obtain ⟨j, hj, h⟩ := ih h
        exact ⟨j, by simp [hj], h⟩

/-- When no part fails, every part writes. -/
theorem mem_writes_forEach_of_ok {ι : Type*} {is : List ι} {f : ι → Outcome ω ε Unit}
    (hok : ∀ i ∈ is, (f i).result = .ok ()) {i : ι} (hi : i ∈ is) {w : ω}
    (hw : w ∈ (f i).writes) : w ∈ (forEach is f).writes := by
  induction is with
  | nil => cases hi
  | cons j is ih =>
      refine mem_writes_bind.2 ?_
      rcases List.mem_cons.1 hi with rfl | hi
      · exact Or.inl hw
      · exact Or.inr ⟨(), hok j (by simp), ih (fun i hi => hok i (by simp [hi])) hi⟩

theorem mem_writes_collect {xs : List (Outcome ω ε Unit)} {w : ω} :
    w ∈ (collect xs).writes ↔ ∃ x ∈ xs, w ∈ x.writes := by
  induction xs with
  | nil => simp [collect]
  | cons x xs ih => simp [collect, ih]

/-! ## What succeeds -/

/-- A chain succeeds when its first part does and its second part does with that result. -/
theorem result_bind_eq_ok {x : Outcome ω ε α} {f : α → Outcome ω ε β} {b : β} :
    (x >>= f).result = .ok b ↔ ∃ a, x.result = .ok a ∧ (f a).result = .ok b := by
  change (bind x f).result = _ ↔ _
  unfold bind
  cases x.result with
  | ok a => simp
  | error e => simp

theorem writes_bind_of_ok {x : Outcome ω ε α} {f : α → Outcome ω ε β} {a : α}
    (h : x.result = .ok a) : (x >>= f).writes = x.writes ++ (f a).writes := by
  rw [writes_bind, h]

theorem result_mapError_eq_ok {ε ε' : Type v} {α : Type w} {f : ε → ε'} {x : Outcome ω ε α}
    {a : α} : (x.mapError f).result = .ok a ↔ x.result = .ok a :=
  mapError_eq_ok_iff

theorem result_of_forEach {ι : Type*} {is : List ι} {f : ι → Outcome ω ε Unit}
    (h : (forEach is f).result = .ok ()) : ∀ i ∈ is, (f i).result = .ok () := by
  induction is with
  | nil =>
      intro i hi
      cases hi
  | cons j is ih =>
      obtain ⟨_, hj, his⟩ := result_bind_eq_ok.1 h
      intro i hi
      rcases List.mem_cons.1 hi with rfl | hi
      · exact hj
      · exact ih his i hi

theorem result_forEach_iff {ι : Type*} {is : List ι} {f : ι → Outcome ω ε Unit} :
    (forEach is f).result = .ok () ↔ ∀ i ∈ is, (f i).result = .ok () := by
  refine ⟨result_of_forEach, fun h => ?_⟩
  induction is with
  | nil => rfl
  | cons i is ih =>
      exact result_bind_eq_ok.2 ⟨(), h i List.mem_cons_self,
        ih fun j hj => h j (List.mem_cons_of_mem _ hj)⟩

end Outcome
end InfraWeave
