import Mathlib.Data.List.Basic

/-!
# Removing until nothing changes

Elements are removed that the others do not support, and this is repeated until none is left to be
removed.  Where more elements support more, what is left is the largest part of the list that
supports itself.
-/

namespace InfraWeave
namespace Shrink

universe u

variable {α : Type u} (supported : List α → α → Bool)

/-- One round. -/
def round (xs : List α) : List α :=
  xs.filter (supported xs)

def shrink (xs : List α) : List α :=
  if _h : (round supported xs).length = xs.length then round supported xs
  else shrink (round supported xs)
termination_by xs.length
decreasing_by exact Nat.lt_of_le_of_ne (List.length_filter_le _ _) _h

/-- The elements support each other. -/
def Stable (xs : List α) : Prop :=
  ∀ x ∈ xs, supported xs x = true

/-- More elements support more. -/
def Growing : Prop :=
  ∀ xs ys : List α, xs ⊆ ys → ∀ x, supported xs x = true → supported ys x = true

variable {supported}

theorem shrink_sublist (xs : List α) : (shrink supported xs).Sublist xs := by
  induction xs using shrink.induct supported with
  | case1 xs h =>
      rw [shrink, dif_pos h]
      exact List.filter_sublist
  | case2 xs h ih =>
      rw [shrink, dif_neg h]
      exact ih.trans List.filter_sublist

theorem stable_shrink (xs : List α) : Stable supported (shrink supported xs) := by
  induction xs using shrink.induct supported with
  | case1 xs h =>
      rw [shrink, dif_pos h]
      -- Nothing has been removed in the last round.
      have hsame : round supported xs = xs := List.filter_sublist.eq_of_length h
      intro x hx
      have hkept := (List.mem_filter.1 hx).2
      rwa [hsame]
  | case2 xs h ih =>
      rw [shrink, dif_neg h]
      exact ih

theorem Stable.subset_shrink (hgrowing : Growing supported) {part : List α}
    (hstable : Stable supported part) {xs : List α} (h : part ⊆ xs) :
    part ⊆ shrink supported xs := by
  have hkept : ∀ {xs : List α}, part ⊆ xs → part ⊆ round supported xs := by
    intro xs h x hx
    exact List.mem_filter.2 ⟨h hx, hgrowing part xs h x (hstable x hx)⟩
  induction xs using shrink.induct supported with
  | case1 xs hlength =>
      rw [shrink, dif_pos hlength]
      exact hkept h
  | case2 xs hlength ih =>
      rw [shrink, dif_neg hlength]
      exact ih (hkept h)

/-- An element is left exactly when it is in a part of the list that supports itself. -/
theorem mem_shrink_iff (hgrowing : Growing supported) {xs : List α} {x : α} :
    x ∈ shrink supported xs ↔ ∃ part ⊆ xs, Stable supported part ∧ x ∈ part := by
  constructor
  · intro hx
    exact ⟨_, (shrink_sublist xs).subset, stable_shrink xs, hx⟩
  · rintro ⟨part, hpart, hstable, hx⟩
    exact hstable.subset_shrink hgrowing hpart hx

end Shrink
end InfraWeave
