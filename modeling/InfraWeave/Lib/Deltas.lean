import Mathlib.Data.List.Basic
import Mathlib.Logic.Function.Basic

/-!
# Edits of a map

A list of edits, at most one for a key, takes a map to another one.  The edits are made from two
views of a map, before and after, and lead from one map to another exactly when the views show,
for each key, what has changed.
-/

namespace InfraWeave
namespace Deltas

universe u v

variable {κ : Type u} {ν : Type v}

inductive Edit (ν : Type v) where
  | set (value : ν)
  | remove
  | keep

def Edit.result : Edit ν → Option ν → Option ν
  | set value, _ => some value
  | remove, _ => none
  | keep, old => old

section

variable [DecidableEq κ]

def replay (edits : List (κ × Edit ν)) (m : κ → Option ν) : κ → Option ν :=
  edits.foldl (fun m edit => Function.update m edit.1 (edit.2.result (m edit.1))) m

theorem replay_of_notMem {edits : List (κ × Edit ν)} {k : κ} (h : k ∉ edits.map Prod.fst)
    (m : κ → Option ν) : replay edits m k = m k := by
  induction edits generalizing m with
  | nil => rfl
  | cons edit edits ih =>
      have hne : k ≠ edit.1 := fun heq => h (heq ▸ List.mem_cons_self)
      have hrest : k ∉ edits.map Prod.fst := fun hmem => h (List.mem_cons_of_mem _ hmem)
      rw [replay, List.foldl_cons]
      exact (ih hrest _).trans (Function.update_of_ne hne _ _)

theorem replay_of_mem {edits : List (κ × Edit ν)} (hkeys : (edits.map Prod.fst).Nodup) {k : κ}
    {edit : Edit ν} (h : (k, edit) ∈ edits) (m : κ → Option ν) :
    replay edits m k = edit.result (m k) := by
  induction edits generalizing m with
  | nil => cases h
  | cons first edits ih =>
      obtain ⟨hfirst, hrest⟩ := List.nodup_cons.1 hkeys
      rw [replay, List.foldl_cons]
      rcases List.mem_cons.1 h with rfl | h
      · exact (replay_of_notMem hfirst _).trans (Function.update_self _ _ _)
      · have hne : k ≠ first.1 := fun heq => hfirst (heq ▸ List.mem_map_of_mem h)
        exact (ih hrest h _).trans (congrArg edit.result (Function.update_of_ne hne _ _))

end

/-- What two views of a key ask for. -/
def requested [DecidableEq ν] (view view' : Option ν) : Edit ν :=
  if view = view' then .keep
  else
    match view' with
    | some value => .set value
    | none => .remove

/-- The views show what has changed between two maps: where they differ the second one is right,
and where they do not nothing has changed. -/
structure Shows (view view' old new : Option ν) : Prop where
  changed : view ≠ view' → new = view'
  unchanged : view = view' → new = old

theorem requested_result_eq_iff [DecidableEq ν] {view view' old new : Option ν} :
    (requested view view').result old = new ↔ Shows view view' old new := by
  unfold requested
  by_cases h : view = view'
  · rw [if_pos h]
    exact ⟨fun heq => ⟨fun hne => absurd h hne, fun _ => heq.symm⟩, fun hshows =>
      (hshows.unchanged h).symm⟩
  · rw [if_neg h]
    have hresult : ∀ view'' : Option ν, Edit.result (match view'' with
        | some value => .set value
        | none => .remove) old = view'' := by
      intro view''
      cases view'' <;> rfl
    rw [hresult]
    exact ⟨fun heq => ⟨fun _ => heq.symm, fun heq' => absurd heq' h⟩, fun hshows =>
      (hshows.changed h).symm⟩

/-- The edits are those that the views ask for; an edit that keeps may be left out. -/
structure Requested [DecidableEq ν] (edits : List (κ × Edit ν)) (view view' : κ → Option ν) :
    Prop where
  keys : (edits.map Prod.fst).Nodup
  edit : ∀ k edit, (k, edit) ∈ edits → edit = requested (view k) (view' k)
  complete : ∀ k, view k ≠ view' k → k ∈ edits.map Prod.fst

/-- The edits lead from one map to the other exactly when the views show the change at each key. -/
theorem Requested.replay_eq_iff [DecidableEq κ] [DecidableEq ν] {edits : List (κ × Edit ν)}
    {view view' old new : κ → Option ν} (h : Requested edits view view') :
    replay edits old = new ↔ ∀ k, Shows (view k) (view' k) (old k) (new k) := by
  have hreplay : ∀ k, replay edits old k = (requested (view k) (view' k)).result (old k) := by
    intro k
    by_cases hmem : k ∈ edits.map Prod.fst
    · obtain ⟨⟨k', edit⟩, hedit, rfl⟩ := List.mem_map.1 hmem
      rw [replay_of_mem h.keys hedit, h.edit _ _ hedit]
    · have hsame : view k = view' k := by
        by_contra hne
        exact hmem (h.complete k hne)
      have hkeep : requested (view k) (view' k) = .keep := if_pos hsame
      rw [replay_of_notMem hmem, hkeep]
      rfl
  rw [funext_iff]
  refine forall_congr' fun k => ?_
  rw [hreplay, requested_result_eq_iff]

end Deltas
end InfraWeave
