import InfraWeave.Lib.OrderedMap
import Mathlib.Logic.Relation

/-!
# Reachable nodes, with a worklist

The nodes that are still to be visited are kept on a stack.  A node is taken from it, and its
neighbours are put on it unless they have been visited.  When the stack is empty, the visited nodes
are those that can be reached from the ones it began with.
-/

namespace InfraWeave
namespace Worklist

universe u

variable {α : Type u} [DecidableEq α]

/-- The neighbours of a node. -/
def Edge (adj : List (α × List α)) (a b : α) : Prop :=
  ∃ neighbors, adj.lookup a = some neighbors ∧ b ∈ neighbors

/-- The nodes with neighbours that have not been visited become fewer. -/
theorem length_filter_lt {adj : List (α × List α)} {visited neighbors : List α} {a : α}
    (hlookup : adj.lookup a = some neighbors) (hnew : a ∉ visited) :
    (adj.filter fun entry => entry.1 ∉ a :: visited).length <
      (adj.filter fun entry => entry.1 ∉ visited).length := by
  have hsplit : (adj.filter fun entry => entry.1 ∉ a :: visited) =
      (adj.filter fun entry => entry.1 ∉ visited).filter fun entry => entry.1 ≠ a := by
    rw [List.filter_filter]
    exact List.filter_congr fun entry _ => by simp
  rw [hsplit]
  refine List.length_filter_lt_length_iff_exists.2 ⟨(a, neighbors), ?_, by simp⟩
  exact List.mem_filter.2 ⟨OrderedMap.mem_of_lookup hlookup, by simpa using hnew⟩

theorem length_filter_le (adj : List (α × List α)) (visited : List α) (a : α) :
    (adj.filter fun entry => entry.1 ∉ a :: visited).length ≤
      (adj.filter fun entry => entry.1 ∉ visited).length := by
  refine List.Sublist.length_le (List.monotone_filter_right adj fun entry h => ?_)
  simp only [List.mem_cons, not_or, Bool.decide_and, Bool.and_eq_true, decide_eq_true_eq] at h ⊢
  exact h.2

/-- The top of the stack is the head of `queue`. -/
def explore (adj : List (α × List α)) (visited queue : List α) : List α :=
  match queue with
  | [] => visited
  | a :: queue =>
      if _hvisited : a ∈ visited then explore adj visited queue
      else
        match _hlookup : adj.lookup a with
        | some neighbors =>
            explore adj (a :: visited)
              ((neighbors.filter fun b => b ∉ a :: visited).reverse ++ queue)
        | none => explore adj (a :: visited) queue
termination_by ((adj.filter fun entry => entry.1 ∉ visited).length, queue.length)
decreasing_by
  · exact Prod.Lex.right _ (Nat.lt_succ_self _)
  · exact Prod.Lex.left _ _ (length_filter_lt _hlookup _hvisited)
  · rcases Nat.lt_or_eq_of_le (length_filter_le adj visited a) with hlt | heq
    · exact Prod.Lex.left _ _ hlt
    · rw [heq]
      exact Prod.Lex.right _ (Nat.lt_succ_self _)

/-- Part way through: what has been visited or is on the stack is reachable, the stack leads to what
is still missing. -/
structure Explored (adj : List (α × List α)) (seeds visited queue : List α) : Prop where
  reachable : ∀ a, a ∈ visited ∨ a ∈ queue → ∃ s ∈ seeds, Relation.ReflTransGen (Edge adj) s a
  seeds : ∀ s ∈ seeds, s ∈ visited ∨ s ∈ queue
  closed : ∀ a ∈ visited, ∀ b, Edge adj a b → b ∈ visited ∨ b ∈ queue

variable {adj : List (α × List α)} {seeds visited queue : List α}

theorem Explored.skip {a : α} (h : Explored adj seeds visited (a :: queue)) (hvisited : a ∈ visited) :
    Explored adj seeds visited queue := by
  have hdrop : ∀ b, b ∈ visited ∨ b ∈ a :: queue → b ∈ visited ∨ b ∈ queue := by
    rintro b (hb | hb)
    · exact Or.inl hb
    · rcases List.mem_cons.1 hb with rfl | hb
      · exact Or.inl hvisited
      · exact Or.inr hb
  refine ⟨fun b hb => h.reachable b (hb.imp_right (List.mem_cons_of_mem a)), ?_, ?_⟩
  · exact fun s hs => hdrop s (h.seeds s hs)
  · exact fun b hb c hc => hdrop c (h.closed b hb c hc)

/-- A node is visited, and its neighbours that have not been are put on the stack. -/
theorem Explored.visit {a : α} {more : List α} (h : Explored adj seeds visited (a :: queue))
    (hmore : ∀ b ∈ more, Edge adj a b) (hall : ∀ b, Edge adj a b → b ∈ a :: visited ∨ b ∈ more) :
    Explored adj seeds (a :: visited) (more ++ queue) := by
  have hkeep : ∀ b, b ∈ visited ∨ b ∈ a :: queue → b ∈ a :: visited ∨ b ∈ more ++ queue := by
    rintro b (hb | hb)
    · exact Or.inl (List.mem_cons_of_mem a hb)
    · rcases List.mem_cons.1 hb with rfl | hb
      · exact Or.inl List.mem_cons_self
      · exact Or.inr (List.mem_append_right more hb)
  refine ⟨?_, fun s hs => hkeep s (h.seeds s hs), ?_⟩
  · rintro b (hb | hb)
    · rcases List.mem_cons.1 hb with rfl | hb
      · exact h.reachable b (Or.inr List.mem_cons_self)
      · exact h.reachable b (Or.inl hb)
    · rcases List.mem_append.1 hb with hb | hb
      · rcases h.reachable a (Or.inr List.mem_cons_self) with ⟨s, hs, hpath⟩
        exact ⟨s, hs, hpath.tail (hmore b hb)⟩
      · exact h.reachable b (Or.inr (List.mem_cons_of_mem a hb))
  · intro b hb c hc
    rcases List.mem_cons.1 hb with rfl | hb
    · exact (hall c hc).imp_right (List.mem_append_left queue)
    · exact hkeep c (h.closed b hb c hc)

theorem Explored.explore (h : Explored adj seeds visited queue) :
    Explored adj seeds (Worklist.explore adj visited queue) [] := by
  induction visited, queue using Worklist.explore.induct adj with
  | case1 visited =>
      rw [Worklist.explore]
      exact h
  | case2 visited a queue hvisited ih =>
      rw [Worklist.explore, dif_pos hvisited]
      exact ih (h.skip hvisited)
  | case3 visited a queue hvisited neighbors hlookup ih =>
      rw [Worklist.explore, dif_neg hvisited]
      split
      · rename_i neighbors' hlookup'
        obtain rfl := Option.some.inj (hlookup.symm.trans hlookup')
        refine ih (h.visit ?_ ?_)
        · intro b hb
          exact ⟨neighbors, hlookup, List.mem_of_mem_filter (List.mem_reverse.1 hb)⟩
        · rintro b ⟨neighbors', hlookup', hb⟩
          obtain rfl := Option.some.inj (hlookup.symm.trans hlookup')
          by_cases hmem : b ∈ a :: visited
          · exact Or.inl hmem
          · exact Or.inr (List.mem_reverse.2 (List.mem_filter.2 ⟨hb, by simpa using hmem⟩))
      · rename_i hlookup'
        cases hlookup.symm.trans hlookup'
  | case4 visited a queue hvisited hlookup ih =>
      rw [Worklist.explore, dif_neg hvisited]
      split
      · rename_i neighbors' hlookup'
        cases hlookup.symm.trans hlookup'
      · have hnone : ∀ b, ¬ Edge adj a b := by
          rintro b ⟨neighbors, hlookup', -⟩
          cases hlookup.symm.trans hlookup'
        have hvisit : Explored adj seeds (a :: visited) ([] ++ queue) :=
          h.visit (by simp) fun b hb => absurd hb (hnone b)
        exact ih hvisit

/-- What has been visited in the end is what can be reached. -/
theorem mem_explore_iff (adj : List (α × List α)) (seeds : List α) (a : α) :
    a ∈ explore adj [] seeds ↔ ∃ s ∈ seeds, Relation.ReflTransGen (Edge adj) s a := by
  have hstart : Explored adj seeds [] seeds := by
    refine ⟨?_, fun s hs => Or.inr hs, by simp⟩
    rintro b (hb | hb)
    · cases hb
    · exact ⟨b, hb, .refl⟩
  have hend := hstart.explore
  constructor
  · exact fun h => hend.reachable a (Or.inl h)
  · rintro ⟨s, hs, hpath⟩
    induction hpath with
    | refl => exact (hend.seeds s hs).resolve_right List.not_mem_nil
    | tail _ hstep ih => exact (hend.closed _ ih _ hstep).resolve_right List.not_mem_nil

end Worklist
end InfraWeave
