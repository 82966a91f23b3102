import Mathlib.Data.List.Basic
import Mathlib.Data.List.Chain
import Mathlib.Logic.Relation

/-!
# Depth-first search for a cycle

The search enters a node once, keeps the nodes that it has entered and not yet left, and stops at an
edge that leads back to one of these.  The path is a path of the graph, so what is found is a cycle.
When the search ends without having found such an edge, the nodes that it has left are sorted: every
edge of a node leads to a node that was left before it.  So the graph has no cycle.
-/

namespace InfraWeave
namespace DepthFirst

universe u

variable {α : Type u}

/-- The nodes that have been entered, those of them that have not been left, and the path that leads
to the current node. -/
structure Search (α : Type u) where
  visited : List α
  stack : List α
  path : List α

inductive Found (α : Type u) where
  | outOfFuel
  | cycle (nodes : List α)
  | done (s : Search α)

def Search.empty : Search α :=
  ⟨[], [], []⟩

variable [DecidableEq α]

namespace Search

def enter (s : Search α) (node : α) : Search α :=
  ⟨node :: s.visited, node :: s.stack, s.path ++ [node]⟩

def leave (s : Search α) (node : α) : Search α :=
  { s with stack := s.stack.filter (· ≠ node), path := s.path.dropLast }

end Search

/-- The neighbors of a node, one after the other. -/
def visitAll (visit : α → Search α → Found α) : List α → Search α → Found α
  | [], s => .done s
  | neighbor :: rest, s =>
      if neighbor ∉ s.visited then
        match visit neighbor s with
        | .done s' => visitAll visit rest s'
        | found => found
      else if neighbor ∈ s.stack ∧ neighbor ∈ s.path then
        .cycle (s.path.drop (s.path.idxOf neighbor))
      else visitAll visit rest s

def dfs (graph : α → List α) : Nat → α → Search α → Found α
  | 0, _, _ => .outOfFuel
  | fuel + 1, node, s =>
      let found :=
        if node ∉ s.visited then visitAll (dfs graph fuel) (graph node) (s.enter node) else .done s
      match found with
      | .done s' => .done (s'.leave node)
      | found => found

/-- The search from each of the nodes in turn. -/
def searchFrom (graph : α → List α) (fuel : Nat) : List α → Search α → Found α
  | [], s => .done s
  | node :: rest, s =>
      match dfs graph fuel node s with
      | .done s' => searchFrom graph fuel rest s'
      | found => found

/-- A cycle, if there is one.  No path is longer than the list of the nodes, so the fuel is never
used up. -/
def detectCycle (graph : α → List α) (nodes : List α) : Option (List α) :=
  match searchFrom graph (nodes.length + 1) nodes .empty with
  | .cycle path => some path
  | _ => none

/-! ## Sorted nodes -/

/-- Every edge leads to a later node of the list. -/
inductive Sorted (graph : α → List α) : List α → Prop where
  | nil : Sorted graph []
  | cons {node : α} {nodes : List α} (fresh : node ∉ nodes)
      (edges : ∀ neighbor ∈ graph node, neighbor ∈ nodes) (rest : Sorted graph nodes) :
      Sorted graph (node :: nodes)

omit [DecidableEq α] in
theorem Sorted.mem_of_edge {graph : α → List α} {nodes : List α} (h : Sorted graph nodes) {a b : α}
    (ha : a ∈ nodes) (hab : b ∈ graph a) : b ∈ nodes := by
  induction h with
  | nil => cases ha
  | cons fresh edges rest ih =>
      rcases List.mem_cons.1 ha with rfl | ha
      · exact List.mem_cons_of_mem _ (edges b hab)
      · exact List.mem_cons_of_mem _ (ih ha)

omit [DecidableEq α] in
theorem Sorted.mem_of_transGen {graph : α → List α} {nodes : List α} (h : Sorted graph nodes)
    {a b : α} (ha : a ∈ nodes) (hab : Relation.TransGen (fun a b => b ∈ graph a) a b) :
    b ∈ nodes := by
  induction hab with
  | single hab => exact h.mem_of_edge ha hab
  | tail _ hbc ih => exact h.mem_of_edge ih hbc

omit [DecidableEq α] in
/-- No node of a sorted list is on a cycle. -/
theorem Sorted.acyclic {graph : α → List α} {nodes : List α} (h : Sorted graph nodes) {a : α}
    (ha : a ∈ nodes) : ¬ Relation.TransGen (fun a b => b ∈ graph a) a a := by
  induction h with
  | nil => cases ha
  | @cons node nodes fresh edges rest ih =>
      rcases List.mem_cons.1 ha with rfl | ha
      · intro hcycle
        -- The first step leads into the rest, which no edge leaves.
        have hrest : a ∈ nodes := by
          rcases Relation.TransGen.head'_iff.1 hcycle with ⟨b, hab, hba⟩
          have hb := edges b hab
          rcases Relation.reflTransGen_iff_eq_or_transGen.1 hba with rfl | hba
          · exact hb
          · exact rest.mem_of_transGen hb hba
        exact fresh hrest
      · exact ih ha

/-! ## What the search keeps -/

/-- The nodes in `left` have been left, the last one first. -/
structure Invariant (graph : α → List α) (s : Search α) (left : List α) : Prop where
  sorted : Sorted graph left
  visited : ∀ a, a ∈ s.visited ↔ a ∈ s.stack ∨ a ∈ left
  stack : ∀ a ∈ s.stack, a ∈ s.path ∧ a ∉ left

/-- What a part of the search changes: it leaves the nodes that it has entered. -/
structure Advances (s s' : Search α) (left left' : List α) : Prop where
  stack : ∀ a, a ∈ s'.stack ↔ a ∈ s.stack
  path : s'.path = s.path
  visited : ∀ a ∈ s.visited, a ∈ s'.visited
  left : ∀ a ∈ left, a ∈ left'

omit [DecidableEq α] in
theorem Advances.refl (s : Search α) (left : List α) : Advances s s left left :=
  ⟨fun _ => Iff.rfl, rfl, fun _ h => h, fun _ h => h⟩

omit [DecidableEq α] in
theorem Advances.trans {s s' s'' : Search α} {left left' left'' : List α}
    (h : Advances s s' left left') (h' : Advances s' s'' left' left'') :
    Advances s s'' left left'' where
  stack a := (h'.stack a).trans (h.stack a)
  path := h'.path.trans h.path
  visited a ha := h'.visited a (h.visited a ha)
  left a ha := h'.left a (h.left a ha)

/-- The nodes that have not been entered. -/
def unvisited (nodes : List α) (s : Search α) : List α :=
  nodes.filter (· ∉ s.visited)

theorem length_unvisited_le {nodes : List α} {s s' : Search α}
    (h : ∀ a ∈ s.visited, a ∈ s'.visited) :
    (unvisited nodes s').length ≤ (unvisited nodes s).length := by
  refine (List.monotone_filter_right nodes ?_).length_le
  intro a ha
  simp only [decide_eq_true_eq] at ha ⊢
  exact fun hs => ha (h a hs)

theorem length_unvisited_enter {nodes : List α} {s : Search α} {node : α} (hnode : node ∈ nodes)
    (hnew : node ∉ s.visited) :
    (unvisited nodes (s.enter node)).length < (unvisited nodes s).length := by
  have hsub : (unvisited nodes (s.enter node)).Sublist (unvisited nodes s) := by
    refine List.monotone_filter_right nodes ?_
    intro a ha
    simp only [Search.enter, List.mem_cons, not_or, decide_eq_true_eq] at ha ⊢
    exact ha.2
  refine Nat.lt_of_le_of_ne hsub.length_le ?_
  intro hlength
  have heq := hsub.eq_of_length hlength
  have hmem : node ∈ unvisited nodes s := by simp [unvisited, hnode, hnew]
  rw [← heq] at hmem
  simp [unvisited, Search.enter] at hmem

/-- What a visit does: it finds a cycle, or it leaves the node. -/
def Visits (graph : α → List α) (s : Search α) (left : List α) (nodes : List α) :
    Found α → Prop
  | .outOfFuel => False
  | .cycle _ => True
  | .done s' => ∃ left', Invariant graph s' left' ∧ Advances s s' left left' ∧
      ∀ a ∈ nodes, a ∈ left'

theorem visitAll_visits {graph : α → List α} {nodes : List α} {fuel : Nat}
    {visit : α → Search α → Found α}
    (hvisit : ∀ node s left, Invariant graph s left → (node ∈ nodes ∨ graph node = []) →
      node ∉ s.visited → (unvisited nodes s).length < fuel →
      Visits graph s left [node] (visit node s))
    (neighbors : List α) (hneighbors : ∀ a ∈ neighbors, a ∈ nodes ∨ graph a = []) {s : Search α}
    {left : List α} (hinv : Invariant graph s left) (hfuel : (unvisited nodes s).length < fuel) :
    Visits graph s left neighbors (visitAll visit neighbors s) := by
  induction neighbors generalizing s left with
  | nil => exact ⟨left, hinv, .refl s left, fun _ h => absurd h List.not_mem_nil⟩
  | cons neighbor rest ih =>
      have hrest : ∀ a ∈ rest, a ∈ nodes ∨ graph a = [] := fun a ha =>
        hneighbors a (List.mem_cons_of_mem _ ha)
      -- The rest of the neighbors, once this one has been left.
      have hnext : ∀ s' left', Invariant graph s' left' → Advances s s' left left' →
          neighbor ∈ left' → Visits graph s left (neighbor :: rest) (visitAll visit rest s') := by
        intro s' left' hinv' hadvances hleft
        have hfuel' := Nat.lt_of_le_of_lt (length_unvisited_le hadvances.visited) hfuel
        have hstep := ih hrest hinv' hfuel'
        cases hfound : visitAll visit rest s' with
        | outOfFuel => simp [hfound, Visits] at hstep
        | cycle path => trivial
        | done s'' =>
            rw [hfound] at hstep
            obtain ⟨left'', hinv'', hadvances', hall⟩ := hstep
            refine ⟨left'', hinv'', hadvances.trans hadvances', ?_⟩
            intro a ha
            rcases List.mem_cons.1 ha with rfl | ha
            · exact hadvances'.left _ hleft
            · exact hall a ha
      unfold visitAll
      split
      · rename_i hnew
        have hstep := hvisit neighbor s left hinv (hneighbors _ List.mem_cons_self) hnew hfuel
        cases hfound : visit neighbor s with
        | outOfFuel => simp [hfound, Visits] at hstep
        | cycle path => trivial
        | done s' =>
            rw [hfound] at hstep
            obtain ⟨left', hinv', hadvances, hall⟩ := hstep
            exact hnext s' left' hinv' hadvances (hall _ List.mem_cons_self)
      · rename_i hvisited
        split
        · trivial
        · -- A neighbor that has been entered and is no way back has been left.
          rename_i hback
          refine hnext s left hinv (.refl s left) ?_
          rcases (hinv.visited neighbor).1 (not_not.1 hvisited) with hstack | hleft
          · exact absurd ⟨hstack, (hinv.stack _ hstack).1⟩ hback
          · exact hleft

omit [DecidableEq α] in
theorem Invariant.enter [DecidableEq α] {graph : α → List α} {s : Search α} {left : List α}
    (h : Invariant graph s left) {node : α} (hnew : node ∉ s.visited) :
    Invariant graph (s.enter node) left where
  sorted := h.sorted
  visited a := by
    simp only [Search.enter, List.mem_cons, h.visited, or_assoc]
  stack a ha := by
    rcases List.mem_cons.1 ha with rfl | ha
    · refine ⟨List.mem_append_right _ List.mem_cons_self, ?_⟩
      intro hleft
      exact hnew ((h.visited _).2 (Or.inr hleft))
    · exact ⟨List.mem_append_left _ (h.stack a ha).1, (h.stack a ha).2⟩

/-- The fuel is for the nodes; a neighbor that is none of them has no neighbors. -/
theorem dfs_visits {graph : α → List α} {nodes : List α}
    (hclosed : ∀ a ∈ nodes, ∀ b ∈ graph a, b ∈ nodes ∨ graph b = []) (fuel : Nat) :
    ∀ node s left, Invariant graph s left → (node ∈ nodes ∨ graph node = []) →
      node ∉ s.visited → (unvisited nodes s).length < fuel →
      Visits graph s left [node] (dfs graph fuel node s) := by
  induction fuel with
  | zero =>
      intro node s left _ _ _ hfuel
      exact absurd hfuel (Nat.not_lt_zero _)
  | succ fuel ih =>
      intro node s left hinv hnode hnew hfuel
      have hinv₁ := hinv.enter hnew
      have hall : Visits graph (s.enter node) left (graph node)
          (visitAll (dfs graph fuel) (graph node) (s.enter node)) := by
        rcases hnode with hnode | hleaf
        · have hfuel₁ : (unvisited nodes (s.enter node)).length < fuel := by
            have := length_unvisited_enter hnode hnew
            omega
          exact visitAll_visits ih (graph node) (hclosed node hnode) hinv₁ hfuel₁
        · simp only [hleaf, visitAll]
          exact ⟨left, hinv₁, .refl _ left, fun _ h => absurd h List.not_mem_nil⟩
      simp only [dfs, if_pos hnew]
      cases hfound : visitAll (dfs graph fuel) (graph node) (s.enter node) with
      | outOfFuel => simp [hfound, Visits] at hall
      | cycle path => trivial
      | done s₂ =>
          rw [hfound] at hall
          obtain ⟨left₂, hinv₂, hadvances, hedges⟩ := hall
          have hstack₂ : node ∈ s₂.stack := (hadvances.stack node).2 List.mem_cons_self
          have hnotleft : node ∉ left₂ := (hinv₂.stack node hstack₂).2
          have hpath : (s₂.leave node).path = s.path := by
            simp [Search.leave, hadvances.path, Search.enter]
          have hstack : ∀ a, a ∈ (s₂.leave node).stack ↔ a ∈ s.stack := by
            intro a
            simp only [Search.leave, List.mem_filter, decide_eq_true_eq, hadvances.stack,
              Search.enter, List.mem_cons]
            constructor
            · rintro ⟨rfl | ha, hne⟩
              · exact absurd rfl hne
              · exact ha
            · intro ha
              refine ⟨Or.inr ha, ?_⟩
              rintro rfl
              exact hnew ((hinv.visited _).2 (Or.inl ha))
          refine ⟨node :: left₂, ⟨.cons hnotleft hedges hinv₂.sorted, ?_, ?_⟩, ⟨hstack, hpath, ?_, ?_⟩,
            ?_⟩
          · intro a
            have hvisited : a ∈ (s₂.leave node).visited ↔ a ∈ s₂.stack ∨ a ∈ left₂ :=
              hinv₂.visited a
            rw [hvisited, hstack, hadvances.stack, Search.enter, List.mem_cons, List.mem_cons]
            tauto
          · intro a ha
            have hs : a ∈ s.stack := (hstack a).1 ha
            refine ⟨hpath ▸ (hinv.stack a hs).1, ?_⟩
            have hs₂ : a ∈ s₂.stack := (hadvances.stack a).2 (List.mem_cons_of_mem _ hs)
            intro hmem
            rcases List.mem_cons.1 hmem with rfl | hmem
            · exact hnew ((hinv.visited _).2 (Or.inl hs))
            · exact (hinv₂.stack a hs₂).2 hmem
          · intro a ha
            exact hadvances.visited a (List.mem_cons_of_mem _ ha)
          · intro a ha
            exact List.mem_cons_of_mem _ (hadvances.left a ha)
          · intro a ha
            rw [List.mem_singleton.1 ha]
            exact List.mem_cons_self

theorem searchFrom_visits {graph : α → List α} {nodes : List α}
    (hclosed : ∀ a ∈ nodes, ∀ b ∈ graph a, b ∈ nodes ∨ graph b = []) {fuel : Nat} (hfuel : nodes.length < fuel)
    (starts : List α) (hstarts : ∀ a ∈ starts, a ∈ nodes) {s : Search α} {left : List α}
    (hinv : Invariant graph s left) (hstack : s.stack = []) (hpath : s.path = []) :
    Visits graph s left starts (searchFrom graph fuel starts s) := by
  induction starts generalizing s left with
  | nil => exact ⟨left, hinv, .refl s left, fun _ h => absurd h List.not_mem_nil⟩
  | cons node rest ih =>
      have hrest : ∀ a ∈ rest, a ∈ nodes := fun a ha => hstarts a (List.mem_cons_of_mem _ ha)
      have hbound : (unvisited nodes s).length < fuel :=
        Nat.lt_of_le_of_lt (List.length_filter_le _ _) hfuel
      have hstep : Visits graph s left [node] (dfs graph fuel node s) := by
        by_cases hnew : node ∉ s.visited
        · have hnode : node ∈ nodes ∨ graph node = [] := Or.inl (hstarts _ List.mem_cons_self)
          exact dfs_visits hclosed fuel node s left hinv hnode hnew hbound
        · -- A node that was entered from an earlier one has been left.
          obtain ⟨fuel, rfl⟩ := Nat.exists_eq_succ_of_ne_zero (Nat.ne_zero_of_lt hbound)
          have hleave : s.leave node = s := by
            cases s
            simp_all [Search.leave]
          simp only [dfs, if_neg hnew, hleave]
          refine ⟨left, hinv, .refl s left, ?_⟩
          intro a ha
          rw [List.mem_singleton.1 ha]
          have hmem := (hinv.visited node).1 (not_not.1 hnew)
          simpa [hstack] using hmem
      unfold searchFrom
      cases hfound : dfs graph fuel node s with
      | outOfFuel => simp [hfound, Visits] at hstep
      | cycle path => trivial
      | done s' =>
          rw [hfound] at hstep
          obtain ⟨left', hinv', hadvances, hnode⟩ := hstep
          have hstack' : s'.stack = [] := by
            refine List.eq_nil_iff_forall_not_mem.2 ?_
            intro a ha
            have hs := (hadvances.stack a).1 ha
            rw [hstack] at hs
            cases hs
          have hall := ih hrest hinv' hstack' (hadvances.path.trans hpath)
          cases hlast : searchFrom graph fuel rest s' with
          | outOfFuel => simp [hlast, Visits] at hall
          | cycle path => simp [hlast, Visits]
          | done s'' =>
              rw [hlast] at hall
              obtain ⟨left'', hinv'', hadvances', hrest'⟩ := hall
              simp only [hlast]
              refine ⟨left'', hinv'', hadvances.trans hadvances', ?_⟩
              intro a ha
              rcases List.mem_cons.1 ha with rfl | ha
              · exact hadvances'.left _ (hnode _ List.mem_cons_self)
              · exact hrest' a ha

/-- When no cycle is found there is none. -/
theorem acyclic_of_detectCycle {graph : α → List α} {nodes : List α}
    (hclosed : ∀ a ∈ nodes, ∀ b ∈ graph a, b ∈ nodes ∨ graph b = [])
    (h : detectCycle graph nodes = none) {a : α} (ha : a ∈ nodes) : ¬ Relation.TransGen (fun a b => b ∈ graph a) a a := by
  have hempty : Invariant graph (.empty : Search α) [] :=
    ⟨.nil, fun a => by simp [Search.empty], fun a ha => by cases ha⟩
  have hvisits := searchFrom_visits hclosed (Nat.lt_succ_self _) nodes (fun _ h => h) hempty rfl rfl
  unfold detectCycle at h
  cases hfound : searchFrom graph (nodes.length + 1) nodes .empty with
  | outOfFuel =>
      rw [hfound] at hvisits
      cases hvisits
  | cycle path =>
      rw [hfound] at h
      cases h
  | done s =>
      rw [hfound] at hvisits
      obtain ⟨left, hinv, -, hall⟩ := hvisits
      exact hinv.sorted.acyclic (hall a ha)

/-! ## What is found -/

/-- Each node has an edge to the next one, and the last one has an edge to the first. -/
def IsCycle (graph : α → List α) (nodes : List α) : Prop :=
  ∃ h : nodes ≠ [], nodes.IsChain (fun a b => b ∈ graph a) ∧ nodes.head h ∈ graph (nodes.getLast h)

omit [DecidableEq α] in
theorem transGen_of_isCycle {graph : α → List α} {nodes : List α} (h : IsCycle graph nodes) :
    ∃ a, Relation.TransGen (fun a b => b ∈ graph a) a a := by
  rcases h with ⟨hne, hchain, hback⟩
  refine ⟨nodes.head hne, ?_⟩
  -- Every node of the chain is reached from the first one.
  have hreached := hchain.induction (Relation.ReflTransGen (fun a b => b ∈ graph a) (nodes.head hne))
    nodes (fun _ _ hstep hpath => hpath.tail hstep) (fun _ => .refl)
  exact Relation.TransGen.tail' (hreached _ (List.getLast_mem hne)) hback

/-- What a part of the search does to the path: a cycle is a cycle of the graph, and otherwise the
path is as it was. -/
def KeepsPath (graph : α → List α) (s : Search α) : Found α → Prop
  | .outOfFuel => True
  | .cycle nodes => IsCycle graph nodes
  | .done s' => s'.path = s.path

/-- The path is one of the graph, and its last node has edges to `neighbors`. -/
structure OnPath (graph : α → List α) (s : Search α) (neighbors : List α) : Prop where
  chain : s.path.IsChain fun a b => b ∈ graph a
  last : ∀ a ∈ s.path.getLast?, ∀ b ∈ neighbors, b ∈ graph a

/-- An edge from the last node back to a node of the path closes a cycle. -/
theorem OnPath.isCycle {graph : α → List α} {s : Search α} {neighbors : List α} {b : α}
    (h : OnPath graph s neighbors) (hb : b ∈ neighbors) (hpath : b ∈ s.path) :
    IsCycle graph (s.path.drop (s.path.idxOf b)) := by
  have hbound : s.path.idxOf b < s.path.length := List.idxOf_lt_length_of_mem hpath
  have hne : s.path.drop (s.path.idxOf b) ≠ [] := by simpa using hbound
  refine ⟨hne, h.chain.drop _, ?_⟩
  have hhead : (s.path.drop (s.path.idxOf b)).head hne = b := by simp
  have hlast : (s.path.drop (s.path.idxOf b)).getLast hne ∈ s.path.getLast? := by
    rw [List.getLast_drop]
    exact List.getLast?_eq_some_getLast (List.ne_nil_of_mem hpath)
  rw [hhead]
  exact h.last _ hlast b hb

omit [DecidableEq α] in
theorem OnPath.enter {graph : α → List α} {s : Search α} {node : α} (h : OnPath graph s [node]) :
    OnPath graph (s.enter node) (graph node) where
  chain := h.chain.append (.singleton node) fun a ha b hb => by
    obtain rfl : node = b := by simpa using hb
    exact h.last a ha _ List.mem_cons_self
  last a ha b hb := by
    obtain rfl : node = a := by simpa [Search.enter] using ha
    exact hb

theorem visitAll_keepsPath {graph : α → List α} {visit : α → Search α → Found α}
    (hvisit : ∀ node s, OnPath graph s [node] → node ∉ s.visited →
      KeepsPath graph s (visit node s))
    (neighbors : List α) {s : Search α} (hpath : OnPath graph s neighbors) :
    KeepsPath graph s (visitAll visit neighbors s) := by
  induction neighbors generalizing s with
  | nil => rfl
  | cons neighbor rest ih =>
      have hrest : OnPath graph s rest :=
        ⟨hpath.chain, fun a ha b hb => hpath.last a ha b (List.mem_cons_of_mem _ hb)⟩
      have hnode : OnPath graph s [neighbor] :=
        ⟨hpath.chain, fun a ha b hb =>
          hpath.last a ha b (List.mem_singleton.1 hb ▸ List.mem_cons_self)⟩
      unfold visitAll
      split
      · rename_i hnew
        have hstep := hvisit neighbor s hnode hnew
        cases hfound : visit neighbor s with
        | outOfFuel => trivial
        | cycle nodes =>
            rw [hfound] at hstep
            exact hstep
        | done s' =>
            rw [hfound] at hstep
            -- The path is the same for the rest of the neighbors.
            have hsame : s'.path = s.path := hstep
            have hrest' : OnPath graph s' rest :=
              ⟨hsame ▸ hrest.chain, fun a ha => hrest.last a (hsame ▸ ha)⟩
            have hstep' := ih hrest'
            simp only
            cases hlast : visitAll visit rest s' with
            | outOfFuel => trivial
            | cycle nodes =>
                rw [hlast] at hstep'
                exact hstep'
            | done s'' =>
                rw [hlast] at hstep'
                exact Eq.trans hstep' hsame
      · split
        · rename_i hback
          exact hpath.isCycle List.mem_cons_self hback.2
        · exact ih hrest

theorem dfs_keepsPath {graph : α → List α} (fuel : Nat) :
    ∀ node s, OnPath graph s [node] → node ∉ s.visited →
      KeepsPath graph s (dfs graph fuel node s) := by
  induction fuel with
  | zero =>
      intro node s _ _
      trivial
  | succ fuel ih =>
      intro node s hpath hnew
      have hall := visitAll_keepsPath ih (graph node) hpath.enter
      simp only [dfs, if_pos hnew]
      cases hfound : visitAll (dfs graph fuel) (graph node) (s.enter node) with
      | outOfFuel => trivial
      | cycle nodes =>
          rw [hfound] at hall
          exact hall
      | done s' =>
          rw [hfound] at hall
          have hsame : s'.path = s.path ++ [node] := hall
          simp [KeepsPath, Search.leave, hsame]

theorem searchFrom_keepsPath {graph : α → List α} {fuel : Nat} (starts : List α) {s : Search α}
    (hpath : s.path = []) : KeepsPath graph s (searchFrom graph fuel starts s) := by
  induction starts generalizing s with
  | nil => rfl
  | cons node rest ih =>
      have hstep : KeepsPath graph s (dfs graph fuel node s) := by
        by_cases hnew : node ∉ s.visited
        · refine dfs_keepsPath fuel node s ⟨?_, ?_⟩ hnew
          · simp [hpath]
          · simp [hpath]
        · -- A node that has been entered already takes nothing from the empty path.
          cases fuel with
          | zero => trivial
          | succ fuel => simp [dfs, if_neg hnew, KeepsPath, Search.leave, hpath]
      unfold searchFrom
      cases hfound : dfs graph fuel node s with
      | outOfFuel => trivial
      | cycle nodes =>
          rw [hfound] at hstep
          exact hstep
      | done s' =>
          rw [hfound] at hstep
          have hsame : s'.path = s.path := hstep
          have hrest := ih (hsame.trans hpath)
          simp only
          cases hlast : searchFrom graph fuel rest s' with
          | outOfFuel => trivial
          | cycle nodes =>
              rw [hlast] at hrest
              exact hrest
          | done s'' =>
              rw [hlast] at hrest
              exact Eq.trans hrest hsame

/-- What is found is a cycle of the graph. -/
theorem isCycle_of_detectCycle {graph : α → List α} {nodes cycle : List α}
    (h : detectCycle graph nodes = some cycle) : IsCycle graph cycle := by
  have hkeeps : KeepsPath graph .empty (searchFrom graph (nodes.length + 1) nodes .empty) :=
    searchFrom_keepsPath nodes rfl
  unfold detectCycle at h
  cases hfound : searchFrom graph (nodes.length + 1) nodes .empty with
  | outOfFuel =>
      rw [hfound] at h
      cases h
  | done s =>
      rw [hfound] at h
      cases h
  | cycle path =>
      rw [hfound] at h hkeeps
      obtain rfl : path = cycle := Option.some.inj h
      exact hkeeps

end DepthFirst
end InfraWeave
