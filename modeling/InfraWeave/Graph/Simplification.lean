import InfraWeave.Graph.Resolution

/-!
# Simplified edges

The loop over the nodes of a graph that replaces every edge to an intermediate node.
-/

namespace InfraWeave
namespace Graph

/-- An edge from a dependency to its dependent, and the dependency that it was found behind. -/
structure SimplifiedEdge where
  dependent : String
  dependency : String
  via : String
  deriving DecidableEq

structure Simplified where
  cache : Cache
  edges : List SimplifiedEdge
  activeNodes : List String

section

variable (deps : List (String × List String)) (types : List (String × String))

/-- Intermediate nodes with dependencies are left out, and so are constants and the variables of
modules. -/
def isHidden (node nType : String) : Bool :=
  let isSimplifiable := isIntermediate nType && !startsWith node "output."
  let hasDeps := (deps.lookup node).any (!·.isEmpty)
  isSimplifiable && (hasDeps || nType = "local" || nType = "var" && !startsWith node "var.")

/-- What lies behind one dependency of the node. -/
def resolveEdge (node : String) (s : Simplified) (dep : String) : Simplified :=
  let (resolvedSources, cache) := resolveDependencies deps types dep s.cache []
  let sources := resolvedSources.filter (· ≠ node)
  { cache
    edges := s.edges ++ sources.map fun source => ⟨node, source, dep⟩
    activeNodes := s.activeNodes ++ sources }

def simplifyNode (s : Simplified) (entry : String × String) : Simplified :=
  if isHidden deps entry.1 entry.2 then s
  else
    let s := { s with activeNodes := s.activeNodes ++ [entry.1] }
    match deps.lookup entry.1 with
    | some myDeps => myDeps.foldl (resolveEdge deps types entry.1) s
    | none => s

/-- `nodeTypes` has the entries of the map `types` in the order in which they come. -/
def simplify (nodeTypes : List (String × String)) : Simplified :=
  nodeTypes.foldl (simplifyNode deps types) ⟨[], [], []⟩

end

variable {deps : List (String × List String)} {types : List (String × String)}

/-! ## One node -/

/-- An edge of the node, found behind one of the dependencies. -/
structure EdgeOf (node : String) (myDeps : List String) (edge : SimplifiedEdge) : Prop where
  dependent : edge.dependent = node
  via : edge.via ∈ myDeps
  ne : edge.dependency ≠ node

theorem EdgeOf.mono {node : String} {myDeps myDeps' : List String} {edge : SimplifiedEdge}
    (h : EdgeOf node myDeps edge) (hsubset : myDeps ⊆ myDeps') : EdgeOf node myDeps' edge :=
  ⟨h.dependent, hsubset h.via, h.ne⟩

/-- The edges that are added for some dependencies of the node. -/
structure Resolved (deps : List (String × List String)) (types : List (String × String))
    (node : String) (myDeps : List String) (s s' : Simplified) : Prop where
  cache : CacheSound deps types s'.cache
  backed : ∀ edge ∈ s'.edges, edge ∈ s.edges ∨
    EdgeOf node myDeps edge ∧ Backed deps types edge.via edge.dependency
  exact : ∀ edge, Acyclic deps types edge.via →
    (edge ∈ s'.edges ↔ edge ∈ s.edges ∨
      EdgeOf node myDeps edge ∧ IsSource deps types edge.via edge.dependency)

theorem Resolved.nil {node : String} {s : Simplified} (h : CacheSound deps types s.cache) :
    Resolved deps types node [] s s := by
  have hnone : ∀ edge, ¬ EdgeOf node [] edge := fun edge hedge => by cases hedge.via
  exact ⟨h, fun edge => Or.inl, fun edge _ => by simp [hnone edge]⟩

theorem edgeOf_append_iff {node : String} {xs ys : List String} {edge : SimplifiedEdge} :
    EdgeOf node (xs ++ ys) edge ↔ EdgeOf node xs edge ∨ EdgeOf node ys edge := by
  constructor
  · intro h
    rcases List.mem_append.1 h.via with hvia | hvia
    · exact Or.inl ⟨h.dependent, hvia, h.ne⟩
    · exact Or.inr ⟨h.dependent, hvia, h.ne⟩
  · rintro (h | h)
    · exact h.mono (List.subset_append_left _ _)
    · exact h.mono (List.subset_append_right _ _)

theorem Resolved.trans {node : String} {xs ys : List String} {s s' s'' : Simplified}
    (h : Resolved deps types node xs s s') (h' : Resolved deps types node ys s' s'') :
    Resolved deps types node (xs ++ ys) s s'' where
  cache := h'.cache
  backed edge hmem := by
    rcases h'.backed edge hmem with hmem | ⟨hedge, hbacked⟩
    · rcases h.backed edge hmem with hmem | ⟨hedge, hbacked⟩
      · exact Or.inl hmem
      · exact Or.inr ⟨edgeOf_append_iff.2 (Or.inl hedge), hbacked⟩
    · exact Or.inr ⟨edgeOf_append_iff.2 (Or.inr hedge), hbacked⟩
  exact edge hacyclic := by
    rw [h'.exact edge hacyclic, h.exact edge hacyclic, edgeOf_append_iff, or_and_right, or_assoc]

theorem resolved_resolveEdge {node : String} {s : Simplified} (h : CacheSound deps types s.cache)
    (dep : String) : Resolved deps types node [dep] s (resolveEdge deps types node s dep) := by
  have hnoPath : OnPath deps types [] dep := by simp [OnPath]
  have hanswers := answers_resolveDependencies h hnoPath
  have hmem : ∀ edge, edge ∈ (resolveEdge deps types node s dep).edges ↔
      edge ∈ s.edges ∨ EdgeOf node [dep] edge ∧
        edge.dependency ∈ (resolveDependencies deps types dep s.cache []).1 := by
    intro edge
    simp only [resolveEdge, List.mem_append, List.mem_map, List.mem_filter, decide_eq_true_eq]
    refine or_congr_right ⟨?_, ?_⟩
    · rintro ⟨source, ⟨hsource, hne⟩, rfl⟩
      exact ⟨⟨rfl, List.mem_singleton_self dep, hne⟩, hsource⟩
    · rintro ⟨⟨rfl, hvia, hne⟩, hsource⟩
      obtain rfl := List.mem_singleton.1 hvia
      exact ⟨edge.dependency, ⟨hsource, hne⟩, rfl⟩
  refine ⟨hanswers.2, fun edge hedge => ?_, fun edge hacyclic => ?_⟩
  · refine ((hmem edge).1 hedge).imp_right fun hnew => ⟨hnew.1, ?_⟩
    rw [List.mem_singleton.1 hnew.1.via]
    exact hanswers.1.backed _ hnew.2
  · rw [hmem]
    refine or_congr_right (and_congr_right fun hedge => ?_)
    rw [List.mem_singleton.1 hedge.via] at hacyclic ⊢
    exact hanswers.1.exact hacyclic _

theorem resolved_foldl {node : String} (myDeps : List String) {s : Simplified}
    (h : CacheSound deps types s.cache) :
    Resolved deps types node myDeps s (myDeps.foldl (resolveEdge deps types node) s) := by
  induction myDeps generalizing s with
  | nil => exact .nil h
  | cons dep rest ih =>
      have hstep : Resolved deps types node [dep] s (resolveEdge deps types node s dep) :=
        resolved_resolveEdge h dep
      exact hstep.trans (ih hstep.cache)

/-! ## All nodes -/

/-- A node of the list that is shown depends on the one that the edge is found behind. -/
structure Sent (deps : List (String × List String)) (nodeTypes : List (String × String))
    (edge : SimplifiedEdge) : Prop where
  shown : ∃ nType, (edge.dependent, nType) ∈ nodeTypes ∧ isHidden deps edge.dependent nType = false
  dependsOn : DependsOn deps edge.dependent edge.via
  ne : edge.dependency ≠ edge.dependent

structure Processed (deps : List (String × List String)) (types : List (String × String))
    (done : List (String × String)) (s : Simplified) : Prop where
  cache : CacheSound deps types s.cache
  backed : ∀ edge ∈ s.edges, Sent deps done edge ∧ Backed deps types edge.via edge.dependency
  exact : ∀ edge, Acyclic deps types edge.via →
    (edge ∈ s.edges ↔ Sent deps done edge ∧ IsSource deps types edge.via edge.dependency)

theorem sent_concat_iff {done : List (String × String)} {entry : String × String}
    {edge : SimplifiedEdge} : Sent deps (done ++ [entry]) edge ↔ Sent deps done edge ∨
      (isHidden deps entry.1 entry.2 = false ∧ ∃ myDeps, deps.lookup entry.1 = some myDeps ∧
        EdgeOf entry.1 myDeps edge) := by
  constructor
  · rintro ⟨⟨nType, hmem, hshown⟩, ⟨myDeps, hdeps, hvia⟩, hne⟩
    rcases List.mem_append.1 hmem with hmem | hmem
    · exact Or.inl ⟨⟨nType, hmem, hshown⟩, ⟨myDeps, hdeps, hvia⟩, hne⟩
    · obtain rfl := List.mem_singleton.1 hmem
      exact Or.inr ⟨hshown, myDeps, hdeps, rfl, hvia, hne⟩
  · rintro (h | ⟨hshown, myDeps, hdeps, hedge⟩)
    · rcases h.shown with ⟨nType, hmem, hshown⟩
      exact ⟨⟨nType, List.mem_append_left _ hmem, hshown⟩, h.dependsOn, h.ne⟩
    · have hdependent := hedge.dependent
      refine ⟨⟨entry.2, ?_, hdependent ▸ hshown⟩, ⟨myDeps, hdependent ▸ hdeps, hedge.via⟩,
        hdependent ▸ hedge.ne⟩
      rw [hdependent]
      exact List.mem_append_right _ (List.mem_singleton_self entry)

/-- The step adds the edges of one node. -/
theorem processed_simplifyNode {done : List (String × String)} {s : Simplified}
    (h : Processed deps types done s) (entry : String × String) :
    Processed deps types (done ++ [entry]) (simplifyNode deps types s entry) := by
  have hsame : (∀ edge, Sent deps (done ++ [entry]) edge ↔ Sent deps done edge) →
      ∀ s' : Simplified, s'.cache = s.cache → s'.edges = s.edges →
        Processed deps types (done ++ [entry]) s' := by
    intro hsent s' hcache hedges
    refine ⟨hcache ▸ h.cache, ?_, ?_⟩
    · simpa only [hedges, hsent] using h.backed
    · simpa only [hedges, hsent] using h.exact
  unfold simplifyNode
  split
  · rename_i hhidden
    exact hsame (fun edge => by simp [sent_concat_iff, hhidden]) s rfl rfl
  · rename_i hhidden
    have hshown := Bool.eq_false_iff.2 hhidden
    dsimp only
    split
    · rename_i myDeps hdeps
      have hsent : ∀ edge, Sent deps (done ++ [entry]) edge ↔
          Sent deps done edge ∨ EdgeOf entry.1 myDeps edge := by
        intro edge
        simp [sent_concat_iff, hshown, hdeps]
      let s₁ := { s with activeNodes := s.activeNodes ++ [entry.1] }
      have hresolved : Resolved deps types entry.1 myDeps s₁
          (myDeps.foldl (resolveEdge deps types entry.1) s₁) := resolved_foldl myDeps h.cache
      refine ⟨hresolved.cache, fun edge hmem => ?_, fun edge hacyclic => ?_⟩
      · rw [hsent]
        rcases hresolved.backed edge hmem with hmem | ⟨hedge, hbacked⟩
        · exact ⟨Or.inl (h.backed edge hmem).1, (h.backed edge hmem).2⟩
        · exact ⟨Or.inr hedge, hbacked⟩
      · rw [hresolved.exact edge hacyclic, hsent, or_and_right]
        exact or_congr_left (h.exact edge hacyclic)
    · rename_i hdeps
      exact hsame (fun edge => by simp [sent_concat_iff, hdeps]) _ rfl rfl

theorem processed_foldl {done : List (String × String)} {s : Simplified}
    (h : Processed deps types done s) (rest : List (String × String)) :
    Processed deps types (done ++ rest) (rest.foldl (simplifyNode deps types) s) := by
  induction rest generalizing done s with
  | nil => simpa using h
  | cons entry rest ih =>
      have hrest := ih (processed_simplifyNode h entry)
      rwa [List.append_assoc, List.singleton_append] at hrest

theorem processed_simplify (deps : List (String × List String))
    (types nodeTypes : List (String × String)) :
    Processed deps types nodeTypes (simplify deps types nodeTypes) := by
  have hstart : Processed deps types [] ⟨[], [], []⟩ := by
    refine ⟨?_, ?_, ?_⟩
    · intro node sources hlookup
      cases hlookup
    · intro edge hmem
      cases hmem
    · intro edge _
      constructor
      · intro hmem
        cases hmem
      · intro hsent
        rcases hsent.1.shown with ⟨nType, hmem, -⟩
        cases hmem
  have hrun := processed_foldl hstart nodeTypes
  rwa [List.nil_append] at hrun

/-! ## Active nodes -/

/-- The active nodes are those that are shown, and the dependencies of the edges. -/
def Active (deps : List (String × List String)) (done : List (String × String)) (s : Simplified) :
    Prop :=
  ∀ node, node ∈ s.activeNodes ↔
    (∃ nType, (node, nType) ∈ done ∧ isHidden deps node nType = false) ∨
      ∃ edge ∈ s.edges, edge.dependency = node

theorem active_resolveEdge {done : List (String × String)} {s : Simplified}
    (h : Active deps done s) (node dep : String) :
    Active deps done (resolveEdge deps types node s dep) := by
  intro a
  simp only [resolveEdge, List.mem_append, List.mem_map, h a, or_assoc]
  refine or_congr_right ?_
  constructor
  · rintro (⟨edge, hedge, rfl⟩ | hsource)
    · exact ⟨edge, Or.inl hedge, rfl⟩
    · exact ⟨⟨node, a, dep⟩, Or.inr ⟨a, hsource, rfl⟩, rfl⟩
  · rintro ⟨edge, hedge | ⟨source, hsource, rfl⟩, rfl⟩
    · exact Or.inl ⟨edge, hedge, rfl⟩
    · exact Or.inr hsource

theorem active_foldl {done : List (String × String)} (node : String) (myDeps : List String)
    {s : Simplified} (h : Active deps done s) :
    Active deps done (myDeps.foldl (resolveEdge deps types node) s) := by
  induction myDeps generalizing s with
  | nil => exact h
  | cons dep rest ih => exact ih (active_resolveEdge h node dep)

theorem active_simplifyNode {done : List (String × String)} {s : Simplified}
    (h : Active deps done s) (entry : String × String) :
    Active deps (done ++ [entry]) (simplifyNode deps types s entry) := by
  unfold simplifyNode
  split
  · rename_i hhidden
    intro a
    rw [h a]
    refine or_congr_left ⟨fun ⟨nType, hmem, hshown⟩ => ?_, fun ⟨nType, hmem, hshown⟩ => ?_⟩
    · exact ⟨nType, List.mem_append_left _ hmem, hshown⟩
    · rcases List.mem_append.1 hmem with hmem | hmem
      · exact ⟨nType, hmem, hshown⟩
      · obtain rfl := List.mem_singleton.1 hmem
        rw [hhidden] at hshown
        cases hshown
  · rename_i hhidden
    have hshown := Bool.eq_false_iff.2 hhidden
    have hstart : Active deps (done ++ [entry])
        { s with activeNodes := s.activeNodes ++ [entry.1] } := by
      intro a
      rw [List.mem_append, h a, List.mem_singleton]
      constructor
      · rintro ((⟨nType, hmem, ha⟩ | hedge) | rfl)
        · exact Or.inl ⟨nType, List.mem_append_left _ hmem, ha⟩
        · exact Or.inr hedge
        · exact Or.inl ⟨entry.2, List.mem_append_right _ (List.mem_singleton_self entry), hshown⟩
      · rintro (⟨nType, hmem, ha⟩ | hedge)
        · rcases List.mem_append.1 hmem with hmem | hmem
          · exact Or.inl (Or.inl ⟨nType, hmem, ha⟩)
          · exact Or.inr (congrArg Prod.fst (List.mem_singleton.1 hmem))
        · exact Or.inl (Or.inr hedge)
    dsimp only
    split
    · exact active_foldl entry.1 _ hstart
    · exact hstart

theorem active_simplify (deps : List (String × List String))
    (types nodeTypes : List (String × String)) :
    Active deps nodeTypes (simplify deps types nodeTypes) := by
  have hrun : ∀ (rest done : List (String × String)) (s : Simplified), Active deps done s →
      Active deps (done ++ rest) (rest.foldl (simplifyNode deps types) s) := by
    intro rest
    induction rest with
    | nil =>
        intro done s h
        simpa using h
    | cons entry rest ih =>
        intro done s h
        have hrest := ih (done ++ [entry]) (simplifyNode deps types s entry)
          (active_simplifyNode h entry)
        rwa [List.append_assoc, List.singleton_append] at hrest
  have hstart : Active deps [] ⟨[], [], []⟩ := fun node => by simp
  have hall := hrun nodeTypes [] ⟨[], [], []⟩ hstart
  rwa [List.nil_append] at hall

/-! ## The edges -/

/-- Every simplified edge goes from a node that is shown through intermediate nodes to one that is
no intermediate node or a root, whatever cycles there are. -/
theorem simplify_backed (deps : List (String × List String))
    (types nodeTypes : List (String × String)) :
    ∀ edge ∈ (simplify deps types nodeTypes).edges,
      Sent deps nodeTypes edge ∧ Backed deps types edge.via edge.dependency :=
  (processed_simplify deps types nodeTypes).backed

end Graph
end InfraWeave
