import InfraWeave.EnvCommon.StackGraph
import InfraWeave.Lib.OrderedMap

/-!
# Cycles among the claims of a stack

The dependency graph is a hash map from the claims to the claims that they refer to.  Its keys come
in any order, a claim may be listed twice or be no key at all, and whatever the order is, a cycle is
reported exactly when there is one.
-/

namespace InfraWeave
namespace EnvCommon

/-- `HashMap<String, Vec<String>>`. -/
structure DependencyGraph where
  entries : List (String × List String)
  nodup : (OrderedMap.keys entries).Nodup

namespace DependencyGraph

def keys (g : DependencyGraph) : List String :=
  OrderedMap.keys g.entries

/-- A node that is no key has no neighbors. -/
def neighbors (g : DependencyGraph) (node : String) : List String :=
  (g.entries.lookup node).getD []

def Edge (g : DependencyGraph) (a b : String) : Prop :=
  b ∈ g.neighbors a

/-- The cycle that is found when the keys come in the order of `order`. -/
def detectCycle (g : DependencyGraph) (order : List String) : Option (List String) :=
  DepthFirst.detectCycle g.neighbors order

theorem neighbors_of_not_mem_keys {g : DependencyGraph} {node : String} (h : node ∉ g.keys) :
    g.neighbors node = [] := by
  have hlookup : g.entries.lookup node = none := by
    cases hfound : g.entries.lookup node with
    | none => rfl
    | some dependencies => exact absurd (OrderedMap.mem_keys_iff.2 ⟨dependencies, hfound⟩) h
  simp [neighbors, hlookup]

theorem mem_keys_of_edge {g : DependencyGraph} {a b : String} (h : g.Edge a b) : a ∈ g.keys := by
  by_contra hkey
  have hnone := neighbors_of_not_mem_keys hkey
  simp [Edge, hnone] at h

/-- The neighbors of a node are keys, or they lead nowhere. -/
theorem mem_order_or_leaf {g : DependencyGraph} {order : List String} (h : order.Perm g.keys) :
    ∀ a ∈ order, ∀ b ∈ g.neighbors a, b ∈ order ∨ g.neighbors b = [] := by
  intro _ _ b _
  by_cases hkey : b ∈ g.keys
  · exact Or.inl (h.mem_iff.2 hkey)
  · exact Or.inr (neighbors_of_not_mem_keys hkey)

theorem exists_mem_keys_of_cycle {g : DependencyGraph} {a : String}
    (h : Relation.TransGen g.Edge a a) : a ∈ g.keys := by
  rcases Relation.TransGen.head'_iff.1 h with ⟨b, hstart, -⟩
  exact mem_keys_of_edge hstart

/-- For every graph and every order of its keys, a cycle is found if and only if there is one, and
what is found is one. -/
theorem detectCycle_correct (g : DependencyGraph) (order : List String)
    (horder : order.Perm g.keys) :
    ((g.detectCycle order).isSome = true ↔ ∃ a, Relation.TransGen g.Edge a a) ∧
      ∀ cycle, g.detectCycle order = some cycle → DepthFirst.IsCycle g.neighbors cycle := by
  have hsound : ∀ cycle, g.detectCycle order = some cycle →
      DepthFirst.IsCycle g.neighbors cycle := fun _ h => DepthFirst.isCycle_of_detectCycle h
  refine ⟨⟨fun hsome => ?_, fun hcycle => ?_⟩, hsound⟩
  · rcases Option.isSome_iff_exists.1 hsome with ⟨cycle, hfound⟩
    exact DepthFirst.transGen_of_isCycle (hsound cycle hfound)
  · rcases hcycle with ⟨a, hcycle⟩
    -- Without a cycle found, no key is on one.
    by_contra hnone
    have hfound : DepthFirst.detectCycle g.neighbors order = none := by
      simpa [detectCycle] using hnone
    have hkey : a ∈ order := horder.mem_iff.2 (exists_mem_keys_of_cycle hcycle)
    exact DepthFirst.acyclic_of_detectCycle (mem_order_or_leaf horder) hfound hkey hcycle

/-- Two claims that refer to one another, one of them twice, next to a name that is no claim. -/
def mutualClaims : DependencyGraph where
  entries := [("bucket", ["web", "web", "vpc"]), ("web", ["bucket"])]
  nodup := by decide

theorem detectCycle_mutualClaims :
    mutualClaims.detectCycle ["web", "bucket"] = some ["web", "bucket"] ∧
      (∃ a, Relation.TransGen mutualClaims.Edge a a) ∧
      DepthFirst.IsCycle mutualClaims.neighbors ["web", "bucket"] := by
  have hfound : mutualClaims.detectCycle ["web", "bucket"] = some ["web", "bucket"] := by
    decide +kernel
  have hcorrect := detectCycle_correct mutualClaims ["web", "bucket"] (by decide)
  refine ⟨hfound, hcorrect.1.1 ?_, hcorrect.2 _ hfound⟩
  rw [hfound]
  rfl

end DependencyGraph

/-! ## Refused stacks -/

theorem checkReference_ne_circularDependency {conv : Conventions} {claims : List StackClaim}
    {c : StackClaim} {r : FieldReference} {cycle : List String} :
    checkReference conv claims c r ≠ .error (.circularDependency cycle) := by
  unfold checkReference
  split
  · simp
  · split <;> simp

/-- The claims that a refused stack names are a cycle of references. -/
theorem isCycle_of_circularDependency {conv : Conventions} {claims : List StackClaim}
    {cycle : List String}
    (h : validateDependencies conv claims = .error (.circularDependency cycle)) :
    DepthFirst.IsCycle (dependencyGraph conv claims) cycle := by
  unfold validateDependencies at h
  cases hreferences : claims.forM (checkReferences conv claims) with
  | error e =>
      -- The checks of the references do not know of cycles.
      rw [hreferences, error_bind] at h
      rcases exists_error_of_forM hreferences with ⟨c, -, hclaim⟩
      rcases exists_error_of_forM hclaim with ⟨r, -, hreference⟩
      rw [Except.error.inj h] at hreference
      exact absurd hreference checkReference_ne_circularDependency
  | ok u =>
      rw [hreferences, ok_bind] at h
      cases hfound : DepthFirst.detectCycle (dependencyGraph conv claims)
          (conv.hashOrder (claims.map StackClaim.name)) with
      | none => simp [hfound] at h
      | some found =>
          have heq : found = cycle := by simpa [hfound] using h
          exact heq ▸ DepthFirst.isCycle_of_detectCycle hfound

end EnvCommon
end InfraWeave
