import InfraWeave.Graph.Nodes
import InfraWeave.Lib.InsertionOrder
import InfraWeave.Lib.Shrink
import InfraWeave.Lib.Worklist

/-!
# Pruning

Variables and locals that no resource and no root output reaches are left out, and then the groups
without nodes in them.  Root variables and root outputs are put into groups of their own.
-/

namespace InfraWeave
namespace Graph

/-! ## Edges between addresses -/

/-- The edges between ids that both have a node, as edges between addresses. -/
def addressPairs (address : String → Option String) (rawEdges : List (String × String)) :
    List (String × String) :=
  rawEdges.filterMap fun entry =>
    (address entry.1).bind fun s => (address entry.2).map fun t => (s, t)

/-- `entry(s).or_default().push(t)` for each of the edges. -/
def collectEdges (pairs : List (String × String)) : List (String × List String) :=
  pairs.foldl (fun adj pair => InsertionOrder.upsert pair.1 [pair.2] (· ++ [pair.2]) adj) []

theorem dependsOn_collectEdges {pairs : List (String × String)} {a b : String} :
    DependsOn (collectEdges pairs) a b ↔ (a, b) ∈ pairs := by
  induction pairs using List.reverseRecOn with
  | nil =>
      constructor
      · rintro ⟨neighbors, hlookup, -⟩
        cases hlookup
      · intro h
        cases h
  | append_singleton pairs pair ih =>
      have hstep : collectEdges (pairs ++ [pair]) =
          InsertionOrder.upsert pair.1 [pair.2] (· ++ [pair.2]) (collectEdges pairs) := by
        simp [collectEdges]
      rw [List.mem_append, ← ih, List.mem_singleton, hstep]
      unfold DependsOn
      rw [InsertionOrder.lookup_upsert]
      by_cases ha : a = pair.1
      · rw [if_pos ha, ← ha]
        cases hlookup : (collectEdges pairs).lookup a with
        | none =>
            simp only [Option.map_none, Option.getD_none, Option.some.injEq, exists_eq_left',
              List.mem_singleton, reduceCtorEq, false_and, exists_false, false_or]
            exact ⟨fun hb => Prod.ext ha hb, fun heq => congrArg Prod.snd heq⟩
        | some neighbors =>
            simp only [Option.map_some, Option.getD_some, Option.some.injEq, exists_eq_left',
              List.mem_append, List.mem_singleton]
            refine or_congr_right ⟨fun hb => Prod.ext ha hb, fun heq => congrArg Prod.snd heq⟩
      · rw [if_neg ha]
        refine (or_iff_left fun heq => ha ?_).symm
        exact congrArg Prod.fst heq

/-! ## Nodes that nothing reaches -/

/-- Variables, locals and outputs of modules must be reached. -/
def isSeed (node : OutputNode) : Bool :=
  let nodeType := node.data.nodeType
  let isRootOutput := nodeType = "output" && startsWith node.id "output."
  !node.isGroup && (nodeType ≠ "var" && nodeType ≠ "local" && (nodeType ≠ "output" || isRootOutput))

def isPrunable (node : OutputNode) : Bool :=
  let nodeType := node.data.nodeType
  !node.isGroup && (nodeType = "var" || nodeType = "local" || nodeType = "data")

def seedIds (nodes : List OutputNode) : List String :=
  (nodes.filter isSeed).map OutputNode.id

/-- The stack begins with the seeds, the last one on the top. -/
def pruneUnreached (adj : List (String × List String)) (nodes : List OutputNode) :
    List OutputNode :=
  let visited := Worklist.explore adj [] (seedIds nodes).reverse
  nodes.filter fun node => !isPrunable node || visited.contains node.id

/-- A node that is kept whether it is used or not leads to the id. -/
def Reached (adj : List (String × List String)) (nodes : List OutputNode) (id : String) : Prop :=
  ∃ seed ∈ nodes, isSeed seed = true ∧ Relation.ReflTransGen (DependsOn adj) seed.id id

theorem mem_explore_seeds_iff {adj : List (String × List String)} {nodes : List OutputNode}
    {id : String} :
    id ∈ Worklist.explore adj [] (seedIds nodes).reverse ↔ Reached adj nodes id := by
  rw [Worklist.mem_explore_iff]
  constructor
  · rintro ⟨s, hs, hpath⟩
    rcases List.mem_map.1 (List.mem_reverse.1 hs) with ⟨seed, hseed, rfl⟩
    rcases List.mem_filter.1 hseed with ⟨hmem, hseed⟩
    exact ⟨seed, hmem, hseed, hpath⟩
  · rintro ⟨seed, hmem, hseed, hpath⟩
    refine ⟨seed.id, List.mem_reverse.2 (List.mem_map_of_mem ?_), hpath⟩
    exact List.mem_filter.2 ⟨hmem, hseed⟩

/-- A variable or a local. -/
def isUsedOnly (node : OutputNode) : Bool :=
  !node.isGroup && (node.data.nodeType = "var" || node.data.nodeType = "local")

/-- Exactly the variables and locals that are not reached are left out: a data source is never
pruned, since it counts as a resource in use. -/
theorem mem_pruneUnreached_iff {adj : List (String × List String)} {nodes : List OutputNode}
    {node : OutputNode} :
    node ∈ pruneUnreached adj nodes ↔
      node ∈ nodes ∧ (isUsedOnly node = true → Reached adj nodes node.id) := by
  unfold pruneUnreached
  rw [List.mem_filter]
  refine and_congr_right fun hmem => ?_
  rw [Bool.or_eq_true, Bool.not_eq_true', List.contains_iff_mem, mem_explore_seeds_iff]
  by_cases hused : isUsedOnly node = true
  · have hprunable : isPrunable node = true := by
      simp only [isUsedOnly, isPrunable, Bool.and_eq_true, Bool.or_eq_true] at hused ⊢
      exact ⟨hused.1, Or.inl hused.2⟩
    simp [hused, hprunable]
  · refine iff_of_true ?_ fun h => absurd h hused
    by_cases hprunable : isPrunable node = true
    · -- What is left is a data source.
      simp only [isPrunable, isUsedOnly, Bool.and_eq_true, Bool.or_eq_true, decide_eq_true_eq,
        Bool.not_eq_true'] at hprunable hused
      have hdata : node.data.nodeType = "data" :=
        hprunable.2.resolve_left fun h => hused ⟨hprunable.1, h⟩
      have hseed : isSeed node = true := by simp [isSeed, hprunable.1, hdata]
      exact Or.inr ⟨node, hmem, hseed, .refl⟩
    · exact Or.inl (Bool.eq_false_iff.2 hprunable)

/-! ## Groups -/

def parentIds (nodes : List OutputNode) : List String :=
  nodes.filterMap OutputNode.parentId

/-- Resources stay, and groups that are a parent. -/
def isKept (nodes : List OutputNode) (node : OutputNode) : Bool :=
  !node.isGroup || (parentIds nodes).contains node.id

def pruneGroups (nodes : List OutputNode) : List OutputNode :=
  Shrink.shrink isKept nodes

theorem mem_parentIds_iff {nodes : List OutputNode} {id : String} :
    id ∈ parentIds nodes ↔ ∃ node ∈ nodes, node.parentId = some id :=
  List.mem_filterMap

theorem isKept_iff {nodes : List OutputNode} {node : OutputNode} :
    isKept nodes node = true ↔
      (node.isGroup = true → ∃ child ∈ nodes, child.parentId = some node.id) := by
  rw [isKept, Bool.or_eq_true, Bool.not_eq_true', List.contains_iff_mem, mem_parentIds_iff]
  cases node.isGroup <;> simp

theorem growing_isKept : Shrink.Growing isKept := by
  intro xs ys hsubset node hkept
  rw [isKept_iff] at hkept ⊢
  intro hgroup
  rcases hkept hgroup with ⟨child, hchild, hparent⟩
  exact ⟨child, hsubset hchild, hparent⟩

def rootGroup (id label : String) : OutputNode :=
  .group id ⟨label, "group", none, none, none, none⟩ ⟨0, 0⟩
    ⟨"rgba(255, 255, 255, 0.05)", "1px dashed #cccccc", -1⟩ none

/-- A group for the resources that say it is their parent. -/
def addRootGroup (id label : String) (nodes : List OutputNode) : List OutputNode :=
  if nodes.any fun node => !node.isGroup && node.parentId = some id then
    nodes ++ [rootGroup id label]
  else nodes

def addRootGroups (nodes : List OutputNode) : List OutputNode :=
  addRootGroup "root_outputs" "Outputs" (addRootGroup "root_variables" "Variables" nodes)

theorem mem_addRootGroup_iff {id label : String} {nodes : List OutputNode} {node : OutputNode} :
    node ∈ addRootGroup id label nodes ↔ node ∈ nodes ∨
      node = rootGroup id label ∧
        ∃ child ∈ nodes, child.isGroup = false ∧ child.parentId = some id := by
  unfold addRootGroup
  split
  · rename_i hany
    have hchild : ∃ child ∈ nodes, child.isGroup = false ∧ child.parentId = some id := by
      simpa [List.any_eq_true] using hany
    simp [hchild]
  · rename_i hnone
    have hchild : ¬ ∃ child ∈ nodes, child.isGroup = false ∧ child.parentId = some id := by
      simpa [List.any_eq_true] using hnone
    simp only [hchild, and_false, or_false]

end Graph
end InfraWeave
