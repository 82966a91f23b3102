import InfraWeave.Graph.Contents

/-!
# Graphs in any order

Where variables, locals and outputs do not depend on themselves, a graph is the same in whatever
orders maps iterate, up to the order of its nodes, the order of its edges and their ids.
-/

namespace InfraWeave
namespace Graph

variable {description : String → Option Described} {hcl : String → Option String}

/-! ## Arguments of edges -/

theorem sortDedup_congr {xs ys : List String} (h : ∀ s, s ∈ xs ↔ s ∈ ys) :
    sortDedup xs = sortDedup ys := by
  have hsorted : ∀ zs : List String, (sortDedup zs).Pairwise fun a b => a ≤ b := by
    intro zs
    have hmerge : (zs.mergeSort fun a b => decide (a ≤ b)).Pairwise fun a b => a ≤ b :=
      List.pairwise_mergeSort' (· ≤ ·) zs
    exact hmerge.sublist (List.dedup_sublist _)
  have hperm : (sortDedup xs).Perm (sortDedup ys) := by
    refine (List.perm_ext_iff_of_nodup (List.nodup_dedup _) (List.nodup_dedup _)).2 fun s => ?_
    have hmem : s ∈ sortDedup xs ↔ s ∈ sortDedup ys := by rw [mem_sortDedup, mem_sortDedup, h]
    exact hmem
  exact hperm.eq_of_pairwise' (hsorted xs) (hsorted ys)

/-- What an edge shows of its arguments. -/
def shownArguments (arguments : List String) : Option (List String) :=
  let attributes := sortDedup arguments
  if attributes.isEmpty then none else some attributes

theorem shownArguments_congr {xs ys : List String} (h : ∀ s, s ∈ xs ↔ s ∈ ys) :
    shownArguments xs = shownArguments ys := by
  rw [shownArguments, shownArguments, sortDedup_congr h]

/-- An edge without its id. -/
def OutputEdge.content (edge : OutputEdge) : (String × String) × Option (List String) :=
  ((edge.source, edge.target), edge.attributes)

theorem map_content_outputEdges (edges : EdgeAttributes) :
    (outputEdges edges).map OutputEdge.content =
      edges.map fun entry => (entry.1, shownArguments entry.2) := by
  simp only [outputEdges, List.map_map]
  refine List.ext_getElem (by simp) fun i h h' => ?_
  simp [OutputEdge.content, shownArguments]

theorem mem_arguments_iff {configDeps : EdgeAttributes} {edges : List SimplifiedEdge}
    {entry : (String × String) × List String} (h : entry ∈ currentEdges configDeps edges)
    (a : String) :
    a ∈ entry.2 ↔ ∃ edge ∈ edges, (edge.dependency, edge.dependent) = entry.1 ∧
      a ∈ edgeArguments configDeps edge.dependent edge.via := by
  have hmap : currentEdges configDeps edges =
      (edges.map fun edge => ((edge.dependency, edge.dependent),
        edgeArguments configDeps edge.dependent edge.via)).foldl
          (fun m e => InsertionOrder.upsert e.1 e.2 (· ++ e.2) m) [] := by
    rw [currentEdges, List.foldl_map]
  rw [hmap] at h
  rw [InsertionOrder.mem_value_foldl_upsert h]
  simp

/-- Only which edges there are counts, and neither their order nor how often one comes. -/
theorem mem_content_of_subset {configDeps : EdgeAttributes} {edges edges' : List SimplifiedEdge}
    (h : ∀ edge, edge ∈ edges ↔ edge ∈ edges') {content : (String × String) × Option (List String)}
    (hmem : content ∈ (currentEdges configDeps edges).map
      fun entry => (entry.1, shownArguments entry.2)) :
    content ∈ (currentEdges configDeps edges').map
      fun entry => (entry.1, shownArguments entry.2) := by
  rcases List.mem_map.1 hmem with ⟨entry, hentry, rfl⟩
  have hkey : entry.1 ∈ (currentEdges configDeps edges').map Prod.fst := by
    have hkey := mem_keys_currentEdges.1 (List.mem_map_of_mem hentry)
    simp only [h] at hkey
    exact mem_keys_currentEdges.2 hkey
  rcases List.mem_map.1 hkey with ⟨entry', hentry', hpair⟩
  refine List.mem_map.2 ⟨entry', hentry', Prod.ext hpair (shownArguments_congr fun a => ?_)⟩
  rw [mem_arguments_iff hentry', mem_arguments_iff hentry, hpair]
  simp only [h]

/-! ## Nodes -/

/-- A group is known by its id. -/
theorem Made.eq_of_group {node other : OutputNode} (h : Made description hcl node)
    (h' : Made description hcl other) (hgroup : node.isGroup = true) (hgroup' : other.isGroup = true)
    (hid : node.id = other.id) : node = other := by
  cases h with
  | @ofAddress address node h =>
      rw [(id_of_nodeOf h).2] at hgroup
      cases hgroup
  | @ofModule path h => exact (Made.ofModule h).eq_of_id h' h.not_isRootGroup hid
  | rootVariables =>
      cases h' with
      | @ofAddress address node h' =>
          rw [(id_of_nodeOf h').2] at hgroup'
          cases hgroup'
      | @ofModule path h' =>
          obtain rfl : "root_variables" = path := hid
          exact absurd h'.not_isRootGroup (by decide)
      | rootVariables => rfl
      | rootOutputs => exact absurd hid (by decide)
  | rootOutputs =>
      cases h' with
      | @ofAddress address node h' =>
          rw [(id_of_nodeOf h').2] at hgroup'
          cases hgroup'
      | @ofModule path h' =>
          obtain rfl : "root_outputs" = path := hid
          exact absurd h'.not_isRootGroup (by decide)
      | rootVariables => exact absurd hid (by decide)
      | rootOutputs => rfl

/-- Well nested nodes with the same resources are the same. -/
theorem WellNested.mem_of_resources {nodes nodes' : List OutputNode} (h : WellNested nodes)
    (h' : WellNested nodes') (hmade : ∀ node ∈ nodes, Made description hcl node)
    (hmade' : ∀ node ∈ nodes', Made description hcl node)
    (hresources : ∀ node, node.isGroup = false → (node ∈ nodes ↔ node ∈ nodes'))
    {node : OutputNode} (hnode : node ∈ nodes) : node ∈ nodes' := by
  by_cases hgroup : node.isGroup = true
  · have hsame : ∀ p : OutputNode → Prop, (∃ n ∈ nodes, n.isGroup = false ∧ p n) ↔
        ∃ n ∈ nodes', n.isGroup = false ∧ p n := by
      intro p
      constructor
      · rintro ⟨n, hn, hresource, hp⟩
        exact ⟨n, (hresources n hresource).1 hn, hresource, hp⟩
      · rintro ⟨n, hn, hresource, hp⟩
        exact ⟨n, (hresources n hresource).2 hn, hresource, hp⟩
    have hexists : ∃ group ∈ nodes', group.isGroup = true ∧ group.id = node.id := by
      rcases (hmade node hnode).isModule_or_isRootGroup hgroup with hmodule | hroot
      · have hiff := h.exists_module_iff hmade hmodule
        rw [hsame, ← h'.exists_module_iff hmade' hmodule] at hiff
        exact hiff.1 ⟨node, hnode, hgroup, rfl⟩
      · have hiff := h.exists_rootGroup_iff hmade hroot
        rw [hsame, hsame, ← h'.exists_rootGroup_iff hmade' hroot] at hiff
        exact hiff.1 ⟨node, hnode, hgroup, rfl⟩
    rcases hexists with ⟨group, hmem, hisGroup, hid⟩
    rwa [(hmade node hnode).eq_of_group (hmade' group hmem) hgroup hisGroup hid.symm]
  · exact (hresources node (Bool.eq_false_iff.2 hgroup)).1 hnode

/-! ## Graphs -/

/-- The same graph, up to the order of nodes and edges and to the ids of edges. -/
def SameGraph (graph graph' : OutputGraph) : Prop :=
  graph.nodes.Perm graph'.nodes ∧
    (graph.edges.map OutputEdge.content).Perm (graph'.edges.map OutputEdge.content)

theorem nodup_content (configDeps : EdgeAttributes) (edges : List SimplifiedEdge) :
    ((currentEdges configDeps edges).map fun entry => (entry.1, shownArguments entry.2)).Nodup := by
  refine List.Nodup.of_map Prod.fst ?_
  rw [List.map_map]
  exact nodup_keys_currentEdges configDeps edges

theorem perm_content {orders orders' : HashOrders} {configDeps : EdgeAttributes}
    {pairs : List (String × String)} {nodes nodes' : List OutputNode}
    (h : ∀ edge, edge ∈ (graphEdges orders configDeps pairs nodes).edges ↔
      edge ∈ (graphEdges orders' configDeps pairs nodes').edges) :
    ((assembleGraph orders configDeps pairs nodes).edges.map OutputEdge.content).Perm
      ((assembleGraph orders' configDeps pairs nodes').edges.map OutputEdge.content) := by
  have hsame : ((currentEdges configDeps (graphEdges orders configDeps pairs nodes).edges).map
      fun entry => (entry.1, shownArguments entry.2)).Perm
        ((currentEdges configDeps (graphEdges orders' configDeps pairs nodes').edges).map
          fun entry => (entry.1, shownArguments entry.2)) :=
    (List.perm_ext_iff_of_nodup (nodup_content _ _) (nodup_content _ _)).2 fun content =>
      ⟨mem_content_of_subset h, mem_content_of_subset fun edge => (h edge).symm⟩
  unfold assembleGraph
  dsimp only
  rw [map_content_outputEdges, map_content_outputEdges]
  exact ((orders.currentEdges.perm _).map _).trans
    (hsame.trans ((orders'.currentEdges.perm _).map _).symm)

section

variable {plan : Plan} {dotContent : String} {includeValues : Bool}

/-- The resources of the one graph are among those of the other. -/
theorem resource_mem_of_processGraph {orders orders' : HashOrders} {graph graph' : OutputGraph}
    (h : processGraph plan dotContent includeValues hcl orders = some graph)
    (h' : processGraph plan dotContent includeValues hcl orders' = some graph')
    (hmade : ∀ node ∈ graph.nodes, Made description hcl node)
    (hmade' : ∀ node ∈ graph'.nodes, Made description hcl node)
    (hedges : (graph.edges.map OutputEdge.content).Perm (graph'.edges.map OutputEdge.content))
    {node : OutputNode} (hresource : node.isGroup = false) (hnode : node ∈ graph.nodes) :
    node ∈ graph'.nodes := by
  have hspec := resources_processGraph_iff plan dotContent includeValues hcl orders
  have hspec' := resources_processGraph_iff plan dotContent includeValues hcl orders'
  rw [h] at hspec
  rw [h'] at hspec'
  have hsources : (∃ edge ∈ graph.edges, edge.source = node.id) →
      ∃ edge ∈ graph'.edges, edge.source = node.id := by
    rintro ⟨edge, hedge, hsource⟩
    rcases List.mem_map.1 (hedges.mem_iff.1 (List.mem_map_of_mem hedge)) with
      ⟨edge', hedge', hcontent⟩
    refine ⟨edge', hedge', Eq.trans ?_ hsource⟩
    exact congrArg (fun content => content.1.1) hcontent
  have hshown := (hspec node.id).1 ⟨node, hnode, hresource, rfl⟩
  rcases (hspec' node.id).2 ⟨hshown.1, hshown.2.imp_right fun hvar =>
    ⟨hvar.1, hvar.2.1, hvar.2.2.imp_right hsources⟩⟩ with ⟨other, hother, hotherResource, hid⟩
  rwa [(hmade node hnode).eq_of_resource (hmade' other hother) hresource hotherResource hid.symm]

/-- Where variables, locals and outputs do not depend on themselves, the orders in which maps iterate
do not show in a graph. -/
theorem processGraph_rel (hacyclic : ∀ id, HasNoCycle plan dotContent includeValues hcl id)
    (orders orders' : HashOrders) :
    Option.Rel SameGraph (processGraph plan dotContent includeValues hcl orders)
      (processGraph plan dotContent includeValues hcl orders') := by
  have hwell := wellNested_processGraph plan dotContent includeValues hcl
  cases h : processGraph plan dotContent includeValues hcl orders with
  | none =>
      have hnone : processGraph plan dotContent includeValues hcl orders' = none := by
        rw [processGraph_eq_none_iff] at h ⊢
        exact h
      rw [hnone]
      exact .none
  | some graph =>
      cases h' : processGraph plan dotContent includeValues hcl orders' with
      | none =>
          rw [processGraph_eq_none_iff, ← processGraph_eq_none_iff plan dotContent includeValues hcl
            orders, h] at h'
          cases h'
      | some graph' =>
          have hnested := hwell orders
          have hnested' := hwell orders'
          rw [h] at hnested
          rw [h'] at hnested'
          rcases exists_nodes h with ⟨b, hbuilt, -, hgraph⟩
          rcases exists_nodes h' with ⟨b', hbuilt', -, hgraph'⟩
          have hmade : ∀ node ∈ graph.nodes, Made (describe (planMaps plan) includeValues) hcl node :=
            hgraph ▸ made_assembleGraph hbuilt _ _ _
          have hmade' : ∀ node ∈ graph'.nodes,
              Made (describe (planMaps plan) includeValues) hcl node :=
            hgraph' ▸ made_assembleGraph hbuilt' _ _ _
          have hedges : (graph.edges.map OutputEdge.content).Perm
              (graph'.edges.map OutputEdge.content) := by
            rw [hgraph, hgraph']
            refine perm_content fun edge => ?_
            rw [mem_graphEdges_iff hbuilt fun _ => hacyclic _,
              mem_graphEdges_iff hbuilt' fun _ => hacyclic _]
          have hresources : ∀ node : OutputNode, node.isGroup = false →
              (node ∈ graph.nodes ↔ node ∈ graph'.nodes) := fun node hresource =>
            ⟨resource_mem_of_processGraph h h' hmade hmade' hedges hresource,
              resource_mem_of_processGraph h' h hmade' hmade hedges.symm hresource⟩
          refine .some ⟨?_, hedges⟩
          refine (List.perm_ext_iff_of_nodup hnested.nodup.of_map hnested'.nodup.of_map).2 fun node => ?_
          constructor
          · exact hnested.mem_of_resources hnested' hmade hmade' hresources
          · exact hnested'.mem_of_resources hnested hmade' hmade fun n hn => (hresources n hn).symm

end

/-! ## A bucket with a name -/

/-- The last element comes first. -/
def HashOrder.backwards : HashOrder where
  arrange l := l.reverse
  perm l := l.reverse_perm

def bucketPlan : Plan where
  resourceChanges := [⟨"aws_s3_bucket.a", some "managed", ⟨["create"], none, none, none⟩⟩]
  outputChanges := []
  configuration := none
  priorState := none
  plannedValues := none
  values := none

/-- The name of the bucket is made of a variable. -/
def bucketText : String :=
  "\"aws_s3_bucket.a\" -> \"local.name\"\n\"local.name\" -> \"var.name\""

theorem textPairs_bucket : textPairs bucketPlan bucketText false (fun _ => none) =
    [("aws_s3_bucket.a", "local.name"), ("local.name", "var.name")] := by
  decide

theorem hasNoCycle_bucket (id : String) :
    HasNoCycle bucketPlan bucketText false (fun _ => none) id := by
  refine PassThrough.acyclic_of_rank (fun id => if id = "local.name" then 1 else 0) ?_ id
  rintro a b ⟨hbetween, ⟨hpair, -⟩ | hpair⟩
  · rw [textPairs_bucket] at hpair
    rcases List.mem_cons.1 hpair with heq | hpair
    · -- The bucket is not passed through.
      have ha : a = "aws_s3_bucket.a" := congrArg Prod.fst heq
      have hnot : isIntermediate (determineBlockType "aws_s3_bucket.a" false) ≠ true := by decide
      rw [ha] at hbetween
      exact absurd hbetween hnot
    · obtain ⟨rfl, rfl⟩ := Prod.mk.inj (List.mem_singleton.1 hpair)
      decide
  · cases hpair

theorem processGraph_rel_bucket :
    Option.Rel SameGraph (processGraph bucketPlan bucketText false (fun _ => none) .asListed)
      (processGraph bucketPlan bucketText false (fun _ => none)
        ⟨.backwards, .backwards, .backwards, .backwards, .backwards⟩) :=
  processGraph_rel hasNoCycle_bucket _ _

end Graph
end InfraWeave
