import InfraWeave.Graph.ProcessGraph

/-!
# The groups of a graph

However nodes are pruned and filtered, the group that a shown node is in is shown, no group is empty,
and no group is in itself.
-/

namespace InfraWeave
namespace Graph

variable {description : String → Option Described} {hcl : String → Option String}
  {nodes : List OutputNode}

/-! ## Groups around nodes -/

/-- The group that a node is in is there; before the root groups are made, these may be missing. -/
def Enclosed (rooted : Bool) (nodes : List OutputNode) : Prop :=
  ∀ node ∈ nodes, ∀ parent, node.parentId = some parent →
    (∃ group ∈ nodes, group.isGroup = true ∧ group.id = parent) ∨
      rooted = false ∧ isRootGroup parent = true ∧ node.isGroup = false

theorem Built.enclosed {addresses : List String} {b : Building}
    (h : Built description hcl addresses b) : Enclosed false b.finalNodes := by
  intro node hnode parent hparent
  have hgroup : ∀ path ∈ b.knownModules,
      ∃ group ∈ b.finalNodes, group.isGroup = true ∧ group.id = path := fun path hpath =>
    ⟨moduleGroup path (parentPath path), (h.nodes _).2 (Or.inr ⟨path, hpath, rfl⟩), rfl, rfl⟩
  rcases (h.nodes node).1 hnode with ⟨address, haddress, hof⟩ | ⟨path, hpath, rfl⟩
  · rcases parentId_of_nodeOf hof with ⟨path, hpath, hmem, -⟩ | ⟨-, id, hroot, hid⟩ | hnone
    · obtain rfl : path = parent := Option.some.inj (hpath.symm.trans hparent)
      refine Or.inl (hgroup path ((h.known path).2 ⟨address, haddress, ?_, hmem⟩))
      exact (nodeOf_eq_some_iff.1 hof).1
    · obtain rfl : id = parent := Option.some.inj (hid.symm.trans hparent)
      exact Or.inr ⟨rfl, hroot, (id_of_nodeOf hof).2⟩
    · rw [hnone] at hparent
      cases hparent
  · rcases (h.known path).1 hpath with ⟨address, haddress, hnoise, hmem⟩
    have hspec := parentPath_spec hmem hparent
    exact Or.inl (hgroup parent ((h.known parent).2 ⟨address, haddress, hnoise, hspec.1⟩))

/-- A filter that keeps the groups. -/
theorem Enclosed.filter {rooted : Bool} (h : Enclosed rooted nodes) {keep : OutputNode → Bool}
    (hkeep : ∀ node, node.isGroup = true → keep node = true) :
    Enclosed rooted (nodes.filter keep) := by
  intro node hnode parent hparent
  refine (h node (List.mem_of_mem_filter hnode) parent hparent).imp_left ?_
  rintro ⟨group, hgroup, hisGroup, hid⟩
  exact ⟨group, List.mem_filter.2 ⟨hgroup, hkeep group hisGroup⟩, hisGroup, hid⟩

/-- A group with a node in it that stays also stays. -/
theorem mem_pruneGroups_of_child {group child : OutputNode} (hgroup : group ∈ nodes)
    (hchild : child ∈ pruneGroups nodes) (hparent : child.parentId = some group.id) :
    group ∈ pruneGroups nodes := by
  have hstable : Shrink.Stable isKept (group :: pruneGroups nodes) := by
    intro node hnode
    rcases List.mem_cons.1 hnode with rfl | hnode
    · exact isKept_iff.2 fun _ => ⟨child, List.mem_cons_of_mem _ hchild, hparent⟩
    · exact growing_isKept _ _ (List.subset_cons_self _ _) node
        (Shrink.stable_shrink nodes node hnode)
  have hsubset : group :: pruneGroups nodes ⊆ nodes :=
    List.cons_subset.2 ⟨hgroup, (Shrink.shrink_sublist nodes).subset⟩
  exact hstable.subset_shrink growing_isKept hsubset List.mem_cons_self

theorem mem_pruneGroups_of_resource {node : OutputNode} (hnode : node ∈ nodes)
    (hresource : node.isGroup = false) : node ∈ pruneGroups nodes := by
  have hstable : Shrink.Stable isKept [node] := by
    intro other hother
    obtain rfl := List.mem_singleton.1 hother
    exact isKept_iff.2 fun hgroup => absurd hgroup (by simp [hresource])
  exact hstable.subset_shrink growing_isKept (by simpa using hnode) (List.mem_singleton_self node)

theorem Enclosed.pruneGroups {rooted : Bool} (h : Enclosed rooted nodes) :
    Enclosed rooted (pruneGroups nodes) := by
  intro node hnode parent hparent
  have hbefore := (Shrink.shrink_sublist nodes).subset hnode
  refine (h node hbefore parent hparent).imp_left ?_
  rintro ⟨group, hgroup, hisGroup, rfl⟩
  exact ⟨group, mem_pruneGroups_of_child hgroup hnode hparent, hisGroup, rfl⟩

theorem Enclosed.addRootGroups (h : Enclosed false nodes) : Enclosed true (addRootGroups nodes) := by
  intro node hnode parent hparent
  have hold : ∀ {other : OutputNode}, other ∈ nodes → other ∈ Graph.addRootGroups nodes :=
    fun hother => mem_addRootGroup_iff.2 (Or.inl (mem_addRootGroup_iff.2 (Or.inl hother)))
  have hnew : node ∈ nodes := by
    rcases mem_addRootGroup_iff.1 hnode with hnode | ⟨rfl, -⟩
    · rcases mem_addRootGroup_iff.1 hnode with hnode | ⟨rfl, -⟩
      · exact hnode
      · cases hparent
    · cases hparent
  rcases h node hnew parent hparent with ⟨group, hgroup, hspec⟩ | ⟨-, hroot, hresource⟩
  · exact Or.inl ⟨group, hold hgroup, hspec⟩
  · -- A resource that says it is in a root group has this group made.
    refine Or.inl ?_
    rcases Bool.or_eq_true_iff.1 hroot with heq | heq
    · have hid := of_decide_eq_true heq
      refine ⟨rootGroup "root_variables" "Variables", ?_, rfl, hid.symm⟩
      have hchild : node.parentId = some "root_variables" := hid ▸ hparent
      exact mem_addRootGroup_iff.2
        (Or.inl (mem_addRootGroup_iff.2 (Or.inr ⟨rfl, node, hnew, hresource, hchild⟩)))
    · have hid := of_decide_eq_true heq
      refine ⟨rootGroup "root_outputs" "Outputs", ?_, rfl, hid.symm⟩
      have hchild : node.parentId = some "root_outputs" := hid ▸ hparent
      exact mem_addRootGroup_iff.2
        (Or.inr ⟨rfl, node, mem_addRootGroup_iff.2 (Or.inl hnew), hresource, hchild⟩)

/-! ## The nodes that stay -/

theorem made_addRootGroups (h : ∀ node ∈ nodes, Made description hcl node) :
    ∀ node ∈ addRootGroups nodes, Made description hcl node := by
  intro node hnode
  rcases mem_addRootGroup_iff.1 hnode with hnode | ⟨rfl, -⟩
  · rcases mem_addRootGroup_iff.1 hnode with hnode | ⟨rfl, -⟩
    · exact h node hnode
    · exact .rootVariables
  · exact .rootOutputs

theorem Built.made_keptNodes {addresses : List String} {b : Building}
    (h : Built description hcl addresses b) (pairs : List (String × String)) :
    ∀ node ∈ keptNodes pairs b.finalNodes, Made description hcl node := by
  refine made_addRootGroups fun node hnode => h.made ?_
  exact List.mem_of_mem_filter ((Shrink.shrink_sublist _).subset hnode)

theorem Built.enclosed_keptNodes {addresses : List String} {b : Building}
    (h : Built description hcl addresses b) (pairs : List (String × String)) :
    Enclosed true (keptNodes pairs b.finalNodes) := by
  have hpruned : Enclosed false (pruneUnreached (collectEdges pairs) b.finalNodes) :=
    h.enclosed.filter fun node hgroup => by simp [isPrunable, hgroup]
  exact hpruned.pruneGroups.addRootGroups

/-- The last filter removes nothing: every group that has come so far is the parent of a node. -/
theorem filter_isNeeded (activeNodes : List String) (nodes : List OutputNode) :
    (pruneGroups nodes).filter (isNeeded (pruneGroups nodes) activeNodes) = pruneGroups nodes := by
  refine List.filter_eq_self.2 fun node hnode => ?_
  have hkept := isKept_iff.1 (Shrink.stable_shrink nodes node hnode)
  by_cases hgroup : node.isGroup = true
  · have hparent : (parentIds (pruneGroups nodes)).contains node.id = true :=
      List.contains_iff_mem.2 (mem_parentIds_iff.2 (hkept hgroup))
    simp only [isNeeded, Bool.or_eq_true]
    exact Or.inr hparent
  · simp [isNeeded, hgroup]

section

variable {activeNodes nodesInEdges : List String}

theorem firsts_visibleNodes (activeNodes nodesInEdges : List String) (nodes : List OutputNode) :
    InsertionOrder.Firsts OutputNode.id
      (pruneGroups (nodes.filter (isVisible activeNodes nodesInEdges)))
      (visibleNodes activeNodes nodesInEdges nodes) := by
  unfold visibleNodes
  dsimp only
  rw [filter_isNeeded]
  exact InsertionOrder.firsts_foldl _

/-- Of the nodes that are left, those whose id is not that of a root group are all shown. -/
theorem mem_visibleNodes_of_mem (hmade : ∀ node ∈ nodes, Made description hcl node)
    {node : OutputNode}
    (hnode : node ∈ pruneGroups (nodes.filter (isVisible activeNodes nodesInEdges)))
    (hroot : isRootGroup node.id = false) :
    node ∈ visibleNodes activeNodes nodesInEdges nodes := by
  have hfirsts := firsts_visibleNodes activeNodes nodesInEdges nodes
  have hpruned : ∀ other ∈ pruneGroups (nodes.filter (isVisible activeNodes nodesInEdges)),
      Made description hcl other := fun other hother =>
    hmade other (List.mem_of_mem_filter ((Shrink.shrink_sublist _).subset hother))
  rcases InsertionOrder.find?_key_of_mem OutputNode.id hnode with ⟨first, hfirst⟩
  have hid := InsertionOrder.key_of_find? hfirst
  have hmem := List.mem_of_find?_eq_some hfirst
  have heq : node = first :=
    (hpruned node hnode).eq_of_id (hpruned first hmem) hroot hid.symm
  exact (hfirsts.mem_iff node).2 (by rwa [← heq] at hfirst)

theorem mem_of_mem_visibleNodes {node : OutputNode}
    (hnode : node ∈ visibleNodes activeNodes nodesInEdges nodes) :
    node ∈ pruneGroups (nodes.filter (isVisible activeNodes nodesInEdges)) :=
  List.mem_of_find?_eq_some
    (((firsts_visibleNodes activeNodes nodesInEdges nodes).mem_iff node).1 hnode)

end

/-! ## The graph that is shown -/

/-- The nodes have ids of their own, the group that a node is in is shown, no node is in itself at
any depth, and a resource is in every group. -/
structure WellNested (nodes : List OutputNode) : Prop where
  nodup : (nodes.map OutputNode.id).Nodup
  parents : ∀ node ∈ nodes, ∀ parent, node.parentId = some parent →
    ∃ other ∈ nodes, other.id = parent
  acyclic : ∀ id, ¬ Relation.TransGen (Parent nodes) id id
  inhabited : ∀ group ∈ nodes, group.isGroup = true → ∃ node ∈ nodes, node.isGroup = false ∧
    Relation.TransGen (Parent nodes) node.id group.id

theorem wellNested_visibleNodes (hmade : ∀ node ∈ nodes, Made description hcl node)
    (henclosed : Enclosed true nodes) (activeNodes nodesInEdges : List String) :
    WellNested (visibleNodes activeNodes nodesInEdges nodes) := by
  have hfirsts := firsts_visibleNodes activeNodes nodesInEdges nodes
  have hkeep : ∀ node : OutputNode, node.isGroup = true →
      isVisible activeNodes nodesInEdges node = true := fun node hgroup => by
    simp [isVisible, hgroup]
  have hpruned : Enclosed true (pruneGroups (nodes.filter (isVisible activeNodes nodesInEdges))) :=
    (henclosed.filter hkeep).pruneGroups
  have hprunedMade : ∀ node ∈ pruneGroups (nodes.filter (isVisible activeNodes nodesInEdges)),
      Made description hcl node := fun node hnode =>
    hmade node (List.mem_of_mem_filter ((Shrink.shrink_sublist _).subset hnode))
  have hvisibleMade : ∀ node ∈ visibleNodes activeNodes nodesInEdges nodes,
      Made description hcl node := fun node hnode => hprunedMade node (mem_of_mem_visibleNodes hnode)
  refine ⟨hfirsts.nodup, ?_, not_transGen_parent hvisibleMade, ?_⟩
  · intro node hnode parent hparent
    rcases hpruned node (mem_of_mem_visibleNodes hnode) parent hparent with
      ⟨group, hgroup, -, hid⟩ | ⟨hfalse, -⟩
    · have hkey := hfirsts.mem_keys_iff.2 (List.mem_map_of_mem hgroup)
      rcases List.mem_map.1 hkey with ⟨other, hother, heq⟩
      exact ⟨other, hother, heq.trans hid⟩
    · cases hfalse
  · intro group hgroup hisGroup
    rcases exists_resource_below hprunedMade (Shrink.stable_shrink _)
      (mem_of_mem_visibleNodes hgroup) hisGroup with ⟨node, hnode, hresource, hpath⟩
    -- What is in a group does not have the id of a root group, so that it is shown itself.
    have hnotRoot : ∀ other ∈ pruneGroups (nodes.filter (isVisible activeNodes nodesInEdges)),
        other.parentId.isSome = true → isRootGroup other.id = false := by
      intro other hother hsome
      refine Bool.eq_false_iff.2 fun hroot => ?_
      rw [parentId_of_isRootGroup (hprunedMade other hother) hroot] at hsome
      cases hsome
    have hstep : ∀ a b,
        Parent (pruneGroups (nodes.filter (isVisible activeNodes nodesInEdges))) a b →
          Parent (visibleNodes activeNodes nodesInEdges nodes) a b := by
      rintro a b ⟨other, hother, hid, hparent⟩
      have hroot := hnotRoot other hother (by rw [hparent]; rfl)
      exact ⟨other, mem_visibleNodes_of_mem hmade hother hroot, hid, hparent⟩
    have hroot : isRootGroup node.id = false := by
      rcases Relation.TransGen.head'_iff.1 hpath with ⟨b, ⟨other, hother, hid, hparent⟩, -⟩
      rw [← hid]
      exact hnotRoot other hother (by rw [hparent]; rfl)
    exact ⟨node, mem_visibleNodes_of_mem hmade hnode hroot, hresource, Relation.TransGen.mono hstep _ _ hpath⟩

theorem WellNested.perm {nodes' : List OutputNode} (h : WellNested nodes) (hperm : nodes.Perm nodes') :
    WellNested nodes' := by
  have hparent : Parent nodes' = Parent nodes := by
    funext id parent
    simp only [Parent, hperm.mem_iff]
  refine ⟨(hperm.map _).nodup_iff.1 h.nodup, ?_, hparent ▸ h.acyclic, ?_⟩
  · simpa only [hperm.mem_iff] using h.parents
  · simpa only [hperm.mem_iff, hparent] using h.inhabited

/-- The building of the nodes of a graph that is made. -/
theorem exists_building {plan : Plan} {dotContent : String} {includeValues : Bool}
    {orders : HashOrders} {graph : OutputGraph}
    (h : processGraph plan dotContent includeValues hcl orders = some graph) :
    ∃ b, Built (describe (planMaps plan) includeValues) hcl
        (addresses (describe (planMaps plan) includeValues) hcl (parseDot dotContent).1
          (orders.dotIds.arrange (allDotIds (parseDot dotContent).2))) b ∧
      (∀ d ∈ allDotIds (parseDot dotContent).2, b.dotNodeToAddress.lookup d =
        dotAddress (describe (planMaps plan) includeValues) hcl (parseDot dotContent).1 d) ∧
      graph = assembleGraph orders (configDeps plan)
        (addressPairs (b.dotNodeToAddress.lookup ·) (parseDot dotContent).2) b.finalNodes := by
  rcases Option.map_eq_some_iff.1 h with ⟨b, hb, rfl⟩
  have hnodup : (orders.dotIds.arrange (allDotIds (parseDot dotContent).2)).Nodup :=
    (orders.dotIds.perm _).nodup_iff.2 (List.nodup_dedup _)
  rcases spec_buildNodes hnodup hb with ⟨hbuilt, hlookup⟩
  exact ⟨b, hbuilt, fun d hd => hlookup d ((orders.dotIds.perm _).mem_iff.2 hd), rfl⟩

/-- Whatever the plan and the text, and in whatever order maps iterate: ids are unique, every group
that a node names is there, groups are not nested in a cycle, and none of them is empty. -/
theorem wellNested_processGraph (plan : Plan) (dotContent : String) (includeValues : Bool)
    (hcl : String → Option String) (orders : HashOrders) :
    (processGraph plan dotContent includeValues hcl orders).elim True
      fun graph => WellNested graph.nodes := by
  cases h : processGraph plan dotContent includeValues hcl orders with
  | none => trivial
  | some graph =>
      rcases exists_building h with ⟨b, hbuilt, -, rfl⟩
      exact (wellNested_visibleNodes (hbuilt.made_keptNodes _) (hbuilt.enclosed_keptNodes _) _ _).perm
        (orders.uniqueNodes.perm _).symm

end Graph
end InfraWeave
