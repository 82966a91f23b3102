import InfraWeave.Graph.Dependencies

/-!
# The nodes that a graph shows

Resources, data sources and root outputs are never lost, root variables are shown where something
uses them, and groups where something shown is in them.
-/

namespace InfraWeave
namespace Graph

variable {description : String → Option Described} {hcl : String → Option String}

/-! ## Nodes that are shown -/

section

variable {pairs : List (String × String)} {addresses : List String} {b : Building}

theorem Built.eq_of_id (h : Built description hcl addresses b) {node other : OutputNode}
    (hnode : node ∈ b.finalNodes) (hother : other ∈ b.finalNodes) (hid : node.id = other.id) :
    node = other := by
  by_cases hroot : isRootGroup node.id = true
  · -- A module does not have such an id.
    have hresource : ∀ {n : OutputNode}, n ∈ b.finalNodes → n.id = node.id → n.isGroup = false := by
      intro n hn heq
      rcases (h.nodes n).1 hn with ⟨address, -, hof⟩ | ⟨path, hpath, rfl⟩
      · exact (id_of_nodeOf hof).2
      · rcases (h.known path).1 hpath with ⟨address, -, -, hmem⟩
        have hmodule : IsModule path := ⟨address, hmem⟩
        have hid' : path = node.id := heq
        rw [← hid', hmodule.not_isRootGroup] at hroot
        cases hroot
    exact (h.made hnode).eq_of_resource (h.made hother) (hresource hnode rfl)
      (hresource hother hid.symm) hid
  · exact (h.made hnode).eq_of_id (h.made hother) (Bool.eq_false_iff.2 hroot) hid

theorem exists_addRootGroups_eq (nodes : List OutputNode) :
    ∃ groups, addRootGroups nodes = nodes ++ groups ∧ ∀ group ∈ groups, group.isGroup = true := by
  have hone : ∀ (id label : String) (nodes : List OutputNode), ∃ groups,
      addRootGroup id label nodes = nodes ++ groups ∧ ∀ group ∈ groups, group.isGroup = true := by
    intro id label nodes
    unfold addRootGroup
    split
    · exact ⟨[rootGroup id label], rfl, by simp [rootGroup, OutputNode.isGroup]⟩
    · exact ⟨[], by simp, by simp⟩
  rcases hone "root_variables" "Variables" nodes with ⟨first, hfirst, hfirstGroups⟩
  rcases hone "root_outputs" "Outputs" (nodes ++ first) with ⟨second, hsecond, hsecondGroups⟩
  refine ⟨first ++ second, ?_, fun group hgroup => ?_⟩
  · rw [addRootGroups, hfirst, hsecond, List.append_assoc]
  · exact (List.mem_append.1 hgroup).elim (hfirstGroups group) (hsecondGroups group)

/-- A resource that is left and visible is shown itself: root groups come after it. -/
theorem Built.mem_visibleNodes_iff (h : Built description hcl addresses b)
    {activeNodes nodesInEdges : List String} {node : OutputNode} (hresource : node.isGroup = false) :
    node ∈ visibleNodes activeNodes nodesInEdges (keptNodes pairs b.finalNodes) ↔
      node ∈ keptNodes pairs b.finalNodes ∧ isVisible activeNodes nodesInEdges node = true := by
  constructor
  · intro hnode
    exact List.mem_filter.1 ((Shrink.shrink_sublist _).subset (mem_of_mem_visibleNodes hnode))
  · rintro ⟨hnode, hvisible⟩
    have hleft := mem_pruneGroups_of_resource (List.mem_filter.2 ⟨hnode, hvisible⟩) hresource
    rw [(firsts_visibleNodes activeNodes nodesInEdges _).mem_iff node]
    rcases exists_addRootGroups_eq (pruneGroups (pruneUnreached (collectEdges pairs) b.finalNodes))
      with ⟨groups, happend, hgroups⟩
    have hkept : keptNodes pairs b.finalNodes =
        pruneGroups (pruneUnreached (collectEdges pairs) b.finalNodes) ++ groups := happend
    rw [hkept] at hleft ⊢
    have hsublist : (pruneGroups
        ((pruneGroups (pruneUnreached (collectEdges pairs) b.finalNodes) ++ groups).filter
          (isVisible activeNodes nodesInEdges))).Sublist
        (pruneGroups (pruneUnreached (collectEdges pairs) b.finalNodes) ++ groups) :=
      (Shrink.shrink_sublist _).trans List.filter_sublist
    rcases List.sublist_append_iff.1 hsublist with ⟨before, after, hsplit, hbefore, hafter⟩
    have hmem : node ∈ before := by
      have heither : node ∈ before ++ after := hsplit ▸ hleft
      refine (List.mem_append.1 heither).resolve_right fun hgroup => ?_
      rw [hgroups node (hafter.subset hgroup)] at hresource
      cases hresource
    rcases InsertionOrder.find?_key_of_mem OutputNode.id hmem with ⟨first, hfirst⟩
    have hmade : ∀ other ∈ before, other ∈ b.finalNodes := fun other hother =>
      List.mem_of_mem_filter ((Shrink.shrink_sublist _).subset (hbefore.subset hother))
    have heq : first = node := h.eq_of_id (hmade _ (List.mem_of_find?_eq_some hfirst))
      (hmade _ hmem) (InsertionOrder.key_of_find? hfirst)
    rw [hsplit, List.find?_append, hfirst, heq]
    rfl

/-- Whether a node is left out before edges are looked at. -/
theorem isHidden_iff {deps : List (String × List String)} {id : String} {isData : Bool}
    (houtput : isModuleOutput id (determineBlockType id isData) = false) :
    isHidden deps id (determineBlockType id isData) = false ↔
      IsEnd id ∨ IsRootVariable id ∧ ∀ other, ¬ DependsOn deps id other := by
  by_cases hend : IsEnd id
  · refine iff_of_true ?_ (Or.inl hend)
    rcases hend with hbetween | hroot
    · have hnot : isIntermediate (determineBlockType id isData) = false :=
        Bool.eq_false_iff.2 fun h => hbetween ((isIntermediate_determineBlockType id isData).1 h)
      simp [isHidden, hnot]
    · have hstart : startsWith id "output." = true := hroot
      simp [isHidden, hstart]
  · by_cases hdep : ∃ other, DependsOn deps id other
    · rcases hdep with ⟨other, hother⟩
      rw [isHidden_of_dependsOn hother]
      exact ⟨Or.inl, fun h => h.resolve_right fun hvar => hvar.2 other hother⟩
    · have hdeps : (deps.lookup id).any (!·.isEmpty) = false := by
        cases hlookup : deps.lookup id with
        | none => rfl
        | some myDeps =>
            cases myDeps with
            | nil => rfl
            | cons first rest =>
                exact absurd ⟨first, _, hlookup, List.mem_cons_self⟩ hdep
      have hbetween : isIntermediate (determineBlockType id isData) = true := by
        rw [isIntermediate_determineBlockType]
        exact not_not.1 fun h => hend (Or.inl h)
      have hstart : startsWith id "output." = false :=
        Bool.eq_false_iff.2 fun h => hend (Or.inr h)
      have hnone : ∀ other, ¬ DependsOn deps id other := fun other h => hdep ⟨other, h⟩
      simp only [hend, false_or, hnone, not_false_eq_true, implies_true, and_true]
      by_cases hvar : IsRootVariable id
      · have hstartVar : startsWith id "var." = true := hvar
        simp [isHidden, determineBlockType_of_isRootVariable hvar, hdeps, hstartVar, hvar]
      · have hstartVar : startsWith id "var." = false := Bool.eq_false_iff.2 hvar
        -- A local or a variable of a module: outputs of modules are no option.
        have htype : determineBlockType id isData ≠ "output" := fun h => by
          simp [isModuleOutput, h, hstart] at houtput
        simp only [isIntermediate, Bool.or_eq_true, decide_eq_true_eq, htype, or_false] at hbetween
        rcases hbetween with htype | htype <;>
          simp [isHidden, htype, isIntermediate, hstart, hstartVar, hvar]

end

/-! ## The resources that are shown -/

section

variable (plan : Plan) (dotContent : String) (includeValues : Bool) (hcl : String → Option String)

/-- A resource, a data source or a root output leads to the address. -/
def IsUsed (id : String) : Prop :=
  ∃ seed, HasNode plan dotContent includeValues hcl seed ∧ IsEnd seed ∧
    Relation.ReflTransGen (fun a b => (a, b) ∈ textPairs plan dotContent includeValues hcl) seed id

variable {plan dotContent includeValues hcl} {orders : HashOrders} {b : Building}

theorem reached_iff
    (hbuilt : Built (describe (planMaps plan) includeValues) hcl
      (planAddresses plan dotContent includeValues hcl) b) {id : String} :
    Reached (collectEdges (textPairs plan dotContent includeValues hcl)) b.finalNodes id ↔
      IsUsed plan dotContent includeValues hcl id := by
  have hsteps : DependsOn (collectEdges (textPairs plan dotContent includeValues hcl)) =
      fun a b => (a, b) ∈ textPairs plan dotContent includeValues hcl := by
    funext a b
    exact propext dependsOn_collectEdges
  unfold Reached IsUsed
  rw [hsteps]
  constructor
  · rintro ⟨seed, hseed, hisSeed, hpath⟩
    have hresource : seed.isGroup = false := by
      simp only [isSeed, Bool.and_eq_true, Bool.not_eq_true'] at hisSeed
      exact hisSeed.1
    refine ⟨seed.id, hbuilt.exists_resource_iff.1 ⟨seed, hseed, hresource, rfl⟩, ?_, hpath⟩
    exact (isSeed_iff (hbuilt.made hseed) hresource).1 hisSeed
  · rintro ⟨seed, hseed, hend, hpath⟩
    rcases hbuilt.exists_resource_iff.2 hseed with ⟨node, hnode, hresource, rfl⟩
    exact ⟨node, hnode, (isSeed_iff (hbuilt.made hnode) hresource).2 hend, hpath⟩

/-- What is a resource, a data source, a root output or a root variable is no output of a module. -/
theorem not_isModuleOutput {id : String} (h : IsEnd id ∨ IsRootVariable id) (isData : Bool) :
    isModuleOutput id (determineBlockType id isData) = false := by
  refine Bool.eq_false_iff.2 fun houtput => ?_
  have hparts : determineBlockType id isData = "output" ∧ startsWith id "output." = false := by
    simpa [isModuleOutput] using houtput
  have hbetween : IsBetween id := by
    rw [← isIntermediate_determineBlockType id isData, hparts.1]
    rfl
  rcases h with (hnot | hroot) | hvar
  · exact hnot hbetween
  · exact absurd hroot (Bool.eq_false_iff.1 hparts.2)
  · have htype := determineBlockType_of_isRootVariable hvar isData
    rw [hparts.1] at htype
    exact absurd htype (by decide)

/-- The node is active because it is shown itself. -/
theorem exists_type_iff
    (hbuilt : Built (describe (planMaps plan) includeValues) hcl
      (planAddresses plan dotContent includeValues hcl) b) {node : OutputNode}
    (hnode : node ∈ keptNodes (textPairs plan dotContent includeValues hcl) b.finalNodes)
    (hresource : node.isGroup = false) {deps : List (String × List String)} :
    (∃ nType, (node.id, nType) ∈ orders.nodeTypes.arrange
        (resolvedTypes (textPairs plan dotContent includeValues hcl) b.finalNodes) ∧
          isHidden deps node.id nType = false) ↔
      isHidden deps node.id node.data.nodeType = false := by
  have hkept := hbuilt.made_keptNodes (textPairs plan dotContent includeValues hcl)
  constructor
  · rintro ⟨nType, hmem, hshown⟩
    rcases (mem_nodeTypes_iff hkept).1 ((orders.nodeTypes.perm _).mem_iff.1 hmem) with
      ⟨other, hother, hotherResource, hid, rfl⟩
    obtain rfl := (hkept other hother).eq_of_resource (hkept node hnode) hotherResource hresource hid
    exact hshown
  · intro hshown
    exact ⟨_, (orders.nodeTypes.perm _).mem_iff.2
      ((mem_nodeTypes_iff hkept).2 ⟨node, hnode, hresource, rfl, rfl⟩), hshown⟩

/-- Of the resources that are left, these are shown. -/
theorem shown_iff
    (hbuilt : Built (describe (planMaps plan) includeValues) hcl
      (planAddresses plan dotContent includeValues hcl) b) {node : OutputNode}
    (hnode : node ∈ keptNodes (textPairs plan dotContent includeValues hcl) b.finalNodes)
    (hresource : node.isGroup = false) :
    node ∈ (assembleGraph orders (configDeps plan) (textPairs plan dotContent includeValues hcl)
        b.finalNodes).nodes ↔
      IsEnd node.id ∨ IsRootVariable node.id ∧
        ((∀ other, ¬ Linked plan dotContent includeValues hcl node.id other) ∨
          ∃ edge ∈ (graphEdges orders (configDeps plan)
            (textPairs plan dotContent includeValues hcl) b.finalNodes).edges,
            edge.dependency = node.id) := by
  have hkept := hbuilt.made_keptNodes (textPairs plan dotContent includeValues hcl)
  rcases (hkept node hnode).nodeType hresource with ⟨isData, htype⟩
  have hactive := active_simplify
    (resolvedDeps orders (configDeps plan) (textPairs plan dotContent includeValues hcl))
    (resolvedTypes (textPairs plan dotContent includeValues hcl) b.finalNodes)
    (orders.nodeTypes.arrange
      (resolvedTypes (textPairs plan dotContent includeValues hcl) b.finalNodes)) node.id
  rw [exists_type_iff hbuilt hnode hresource] at hactive
  rw [mem_nodes_assembleGraph_iff, hbuilt.mem_visibleNodes_iff hresource, and_iff_right hnode,
    isVisible_iff hresource, mem_nodesInEdges_iff]
  constructor
  · rintro ⟨houtput, huse⟩
    have hcase : isHidden (resolvedDeps orders (configDeps plan)
        (textPairs plan dotContent includeValues hcl)) node.id node.data.nodeType = false ∨
          ∃ edge ∈ (graphEdges orders (configDeps plan)
            (textPairs plan dotContent includeValues hcl) b.finalNodes).edges,
            edge.dependency = node.id := by
      rcases huse with hmem | ⟨edge, hedge, heq | heq⟩
      · exact hactive.1 hmem
      · exact Or.inr ⟨edge, hedge, heq.symm⟩
      · rcases (edgeSpec_of_mem hkept hedge).target with ⟨other, hother, hotherResource, hid, hshown⟩
        obtain rfl := (hkept other hother).eq_of_resource (hkept node hnode) hotherResource hresource
          (hid.trans heq.symm)
        exact Or.inl hshown
    rcases hcase with hshown | ⟨edge, hedge, hsource⟩
    · rw [htype] at hshown houtput
      rw [isHidden_iff houtput, dependsOn_linked] at hshown
      exact hshown.imp_right fun hvar => ⟨hvar.1, Or.inl hvar.2⟩
    · have hanchor := (edgeSpec_of_mem hkept hedge).backed.2
      rw [pass_nodeTypes hkept, root_nodeTypes hkept, hsource] at hanchor
      rcases hanchor with hnot | hvar | hroot
      · exact Or.inl (Or.inl hnot)
      · exact Or.inr ⟨hvar, Or.inr ⟨edge, hedge, hsource⟩⟩
      · exact Or.inl (Or.inr hroot)
  · intro hshown
    have houtput := not_isModuleOutput (hshown.imp_right And.left) isData
    have hhidden : isHidden (resolvedDeps orders (configDeps plan)
        (textPairs plan dotContent includeValues hcl)) node.id (determineBlockType node.id isData) =
          false ↔ _ := isHidden_iff houtput
    rw [← htype] at houtput hhidden
    rw [dependsOn_linked] at hhidden
    refine ⟨houtput, Or.inl (hactive.2 ?_)⟩
    rcases hshown with hend | ⟨hvar, hnone | hedge⟩
    · exact Or.inl (hhidden.2 (Or.inl hend))
    · exact Or.inl (hhidden.2 (Or.inr ⟨hvar, hnone⟩))
    · exact Or.inr hedge

/-- Whatever cycles there are and whatever orders maps have, the resources that are shown are
exactly these: every resource, every data source, every root output, and each root variable that
one of them leads to, unless it depends on something itself and no edge comes from it. -/
theorem resources_processGraph_iff (plan : Plan) (dotContent : String) (includeValues : Bool)
    (hcl : String → Option String) (orders : HashOrders) :
    (processGraph plan dotContent includeValues hcl orders).elim True fun graph =>
      ∀ id, (∃ node ∈ graph.nodes, node.isGroup = false ∧ node.id = id) ↔
        HasNode plan dotContent includeValues hcl id ∧
          (IsEnd id ∨ IsRootVariable id ∧ IsUsed plan dotContent includeValues hcl id ∧
            ((∀ other, ¬ Linked plan dotContent includeValues hcl id other) ∨
              ∃ edge ∈ graph.edges, edge.source = id)) := by
  cases h : processGraph plan dotContent includeValues hcl orders with
  | none => trivial
  | some graph =>
      rcases exists_nodes h with ⟨b, hbuilt, -, rfl⟩
      intro id
      have hsource : (∃ edge ∈ (assembleGraph orders (configDeps plan)
          (textPairs plan dotContent includeValues hcl) b.finalNodes).edges, edge.source = id) ↔
          ∃ edge ∈ (graphEdges orders (configDeps plan)
            (textPairs plan dotContent includeValues hcl) b.finalNodes).edges,
            edge.dependency = id := by
        constructor
        · rintro ⟨edge, hedge, rfl⟩
          rcases mem_edges_assembleGraph_iff.1 ⟨edge, hedge, rfl, rfl⟩ with ⟨simple, hsimple, heq, -⟩
          exact ⟨simple, hsimple, heq⟩
        · rintro ⟨simple, hsimple, rfl⟩
          rcases mem_edges_assembleGraph_iff.2 ⟨simple, hsimple, rfl, rfl⟩ with ⟨edge, hedge, heq, -⟩
          exact ⟨edge, hedge, heq⟩
      rw [hsource]
      constructor
      · rintro ⟨node, hnode, hresource, rfl⟩
        have hstays := ((hbuilt.mem_visibleNodes_iff hresource).1
          (mem_nodes_assembleGraph_iff.1 hnode)).1
        have hfinal := (mem_keptNodes_iff hresource).1 hstays
        refine ⟨hbuilt.exists_resource_iff.1 ⟨node, hfinal.1, hresource, rfl⟩, ?_⟩
        refine ((shown_iff hbuilt hstays hresource).1 hnode).imp_right fun hvar => ⟨hvar.1, ?_, hvar.2⟩
        refine (reached_iff hbuilt).1 (hfinal.2 ?_)
        rcases (hbuilt.made hfinal.1).nodeType hresource with ⟨isData, htype⟩
        simp [isUsedOnly, hresource, htype, determineBlockType_of_isRootVariable hvar.1]
      · rintro ⟨hnode, hshown⟩
        rcases hbuilt.exists_resource_iff.2 hnode with ⟨node, hmem, hresource, rfl⟩
        have hstays : node ∈ keptNodes (textPairs plan dotContent includeValues hcl)
            b.finalNodes := by
          refine (mem_keptNodes_iff hresource).2 ⟨hmem, fun hused => ?_⟩
          rcases hshown with hend | ⟨-, hreached, -⟩
          · rw [isUsedOnly_of_isEnd (hbuilt.made hmem) hresource hend] at hused
            cases hused
          · exact (reached_iff hbuilt).2 hreached
        refine ⟨node, (shown_iff hbuilt hstays hresource).2 ?_, hresource, rfl⟩
        exact hshown.imp_right fun hvar => ⟨hvar.1, hvar.2.2⟩

end

/-! ## The groups that are shown -/

/-- What holds of a module and goes over to the module that it lies in holds of all that it lies
in. -/
theorem forall_mem_hierarchy {shown : String → Prop}
    (hparent : ∀ path parent, shown path → parentPath path = some parent → shown parent)
    {path : String} (hmodule : IsModule path) (h : shown path) :
    ∀ group ∈ hierarchy path, shown group := by
  induction hlength : path.length using Nat.strong_induction_on generalizing path with
  | _ length ih =>
      rcases hmodule with ⟨address, haddress⟩
      rcases exists_hierarchy_of_mem haddress with ⟨-, outer, houter⟩
      intro group hgroup
      rw [houter, List.mem_append, List.mem_singleton] at hgroup
      rcases hgroup with hgroup | rfl
      · rcases List.eq_nil_or_concat outer with rfl | ⟨outer, last, rfl⟩
        · cases hgroup
        · have hlast : parentPath path = some last := by
            rw [parentPath, houter, List.dropLast_concat, List.concat_eq_append,
              List.getLast?_concat]
          have hspec := parentPath_spec haddress hlast
          have hsplit : hierarchy path = outer ++ last :: [path] := by simp [houter]
          refine ih last.length (hlength ▸ hspec.2) ⟨address, hspec.1⟩ (hparent _ _ h hlast) rfl group ?_
          rw [hierarchy_of_split hsplit]
          simpa using hgroup
      · exact h

section

variable {nodes : List OutputNode}

/-- A module that a node lies in, at any depth, is on the way to the node. -/
theorem mem_hierarchy_of_transGen (hmade : ∀ node ∈ nodes, Made description hcl node)
    {id path : String} (hmodule : IsModule path) (h : Relation.TransGen (Parent nodes) id path) :
    path ∈ hierarchy id := by
  have hstep : ∀ {a b : String}, Parent nodes a b → b ∈ hierarchy a ∨ isRootGroup b = true := by
    rintro a b ⟨node, hnode, rfl, hparent⟩
    cases hmade node hnode with
    | @ofAddress address node h =>
        rw [(id_of_nodeOf h).1]
        rcases parentId_of_nodeOf h with ⟨path, hpath, hmem, -⟩ | ⟨-, id, hroot, hid⟩ | hnone
        · obtain rfl : path = b := Option.some.inj (hpath.symm.trans hparent)
          exact Or.inl hmem
        · obtain rfl : id = b := Option.some.inj (hid.symm.trans hparent)
          exact Or.inr hroot
        · rw [hnone] at hparent
          cases hparent
    | @ofModule path h =>
        have hself : path ∈ hierarchy path := List.mem_of_getLast? h.getLast?
        exact Or.inl (parentPath_spec hself hparent).1
    | rootVariables => cases hparent
    | rootOutputs => cases hparent
  induction h using Relation.TransGen.head_induction_on with
  | single h =>
      refine (hstep h).resolve_right fun hroot => ?_
      rw [hmodule.not_isRootGroup] at hroot
      cases hroot
  | head h _ ih =>
      rcases hstep h with hmem | hroot
      · exact (exists_hierarchy_of_mem hmem).1.subset ih
      · rw [hierarchy_of_isRootGroup hroot] at ih
        cases ih

/-- A resource is in the innermost module on the way to it. -/
theorem parentId_of_hierarchy {node : OutputNode} (hmade : Made description hcl node)
    (hresource : node.isGroup = false) {outer : List String} {last : String}
    (h : hierarchy node.id = outer ++ [last]) : node.parentId = some last := by
  cases hmade with
  | @ofAddress address node hof =>
      rw [(id_of_nodeOf hof).1] at h
      rcases nodeOf_eq_some_iff.1 hof with ⟨-, -, described, -, rfl⟩
      rw [h, List.getLast?_concat]
      rfl
  | _ => cases hresource

/-- Of nodes that are well nested, the groups of modules are exactly those of the modules on the way
to a resource. -/
theorem WellNested.exists_module_iff (h : WellNested nodes)
    (hmade : ∀ node ∈ nodes, Made description hcl node) {path : String} (hmodule : IsModule path) :
    (∃ group ∈ nodes, group.isGroup = true ∧ group.id = path) ↔
      ∃ node ∈ nodes, node.isGroup = false ∧ path ∈ hierarchy node.id := by
  constructor
  · rintro ⟨group, hgroup, hisGroup, rfl⟩
    rcases h.inhabited group hgroup hisGroup with ⟨node, hnode, hresource, hpath⟩
    exact ⟨node, hnode, hresource, mem_hierarchy_of_transGen hmade hmodule hpath⟩
  · rintro ⟨node, hnode, hresource, hmem⟩
    have hmodules : ∀ other ∈ nodes, IsModule other.id →
        other = moduleGroup other.id (parentPath other.id) := fun other hother hother' =>
      (hmade other hother).eq_of_id (.ofModule hother') hother'.not_isRootGroup rfl
    have hparent : ∀ p parent, (IsModule p ∧ ∃ other ∈ nodes, other.id = p) →
        parentPath p = some parent → IsModule parent ∧ ∃ other ∈ nodes, other.id = parent := by
      rintro p parent ⟨⟨address, haddress⟩, other, hother, rfl⟩ hparent
      have hgroup := hmodules other hother ⟨address, haddress⟩
      refine ⟨⟨address, (parentPath_spec haddress hparent).1⟩, h.parents other hother parent ?_⟩
      rw [hgroup]
      exact hparent
    rcases List.eq_nil_or_concat (hierarchy node.id) with hnil | ⟨outer, last, hlast⟩
    · rw [hnil] at hmem
      cases hmem
    · rw [List.concat_eq_append] at hlast
      have hinnermost := h.parents node hnode last
        (parentId_of_hierarchy (hmade node hnode) hresource hlast)
      have hmoduleLast : IsModule last := ⟨node.id, by simp [hlast]⟩
      have hall := forall_mem_hierarchy hparent hmoduleLast ⟨hmoduleLast, hinnermost⟩
      have hsplit : hierarchy node.id = outer ++ last :: [] := hlast
      rw [hierarchy_of_split hsplit, ← hlast] at hall
      rcases (hall path hmem).2 with ⟨other, hother, rfl⟩
      refine ⟨other, hother, ?_, rfl⟩
      rw [hmodules other hother hmodule]
      rfl

/-- A root group is shown exactly when a resource is in it, unless a resource has its id. -/
theorem WellNested.exists_rootGroup_iff (h : WellNested nodes)
    (hmade : ∀ node ∈ nodes, Made description hcl node) {id : String}
    (hroot : isRootGroup id = true) :
    (∃ group ∈ nodes, group.isGroup = true ∧ group.id = id) ↔
      (∃ node ∈ nodes, node.isGroup = false ∧ node.parentId = some id) ∧
        ¬ ∃ node ∈ nodes, node.isGroup = false ∧ node.id = id := by
  constructor
  · rintro ⟨group, hgroup, hisGroup, rfl⟩
    constructor
    · rcases h.inhabited group hgroup hisGroup with ⟨node, hnode, hresource, hpath⟩
      rcases Relation.TransGen.tail'_iff.1 hpath with ⟨last, -, child, hchild, rfl, hparent⟩
      refine ⟨child, hchild, Bool.eq_false_iff.2 fun hchildGroup => ?_, hparent⟩
      -- The parent of a module is a module.
      cases hmade child hchild with
      | @ofAddress address node hof =>
          rw [(id_of_nodeOf hof).2] at hchildGroup
          cases hchildGroup
      | @ofModule path hpath =>
          have hself : path ∈ hierarchy path := List.mem_of_getLast? hpath.getLast?
          have hmodule : IsModule group.id := ⟨path, (parentPath_spec hself hparent).1⟩
          rw [hmodule.not_isRootGroup] at hroot
          cases hroot
      | rootVariables => cases hparent
      | rootOutputs => cases hparent
    · rintro ⟨node, hnode, hresource, hid⟩
      obtain rfl : node = group := List.inj_on_of_nodup_map h.nodup hnode hgroup hid
      rw [hresource] at hisGroup
      cases hisGroup
  · rintro ⟨⟨node, hnode, -, hparent⟩, hnone⟩
    rcases h.parents node hnode id hparent with ⟨other, hother, rfl⟩
    refine ⟨other, hother, not_not.1 fun hnot => hnone ⟨other, hother, ?_, rfl⟩, rfl⟩
    exact Bool.eq_false_iff.2 hnot

end

theorem Made.isModule_or_isRootGroup {group : OutputNode} (h : Made description hcl group)
    (hgroup : group.isGroup = true) : IsModule group.id ∨ isRootGroup group.id = true := by
  cases h with
  | @ofAddress address node h =>
      rw [(id_of_nodeOf h).2] at hgroup
      cases hgroup
  | @ofModule path h => exact Or.inl h
  | rootVariables => exact Or.inr rfl
  | rootOutputs => exact Or.inr rfl

theorem made_assembleGraph {addresses : List String} {b : Building}
    (h : Built description hcl addresses b) (orders : HashOrders) (configDeps : EdgeAttributes)
    (pairs : List (String × String)) :
    ∀ node ∈ (assembleGraph orders configDeps pairs b.finalNodes).nodes,
      Made description hcl node := by
  intro node hnode
  have hleft := mem_of_mem_visibleNodes (mem_nodes_assembleGraph_iff.1 hnode)
  exact h.made_keptNodes pairs node (List.mem_of_mem_filter ((Shrink.shrink_sublist _).subset hleft))

/-- The groups that are shown are exactly the modules on the way to a resource that is shown, and the
two root groups where a resource that is shown is in them, unless a resource has their id. -/
theorem groups_processGraph_iff (plan : Plan) (dotContent : String) (includeValues : Bool)
    (hcl : String → Option String) (orders : HashOrders) :
    (processGraph plan dotContent includeValues hcl orders).elim True fun graph =>
      ∀ id, (∃ group ∈ graph.nodes, group.isGroup = true ∧ group.id = id) ↔
        (∃ node ∈ graph.nodes, node.isGroup = false ∧ id ∈ hierarchy node.id) ∨
          isRootGroup id = true ∧
            (∃ node ∈ graph.nodes, node.isGroup = false ∧ node.parentId = some id) ∧
              ¬ ∃ node ∈ graph.nodes, node.isGroup = false ∧ node.id = id := by
  have hwell := wellNested_processGraph plan dotContent includeValues hcl orders
  cases h : processGraph plan dotContent includeValues hcl orders with
  | none => trivial
  | some graph =>
      rw [h] at hwell
      have hnested : WellNested graph.nodes := hwell
      rcases exists_nodes h with ⟨b, hbuilt, -, hgraph⟩
      have hmade : ∀ node ∈ graph.nodes, Made (describe (planMaps plan) includeValues) hcl node :=
        hgraph ▸ made_assembleGraph hbuilt _ _ _
      intro id
      constructor
      · rintro ⟨group, hgroup, hisGroup, rfl⟩
        rcases (hmade group hgroup).isModule_or_isRootGroup hisGroup with hmodule | hroot
        · exact Or.inl ((hnested.exists_module_iff hmade hmodule).1 ⟨group, hgroup, hisGroup, rfl⟩)
        · exact Or.inr ⟨hroot,
            (hnested.exists_rootGroup_iff hmade hroot).1 ⟨group, hgroup, hisGroup, rfl⟩⟩
      · rintro (⟨node, hnode, hresource, hmem⟩ | ⟨hroot, hinside⟩)
        · exact (hnested.exists_module_iff hmade ⟨node.id, hmem⟩).2 ⟨node, hnode, hresource, hmem⟩
        · exact (hnested.exists_rootGroup_iff hmade hroot).2 hinside

end Graph
end InfraWeave
