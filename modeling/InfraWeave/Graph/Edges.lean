import InfraWeave.Graph.Nesting

/-!
# The edges of a graph

Every edge goes from a node that is shown to a node that is shown, except where only the
configuration knows of a dependency.  Resources and data sources are never lost, and locals,
variables of modules and outputs of modules are never shown.
-/

namespace InfraWeave
namespace Graph

variable {description : String → Option Described} {hcl : String → Option String}

/-! ## Types of the nodes -/

theorem Made.eq_of_resource {node other : OutputNode} (h : Made description hcl node)
    (h' : Made description hcl other) (hresource : node.isGroup = false)
    (hresource' : other.isGroup = false) (hid : node.id = other.id) : node = other := by
  cases h with
  | @ofAddress address node h =>
      cases h' with
      | @ofAddress address' other h' =>
          rw [(id_of_nodeOf h).1, (id_of_nodeOf h').1] at hid
          rw [hid] at h
          exact Option.some.inj (h.symm.trans h')
      | _ => cases hresource'
  | _ => cases hresource

theorem mem_nodeTypes_iff {nodes : List OutputNode}
    (hmade : ∀ node ∈ nodes, Made description hcl node) {id nType : String} :
    (id, nType) ∈ nodeTypes nodes ↔
      ∃ node ∈ nodes, node.isGroup = false ∧ node.id = id ∧ node.data.nodeType = nType := by
  have hentry : ∀ {entry : String × String},
      entry ∈ (nodes.filter fun node => !node.isGroup).map
          (fun node => (node.id, node.data.nodeType)) ↔
        ∃ node ∈ nodes, node.isGroup = false ∧ (node.id, node.data.nodeType) = entry := by
    intro entry
    simp only [List.mem_map, List.mem_filter, Bool.not_eq_true', and_assoc]
  constructor
  · intro h
    rcases hentry.1 (OrderedMap.mem_of_mem_collect h) with ⟨node, hnode, hresource, heq⟩
    rw [Prod.mk.injEq] at heq
    exact ⟨node, hnode, hresource, heq.1, heq.2⟩
  · rintro ⟨node, hnode, hresource, rfl, rfl⟩
    have hkey : node.id ∈ OrderedMap.keys (nodeTypes nodes) := by
      refine OrderedMap.keys_collect.2 (List.mem_map.2 ⟨_, hentry.2 ⟨node, hnode, hresource, rfl⟩, rfl⟩)
    rcases OrderedMap.mem_keys_iff.1 hkey with ⟨nType, hlookup⟩
    have hmem := OrderedMap.mem_of_lookup hlookup
    rcases hentry.1 (OrderedMap.mem_of_mem_collect hmem) with ⟨other, hother, hresource', heq⟩
    rw [Prod.mk.injEq] at heq
    obtain rfl := (hmade other hother).eq_of_resource (hmade node hnode) hresource' hresource heq.1
    rwa [← heq.2] at hmem

theorem lookup_nodeTypes {nodes : List OutputNode}
    (hmade : ∀ node ∈ nodes, Made description hcl node) {node : OutputNode} (hnode : node ∈ nodes)
    (hresource : node.isGroup = false) :
    (nodeTypes nodes).lookup node.id = some node.data.nodeType :=
  (OrderedMap.mem_iff_lookup (OrderedMap.pairwise_collect _)).1
    ((mem_nodeTypes_iff hmade).2 ⟨node, hnode, hresource, rfl, rfl⟩)

/-! ## Shown nodes -/

/-- The output of a module. -/
def isModuleOutput (id nType : String) : Bool :=
  nType = "output" && !startsWith id "output."

/-- A node that is shown and has a dependency is no output of a module. -/
theorem not_isModuleOutput_of_shown {deps : List (String × List String)} {id nType dep : String}
    (hshown : isHidden deps id nType = false) (hdep : DependsOn deps id dep) :
    isModuleOutput id nType = false := by
  refine Bool.eq_false_iff.2 fun houtput => ?_
  rcases hdep with ⟨myDeps, hlookup, hmem⟩
  have hparts : nType = "output" ∧ startsWith id "output." = false := by
    simpa [isModuleOutput] using houtput
  have hdeps : (deps.lookup id).any (!·.isEmpty) = true := by
    rw [hlookup]
    cases myDeps with
    | nil => cases hmem
    | cons first rest => rfl
  have hintermediate : isIntermediate nType = true := by simp [isIntermediate, hparts.1]
  simp [isHidden, hintermediate, hparts.2, hdeps] at hshown

/-- What stops resolution is no output of a module. -/
theorem not_isModuleOutput_of_anchor {types : List (String × String)} {id nType : String}
    (htype : types.lookup id = some nType) (h : PassThrough.Anchor (Pass types) (Root types) id) :
    isModuleOutput id nType = false := by
  refine Bool.eq_false_iff.2 fun houtput => ?_
  have hparts : nType = "output" ∧ startsWith id "output." = false := by
    simpa [isModuleOutput] using houtput
  have hnode : nodeType types id = "output" := by rw [nodeType, htype, hparts.1]; rfl
  rcases h with hpass | hroot
  · exact hpass (by simp [Pass, hnode, isIntermediate])
  · simp [Root, rootOnly, hnode, hparts.2] at hroot

theorem isSeed_of_not_isUsedOnly {node : OutputNode} (hresource : node.isGroup = false)
    (hused : isUsedOnly node = false) (houtput : isModuleOutput node.id node.data.nodeType = false) :
    isSeed node = true := by
  have hparts : node.data.nodeType ≠ "var" ∧ node.data.nodeType ≠ "local" := by
    simpa [isUsedOnly, hresource] using hused
  by_cases htype : node.data.nodeType = "output"
  · have hroot : startsWith node.id "output." = true := by
      simpa [isModuleOutput, htype] using houtput
    simp [isSeed, hresource, htype, hroot]
  · simp [isSeed, hresource, hparts.1, hparts.2, htype]

theorem isVisible_iff {activeNodes nodesInEdges : List String} {node : OutputNode}
    (hresource : node.isGroup = false) :
    isVisible activeNodes nodesInEdges node = true ↔
      isModuleOutput node.id node.data.nodeType = false ∧
        (node.id ∈ activeNodes ∨ node.id ∈ nodesInEdges) := by
  simp [isVisible, isModuleOutput, hresource, imp_iff_not_or]

/-- A resource that is left and visible is shown, by its id. -/
theorem exists_id_of_isVisible {activeNodes nodesInEdges : List String} {nodes : List OutputNode}
    {node : OutputNode} (hnode : node ∈ nodes) (hresource : node.isGroup = false)
    (hvisible : isVisible activeNodes nodesInEdges node = true) :
    ∃ other ∈ visibleNodes activeNodes nodesInEdges nodes, other.id = node.id := by
  have hleft := mem_pruneGroups_of_resource (List.mem_filter.2 ⟨hnode, hvisible⟩) hresource
  have hkey := (firsts_visibleNodes activeNodes nodesInEdges nodes).mem_keys_iff.2
    (List.mem_map_of_mem hleft)
  exact List.mem_map.1 hkey

/-! ## The edges by source and target -/

theorem mem_keys_currentEdges {configDeps : EdgeAttributes} {edges : List SimplifiedEdge}
    {pair : String × String} :
    pair ∈ (currentEdges configDeps edges).map Prod.fst ↔
      ∃ edge ∈ edges, (edge.dependency, edge.dependent) = pair := by
  induction edges using List.reverseRecOn with
  | nil => simp [currentEdges]
  | append_singleton edges edge ih =>
      have hstep : currentEdges configDeps (edges ++ [edge]) =
          InsertionOrder.upsert (edge.dependency, edge.dependent)
            (edgeArguments configDeps edge.dependent edge.via)
            (· ++ edgeArguments configDeps edge.dependent edge.via)
            (currentEdges configDeps edges) := by
        simp [currentEdges]
      rw [hstep, InsertionOrder.mem_keys_upsert, ih]
      simp only [List.mem_append, List.mem_singleton, or_and_right, exists_or, exists_eq_left]
      rw [or_comm, eq_comm]

theorem nodup_keys_currentEdges (configDeps : EdgeAttributes) (edges : List SimplifiedEdge) :
    ((currentEdges configDeps edges).map Prod.fst).Nodup := by
  induction edges using List.reverseRecOn with
  | nil => exact List.nodup_nil
  | append_singleton edges edge ih =>
      have hstep : currentEdges configDeps (edges ++ [edge]) =
          InsertionOrder.upsert (edge.dependency, edge.dependent)
            (edgeArguments configDeps edge.dependent edge.via)
            (· ++ edgeArguments configDeps edge.dependent edge.via)
            (currentEdges configDeps edges) := by
        simp [currentEdges]
      rw [hstep]
      exact InsertionOrder.nodup_keys_upsert ih

theorem map_pair_outputEdges (edges : EdgeAttributes) :
    (outputEdges edges).map (fun edge => (edge.source, edge.target)) = edges.map Prod.fst := by
  simp only [outputEdges, List.map_map]
  refine List.ext_getElem (by simp) fun i h h' => ?_
  simp

theorem edgeId_injective : Function.Injective fun i : Nat => "e_" ++ toString (i + 1) := by
  intro i j h
  have hdigits := congrArg String.toList h
  simp only [String.toList_append, List.append_cancel_left_eq, Nat.toString_eq_ofList_toDigits,
    String.toList_ofList] at hdigits
  have hvalue := congrArg (fun digits => Nat.ofDigitChars 10 digits 0) hdigits
  simpa [Nat.ofDigitChars_ten_toDigits] using hvalue

theorem nodup_id_outputEdges (edges : EdgeAttributes) :
    ((outputEdges edges).map OutputEdge.id).Nodup := by
  have hids : (outputEdges edges).map OutputEdge.id =
      ((edges.zipIdx).map Prod.snd).map fun i => "e_" ++ toString (i + 1) := by
    simp only [outputEdges, List.map_map]
    rfl
  rw [hids, List.zipIdx_map_snd]
  exact (List.nodup_range' ..).map edgeId_injective

/-! ## The edges of the graph that is shown -/

section

variable (orders : HashOrders) (configDeps : EdgeAttributes) (pairs : List (String × String))
  (nodes : List OutputNode)

/-- The dependencies that edges are resolved with. -/
abbrev resolvedDeps : List (String × List String) :=
  graphDeps pairs (orders.configDeps.arrange configDeps)

abbrev resolvedTypes : List (String × String) :=
  nodeTypes (keptNodes pairs nodes)

variable {orders configDeps pairs nodes}

theorem mem_edges_assembleGraph_iff {source target : String} :
    (∃ edge ∈ (assembleGraph orders configDeps pairs nodes).edges,
        edge.source = source ∧ edge.target = target) ↔
      ∃ edge ∈ (graphEdges orders configDeps pairs nodes).edges,
        edge.dependency = source ∧ edge.dependent = target := by
  have hpair : (∃ edge ∈ (assembleGraph orders configDeps pairs nodes).edges,
      edge.source = source ∧ edge.target = target) ↔
        (source, target) ∈ (assembleGraph orders configDeps pairs nodes).edges.map
          fun edge => (edge.source, edge.target) := by
    simp [List.mem_map]
  rw [hpair]
  unfold assembleGraph
  dsimp only
  rw [map_pair_outputEdges, ((orders.currentEdges.perm _).map Prod.fst).mem_iff,
    mem_keys_currentEdges]
  simp

theorem dependsOn_resolvedDeps {a b : String} :
    DependsOn (resolvedDeps orders configDeps pairs) a b ↔
      ((a, b) ∈ pairs ∧ a ≠ b) ∨ (a, b) ∈ configPairs configDeps := by
  have hconfig : (a, b) ∈ configPairs (orders.configDeps.arrange configDeps) ↔
      (a, b) ∈ configPairs configDeps :=
    ((orders.configDeps.perm configDeps).filterMap _).mem_iff
  rw [resolvedDeps, graphDeps, dependsOn_collectEdges, List.mem_append, hconfig, List.mem_filter]
  simp

theorem mem_keptNodes_iff {node : OutputNode} (hresource : node.isGroup = false) :
    node ∈ keptNodes pairs nodes ↔
      node ∈ nodes ∧ (isUsedOnly node = true → Reached (collectEdges pairs) nodes node.id) := by
  have hnotRoot : ∀ id label, node ≠ rootGroup id label := by
    rintro id label rfl
    cases hresource
  rw [← mem_pruneUnreached_iff]
  simp only [keptNodes, addRootGroups, mem_addRootGroup_iff, hnotRoot, false_and, or_false]
  exact ⟨fun h => (Shrink.shrink_sublist _).subset h, fun h => mem_pruneGroups_of_resource h hresource⟩

theorem mem_nodes_assembleGraph_iff {node : OutputNode} :
    node ∈ (assembleGraph orders configDeps pairs nodes).nodes ↔
      node ∈ visibleNodes (graphEdges orders configDeps pairs nodes).activeNodes
        ((currentEdges configDeps (graphEdges orders configDeps pairs nodes).edges).flatMap
          fun entry => [entry.1.1, entry.1.2]) (keptNodes pairs nodes) :=
  (orders.uniqueNodes.perm _).mem_iff

theorem mem_nodesInEdges_iff {edges : List SimplifiedEdge} {id : String} :
    id ∈ (currentEdges configDeps edges).flatMap (fun entry => [entry.1.1, entry.1.2]) ↔
      ∃ edge ∈ edges, id = edge.dependency ∨ id = edge.dependent := by
  have hkeys : (currentEdges configDeps edges).flatMap (fun entry => [entry.1.1, entry.1.2]) =
      ((currentEdges configDeps edges).map Prod.fst).flatMap fun pair => [pair.1, pair.2] := by
    rw [List.flatMap_map]
  rw [hkeys, List.mem_flatMap]
  constructor
  · rintro ⟨pair, hpair, hid⟩
    rcases mem_keys_currentEdges.1 hpair with ⟨edge, hedge, rfl⟩
    exact ⟨edge, hedge, by simpa using hid⟩
  · rintro ⟨edge, hedge, hid⟩
    exact ⟨_, mem_keys_currentEdges.2 ⟨edge, hedge, rfl⟩, by simpa using hid⟩

/-- A resource that is left, is no output of a module, and is active or at an edge. -/
theorem exists_id_of_kept {node : OutputNode} (hnode : node ∈ keptNodes pairs nodes)
    (hresource : node.isGroup = false)
    (houtput : isModuleOutput node.id node.data.nodeType = false)
    (huse : node.id ∈ (graphEdges orders configDeps pairs nodes).activeNodes ∨
      ∃ edge ∈ (graphEdges orders configDeps pairs nodes).edges,
        node.id = edge.dependency ∨ node.id = edge.dependent) :
    ∃ other ∈ (assembleGraph orders configDeps pairs nodes).nodes, other.id = node.id := by
  have hvisible : isVisible (graphEdges orders configDeps pairs nodes).activeNodes
      ((currentEdges configDeps (graphEdges orders configDeps pairs nodes).edges).flatMap
        fun entry => [entry.1.1, entry.1.2]) node = true :=
    (isVisible_iff hresource).2 ⟨houtput, huse.imp_right mem_nodesInEdges_iff.2⟩
  rcases exists_id_of_isVisible hnode hresource hvisible with ⟨other, hother, hid⟩
  exact ⟨other, mem_nodes_assembleGraph_iff.2 hother, hid⟩

/-! ## Both ends of an edge -/

/-- What an edge of the graph is: its target is a resource that is shown, and the way to its source
is one through intermediate nodes. -/
structure EdgeSpec (deps : List (String × List String)) (nodes : List OutputNode)
    (edge : SimplifiedEdge) : Prop where
  target : ∃ node ∈ nodes, node.isGroup = false ∧ node.id = edge.dependent ∧
    isHidden deps node.id node.data.nodeType = false
  dependsOn : DependsOn deps edge.dependent edge.via
  backed : Backed deps (nodeTypes nodes) edge.via edge.dependency
  ne : edge.dependency ≠ edge.dependent

theorem edgeSpec_of_mem
    (hkept : ∀ node ∈ keptNodes pairs nodes, Made description hcl node) {edge : SimplifiedEdge}
    (hedge : edge ∈ (graphEdges orders configDeps pairs nodes).edges) :
    EdgeSpec (resolvedDeps orders configDeps pairs) (keptNodes pairs nodes) edge := by
  rcases simplify_backed _ _ _ edge hedge with ⟨hsent, hbacked⟩
  rcases hsent.shown with ⟨nType, hmem, hshown⟩
  rcases (mem_nodeTypes_iff hkept).1 ((orders.nodeTypes.perm _).mem_iff.1 hmem) with
    ⟨node, hnode, hresource, hid, htype⟩
  refine ⟨⟨node, hnode, hresource, hid, ?_⟩, hsent.dependsOn, hbacked, hsent.ne⟩
  rw [hid, htype]
  exact hshown

theorem EdgeSpec.exists_target {edge : SimplifiedEdge}
    (hedge : edge ∈ (graphEdges orders configDeps pairs nodes).edges)
    (h : EdgeSpec (resolvedDeps orders configDeps pairs) (keptNodes pairs nodes) edge) :
    ∃ other ∈ (assembleGraph orders configDeps pairs nodes).nodes, other.id = edge.dependent := by
  rcases h.target with ⟨node, hnode, hresource, hid, hshown⟩
  have houtput := not_isModuleOutput_of_shown hshown (hid ▸ h.dependsOn)
  rw [← hid]
  exact exists_id_of_kept hnode hresource houtput (Or.inr ⟨edge, hedge, Or.inr hid⟩)

/-- A path of two kinds of steps is one of the first kind, or it has a step of the second. -/
theorem transGen_or {α : Type} {r r' : α → α → Prop} {a c : α}
    (h : Relation.TransGen (fun a b => r a b ∨ r' a b) a c) :
    Relation.TransGen r a c ∨
      ∃ x y, r' x y ∧ Relation.ReflTransGen (fun a b => r a b ∨ r' a b) y c := by
  induction h using Relation.TransGen.head_induction_on with
  | single hstep =>
      rcases hstep with hstep | hstep
      · exact Or.inl (.single hstep)
      · exact Or.inr ⟨_, _, hstep, .refl⟩
  | head hstep hrest ih =>
      rcases ih with hpath | hother
      · rcases hstep with hstep | hstep
        · exact Or.inl (hpath.head hstep)
        · exact Or.inr ⟨_, _, hstep, hrest.to_reflTransGen⟩
      · exact Or.inr hother

/-- The way from the target of an edge to its source. -/
theorem EdgeSpec.path {edge : SimplifiedEdge}
    (h : EdgeSpec (resolvedDeps orders configDeps pairs) (keptNodes pairs nodes) edge) :
    Relation.TransGen (DependsOn (resolvedDeps orders configDeps pairs)) edge.dependent
      edge.dependency := by
  refine Relation.TransGen.head' h.dependsOn ?_
  exact Relation.ReflTransGen.mono (fun _ _ hstep => hstep.2) _ _ h.backed.1

/-- Where the edges of the text lead to nodes, the source of an edge is shown, unless the way to it
has a reference of an output that only the configuration knows. -/
theorem EdgeSpec.exists_source
    (hkept : ∀ node ∈ keptNodes pairs nodes, Made description hcl node)
    (hends : ∀ pair ∈ pairs, ∃ node ∈ nodes, node.isGroup = false ∧ node.id = pair.2)
    {edge : SimplifiedEdge} (hedge : edge ∈ (graphEdges orders configDeps pairs nodes).edges)
    (h : EdgeSpec (resolvedDeps orders configDeps pairs) (keptNodes pairs nodes) edge) :
    (∃ other ∈ (assembleGraph orders configDeps pairs nodes).nodes,
        other.id = edge.dependency) ∨
      ∃ pair ∈ configPairs configDeps, Relation.ReflTransGen
        (DependsOn (resolvedDeps orders configDeps pairs)) pair.2 edge.dependency := by
  have hsteps : DependsOn (resolvedDeps orders configDeps pairs) =
      fun a b => ((a, b) ∈ pairs ∧ a ≠ b) ∨ (a, b) ∈ configPairs configDeps := by
    funext a b
    exact propext dependsOn_resolvedDeps
  have hpath := h.path
  rw [hsteps] at hpath ⊢
  rcases transGen_or hpath with hpairs | ⟨x, y, hconfig, hrest⟩
  · left
    rcases Relation.TransGen.tail'_iff.1 hpairs with ⟨last, -, hlast⟩
    rcases hends _ hlast.1 with ⟨node, hnode, hresource, hid⟩
    -- The target is in use, and so is what it leads to.
    have hreached : Reached (collectEdges pairs) nodes edge.dependency := by
      rcases h.target with ⟨target, htarget, htargetResource, htargetId, hshown⟩
      have houtput := not_isModuleOutput_of_shown hshown (htargetId ▸ h.dependsOn)
      have htargetKept := (mem_keptNodes_iff htargetResource).1 htarget
      have htargetReached : Reached (collectEdges pairs) nodes target.id := by
        by_cases hused : isUsedOnly target = true
        · exact htargetKept.2 hused
        · have hseed := isSeed_of_not_isUsedOnly htargetResource (Bool.eq_false_iff.2 hused) houtput
          exact ⟨target, htargetKept.1, hseed, .refl⟩
      rcases htargetReached with ⟨seed, hseed, hisSeed, hseedPath⟩
      refine ⟨seed, hseed, hisSeed, hseedPath.trans ?_⟩
      rw [htargetId]
      refine Relation.ReflTransGen.mono (fun a b hstep => ?_) _ _ hpairs.to_reflTransGen
      exact dependsOn_collectEdges.2 hstep.1
    have hid' : node.id = edge.dependency := hid
    have hnodeKept : node ∈ keptNodes pairs nodes :=
      (mem_keptNodes_iff hresource).2 ⟨hnode, fun _ => hid' ▸ hreached⟩
    have houtput : isModuleOutput node.id node.data.nodeType = false :=
      not_isModuleOutput_of_anchor (lookup_nodeTypes hkept hnodeKept hresource)
        (hid' ▸ h.backed.2)
    rw [← hid']
    exact exists_id_of_kept hnodeKept hresource houtput (Or.inr ⟨edge, hedge, Or.inl hid'⟩)
  · exact Or.inr ⟨(x, y), hconfig, hrest⟩

end

/-! ## Both ends have nodes -/

theorem mem_of_explicitAddress {rawNodes : List (String × String)} {dotId address : String}
    (h : explicitAddress description hcl rawNodes dotId = some address) :
    address ∈ rawNodes.filterMap (fun entry => cleanLabel entry.2) ∧
      ∃ node, nodeOf description hcl address = some node := by
  rcases List.exists_of_findSome?_eq_some h with ⟨entry, hentry, hfound⟩
  split at hfound
  · rcases Option.bind_eq_some_iff.1 hfound with ⟨label, hlabel, hnode⟩
    rcases withNode_eq_some_iff.1 hnode with ⟨rfl, hnode⟩
    exact ⟨List.mem_filterMap.2 ⟨entry, List.mem_reverse.1 hentry, hlabel⟩, hnode⟩
  · cases hfound

/-- An id leads to an address that a node has been made for. -/
theorem mem_addresses_of_dotAddress {rawNodes : List (String × String)} {dotIds : List String}
    {dotId address : String} (hdotId : dotId ∈ dotIds)
    (h : dotAddress description hcl rawNodes dotId = some address) :
    address ∈ addresses description hcl rawNodes dotIds ∧
      ∃ node, nodeOf description hcl address = some node := by
  cases hexplicit : explicitAddress description hcl rawNodes dotId with
  | some found =>
      obtain rfl : found = address := by simpa [dotAddress, hexplicit] using h
      have hspec := mem_of_explicitAddress hexplicit
      exact ⟨List.mem_append_left _ hspec.1, hspec.2⟩
  | none =>
      have hnode : withNode description hcl (parseDotId dotId) = some address := by
        simpa [dotAddress, hexplicit] using h
      rcases withNode_eq_some_iff.1 hnode with ⟨rfl, hnode⟩
      refine ⟨List.mem_append_right _ (List.mem_map_of_mem (List.mem_filter.2 ⟨hdotId, ?_⟩)), hnode⟩
      rw [hexplicit]
      rfl

/-- The nodes at both ends of an edge have been made. -/
theorem Built.exists_ends {rawNodes rawEdges : List (String × String)} {dotIds : List String}
    {b : Building} (h : Built description hcl (addresses description hcl rawNodes dotIds) b)
    (hall : ∀ d ∈ allDotIds rawEdges, d ∈ dotIds)
    (hlookup : ∀ d ∈ allDotIds rawEdges,
      b.dotNodeToAddress.lookup d = dotAddress description hcl rawNodes d)
    {pair : String × String} (hpair : pair ∈ addressPairs (b.dotNodeToAddress.lookup ·) rawEdges)
    {id : String} (hid : id = pair.1 ∨ id = pair.2) :
    ∃ node ∈ b.finalNodes, node.isGroup = false ∧ node.id = id := by
  rcases List.mem_filterMap.1 hpair with ⟨edge, hedge, hends⟩
  rcases Option.bind_eq_some_iff.1 hends with ⟨s, hs, hends⟩
  rcases Option.map_eq_some_iff.1 hends with ⟨t, ht, rfl⟩
  have hnamed : ∀ d, d = edge.1 ∨ d = edge.2 → d ∈ allDotIds rawEdges := by
    intro d hd
    refine List.mem_dedup.2 (List.mem_flatMap.2 ⟨edge, hedge, ?_⟩)
    simpa using hd
  have hnode : ∀ d, d ∈ allDotIds rawEdges → ∀ address, b.dotNodeToAddress.lookup d = some address →
      ∃ node ∈ b.finalNodes, node.isGroup = false ∧ node.id = address := by
    intro d hd address haddress
    rw [hlookup d hd] at haddress
    rcases mem_addresses_of_dotAddress (hall d hd) haddress with ⟨hmem, node, hof⟩
    exact ⟨node, (h.nodes node).2 (Or.inl ⟨address, hmem, hof⟩), (id_of_nodeOf hof).2,
      (id_of_nodeOf hof).1⟩
  rcases hid with rfl | rfl
  · exact hnode edge.1 (hnamed _ (Or.inl rfl)) _ hs
  · exact hnode edge.2 (hnamed _ (Or.inr rfl)) _ ht

/-- Edges have ids of their own, at most one edge goes from a node to another, and none from a node
to itself. -/
structure SimpleEdges (edges : List OutputEdge) : Prop where
  nodup : (edges.map OutputEdge.id).Nodup
  pairs : (edges.map fun edge => (edge.source, edge.target)).Nodup
  ne : ∀ edge ∈ edges, edge.source ≠ edge.target

theorem simpleEdges_assembleGraph (orders : HashOrders) (configDeps : EdgeAttributes)
    (pairs : List (String × String)) (nodes : List OutputNode) :
    SimpleEdges (assembleGraph orders configDeps pairs nodes).edges := by
  refine ⟨nodup_id_outputEdges _, ?_, fun edge hedge => ?_⟩
  · unfold assembleGraph
    dsimp only
    rw [map_pair_outputEdges]
    exact ((orders.currentEdges.perm _).map Prod.fst).nodup_iff.2 (nodup_keys_currentEdges _ _)
  · rcases mem_edges_assembleGraph_iff.1 ⟨edge, hedge, rfl, rfl⟩ with ⟨simplified, hmem, hs, ht⟩
    rw [← hs, ← ht]
    exact (simplify_backed _ _ _ simplified hmem).1.ne

/-! ## The graph of a plan -/

section

variable (plan : Plan) (dotContent : String) (includeValues : Bool) (hcl : String → Option String)

/-- The edges of the text, between the addresses of nodes. -/
def textPairs : List (String × String) :=
  addressPairs (dotAddress (describe (planMaps plan) includeValues) hcl (parseDot dotContent).1)
    (parseDot dotContent).2

/-- The node depends on the other one, by the text or by what an output refers to. -/
def Linked (id other : String) : Prop :=
  ((id, other) ∈ textPairs plan dotContent includeValues hcl ∧ id ≠ other) ∨
    (id, other) ∈ configPairs (configDeps plan)

/-- The addresses that have a node. -/
def planAddresses : List String :=
  addresses (describe (planMaps plan) includeValues) hcl (parseDot dotContent).1
    (allDotIds (parseDot dotContent).2)

end

section

variable {plan : Plan} {dotContent : String} {includeValues : Bool} {orders : HashOrders}
  {graph : OutputGraph}

theorem dependsOn_linked (orders : HashOrders) : DependsOn (resolvedDeps orders (configDeps plan)
    (textPairs plan dotContent includeValues hcl)) = Linked plan dotContent includeValues hcl := by
  funext id other
  exact propext dependsOn_resolvedDeps

theorem addresses_congr {rawNodes : List (String × String)} {dotIds dotIds' : List String}
    (h : dotIds.Perm dotIds') {address : String} :
    address ∈ addresses description hcl rawNodes dotIds ↔
      address ∈ addresses description hcl rawNodes dotIds' := by
  simp only [addresses, List.mem_append, List.mem_map, List.mem_filter, h.mem_iff]

theorem Built.congr {addresses addresses' : List String} {b : Building}
    (h : Built description hcl addresses b)
    (hsame : ∀ address, address ∈ addresses ↔ address ∈ addresses') :
    Built description hcl addresses' b := by
  refine ⟨fun path => ?_, fun node => ?_⟩
  · simp only [h.known path, hsame]
  · simp only [h.nodes node, hsame]

/-- A graph that is made is that of the nodes of all addresses. -/
theorem exists_nodes (h : processGraph plan dotContent includeValues hcl orders = some graph) :
    ∃ b, Built (describe (planMaps plan) includeValues) hcl
        (planAddresses plan dotContent includeValues hcl) b ∧
      (∀ pair ∈ textPairs plan dotContent includeValues hcl, ∀ id, id = pair.1 ∨ id = pair.2 →
        ∃ node ∈ b.finalNodes, node.isGroup = false ∧ node.id = id) ∧
      graph = assembleGraph orders (configDeps plan)
        (textPairs plan dotContent includeValues hcl) b.finalNodes := by
  rcases exists_building h with ⟨b, hbuilt, hlookup, rfl⟩
  have hpairs : addressPairs (b.dotNodeToAddress.lookup ·) (parseDot dotContent).2 =
      textPairs plan dotContent includeValues hcl := by
    refine List.filterMap_congr fun edge hedge => ?_
    have hnamed : ∀ d, d = edge.1 ∨ d = edge.2 → d ∈ allDotIds (parseDot dotContent).2 := by
      intro d hd
      refine List.mem_dedup.2 (List.mem_flatMap.2 ⟨edge, hedge, ?_⟩)
      simpa using hd
    dsimp only
    rw [hlookup _ (hnamed _ (Or.inl rfl)), hlookup _ (hnamed _ (Or.inr rfl))]
  rw [← hpairs]
  refine ⟨b, hbuilt.congr fun address => addresses_congr (orders.dotIds.perm _), ?_, rfl⟩
  intro pair hpair id hid
  exact hbuilt.exists_ends (fun d hd => (orders.dotIds.perm _).mem_iff.2 hd) hlookup hpair hid

end

end Graph
end InfraWeave
