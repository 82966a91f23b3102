import InfraWeave.Graph.Edges

/-!
# What a graph shows

Which nodes are shown, and which edges, said by the dependencies of the plan alone: nothing in it
depends on how the graph is found.
-/

namespace InfraWeave
namespace Graph

open Text (split)

/-! ## Kinds of addresses -/

/-- A variable, a local or an output. -/
def IsBetween (id : String) : Prop :=
  isIntermediate (determineBlockType id false) = true

def IsRootVariable (id : String) : Prop :=
  startsWith id "var." = true

def IsRootOutput (id : String) : Prop :=
  startsWith id "output." = true

/-- A resource, a data source or a root output. -/
def IsEnd (id : String) : Prop :=
  ¬ IsBetween id ∨ IsRootOutput id

theorem determineBlockType_of_isRootVariable {id : String} (h : IsRootVariable id) (isData : Bool) :
    determineBlockType id isData = "var" := by
  have hvar : startsWith id "var." = true := h
  simp [determineBlockType, hvar]

theorem determineBlockType_of_isRootOutput {id : String} (h : IsRootOutput id) (isData : Bool) :
    determineBlockType id isData = "output" := by
  have houtput : startsWith id "output." = true := h
  rcases List.isPrefixOf_iff_prefix.1 h with ⟨rest, hrest⟩
  have hvar : startsWith id "var." = false := by
    rw [startsWith, ← hrest]
    rfl
  have hlocal : startsWith id "local." = false := by
    rw [startsWith, ← hrest]
    rfl
  simp [determineBlockType, hvar, hlocal, houtput]

/-- What the plan says about data sources does not make a block a variable, a local or an output. -/
theorem determineBlockType_eq_iff {id nType : String} (h : isIntermediate nType = true)
    (isData : Bool) : determineBlockType id isData = nType ↔ determineBlockType id false = nType := by
  have hdata : nType ≠ "data" := by
    rintro rfl
    exact absurd h (by decide)
  have hresource : nType ≠ "resource" := by
    rintro rfl
    exact absurd h (by decide)
  cases isData with
  | false => exact Iff.rfl
  | true =>
      by_cases hstart : startsWith id "var." = true ∨ startsWith id "local." = true ∨
          startsWith id "output." = true
      · rcases hstart with hstart | hstart | hstart <;> simp [determineBlockType, hstart]
      · simp only [not_or, Bool.not_eq_true] at hstart
        cases hpart : (split '.' id).find? fun part =>
            part = "var" || part = "local" || part = "output" with
        | some part => simp [determineBlockType, hstart, hpart]
        | none =>
            -- Only whether it is a data source is left open.
            simp only [determineBlockType, hstart, hpart]
            split_ifs <;> simp [hdata.symm, hresource.symm]

theorem isIntermediate_determineBlockType (id : String) (isData : Bool) :
    isIntermediate (determineBlockType id isData) = true ↔ IsBetween id := by
  have hvar : determineBlockType id isData = "var" ↔ determineBlockType id false = "var" :=
    determineBlockType_eq_iff (by decide) isData
  have hlocal : determineBlockType id isData = "local" ↔ determineBlockType id false = "local" :=
    determineBlockType_eq_iff (by decide) isData
  have houtput : determineBlockType id isData = "output" ↔
      determineBlockType id false = "output" := determineBlockType_eq_iff (by decide) isData
  simp only [IsBetween, isIntermediate, Bool.or_eq_true, decide_eq_true_eq, hvar, hlocal, houtput]

variable {description : String → Option Described} {hcl : String → Option String}

/-- The type of a node that has been made for an address. -/
theorem Made.nodeType {node : OutputNode} (h : Made description hcl node)
    (hresource : node.isGroup = false) :
    ∃ isData, node.data.nodeType = determineBlockType node.id isData := by
  cases h with
  | @ofAddress address node h =>
      rcases nodeOf_eq_some_iff.1 h with ⟨-, -, described, -, rfl⟩
      exact ⟨described.isData, rfl⟩
  | _ => cases hresource

theorem exists_nodeType_eq {nodes : List OutputNode}
    (hmade : ∀ node ∈ nodes, Made description hcl node) (id : String) :
    ∃ isData, nodeType (nodeTypes nodes) id = determineBlockType id isData := by
  cases hlookup : (nodeTypes nodes).lookup id with
  | none => exact ⟨false, by simp [nodeType, hlookup]⟩
  | some nType =>
      rcases (mem_nodeTypes_iff hmade).1 (OrderedMap.mem_of_lookup hlookup) with
        ⟨node, hnode, hresource, rfl, rfl⟩
      rcases (hmade node hnode).nodeType hresource with ⟨isData, htype⟩
      exact ⟨isData, by simp [nodeType, hlookup, htype]⟩

theorem pass_nodeTypes {nodes : List OutputNode}
    (hmade : ∀ node ∈ nodes, Made description hcl node) : Pass (nodeTypes nodes) = IsBetween := by
  funext id
  rcases exists_nodeType_eq hmade id with ⟨isData, htype⟩
  rw [Pass, htype, isIntermediate_determineBlockType]

theorem root_nodeTypes {nodes : List OutputNode}
    (hmade : ∀ node ∈ nodes, Made description hcl node) :
    Root (nodeTypes nodes) = fun id => IsRootVariable id ∨ IsRootOutput id := by
  funext id
  rcases exists_nodeType_eq hmade id with ⟨isData, htype⟩
  rw [Root, htype]
  by_cases hvar : IsRootVariable id
  · have hstart : startsWith id "var." = true := hvar
    simp [determineBlockType_of_isRootVariable hvar, rootOnly, hstart, hvar]
  · by_cases houtput : IsRootOutput id
    · have hstart : startsWith id "output." = true := houtput
      simp [determineBlockType_of_isRootOutput houtput, rootOnly, hstart, houtput]
    · have hstart : startsWith id "var." = false := Bool.eq_false_iff.2 hvar
      have hstart' : startsWith id "output." = false := Bool.eq_false_iff.2 houtput
      simp [rootOnly, hstart, hstart', hvar, houtput]

/-! ## Resources of a graph -/

section

variable (plan : Plan) (dotContent : String) (includeValues : Bool) (hcl : String → Option String)

/-- The address has a node. -/
def HasNode (id : String) : Prop :=
  id ∈ planAddresses plan dotContent includeValues hcl ∧
    ∃ node, nodeOf (describe (planMaps plan) includeValues) hcl id = some node

/-- The second address is one that the first leads to through variables, locals and outputs of
modules, and where this ends. -/
def IsOrigin (id source : String) : Prop :=
  PassThrough.IsSource IsBetween (fun id => IsRootVariable id ∨ IsRootOutput id)
    (Linked plan dotContent includeValues hcl) id source

/-- No variables, locals or outputs that the address leads to depend on themselves. -/
def HasNoCycle (id : String) : Prop :=
  PassThrough.Acyclic IsBetween (Linked plan dotContent includeValues hcl) id

end

section

variable {addresses : List String} {b : Building}

theorem Built.exists_resource_iff (h : Built description hcl addresses b) {id : String} :
    (∃ node ∈ b.finalNodes, node.isGroup = false ∧ node.id = id) ↔
      id ∈ addresses ∧ ∃ node, nodeOf description hcl id = some node := by
  constructor
  · rintro ⟨node, hnode, hresource, rfl⟩
    rcases (h.nodes node).1 hnode with ⟨address, haddress, hof⟩ | ⟨path, -, rfl⟩
    · rw [(id_of_nodeOf hof).1]
      exact ⟨haddress, node, hof⟩
    · cases hresource
  · rintro ⟨hmem, node, hof⟩
    exact ⟨node, (h.nodes node).2 (Or.inl ⟨id, hmem, hof⟩), (id_of_nodeOf hof).2, (id_of_nodeOf hof).1⟩

/-- What is kept whether it is used or not. -/
theorem isSeed_iff {node : OutputNode} (hmade : Made description hcl node)
    (hresource : node.isGroup = false) : isSeed node = true ↔ IsEnd node.id := by
  rcases hmade.nodeType hresource with ⟨isData, htype⟩
  have hbetween := isIntermediate_determineBlockType node.id isData
  rw [← htype] at hbetween
  by_cases houtput : IsRootOutput node.id
  · have hstart : startsWith node.id "output." = true := houtput
    have hnode : node.data.nodeType = "output" :=
      htype.trans (determineBlockType_of_isRootOutput houtput isData)
    simp [isSeed, IsEnd, hresource, hnode, hstart, houtput]
  · have hstart : startsWith node.id "output." = false := Bool.eq_false_iff.2 houtput
    simp [isSeed, IsEnd, hresource, hstart, houtput, ← hbetween, isIntermediate, and_assoc]

theorem isUsedOnly_of_isEnd {node : OutputNode} (hmade : Made description hcl node)
    (hresource : node.isGroup = false) (h : IsEnd node.id) : isUsedOnly node = false := by
  have hseed := (isSeed_iff hmade hresource).2 h
  simp only [isSeed, hresource, Bool.not_false, Bool.true_and, Bool.and_eq_true,
    decide_eq_true_eq] at hseed
  simp [isUsedOnly, hresource, hseed.1.1, hseed.1.2]

/-- A node with dependencies is shown exactly when it is a resource, a data source or a root
output. -/
theorem isHidden_of_dependsOn {deps : List (String × List String)} {id dep : String}
    (hdep : DependsOn deps id dep) (isData : Bool) :
    isHidden deps id (determineBlockType id isData) = false ↔ IsEnd id := by
  rcases hdep with ⟨myDeps, hlookup, hmem⟩
  have hdeps : (deps.lookup id).any (!·.isEmpty) = true := by
    rw [hlookup]
    cases myDeps with
    | nil => cases hmem
    | cons first rest => rfl
  have hbetween := isIntermediate_determineBlockType id isData
  by_cases houtput : IsRootOutput id
  · have hstart : startsWith id "output." = true := houtput
    simp [isHidden, hstart, IsEnd, houtput]
  · have hstart : startsWith id "output." = false := Bool.eq_false_iff.2 houtput
    simp [isHidden, hstart, IsEnd, houtput, hdeps, ← hbetween]

end

section

variable {plan : Plan} {dotContent : String} {includeValues : Bool} {orders : HashOrders}
  {b : Building}

theorem mem_graphEdges_iff
    (hbuilt : Built (describe (planMaps plan) includeValues) hcl
      (planAddresses plan dotContent includeValues hcl) b) {edge : SimplifiedEdge}
    (hacyclic : Linked plan dotContent includeValues hcl edge.dependent edge.via →
      HasNoCycle plan dotContent includeValues hcl edge.via) :
    edge ∈ (graphEdges orders (configDeps plan)
        (textPairs plan dotContent includeValues hcl) b.finalNodes).edges ↔
      edge.dependency ≠ edge.dependent ∧
        HasNode plan dotContent includeValues hcl edge.dependent ∧ IsEnd edge.dependent ∧
        Linked plan dotContent includeValues hcl edge.dependent edge.via ∧
        IsOrigin plan dotContent includeValues hcl edge.via edge.dependency := by
  have hkept := hbuilt.made_keptNodes (textPairs plan dotContent includeValues hcl)
  have hexact := (processed_simplify
    (resolvedDeps orders (configDeps plan) (textPairs plan dotContent includeValues hcl))
    (resolvedTypes (textPairs plan dotContent includeValues hcl) b.finalNodes)
    (orders.nodeTypes.arrange
      (resolvedTypes (textPairs plan dotContent includeValues hcl) b.finalNodes))).exact
  unfold Acyclic IsSource at hexact
  rw [pass_nodeTypes hkept, root_nodeTypes hkept, dependsOn_linked] at hexact
  constructor
  · intro hedge
    have hspec := edgeSpec_of_mem hkept hedge
    have hdep := hspec.dependsOn
    have hlinked := hdep
    rw [dependsOn_linked] at hlinked
    rcases hspec.target with ⟨node, hnode, hresource, hid, hshown⟩
    rcases (hkept node hnode).nodeType hresource with ⟨isData, htype⟩
    rw [htype, hid, isHidden_of_dependsOn hdep] at hshown
    refine ⟨hspec.ne, hbuilt.exists_resource_iff.1 ⟨node, ?_, hresource, hid⟩, hshown,
      hlinked, ((hexact edge (hacyclic hlinked)).1 hedge).2⟩
    exact ((mem_keptNodes_iff hresource).1 hnode).1
  · rintro ⟨hne, htarget, hend, hlinked, horigin⟩
    rcases hbuilt.exists_resource_iff.2 htarget with ⟨node, hnode, hresource, hid⟩
    refine (hexact edge (hacyclic hlinked)).2 ⟨⟨?_, ?_, hne⟩, horigin⟩
    · rw [← hid] at hend
      have hused := isUsedOnly_of_isEnd (hbuilt.made hnode) hresource hend
      have hstays : node ∈ keptNodes (textPairs plan dotContent includeValues hcl) b.finalNodes :=
        (mem_keptNodes_iff hresource).2 ⟨hnode, fun h => by rw [hused] at h; cases h⟩
      rcases (hbuilt.made hnode).nodeType hresource with ⟨isData, htype⟩
      refine ⟨node.data.nodeType, (orders.nodeTypes.perm _).mem_iff.2
        ((mem_nodeTypes_iff hkept).2 ⟨node, hstays, hresource, hid, rfl⟩), ?_⟩
      rw [← dependsOn_linked orders, ← hid] at hlinked
      rw [htype, ← hid, isHidden_of_dependsOn hlinked]
      exact hend
    · rwa [dependsOn_linked]

/-- Whatever orders maps have, where variables, locals and outputs do not depend on themselves the
edges are exactly these: from what a resource, a data source or a root output leads to through
them, to it. -/
theorem edges_processGraph_iff (plan : Plan) (dotContent : String) (includeValues : Bool)
    (hcl : String → Option String) (orders : HashOrders) :
    (processGraph plan dotContent includeValues hcl orders).elim True fun graph =>
      ∀ source target, (∀ via, Linked plan dotContent includeValues hcl target via →
          HasNoCycle plan dotContent includeValues hcl via) →
        ((∃ edge ∈ graph.edges, edge.source = source ∧ edge.target = target) ↔
          source ≠ target ∧ HasNode plan dotContent includeValues hcl target ∧ IsEnd target ∧
            ∃ via, Linked plan dotContent includeValues hcl target via ∧
              IsOrigin plan dotContent includeValues hcl via source) := by
  cases h : processGraph plan dotContent includeValues hcl orders with
  | none => trivial
  | some graph =>
      rcases exists_nodes h with ⟨b, hbuilt, -, rfl⟩
      intro source target hacyclic
      rw [mem_edges_assembleGraph_iff]
      constructor
      · rintro ⟨edge, hedge, rfl, rfl⟩
        rcases (mem_graphEdges_iff hbuilt (hacyclic edge.via)).1 hedge with
          ⟨hne, htarget, hend, hlinked, horigin⟩
        exact ⟨hne, htarget, hend, edge.via, hlinked, horigin⟩
      · rintro ⟨hne, htarget, hend, via, hlinked, horigin⟩
        have hedge : ⟨target, source, via⟩ ∈ (graphEdges orders (configDeps plan)
            (textPairs plan dotContent includeValues hcl) b.finalNodes).edges :=
          (mem_graphEdges_iff hbuilt (hacyclic via)).2 ⟨hne, htarget, hend, hlinked, horigin⟩
        exact ⟨_, hedge, rfl, rfl⟩

end

end Graph
end InfraWeave
