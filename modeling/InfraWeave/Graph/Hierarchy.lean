import InfraWeave.Graph.Pruning

/-!
# Groups and what is in them

A node says which group it is in.  Whatever nodes are taken of those that have been made, the groups
are not nested in a cycle, and an id says which group its node is in.
-/

namespace InfraWeave
namespace Graph

/-- The path of a module that some address lies in. -/
def IsModule (path : String) : Prop :=
  ∃ address, path ∈ hierarchy address

def isRootGroup (id : String) : Bool :=
  id = "root_variables" || id = "root_outputs"

section

variable (description : String → Option Described) (hcl : String → Option String)

/-- The nodes that are made: those of addresses, the groups of modules, and the two root groups. -/
inductive Made : OutputNode → Prop where
  | ofAddress {address : String} {node : OutputNode}
      (h : nodeOf description hcl address = some node) : Made node
  | ofModule {path : String} (h : IsModule path) : Made (moduleGroup path (parentPath path))
  | rootVariables : Made (rootGroup "root_variables" "Variables")
  | rootOutputs : Made (rootGroup "root_outputs" "Outputs")

variable {description hcl}

theorem Built.made {addresses : List String} {b : Building}
    (h : Built description hcl addresses b) {node : OutputNode} (hnode : node ∈ b.finalNodes) :
    Made description hcl node := by
  rcases (h.nodes node).1 hnode with ⟨address, -, hof⟩ | ⟨path, hpath, rfl⟩
  · exact .ofAddress hof
  · rcases (h.known path).1 hpath with ⟨address, -, -, hmem⟩
    exact .ofModule ⟨address, hmem⟩

/-! ## Ids -/

theorem IsModule.getLast? {path : String} (h : IsModule path) :
    (hierarchy path).getLast? = some path := by
  rcases h with ⟨address, hmem⟩
  rcases exists_hierarchy_of_mem hmem with ⟨-, outer, houter⟩
  rw [houter, List.getLast?_concat]

theorem hierarchy_of_isRootGroup {id : String} (h : isRootGroup id = true) : hierarchy id = [] := by
  rcases Bool.or_eq_true_iff.1 h with h | h
  · rw [of_decide_eq_true h]
    decide
  · rw [of_decide_eq_true h]
    decide

theorem determineBlockType_of_isRootGroup {id : String} (h : isRootGroup id = true) (isData : Bool) :
    determineBlockType id isData ≠ "var" ∧ determineBlockType id isData ≠ "output" := by
  rcases Bool.or_eq_true_iff.1 h with h | h
  · rw [of_decide_eq_true h]
    cases isData <;> decide
  · rw [of_decide_eq_true h]
    cases isData <;> decide

theorem IsModule.not_isRootGroup {path : String} (h : IsModule path) : isRootGroup path = false := by
  refine Bool.eq_false_iff.2 fun hroot => ?_
  have hlast := h.getLast?
  rw [hierarchy_of_isRootGroup hroot] at hlast
  cases hlast

/-- The parent of what is made for an address. -/
theorem parentId_of_nodeOf {address : String} {node : OutputNode}
    (h : nodeOf description hcl address = some node) :
    (∃ path, node.parentId = some path ∧ path ∈ hierarchy address ∧ path ≠ address) ∨
      (isRootGroup address = false ∧ ∃ id, isRootGroup id = true ∧ node.parentId = some id) ∨
        node.parentId = none := by
  rcases nodeOf_eq_some_iff.1 h with ⟨-, hlast, described, -, rfl⟩
  cases hpath : (hierarchy address).getLast? with
  | some path =>
      refine Or.inl ⟨path, rfl, List.mem_of_getLast? hpath, fun heq => hlast ?_⟩
      rw [hpath, heq]
  | none =>
      by_cases hroot : isRootGroup address = true
      · have htype := determineBlockType_of_isRootGroup hroot described.isData
        refine Or.inr (Or.inr ?_)
        simp [resourceNode, OutputNode.parentId, finalParentId, htype.1, htype.2]
      · have hnot : isRootGroup address = false := Bool.eq_false_iff.2 hroot
        by_cases hvar : determineBlockType address described.isData = "var"
        · refine Or.inr (Or.inl ⟨hnot, "root_variables", by decide, ?_⟩)
          simp [resourceNode, OutputNode.parentId, finalParentId, hvar]
        · by_cases houtput : determineBlockType address described.isData = "output"
          · refine Or.inr (Or.inl ⟨hnot, "root_outputs", by decide, ?_⟩)
            simp [resourceNode, OutputNode.parentId, finalParentId, houtput]
          · refine Or.inr (Or.inr ?_)
            simp [resourceNode, OutputNode.parentId, finalParentId, hvar, houtput]

/-- A node that is in no module and has the id of a root group has no parent. -/
theorem parentId_of_isRootGroup {node : OutputNode} (h : Made description hcl node)
    (hroot : isRootGroup node.id = true) : node.parentId = none := by
  cases h with
  | @ofAddress address node h =>
      rw [(id_of_nodeOf h).1] at hroot
      rcases parentId_of_nodeOf h with ⟨path, -, hmem, -⟩ | ⟨hnot, -⟩ | hnone
      · rw [hierarchy_of_isRootGroup hroot] at hmem
        cases hmem
      · rw [hroot] at hnot
        cases hnot
      · exact hnone
  | @ofModule path h =>
      have hpath : isRootGroup path = true := hroot
      rw [h.not_isRootGroup] at hpath
      cases hpath
  | rootVariables => rfl
  | rootOutputs => rfl

/-- An id that is not that of a root group says which node it is. -/
theorem Made.eq_of_id {node other : OutputNode} (h : Made description hcl node)
    (h' : Made description hcl other) (hroot : isRootGroup node.id = false)
    (hid : node.id = other.id) : node = other := by
  cases h with
  | @ofAddress address node h =>
      rw [(id_of_nodeOf h).1] at hroot hid
      cases h' with
      | @ofAddress address' node' h' =>
          rw [(id_of_nodeOf h').1] at hid
          rw [hid] at h
          exact Option.some.inj (h.symm.trans h')
      | @ofModule path h' =>
          -- No node is made for the path of a module.
          obtain rfl : address = path := hid
          exact absurd h'.getLast? (nodeOf_eq_some_iff.1 h).2.1
      | rootVariables => exact absurd (hid ▸ hroot) (by decide)
      | rootOutputs => exact absurd (hid ▸ hroot) (by decide)
  | @ofModule path h =>
      cases h' with
      | @ofAddress address node' h' =>
          rw [(id_of_nodeOf h').1] at hid
          obtain rfl : path = address := hid
          exact absurd h.getLast? (nodeOf_eq_some_iff.1 h').2.1
      | @ofModule path' h' =>
          obtain rfl : path = path' := hid
          rfl
      | rootVariables => exact absurd (hid ▸ hroot) (by decide)
      | rootOutputs => exact absurd (hid ▸ hroot) (by decide)
  | rootVariables => exact absurd hroot (by decide)
  | rootOutputs => exact absurd hroot (by decide)

/-! ## Nesting -/

/-- The node with the id is in the group. -/
def Parent (nodes : List OutputNode) (id parent : String) : Prop :=
  ∃ node ∈ nodes, node.id = id ∧ node.parentId = some parent

/-- Paths become longer, and root groups are in no group. -/
def depth (id : String) : Nat :=
  if isRootGroup id then 0 else id.length + 1

theorem depth_of_isModule {path : String} (h : IsModule path) : depth path = path.length + 1 := by
  rw [depth, h.not_isRootGroup]
  exact if_neg Bool.false_ne_true

theorem Made.depth_lt {node : OutputNode} (h : Made description hcl node) {parent : String}
    (hparent : node.parentId = some parent) : depth parent < depth node.id := by
  cases h with
  | @ofAddress address node h =>
      rw [(id_of_nodeOf h).1]
      rcases parentId_of_nodeOf h with ⟨path, hpath, hmem, hne⟩ | ⟨hnot, id, hroot, hid⟩ | hnone
      · obtain rfl : path = parent := Option.some.inj (hpath.symm.trans hparent)
        have hnot : isRootGroup address = false := by
          refine Bool.eq_false_iff.2 fun hroot => ?_
          rw [hierarchy_of_isRootGroup hroot] at hmem
          cases hmem
        have hlength := length_lt_of_mem_hierarchy hmem hne
        rw [depth_of_isModule ⟨address, hmem⟩, depth, hnot]
        simpa using hlength
      · obtain rfl : id = parent := Option.some.inj (hid.symm.trans hparent)
        simp [depth, hroot, hnot]
      · rw [hnone] at hparent
        cases hparent
  | @ofModule path h =>
      have hpath : parentPath path = some parent := hparent
      have hself : path ∈ hierarchy path := List.mem_of_getLast? h.getLast?
      have hspec := parentPath_spec hself hpath
      have hlength : depth parent < depth path := by
        rw [depth_of_isModule h, depth_of_isModule ⟨path, hspec.1⟩]
        exact Nat.succ_lt_succ hspec.2
      exact hlength
  | rootVariables => cases hparent
  | rootOutputs => cases hparent

variable {nodes : List OutputNode}

/-- No node is in itself, at any depth. -/
theorem not_transGen_parent (hmade : ∀ node ∈ nodes, Made description hcl node) (id : String) :
    ¬ Relation.TransGen (Parent nodes) id id := by
  have hlt : ∀ a b, Relation.TransGen (Parent nodes) a b → depth b < depth a := by
    intro a b hpath
    induction hpath with
    | single hstep =>
        rcases hstep with ⟨node, hnode, rfl, hparent⟩
        exact (hmade node hnode).depth_lt hparent
    | tail _ hstep ih =>
        rcases hstep with ⟨node, hnode, rfl, hparent⟩
        exact ((hmade node hnode).depth_lt hparent).trans ih
  exact fun hcycle => lt_irrefl _ (hlt id id hcycle)

theorem exists_depth_le (nodes : List OutputNode) : ∃ bound, ∀ node ∈ nodes, depth node.id ≤ bound := by
  induction nodes with
  | nil => exact ⟨0, by simp⟩
  | cons node nodes ih =>
      rcases ih with ⟨bound, hbound⟩
      refine ⟨max (depth node.id) bound, List.forall_mem_cons.2 ⟨le_max_left _ _, ?_⟩⟩
      exact fun other hother => (hbound other hother).trans (le_max_right _ _)

/-- Where every group has something in it, there is a resource in every group. -/
theorem exists_resource_below (hmade : ∀ node ∈ nodes, Made description hcl node)
    (hstable : Shrink.Stable isKept nodes) {group : OutputNode} (hmem : group ∈ nodes)
    (hgroup : group.isGroup = true) :
    ∃ node ∈ nodes, node.isGroup = false ∧
      Relation.TransGen (Parent nodes) node.id group.id := by
  rcases exists_depth_le nodes with ⟨bound, hbound⟩
  -- Groups further in have less below them.
  induction hleft : bound - depth group.id using Nat.strong_induction_on generalizing group with
  | _ left ih =>
      rcases isKept_iff.1 (hstable group hmem) hgroup with ⟨child, hchild, hparent⟩
      have hstep : Parent nodes child.id group.id := ⟨child, hchild, rfl, hparent⟩
      by_cases hinner : child.isGroup = true
      · have hdepth := (hmade child hchild).depth_lt hparent
        have hlt : bound - depth child.id < left := by
          have := hbound child hchild
          omega
        rcases ih _ hlt hchild hinner rfl with ⟨node, hnode, hresource, hpath⟩
        exact ⟨node, hnode, hresource, hpath.tail hstep⟩
      · exact ⟨child, hchild, Bool.eq_false_iff.2 hinner, .single hstep⟩

end

end Graph
end InfraWeave
