import InfraWeave.Graph.Dot
import InfraWeave.Graph.ModulePaths
import InfraWeave.Graph.Resolution
import InfraWeave.Graph.Values

/-!
# Nodes

A node is made from an address of the graph and from what the plan says about it, and with it the
groups of the modules that it lies in.  What is made for an address does not depend on what has been
made before.
-/

namespace InfraWeave
namespace Graph

open Text (split)

/-! ## The plan -/

structure Change where
  actions : List String
  after : Option Json
  afterUnknown : Option Json
  afterSensitive : Option Json

structure ResourceChange where
  address : String
  mode : Option String
  change : Change

/-- What the plan says about addresses. -/
structure PlanMaps where
  resourceMap : List (String × List ResourceChange)
  outputMap : List (String × Change)
  stateValuesMap : List (String × Json)
  activePlanAddresses : List String

/-! ## Data of nodes -/

structure OutputNodeData where
  label : String
  nodeType : String
  action : Option String
  count : Option Nat
  hcl : Option String
  values : Option Json
  deriving DecidableEq

structure OutputNodeStyle where
  backgroundColor : String
  border : String
  zIndex : Int
  deriving DecidableEq

structure OutputNodePosition where
  x : Int
  y : Int
  deriving DecidableEq

inductive OutputNode where
  | group (id : String) (data : OutputNodeData) (position : OutputNodePosition)
      (style : OutputNodeStyle) (parentId : Option String)
  | resource (id : String) (parentId : Option String) (data : OutputNodeData)
      (position : OutputNodePosition)
  deriving DecidableEq

namespace OutputNode

def id : OutputNode → String
  | group id _ _ _ _ => id
  | resource id _ _ _ => id

def parentId : OutputNode → Option String
  | group _ _ _ _ parentId => parentId
  | resource _ parentId _ _ => parentId

def data : OutputNode → OutputNodeData
  | group _ data _ _ _ => data
  | resource _ _ data _ => data

def isGroup : OutputNode → Bool
  | group _ _ _ _ _ => true
  | resource _ _ _ _ => false

end OutputNode

/-- What a node shows of the plan. -/
structure Described where
  action : Option String
  isData : Bool
  count : Option Nat
  values : Option Json

/-- `sort`, then `join(", ")`. -/
def joinActions (actions : List String) : String :=
  ", ".intercalate (actions.mergeSort fun a b => decide (a ≤ b))

def processChange (change : Change) : Option Json :=
  processValues change.after change.afterUnknown change.afterSensitive

/-- The changes of one address, which are several when it has indices. -/
def describeChanges (includeValues : Bool) (changes : List ResourceChange) : Described :=
  let distinctActions := (changes.flatMap fun c => c.change.actions).dedup
  let distinctActions :=
    if 1 < distinctActions.length ∧ "no-op" ∈ distinctActions then
      distinctActions.filter (· ≠ "no-op")
    else distinctActions
  let collectedValues :=
    if includeValues then changes.filterMap fun c => processChange c.change else []
  { action := some (joinActions distinctActions)
    isData := changes.any fun c => c.mode = some "data"
    count :=
      if changes.length > 1 || changes.any fun c => c.address.toList.getLast? = some ']' then
        some changes.length
      else none
    values :=
      match collectedValues with
      | [] => none
      | [value] => some value
      | values => some (.array values) }

/-- `trim_start_matches`. -/
def trimStartMatches (start : List Char) : Nat → List Char → List Char
  | 0, cs => cs
  | n + 1, cs =>
      if start.isPrefixOf cs then trimStartMatches start n (cs.drop start.length) else cs

def describeOutput (maps : PlanMaps) (includeValues : Bool) (address : String) : Described :=
  let chars := address.toList
  let key := String.ofList (trimStartMatches "output.".toList chars.length chars)
  match maps.outputMap.lookup key with
  | some change =>
      ⟨some (joinActions change.actions), false, none,
        if includeValues then processChange change else none⟩
  | none => ⟨some "no-op", false, none, none⟩

/-- The part of `create_node` that finds the action, the count and the values; none where no node is
made. -/
def describe (maps : PlanMaps) (includeValues : Bool) (address : String) : Option Described :=
  match maps.resourceMap.lookup address with
  | some changes => some (describeChanges includeValues changes)
  | none =>
      match maps.stateValuesMap.lookup address with
      | some stateVal =>
          let values := if includeValues then some stateVal else none
          if determineBlockType address false = "data" then some ⟨some "read", true, none, values⟩
          else some ⟨none, false, none, values⟩
      | none =>
          if startsWith address "output." then some (describeOutput maps includeValues address)
          else
            let tempType := determineBlockType address false
            if tempType = "data" then
              if address ∈ maps.activePlanAddresses then some ⟨some "read", true, none, none⟩
              else none
            else if isIntermediate tempType then some ⟨some "n/a", false, none, none⟩
            else none

/-! ## Making nodes -/

/-- The nodes made so far. -/
structure Building where
  dotNodeToAddress : List (String × String)
  knownModules : List String
  finalNodes : List OutputNode

def moduleGroup (path : String) (parentId : Option String) : OutputNode :=
  .group path ⟨path, "module", none, none, none, none⟩ ⟨0, 0⟩
    ⟨"rgba(56, 139, 253, 0.05)", "1px dashed #388bfd", -1⟩ parentId

/-- The group of a module is made when the module comes first. -/
def addModule (b : Building) (entry : Option String × String) : Building :=
  if entry.2 ∈ b.knownModules then b
  else
    { b with
      knownModules := entry.2 :: b.knownModules
      finalNodes := b.finalNodes ++ [moduleGroup entry.2 entry.1] }

def extractParentModules (address : String) (b : Building) : Option String × Building :=
  ((hierarchy address).getLast?, (modulesWithParents address).foldl addModule b)

/-- Root variables and root outputs are grouped. -/
def finalParentId (nodeType : String) (parentId : Option String) : Option String :=
  match parentId with
  | some path => some path
  | none =>
      if nodeType = "var" then some "root_variables"
      else if nodeType = "output" then some "root_outputs"
      else none

def resourceNode (address : String) (described : Described) (hcl : Option String)
    (parentId : Option String) : OutputNode :=
  let nodeType := determineBlockType address described.isData
  let action :=
    if nodeType = "data" && described.action.isNone then some "read" else described.action
  .resource address (finalParentId nodeType parentId)
    ⟨address, nodeType, action, described.count, hcl, described.values⟩ ⟨0, 0⟩

def isNoise (address : String) : Bool :=
  address = "root" || startsWith address "provider[" || startsWith address "meta."

def createNode (description : String → Option Described) (address : String) (hcl : Option String)
    (b : Building) : Option OutputNode × Building :=
  if isNoise address then (none, b)
  else
    let (parentId, b) := extractParentModules address b
    if parentId = some address then (none, b)
    else
      match description address with
      | some described => (some (resourceNode address described hcl parentId), b)
      | none => (none, b)

/-! ## Nodes of the graph -/

section

variable (description : String → Option Described) (hcl : String → Option String)

/-- A node for an id of the graph. -/
def addNode (b : Building) (dotId address : String) : Building :=
  match createNode description address (hcl address) b with
  | (some node, b) =>
      { b with
        dotNodeToAddress := (dotId, address) :: b.dotNodeToAddress
        finalNodes := b.finalNodes ++ [node] }
  | (none, b) => b

/-- An explicit node, with its label. -/
def addExplicit (b : Building) (entry : String × String) : Option Building :=
  (cleanLabel entry.2).map (addNode description hcl b entry.1)

/-- A node that only edges name. -/
def addImplicit (b : Building) (dotId : String) : Building :=
  if (b.dotNodeToAddress.lookup dotId).isSome then b
  else addNode description hcl b dotId (parseDotId dotId)

def buildNodes (rawNodes : List (String × String)) (dotIds : List String) : Option Building :=
  (rawNodes.foldlM (addExplicit description hcl) ⟨[], [], []⟩).map fun b =>
    dotIds.foldl (addImplicit description hcl) b

end

/-! ## The node of an address -/

section

variable (description : String → Option Described) (hcl : String → Option String)

/-- What is made for an address, whatever has been made before. -/
def nodeOf (address : String) : Option OutputNode :=
  if isNoise address ∨ (hierarchy address).getLast? = some address then none
  else
    (description address).map fun described =>
      resourceNode address described (hcl address) (hierarchy address).getLast?

/-- The groups that are made on the way. -/
def withModules (address : String) (b : Building) : Building :=
  if isNoise address then b else (modulesWithParents address).foldl addModule b

variable {description hcl}

theorem createNode_eq (address : String) (b : Building) :
    createNode description address (hcl address) b =
      (nodeOf description hcl address, withModules address b) := by
  unfold createNode nodeOf withModules extractParentModules
  by_cases hnoise : isNoise address = true
  · simp [hnoise]
  · by_cases hlast : (hierarchy address).getLast? = some address
    · simp [hnoise, hlast]
    · cases hdescription : description address with
      | none => simp [hnoise, hlast]
      | some described => simp [hnoise, hlast]

theorem addNode_eq (b : Building) (dotId address : String) :
    addNode description hcl b dotId address =
      { withModules address b with
        dotNodeToAddress :=
          ((nodeOf description hcl address).map fun _ => (dotId, address)).toList ++
            (withModules address b).dotNodeToAddress
        finalNodes := (withModules address b).finalNodes ++
          (nodeOf description hcl address).toList } := by
  unfold addNode
  rw [createNode_eq]
  cases nodeOf description hcl address with
  | none => simp
  | some node => rfl

theorem nodeOf_eq_some_iff {address : String} {node : OutputNode} :
    nodeOf description hcl address = some node ↔
      isNoise address = false ∧ (hierarchy address).getLast? ≠ some address ∧
        ∃ described, description address = some described ∧
          node = resourceNode address described (hcl address) (hierarchy address).getLast? := by
  unfold nodeOf
  by_cases hnoise : isNoise address = true
  · simp [hnoise]
  · by_cases hlast : (hierarchy address).getLast? = some address
    · simp [hlast]
    · simp [hnoise, hlast, eq_comm]

/-- A node has the address as its id, and it is no group. -/
theorem id_of_nodeOf {address : String} {node : OutputNode}
    (h : nodeOf description hcl address = some node) :
    node.id = address ∧ node.isGroup = false := by
  rcases nodeOf_eq_some_iff.1 h with ⟨-, -, described, -, rfl⟩
  exact ⟨rfl, rfl⟩

end

/-! ## What has been made -/

/-- The nodes made for the addresses: one for each address that has a node, and the groups of the
modules on the way to any of them. -/
structure Built (description : String → Option Described) (hcl : String → Option String)
    (addresses : List String) (b : Building) : Prop where
  known : ∀ path, path ∈ b.knownModules ↔
    ∃ address ∈ addresses, isNoise address = false ∧ path ∈ hierarchy address
  nodes : ∀ node, node ∈ b.finalNodes ↔
    (∃ address ∈ addresses, nodeOf description hcl address = some node) ∨
      ∃ path ∈ b.knownModules, node = moduleGroup path (parentPath path)

section

variable {description : String → Option Described} {hcl : String → Option String}

/-- The groups of all known modules are there, and no others. -/
def GroupsOf (b b' : Building) (paths : List String) : Prop :=
  (∀ path, path ∈ b'.knownModules ↔ path ∈ b.knownModules ∨ path ∈ paths) ∧
    (∀ node, node ∈ b'.finalNodes ↔ node ∈ b.finalNodes ∨
      ∃ path ∈ paths, path ∉ b.knownModules ∧ node = moduleGroup path (parentPath path)) ∧
    b'.dotNodeToAddress = b.dotNodeToAddress

theorem groupsOf_addModule (b : Building) {entry : Option String × String}
    (hparent : entry.1 = parentPath entry.2) : GroupsOf b (addModule b entry) [entry.2] := by
  unfold addModule
  split
  · rename_i hknown
    refine ⟨fun path => ?_, fun node => ?_, rfl⟩
    · constructor
      · exact Or.inl
      · rintro (h | h)
        · exact h
        · exact List.mem_singleton.1 h ▸ hknown
    · simp [hknown]
  · rename_i hnew
    refine ⟨fun path => ?_, fun node => ?_, rfl⟩
    · simp [or_comm]
    · simp [hnew, hparent]

theorem GroupsOf.trans {b b' b'' : Building} {xs ys : List String} (h : GroupsOf b b' xs)
    (h' : GroupsOf b' b'' ys) : GroupsOf b b'' (xs ++ ys) := by
  refine ⟨fun path => ?_, fun node => ?_, h'.2.2.trans h.2.2⟩
  · rw [h'.1, h.1, List.mem_append, or_assoc]
  · rw [h'.2.1, h.2.1]
    constructor
    · rintro ((hold | ⟨path, hpath, hnew, rfl⟩) | ⟨path, hpath, hnew, rfl⟩)
      · exact Or.inl hold
      · exact Or.inr ⟨path, List.mem_append_left _ hpath, hnew, rfl⟩
      · rw [h.1, not_or] at hnew
        exact Or.inr ⟨path, List.mem_append_right _ hpath, hnew.1, rfl⟩
    · rintro (hold | ⟨path, hpath, hnew, rfl⟩)
      · exact Or.inl (Or.inl hold)
      · by_cases hxs : path ∈ xs
        · exact Or.inl (Or.inr ⟨path, hxs, hnew, rfl⟩)
        · refine Or.inr ⟨path, (List.mem_append.1 hpath).resolve_left hxs, ?_, rfl⟩
          rw [h.1, not_or]
          exact ⟨hnew, hxs⟩

theorem groupsOf_foldl (entries : List (Option String × String))
    (hparent : ∀ entry ∈ entries, entry.1 = parentPath entry.2) (b : Building) :
    GroupsOf b (entries.foldl addModule b) (entries.map Prod.snd) := by
  induction entries generalizing b with
  | nil => exact ⟨fun path => by simp, fun node => by simp, rfl⟩
  | cons entry entries ih =>
      rcases List.forall_mem_cons.1 hparent with ⟨hentry, hrest⟩
      exact (groupsOf_addModule b hentry).trans (ih hrest (addModule b entry))

theorem groupsOf_withModules (address : String) (b : Building) :
    GroupsOf b (withModules address b) (if isNoise address then [] else hierarchy address) := by
  unfold withModules
  split
  · exact ⟨fun path => by simp, fun node => by simp, rfl⟩
  · rw [← map_snd_modulesWithParents]
    exact groupsOf_foldl _ (fun entry hentry => (parentPath_of_mem hentry).2) b

/-- One more address. -/
theorem Built.addNode {addresses : List String} {b : Building}
    (h : Built description hcl addresses b) (dotId address : String) :
    Built description hcl (addresses ++ [address]) (addNode description hcl b dotId address) := by
  have hgroups := groupsOf_withModules address b
  rw [addNode_eq]
  have hknown : ∀ path, path ∈ (withModules address b).knownModules ↔
      ∃ a ∈ addresses ++ [address], isNoise a = false ∧ path ∈ hierarchy a := by
    intro path
    rw [hgroups.1, h.known]
    by_cases hnoise : isNoise address = true
    · simp [hnoise, or_and_right, exists_or]
    · simp [hnoise, or_and_right, exists_or]
  refine ⟨hknown, fun node => ?_⟩
  have hmade : node ∈ (nodeOf description hcl address).toList ↔
      nodeOf description hcl address = some node := by
    simp [Option.mem_toList]
  dsimp only
  rw [List.mem_append, hgroups.2.1, h.nodes, hmade]
  simp only [List.mem_append, List.mem_singleton, or_and_right, exists_or, exists_eq_left]
  constructor
  · rintro (((hold | ⟨path, hpath, rfl⟩) | ⟨path, hpath, -, rfl⟩) | hnew)
    · exact Or.inl (Or.inl hold)
    · exact Or.inr ⟨path, (hgroups.1 path).2 (Or.inl hpath), rfl⟩
    · exact Or.inr ⟨path, (hgroups.1 path).2 (Or.inr hpath), rfl⟩
    · exact Or.inl (Or.inr hnew)
  · rintro ((hold | hnew) | ⟨path, hpath, rfl⟩)
    · exact Or.inl (Or.inl (Or.inl hold))
    · exact Or.inr hnew
    · by_cases hbefore : path ∈ b.knownModules
      · exact Or.inl (Or.inl (Or.inr ⟨path, hbefore, rfl⟩))
      · have hadded := ((hgroups.1 path).1 hpath).resolve_left hbefore
        exact Or.inl (Or.inr ⟨path, hadded, hbefore, rfl⟩)

theorem built_empty : Built description hcl [] ⟨[], [], []⟩ :=
  ⟨fun path => by simp, fun node => by simp⟩

theorem lookup_addNode (b : Building) (dotId address d : String) :
    (addNode description hcl b dotId address).dotNodeToAddress.lookup d =
      if d = dotId ∧ (nodeOf description hcl address).isSome then some address
      else b.dotNodeToAddress.lookup d := by
  have hgroups := groupsOf_withModules address b
  rw [addNode_eq]
  dsimp only
  rw [hgroups.2.2]
  cases nodeOf description hcl address with
  | none => simp
  | some node =>
      simp only [Option.map_some, Option.toList_some, List.singleton_append, Option.isSome_some,
        and_true]
      exact OrderedMap.lookup_cons_ite d dotId address _

end

/-! ## All nodes of a graph -/

section

variable (description : String → Option Described) (hcl : String → Option String)

/-- The address, if it has a node. -/
def withNode (address : String) : Option String :=
  if (nodeOf description hcl address).isSome then some address else none

/-- The address of an id that the explicit nodes give. -/
def explicitAddress (rawNodes : List (String × String)) (dotId : String) : Option String :=
  rawNodes.reverse.findSome? fun entry =>
    if entry.1 = dotId then (cleanLabel entry.2).bind (withNode description hcl) else none

def dotAddress (rawNodes : List (String × String)) (dotId : String) : Option String :=
  (explicitAddress description hcl rawNodes dotId).or (withNode description hcl (parseDotId dotId))

/-- The addresses that are looked at. -/
def addresses (rawNodes : List (String × String)) (dotIds : List String) : List String :=
  rawNodes.filterMap (fun entry => cleanLabel entry.2) ++
    (dotIds.filter fun d => (explicitAddress description hcl rawNodes d).isNone).map parseDotId

variable {description hcl}

theorem withNode_eq_some_iff {address a : String} :
    withNode description hcl address = some a ↔
      address = a ∧ ∃ node, nodeOf description hcl a = some node := by
  unfold withNode
  split
  · rename_i h
    rw [Option.isSome_iff_exists] at h
    simp only [Option.some.injEq]
    exact ⟨fun heq => ⟨heq, heq ▸ h⟩, And.left⟩
  · rename_i h
    simp only [reduceCtorEq, false_iff]
    rintro ⟨rfl, node, hnode⟩
    exact h (by simp [hnode])

theorem explicitAddress_append (rawNodes : List (String × String)) (entry : String × String)
    (d : String) :
    explicitAddress description hcl (rawNodes ++ [entry]) d =
      ((if entry.1 = d then (cleanLabel entry.2).bind (withNode description hcl) else none).or
        (explicitAddress description hcl rawNodes d)) := by
  simp [explicitAddress, List.findSome?_cons]
  cases (if entry.1 = d then (cleanLabel entry.2).bind (withNode description hcl) else none) <;> rfl

/-- The first loop. -/
theorem spec_addExplicit {rawNodes : List (String × String)} {b : Building}
    (h : rawNodes.foldlM (addExplicit description hcl) ⟨[], [], []⟩ = some b) :
    Built description hcl (rawNodes.filterMap fun entry => cleanLabel entry.2) b ∧
      ∀ d, b.dotNodeToAddress.lookup d = explicitAddress description hcl rawNodes d := by
  induction rawNodes using List.reverseRecOn generalizing b with
  | nil =>
      obtain rfl := Option.some.inj h
      exact ⟨built_empty, fun d => rfl⟩
  | append_singleton rawNodes entry ih =>
      rw [List.foldlM_append] at h
      rcases Option.bind_eq_some_iff.1 h with ⟨before, hbefore, hlast⟩
      simp only [List.foldlM_cons, List.foldlM_nil, bind_pure] at hlast
      rcases Option.map_eq_some_iff.1 hlast with ⟨address, haddress, rfl⟩
      rcases ih hbefore with ⟨hbuilt, hlookup⟩
      constructor
      · have hfilter : (rawNodes ++ [entry]).filterMap (fun entry => cleanLabel entry.2) =
            rawNodes.filterMap (fun entry => cleanLabel entry.2) ++ [address] := by
          simp [List.filterMap_append, haddress]
        rw [hfilter]
        exact hbuilt.addNode entry.1 address
      · intro d
        rw [lookup_addNode, hlookup, explicitAddress_append, haddress, Option.bind_some, withNode]
        by_cases hd : entry.1 = d
        · by_cases hnode : (nodeOf description hcl address).isSome = true
          · simp [hd, hnode]
          · simp [hd, hnode]
        · have hne : d ≠ entry.1 := fun heq => hd heq.symm
          simp [hd, hne]

/-- The second loop, part way through. -/
structure Implicit (description : String → Option Described) (hcl : String → Option String)
    (rawNodes : List (String × String)) (done : List String) (b : Building) : Prop where
  built : Built description hcl (addresses description hcl rawNodes done) b
  lookup : ∀ d, b.dotNodeToAddress.lookup d =
    if d ∈ done then dotAddress description hcl rawNodes d
    else explicitAddress description hcl rawNodes d

theorem Implicit.addImplicit {rawNodes : List (String × String)} {done : List String}
    {b : Building} (h : Implicit description hcl rawNodes done b) {dotId : String}
    (hnew : dotId ∉ done) :
    Implicit description hcl rawNodes (done ++ [dotId]) (addImplicit description hcl b dotId) := by
  have hexplicit := h.lookup dotId
  rw [if_neg hnew] at hexplicit
  unfold Graph.addImplicit
  rw [hexplicit]
  by_cases hsome : (explicitAddress description hcl rawNodes dotId).isSome = true
  · rw [if_pos hsome]
    rcases Option.isSome_iff_exists.1 hsome with ⟨address, haddress⟩
    refine ⟨?_, fun d => ?_⟩
    · have hsame : addresses description hcl rawNodes (done ++ [dotId]) =
          addresses description hcl rawNodes done := by
        simp [addresses, haddress]
      rw [hsame]
      exact h.built
    · rw [h.lookup]
      by_cases hd : d = dotId
      · simp [hd, hnew, dotAddress, haddress]
      · simp [hd]
  · rw [if_neg hsome]
    have hnone : explicitAddress description hcl rawNodes dotId = none := by simpa using hsome
    refine ⟨?_, fun d => ?_⟩
    · have hmore : addresses description hcl rawNodes (done ++ [dotId]) =
          addresses description hcl rawNodes done ++ [parseDotId dotId] := by
        simp [addresses, hnone]
      rw [hmore]
      exact h.built.addNode dotId _
    · rw [lookup_addNode, h.lookup]
      by_cases hd : d = dotId
      · subst hd
        by_cases hnode : (nodeOf description hcl (parseDotId d)).isSome = true
        · simp [dotAddress, withNode, hnone, hnode]
        · simp [dotAddress, withNode, hnone, hnode, hnew]
      · simp [hd]

theorem implicit_foldl {rawNodes : List (String × String)} (rest : List String) :
    ∀ {done : List String} {b : Building}, Implicit description hcl rawNodes done b →
      (done ++ rest).Nodup → Implicit description hcl rawNodes (done ++ rest)
        (rest.foldl (Graph.addImplicit description hcl) b) := by
  induction rest with
  | nil =>
      intro done b h _
      simpa using h
  | cons dotId rest ih =>
      intro done b h hnodup
      have hnew : dotId ∉ done := fun hmem =>
        (List.nodup_append.1 hnodup).2.2 dotId hmem dotId List.mem_cons_self rfl
      have hrest := ih (h.addImplicit hnew) (by simpa using hnodup)
      rwa [List.append_assoc, List.singleton_append] at hrest

/-- The nodes of a graph are those of its addresses, and every id leads to its address. -/
theorem spec_buildNodes {rawNodes : List (String × String)} {dotIds : List String} {b : Building}
    (hnodup : dotIds.Nodup) (h : buildNodes description hcl rawNodes dotIds = some b) :
    Built description hcl (addresses description hcl rawNodes dotIds) b ∧
      ∀ d ∈ dotIds, b.dotNodeToAddress.lookup d = dotAddress description hcl rawNodes d := by
  rcases Option.map_eq_some_iff.1 h with ⟨before, hbefore, rfl⟩
  have hexplicit := spec_addExplicit hbefore
  have hstart : Implicit description hcl rawNodes [] before :=
    ⟨by simpa [addresses] using hexplicit.1, by simpa using hexplicit.2⟩
  have hrun := implicit_foldl dotIds hstart (by simpa using hnodup)
  rw [List.nil_append] at hrun
  refine ⟨hrun.built, fun d hd => ?_⟩
  rw [hrun.lookup, if_pos hd]

end

end Graph
end InfraWeave
