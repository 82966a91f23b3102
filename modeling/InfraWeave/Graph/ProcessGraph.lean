import InfraWeave.Graph.Configuration
import InfraWeave.Graph.Hierarchy
import InfraWeave.Graph.Simplification

/-!
# The graph of a plan

`processGraph` makes the graph that is shown from a plan and from the text of its graph.  What is
read from files, the blocks of the source code, is a parameter, and so are the orders in which maps
iterate.
-/

namespace InfraWeave
namespace Graph

/-! ## Plans -/

structure StateResource where
  address : String
  values : Option Json

inductive StateModule where
  | mk (resources : List StateResource) (childModules : List StateModule)

structure StateValues where
  rootModule : StateModule

structure State where
  values : Option StateValues

/-- Lists and maps that are missing are empty. -/
structure Plan where
  resourceChanges : List ResourceChange
  outputChanges : List (String × Change)
  configuration : Option ModuleConfig
  priorState : Option State
  plannedValues : Option State
  values : Option StateValues

mutual

def collectStateResources : StateModule → List StateResource
  | .mk resources childModules => resources ++ collectChildResources childModules

def collectChildResources : List StateModule → List StateResource
  | [] => []
  | child :: children => collectStateResources child ++ collectChildResources children

end

def collectStateAddresses (module : StateModule) : List String :=
  (collectStateResources module).map StateResource.address

/-- Of two resources with one address, the later counts. -/
def collectStateValues (module : StateModule) : List (String × Json) :=
  OrderedMap.collect <| (collectStateResources module).filterMap fun res =>
    res.values.map (res.address, ·)

/-! ## Maps of a plan -/

/-- What `\[[^\]]+\]$` matches after its first bracket. -/
def isTrailingIndex (rest : List Char) : Bool :=
  rest.getLast? = some ']' && !rest.dropLast.isEmpty && ']' ∉ rest.dropLast

/-- `index_strip_regex.replace(address, "")`. -/
def stripIndex : List Char → List Char
  | [] => []
  | c :: cs => if c = '[' && isTrailingIndex cs then [] else c :: stripIndex cs

/-- `entry(address).or_default().push(change)`. -/
def pushChange (address : String) (change : ResourceChange)
    (resourceMap : List (String × List ResourceChange)) : List (String × List ResourceChange) :=
  InsertionOrder.upsert address [change] (· ++ [change]) resourceMap

/-- A change is found by its address, and by the address without an index. -/
def indexChange (resourceMap : List (String × List ResourceChange)) (change : ResourceChange) :
    List (String × List ResourceChange) :=
  let resourceMap := pushChange change.address change resourceMap
  let base := String.ofList (stripIndex change.address.toList)
  if base ≠ change.address then pushChange base change resourceMap else resourceMap

def stateAddresses (state : Option State) : List String :=
  match state.bind State.values with
  | some values => collectStateAddresses values.rootModule
  | none => []

def planMaps (plan : Plan) : PlanMaps where
  resourceMap := plan.resourceChanges.foldl indexChange []
  outputMap := plan.outputChanges
  stateValuesMap := plan.values.elim [] fun values => collectStateValues values.rootModule
  activePlanAddresses :=
    (plan.values.elim [] fun values => collectStateAddresses values.rootModule) ++
      plan.resourceChanges.map ResourceChange.address ++ stateAddresses plan.priorState ++
      stateAddresses plan.plannedValues

/-! ## The graph -/

structure OutputEdge where
  id : String
  source : String
  target : String
  attributes : Option (List String)
  deriving DecidableEq

structure OutputGraph where
  nodes : List OutputNode
  edges : List OutputEdge

/-- The order in which a map or a set iterates. -/
structure HashOrder where
  arrange : {α : Type} → List α → List α
  perm : ∀ {α : Type} (l : List α), (arrange l).Perm l

structure HashOrders where
  dotIds : HashOrder
  configDeps : HashOrder
  nodeTypes : HashOrder
  currentEdges : HashOrder
  uniqueNodes : HashOrder

def HashOrder.asListed : HashOrder where
  arrange l := l
  perm l := .refl l

def HashOrders.asListed : HashOrders :=
  ⟨.asListed, .asListed, .asListed, .asListed, .asListed⟩

/-- The types of the resources among the nodes. -/
def nodeTypes (nodes : List OutputNode) : List (String × String) :=
  OrderedMap.collect <| (nodes.filter fun node => !node.isGroup).map fun node =>
    (node.id, node.data.nodeType)

/-- The arguments of every edge, by source and target. -/
def currentEdges (configDeps : EdgeAttributes) (simplifiedEdges : List SimplifiedEdge) :
    EdgeAttributes :=
  simplifiedEdges.foldl (fun edges edge =>
    let arguments := edgeArguments configDeps edge.dependent edge.via
    InsertionOrder.upsert (edge.dependency, edge.dependent) arguments (· ++ arguments) edges) []

/-- Edges are numbered from one on. -/
def outputEdges (edges : EdgeAttributes) : List OutputEdge :=
  edges.zipIdx.map fun (entry, i) =>
    let attributes := sortDedup entry.2
    { id := "e_" ++ toString (i + 1)
      source := entry.1.1
      target := entry.1.2
      attributes := if attributes.isEmpty then none else some attributes }

/-- Outputs of modules are hidden, and resources that are neither active nor at an edge. -/
def isVisible (activeNodes nodesInEdges : List String) (node : OutputNode) : Bool :=
  node.isGroup ||
    !(node.data.nodeType = "output" && !startsWith node.id "output.") &&
      (activeNodes.contains node.id || nodesInEdges.contains node.id)

/-- The last filter of the groups. -/
def isNeeded (nodes : List OutputNode) (activeNodes : List String) (node : OutputNode) : Bool :=
  let activeNodeIds := (nodes.filter fun node => !node.isGroup).map OutputNode.id
  node.isGroup = false || activeNodeIds.any (fun id => startsWith id (node.id ++ ".")) ||
    activeNodes.contains node.id || (parentIds nodes).contains node.id

/-- The nodes that are shown, each id once. -/
def visibleNodes (activeNodes nodesInEdges : List String) (nodes : List OutputNode) :
    List OutputNode :=
  let nodes := pruneGroups (nodes.filter (isVisible activeNodes nodesInEdges))
  (nodes.filter (isNeeded nodes activeNodes)).foldl (InsertionOrder.addFirst OutputNode.id) []

/-- The ids that edges name. -/
def allDotIds (rawEdges : List (String × String)) : List String :=
  (rawEdges.flatMap fun edge => [edge.1, edge.2]).dedup

def configDeps (plan : Plan) : EdgeAttributes :=
  plan.configuration.elim [] (traverseConfiguration "" [])

/-- The nodes without those that are pruned first. -/
def keptNodes (pairs : List (String × String)) (nodes : List OutputNode) : List OutputNode :=
  addRootGroups (pruneGroups (pruneUnreached (collectEdges pairs) nodes))

/-- The dependencies of the graph and of the outputs. -/
def graphDeps (pairs : List (String × String)) (configDeps : EdgeAttributes) :
    List (String × List String) :=
  collectEdges ((pairs.filter fun pair => pair.1 ≠ pair.2) ++ configPairs configDeps)

section

variable (orders : HashOrders) (configDeps : EdgeAttributes) (pairs : List (String × String))
  (nodes : List OutputNode)

/-- The edges behind variables, locals and outputs. -/
def graphEdges : Simplified :=
  let types := nodeTypes (keptNodes pairs nodes)
  simplify (graphDeps pairs (orders.configDeps.arrange configDeps)) types
    (orders.nodeTypes.arrange types)

/-- The graph of nodes and edges. -/
def assembleGraph : OutputGraph :=
  let simplified := graphEdges orders configDeps pairs nodes
  let edges := currentEdges configDeps simplified.edges
  let nodesInEdges := edges.flatMap fun entry => [entry.1.1, entry.1.2]
  { nodes := orders.uniqueNodes.arrange
      (visibleNodes simplified.activeNodes nodesInEdges (keptNodes pairs nodes))
    edges := outputEdges (orders.currentEdges.arrange edges) }

end

/-- None where the source panics. -/
def processGraph (plan : Plan) (dotContent : String) (includeValues : Bool)
    (hcl : String → Option String) (orders : HashOrders) : Option OutputGraph :=
  let (rawNodes, rawEdges) := parseDot dotContent
  let dotIds := orders.dotIds.arrange (allDotIds rawEdges)
  (buildNodes (describe (planMaps plan) includeValues) hcl rawNodes dotIds).map fun b =>
    assembleGraph orders (configDeps plan) (addressPairs (b.dotNodeToAddress.lookup ·) rawEdges)
      b.finalNodes

/-! ## Panics -/

theorem foldlM_addExplicit_eq_none_iff {description : String → Option Described}
    {hcl : String → Option String} (rawNodes : List (String × String)) (b : Building) :
    rawNodes.foldlM (addExplicit description hcl) b = none ↔
      ∃ entry ∈ rawNodes, cleanLabel entry.2 = none := by
  induction rawNodes generalizing b with
  | nil => simp
  | cons entry rest ih =>
      rw [List.foldlM_cons, List.exists_mem_cons_iff]
      cases hlabel : cleanLabel entry.2 with
      | none => simp [addExplicit, hlabel]
      | some address =>
          have hstep : addExplicit description hcl b entry =
              some (addNode description hcl b entry.1 address) := by simp [addExplicit, hlabel]
          rw [hstep]
          simpa using ih (addNode description hcl b entry.1 address)

/-- Making a graph panics exactly when the label of a node is a single quotation mark, whatever the
plan says. -/
theorem processGraph_eq_none_iff (plan : Plan) (dotContent : String) (includeValues : Bool)
    (hcl : String → Option String) (orders : HashOrders) :
    processGraph plan dotContent includeValues hcl orders = none ↔
      ∃ entry ∈ (parseDot dotContent).1, Text.trim entry.2 = "\"" := by
  simp only [processGraph, buildNodes, Option.map_eq_none_iff, foldlM_addExplicit_eq_none_iff,
    cleanLabel_eq_none_iff]

end Graph
end InfraWeave
