import InfraWeave.Defs.Json
import InfraWeave.Graph.Resolution
import InfraWeave.Lib.InsertionOrder

/-!
# References of the configuration

The configuration of a plan says which arguments of a resource refer to what, and what the outputs
refer to.  The text of a graph may leave the edges of outputs out; they are added from here.  Maps
are listed in the order in which they iterate, and a map that is missing is empty.
-/

namespace InfraWeave
namespace Graph

open Text (split)

/-! ## The configuration -/

structure ResourceConfig where
  address : String
  expressions : List (String × Json)
  countExpression : Option Json
  forEachExpression : Option Json

inductive ModuleConfig where
  | mk (resources : List ResourceConfig) (outputs : List (String × Option Json))
      (moduleCalls : List (String × Option ModuleConfig))

/-- The arguments that make one address refer to another. -/
abbrev EdgeAttributes := List ((String × String) × List String)

/-! ## References -/

mutual

def extractReferences : Json → List String
  | .object fields =>
      let direct :=
        match fields.lookup "references" with
        | some (.array refs) => refs.filterMap Json.asStr
        | _ => []
      direct ++ extractFieldReferences fields
  | .array items => extractItemReferences items
  | _ => []

def extractFieldReferences : List (String × Json) → List String
  | [] => []
  | (_, v) :: fields => extractReferences v ++ extractFieldReferences fields

def extractItemReferences : List Json → List String
  | [] => []
  | v :: items => extractReferences v ++ extractItemReferences items

end

def joinDots (parts : List String) : String :=
  ".".intercalate parts

/-- The part before a bracket. -/
def beforeBracket (part : String) : String :=
  .ofList (part.toList.takeWhile (· ≠ '['))

/-- A reference without the attributes that it names. -/
def stripAttributePath (reference : String) : String :=
  match split '.' reference with
  | first :: second :: rest =>
      if first = "module" || first = "var" || first = "local" then reference
      else if first = "data" then
        match rest with
        | third :: _ => joinDots [first, second, beforeBracket third]
        | [] => reference
      else joinDots [first, beforeBracket second]
  | _ => reference

/-- An address in the module with the path. -/
def inModule (parentPath address : String) : String :=
  if parentPath = "" then address else parentPath ++ "." ++ address

/-- A reference to a resource is one to a resource of the module. -/
def qualifyReference (parentPath reference : String) : String :=
  if parentPath ≠ "" && !startsWith reference "module." && !startsWith reference "var." &&
      !startsWith reference "local." && !startsWith reference "output." &&
      !startsWith reference "data." then
    parentPath ++ "." ++ reference
  else reference

/-- References that another one begins with are left out. -/
def longestReferences (references : List String) : List String :=
  references.filter fun a =>
    !references.any fun b => startsWith b (a ++ ".") && b ≠ a

/-! ## Going through the modules -/

/-- `entry((dependent, reference)).or_default().insert(argument)`. -/
def addAttribute (dependent argument : String) (edgeAttributes : EdgeAttributes)
    (reference : String) : EdgeAttributes :=
  InsertionOrder.upsert (dependent, reference) [argument]
    (fun arguments => if argument ∈ arguments then arguments else arguments ++ [argument])
    edgeAttributes

def addReferences (dependent argument : String) (edgeAttributes : EdgeAttributes) (v : Json) :
    EdgeAttributes :=
  (extractReferences v).foldl (addAttribute dependent argument) edgeAttributes

def addResource (parentPath : String) (edgeAttributes : EdgeAttributes) (res : ResourceConfig) :
    EdgeAttributes :=
  let fullAddress := inModule parentPath res.address
  let edgeAttributes := res.expressions.foldl
    (fun edgeAttributes expr => addReferences fullAddress expr.1 edgeAttributes expr.2)
    edgeAttributes
  let edgeAttributes := res.countExpression.elim edgeAttributes
    (addReferences fullAddress "count" edgeAttributes)
  res.forEachExpression.elim edgeAttributes (addReferences fullAddress "for_each" edgeAttributes)

def addOutput (parentPath : String) (edgeAttributes : EdgeAttributes)
    (output : String × Option Json) : EdgeAttributes :=
  let fullAddress := inModule parentPath ("output." ++ output.1)
  match output.2 with
  | some expr =>
      let references := (longestReferences (extractReferences expr)).map fun reference =>
        qualifyReference parentPath (stripAttributePath reference)
      references.foldl (addAttribute fullAddress "value") edgeAttributes
  | none => edgeAttributes

mutual

def traverseConfiguration (parentPath : String) (edgeAttributes : EdgeAttributes) :
    ModuleConfig → EdgeAttributes
  | .mk resources outputs moduleCalls =>
      let edgeAttributes := resources.foldl (addResource parentPath) edgeAttributes
      let edgeAttributes := outputs.foldl (addOutput parentPath) edgeAttributes
      traverseCalls parentPath edgeAttributes moduleCalls

def traverseCalls (parentPath : String) (edgeAttributes : EdgeAttributes) :
    List (String × Option ModuleConfig) → EdgeAttributes
  | [] => edgeAttributes
  | (name, some submodule) :: calls =>
      traverseCalls parentPath
        (traverseConfiguration (inModule parentPath ("module." ++ name)) edgeAttributes submodule)
        calls
  | (_, none) :: calls => traverseCalls parentPath edgeAttributes calls

end

/-! ## Edges of outputs -/

/-- The text before the last occurrence of a part. -/
def beforeLast (part : List Char) : List Char → Option (List Char)
  | [] => none
  | c :: cs =>
      match beforeLast part cs with
      | some before => some (c :: before)
      | none => if part.isPrefixOf (c :: cs) then some [] else none

/-- The module that an output is in; none at the root. -/
def outputScope (dependent : String) : String :=
  .ofList ((beforeLast ".output.".toList dependent.toList).getD [])

/-- The parts after the leading modules. -/
def afterModules : List String → List String
  | part :: name :: rest => if part = "module" then afterModules rest else part :: name :: rest
  | parts => parts

/-- What an output refers to, as an address of the graph. -/
def normalizedTarget (dependent refTarget : String) : String :=
  let scope := outputScope dependent
  let qualifiedTarget :=
    if scope ≠ "" && startsWith refTarget "module." then
      if startsWith refTarget (scope ++ ".") || refTarget = scope then refTarget
      else scope ++ "." ++ refTarget
    else refTarget
  if startsWith qualifiedTarget "module." then
    let parts := split '.' qualifiedTarget
    let isResourceRef := 2 ≤ (afterModules parts).length
    if !isResourceRef && "output" ∉ parts then
      joinDots (parts.dropLast ++ ["output"] ++ parts.getLast?.toList)
    else qualifiedTarget
  else qualifiedTarget

def isOutput (dependent : String) : Bool :=
  startsWith dependent "output." || Text.contains dependent ".output."

/-- The edges of outputs that the configuration has. -/
def configPairs (configDeps : EdgeAttributes) : List (String × String) :=
  configDeps.filterMap fun entry =>
    if isOutput entry.1.1 then some (entry.1.1, normalizedTarget entry.1.1 entry.1.2) else none

/-! ## Arguments of edges -/

/-- The leading modules of an address. -/
def leadingModules : List String → List String
  | part :: name :: rest =>
      if part = "module" then part :: name :: leadingModules rest else []
  | _ => []

def dependentScope (dependent : String) : String :=
  joinDots (leadingModules (split '.' dependent))

/-- The rest after `start` is an attribute or an index. -/
def isChildOf (child start : String) : Bool :=
  startsWith child start &&
    match child.toList.drop start.toList.length with
    | c :: _ => c = '.' || c = '['
    | [] => false

def matchesReference (viaNode qualifiedRef : String) : Bool :=
  if viaNode = qualifiedRef then true
  else if startsWith qualifiedRef viaNode then isChildOf qualifiedRef viaNode
  else isChildOf viaNode qualifiedRef

/-- The arguments of the dependent that refer to the node. -/
def edgeArguments (configDeps : EdgeAttributes) (dependent viaNode : String) : List String :=
  let scope := dependentScope dependent
  configDeps.flatMap fun entry =>
    if entry.1.1 = dependent && matchesReference viaNode (inModule scope entry.1.2) then entry.2
    else []

end Graph
end InfraWeave
