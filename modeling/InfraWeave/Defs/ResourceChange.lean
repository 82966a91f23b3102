import InfraWeave.Defs.Json
import Mathlib.Data.List.Dedup

/-!
# Sanitized resource changes

`sanitizeResourceChangesFromPlan` reads the resource changes of a Terraform plan and keeps, for
each of them, what the change record stores: the values created or deleted with the sensitive ones
filtered out, or the compact diff of an update.

The diff walks the keys of two objects through a `HashSet`, whose iteration order Rust does not
fix.  `KeyOrder` supplies that order: each set is addressed by the object keys leading to it, and
the only promise is that the order lists the keys of the set.
-/

namespace InfraWeave
namespace ResourceChange

open OrderedMap

/-! ## Records -/

inductive ResourceMode where
  | managed
  | data
  deriving DecidableEq

inductive ResourceAction where
  | create
  | update
  | delete
  | replace
  | noOp
  deriving DecidableEq

structure DependencyChange where
  added : List String
  removed : List String
  unchanged : List String
  deriving DecidableEq

/-- The paths that changed, each with its values before and after. -/
abbrev Changes := List (String × Json)

structure SanitizedResourceChange where
  address : String
  resourceType : String
  name : String
  mode : ResourceMode
  provider : Option String
  action : ResourceAction
  actionReason : Option String
  index : Option Json
  dependsOn : Option DependencyChange
  before : Option Json
  after : Option Json
  changes : Option Changes
  deriving DecidableEq

/-! ## Created and deleted values -/

mutual

/-- `sanitize_values` once both the values and their markers are there. -/
def sanitizeValue (values sensitiveMarkers : Json) : Option Json :=
  if sensitiveMarkers.asBool = some true then none
  else
    match values, sensitiveMarkers with
    | .object valMap, .object sensMap =>
        let sanitized := sanitizeFields valMap sensMap []
        if sanitized.isEmpty then none else some (.object sanitized)
    | .array valArr, .array sensArr =>
        let sanitized := sanitizeItems valArr sensArr
        if sanitized.isEmpty then none else some (.array sanitized)
    | val, .bool false => if val.isLeaf then some val else none
    | val, .object _ => if val.isLeaf then some val else none
    | _, _ => none
termination_by structural values

def sanitizeFields :
    List (String × Json) → List (String × Json) → List (String × Json) → List (String × Json)
  | [], _, sanitized => sanitized
  | (key, val) :: rest, sensMap, sanitized =>
      match sensMap.lookup key with
      | some sensVal =>
          if sensVal.asBool = some true then sanitizeFields rest sensMap sanitized
          else
            match sanitizeValue val sensVal with
            | some sanitizedVal => sanitizeFields rest sensMap (insert key sanitizedVal sanitized)
            | none => sanitizeFields rest sensMap sanitized
      | none => sanitizeFields rest sensMap (insert key val sanitized)
termination_by structural values => values

/-- The elements zipped with their markers: elements past the last marker are dropped. -/
def sanitizeItems : List Json → List Json → List Json
  | val :: vals, sens :: senses =>
      match sanitizeValue val sens with
      | some sanitized => sanitized :: sanitizeItems vals senses
      | none => sanitizeItems vals senses
  | _, _ => []
termination_by structural values => values

end

def sanitizeValues (values sensitiveMarkers : Option Json) : Option Json :=
  match values, sensitiveMarkers with
  | some values, some sensitiveMarkers => sanitizeValue values sensitiveMarkers
  | _, _ => none

/-! ## The diff of an update -/

/-- Check if a value is marked as sensitive: the marker at its own position is `true`. -/
def isSensitive : Option Json → Bool
  | some (.bool true) => true
  | _ => false

/-- The marker of `key` inside the marker of the whole object. -/
def fieldMarker (markers : Option Json) (key : String) : Option Json :=
  (markers.bind Json.asObject).bind fun m => m.lookup key

structure KeyOrder where
  arrange : List String → List String → List String
  perm : ∀ trail keys, (arrange trail keys).Perm keys

/-- The orders used below the object key `key`. -/
def KeyOrder.under (order : KeyOrder) (key : String) : KeyOrder where
  arrange trail := order.arrange (key :: trail)
  perm trail := order.perm (key :: trail)

/-- Check all keys in both maps. -/
def allKeys (beforeMap afterMap : List (String × Json)) : List String :=
  (keys beforeMap ++ keys afterMap).dedup

def changeEntry (before after : Json) (afterUnknown : Bool) : Json :=
  .object [("after", after), ("after_unknown", .bool afterUnknown), ("before", before)]

def redacted : Json := .string "[REDACTED]"

def joinPath (path key : String) : String :=
  if path.isEmpty then key else path ++ "." ++ key

/-- The diff of a value that is waiting for the value after, its markers and the changes so far. -/
abbrev Diff :=
  KeyOrder → String → Json → Option Json → Option Json → Option Json → Changes → Changes

mutual

def diffValuesWithSensitivity (order : KeyOrder) (path : String) (before after : Json)
    (beforeSensitive afterSensitive afterUnknown : Option Json) (changes : Changes) : Changes :=
  match before, after with
  | .object beforeMap, .object afterMap =>
      let diffs := fieldDiffs beforeMap
      (order.arrange [] (allKeys beforeMap afterMap)).foldl (fun changes key =>
        match diffs.lookup key, afterMap.lookup key with
        | some (beforeVal, diff), some afterVal =>
            if beforeVal ≠ afterVal then
              diff (order.under key) (joinPath path key) afterVal (fieldMarker beforeSensitive key)
                (fieldMarker afterSensitive key) (fieldMarker afterUnknown key) changes
            else changes
        | some (beforeVal, _), none =>
            -- Key removed
            insert (joinPath path key)
              (changeEntry
                (if isSensitive (fieldMarker beforeSensitive key) then redacted else beforeVal)
                .null false)
              changes
        | none, some afterVal =>
            -- Key added
            insert (joinPath path key)
              (changeEntry .null
                (if isSensitive (fieldMarker afterSensitive key) then redacted else afterVal)
                (isSensitive (fieldMarker afterUnknown key)))
              changes
        | none, none => changes) changes
  | before, after =>
      -- Arrays are stored whole, like primitive values; so are values whose type changes.
      if before ≠ after then
        if isSensitive beforeSensitive || isSensitive afterSensitive then
          insert path (changeEntry redacted redacted (isSensitive afterUnknown)) changes
        else
          insert path (changeEntry before after (isSensitive afterUnknown)) changes
      else changes

/-- The fields of the map before, each with the recursive call on its value. -/
def fieldDiffs : List (String × Json) → List (String × (Json × Diff))
  | [] => []
  | (key, val) :: rest =>
      (key, val, fun order path after beforeSensitive afterSensitive afterUnknown changes =>
        diffValuesWithSensitivity order path val after beforeSensitive afterSensitive afterUnknown
          changes) :: fieldDiffs rest

end

/-- What the diff of two objects does with one of their keys. -/
def diffKey (order : KeyOrder) (path : String) (beforeMap afterMap : List (String × Json))
    (beforeSensitive afterSensitive afterUnknown : Option Json) (changes : Changes)
    (key : String) : Changes :=
  match beforeMap.lookup key, afterMap.lookup key with
  | some beforeVal, some afterVal =>
      if beforeVal ≠ afterVal then
        diffValuesWithSensitivity (order.under key) (joinPath path key) beforeVal afterVal
          (fieldMarker beforeSensitive key) (fieldMarker afterSensitive key)
          (fieldMarker afterUnknown key) changes
      else changes
  | some beforeVal, none =>
      insert (joinPath path key)
        (changeEntry
          (if isSensitive (fieldMarker beforeSensitive key) then redacted else beforeVal)
          .null false)
        changes
  | none, some afterVal =>
      insert (joinPath path key)
        (changeEntry .null
          (if isSensitive (fieldMarker afterSensitive key) then redacted else afterVal)
          (isSensitive (fieldMarker afterUnknown key)))
        changes
  | none, none => changes

theorem lookup_fieldDiffs (key : String) (m : List (String × Json)) :
    (fieldDiffs m).lookup key = (m.lookup key).map fun val =>
      (val, fun order path after beforeSensitive afterSensitive afterUnknown changes =>
        diffValuesWithSensitivity order path val after beforeSensitive afterSensitive afterUnknown
          changes) := by
  induction m with
  | nil => simp [fieldDiffs]
  | cons entry rest ih =>
      rcases entry with ⟨l, val⟩
      by_cases h : key = l
      · simp [fieldDiffs, h]
      · simp [fieldDiffs, lookup_cons_ite, h, ih]

/-- The diff of two objects folds `diffKey` over their keys. -/
theorem diff_objects (order : KeyOrder) (path : String) (beforeMap afterMap : List (String × Json))
    (beforeSensitive afterSensitive afterUnknown : Option Json) (changes : Changes) :
    diffValuesWithSensitivity order path (.object beforeMap) (.object afterMap) beforeSensitive
        afterSensitive afterUnknown changes =
      (order.arrange [] (allKeys beforeMap afterMap)).foldl
        (diffKey order path beforeMap afterMap beforeSensitive afterSensitive afterUnknown)
        changes := by
  rw [diffValuesWithSensitivity]
  congr 1
  funext acc key
  rw [lookup_fieldDiffs, diffKey]
  cases beforeMap.lookup key <;> cases afterMap.lookup key <;> rfl

/-- Unless both values are objects, a difference is stored whole. -/
theorem diff_whole (order : KeyOrder) (path : String) {before after : Json}
    (h : before.asObject = none ∨ after.asObject = none)
    (beforeSensitive afterSensitive afterUnknown : Option Json) (changes : Changes) :
    diffValuesWithSensitivity order path before after beforeSensitive afterSensitive afterUnknown
        changes =
      if before = after then changes
      else if isSensitive beforeSensitive || isSensitive afterSensitive then
        insert path (changeEntry redacted redacted (isSensitive afterUnknown)) changes
      else insert path (changeEntry before after (isSensitive afterUnknown)) changes := by
  by_cases hba : before = after
  · cases before <;> cases after <;>
      simp_all [diffValuesWithSensitivity, Json.asObject]
  · cases before <;> cases after <;>
      simp_all [diffValuesWithSensitivity, Json.asObject]

def computeChangesWithSensitivity (order : KeyOrder) (before after : Option Json)
    (beforeSensitive afterSensitive afterUnknown : Option Json) : Option Changes :=
  match before, after with
  | some beforeVal, some afterVal =>
      let changes := diffValuesWithSensitivity order "" beforeVal afterVal beforeSensitive
        afterSensitive afterUnknown []
      if changes.isEmpty then none else some changes
  | _, _ => none

/-! ## Reading the plan -/

/-- `serde_json::from_value::<ResourceMode>`, with the default for anything else. -/
def parseMode : Option Json → ResourceMode
  | some (.string "data") => .data
  | some (.object [("data", .null)]) => .data
  | _ => .managed

def strings (deps : Option Json) : List String :=
  ((deps.bind Json.asArray).getD []).filterMap Json.asStr

def computeDependencyChange (beforeDependsOn afterDependsOn : Option Json) :
    Option DependencyChange :=
  let beforeDeps := strings beforeDependsOn
  let afterDeps := strings afterDependsOn
  if beforeDeps.isEmpty && afterDeps.isEmpty then none
  else
    let added := afterDeps.filter fun dep => !beforeDeps.contains dep
    let removed := beforeDeps.filter fun dep => !afterDeps.contains dep
    let unchanged := afterDeps.filter fun dep => beforeDeps.contains dep
    if added.isEmpty && removed.isEmpty && unchanged.isEmpty then none
    else some { added, removed, unchanged }

def parseAction (actions : List String) : ResourceAction :=
  if actions.contains "delete" && actions.contains "create" then .replace
  else if actions.contains "delete" then .delete
  else if actions.contains "create" then .create
  else if actions.contains "update" then .update
  else .noOp

def fromTerraformJson (order : KeyOrder) (resource : Json) : Option SanitizedResourceChange := do
  let address ← (← resource.get? "address").asStr
  let resourceType ← (← resource.get? "type").asStr
  let name ← (← resource.get? "name").asStr
  let change ← resource.get? "change"
  let actions ← (← change.get? "actions").asArray
  let action := parseAction (actions.filterMap Json.asStr)
  let (before, after, changes) :=
    match action with
    | .update | .replace =>
        (none, none,
          computeChangesWithSensitivity order (change.get? "before") (change.get? "after")
            (change.get? "before_sensitive") (change.get? "after_sensitive")
            (change.get? "after_unknown"))
    | .create => (none, sanitizeValues (change.get? "after") (change.get? "after_sensitive"), none)
    | .delete =>
        (sanitizeValues (change.get? "before") (change.get? "before_sensitive"), none, none)
    | .noOp => (none, none, none)
  some {
    address, resourceType, name
    mode := parseMode (resource.get? "mode")
    provider := (resource.get? "provider_name").bind Json.asStr
    action
    actionReason := (resource.get? "action_reason").bind Json.asStr
    index := resource.get? "index"
    dependsOn := computeDependencyChange (change.get? "before_depends_on")
      (change.get? "after_depends_on")
    before, after, changes }

/-- `sanitize_resource_changes`; the `i`-th change is walked in the key orders `orders i`. -/
def sanitizeResourceChanges (orders : Nat → KeyOrder) (resourceChanges : Json) :
    List SanitizedResourceChange :=
  match resourceChanges.asArray with
  | some changes => changes.zipIdx.filterMap fun (resource, i) => fromTerraformJson (orders i) resource
  | none => []

def changesKey (refreshOnly : Bool) : String :=
  if refreshOnly then "resource_drift" else "resource_changes"

def sanitizeResourceChangesFromPlan (orders : Nat → KeyOrder) (planJson : Json)
    (refreshOnly : Bool) : List SanitizedResourceChange :=
  ((planJson.get? (changesKey refreshOnly)).map (sanitizeResourceChanges orders)).getD []

end ResourceChange
end InfraWeave
