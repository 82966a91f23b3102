import InfraWeave.Defs.Hcl
import InfraWeave.Defs.Infra
import InfraWeave.Defs.JsonText
import InfraWeave.Defs.Module
import Mathlib.Data.String.Basic

/-!
# Variable and output blocks

The blocks of a module are read into records, the records are stored as JSON, and the blocks of a
stack are written from them again.  A type and the value of an output are kept as the text of an
expression, a default is kept as JSON.
-/

namespace InfraWeave

/-! ## Values of expressions -/

namespace Hcl

/-- The name that a key has in a map; `key` gives those of computed keys. -/
def ObjectKey.name (key : String → String) : ObjectKey → String
  | .identifier name => name
  | .quoted text => text
  | .computed text => key text

def ObjectKey.isLiteral : ObjectKey → Bool
  | .computed _ => false
  | _ => true

def BlockLabel.asStr : BlockLabel → String
  | .identifier name => name
  | .string text => text

namespace Expression

def asBool : Expression → Option Bool
  | .bool b => some b
  | _ => none

theorem asBool_eq_some_iff {e : Expression} {b : Bool} : e.asBool = some b ↔ e = .bool b := by
  cases e <;> simp [asBool]

section

variable (computed : String → Json) (key : String → String)

mutual

/-- The value of an expression; `computed` gives those of computed parts. -/
def value : Expression → Json
  | .null => .null
  | .bool b => .bool b
  | .number n => .number n
  | .string s => .string s
  | .array items => .array (valueItems items)
  | .object fields => .ofFields (valueFields fields)
  | .computed text => computed text

def valueItems : List Expression → List Json
  | [] => []
  | item :: items => value item :: valueItems items

def valueFields : List (ObjectKey × Expression) → List (String × Json)
  | [] => []
  | (k, e) :: fields => (k.name key, value e) :: valueFields fields

end

end

section

variable (objectKey : String → ObjectKey)

mutual

/-- `to_expression` of a JSON value. -/
def ofJson : Json → Expression
  | .null => .null
  | .bool b => .bool b
  | .number n => .number n
  | .string s => .string s
  | .array items => .array (ofJsonItems items)
  | .object fields => .object (ofJsonFields fields)

def ofJsonItems : List Json → List Expression
  | [] => []
  | item :: items => ofJson item :: ofJsonItems items

def ofJsonFields : List (String × Json) → List (ObjectKey × Expression)
  | [] => []
  | (k, v) :: fields => (objectKey k, ofJson v) :: ofJsonFields fields

end

end

section

variable {computed computed' : String → Json} {key key' : String → String}
  {objectKey : String → ObjectKey}

theorem valueFields_ofJsonFields (hkey : ∀ s, (objectKey s).name key = s)
    (fields : List (String × Json)) :
    valueFields computed key (ofJsonFields objectKey fields) =
      fields.map fun field => (field.1, value computed key (ofJson objectKey field.2)) := by
  induction fields with
  | nil => rfl
  | cons field fields ih =>
      rw [ofJsonFields, valueFields, hkey, ih]
      rfl

/-- Values of fields that come back one by one come back as an object. -/
theorem value_ofJson_ofFields (hkey : ∀ s, (objectKey s).name key = s)
    {fields : List (String × Json)}
    (h : ∀ field ∈ fields, value computed key (ofJson objectKey field.2) = field.2) :
    value computed key (ofJson objectKey (.ofFields fields)) = .ofFields fields := by
  have hsorted : OrderedMap.collect (OrderedMap.collect fields) = OrderedMap.collect fields :=
    OrderedMap.collect_of_perm (OrderedMap.pairwise_collect fields) (List.Perm.refl _)
  have hvalues : (OrderedMap.collect fields).map
      (fun field => (field.1, value computed key (ofJson objectKey field.2))) =
        OrderedMap.collect fields := by
    conv_rhs => rw [← List.map_id (OrderedMap.collect fields)]
    refine List.map_congr_left fun field hfield => Prod.ext rfl ?_
    exact h field (OrderedMap.mem_of_mem_collect hfield)
  calc
    value computed key (ofJson objectKey (.ofFields fields))
        = .ofFields (valueFields computed key
            (ofJsonFields objectKey (OrderedMap.collect fields))) := rfl
    _ = .ofFields (OrderedMap.collect fields) := by
          rw [valueFields_ofJsonFields hkey, hvalues]
    _ = .ofFields fields := congrArg Json.object hsorted

mutual

/-- What has been made a JSON value is the value of the expression that is made of it. -/
theorem value_ofJson_value (hcomputed : ∀ text, ∃ s, computed text = .string s)
    (hkey : ∀ s, (objectKey s).name key' = s) (e : Expression) :
    value computed' key' (ofJson objectKey (value computed key e)) = value computed key e := by
  cases e with
  | null => rfl
  | bool b => rfl
  | number n => rfl
  | string s => rfl
  | array items =>
      change Json.array _ = Json.array _
      rw [valueItems_ofJson_value hcomputed hkey items]
  | object fields => exact value_ofJson_ofFields hkey (value_ofJson_of_mem hcomputed hkey fields)
  | computed text =>
      rcases hcomputed text with ⟨s, hs⟩
      rw [value, hs]
      rfl

theorem valueItems_ofJson_value (hcomputed : ∀ text, ∃ s, computed text = .string s)
    (hkey : ∀ s, (objectKey s).name key' = s) (items : List Expression) :
    valueItems computed' key' (ofJsonItems objectKey (valueItems computed key items)) =
      valueItems computed key items := by
  cases items with
  | nil => rfl
  | cons item items =>
      simp only [valueItems, ofJsonItems]
      rw [value_ofJson_value hcomputed hkey item, valueItems_ofJson_value hcomputed hkey items]

theorem value_ofJson_of_mem (hcomputed : ∀ text, ∃ s, computed text = .string s)
    (hkey : ∀ s, (objectKey s).name key' = s) (fields : List (ObjectKey × Expression)) :
    ∀ field ∈ valueFields computed key fields,
      value computed' key' (ofJson objectKey field.2) = field.2 := by
  cases fields with
  | nil => simp [valueFields]
  | cons entry fields =>
      intro field hfield
      rcases List.mem_cons.1 hfield with rfl | hfield
      · exact value_ofJson_value hcomputed hkey entry.2
      · exact value_ofJson_of_mem hcomputed hkey fields field hfield

end

end

/-! ### Literals -/

mutual

/-- Nothing in the expression is computed. -/
def isLiteral : Expression → Bool
  | .array items => isLiteralItems items
  | .object fields => isLiteralFields fields
  | .computed _ => false
  | _ => true

def isLiteralItems : List Expression → Bool
  | [] => true
  | item :: items => isLiteral item && isLiteralItems items

def isLiteralFields : List (ObjectKey × Expression) → Bool
  | [] => true
  | (k, e) :: fields => k.isLiteral && isLiteral e && isLiteralFields fields

end

section

variable {computed computed' : String → Json} {key key' : String → String}

mutual

/-- What is not computed has one value. -/
theorem value_eq_of_isLiteral (e : Expression) (h : e.isLiteral = true) :
    value computed key e = value computed' key' e := by
  cases e with
  | array items => exact congrArg Json.array (valueItems_eq_of_isLiteral items h)
  | object fields => exact congrArg Json.ofFields (valueFields_eq_of_isLiteral fields h)
  | computed text => cases h
  | _ => rfl

theorem valueItems_eq_of_isLiteral (items : List Expression) (h : isLiteralItems items = true) :
    valueItems computed key items = valueItems computed' key' items := by
  cases items with
  | nil => rfl
  | cons item items =>
      have hparts := Bool.and_eq_true_iff.1 h
      rw [valueItems, valueItems, value_eq_of_isLiteral item hparts.1,
        valueItems_eq_of_isLiteral items hparts.2]

theorem valueFields_eq_of_isLiteral (fields : List (ObjectKey × Expression))
    (h : isLiteralFields fields = true) :
    valueFields computed key fields = valueFields computed' key' fields := by
  cases fields with
  | nil => rfl
  | cons entry fields =>
      have hparts := Bool.and_eq_true_iff.1 h
      have hentry := Bool.and_eq_true_iff.1 hparts.1
      have hname : entry.1.name key = entry.1.name key' := by
        cases hk : entry.1 with
        | computed text => simp [hk, ObjectKey.isLiteral] at hentry
        | _ => rfl
      rw [valueFields, valueFields, hname, value_eq_of_isLiteral entry.2 hentry.2,
        valueFields_eq_of_isLiteral fields hparts.2]

end

end

end Expression

/-! ## The crate -/

/-- The parser and the printer of the `hcl` crate, and its conversions.  An expression that has been
parsed is parsed again from the text that it is printed as. -/
structure Crate where
  print : Expression → String
  parse : String → Option Expression
  parse_print : ∀ s e, parse s = some e → parse (print e) = some e
  parse_empty : parse "" = none
  parse_any : parse "any" = some (.computed "any")
  print_any : print (.computed "any") = "any"
  computedText : String → String
  keyText : String → String
  objectKey : String → ObjectKey
  objectKey_plain : ∀ s, objectKey s = .identifier s ∨ objectKey s = .quoted s
  debugLabels : List BlockLabel → String
  floatText : Rat → String

namespace Crate

variable (crate : Crate)

/-- The conversion to a plain value: what is computed becomes the text of its template. -/
def toJson (e : Expression) : Json :=
  e.value (fun text => .string (crate.computedText text)) crate.keyText

def toExpression (v : Json) : Expression :=
  .ofJson crate.objectKey v

theorem name_objectKey (key : String → String) (s : String) :
    (crate.objectKey s).name key = s := by
  rcases crate.objectKey_plain s with h | h
  · rw [h]
    rfl
  · rw [h]
    rfl

end Crate

def Block.expr? (block : Block) (key : String) : Option Expression :=
  (block.attributes.find? fun a => a.key = key).map Attribute.expr

end Hcl

open Hcl (Block Crate Expression)

/-! ## Variables -/

namespace TfVariable

section

variable (crate : Crate)

def ofName (name : String) : TfVariable where
  name := name
  type := .string "any"
  default := none
  description := ""
  nullable := true
  sensitive := false

def readAttribute (var : TfVariable) (attr : Hcl.Attribute) : Except String TfVariable :=
  if attr.key = "type" then .ok { var with type := .string (crate.print attr.expr) }
  else if attr.key = "default" then .ok { var with default := some (crate.toJson attr.expr) }
  else if attr.key = "description" then
    .ok { var with description := (crate.toJson attr.expr).asStr.getD "" }
  else if attr.key = "nullable" then
    match attr.expr with
    | .bool b => .ok { var with nullable := b }
    | _ => .error "nullable must be a bool"
  else if attr.key = "sensitive" then
    match attr.expr with
    | .bool b => .ok { var with sensitive := b }
    | _ => .error "sensitive must be a bool"
  else .ok var

def tryFrom (block : Block) : Except String TfVariable :=
  if block.identifier ≠ "variable" then .error "Block is not a variable block"
  else
    match block.labels with
    | [label] => block.attributes.foldlM (readAttribute crate) (ofName label.asStr)
    | labels =>
        .error ("Variable block should have exactly one label, got " ++ crate.debugLabels labels)

def typeText (v : TfVariable) : String :=
  match v.type with
  | .string s => s
  | other => other.toText crate.floatText

/-- A type that is no expression ends the process. -/
def toAttributes (v : TfVariable) : Option (List Hcl.Attribute) :=
  (crate.parse (v.typeText crate)).map fun typeExpr =>
    [⟨"type", typeExpr⟩, ⟨"description", .string v.description⟩] ++
      (v.default.map fun value => ⟨"default", crate.toExpression value⟩).toList ++
      [⟨"nullable", .bool v.nullable⟩, ⟨"sensitive", .bool v.sensitive⟩]

def toBlock (v : TfVariable) : Option Block :=
  (v.toAttributes crate).map fun attributes =>
    { identifier := "variable"
      labels := [.string v.name]
      attributes
      blocks := [] }

end

/-! ### As JSON -/

/-- A missing default is left out; one that is null is written. -/
def toJson (v : TfVariable) : Json :=
  .ofFields ([("name", .string v.name), ("type", v.type)] ++
    (v.default.map fun value => ("default", value)).toList ++
    [("description", .string v.description), ("nullable", .bool v.nullable),
      ("sensitive", .bool v.sensitive)])

def ofJson (v : Json) : Option TfVariable := do
  let name ← (v.get? "name").bind Json.asStr
  let description ← (v.get? "description").elim (some "") Json.asStr
  let nullable ← (v.get? "nullable").elim (some true) Json.asBool
  let sensitive ← (v.get? "sensitive").elim (some false) Json.asBool
  some ⟨name, (v.get? "type").getD (.string "any"), v.get? "default", description, nullable,
    sensitive⟩

theorem ofJson_toJson (v : TfVariable) : ofJson v.toJson = some v := by
  rcases v with ⟨name, type, default, description, nullable, sensitive⟩
  cases default with
  | none =>
      simp [ofJson, toJson, Json.get?_ofFields, OrderedMap.lookup_cons_ite, Json.asBool, Json.asStr]
  | some value =>
      simp [ofJson, toJson, Json.get?_ofFields, OrderedMap.lookup_cons_ite, Json.asBool, Json.asStr]

end TfVariable

/-! ## Outputs -/

namespace TfOutput

section

variable (crate : Crate)

/-- Of a block without labels, and of a description that is no text, the process ends. -/
def fromBlock (block : Block) : Option (Except String TfOutput) :=
  if block.identifier ≠ "output" then some (.error "Block is not an output block")
  else if block.labels.length > 1 then
    some (.error ("Output block should have a single label! " ++ crate.debugLabels block.labels))
  else
    block.labels.head?.bind fun label =>
      ((block.expr? "description").elim (some "") fun e => (crate.toJson e).asStr).map
        fun description => .ok
          { name := label.asStr
            value := (block.expr? "value").elim "" crate.print
            description
            sensitive := (block.expr? "sensitive").bind Expression.asBool }

def toAttributes (o : TfOutput) : Option (List Hcl.Attribute) :=
  (crate.parse o.value).map fun value =>
    [⟨"description", .string o.description⟩, ⟨"value", value⟩] ++
      (o.sensitive.map fun b => ⟨"sensitive", .bool b⟩).toList

/-- A value that is no expression ends the process. -/
def toBlock (o : TfOutput) : Option Block :=
  (o.toAttributes crate).map fun attributes =>
    { identifier := "output"
      labels := [.string o.name]
      attributes
      blocks := [] }

end

def toJson (o : TfOutput) : Json :=
  .ofFields
    [("name", .string o.name), ("value", .string o.value),
      ("description", .string o.description),
      ("sensitive", (o.sensitive.map Json.bool).getD .null)]

/-- A missing sensitivity is read as null. -/
def ofJson (v : Json) : Option TfOutput := do
  let name ← (v.get? "name").bind Json.asStr
  let value ← (v.get? "value").bind Json.asStr
  let description ← (v.get? "description").bind Json.asStr
  let sensitive ←
    match v.get? "sensitive" with
    | none => some none
    | some .null => some none
    | some w => w.asBool.map some
  some ⟨name, value, description, sensitive⟩

theorem ofJson_toJson (o : TfOutput) : ofJson o.toJson = some o := by
  rcases o with ⟨name, value, description, sensitive⟩
  cases sensitive with
  | none =>
      simp [ofJson, toJson, Json.get?_ofFields, OrderedMap.lookup_cons_ite, Json.asStr]
  | some b =>
      simp [ofJson, toJson, Json.get?_ofFields, OrderedMap.lookup_cons_ite, Json.asBool, Json.asStr]

end TfOutput
end InfraWeave
