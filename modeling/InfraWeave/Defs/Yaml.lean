import InfraWeave.Defs.Json

/-!
# YAML values

`Yaml` is `serde_yaml::Value` as far as it has a JSON form: converting a mapping with any other key
to JSON ends the process.  A number that is no finite double has the JSON form `null`.
-/

namespace InfraWeave

inductive YamlKey where
  | string (s : String)
  | bool (b : Bool)
  | number (n : JsonNumber)
  deriving DecidableEq

inductive Yaml where
  | null
  | bool (b : Bool)
  | number (n : JsonNumber)
  | notFinite
  | string (s : String)
  | sequence (values : List Yaml)
  | mapping (entries : List (YamlKey × Yaml))
  | tagged (tag : String) (value : Yaml)

/-- `serde_yaml::Mapping`. -/
abbrev YamlMapping :=
  List (YamlKey × Yaml)

/-- `Mapping::get` with a text. -/
def YamlMapping.get? (key : String) (mapping : YamlMapping) : Option Yaml :=
  mapping.lookup (.string key)

namespace YamlKey

def asStr : YamlKey → Option String
  | string s => some s
  | _ => none

/-- The key of the JSON form. -/
def text (numberText : JsonNumber → String) : YamlKey → String
  | string s => s
  | bool true => "true"
  | bool false => "false"
  | number n => numberText n

end YamlKey

namespace Yaml

section

variable (numberText : JsonNumber → String)

mutual

/-- `serde_json::to_value`. -/
def toJson : Yaml → Json
  | null => .null
  | bool b => .bool b
  | number n => .number n
  | notFinite => .null
  | string s => .string s
  | sequence values => .array (itemsToJson values)
  | mapping entries => .ofFields (fieldsToJson entries)
  | tagged tag value => .object [("!" ++ tag, toJson value)]

def itemsToJson : List Yaml → List Json
  | [] => []
  | value :: values => toJson value :: itemsToJson values

def fieldsToJson : List (YamlKey × Yaml) → List (String × Json)
  | [] => []
  | (key, value) :: entries => (key.text numberText, toJson value) :: fieldsToJson entries

end

end

/-! ## Texts -/

mutual

/-- The texts in a value, at every depth; the keys of mappings are not among them. -/
def texts : Yaml → List String
  | string s => [s]
  | sequence values => itemTexts values
  | mapping entries => fieldTexts entries
  | tagged _ value => texts value
  | _ => []

def itemTexts : List Yaml → List String
  | [] => []
  | value :: values => texts value ++ itemTexts values

def fieldTexts : List (YamlKey × Yaml) → List String
  | [] => []
  | (_, value) :: entries => texts value ++ fieldTexts entries

end

end Yaml
end InfraWeave
