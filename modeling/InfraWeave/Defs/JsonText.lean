import InfraWeave.Defs.Json
import InfraWeave.Lib.Text

/-!
# The text of a JSON value

`serde_json::to_string`: no blanks, the fields in the order of the map, and in a string an escape
for the quote, the backslash and the control characters.  The text of a double is left open.
-/

namespace InfraWeave

/-- The characters of a string inside its quotes. -/
def escapedChar (c : Char) : List Char :=
  match c with
  | '"' => ['\\', '"']
  | '\\' => ['\\', '\\']
  | '\x08' => ['\\', 'b']
  | '\x0c' => ['\\', 'f']
  | '\n' => ['\\', 'n']
  | '\r' => ['\\', 'r']
  | '\t' => ['\\', 't']
  | c =>
      if c.toNat < 0x20 then
        ['\\', 'u', '0', '0', Nat.digitChar (c.toNat / 16), Nat.digitChar (c.toNat % 16)]
      else [c]

def stringText (s : String) : List Char :=
  '"' :: s.toList.flatMap escapedChar ++ ['"']

def JsonNumber.text (floatText : Rat → String) : JsonNumber → List Char
  | .int n => (toString n).toList
  | .float value => (floatText value).toList

namespace Json

variable (floatText : Rat → String)

mutual

def text : Json → List Char
  | .null => ['n', 'u', 'l', 'l']
  | .bool true => ['t', 'r', 'u', 'e']
  | .bool false => ['f', 'a', 'l', 's', 'e']
  | .number n => n.text floatText
  | .string s => stringText s
  | .array items => '[' :: textItems items ++ [']']
  | .object fields => '\x7b' :: textFields fields ++ ['\x7d']

def textItems : List Json → List Char
  | [] => []
  | [v] => text v
  | v :: w :: items => text v ++ ',' :: textItems (w :: items)

def textFields : List (String × Json) → List Char
  | [] => []
  | [(key, v)] => stringText key ++ ':' :: text v
  | (key, v) :: field :: fields => stringText key ++ ':' :: text v ++ ',' :: textFields (field :: fields)

end

/-- `serde_json::to_string`. -/
def toText (v : Json) : String :=
  .ofList (v.text floatText)

end Json
end InfraWeave
