import InfraWeave.Defs.Json

/-!
# HCL bodies

What is read from Terraform files: blocks of attributes and blocks.  A key of an object is a plain
identifier, a quoted text or something that is computed; a plain key and a quoted one are different
keys of a map, though they name the same.
-/

namespace InfraWeave
namespace Hcl

inductive ObjectKey where
  | identifier (name : String)
  | quoted (text : String)
  | computed (text : String)
  deriving DecidableEq

/-- Everything that is computed is known by its text. -/
inductive Expression where
  | null
  | bool (b : Bool)
  | number (n : JsonNumber)
  | string (s : String)
  | array (items : List Expression)
  | object (fields : List (ObjectKey × Expression))
  | computed (text : String)

abbrev Object :=
  List (ObjectKey × Expression)

namespace Expression

mutual

def decEq : (v w : Expression) → Decidable (v = w)
  | .null, .null => isTrue rfl
  | .bool a, .bool b => decidable_of_iff (a = b) (by simp)
  | .number a, .number b => decidable_of_iff (a = b) (by simp)
  | .string a, .string b => decidable_of_iff (a = b) (by simp)
  | .computed a, .computed b => decidable_of_iff (a = b) (by simp)
  | .array xs, .array ys => @decidable_of_iff _ _ (by simp) (decEqItems xs ys)
  | .object fs, .object gs => @decidable_of_iff _ _ (by simp) (decEqFields fs gs)
  | .null, .bool _ | .null, .number _ | .null, .string _ | .null, .array _ | .null, .object _
  | .null, .computed _ | .bool _, .null | .bool _, .number _ | .bool _, .string _
  | .bool _, .array _ | .bool _, .object _ | .bool _, .computed _ | .number _, .null
  | .number _, .bool _ | .number _, .string _ | .number _, .array _ | .number _, .object _
  | .number _, .computed _ | .string _, .null | .string _, .bool _ | .string _, .number _
  | .string _, .array _ | .string _, .object _ | .string _, .computed _ | .array _, .null
  | .array _, .bool _ | .array _, .number _ | .array _, .string _ | .array _, .object _
  | .array _, .computed _ | .object _, .null | .object _, .bool _ | .object _, .number _
  | .object _, .string _ | .object _, .array _ | .object _, .computed _ | .computed _, .null
  | .computed _, .bool _ | .computed _, .number _ | .computed _, .string _ | .computed _, .array _
  | .computed _, .object _ => isFalse (by simp)

def decEqItems : (xs ys : List Expression) → Decidable (xs = ys)
  | [], [] => isTrue rfl
  | [], _ :: _ => isFalse (by simp)
  | _ :: _, [] => isFalse (by simp)
  | x :: xs, y :: ys =>
      @decidable_of_iff _ (x = y ∧ xs = ys) (by simp)
        (@instDecidableAnd _ _ (decEq x y) (decEqItems xs ys))

def decEqFields : (fs gs : List (ObjectKey × Expression)) → Decidable (fs = gs)
  | [], [] => isTrue rfl
  | [], _ :: _ => isFalse (by simp)
  | _ :: _, [] => isFalse (by simp)
  | (k, v) :: fs, (l, w) :: gs =>
      @decidable_of_iff _ (k = l ∧ v = w ∧ fs = gs) (by simp [and_assoc])
        (@instDecidableAnd _ _ (inferInstanceAs (Decidable (k = l)))
          (@instDecidableAnd _ _ (decEq v w) (decEqFields fs gs)))

end

instance : DecidableEq Expression := decEq

def asText : Expression → Option String
  | .string s => some s
  | _ => none

def asObject : Expression → Option Object
  | .object fields => some fields
  | _ => none

/-- The items of an array, and nothing of what is no array. -/
def items : Expression → List Expression
  | .array items => items
  | _ => []

end Expression

structure Attribute where
  key : String
  expr : Expression
  deriving DecidableEq

inductive BlockLabel where
  | identifier (name : String)
  | string (text : String)
  deriving DecidableEq

/-- The attributes and the blocks of a body, each in their order. -/
structure Block where
  identifier : String
  labels : List BlockLabel
  attributes : List Attribute
  blocks : List Block

/-! ## Objects -/

namespace Object

/-- The values that are given under a name, plain and quoted. -/
def named (m : Object) (name : String) : List Expression :=
  (m.lookup (.identifier name)).toList ++ (m.lookup (.quoted name)).toList

theorem mem_named {m : Object} {name : String} {e : Expression} :
    e ∈ m.named name ↔
      m.lookup (.identifier name) = some e ∨ m.lookup (.quoted name) = some e := by
  simp [named, Option.mem_toList, eq_comm]

end Object

end Hcl
end InfraWeave
