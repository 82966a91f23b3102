import InfraWeave.Lib.OrderedMap
import Mathlib.Data.List.Induction
import Mathlib.Data.Rat.Defs
import Mathlib.Logic.Basic

/-!
# JSON values

`Json` is `serde_json::Value`.  The fields of an object are listed in the order in which the map
iterates (ascending keys), and a number is either an integer or a finite double, given by its
value.
-/

namespace InfraWeave

inductive JsonNumber where
  | int (n : Int)
  | float (value : Rat)
  deriving DecidableEq

inductive Json where
  | null
  | bool (b : Bool)
  | number (n : JsonNumber)
  | string (s : String)
  | array (items : List Json)
  | object (fields : List (String × Json))

namespace Json

/-! ## Decidable equality -/

mutual

def decEq : (v w : Json) → Decidable (v = w)
  | .null, .null => isTrue rfl
  | .bool a, .bool b => decidable_of_iff (a = b) (by simp)
  | .number a, .number b => decidable_of_iff (a = b) (by simp)
  | .string a, .string b => decidable_of_iff (a = b) (by simp)
  | .array xs, .array ys => @decidable_of_iff _ _ (by simp) (decEqItems xs ys)
  | .object fs, .object gs => @decidable_of_iff _ _ (by simp) (decEqFields fs gs)
  | .null, .bool _ | .null, .number _ | .null, .string _ | .null, .array _ | .null, .object _
  | .bool _, .null | .bool _, .number _ | .bool _, .string _ | .bool _, .array _
  | .bool _, .object _ | .number _, .null | .number _, .bool _ | .number _, .string _
  | .number _, .array _ | .number _, .object _ | .string _, .null | .string _, .bool _
  | .string _, .number _ | .string _, .array _ | .string _, .object _ | .array _, .null
  | .array _, .bool _ | .array _, .number _ | .array _, .string _ | .array _, .object _
  | .object _, .null | .object _, .bool _ | .object _, .number _ | .object _, .string _
  | .object _, .array _ => isFalse (by simp)

def decEqItems : (xs ys : List Json) → Decidable (xs = ys)
  | [], [] => isTrue rfl
  | [], _ :: _ => isFalse (by simp)
  | _ :: _, [] => isFalse (by simp)
  | x :: xs, y :: ys =>
      @decidable_of_iff _ (x = y ∧ xs = ys) (by simp)
        (@instDecidableAnd _ _ (decEq x y) (decEqItems xs ys))

def decEqFields : (fs gs : List (String × Json)) → Decidable (fs = gs)
  | [], [] => isTrue rfl
  | [], _ :: _ => isFalse (by simp)
  | _ :: _, [] => isFalse (by simp)
  | (k, v) :: fs, (l, w) :: gs =>
      @decidable_of_iff _ (k = l ∧ v = w ∧ fs = gs) (by simp [and_assoc])
        (@instDecidableAnd _ _ inferInstance
          (@instDecidableAnd _ _ (decEq v w) (decEqFields fs gs)))

end

instance : DecidableEq Json := decEq

instance : Inhabited Json := ⟨.null⟩

/-! ## Accessors -/

def asBool : Json → Option Bool
  | .bool b => some b
  | _ => none

def asStr : Json → Option String
  | .string s => some s
  | _ => none

def asArray : Json → Option (List Json)
  | .array items => some items
  | _ => none

def asObject : Json → Option (List (String × Json))
  | .object fields => some fields
  | _ => none

/-- `Value::get` with a string index. -/
def get? (key : String) : Json → Option Json
  | .object fields => fields.lookup key
  | _ => none

/-- `as_i64`. -/
def asI64 : Json → Option Int
  | .number (.int n) => if -9223372036854775808 ≤ n ∧ n < 9223372036854775808 then some n else none
  | _ => none

/-- An object from its fields, a later one replacing an earlier one of the same key. -/
def ofFields (fields : List (String × Json)) : Json :=
  .object (fields.foldl (fun m (key, v) => OrderedMap.insert key v m) [])

/-- Assignment to `v[key]`. -/
def set (v : Json) (key : String) (w : Json) : Json :=
  match v with
  | .object fields => .object (OrderedMap.insert key w fields)
  | .null => .object [(key, w)]
  | v => v

/-- Strings, numbers, booleans and null. -/
def isLeaf : Json → Bool
  | .array _ => false
  | .object _ => false
  | _ => true

/-- The value below `v` that a chain of object keys leads to. -/
def at? (v : Json) : List String → Option Json
  | [] => some v
  | key :: path =>
      match v.get? key with
      | some w => w.at? path
      | none => none

@[simp] theorem at?_nil (v : Json) : v.at? [] = some v := rfl

theorem at?_cons (v : Json) (key : String) (path : List String) :
    v.at? (key :: path) = (v.get? key).bind fun w => w.at? path := by
  cases h : v.get? key <;> simp [at?, h]

@[simp] theorem get?_object (key : String) (fields : List (String × Json)) :
    (Json.object fields).get? key = fields.lookup key := rfl

theorem get?_set_of_ne {key name : String} (h : name ≠ key) (v w : Json) :
    (v.set key w).get? name = v.get? name := by
  cases v with
  | object fields => simp [set, OrderedMap.lookup_insert, h]
  | null => simp [set, get?, OrderedMap.lookup_cons_ite, h]
  | _ => rfl

/-- Of the fields with one key, the last one counts. -/
theorem get?_ofFields (name : String) (fields : List (String × Json)) :
    (ofFields fields).get? name = fields.reverse.lookup name := by
  induction fields using List.reverseRecOn with
  | nil => rfl
  | append_singleton fields field ih =>
      obtain ⟨key, value⟩ := field
      have hstep : ofFields (fields ++ [(key, value)]) = (ofFields fields).set key value := by
        simp [ofFields, set]
      rw [hstep, List.reverse_append]
      by_cases h : name = key
      · simp [ofFields, set, h]
      · simp [get?_set_of_ne h, ih, OrderedMap.lookup_cons_ite, h]

theorem exists_object_of_asObject {v : Json} (h : v.asObject ≠ none) :
    ∃ fields, v = .object fields := by
  cases v with
  | object fields => exact ⟨fields, rfl⟩
  | _ => simp [asObject] at h

theorem sizeOf_lt_of_lookup {key : String} {v : Json} {fields : List (String × Json)}
    (h : fields.lookup key = some v) : sizeOf v < sizeOf (Json.object fields) := by
  have hmem : (key, v) ∈ fields := by
    rcases List.lookup_eq_some_iff.1 h with ⟨l₁, l₂, rfl, -⟩
    simp
  have hlt := List.sizeOf_lt_of_mem hmem
  simp only [Prod.mk.sizeOf_spec] at hlt
  simp only [Json.object.sizeOf_spec]
  omega

end Json
end InfraWeave
