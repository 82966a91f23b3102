import InfraWeave.Lib.OrderedMap
import Mathlib.Data.List.Sort
import Mathlib.Order.RelClasses

/-!
# Tables with keys and secondary indexes

A table of a document store: rows under keys, in the order of the keys.  A transaction is carried
out as a whole; one that names a key twice, or has more operations than the store allows, is
refused.  A query names a table or an index by its two key attributes.  It has to test the hash
attribute for equality, may restrict the range attribute, and may filter by any other attribute;
any other query is refused.
-/

namespace InfraWeave

universe u v

/-! ## Rows -/

structure KeyedTable (κ : Type u) (ν : Type v) [LT κ] where
  rows : List (κ × ν)
  ascending : rows.Pairwise fun a b => a.1 < b.1

namespace KeyedTable

variable {κ : Type u} {ν : Type v} [LT κ]

def empty : KeyedTable κ ν :=
  ⟨[], .nil⟩

inductive Operation (κ : Type u) (ν : Type v) where
  | put (key : κ) (row : ν)
  | delete (key : κ)
  deriving DecidableEq

def Operation.key : Operation κ ν → κ
  | put key _ => key
  | delete key => key

/-- What the operation leaves under its key. -/
def Operation.row : Operation κ ν → Option ν
  | put _ row => some row
  | delete _ => none

variable [DecidableEq κ]

def item (t : KeyedTable κ ν) (key : κ) : Option ν :=
  t.rows.lookup key

def delete (key : κ) (t : KeyedTable κ ν) : KeyedTable κ ν :=
  ⟨t.rows.filter (·.1 ≠ key), t.ascending.filter _⟩

/-- At most a hundred operations, on different keys. -/
def transactionAccepted (operations : List (Operation κ ν)) : Bool :=
  operations.length ≤ 100 ∧ (operations.map Operation.key).Nodup

@[simp] theorem item_empty (key : κ) : (empty : KeyedTable κ ν).item key = none := rfl

theorem item_delete (t : KeyedTable κ ν) (key key' : κ) :
    (t.delete key).item key' = if key' = key then none else t.item key' := by
  have hlookup : ∀ m : List (κ × ν), (m.filter (·.1 ≠ key)).lookup key' =
      if key' = key then none else m.lookup key' := by
    intro m
    induction m with
    | nil => simp
    | cons entry m ih =>
        by_cases hentry : entry.1 = key
        · have hne : key' ≠ key → key' ≠ entry.1 := fun h h' => h (h'.trans hentry)
          rw [List.filter_cons_of_neg (by simpa using hentry), ih]
          rw [OrderedMap.lookup_cons_ite key' entry.1 entry.2 m]
          by_cases h : key' = key
          · simp [h]
          · simp [h, hne h]
        · rw [List.filter_cons_of_pos (by simpa using hentry)]
          rw [OrderedMap.lookup_cons_ite, OrderedMap.lookup_cons_ite, ih]
          by_cases h : key' = entry.1
          · have hne : key' ≠ key := fun h' => hentry (h.symm.trans h')
            simp [h, hentry]
          · simp [h]
  exact hlookup t.rows

variable [DecidableLT κ] [IsStrictTotalOrder κ (· < ·)]

def put (key : κ) (row : ν) (t : KeyedTable κ ν) : KeyedTable κ ν :=
  ⟨OrderedMap.insert key row t.rows, OrderedMap.pairwise_insert key row t.ascending⟩

def apply (t : KeyedTable κ ν) : Operation κ ν → KeyedTable κ ν
  | .put key row => t.put key row
  | .delete key => t.delete key

def transact (t : KeyedTable κ ν) (operations : List (Operation κ ν)) : KeyedTable κ ν :=
  operations.foldl apply t

theorem item_put (t : KeyedTable κ ν) (key key' : κ) (row : ν) :
    (t.put key row).item key' = if key' = key then some row else t.item key' :=
  OrderedMap.lookup_insert key key' row t.rows

theorem item_apply (t : KeyedTable κ ν) (operation : Operation κ ν) (key : κ) :
    (t.apply operation).item key = if key = operation.key then operation.row else t.item key := by
  cases operation with
  | put key' row => exact item_put t key' key row
  | delete key' => exact item_delete t key' key

omit [DecidableLT κ] in
/-- The rows of a table are what its keys lead to. -/
theorem mem_rows_iff (t : KeyedTable κ ν) {key : κ} {row : ν} :
    (key, row) ∈ t.rows ↔ t.item key = some row :=
  OrderedMap.mem_iff_lookup t.ascending

theorem item_transact_of_notMem {operations : List (Operation κ ν)} {key : κ}
    (h : ∀ operation ∈ operations, operation.key ≠ key) (t : KeyedTable κ ν) :
    (t.transact operations).item key = t.item key := by
  induction operations generalizing t with
  | nil => rfl
  | cons operation operations ih =>
      have hrest := ih (fun o ho => h o (List.mem_cons_of_mem _ ho)) (t.apply operation)
      have hkey : key ≠ operation.key := fun heq => h operation List.mem_cons_self heq.symm
      change ((t.apply operation).transact operations).item key = _
      rw [hrest, item_apply, if_neg hkey]

/-- In a transaction that is accepted, each operation says what is left under its key. -/
theorem item_transact_of_mem {operations : List (Operation κ ν)}
    (haccepted : (operations.map Operation.key).Nodup) {operation : Operation κ ν}
    (h : operation ∈ operations) (t : KeyedTable κ ν) :
    (t.transact operations).item operation.key = operation.row := by
  induction operations generalizing t with
  | nil => cases h
  | cons first operations ih =>
      obtain ⟨hfirst, hrest⟩ := List.nodup_cons.1 haccepted
      change ((t.apply first).transact operations).item _ = _
      rcases List.mem_cons.1 h with rfl | h
      · have hnot : ∀ o ∈ operations, o.key ≠ operation.key :=
          fun o ho heq => hfirst (heq ▸ List.mem_map_of_mem ho)
        rw [item_transact_of_notMem hnot, item_apply, if_pos rfl]
      · exact ih hrest h (t.apply first)

/-- A property of rows that the rows of a table have, and those that a transaction puts. -/
theorem forall_item_transact {p : κ → ν → Prop} {operations : List (Operation κ ν)}
    {t : KeyedTable κ ν} (h : ∀ key row, t.item key = some row → p key row)
    (hoperations : ∀ operation ∈ operations, ∀ row, operation.row = some row →
      p operation.key row) :
    ∀ key row, (t.transact operations).item key = some row → p key row := by
  induction operations generalizing t with
  | nil => exact h
  | cons operation operations ih =>
      refine ih (t := t.apply operation) ?_ fun o ho => hoperations o (List.mem_cons_of_mem _ ho)
      intro key row hrow
      rw [item_apply] at hrow
      split at hrow
      · rename_i hkey
        exact hkey ▸ hoperations operation List.mem_cons_self row hrow
      · exact h key row hrow

end KeyedTable

/-! ## Queries -/

inductive Attribute where
  | text (s : String)
  | number (n : Int)
  | flag (b : Bool)
  deriving DecidableEq

namespace Attribute

/-- Flags come before numbers, and numbers before texts. -/
def le : Attribute → Attribute → Bool
  | flag a, flag b => !a || b
  | flag _, _ => true
  | _, flag _ => false
  | number m, number n => m ≤ n
  | number _, text _ => true
  | text _, number _ => false
  | text s, text t => s ≤ t

theorem total_le (a b : Attribute) : (le a b || le b a) = true := by
  cases a <;> cases b <;> simp [le, Int.le_total, String.le_total]
  rename_i a b
  cases a <;> cases b <;> decide

theorem antisymm_le {a b : Attribute} (hab : le a b = true) (hba : le b a = true) : a = b := by
  cases a <;> cases b <;> simp only [le, decide_eq_true_eq, reduceCtorEq] at hab hba
  · exact congrArg text (String.le_antisymm hab hba)
  · exact congrArg number (Int.le_antisymm hab hba)
  · rename_i a b
    cases a <;> cases b <;> simp_all

theorem transitive_le (a b c : Attribute) (hab : le a b = true) (hbc : le b c = true) :
    le a c = true := by
  cases a <;> cases b <;> cases c <;> simp only [le, decide_eq_true_eq, reduceCtorEq] at hab hbc ⊢
  · exact String.le_trans hab hbc
  · exact Int.le_trans hab hbc
  · rename_i a b c
    cases a <;> cases b <;> cases c <;> simp_all

/-- A missing attribute comes first. -/
def leOption : Option Attribute → Option Attribute → Bool
  | none, _ => true
  | some _, none => false
  | some x, some y => x.le y

theorem total_leOption (a b : Option Attribute) : (leOption a b || leOption b a) = true := by
  cases a <;> cases b <;> simp only [leOption, Bool.or_true, Bool.or_false]
  exact total_le _ _

theorem antisymm_leOption {a b : Option Attribute} (hab : leOption a b = true)
    (hba : leOption b a = true) : a = b := by
  cases a <;> cases b <;> simp only [leOption, reduceCtorEq] at hab hba ⊢
  exact congrArg some (antisymm_le hab hba)

theorem transitive_leOption (a b c : Option Attribute) (hab : leOption a b = true)
    (hbc : leOption b c = true) : leOption a c = true := by
  cases a <;> cases b <;> cases c <;> simp only [leOption, reduceCtorEq] at hab hbc ⊢
  exact transitive_le _ _ _ hab hbc

end Attribute

inductive Condition where
  | equals (name : String) (value : Attribute)
  /-- Also a row without the attribute differs. -/
  | differs (name : String) (value : Attribute)
  | beginsWith (name : String) (start : String)
  | between (name : String) (low high : Attribute)
  deriving DecidableEq

namespace Condition

def name : Condition → String
  | equals name _ => name
  | differs name _ => name
  | beginsWith name _ => name
  | between name _ _ => name

def holds (attr : String → Option Attribute) : Condition → Bool
  | equals name value => attr name = some value
  | differs name value => attr name ≠ some value
  | beginsWith name start =>
      match attr name with
      | some (.text s) => start.toList.isPrefixOf s.toList
      | _ => false
  | between name low high =>
      match attr name with
      | some value => low.le value && value.le high
      | none => false

/-- The conditions that a range attribute may be put under. -/
def isRange : Condition → Bool
  | differs _ _ => false
  | _ => true

end Condition

structure KeySchema where
  hash : String
  range : String

structure Query where
  indexName : Option String
  keyCondition : List Condition
  filter : List Condition
  deriving DecidableEq

namespace Query

def keyConditionAccepted (schema : KeySchema) : List Condition → Bool
  | [.equals name _] => name = schema.hash
  | [.equals name _, condition] =>
      name = schema.hash && condition.name = schema.range && condition.isRange
  | _ => false

def accepted (schema : KeySchema) (query : Query) : Bool :=
  keyConditionAccepted schema query.keyCondition &&
    query.filter.all fun condition => condition.name ≠ schema.hash && condition.name ≠ schema.range

/-- The rows with both key attributes that meet the conditions, in the order of the range
attribute. -/
def select {ν : Type v} (schema : KeySchema) (query : Query)
    (attr : ν → String → Option Attribute) (rows : List ν) : List ν :=
  let selected := rows.filter fun row =>
    (attr row schema.hash).isSome && (attr row schema.range).isSome &&
      (query.keyCondition ++ query.filter).all (Condition.holds (attr row))
  selected.insertionSort fun a b =>
    Attribute.leOption (attr a schema.range) (attr b schema.range) = true

/-- The key attributes of the table, or of the index that is named. -/
def schema? (primary : KeySchema) (indexes : String → Option KeySchema) (query : Query) :
    Option KeySchema :=
  match query.indexName with
  | none => some primary
  | some name => indexes name

/-- A query on a table whose own key attributes are `primary`. -/
def evaluate {ν : Type v} (primary : KeySchema) (indexes : String → Option KeySchema)
    (query : Query) (attr : ν → String → Option Attribute) (rows : List ν) :
    Except String (List ν) :=
  match query.schema? primary indexes with
  | none => .error "ValidationException: The table does not have the specified index"
  | some schema =>
      if query.accepted schema then .ok (query.select schema attr rows)
      else .error "ValidationException: Query condition not supported"

theorem evaluate_of_accepted {ν : Type v} {primary schema : KeySchema}
    {indexes : String → Option KeySchema} {query : Query}
    (hschema : query.schema? primary indexes = some schema)
    (haccepted : query.accepted schema = true) (attr : ν → String → Option Attribute)
    (rows : List ν) :
    query.evaluate primary indexes attr rows = .ok (query.select schema attr rows) := by
  unfold evaluate
  rw [hschema]
  exact if_pos haccepted

theorem mem_select {ν : Type v} {schema : KeySchema} {query : Query}
    {attr : ν → String → Option Attribute} {rows : List ν} {row : ν} :
    row ∈ query.select schema attr rows ↔
      row ∈ rows ∧ (attr row schema.hash).isSome = true ∧
        (attr row schema.range).isSome = true ∧
        (∀ condition ∈ query.keyCondition, condition.holds (attr row) = true) ∧
        ∀ condition ∈ query.filter, condition.holds (attr row) = true := by
  simp only [select, List.mem_insertionSort, List.mem_filter, Bool.and_eq_true, List.all_append,
    List.all_eq_true, and_assoc]

/-- The first row that is selected comes before the others. -/
theorem le_of_mem_select {ν : Type v} {schema : KeySchema} {query : Query}
    {attr : ν → String → Option Attribute} {rows rest : List ν} {first row : ν}
    (h : query.select schema attr rows = first :: rest)
    (hrow : row ∈ query.select schema attr rows) :
    Attribute.leOption (attr first schema.range) (attr row schema.range) = true := by
  let le : ν → ν → Prop := fun a b =>
    Attribute.leOption (attr a schema.range) (attr b schema.range) = true
  have htotal : Std.Total le := ⟨fun a b => by
    simpa [le] using Attribute.total_leOption (attr a schema.range) (attr b schema.range)⟩
  have htrans : IsTrans ν le := ⟨fun a b c => Attribute.transitive_leOption _ _ _⟩
  have hsorted : (query.select schema attr rows).Pairwise le := List.pairwise_insertionSort le _
  rw [h] at hsorted hrow
  rcases List.mem_cons.1 hrow with rfl | hrow
  · have := Attribute.total_leOption (attr row schema.range) (attr row schema.range)
    simpa using this
  · exact (List.pairwise_cons.1 hsorted).1 row hrow

end Query

end InfraWeave
