import InfraWeave.Lib.KeyedTable

/-!
# Two document stores

The same rows, asked for in two languages.  DynamoDB reads one partition of a table or of an index,
in the order of the range attribute, and its conditions are true or false.  Cosmos DB goes through
all rows, in no order that it promises unless it is asked for one, and a comparison with a property
that is missing, or of another type, is undefined: it does not select the row, and neither does its
negation.
-/

namespace InfraWeave

universe v

variable {ν : Type v}

/-! ## Filters -/

inductive Filter where
  | test (condition : Condition)
  | isMissing (name : String)
  | not (filter : Filter)
  | or (left right : Filter)
  deriving DecidableEq

namespace Attribute

def sameType : Attribute → Attribute → Bool
  | text _, text _ => true
  | number _, number _ => true
  | flag _, flag _ => true
  | _, _ => false

theorem sameType_self (a : Attribute) : a.sameType a = true := by
  cases a <;> rfl

/-- What lies between two values of a type is of that type. -/
theorem sameType_of_between {a low high : Attribute} (hsame : low.sameType high = true)
    (hlow : low.le a = true) (hhigh : a.le high = true) :
    a.sameType low = true ∧ a.sameType high = true := by
  cases a <;> cases low <;> cases high <;>
    simp only [sameType, le, reduceCtorEq] at hsame hlow hhigh ⊢ <;> exact ⟨trivial, trivial⟩

end Attribute

namespace Condition

variable (attr : String → Option Attribute)

/-- What Cosmos DB makes of a condition; `none` is undefined. -/
def value? : Condition → Option Bool
  | equals name value =>
      (attr name).bind fun found =>
        if found.sameType value then some (found = value) else none
  | differs name value =>
      (attr name).bind fun found =>
        if found.sameType value then some (found ≠ value) else none
  | beginsWith name start =>
      match attr name with
      | some (.text s) => some (start.toList.isPrefixOf s.toList)
      | _ => none
  | between name low high =>
      (attr name).bind fun found =>
        if found.sameType low && found.sameType high then some (low.le found && found.le high)
        else none

/-- The condition holds of no row without the attribute. -/
def isPositive : Condition → Bool
  | differs _ _ => false
  | between _ low high => low.sameType high
  | _ => true

variable {attr}

theorem holds_of_value? {condition : Condition} {b : Bool}
    (h : condition.value? attr = some b) : condition.holds attr = b := by
  cases condition with
  | equals name value =>
      obtain ⟨found, hfound, hvalue⟩ := Option.bind_eq_some_iff.1 h
      split at hvalue
      · rw [holds, hfound, ← Option.some.inj hvalue]
        exact decide_eq_decide.2 Option.some_inj
      · cases hvalue
  | differs name value =>
      obtain ⟨found, hfound, hvalue⟩ := Option.bind_eq_some_iff.1 h
      split at hvalue
      · rw [holds, hfound, ← Option.some.inj hvalue]
        exact decide_eq_decide.2 (not_congr Option.some_inj)
      · cases hvalue
  | beginsWith name start =>
      simp only [value?] at h
      simp only [holds]
      revert h
      cases attr name with
      | none =>
          intro h
          cases h
      | some found =>
          intro h
          cases found with
          | text s => exact Option.some.inj h
          | number n => cases h
          | flag b => cases h
  | between name low high =>
      obtain ⟨found, hfound, hvalue⟩ := Option.bind_eq_some_iff.1 h
      split at hvalue
      · simp only [holds, hfound]
        exact Option.some.inj hvalue
      · cases hvalue

theorem value?_of_isPositive {condition : Condition} (hpositive : condition.isPositive = true)
    (h : condition.holds attr = true) : condition.value? attr = some true := by
  cases condition with
  | equals name value =>
      have hfound : attr name = some value := of_decide_eq_true h
      rw [value?, hfound]
      exact (if_pos value.sameType_self).trans (congrArg some (decide_eq_true rfl))
  | differs name value => exact absurd hpositive Bool.false_ne_true
  | beginsWith name start =>
      simp only [holds] at h
      simp only [value?]
      revert h
      cases attr name with
      | none =>
          intro h
          exact absurd h Bool.false_ne_true
      | some found =>
          intro h
          cases found with
          | text s => exact congrArg some h
          | number n => exact absurd h Bool.false_ne_true
          | flag b => exact absurd h Bool.false_ne_true
  | between name low high =>
      simp only [holds] at h
      split at h
      · rename_i found hfound
        have hsame := Attribute.sameType_of_between hpositive (Bool.and_eq_true_iff.1 h).1
          (Bool.and_eq_true_iff.1 h).2
        rw [value?, hfound]
        exact (if_pos (Bool.and_eq_true_iff.2 hsame)).trans (congrArg some h)
      · exact absurd h Bool.false_ne_true

end Condition

namespace Filter

variable (attr : String → Option Attribute)

def names : Filter → List String
  | test condition => [condition.name]
  | isMissing name => [name]
  | not filter => filter.names
  | or left right => left.names ++ right.names

/-- What DynamoDB makes of a filter. -/
def holds : Filter → Bool
  | test condition => condition.holds attr
  | isMissing name => (attr name).isNone
  | not filter => !filter.holds
  | or left right => left.holds || right.holds

/-- What Cosmos DB makes of a filter. -/
def value? : Filter → Option Bool
  | test condition => condition.value? attr
  | isMissing name => some (attr name).isNone
  | not filter => filter.value?.map (!·)
  | or left right =>
      match left.value?, right.value? with
      | some true, _ => some true
      | _, some true => some true
      | some false, some false => some false
      | _, _ => none

def isPositive : Filter → Bool
  | test condition => condition.isPositive
  | isMissing _ => true
  | not _ => false
  | or left right => left.isPositive && right.isPositive

variable {attr}

theorem value?_or_eq_true {left right : Filter} :
    (or left right).value? attr = some true ↔
      left.value? attr = some true ∨ right.value? attr = some true := by
  simp only [value?]
  cases left.value? attr with
  | none => cases right.value? attr with
    | none => simp
    | some b => cases b <;> simp
  | some a => cases a with
    | true => simp
    | false => cases right.value? attr with
      | none => simp
      | some b => cases b <;> simp

/-- Where Cosmos DB has an answer, it is the one of DynamoDB. -/
theorem holds_of_value? {filter : Filter} {b : Bool} (h : filter.value? attr = some b) :
    filter.holds attr = b := by
  induction filter generalizing b with
  | test condition => exact Condition.holds_of_value? h
  | isMissing name => exact Option.some.inj h
  | not filter ih =>
      obtain ⟨c, hc, rfl⟩ := Option.map_eq_some_iff.1 h
      exact congrArg (!·) (ih hc)
  | or left right ihl ihr =>
      cases b with
      | true =>
          rcases value?_or_eq_true.1 h with hl | hr
          · exact Bool.or_eq_true_iff.2 (.inl (ihl hl))
          · exact Bool.or_eq_true_iff.2 (.inr (ihr hr))
      | false =>
          simp only [value?] at h
          split at h <;> try contradiction
          rename_i hl hr
          exact Bool.or_eq_false_iff.2 ⟨ihl hl, ihr hr⟩

theorem value?_of_isPositive {filter : Filter} (hpositive : filter.isPositive = true)
    (h : filter.holds attr = true) : filter.value? attr = some true := by
  induction filter with
  | test condition => exact Condition.value?_of_isPositive hpositive h
  | isMissing name => exact congrArg some h
  | not filter _ => exact absurd hpositive Bool.false_ne_true
  | or left right ihl ihr =>
      obtain ⟨hl, hr⟩ := Bool.and_eq_true_iff.1 hpositive
      rw [value?_or_eq_true]
      exact (Bool.or_eq_true_iff.1 h).imp (ihl hl) (ihr hr)

/-- A filter that holds and is not undefined selects the row. -/
theorem value?_of_isSome {filter : Filter} (hdefined : (filter.value? attr).isSome = true)
    (h : filter.holds attr = true) : filter.value? attr = some true := by
  obtain ⟨b, hb⟩ := Option.isSome_iff_exists.1 hdefined
  rw [hb, ← holds_of_value? hb, h]

theorem value?_eq_true_iff {filter : Filter}
    (h : filter.isPositive = true ∨ (filter.value? attr).isSome = true) :
    filter.value? attr = some true ↔ filter.holds attr = true :=
  ⟨holds_of_value?, fun hholds => h.elim (value?_of_isPositive · hholds)
    (value?_of_isSome · hholds)⟩

end Filter

/-! ## Orders -/

/-- By falling values of an attribute; rows without it come last. -/
def Falling (attr : ν → String → Option Attribute) (name : String) (a b : ν) : Prop :=
  Attribute.leOption (attr b name) (attr a name) = true

def Rising (attr : ν → String → Option Attribute) (name : String) (a b : ν) : Prop :=
  Attribute.leOption (attr a name) (attr b name) = true

instance (attr : ν → String → Option Attribute) (name : String) : DecidableRel (Falling attr name) :=
  fun _ _ => inferInstanceAs (Decidable (_ = true))

instance (attr : ν → String → Option Attribute) (name : String) : DecidableRel (Rising attr name) :=
  fun _ _ => inferInstanceAs (Decidable (_ = true))

section Falling

variable {attr : ν → String → Option Attribute} {name : String}

theorem Falling.total (a b : ν) : Falling attr name a b ∨ Falling attr name b a :=
  Bool.or_eq_true_iff.1 (Attribute.total_leOption (attr b name) (attr a name))

theorem Falling.refl (a : ν) : Falling attr name a a :=
  (Falling.total a a).elim id id

theorem Falling.trans {a b c : ν} (h : Falling attr name a b) (h' : Falling attr name b c) :
    Falling attr name a c :=
  Attribute.transitive_leOption _ _ _ h' h

theorem Falling.eq {a b : ν} (h : Falling attr name a b) (h' : Falling attr name b a) :
    attr a name = attr b name :=
  Attribute.antisymm_leOption h' h

instance : Std.Total (Falling attr name) :=
  ⟨Falling.total⟩

instance : IsTrans ν (Falling attr name) :=
  ⟨fun _ _ _ => Falling.trans⟩

instance : Std.Total (Rising attr name) :=
  ⟨fun a b => Falling.total b a⟩

instance : IsTrans ν (Rising attr name) :=
  ⟨fun _ _ _ h h' => Falling.trans h' h⟩

theorem exists_falling (attr : ν → String → Option Attribute) (name : String) (rows : List ν) :
    ∃ l : List ν, l.Perm rows ∧ l.Pairwise (Falling attr name) :=
  ⟨rows.insertionSort (Falling attr name), List.perm_insertionSort _ _,
    List.pairwise_insertionSort _ _⟩

/-- Any row with the greatest value may come first. -/
theorem exists_falling_cons {rows : List ν} {a : ν} (ha : a ∈ rows)
    (hgreatest : ∀ b ∈ rows, Falling attr name a b) :
    ∃ l : List ν, (a :: l).Perm rows ∧ (a :: l).Pairwise (Falling attr name) := by
  obtain ⟨before, after, rfl⟩ := List.append_of_mem ha
  obtain ⟨l, hperm, hsorted⟩ := exists_falling attr name (before ++ after)
  have hperm' : (a :: l).Perm (before ++ a :: after) :=
    (hperm.cons a).trans List.perm_middle.symm
  refine ⟨l, hperm', List.pairwise_cons.2 ⟨fun b hb => ?_, hsorted⟩⟩
  exact hgreatest b (hperm'.subset (List.mem_cons_of_mem _ hb))

end Falling

/-- Rows that a filter lets through, in their order, among all rows in an order. -/
theorem exists_sorted_filter {r : ν → ν → Prop} [DecidableRel r] [Std.Total r] [IsTrans ν r]
    {p : ν → Bool} {l : List ν} (hp : ∀ a ∈ l, p a = true) (hsorted : l.Pairwise r)
    (others : List ν) (hothers : ∀ a ∈ others, p a = false) :
    ∃ all : List ν, all.Perm (others ++ l) ∧ all.Pairwise r ∧ all.filter p = l := by
  induction others with
  | nil => exact ⟨l, .refl l, hsorted, List.filter_eq_self.2 hp⟩
  | cons a others ih =>
      obtain ⟨all, hperm, hall, hfilter⟩ := ih fun b hb => hothers b (List.mem_cons_of_mem a hb)
      have ha : ¬ p a = true := by simp [hothers a List.mem_cons_self]
      refine ⟨all.orderedInsert r a, ?_, hall.orderedInsert a all, ?_⟩
      · exact (List.perm_orderedInsert r a all).trans (hperm.cons a)
      · rw [List.orderedInsert_eq_take_drop, List.filter_append, List.filter_cons_of_neg ha,
          ← List.filter_append, List.takeWhile_append_dropWhile]
        exact hfilter

theorem eq_nil_or_singleton {l : List ν} (hnodup : l.Nodup) (hsame : ∀ a ∈ l, ∀ b ∈ l, a = b) :
    l = [] ∨ ∃ a, l = [a] := by
  cases l with
  | nil => exact .inl rfl
  | cons a l =>
      cases l with
      | nil => exact .inr ⟨a, rfl⟩
      | cons b l =>
          have hb : b ∈ a :: b :: l := List.mem_cons_of_mem a List.mem_cons_self
          have heq : a = b := hsame a List.mem_cons_self b hb
          exact absurd (heq ▸ List.mem_cons_self) (List.nodup_cons.1 hnodup).1

/-! ## Queries -/

structure TableSchema where
  primary : KeySchema
  indexes : String → Option KeySchema

/-- A query of DynamoDB.  It is refused when its filter names a key attribute of what it reads. -/
structure PartitionQuery where
  indexName : Option String
  keyCondition : List Condition
  filter : List Filter
  scanIndexForward : Option Bool
  limit : Option Nat
  deriving DecidableEq

/-- `SELECT * FROM c WHERE` the conditions `ORDER BY` an attribute `DESC`. -/
structure DocumentQuery where
  filter : List Filter
  orderBy : Option String
  top : Option Nat
  deriving DecidableEq

/-- A query that leaves the order open. -/
def Query.partitioned (query : Query) : PartitionQuery where
  indexName := query.indexName
  keyCondition := query.keyCondition
  filter := query.filter.map .test
  scanIndexForward := none
  limit := none

def truncate (limit : Option Nat) (rows : List ν) : List ν :=
  match limit with
  | none => rows
  | some n => rows.take n

theorem truncate_nil (limit : Option Nat) : truncate limit ([] : List ν) = [] := by
  cases limit with
  | none => rfl
  | some n => exact List.take_nil

theorem truncate_singleton {limit : Option Nat} (h : limit ≠ some 0) (a : ν) :
    truncate limit [a] = [a] := by
  cases limit with
  | none => rfl
  | some n => exact List.take_of_length_le (Nat.pos_of_ne_zero fun hn => h (congrArg some hn))

namespace PartitionQuery

variable (q : PartitionQuery) (table : TableSchema) (schema : KeySchema)
  (attr : ν → String → Option Attribute)

def schema? : Option KeySchema :=
  match q.indexName with
  | none => some table.primary
  | some name => table.indexes name

def accepted : Bool :=
  Query.keyConditionAccepted schema q.keyCondition &&
    q.filter.all fun filter => filter.names.all fun name =>
      name ≠ schema.hash && name ≠ schema.range

/-- The row is in the partition, and in the index that is named. -/
def reads (row : ν) : Bool :=
  (attr row schema.hash).isSome && (attr row schema.range).isSome &&
    q.keyCondition.all (Condition.holds (attr row))

def passes (row : ν) : Bool :=
  q.filter.all (Filter.holds (attr row))

def selects (row : ν) : Bool :=
  q.reads schema attr row && q.passes attr row

def order : ν → ν → Prop :=
  if q.scanIndexForward = some false then Falling attr schema.range else Rising attr schema.range

/-- Rows with equal range attributes come in any order.  The limit counts what is read, before the
filter. -/
def Answers (rows answer : List ν) : Prop :=
  ∃ schema, q.schema? table = some schema ∧ q.accepted schema = true ∧
    ∃ l : List ν, l.Perm (rows.filter (q.reads schema attr)) ∧
      l.Pairwise (q.order schema attr) ∧ answer = (truncate q.limit l).filter (q.passes attr)

end PartitionQuery

namespace DocumentQuery

variable (c : DocumentQuery) (attr : ν → String → Option Attribute)

def selects (row : ν) : Bool :=
  c.filter.all fun filter => filter.value? (attr row) = some true

def InOrder (l : List ν) : Prop :=
  ∀ name, c.orderBy = some name → l.Pairwise (Falling attr name)

def Answers (rows answer : List ν) : Prop :=
  ∃ l : List ν, l.Perm (rows.filter (c.selects attr)) ∧ c.InOrder attr l ∧
    answer = truncate c.top l

/-- Whatever is answered is an answer of the other query too, up to the order when that query does
not say one. -/
def Agrees (q : PartitionQuery) (table : TableSchema) (rows : List ν) : Prop :=
  ∀ answer, c.Answers attr rows answer → ∃ expected, q.Answers table attr rows expected ∧
    if q.scanIndexForward.isSome then answer = expected else answer.Perm expected

end DocumentQuery

/-! ## Answers -/

section Answers

variable {q : PartitionQuery} {c : DocumentQuery} {table : TableSchema} {schema : KeySchema}
  {attr : ν → String → Option Attribute} {rows answer : List ν}

theorem PartitionQuery.exists_sorted (q : PartitionQuery) (schema : KeySchema)
    (attr : ν → String → Option Attribute) (rows : List ν) :
    ∃ l : List ν, l.Perm rows ∧ l.Pairwise (q.order schema attr) := by
  unfold order
  split
  · exact exists_falling attr schema.range rows
  · exact ⟨rows.insertionSort (Rising attr schema.range), List.perm_insertionSort _ _,
      List.pairwise_insertionSort _ _⟩

/-- The schema is that of the table or index which the query names, and the query suits it. -/
structure PartitionQuery.Suits (q : PartitionQuery) (table : TableSchema) (schema : KeySchema) :
    Prop where
  named : q.schema? table = some schema
  accepted : q.accepted schema = true

theorem PartitionQuery.Suits.answers_iff (h : q.Suits table schema) (hlimit : q.limit = none) :
    q.Answers table attr rows answer ↔
      answer.Perm (rows.filter (q.selects schema attr)) ∧
        answer.Pairwise (q.order schema attr) := by
  have hselects : rows.filter (q.selects schema attr) =
      (rows.filter (q.reads schema attr)).filter (q.passes attr) := by
    rw [List.filter_filter]
    exact List.filter_congr fun row _ => Bool.and_comm _ _
  constructor
  · rintro ⟨schema', hschema', -, l, hperm, hsorted, rfl⟩
    obtain rfl := Option.some.inj (h.named.symm.trans hschema')
    rw [hlimit, hselects]
    exact ⟨hperm.filter _, hsorted.filter _⟩
  · rintro ⟨hperm, hsorted⟩
    -- The rows that are read and dropped are put among those of the answer.
    let dropped := (rows.filter (q.reads schema attr)).filter fun row => !q.passes attr row
    have hpasses : ∀ row ∈ answer, q.passes attr row = true := fun row hrow =>
      (Bool.and_eq_true_iff.1 (List.mem_filter.1 (hperm.subset hrow)).2).2
    have hdropped : ∀ row ∈ dropped, q.passes attr row = false := fun row hrow => by
      simpa using (List.mem_filter.1 hrow).2
    have hall : (dropped ++ answer).Perm (rows.filter (q.reads schema attr)) := by
      rw [hselects] at hperm
      refine ((hperm.append_left dropped).trans List.perm_append_comm).trans ?_
      exact List.filter_append_perm (q.passes attr) _
    have hmerged : ∃ l : List ν, l.Perm (dropped ++ answer) ∧ l.Pairwise (q.order schema attr) ∧
        l.filter (q.passes attr) = answer := by
      unfold PartitionQuery.order at hsorted ⊢
      by_cases hback : q.scanIndexForward = some false
      · rw [if_pos hback] at hsorted ⊢
        exact exists_sorted_filter hpasses hsorted dropped hdropped
      · rw [if_neg hback] at hsorted ⊢
        exact exists_sorted_filter hpasses hsorted dropped hdropped
    obtain ⟨l, hl, hlsorted, hfilter⟩ := hmerged
    refine ⟨schema, h.named, h.accepted, l, hl.trans hall, hlsorted, ?_⟩
    rw [hlimit]
    exact hfilter.symm

/-- Without a filter, everything that is read is selected. -/
theorem PartitionQuery.Suits.answers_iff_of_filter (h : q.Suits table schema)
    (hfilter : q.filter = []) :
    q.Answers table attr rows answer ↔
      ∃ l : List ν, l.Perm (rows.filter (q.selects schema attr)) ∧
        l.Pairwise (q.order schema attr) ∧ answer = truncate q.limit l := by
  have hpasses : ∀ row, q.passes attr row = true := fun row => by
    unfold PartitionQuery.passes
    rw [hfilter]
    rfl
  have hselects : q.reads schema attr = q.selects schema attr := by
    funext row
    rw [PartitionQuery.selects, hpasses, Bool.and_true]
  have hkeep : ∀ l : List ν, l.filter (q.passes attr) = l := fun l =>
    List.filter_eq_self.2 fun row _ => hpasses row
  constructor
  · rintro ⟨schema', hschema', -, l, hperm, hsorted, hanswer⟩
    obtain rfl := Option.some.inj (h.named.symm.trans hschema')
    exact ⟨l, hselects ▸ hperm, hsorted, hanswer.trans (hkeep _)⟩
  · rintro ⟨l, hperm, hsorted, hanswer⟩
    exact ⟨schema, h.named, h.accepted, l, hselects.symm ▸ hperm, hsorted,
      hanswer.trans (hkeep _).symm⟩

theorem PartitionQuery.order_of_back (hback : q.scanIndexForward = some false) :
    q.order schema attr = Falling attr schema.range :=
  if_pos hback

theorem DocumentQuery.inOrder_iff {name : String} (horder : c.orderBy = some name) {l : List ν} :
    c.InOrder attr l ↔ l.Pairwise (Falling attr name) := by
  constructor
  · intro h
    exact h name horder
  · intro h name' hname'
    rw [← Option.some.inj (horder.symm.trans hname')]
    exact h

theorem DocumentQuery.exists_inOrder (c : DocumentQuery) (attr : ν → String → Option Attribute)
    (rows : List ν) : ∃ l : List ν, l.Perm rows ∧ c.InOrder attr l := by
  cases horder : c.orderBy with
  | none => exact ⟨rows, .refl _, fun name hname => by rw [horder] at hname; cases hname⟩
  | some name =>
      obtain ⟨l, hperm, hsorted⟩ := exists_falling attr name rows
      refine ⟨l, hperm, fun name' hname' => ?_⟩
      rw [horder] at hname'
      rw [← Option.some.inj hname']
      exact hsorted

theorem DocumentQuery.exists_answer (c : DocumentQuery) (attr : ν → String → Option Attribute)
    (rows : List ν) : ∃ answer, c.Answers attr rows answer := by
  obtain ⟨l, hperm, horder⟩ := c.exists_inOrder attr (rows.filter (c.selects attr))
  exact ⟨_, l, hperm, horder, rfl⟩

theorem DocumentQuery.answers_iff (htop : c.top = none) :
    c.Answers attr rows answer ↔
      answer.Perm (rows.filter (c.selects attr)) ∧ c.InOrder attr answer := by
  unfold Answers
  rw [htop]
  constructor
  · rintro ⟨l, hperm, horder, rfl⟩
    exact ⟨hperm, horder⟩
  · rintro ⟨hperm, horder⟩
    exact ⟨answer, hperm, horder, rfl⟩

/-! ## Rows that are selected -/

theorem Condition.isSome_of_holds {attr : String → Option Attribute} {condition : Condition}
    (hrange : condition.isRange = true) (h : condition.holds attr = true) :
    (attr condition.name).isSome = true := by
  cases condition with
  | equals name value =>
      have hfound : attr name = some value := of_decide_eq_true h
      exact Option.isSome_of_eq_some hfound
  | differs name value => exact absurd hrange Bool.false_ne_true
  | beginsWith name start =>
      simp only [holds] at h
      split at h
      · rename_i s hfound
        exact Option.isSome_of_eq_some hfound
      · exact absurd h Bool.false_ne_true
  | between name low high =>
      simp only [holds] at h
      split at h
      · rename_i found hfound
        exact Option.isSome_of_eq_some hfound
      · exact absurd h Bool.false_ne_true

/-- The key attributes that a key condition tests are there. -/
theorem isSome_of_keyCondition {attr : String → Option Attribute} {conditions : List Condition}
    (haccepted : Query.keyConditionAccepted schema conditions = true)
    (h : ∀ condition ∈ conditions, condition.holds attr = true) :
    (attr schema.hash).isSome = true ∧
      (conditions.length = 2 → (attr schema.range).isSome = true) := by
  unfold Query.keyConditionAccepted at haccepted
  split at haccepted
  · have hname := of_decide_eq_true haccepted
    have hhash := Condition.isSome_of_holds rfl (h _ List.mem_cons_self)
    exact ⟨hname ▸ hhash, fun hlength => absurd hlength (by simp)⟩
  · rename_i name value condition
    simp only [Bool.and_eq_true, decide_eq_true_eq] at haccepted
    have hhash := Condition.isSome_of_holds rfl (h _ List.mem_cons_self)
    have hlast := Condition.isSome_of_holds haccepted.2
      (h condition (List.mem_cons_of_mem _ List.mem_cons_self))
    exact ⟨haccepted.1.1 ▸ hhash, fun _ => haccepted.1.2 ▸ hlast⟩
  · cases haccepted

/-- A row is selected by all conditions of a query together. -/
theorem PartitionQuery.Suits.selects_iff (h : q.Suits table schema) {row : ν}
    (hrange : q.keyCondition.length = 2 ∨ (attr row schema.range).isSome = true) :
    q.selects schema attr row = true ↔
      ∀ filter ∈ q.keyCondition.map .test ++ q.filter, filter.holds (attr row) = true := by
  simp only [PartitionQuery.selects, PartitionQuery.reads, PartitionQuery.passes, Bool.and_eq_true,
    List.all_eq_true, List.forall_mem_append, List.forall_mem_map]
  constructor
  · rintro ⟨⟨-, hkeys⟩, hrest⟩
    exact ⟨hkeys, hrest⟩
  · rintro ⟨hkeys, hrest⟩
    have hsome := isSome_of_keyCondition (Bool.and_eq_true_iff.1 h.accepted).1 hkeys
    exact ⟨⟨⟨hsome.1, hrange.elim hsome.2 id⟩, hkeys⟩, hrest⟩

/-- The same conditions select the same rows where Cosmos DB has an answer. -/
theorem PartitionQuery.Suits.selects_eq (h : q.Suits table schema)
    (hfilter : ∀ filter, filter ∈ c.filter ↔ filter ∈ q.keyCondition.map .test ++ q.filter)
    {row : ν} (hrange : q.keyCondition.length = 2 ∨ (attr row schema.range).isSome = true)
    (hdefined : ∀ filter ∈ c.filter,
      filter.isPositive = true ∨ (filter.value? (attr row)).isSome = true) :
    q.selects schema attr row = c.selects attr row := by
  have hcosmos : c.selects attr row = true ↔
      ∀ filter ∈ q.keyCondition.map .test ++ q.filter, filter.holds (attr row) = true := by
    unfold DocumentQuery.selects
    simp only [List.all_eq_true, decide_eq_true_eq]
    constructor
    · intro hall filter hmem
      have hmem := (hfilter filter).2 hmem
      exact (Filter.value?_eq_true_iff (hdefined filter hmem)).1 (hall filter hmem)
    · intro hall filter hmem
      exact (Filter.value?_eq_true_iff (hdefined filter hmem)).2 (hall filter ((hfilter filter).1 hmem))
  exact Bool.eq_iff_iff.2 ((h.selects_iff hrange).trans hcosmos.symm)

/-! ## Agreement -/

namespace DocumentQuery

/-- Cosmos DB does not refuse a query. -/
theorem not_agrees_of_refused (hschema : q.schema? table = some schema)
    (hrefused : q.accepted schema = false) : ¬ c.Agrees attr q table rows := by
  intro hagrees
  obtain ⟨answer, hanswer⟩ := c.exists_answer attr rows
  obtain ⟨expected, ⟨schema', hschema', haccepted, -⟩, -⟩ := hagrees answer hanswer
  rw [← Option.some.inj (hschema.symm.trans hschema'), hrefused] at haccepted
  cases haccepted

/-- Queries that agree select the same rows. -/
theorem selects_eq_of_agrees (h : q.Suits table schema) (hlimit : q.limit = none)
    (htop : c.top = none) (hagrees : c.Agrees attr q table rows) :
    ∀ row ∈ rows, q.selects schema attr row = c.selects attr row := by
  intro row hrow
  obtain ⟨answer, hanswer⟩ := c.exists_answer attr rows
  obtain ⟨expected, hexpected, hsame⟩ := hagrees answer hanswer
  have hsame' : answer.Perm expected := by
    split at hsame
    · exact .of_eq hsame
    · exact hsame
  have hperm : (rows.filter (c.selects attr)).Perm (rows.filter (q.selects schema attr)) :=
    (((answers_iff htop).1 hanswer).1.symm.trans hsame').trans
      ((h.answers_iff hlimit).1 hexpected).1
  have hmem : row ∈ rows.filter (q.selects schema attr) ↔ row ∈ rows.filter (c.selects attr) :=
    hperm.mem_iff.symm
  simp only [List.mem_filter, hrow, true_and] at hmem
  exact Bool.eq_iff_iff.2 hmem

/-- With the order left open, agreement is about each row. -/
theorem agrees_iff_selects (h : q.Suits table schema) (hlimit : q.limit = none)
    (hopen : q.scanIndexForward = none) (htop : c.top = none) :
    c.Agrees attr q table rows ↔
      ∀ row ∈ rows, q.selects schema attr row = c.selects attr row := by
  constructor
  · exact selects_eq_of_agrees h hlimit htop
  · intro hselects answer hanswer
    obtain ⟨expected, hperm, hsorted⟩ :=
      q.exists_sorted schema attr (rows.filter (q.selects schema attr))
    refine ⟨expected, (h.answers_iff hlimit).2 ⟨hperm, hsorted⟩, ?_⟩
    rw [hopen]
    refine ((answers_iff htop).1 hanswer).1.trans (.trans ?_ hperm.symm)
    rw [List.filter_congr hselects]

/-! Below, both queries select the same rows, and it is their order that counts. -/

section Orders

variable (h : q.Suits table schema) (hback : q.scanIndexForward = some false)
  (hselects : ∀ row ∈ rows, q.selects schema attr row = c.selects attr row)

include h hback hselects

theorem agrees_iff_sorted (hlimit : q.limit = none) (htop : c.top = none) :
    c.Agrees attr q table rows ↔ ∀ l : List ν, l.Perm (rows.filter (c.selects attr)) →
      c.InOrder attr l → l.Pairwise (Falling attr schema.range) := by
  have hsome : q.scanIndexForward.isSome = true := by
    rw [hback]
    rfl
  unfold Agrees
  simp only [answers_iff htop, h.answers_iff hlimit, hsome, if_true, List.filter_congr hselects,
    PartitionQuery.order_of_back hback]
  constructor
  · intro hagrees l hperm horder
    obtain ⟨expected, hexpected, heq⟩ := hagrees l ⟨hperm, horder⟩
    exact heq ▸ hexpected.2
  · rintro hsorted answer ⟨hperm, horder⟩
    exact ⟨answer, ⟨hperm, hsorted answer hperm horder⟩, rfl⟩

theorem agrees_of_sameOrder (hlimit : q.limit = none) (htop : c.top = none)
    (horder : c.orderBy = some schema.range) : c.Agrees attr q table rows := by
  rw [agrees_iff_sorted h hback hselects hlimit htop]
  intro l _ hsorted
  exact (inOrder_iff horder).1 hsorted

/-- Rows in no order are in order only if no two of them differ in the range attribute. -/
theorem agrees_iff_of_noOrder (hlimit : q.limit = none) (htop : c.top = none)
    (horder : c.orderBy = none) :
    c.Agrees attr q table rows ↔ ∀ a ∈ rows, ∀ b ∈ rows, c.selects attr a = true →
      c.selects attr b = true → attr a schema.range = attr b schema.range := by
  have hany : ∀ l : List ν, c.InOrder attr l := fun l name hname => by
    rw [horder] at hname
    cases hname
  rw [agrees_iff_sorted h hback hselects hlimit htop]
  constructor
  · intro hsorted
    -- Either of two rows may be the first.
    have hfirst : ∀ a ∈ rows.filter (c.selects attr), ∀ b ∈ rows.filter (c.selects attr),
        Falling attr schema.range a b := by
      intro a ha b hb
      obtain ⟨before, after, heq⟩ := List.append_of_mem ha
      have hperm : (a :: (before ++ after)).Perm (rows.filter (c.selects attr)) := by
        rw [heq]
        exact List.perm_middle.symm
      have hpairs := List.pairwise_cons.1 (hsorted _ hperm (hany _))
      rcases List.mem_cons.1 (hperm.symm.subset hb) with rfl | hb
      · exact .refl b
      · exact hpairs.1 b hb
    intro a ha b hb hselected hselected'
    have ha' := List.mem_filter.2 ⟨ha, hselected⟩
    have hb' := List.mem_filter.2 ⟨hb, hselected'⟩
    exact (hfirst a ha' b hb').eq (hfirst b hb' a ha')
  · intro hequal l hperm _
    refine List.pairwise_of_forall_mem_list fun a ha b hb => ?_
    obtain ⟨ha, hselected⟩ := List.mem_filter.1 (hperm.subset ha)
    obtain ⟨hb, hselected'⟩ := List.mem_filter.1 (hperm.subset hb)
    unfold Falling
    rw [hequal a ha b hb hselected hselected']
    exact Falling.refl b

/-- Two orders of rows that the first one tells apart. -/
theorem agrees_iff_of_order (hlimit : q.limit = none) (htop : c.top = none) {name : String}
    (horder : c.orderBy = some name)
    (hdistinct : ∀ a ∈ rows, ∀ b ∈ rows, c.selects attr a = true → c.selects attr b = true →
      attr a name = attr b name → a = b) :
    c.Agrees attr q table rows ↔ ∀ a ∈ rows, ∀ b ∈ rows, c.selects attr a = true →
      c.selects attr b = true → Falling attr name a b → Falling attr schema.range a b := by
  rw [agrees_iff_sorted h hback hselects hlimit htop]
  simp only [inOrder_iff horder]
  constructor
  · intro hsorted a ha b hb hselected hselected' hfalling
    obtain ⟨l, hperm, hl⟩ := exists_falling attr name (rows.filter (c.selects attr))
    have hal : a ∈ l := hperm.symm.subset (List.mem_filter.2 ⟨ha, hselected⟩)
    have hbl : b ∈ l := hperm.symm.subset (List.mem_filter.2 ⟨hb, hselected'⟩)
    by_cases heq : a = b
    · rw [heq]
      exact .refl b
    -- Of two rows in the list the one with the greater value is the first.
    obtain ⟨before, after, rfl⟩ := List.append_of_mem hal
    have hpairs := List.pairwise_append.1 hl
    have hpairs' := List.pairwise_append.1 (hsorted _ hperm hl)
    rcases List.mem_append.1 hbl with hb' | hb'
    · have hearlier := hpairs.2.2 b hb' a List.mem_cons_self
      exact absurd (hdistinct a ha b hb hselected hselected' (hfalling.eq hearlier)) heq
    · have hb' := (List.mem_cons.1 hb').resolve_left fun h => heq h.symm
      exact (List.pairwise_cons.1 hpairs'.2.1).1 b hb'
  · intro hfalling l hperm hl
    refine hl.imp_of_mem fun {a b} ha hb hab => ?_
    obtain ⟨ha, hselected⟩ := List.mem_filter.1 (hperm.subset ha)
    obtain ⟨hb, hselected'⟩ := List.mem_filter.1 (hperm.subset hb)
    exact hfalling a ha b hb hselected hselected' hab

/-- The first row by one attribute, and the first by another. -/
theorem agrees_iff_of_first (hfilter : q.filter = []) (hlimit : q.limit = some 1)
    (htop : c.top = some 1) {name : String} (horder : c.orderBy = some name) :
    c.Agrees attr q table rows ↔ ∀ a ∈ rows.filter (c.selects attr),
      (∀ b ∈ rows.filter (c.selects attr), Falling attr name a b) →
        ∀ b ∈ rows.filter (c.selects attr), Falling attr schema.range a b := by
  have hsome : q.scanIndexForward.isSome = true := by
    rw [hback]
    rfl
  unfold Agrees DocumentQuery.Answers
  simp only [h.answers_iff_of_filter hfilter, hsome, if_true, List.filter_congr hselects,
    PartitionQuery.order_of_back hback, inOrder_iff horder, hlimit, htop, truncate]
  constructor
  · intro hagrees a ha hgreatest
    obtain ⟨l, hperm, hl⟩ := exists_falling_cons ha hgreatest
    obtain ⟨expected, ⟨l', hperm', hl', rfl⟩, heq⟩ := hagrees [a] ⟨a :: l, hperm, hl, rfl⟩
    intro b hb
    have hbl := hperm'.symm.subset hb
    cases l' with
    | nil => cases hbl
    | cons first l' =>
        obtain rfl : a = first := (List.cons.inj heq).1
        rcases List.mem_cons.1 hbl with rfl | hbl
        · exact .refl b
        · exact (List.pairwise_cons.1 hl').1 b hbl
  · rintro hfirst answer ⟨l, hperm, hl, rfl⟩
    cases l with
    | nil => exact ⟨[], ⟨[], hperm, .nil, rfl⟩, rfl⟩
    | cons a l =>
        have ha := hperm.subset List.mem_cons_self
        have hgreatest : ∀ b ∈ rows.filter (c.selects attr), Falling attr name a b := by
          intro b hb
          rcases List.mem_cons.1 (hperm.symm.subset hb) with rfl | hb
          · exact .refl b
          · exact (List.pairwise_cons.1 hl).1 b hb
        obtain ⟨l', hperm', hl'⟩ := exists_falling_cons ha (hfirst a ha hgreatest)
        exact ⟨[a], ⟨a :: l', hperm', hl', rfl⟩, rfl⟩

end Orders

/-- Queries for a single row agree in any order and with any limit. -/
theorem agrees_of_unique (h : q.Suits table schema) (hfilter : q.filter = [])
    (hlimit : q.limit ≠ some 0) (htop : c.top ≠ some 0) (hrows : rows.Nodup)
    (hselects : ∀ row ∈ rows, q.selects schema attr row = c.selects attr row)
    (hunique : ∀ a ∈ rows, ∀ b ∈ rows, c.selects attr a = true → c.selects attr b = true → a = b) :
    c.Agrees attr q table rows := by
  have hselected : rows.filter (c.selects attr) = [] ∨ ∃ a, rows.filter (c.selects attr) = [a] := by
    refine eq_nil_or_singleton (hrows.filter _) fun a ha b hb => ?_
    have ha := List.mem_filter.1 ha
    have hb := List.mem_filter.1 hb
    exact hunique a ha.1 b hb.1 ha.2 hb.2
  have hperm : ∀ l : List ν, l.Perm (rows.filter (c.selects attr)) →
      l = rows.filter (c.selects attr) ∧ ∀ limit : Option Nat, limit ≠ some 0 →
        truncate limit l = l := by
    intro l hl
    rcases hselected with h | ⟨a, h⟩ <;> rw [h] at hl ⊢
    · obtain rfl := hl.eq_nil
      exact ⟨rfl, fun limit _ => truncate_nil limit⟩
    · obtain rfl := List.perm_singleton.1 hl
      exact ⟨rfl, fun limit hlimit => truncate_singleton hlimit a⟩
  rintro answer ⟨l, hl, -, rfl⟩
  obtain ⟨rfl, htruncate⟩ := hperm l hl
  obtain ⟨expected, hexpected, hsorted⟩ :=
    q.exists_sorted schema attr (rows.filter (c.selects attr))
  obtain ⟨rfl, -⟩ := hperm expected hexpected
  refine ⟨rows.filter (c.selects attr), ?_, ?_⟩
  · rw [h.answers_iff_of_filter hfilter, List.filter_congr hselects]
    exact ⟨_, .refl _, hsorted, (htruncate _ hlimit).symm⟩
  · rw [htruncate _ htop]
    split
    · rfl
    · exact .refl _

end DocumentQuery

end Answers

end InfraWeave
