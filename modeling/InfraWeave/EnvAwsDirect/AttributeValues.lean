import InfraWeave.Defs.JsonText
import InfraWeave.Lib.Fallible
import Mathlib.Data.String.Basic

/-!
# Attribute values

The JSON values of requests are sent to DynamoDB as attribute values, in which a number is a text,
and are read back from them.
-/

namespace InfraWeave
namespace EnvAwsDirect

inductive AttributeValue where
  | s (text : String)
  | n (text : String)
  | bool (b : Bool)
  | null (b : Bool)
  | l (list : List AttributeValue)
  | m (map : List (String × AttributeValue))
  | ss (texts : List String)
  | ns (texts : List String)
  | b (blob : List UInt8)
  | bs (blobs : List (List UInt8))
  | unknown

/-- What is known of doubles: the nearest one of an integer, the text of one, and how a text is
read, where one that is not finite has no value. -/
structure Doubles where
  ofInt : Int → Rat
  text : Rat → String
  parse : String → Option (Option Rat)

/-- The order in which a hash map lists its entries. -/
structure HashOrder where
  list : List (String × Json) → List (String × Json)
  perm : ∀ entries, (list entries).Perm entries

variable (doubles : Doubles) (order : HashOrder)

/-- `Number::as_f64`. -/
def asF64 : JsonNumber → Option Rat
  | .int n => some (doubles.ofInt n)
  | .float value => some value

def numberAttributeValue (n : JsonNumber) : AttributeValue :=
  match (Json.number n).asI64 with
  | some i => .n (toString i)
  | none =>
      match asF64 doubles n with
      | some f => .n (doubles.text f)
      | none => .s (.ofList (n.text doubles.text))

/-- A text that is no 64-bit integer is read as a double. -/
def numberOfText (text : String) : Json :=
  match Text.parseI64 text with
  | some i => .number (.int i)
  | none =>
      match doubles.parse text with
      | some (some f) => .number (.float f)
      | some none => .null
      | none => .string text

mutual

def jsonValueToAttributeValue : Json → Except String AttributeValue
  | .string s => .ok (.s s)
  | .number n => .ok (numberAttributeValue doubles n)
  | .bool b => .ok (.bool b)
  | .null => .ok (.null true)
  | .array arr => do
      let list ← itemsToAttributeValues arr
      .ok (.l list)
  | .object obj => do
      let entries ← fieldsToAttributeValues obj
      .ok (.m (OrderedMap.collect entries))

def itemsToAttributeValues : List Json → Except String (List AttributeValue)
  | [] => .ok []
  | v :: vs => do
      let a ← jsonValueToAttributeValue v
      let as ← itemsToAttributeValues vs
      .ok (a :: as)

def fieldsToAttributeValues :
    List (String × Json) → Except String (List (String × AttributeValue))
  | [] => .ok []
  | (k, v) :: fields => do
      let a ← jsonValueToAttributeValue v
      let entries ← fieldsToAttributeValues fields
      .ok ((k, a) :: entries)

end

mutual

def attributeValueToJson : AttributeValue → Except String Json
  | .s text => .ok (.string text)
  | .n text => .ok (numberOfText doubles text)
  | .bool b => .ok (.bool b)
  | .null _ => .ok .null
  | .l list => do
      let arr ← attributeValuesToItems list
      .ok (.array arr)
  | .m map => do
      let fields ← attributeValuesToFields map
      .ok (.object (OrderedMap.collect (order.list fields)))
  | .ss texts => .ok (.array (texts.map .string))
  | .ns texts => .ok (.array (texts.map .string))
  | _ => .ok .null

def attributeValuesToItems : List AttributeValue → Except String (List Json)
  | [] => .ok []
  | a :: as => do
      let v ← attributeValueToJson a
      let vs ← attributeValuesToItems as
      .ok (v :: vs)

def attributeValuesToFields :
    List (String × AttributeValue) → Except String (List (String × Json))
  | [] => .ok []
  | (k, a) :: entries => do
      let v ← attributeValueToJson a
      let fields ← attributeValuesToFields entries
      .ok ((k, v) :: fields)

end

/-! ## Values of which nothing is lost -/

/-- A value at any depth of a value. -/
inductive Within (w : Json) : Json → Prop
  | self : Within w w
  | item {items : List Json} {v : Json} (hitem : v ∈ items) (hwithin : Within w v) :
      Within w (.array items)
  | field {fields : List (String × Json)} {key : String} {v : Json}
      (hfield : (key, v) ∈ fields) (hwithin : Within w v) : Within w (.object fields)

/-- In every order of the maps the value is read back as it was. -/
def Lossless (v : Json) : Prop :=
  ∀ order : HashOrder,
    (jsonValueToAttributeValue doubles v >>= attributeValueToJson doubles order) = .ok v

/-- Maps are ascending, as those of `serde_json` are. -/
def Ordered (v : Json) : Prop :=
  ∀ fields, Within (.object fields) v → fields.Pairwise fun a b => a.1 < b.1

/-- All numbers are integers of 64 bits, with a sign or without. -/
def Integral (v : Json) : Prop :=
  ∀ n, Within (.number n) v →
    ∃ i : Int, n = .int i ∧ -9223372036854775808 ≤ i ∧ i < 18446744073709551616

/-! ## Numbers -/

variable {doubles order}

theorem numberOfText_toString {i : Int} (h : -9223372036854775808 ≤ i)
    (h' : i < 9223372036854775808) : numberOfText doubles (toString i) = .number (.int i) := by
  unfold numberOfText
  rw [Text.parseI64_toString h h']

theorem numberAttributeValue_int {i : Int} (h : -9223372036854775808 ≤ i)
    (h' : i < 9223372036854775808) :
    numberAttributeValue doubles (.int i) = .n (toString i) := by
  have hread : (Json.number (.int i)).asI64 = some i := if_pos ⟨h, h'⟩
  unfold numberAttributeValue
  rw [hread]

theorem lt_of_parseI64 {text : String} {i : Int} (h : Text.parseI64 text = some i) :
    i < 9223372036854775808 := by
  unfold Text.parseI64 at h
  split at h
  split at h
  · cases h
  · rcases Option.ite_none_right_eq_some.1 h with ⟨⟨-, hbound⟩, heq⟩
    rw [← Option.some.inj heq]
    exact hbound

/-- An integer that is read is one with a sign. -/
theorem lt_of_numberOfText {text : String} {i : Int}
    (h : Within (.number (.int i)) (numberOfText doubles text)) : i < 9223372036854775808 := by
  unfold numberOfText at h
  cases hparse : Text.parseI64 text with
  | some j =>
      rw [hparse] at h
      cases h
      exact lt_of_parseI64 hparse
  | none =>
      rw [hparse] at h
      cases hfloat : doubles.parse text with
      | none =>
          rw [hfloat] at h
          cases h
      | some f =>
          rw [hfloat] at h
          cases f with
          | none => cases h
          | some f => cases h

/-! ## What is read -/

theorem not_within_strings {i : Int} {texts : List String}
    (h : Within (.number (.int i)) (.array (texts.map .string))) : False := by
  cases h with
  | item hitem hwithin =>
      rcases List.mem_map.1 hitem with ⟨text, -, rfl⟩
      cases hwithin

mutual

/-- All integers at any depth of a value that is read have a sign. -/
theorem lt_of_attributeValueToJson {i : Int} : (a : AttributeValue) → ∀ v,
    attributeValueToJson doubles order a = .ok v → Within (.number (.int i)) v →
      i < 9223372036854775808
  | .s text, v, h, hwithin => by
      rcases Except.ok.inj h with rfl
      cases hwithin
  | .n text, v, h, hwithin => by
      rcases Except.ok.inj h with rfl
      exact lt_of_numberOfText hwithin
  | .bool b, v, h, hwithin => by
      rcases Except.ok.inj h with rfl
      cases hwithin
  | .null b, v, h, hwithin => by
      rcases Except.ok.inj h with rfl
      cases hwithin
  | .l list, v, h, hwithin => by
      rcases bind_eq_ok_iff.1 h with ⟨arr, harr, hv⟩
      rcases Except.ok.inj hv with rfl
      cases hwithin with
      | item hitem hwithin => exact lt_of_attributeValuesToItems list arr harr _ hitem hwithin
  | .m map, v, h, hwithin => by
      rcases bind_eq_ok_iff.1 h with ⟨fields, hfields, hv⟩
      rcases Except.ok.inj hv with rfl
      cases hwithin with
      | field hfield hwithin =>
          have hmem := OrderedMap.mem_of_mem_collect hfield
          exact lt_of_attributeValuesToFields map fields hfields _
            ((order.perm fields).mem_iff.1 hmem) hwithin
  | .ss texts, v, h, hwithin => by
      rcases Except.ok.inj h with rfl
      exact absurd hwithin not_within_strings
  | .ns texts, v, h, hwithin => by
      rcases Except.ok.inj h with rfl
      exact absurd hwithin not_within_strings
  | .b blob, v, h, hwithin => by
      rcases Except.ok.inj h with rfl
      cases hwithin
  | .bs blobs, v, h, hwithin => by
      rcases Except.ok.inj h with rfl
      cases hwithin
  | .unknown, v, h, hwithin => by
      rcases Except.ok.inj h with rfl
      cases hwithin

theorem lt_of_attributeValuesToItems {i : Int} : (as : List AttributeValue) → ∀ vs,
    attributeValuesToItems doubles order as = .ok vs → ∀ v ∈ vs, Within (.number (.int i)) v →
      i < 9223372036854775808
  | [], vs, h, v, hv, hwithin => by
      rcases Except.ok.inj h with rfl
      cases hv
  | a :: as, vs, h, v, hv, hwithin => by
      rcases bind_eq_ok_iff.1 h with ⟨first, hfirst, h⟩
      rcases bind_eq_ok_iff.1 h with ⟨rest, hrest, h⟩
      rcases Except.ok.inj h with rfl
      rcases List.mem_cons.1 hv with rfl | hv
      · exact lt_of_attributeValueToJson a _ hfirst hwithin
      · exact lt_of_attributeValuesToItems as rest hrest v hv hwithin

theorem lt_of_attributeValuesToFields {i : Int} : (entries : List (String × AttributeValue)) →
    ∀ fields, attributeValuesToFields doubles order entries = .ok fields → ∀ field ∈ fields,
      Within (.number (.int i)) field.2 → i < 9223372036854775808
  | [], fields, h, field, hfield, hwithin => by
      rcases Except.ok.inj h with rfl
      cases hfield
  | (k, a) :: entries, fields, h, field, hfield, hwithin => by
      rcases bind_eq_ok_iff.1 h with ⟨first, hfirst, h⟩
      rcases bind_eq_ok_iff.1 h with ⟨rest, hrest, h⟩
      rcases Except.ok.inj h with rfl
      rcases List.mem_cons.1 hfield with rfl | hfield
      · exact lt_of_attributeValueToJson a _ hfirst hwithin
      · exact lt_of_attributeValuesToFields entries rest hrest field hfield hwithin

end

/-! ## The round trip -/

/-- All numbers are integers of 64 bits with a sign. -/
def Signed (v : Json) : Prop :=
  ∀ n, Within (.number n) v →
    ∃ i : Int, n = .int i ∧ -9223372036854775808 ≤ i ∧ i < 9223372036854775808

theorem Ordered.within {v w : Json} (h : Ordered v) (hsub : ∀ u, Within u w → Within u v) :
    Ordered w :=
  fun fields hfields => h fields (hsub _ hfields)

theorem Signed.within {v w : Json} (h : Signed v) (hsub : ∀ u, Within u w → Within u v) :
    Signed w :=
  fun n hn => h n (hsub _ hn)

variable (doubles order)

mutual

theorem exists_attributeValue : (v : Json) → Ordered v → Signed v →
    ∃ a, jsonValueToAttributeValue doubles v = .ok a ∧
      attributeValueToJson doubles order a = .ok v
  | .null, _, _ => ⟨.null true, rfl, rfl⟩
  | .bool b, _, _ => ⟨.bool b, rfl, rfl⟩
  | .string s, _, _ => ⟨.s s, rfl, rfl⟩
  | .number n, _, hsigned => by
      rcases hsigned n .self with ⟨i, rfl, h, h'⟩
      refine ⟨.n (toString i), congrArg Except.ok (numberAttributeValue_int h h'), ?_⟩
      exact congrArg Except.ok (numberOfText_toString h h')
  | .array arr, hordered, hsigned => by
      rcases exists_attributeValues arr
          (fun v hv => hordered.within fun u hu => .item hv hu)
          (fun v hv => hsigned.within fun u hu => .item hv hu) with ⟨list, hlist, harr⟩
      refine ⟨.l list, ?_, ?_⟩
      · rw [jsonValueToAttributeValue, hlist]
        rfl
      · rw [attributeValueToJson, harr]
        rfl
  | .object obj, hordered, hsigned => by
      rcases exists_attributeFields obj
          (fun field hfield => hordered.within fun u hu => .field hfield hu)
          (fun field hfield => hsigned.within fun u hu => .field hfield hu) with
        ⟨entries, hentries, hkeys, hfields⟩
      have hascending := hordered obj .self
      have hsorted : entries.Pairwise fun a b => a.1 < b.1 := by
        rw [← List.pairwise_map (f := Prod.fst), hkeys, List.pairwise_map]
        exact hascending
      refine ⟨.m entries, ?_, ?_⟩
      · rw [jsonValueToAttributeValue, hentries, ok_bind,
          OrderedMap.collect_of_perm hsorted (List.Perm.refl _)]
      · rw [attributeValueToJson, hfields, ok_bind,
          OrderedMap.collect_of_perm hascending (order.perm obj)]

theorem exists_attributeValues : (vs : List Json) → (∀ v ∈ vs, Ordered v) →
    (∀ v ∈ vs, Signed v) → ∃ as, itemsToAttributeValues doubles vs = .ok as ∧
      attributeValuesToItems doubles order as = .ok vs
  | [], _, _ => ⟨[], rfl, rfl⟩
  | v :: vs, hordered, hsigned => by
      rcases exists_attributeValue v (hordered v List.mem_cons_self)
        (hsigned v List.mem_cons_self) with ⟨a, hto, hback⟩
      rcases exists_attributeValues vs (fun w hw => hordered w (List.mem_cons_of_mem _ hw))
        (fun w hw => hsigned w (List.mem_cons_of_mem _ hw)) with ⟨as, hrest, hrestBack⟩
      refine ⟨a :: as, ?_, ?_⟩
      · rw [itemsToAttributeValues, hto, hrest]
        rfl
      · rw [attributeValuesToItems, hback, hrestBack]
        rfl

theorem exists_attributeFields : (fields : List (String × Json)) →
    (∀ field ∈ fields, Ordered field.2) → (∀ field ∈ fields, Signed field.2) →
      ∃ entries, fieldsToAttributeValues doubles fields = .ok entries ∧
        entries.map Prod.fst = fields.map Prod.fst ∧
        attributeValuesToFields doubles order entries = .ok fields
  | [], _, _ => ⟨[], rfl, rfl, rfl⟩
  | (k, v) :: fields, hordered, hsigned => by
      rcases exists_attributeValue v (hordered (k, v) List.mem_cons_self)
        (hsigned (k, v) List.mem_cons_self) with ⟨a, hto, hback⟩
      rcases exists_attributeFields fields
          (fun field hfield => hordered field (List.mem_cons_of_mem _ hfield))
          (fun field hfield => hsigned field (List.mem_cons_of_mem _ hfield)) with
        ⟨entries, hrest, hkeys, hrestBack⟩
      refine ⟨(k, a) :: entries, ?_, ?_, ?_⟩
      · rw [fieldsToAttributeValues, hto, hrest]
        rfl
      · rw [List.map_cons, List.map_cons, hkeys]
      · rw [attributeValuesToFields, hback, hrestBack]
        rfl

end

def idOrder : HashOrder :=
  ⟨id, List.Perm.refl⟩

/-- A value is read back as it was when none of its integers is beyond those with a sign. -/
theorem lossless_iff {v : Json} (hordered : Ordered v) (hintegral : Integral v) :
    Lossless doubles v ↔ ∀ i, Within (.number (.int i)) v → i < 9223372036854775808 := by
  constructor
  · intro hlossless i hwithin
    rcases bind_eq_ok_iff.1 (hlossless idOrder) with ⟨a, -, hread⟩
    exact lt_of_attributeValueToJson a v hread hwithin
  · intro hbound order
    have hsigned : Signed v := fun n hn => by
      rcases hintegral n hn with ⟨i, rfl, hlow, -⟩
      exact ⟨i, rfl, hlow, hbound i hn⟩
    rcases exists_attributeValue doubles order v hordered hsigned with ⟨a, hto, hback⟩
    exact bind_eq_ok_iff.2 ⟨a, hto, hback⟩

/-- Variables with an empty text, a null and a negative number at different depths. -/
def storedVariables : Json :=
  .object [("names", .array [.string "", .null]), ("offset", .number (.int (-1)))]

theorem ordered_storedVariables : Ordered storedVariables := by
  intro fields hwithin
  cases hwithin with
  | self => decide
  | field hfield hwithin =>
      rcases List.mem_pair.1 hfield with heq | heq
      · rcases (Prod.mk.inj heq).2 with rfl
        cases hwithin with
        | item hitem hwithin =>
            rcases List.mem_pair.1 hitem with rfl | rfl
            · cases hwithin
            · cases hwithin
      · rcases (Prod.mk.inj heq).2 with rfl
        cases hwithin

theorem number_storedVariables {n : JsonNumber} (h : Within (.number n) storedVariables) :
    n = .int (-1) := by
  cases h with
  | field hfield hwithin =>
      rcases List.mem_pair.1 hfield with heq | heq
      · rcases (Prod.mk.inj heq).2 with rfl
        cases hwithin with
        | item hitem hwithin =>
            rcases List.mem_pair.1 hitem with rfl | rfl
            · cases hwithin
            · cases hwithin
      · rcases (Prod.mk.inj heq).2 with rfl
        cases hwithin
        rfl

/-- The doubles, on integers that have one. -/
def integralDoubles : Doubles where
  ofInt n := n
  text f := toString f.num
  parse text := text.toInt?.map fun n => some (n : Rat)

theorem lossless_storedVariables : Lossless integralDoubles storedVariables := by
  refine (lossless_iff integralDoubles ordered_storedVariables fun n hn => ?_).2 fun i hi => ?_
  · exact ⟨-1, number_storedVariables hn, by decide, by decide⟩
  · rcases JsonNumber.int.inj (number_storedVariables hi) with rfl
    decide

/-- The least integer that only a number without a sign can hold. -/
theorem not_lossless_unsigned : ¬ Lossless integralDoubles (.number (.int 9223372036854775808)) := by
  intro hlossless
  rcases bind_eq_ok_iff.1 (hlossless idOrder) with ⟨a, -, hread⟩
  exact absurd (lt_of_attributeValueToJson a _ hread .self) (by decide)

end EnvAwsDirect
end InfraWeave
