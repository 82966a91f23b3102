import InfraWeave.Defs.Json
import Mathlib.Data.String.Basic

/-!
# Values of nodes

A plan gives the values after a change, and two values of the same shape that mark what is not known
yet and what is sensitive.  `processValues` puts a text in the place of everything marked.
-/

namespace InfraWeave
namespace Graph

/-- `Value::get` with a number. -/
def getIndex (i : Nat) : Json → Option Json
  | .array items => items[i]?
  | _ => none

def isObject (v : Option Json) : Bool :=
  (v.bind Json.asObject).isSome

def isArray (v : Option Json) : Bool :=
  (v.bind Json.asArray).isSome

def keysOf (v : Option Json) : List String :=
  OrderedMap.keys ((v.bind Json.asObject).getD [])

def lengthOf (v : Option Json) : Nat :=
  ((v.bind Json.asArray).getD []).length

/-! ## Sizes -/

theorem sizeOf_bind_get?_lt (key : String) (v : Json) :
    sizeOf ((some v).bind (Json.get? key)) < sizeOf (some v) := by
  have hpos : 1 < sizeOf (some v) := by cases v <;> simp
  cases hget : v.get? key with
  | none => simpa [hget] using hpos
  | some w =>
      cases v with
      | object fields =>
          have hlt := Json.sizeOf_lt_of_lookup hget
          simpa [hget] using hlt
      | _ => cases hget

theorem sizeOf_bind_getIndex_lt (i : Nat) (v : Json) :
    sizeOf ((some v).bind (getIndex i)) < sizeOf (some v) := by
  have hpos : 1 < sizeOf (some v) := by cases v <;> simp
  cases hget : getIndex i v with
  | none => simpa [hget] using hpos
  | some w =>
      cases v with
      | array items =>
          have hlt := List.sizeOf_lt_of_mem (List.mem_of_getElem? hget)
          simp only [Option.bind_some, hget, Option.some.sizeOf_spec, Json.array.sizeOf_spec]
          omega
      | _ => cases hget

/-- Going into three values of which one is there makes them smaller. -/
theorem sizeOf_below {next : Json → Option Json}
    (hnext : ∀ v, sizeOf ((some v).bind next) < sizeOf (some v)) {a u s : Option Json}
    (h : a.isSome ∨ u.isSome ∨ s.isSome) :
    sizeOf (a.bind next) + sizeOf (u.bind next) + sizeOf (s.bind next) <
      sizeOf a + sizeOf u + sizeOf s := by
  have hle : ∀ v : Option Json, sizeOf (v.bind next) ≤ sizeOf v ∧
      (v.isSome = true → sizeOf (v.bind next) < sizeOf v) := by
    intro v
    cases v with
    | none => exact ⟨le_rfl, fun h => by cases h⟩
    | some v => exact ⟨(hnext v).le, fun _ => hnext v⟩
  have ha := hle a
  have hu := hle u
  have hs := hle s
  rcases h with h | h | h
  · have := ha.2 h
    omega
  · have := hu.2 h
    omega
  · have := hs.2 h
    omega

theorem isSome_of_isObject {v : Option Json} (h : isObject v = true) : v.isSome = true := by
  cases v with
  | none => cases h
  | some v => rfl

theorem isSome_of_isArray {v : Option Json} (h : isArray v = true) : v.isSome = true := by
  cases v with
  | none => cases h
  | some v => rfl

theorem isSome_of_or {test : Option Json → Bool} (htest : ∀ v, test v = true → v.isSome = true)
    {a u s : Option Json} (h : (test a || test u || test s) = true) :
    a.isSome ∨ u.isSome ∨ s.isSome := by
  rcases Bool.or_eq_true_iff.1 h with h | h
  · rcases Bool.or_eq_true_iff.1 h with h | h
    · exact Or.inl (htest a h)
    · exact Or.inr (Or.inl (htest u h))
  · exact Or.inr (Or.inr (htest s h))

/-! ## Processing -/

/-- The keys of an object are those of any of the three values. -/
def processValues (after unknown sensitive : Option Json) : Option Json :=
  if sensitive = some (.bool true) then some (.string "(sensitive)")
  else if unknown = some (.bool true) then some (.string "(known after apply)")
  else if _hobject : (isObject after || isObject unknown || isObject sensitive) = true then
    let keys := keysOf after ++ keysOf unknown ++ keysOf sensitive
    some <| .object <| OrderedMap.collect <| keys.filterMap fun k =>
      (processValues (after.bind (Json.get? k)) (unknown.bind (Json.get? k))
        (sensitive.bind (Json.get? k))).map (k, ·)
  else if _harray : (isArray after || isArray unknown || isArray sensitive) = true then
    let maxLen := max (max (lengthOf after) (lengthOf unknown)) (lengthOf sensitive)
    some <| .array <| (List.range maxLen).map fun i =>
      (processValues (after.bind (getIndex i)) (unknown.bind (getIndex i))
        (sensitive.bind (getIndex i))).getD .null
  else after
termination_by sizeOf after + sizeOf unknown + sizeOf sensitive
decreasing_by
  · exact sizeOf_below (sizeOf_bind_get?_lt _) (isSome_of_or (fun _ => isSome_of_isObject) _hobject)
  · exact sizeOf_below (sizeOf_bind_getIndex_lt _) (isSome_of_or (fun _ => isSome_of_isArray) _harray)

section

variable {a u s : Option Json}

theorem processValues_marked (a u : Option Json) :
    processValues a u (some (.bool true)) = some (.string "(sensitive)") := by
  rw [processValues, if_pos rfl]

@[simp] theorem processValues_none : processValues none none none = none := by
  rw [processValues]
  rfl

/-- None of the values is hidden as a whole. -/
def Shown (u s : Option Json) : Prop :=
  s ≠ some (.bool true) ∧ u ≠ some (.bool true)

theorem bind_get?_eq_none {v : Option Json} {k : String} (h : k ∉ keysOf v) :
    v.bind (Json.get? k) = none := by
  cases v with
  | none => rfl
  | some v =>
      cases v with
      | object fields =>
          refine Option.eq_none_iff_forall_ne_some.2 fun w hw => h ?_
          exact OrderedMap.mem_keys_iff.2 ⟨w, hw⟩
      | _ => rfl

/-- The fields that are shown are the processed fields. -/
def processedFields (a u s : Option Json) : List (String × Json) :=
  OrderedMap.collect <| (keysOf a ++ keysOf u ++ keysOf s).filterMap fun k =>
    (processValues (a.bind (Json.get? k)) (u.bind (Json.get? k)) (s.bind (Json.get? k))).map (k, ·)

theorem processValues_object (h : Shown u s)
    (hobject : (isObject a || isObject u || isObject s) = true) :
    processValues a u s = some (.object (processedFields a u s)) := by
  rw [processValues, if_neg h.1, if_neg h.2, dif_pos hobject]
  rfl

theorem processValues_array (h : Shown u s)
    (hobject : (isObject a || isObject u || isObject s) = false)
    (harray : (isArray a || isArray u || isArray s) = true) :
    processValues a u s = some (.array
      ((List.range (max (max (lengthOf a) (lengthOf u)) (lengthOf s))).map fun i =>
        (processValues (a.bind (getIndex i)) (u.bind (getIndex i))
          (s.bind (getIndex i))).getD .null)) := by
  rw [processValues, if_neg h.1, if_neg h.2, dif_neg (by simp [hobject]), dif_pos harray]

theorem processValues_leaf (h : Shown u s)
    (hobject : (isObject a || isObject u || isObject s) = false)
    (harray : (isArray a || isArray u || isArray s) = false) :
    processValues a u s = a := by
  rw [processValues, if_neg h.1, if_neg h.2, dif_neg (by simp [hobject]),
    dif_neg (by simp [harray])]

end

/-! ## Fields -/

theorem lookup_collect_filterMap (f : String → Option Json) (keys : List String) (k : String) :
    (OrderedMap.collect (keys.filterMap fun k => (f k).map (k, ·))).lookup k =
      if k ∈ keys then f k else none := by
  induction keys using List.reverseRecOn with
  | nil => rfl
  | append_singleton keys key ih =>
      rw [List.filterMap_append]
      cases hkey : f key with
      | none =>
          have hnone : ([key].filterMap fun k => (f k).map (k, ·)) = [] := by simp [hkey]
          rw [hnone, List.append_nil, ih]
          by_cases h : k = key
          · simp [h, hkey]
          · simp [h]
      | some v =>
          have hsome : ([key].filterMap fun k => (f k).map (k, ·)) = [(key, v)] := by simp [hkey]
          rw [hsome, OrderedMap.collect_concat, OrderedMap.lookup_insert, ih]
          by_cases h : k = key
          · simp [h, hkey]
          · simp [h]

theorem lookup_processedFields (a u s : Option Json) (k : String) :
    (processedFields a u s).lookup k =
      processValues (a.bind (Json.get? k)) (u.bind (Json.get? k)) (s.bind (Json.get? k)) := by
  refine (lookup_collect_filterMap _ _ k).trans ?_
  split
  · rfl
  · rename_i hk
    -- A key that none of the values has.
    simp only [List.mem_append, not_or] at hk
    rw [bind_get?_eq_none hk.1.1, bind_get?_eq_none hk.1.2, bind_get?_eq_none hk.2,
      processValues_none]

theorem mem_processedFields_iff {a u s : Option Json} {k : String} {v : Json} :
    (k, v) ∈ processedFields a u s ↔
      processValues (a.bind (Json.get? k)) (u.bind (Json.get? k)) (s.bind (Json.get? k)) =
        some v := by
  rw [← lookup_processedFields]
  exact OrderedMap.mem_iff_lookup (OrderedMap.pairwise_collect _)

/-! ## Places -/

theorem bind_get?_of_not_isObject {v : Option Json} (h : isObject v = false) (k : String) :
    v.bind (Json.get? k) = none := by
  cases v with
  | none => rfl
  | some v =>
      cases v with
      | object fields => cases h
      | _ => rfl

/-- A field of what is shown is what is shown of the fields. -/
theorem bind_get?_processValues {a u s : Option Json} (h : Shown u s) (k : String) :
    (processValues a u s).bind (Json.get? k) =
      processValues (a.bind (Json.get? k)) (u.bind (Json.get? k)) (s.bind (Json.get? k)) := by
  by_cases hobject : (isObject a || isObject u || isObject s) = true
  · rw [processValues_object h hobject]
    exact lookup_processedFields a u s k
  · have hnone := Bool.eq_false_iff.2 hobject
    have hparts : isObject a = false ∧ isObject u = false ∧ isObject s = false := by
      simpa [and_assoc] using hnone
    rw [bind_get?_of_not_isObject hparts.1, bind_get?_of_not_isObject hparts.2.1,
      bind_get?_of_not_isObject hparts.2.2, processValues_none]
    by_cases harray : (isArray a || isArray u || isArray s) = true
    · rw [processValues_array h hnone harray]
      rfl
    · rw [processValues_leaf h hnone (Bool.eq_false_iff.2 harray)]
      exact bind_get?_of_not_isObject hparts.1 k

theorem bind_at?_cons (v : Option Json) (k : String) (path : List String) :
    v.bind (fun v => v.at? (k :: path)) = (v.bind (Json.get? k)).bind fun v => v.at? path := by
  cases v with
  | none => rfl
  | some v => exact Json.at?_cons v k path

/-- What is shown at a place is what is shown of the values there, unless something that it lies in
is hidden as a whole. -/
theorem bind_at?_processValues {a u s : Option Json} (path : List String)
    (h : ∀ above k below, path = above ++ k :: below →
      Shown (u.bind fun v => v.at? above) (s.bind fun v => v.at? above)) :
    (processValues a u s).bind (fun v => v.at? path) =
      processValues (a.bind fun v => v.at? path) (u.bind fun v => v.at? path)
        (s.bind fun v => v.at? path) := by
  induction path generalizing a u s with
  | nil => simp
  | cons k rest ih =>
      have hshown : Shown u s := by simpa using h [] k rest rfl
      simp only [bind_at?_cons, bind_get?_processValues hshown]
      refine ih fun above k' below hpath => ?_
      have habove := h (k :: above) k' below (by rw [hpath, List.cons_append])
      rwa [bind_at?_cons, bind_at?_cons] at habove

/-! ## What does not show -/

/-- The two values differ in nothing but what lies at places that are marked as sensitive. -/
inductive Alike : Option Json → Option Json → Option Json → Prop where
  | same (s a : Option Json) : Alike s a a
  | marked (a a' : Option Json) : Alike (some (.bool true)) a a'
  | object {s : Option Json} {fields fields' : List (String × Json)}
      (h : ∀ k, Alike (s.bind (Json.get? k)) (fields.lookup k) (fields'.lookup k)) :
      Alike s (some (.object fields)) (some (.object fields'))
  | array {s : Option Json} {items items' : List Json}
      (h : ∀ i, Alike (s.bind (getIndex i)) items[i]? items'[i]?) :
      Alike s (some (.array items)) (some (.array items'))

section

variable {s a a' : Option Json}

/-- Without a mark the two values are there or not. -/
theorem Alike.isSome_eq (h : Alike s a a') (hs : s = none) : a.isSome = a'.isSome := by
  cases h with
  | same => rfl
  | marked => cases hs
  | object => rfl
  | array => rfl

theorem bind_getIndex_eq_none {i : Nat} (h : lengthOf s ≤ i) : s.bind (getIndex i) = none := by
  cases s with
  | none => rfl
  | some v =>
      cases v with
      | array items => exact List.getElem?_eq_none h
      | _ => rfl

/-- Items beyond the marks are the same in number. -/
theorem max_length_eq {items items' : List Json}
    (h : ∀ i, Alike (s.bind (getIndex i)) items[i]? items'[i]?) :
    max items.length (lengthOf s) = max items'.length (lengthOf s) := by
  have hiff : ∀ i, lengthOf s ≤ i → (i < items.length ↔ i < items'.length) := by
    intro i hi
    have hsome := (h i).isSome_eq (bind_getIndex_eq_none hi)
    rw [Bool.eq_iff_iff, isSome_getElem?, isSome_getElem?] at hsome
    exact hsome
  rcases Nat.lt_trichotomy items.length items'.length with hlt | heq | hlt
  · have hsmall : items'.length ≤ lengthOf s := by
      by_contra hlarge
      have := (hiff (max items.length (lengthOf s)) (le_max_right _ _)).2 (by omega)
      omega
    omega
  · rw [heq]
  · have hsmall : items.length ≤ lengthOf s := by
      by_contra hlarge
      have := (hiff (max items'.length (lengthOf s)) (le_max_right _ _)).1 (by omega)
      omega
    omega

theorem processValues_eq_of_hidden {u : Option Json} (h : ¬ Shown u s) (a a' : Option Json) :
    processValues a u s = processValues a' u s := by
  rw [processValues, processValues]
  by_cases hs : s = some (.bool true)
  · rw [if_pos hs, if_pos hs]
  · have hu : u = some (.bool true) := by
      by_contra hu
      exact h ⟨hs, hu⟩
    rw [if_neg hs, if_neg hs, if_pos hu, if_pos hu]

/-- Nothing that is marked as sensitive shows in what is processed. -/
theorem processValues_eq_of_alike (h : Alike s a a') (u : Option Json) :
    processValues a u s = processValues a' u s := by
  induction h generalizing u with
  | same => rfl
  | marked => rw [processValues_marked, processValues_marked]
  | @object s fields fields' _ ih =>
      by_cases hshown : Shown u s
      · have hfields : processedFields (some (.object fields)) u s =
            processedFields (some (.object fields')) u s := by
          refine OrderedMap.eq_of_mem_iff (OrderedMap.pairwise_collect _)
            (OrderedMap.pairwise_collect _) fun entry => ?_
          rcases entry with ⟨k, v⟩
          have hlookup := ih k (u.bind (Json.get? k))
          rw [mem_processedFields_iff, mem_processedFields_iff]
          exact hlookup ▸ Iff.rfl
        rw [processValues_object hshown rfl, processValues_object hshown rfl, hfields]
      · exact processValues_eq_of_hidden hshown _ _
  | @array s items items' halike ih =>
      by_cases hshown : Shown u s
      · by_cases hobject : (isObject u || isObject s) = true
        · -- With keys from elsewhere, the items do not count.
          have hfields : processedFields (some (.array items)) u s =
              processedFields (some (.array items')) u s := rfl
          rw [processValues_object (a := some (.array items)) hshown hobject,
            processValues_object (a := some (.array items')) hshown hobject, hfields]
        · have hnone : (isObject u || isObject s) = false := Bool.eq_false_iff.2 hobject
          have hlength : max (max items.length (lengthOf u)) (lengthOf s) =
              max (max items'.length (lengthOf u)) (lengthOf s) := by
            rw [max_right_comm, max_length_eq halike, max_right_comm]
          have hitem : ∀ i, processValues items[i]? (u.bind (getIndex i)) (s.bind (getIndex i)) =
              processValues items'[i]? (u.bind (getIndex i)) (s.bind (getIndex i)) :=
            fun i => ih i (u.bind (getIndex i))
          rw [processValues_array (a := some (.array items)) hshown hnone rfl,
            processValues_array (a := some (.array items')) hshown hnone rfl]
          simp only [lengthOf, getIndex, Option.bind_some, Json.asArray, Option.getD_some]
            at hlength hitem ⊢
          rw [hlength]
          simp only [hitem]
      · exact processValues_eq_of_hidden hshown _ _

end

end Graph
end InfraWeave
