import InfraWeave.Defs.ResourceChangeSecrecy
import Mathlib.Data.String.Basic

/-!
# What the stored resource changes tell

The diff of an update stores a change under the keys that lead to it, joined with dots.  A place is
such a list of keys; `Differs` says that the values there are stored.  The stored map tells the
value after when no two places have one name, and when nothing is removed or set to null.
-/

namespace InfraWeave

namespace Json

mutual

/-- The maps of a value list their keys in ascending order. -/
def ascends : Json → Bool
  | .object fields => decide ((OrderedMap.keys fields).Pairwise (· < ·)) && fieldsAscend fields
  | .array items => itemsAscend items
  | _ => true

def itemsAscend : List Json → Bool
  | [] => true
  | item :: items => ascends item && itemsAscend items

def fieldsAscend : List (String × Json) → Bool
  | [] => true
  | (_, value) :: fields => ascends value && fieldsAscend fields

end

theorem fieldsAscend_iff {fields : List (String × Json)} :
    fieldsAscend fields = true ↔ ∀ entry ∈ fields, entry.2.ascends = true := by
  induction fields with
  | nil => simp [fieldsAscend]
  | cons entry fields ih => simp [fieldsAscend, ih]

theorem ascends_object {fields : List (String × Json)} : (Json.object fields).ascends = true ↔
    (fields.Pairwise fun a b => a.1 < b.1) ∧ ∀ entry ∈ fields, entry.2.ascends = true := by
  rw [ascends, Bool.and_eq_true, decide_eq_true_iff, fieldsAscend_iff, OrderedMap.keys,
    List.pairwise_map]

end Json

namespace ResourceChange

open OrderedMap

/-! ## Places -/

/-- The keys lead through objects. -/
def Place : Option Json → List String → Prop
  | _, [] => True
  | some (.object fields), key :: rest => Place (fields.lookup key) rest
  | _, _ :: _ => False

def valueAt : Option Json → List String → Option Json
  | value, [] => value
  | some (.object fields), key :: rest => valueAt (fields.lookup key) rest
  | _, _ :: _ => none

def IsObject (value : Option Json) : Prop :=
  ∃ fields, value = some (.object fields)

/-- The path under which a change is stored. -/
def joinedPath (place : List String) : String :=
  place.foldl joinPath ""

/-- The values of a place are compared, and are not the same. -/
structure Differs (before after : Option Json) (place : List String) : Prop where
  inBefore : Place before place
  inAfter : Place after place
  differ : valueAt before place ≠ valueAt after place
  notObjects : ¬ (IsObject (valueAt before place) ∧ IsObject (valueAt after place))

/-- What is stored of two values. -/
def storedEntry (before after : Option Json) : Json :=
  changeEntry (before.getD .null) (after.getD .null) false

/-! ## What is asked -/

/-- An object as a plan contains it. -/
@[ext] structure Document where
  fields : List (String × Json)
  ascends : (Json.object fields).ascends = true

def Document.value (document : Document) : Option Json :=
  some (.object document.fields)

/-- No marker of a place is `true`. -/
def NoneTrue (markers : Option Json) : Prop :=
  ∀ place : List String, isSensitive (place.foldl fieldMarker markers) = false

/-- Nothing is sensitive, and nothing is unknown. -/
structure Unmarked where
  beforeSensitive : Option Json
  afterSensitive : Option Json
  afterUnknown : Option Json
  noneBefore : NoneTrue beforeSensitive
  noneAfter : NoneTrue afterSensitive
  noneUnknown : NoneTrue afterUnknown

theorem isSensitive_foldl_none (place : List String) :
    isSensitive (place.foldl fieldMarker none) = false := by
  induction place with
  | nil => rfl
  | cons key place ih => exact ih

/-- The changes of an update, as they are stored. -/
def storedChanges (order : KeyOrder) (markers : Unmarked) (before after : Document) :
    Option Changes :=
  computeChangesWithSensitivity order before.value after.value markers.beforeSensitive
    markers.afterSensitive markers.afterUnknown

/-- The stored changes tell what the plan does. -/
structure Complete (before after : Document) : Prop where
  unchanged : ∀ order markers, storedChanges order markers before after = none ↔ before = after
  stored : ∀ order markers place, Differs before.value after.value place →
    ∃ changes, storedChanges order markers before after = some changes ∧
      changes.lookup (joinedPath place) =
        some (storedEntry (valueAt before.value place) (valueAt after.value place))
  apart : ∀ place place', Differs before.value after.value place →
    Differs before.value after.value place' → joinedPath place = joinedPath place' → place = place'
  determines : ∀ order markers order' markers' after',
    storedChanges order markers before after = storedChanges order' markers' before after' →
    after = after'

/-- A plan makes some of the changes of another plan. -/
def PartOf (before part after : Document) : Prop :=
  ∀ place, Differs before.value part.value place → Differs before.value after.value place ∧
    valueAt part.value place = valueAt after.value place

/-- No value is lost for null, and no place of the value before that could change with a changed
place is stored under the same path. -/
structure Clear (before after : Document) : Prop where
  kept : ∀ place, Differs before.value after.value place →
    (valueAt before.value place).getD .null ≠ .null →
      (valueAt after.value place).getD .null ≠ .null
  apart : ∀ place, Differs before.value after.value place → ∀ place', Place before.value place' →
    joinedPath place' = joinedPath place → place' <+: place ∨ place <+: place'

/-! ## Values of places -/

section

variable {value before after : Option Json} {fields beforeMap afterMap : List (String × Json)}
  {key : String} {place place' rest : List String}

theorem place_cons : Place value (key :: rest) ↔
    ∃ fields, value = some (.object fields) ∧ Place (fields.lookup key) rest := by
  constructor
  · intro h
    cases value with
    | none => exact h.elim
    | some value =>
        cases value with
        | object fields => exact ⟨fields, rfl, h⟩
        | _ => exact h.elim
  · rintro ⟨fields, rfl, h⟩
    exact h

theorem valueAt_cons_of_not_isObject (h : ¬ IsObject value) :
    valueAt value (key :: rest) = none := by
  cases value with
  | none => rfl
  | some value =>
      cases value with
      | object fields => exact absurd ⟨fields, rfl⟩ h
      | _ => rfl

theorem isObject_of_place (h : Place value (place ++ key :: rest)) :
    IsObject (valueAt value place) := by
  induction place generalizing value with
  | nil =>
      obtain ⟨fields, hvalue, -⟩ := place_cons.1 h
      exact ⟨fields, hvalue⟩
  | cons first place ih =>
      obtain ⟨fields, rfl, hrest⟩ := place_cons.1 h
      exact ih hrest

theorem valueAt_append : valueAt value (place ++ rest) = valueAt (valueAt value place) rest := by
  induction place generalizing value with
  | nil => rfl
  | cons first place ih =>
      by_cases hobject : IsObject value
      · obtain ⟨fields, rfl⟩ := hobject
        exact ih
      · rw [List.cons_append, valueAt_cons_of_not_isObject hobject,
          valueAt_cons_of_not_isObject hobject]
        cases rest <;> rfl

theorem differs_nil : Differs before after [] ↔
    before ≠ after ∧ ¬ (IsObject before ∧ IsObject after) :=
  ⟨fun h => ⟨h.differ, h.notObjects⟩, fun h => ⟨trivial, trivial, h.1, h.2⟩⟩

theorem differs_cons : Differs before after (key :: rest) ↔
    ∃ beforeMap afterMap, before = some (.object beforeMap) ∧ after = some (.object afterMap) ∧
      Differs (beforeMap.lookup key) (afterMap.lookup key) rest := by
  constructor
  · intro h
    obtain ⟨beforeMap, rfl, hbefore⟩ := place_cons.1 h.inBefore
    obtain ⟨afterMap, rfl, hafter⟩ := place_cons.1 h.inAfter
    exact ⟨beforeMap, afterMap, rfl, rfl, hbefore, hafter, h.differ, h.notObjects⟩
  · rintro ⟨beforeMap, afterMap, rfl, rfl, h⟩
    exact ⟨h.inBefore, h.inAfter, h.differ, h.notObjects⟩

theorem differs_objects_cons :
    Differs (some (.object beforeMap)) (some (.object afterMap)) (key :: rest) ↔
      Differs (beforeMap.lookup key) (afterMap.lookup key) rest :=
  ⟨fun h => ⟨h.inBefore, h.inAfter, h.differ, h.notObjects⟩,
    fun h => ⟨h.inBefore, h.inAfter, h.differ, h.notObjects⟩⟩

theorem not_differs_self : ¬ Differs value value place :=
  fun h => h.differ rfl

/-- Nothing is compared below a place that is stored. -/
theorem Differs.eq_of_prefix (h : Differs before after place) (h' : Differs before after place')
    (habove : place <+: place') : place = place' := by
  obtain ⟨rest, rfl⟩ := habove
  cases rest with
  | nil => exact (List.append_nil _).symm
  | cons key rest =>
      exact absurd ⟨isObject_of_place h'.inBefore, isObject_of_place h'.inAfter⟩ h.notObjects

theorem Differs.eq_of_comparable (h : Differs before after place)
    (h' : Differs before after place') (hcomparable : place <+: place' ∨ place' <+: place) :
    place = place' := by
  rcases hcomparable with habove | habove
  · exact h.eq_of_prefix h' habove
  · exact (h'.eq_of_prefix h habove).symm

/-- A value below an object is not the object. -/
theorem sizeOf_valueAt_lt {v w : Json} (hv : valueAt value place = some v)
    (hw : valueAt value (place ++ key :: rest) = some w) : sizeOf w < sizeOf v := by
  rw [valueAt_append, hv] at hw
  clear hv
  induction rest generalizing v key with
  | nil =>
      by_cases hobject : IsObject (some v)
      · obtain ⟨fields, hfields⟩ := hobject
        obtain rfl := Option.some.inj hfields
        exact Json.sizeOf_lt_of_lookup hw
      · rw [valueAt_cons_of_not_isObject hobject] at hw
        cases hw
  | cons next rest ih =>
      by_cases hobject : IsObject (some v)
      · obtain ⟨fields, hfields⟩ := hobject
        obtain rfl := Option.some.inj hfields
        change valueAt (fields.lookup key) (next :: rest) = some w at hw
        cases hlookup : fields.lookup key with
        | none =>
            rw [hlookup] at hw
            cases hw
        | some u =>
            rw [hlookup] at hw
            exact (ih hw).trans (Json.sizeOf_lt_of_lookup hlookup)
      · rw [valueAt_cons_of_not_isObject hobject] at hw
        cases hw

end

/-! ## The diff of unmarked values -/

/-- The diff of two values of which one may be absent. -/
def diffAt (order : KeyOrder) (path : String) (before after : Option Json) (changes : Changes) :
    Changes :=
  match before, after with
  | some before, some after =>
      diffValuesWithSensitivity order path before after none none none changes
  | none, none => changes
  | before, after => insert path (storedEntry before after) changes

theorem diff_self (order : KeyOrder) (path : String) (value : Json)
    (beforeSensitive afterSensitive afterUnknown : Option Json) (changes : Changes) :
    diffValuesWithSensitivity order path value value beforeSensitive afterSensitive afterUnknown
      changes = changes := by
  by_cases hobject : value.asObject = none
  · rw [diff_whole order path (Or.inl hobject), if_pos rfl]
  · obtain ⟨fields, rfl⟩ := Json.exists_object_of_asObject hobject
    rw [diff_objects]
    have hkey : ∀ acc key, diffKey order path fields fields beforeSensitive afterSensitive
        afterUnknown acc key = acc := by
      intro acc key
      unfold diffKey
      cases fields.lookup key with
      | none => rfl
      | some v => exact if_neg (not_not.2 rfl)
    induction order.arrange [] (allKeys fields fields) generalizing changes with
    | nil => rfl
    | cons key keys ih =>
        rw [List.foldl_cons, hkey]
        exact ih changes

theorem diffKey_eq_diffAt (order : KeyOrder) (path : String)
    (beforeMap afterMap : List (String × Json)) (changes : Changes) (key : String) :
    diffKey order path beforeMap afterMap none none none changes key =
      diffAt (order.under key) (joinPath path key) (beforeMap.lookup key) (afterMap.lookup key)
        changes := by
  unfold diffKey diffAt
  cases hbefore : beforeMap.lookup key with
  | none => cases afterMap.lookup key <;> rfl
  | some before =>
      cases hafter : afterMap.lookup key with
      | none => rfl
      | some after =>
          dsimp only
          split
          · rfl
          · rename_i heq
            rw [not_not.1 heq]
            exact (diff_self _ _ _ _ _ _ _).symm

theorem NoneTrue.field {markers : Option Json} (h : NoneTrue markers) (key : String) :
    NoneTrue (fieldMarker markers key) :=
  fun place => h (key :: place)

/-- Markers of which none is `true` are as good as none. -/
theorem diff_unmarked (order : KeyOrder) (path : String) (before after : Json)
    {beforeSensitive afterSensitive afterUnknown : Option Json}
    (hbefore : NoneTrue beforeSensitive) (hafter : NoneTrue afterSensitive)
    (hunknown : NoneTrue afterUnknown) (changes : Changes) :
    diffValuesWithSensitivity order path before after beforeSensitive afterSensitive afterUnknown
      changes = diffAt order path (some before) (some after) changes := by
  have hb : isSensitive beforeSensitive = false := hbefore []
  have ha : isSensitive afterSensitive = false := hafter []
  have hu : isSensitive afterUnknown = false := hunknown []
  unfold diffAt
  dsimp only
  by_cases hobject : before.asObject = none ∨ after.asObject = none
  · rw [diff_whole order path hobject, diff_whole order path hobject, hb, ha, hu]
    rfl
  · obtain ⟨hbo, hao⟩ := not_or.1 hobject
    obtain ⟨beforeMap, rfl⟩ := Json.exists_object_of_asObject hbo
    obtain ⟨afterMap, rfl⟩ := Json.exists_object_of_asObject hao
    rw [diff_objects, diff_objects]
    congr 1
    funext acc key
    rw [diffKey_eq_diffAt]
    have hkb : isSensitive (fieldMarker beforeSensitive key) = false := hbefore.field key []
    have hka : isSensitive (fieldMarker afterSensitive key) = false := hafter.field key []
    have hku : isSensitive (fieldMarker afterUnknown key) = false := hunknown.field key []
    unfold diffKey
    cases hlookup : beforeMap.lookup key with
    | none =>
        cases afterMap.lookup key with
        | none => rfl
        | some after =>
            dsimp only
            rw [hka, hku]
            rfl
    | some before =>
        cases afterMap.lookup key with
        | none =>
            dsimp only
            rw [hkb]
            rfl
        | some after =>
            dsimp only
            split
            · have := Json.sizeOf_lt_of_lookup hlookup
              exact diff_unmarked _ _ before after (hbefore.field key) (hafter.field key)
                (hunknown.field key) acc
            · rename_i heq
              rw [not_not.1 heq]
              exact (diff_self _ _ _ _ _ _ _).symm
termination_by sizeOf before

/-- The entry of a place. -/
def record (before after : Option Json) (path : String) (changes : Changes)
    (place : List String) : Changes :=
  insert (place.foldl joinPath path) (storedEntry (valueAt before place) (valueAt after place))
    changes

theorem diffAt_of_not_objects (order : KeyOrder) (path : String) {before after : Option Json}
    (h : ¬ (IsObject before ∧ IsObject after)) (changes : Changes) :
    diffAt order path before after changes =
      if before = after then changes else insert path (storedEntry before after) changes := by
  unfold diffAt
  cases before with
  | none => cases after <;> rfl
  | some before =>
      cases after with
      | none => rfl
      | some after =>
          have hobject : before.asObject = none ∨ after.asObject = none := by
            by_contra hnot
            obtain ⟨hbo, hao⟩ := not_or.1 hnot
            obtain ⟨beforeMap, rfl⟩ := Json.exists_object_of_asObject hbo
            obtain ⟨afterMap, rfl⟩ := Json.exists_object_of_asObject hao
            exact h ⟨⟨_, rfl⟩, ⟨_, rfl⟩⟩
          dsimp only
          rw [diff_whole order path hobject]
          simp only [Option.some_inj]
          rfl

/-- The diff stores the values of these places one after the other. -/
structure Stores (order : KeyOrder) (before after : Option Json) (places : List (List String)) :
    Prop where
  nodup : places.Nodup
  mem : ∀ place, place ∈ places ↔ Differs before after place
  diff : ∀ path changes, diffAt order path before after changes =
    places.foldl (record before after path) changes

theorem exists_stores_of_not_objects (order : KeyOrder) {before after : Option Json}
    (h : ¬ (IsObject before ∧ IsObject after)) : ∃ places, Stores order before after places := by
  by_cases heq : before = after
  · subst heq
    refine ⟨[], .nil, fun place => by simp [not_differs_self], fun path changes => ?_⟩
    rw [diffAt_of_not_objects order path h, if_pos rfl]
    rfl
  · refine ⟨[[]], List.nodup_singleton _, fun place => ?_, fun path changes => ?_⟩
    · rw [List.mem_singleton]
      constructor
      · rintro rfl
        exact differs_nil.2 ⟨heq, h⟩
      · intro hdiffers
        cases place with
        | nil => rfl
        | cons key rest =>
            obtain ⟨beforeMap, afterMap, rfl, rfl, -⟩ := differs_cons.1 hdiffers
            exact absurd ⟨⟨_, rfl⟩, ⟨_, rfl⟩⟩ h
    · rw [diffAt_of_not_objects order path h, if_neg heq]
      rfl

section

variable {order : KeyOrder} {beforeMap afterMap : List (String × Json)}

/-- The places of the fields of two objects. -/
theorem exists_stores_keys
    (hbelow : ∀ key, ∃ places,
      Stores (order.under key) (beforeMap.lookup key) (afterMap.lookup key) places)
    {keys : List String} (hkeys : keys.Nodup) : ∃ places : List (List String), places.Nodup ∧
      (∀ place, place ∈ places ↔ ∃ key ∈ keys, ∃ rest, place = key :: rest ∧
        Differs (beforeMap.lookup key) (afterMap.lookup key) rest) ∧
      ∀ path changes, keys.foldl (diffKey order path beforeMap afterMap none none none) changes =
        places.foldl (record (some (.object beforeMap)) (some (.object afterMap)) path)
          changes := by
  induction keys with
  | nil => exact ⟨[], .nil, by simp, fun _ _ => rfl⟩
  | cons key keys ih =>
      obtain ⟨hkey, hkeys⟩ := List.nodup_cons.1 hkeys
      obtain ⟨places, hplaces, hmem, hfold⟩ := ih hkeys
      obtain ⟨below, hstores⟩ := hbelow key
      refine ⟨below.map (key :: ·) ++ places, ?_, fun place => ?_, fun path changes => ?_⟩
      · refine List.nodup_append.2 ⟨hstores.nodup.map List.cons_injective, hplaces, ?_⟩
        intro place hplace place' hplace' heq
        obtain ⟨rest, -, rfl⟩ := List.mem_map.1 hplace
        obtain ⟨key', hkey', rest', rfl, -⟩ := (hmem place').1 hplace'
        obtain ⟨rfl, -⟩ := List.cons.inj heq
        exact hkey hkey'
      · rw [List.mem_append, hmem, List.mem_map]
        constructor
        · rintro (⟨rest, hrest, rfl⟩ | ⟨key', hkey', rest, rfl, hrest⟩)
          · exact ⟨key, List.mem_cons_self, rest, rfl, (hstores.mem rest).1 hrest⟩
          · exact ⟨key', List.mem_cons_of_mem _ hkey', rest, rfl, hrest⟩
        · rintro ⟨key', hkey', rest, rfl, hrest⟩
          rcases List.mem_cons.1 hkey' with rfl | hkey'
          · exact Or.inl ⟨rest, (hstores.mem rest).2 hrest, rfl⟩
          · exact Or.inr ⟨key', hkey', rest, rfl, hrest⟩
      · rw [List.foldl_cons, diffKey_eq_diffAt, hstores.diff, hfold, List.foldl_append,
          List.foldl_map]
        rfl

theorem exists_stores_objects
    (hbelow : ∀ key, ∃ places,
      Stores (order.under key) (beforeMap.lookup key) (afterMap.lookup key) places) :
    ∃ places, Stores order (some (.object beforeMap)) (some (.object afterMap)) places := by
  have harrange := order.perm [] (allKeys beforeMap afterMap)
  obtain ⟨places, hplaces, hmem, hfold⟩ :=
    exists_stores_keys hbelow (harrange.nodup_iff.2 (List.nodup_dedup _))
  refine ⟨places, hplaces, fun place => ?_, fun path changes => ?_⟩
  · rw [hmem]
    constructor
    · rintro ⟨key, -, rest, rfl, hrest⟩
      exact differs_objects_cons.2 hrest
    · intro h
      cases place with
      | nil => exact absurd ⟨⟨_, rfl⟩, ⟨_, rfl⟩⟩ h.notObjects
      | cons key rest =>
          have hrest := differs_objects_cons.1 h
          refine ⟨key, harrange.mem_iff.2 ?_, rest, rfl, hrest⟩
          -- A key of neither object has no place that differs.
          cases hbefore : beforeMap.lookup key with
          | some v => exact mem_allKeys_left hbefore
          | none =>
              cases hafter : afterMap.lookup key with
              | some w => exact mem_allKeys_right hafter
              | none =>
                  rw [hbefore, hafter] at hrest
                  exact absurd hrest not_differs_self
  · unfold diffAt
    dsimp only
    rw [diff_objects]
    exact hfold path changes

end

theorem not_isObject_none : ¬ IsObject none := by
  rintro ⟨fields, h⟩
  cases h

theorem exists_stores_some (order : KeyOrder) (before : Json) (after : Option Json) :
    ∃ places, Stores order (some before) after places := by
  by_cases hobjects : IsObject (some before) ∧ IsObject after
  · obtain ⟨⟨beforeMap, hbefore⟩, ⟨afterMap, rfl⟩⟩ := hobjects
    rw [hbefore]
    refine exists_stores_objects fun key => ?_
    cases hlookup : beforeMap.lookup key with
    | none => exact exists_stores_of_not_objects _ fun h => not_isObject_none h.1
    | some value =>
        have hsize : sizeOf value < sizeOf before := by
          rw [Option.some.inj hbefore]
          exact Json.sizeOf_lt_of_lookup hlookup
        exact exists_stores_some (order.under key) value (afterMap.lookup key)
  · exact exists_stores_of_not_objects order hobjects
termination_by sizeOf before

/-! ## The value after -/

/-- A value is determined by what differs from the value before. -/
theorem eq_of_differs (before : Option Json) {after after' : Json}
    (hafter : after.ascends = true) (hafter' : after'.ascends = true)
    (hsame : ∀ place, Differs before (some after) place ↔ Differs before (some after') place)
    (hvalue : ∀ place, Differs before (some after) place →
      valueAt (some after) place = valueAt (some after') place) : after = after' := by
  by_cases hobjects : IsObject before ∧ IsObject (some after) ∧ IsObject (some after')
  · obtain ⟨⟨beforeMap, rfl⟩, ⟨afterMap, hmap⟩, ⟨afterMap', hmap'⟩⟩ := hobjects
    obtain rfl := Option.some.inj hmap'
    have hobject := Option.some.inj hmap
    subst hobject
    obtain ⟨hsorted, hfields⟩ := Json.ascends_object.1 hafter
    obtain ⟨hsorted', hfields'⟩ := Json.ascends_object.1 hafter'
    have hkey : ∀ key, afterMap.lookup key = afterMap'.lookup key := by
      intro key
      have hbelow : ∀ rest, Differs (beforeMap.lookup key) (afterMap.lookup key) rest ↔
          Differs (beforeMap.lookup key) (afterMap'.lookup key) rest := fun rest => by
        rw [← differs_objects_cons, ← differs_objects_cons]
        exact hsame (key :: rest)
      have hvalues : ∀ rest, Differs (beforeMap.lookup key) (afterMap.lookup key) rest →
          valueAt (afterMap.lookup key) rest = valueAt (afterMap'.lookup key) rest := fun rest h =>
        hvalue (key :: rest) (differs_objects_cons.2 h)
      cases hlookup : afterMap.lookup key with
      | none =>
          rw [hlookup] at hbelow hvalues
          cases hbefore : beforeMap.lookup key with
          | none =>
              -- A key of the other value alone would differ.
              by_contra hne
              rw [hbefore] at hbelow
              have hdiffers := differs_nil.2 ⟨hne, fun h => not_isObject_none h.1⟩
              exact not_differs_self ((hbelow []).2 hdiffers)
          | some value =>
              rw [hbefore] at hvalues
              exact hvalues [] (differs_nil.2 ⟨Option.some_ne_none value,
                fun h => not_isObject_none h.2⟩)
      | some value =>
          rw [hlookup] at hbelow hvalues
          cases hlookup' : afterMap'.lookup key with
          | none =>
              rw [hlookup'] at hbelow hvalues
              cases hbefore : beforeMap.lookup key with
              | none =>
                  rw [hbefore] at hvalues
                  exact hvalues [] (differs_nil.2 ⟨(Option.some_ne_none value).symm,
                    fun h => not_isObject_none h.1⟩)
              | some old =>
                  rw [hbefore] at hbelow hvalues
                  exact hvalues [] ((hbelow []).2 (differs_nil.2 ⟨Option.some_ne_none old,
                    fun h => not_isObject_none h.2⟩))
          | some value' =>
              rw [hlookup'] at hbelow hvalues
              have hsize := Json.sizeOf_lt_of_lookup hlookup
              exact congrArg some (eq_of_differs (beforeMap.lookup key)
                (hfields _ (mem_of_lookup hlookup)) (hfields' _ (mem_of_lookup hlookup'))
                hbelow hvalues)
    refine congrArg Json.object (eq_of_mem_iff hsorted hsorted' fun entry => ?_)
    rw [mem_iff_lookup hsorted, mem_iff_lookup hsorted', hkey]
  · -- The whole values are compared.
    have hvalues : Differs before (some after) [] → after = after' := fun h =>
      Option.some.inj (hvalue [] h)
    by_cases hboth : IsObject before ∧ IsObject (some after)
    · have hnot : ¬ IsObject (some after') := fun h => hobjects ⟨hboth.1, hboth.2, h⟩
      have hne : before ≠ some after' := fun h => hnot (h ▸ hboth.1)
      exact hvalues ((hsame []).2 (differs_nil.2 ⟨hne, fun h => hnot h.2⟩))
    · by_cases heq : before = some after
      · by_contra hne
        have hne' : before ≠ some after' := fun h => hne (Option.some.inj (heq.symm.trans h))
        have hnot : ¬ IsObject before := fun h => hboth ⟨h, heq ▸ h⟩
        exact hne (hvalues ((hsame []).2 (differs_nil.2 ⟨hne', fun h => hnot h.1⟩)))
      · exact hvalues (differs_nil.2 ⟨heq, hboth⟩)
termination_by sizeOf after

/-! ## The stored map -/

section

variable {order : KeyOrder} {markers : Unmarked} {before after : Document}

theorem storedChanges_eq : storedChanges order markers before after =
    if (diffAt order "" before.value after.value []).isEmpty then none
    else some (diffAt order "" before.value after.value []) := by
  have hdiff := diff_unmarked order "" (.object before.fields) (.object after.fields)
    markers.noneBefore markers.noneAfter markers.noneUnknown []
  unfold storedChanges computeChangesWithSensitivity Document.value
  dsimp only
  rw [hdiff]

theorem storedChanges_eq_some {changes : Changes}
    (h : storedChanges order markers before after = some changes) :
    diffAt order "" before.value after.value [] = changes := by
  rw [storedChanges_eq] at h
  split at h
  · cases h
  · exact Option.some.inj h

/-- The entries of the places that differ, those of one path over each other. -/
theorem exists_collect (order : KeyOrder) (before after : Document) :
    ∃ places : List (List String), places.Nodup ∧
      (∀ place, place ∈ places ↔ Differs before.value after.value place) ∧
      diffAt order "" before.value after.value [] = collect (places.map fun place =>
        (joinedPath place,
          storedEntry (valueAt before.value place) (valueAt after.value place))) := by
  obtain ⟨places, hstores⟩ := exists_stores_some order (.object before.fields) after.value
  refine ⟨places, hstores.nodup, hstores.mem, (hstores.diff "" []).trans ?_⟩
  unfold collect
  rw [List.foldl_map]
  rfl

theorem exists_place_of_lookup {path : String} {entry : Json}
    (h : (diffAt order "" before.value after.value []).lookup path = some entry) :
    ∃ place, Differs before.value after.value place ∧ joinedPath place = path ∧
      entry = storedEntry (valueAt before.value place) (valueAt after.value place) := by
  obtain ⟨places, -, hmem, hcollect⟩ := exists_collect order before after
  rw [hcollect, lookup_collect_reverse] at h
  obtain ⟨place, hplace, heq⟩ := List.mem_map.1 (List.mem_reverse.1 (mem_of_lookup h))
  obtain ⟨hpath, hentry⟩ := Prod.mk.inj heq
  exact ⟨place, (hmem place).1 hplace, hpath, hentry.symm⟩

theorem exists_lookup_of_differs (order : KeyOrder) {place : List String}
    (h : Differs before.value after.value place) :
    ∃ entry, (diffAt order "" before.value after.value []).lookup (joinedPath place) =
      some entry := by
  obtain ⟨places, -, hmem, hcollect⟩ := exists_collect order before after
  rw [hcollect, ← mem_keys_iff, keys_collect]
  exact List.mem_map.2 ⟨_, List.mem_map_of_mem ((hmem place).2 h), rfl⟩

theorem pairwise_diffAt :
    (diffAt order "" before.value after.value []).Pairwise fun a b => a.1 < b.1 := by
  obtain ⟨places, -, -, hcollect⟩ := exists_collect order before after
  rw [hcollect]
  exact pairwise_collect _

/-- Nothing is stored only if nothing has changed. -/
theorem storedChanges_eq_none :
    storedChanges order markers before after = none ↔ before = after := by
  have hempty : storedChanges order markers before after = none ↔
      diffAt order "" before.value after.value [] = [] := by
    rw [storedChanges_eq, ← List.isEmpty_iff]
    cases (diffAt order "" before.value after.value []).isEmpty <;> simp
  rw [hempty]
  constructor
  · intro hnil
    have hnone : ∀ place, ¬ Differs before.value after.value place := by
      intro place h
      obtain ⟨entry, hentry⟩ := exists_lookup_of_differs order h
      rw [hnil] at hentry
      cases hentry
    have heq := eq_of_differs before.value after.ascends before.ascends
      (fun place => iff_of_false (hnone place) not_differs_self)
      (fun place h => absurd h (hnone place))
    exact Document.ext (Json.object.inj heq).symm
  · rintro rfl
    exact diff_self order "" (.object before.fields) none none none []

theorem exists_stored_of_differs (order : KeyOrder) (markers : Unmarked) {place : List String}
    (h : Differs before.value after.value place) :
    ∃ changes, storedChanges order markers before after = some changes ∧
      diffAt order "" before.value after.value [] = changes := by
  cases hstored : storedChanges order markers before after with
  | none =>
      have heq := storedChanges_eq_none.1 hstored
      subst heq
      exact absurd h not_differs_self
  | some changes => exact ⟨changes, rfl, storedChanges_eq_some hstored⟩

/-- Equal maps are equal diffs. -/
theorem diffAt_eq_of_storedChanges {order' : KeyOrder} {markers' : Unmarked} {after' : Document}
    (h : storedChanges order markers before after = storedChanges order' markers' before after') :
    diffAt order "" before.value after.value [] =
      diffAt order' "" before.value after'.value [] := by
  cases hstored : storedChanges order markers before after with
  | none =>
      have heq := storedChanges_eq_none.1 hstored
      have heq' := storedChanges_eq_none.1 (h.symm.trans hstored)
      subst heq
      subst heq'
      exact (diff_self _ _ _ _ _ _ _).trans (diff_self _ _ _ _ _ _ _).symm
  | some changes =>
      exact (storedChanges_eq_some hstored).trans
        (storedChanges_eq_some (h.symm.trans hstored)).symm

theorem storedChanges_eq_of_diffAt {order' : KeyOrder} {markers' : Unmarked} {after' : Document}
    (h : diffAt order "" before.value after.value [] =
      diffAt order' "" before.value after'.value []) :
    storedChanges order markers before after = storedChanges order' markers' before after' := by
  rw [storedChanges_eq, storedChanges_eq, h]

end

/-! ## Clear plans -/

section

variable {before after : Document}

theorem storedEntry_inj {b a b' a' : Option Json} (h : storedEntry b a = storedEntry b' a') :
    b.getD .null = b'.getD .null ∧ a.getD .null = a'.getD .null := by
  simp only [storedEntry, changeEntry, Json.object.injEq, List.cons.injEq, Prod.mk.injEq] at h
  exact ⟨h.2.2.1.2, h.1.2⟩

/-- A place above another one has another value before. -/
theorem Differs.eq_of_getD_eq {b a a' : Option Json} {place place' : List String}
    (h : Differs b a place) (h' : Differs b a' place')
    (hcomparable : place <+: place' ∨ place' <+: place)
    (hvalue : (valueAt b place).getD .null = (valueAt b place').getD .null) : place = place' := by
  -- The value of the upper place is an object with the other value below it.
  have hbelow : ∀ {upper lower : List String}, Place b lower → upper <+: lower →
      (valueAt b upper).getD .null = (valueAt b lower).getD .null → upper = lower := by
    intro upper lower hlower habove heq
    obtain ⟨rest, rfl⟩ := habove
    cases rest with
    | nil => exact (List.append_nil _).symm
    | cons key rest =>
        obtain ⟨fields, hfields⟩ := isObject_of_place hlower
        rw [hfields, Option.getD_some] at heq
        cases hvalue : valueAt b (upper ++ key :: rest) with
        | none =>
            rw [hvalue] at heq
            cases heq
        | some value =>
            have hsize := sizeOf_valueAt_lt hfields hvalue
            rw [hvalue, Option.getD_some] at heq
            rw [heq] at hsize
            exact absurd hsize (lt_irrefl _)
  rcases hcomparable with habove | habove
  · exact hbelow h'.inBefore habove hvalue
  · exact (hbelow h.inBefore habove hvalue.symm).symm

namespace Clear

theorem eq_of_joinedPath (h : Clear before after) {place place' : List String}
    (hplace : Differs before.value after.value place)
    (hplace' : Differs before.value after.value place')
    (hpath : joinedPath place = joinedPath place') : place = place' :=
  hplace.eq_of_comparable hplace' (h.apart place' hplace' place hplace.inBefore hpath)

/-- The entry of a place is the one that is stored under its path. -/
theorem lookup (h : Clear before after) (order : KeyOrder) {place : List String}
    (hplace : Differs before.value after.value place) :
    (diffAt order "" before.value after.value []).lookup (joinedPath place) =
      some (storedEntry (valueAt before.value place) (valueAt after.value place)) := by
  obtain ⟨entry, hentry⟩ := exists_lookup_of_differs order hplace
  obtain ⟨place', hplace', hpath, rfl⟩ := exists_place_of_lookup hentry
  rw [hentry, h.eq_of_joinedPath hplace' hplace hpath]

/-- A place of this plan is one of every plan with the same map, and has the same value there. -/
theorem differs_of_diffAt_eq (h : Clear before after) {order order' : KeyOrder}
    {after' : Document} (heq : diffAt order "" before.value after.value [] =
      diffAt order' "" before.value after'.value []) {place : List String}
    (hplace : Differs before.value after.value place) :
    Differs before.value after'.value place ∧
      (valueAt after.value place).getD .null = (valueAt after'.value place).getD .null := by
  have hlookup := h.lookup order hplace
  rw [heq] at hlookup
  obtain ⟨place', hplace', hpath, hentry⟩ := exists_place_of_lookup hlookup
  obtain ⟨hbefore, hafter⟩ := storedEntry_inj hentry
  obtain rfl := hplace.eq_of_getD_eq hplace'
    (h.apart place hplace place' hplace'.inBefore hpath).symm hbefore
  exact ⟨hplace', hafter⟩

/-- Null and absence are told apart by the value before. -/
theorem valueAt_eq (h : Clear before after) {after' : Document} {place : List String}
    (hplace : Differs before.value after.value place)
    (hplace' : Differs before.value after'.value place)
    (hvalue : (valueAt after.value place).getD .null = (valueAt after'.value place).getD .null) :
    valueAt after.value place = valueAt after'.value place := by
  have hkept := h.kept place hplace
  have hdiffer := hplace.differ
  have hdiffer' := hplace'.differ
  cases hold : valueAt before.value place with
  | none =>
      rw [hold] at hdiffer hdiffer'
      obtain ⟨value, hnew⟩ := Option.ne_none_iff_exists'.1 hdiffer.symm
      obtain ⟨value', hnew'⟩ := Option.ne_none_iff_exists'.1 hdiffer'.symm
      rw [hnew, hnew'] at hvalue ⊢
      exact congrArg some hvalue
  | some old =>
      rw [hold] at hdiffer hdiffer' hkept
      by_cases hnull : old = .null
      · subst hnull
        cases hnew : valueAt after.value place with
        | none =>
            cases hnew' : valueAt after'.value place with
            | none => rfl
            | some value' =>
                rw [hnew, hnew'] at hvalue
                have heq : Json.null = value' := hvalue
                rw [hnew', ← heq] at hdiffer'
                exact absurd rfl hdiffer'
        | some value =>
            cases hnew' : valueAt after'.value place with
            | none =>
                rw [hnew, hnew'] at hvalue
                have heq : value = Json.null := hvalue
                rw [hnew, heq] at hdiffer
                exact absurd rfl hdiffer
            | some value' =>
                rw [hnew, hnew'] at hvalue
                exact congrArg some hvalue
      · have hsome := hkept hnull
        have hsome' := hvalue ▸ hsome
        cases hnew : valueAt after.value place with
        | none =>
            rw [hnew] at hsome
            exact absurd rfl hsome
        | some value =>
            cases hnew' : valueAt after'.value place with
            | none =>
                rw [hnew'] at hsome'
                exact absurd rfl hsome'
            | some value' =>
                rw [hnew, hnew'] at hvalue
                exact congrArg some hvalue

theorem determines (h : Clear before after) {order order' : KeyOrder} {after' : Document}
    (heq : diffAt order "" before.value after.value [] =
      diffAt order' "" before.value after'.value []) : after = after' := by
  have hforward : ∀ {place}, Differs before.value after.value place →
      Differs before.value after'.value place ∧
        (valueAt after.value place).getD .null = (valueAt after'.value place).getD .null :=
    h.differs_of_diffAt_eq heq
  have hback : ∀ place, Differs before.value after'.value place →
      Differs before.value after.value place := by
    intro place' hplace'
    obtain ⟨entry, hentry⟩ := exists_lookup_of_differs order' hplace'
    rw [← heq] at hentry
    obtain ⟨place, hplace, hpath, -⟩ := exists_place_of_lookup hentry
    have hcomparable := h.apart place hplace place' hplace'.inBefore hpath.symm
    rw [hplace'.eq_of_comparable (hforward hplace).1 hcomparable]
    exact hplace
  have hvalue := eq_of_differs before.value after.ascends after'.ascends
    (fun place => ⟨fun hplace => (hforward hplace).1, hback place⟩)
    (fun place hplace => h.valueAt_eq hplace (hforward hplace).1 (hforward hplace).2)
  exact Document.ext (Json.object.inj hvalue)

theorem complete (h : Clear before after) : Complete before after where
  unchanged _ _ := storedChanges_eq_none
  stored order markers place hplace := by
    obtain ⟨changes, hstored, hdiff⟩ :=
      exists_stored_of_differs order markers hplace
    exact ⟨changes, hstored, hdiff ▸ h.lookup order hplace⟩
  apart _ _ hplace hplace' hpath := h.eq_of_joinedPath hplace hplace' hpath
  determines _ _ _ _ _ heq := h.determines (diffAt_eq_of_storedChanges heq)

/-- Some of the changes of a clear plan make a clear plan. -/
theorem part (h : Clear before after) {part : Document} (hpart : PartOf before part after) :
    Clear before part where
  kept place hplace hsome := by
    obtain ⟨hwhole, hvalue⟩ := hpart place hplace
    rw [hvalue]
    exact h.kept place hwhole hsome
  apart place hplace := h.apart place (hpart place hplace).1

end Clear

end

/-! ## One change -/

/-- The value with another one at a place. -/
def put (new : Option Json) : List String → Option Json → Option Json
  | [], _ => new
  | key :: rest, some (.object fields) =>
      some (.object (alter key (put new rest (fields.lookup key)) fields))
  | _ :: _, value => value

section

variable {value before after new : Option Json} {place place' : List String}

theorem valueAt_put (h : Place value place) : valueAt (put new place value) place = new := by
  induction place generalizing value with
  | nil => rfl
  | cons key rest ih =>
      obtain ⟨fields, rfl, hrest⟩ := place_cons.1 h
      change valueAt ((alter key _ fields).lookup key) rest = new
      rw [lookup_alter, if_pos rfl]
      exact ih hrest

theorem ascends_put (value : Option Json) (place : List String)
    (hvalue : ∀ v, value = some v → v.ascends = true)
    (hnew : ∀ v, new = some v → v.ascends = true) :
    ∀ v, put new place value = some v → v.ascends = true := by
  induction place generalizing value with
  | nil => exact hnew
  | cons key rest ih =>
      by_cases hobject : IsObject value
      · obtain ⟨fields, rfl⟩ := hobject
        obtain ⟨hsorted, hfields⟩ := Json.ascends_object.1 (hvalue _ rfl)
        intro v hv
        obtain rfl := Option.some.inj hv
        refine Json.ascends_object.2 ⟨pairwise_alter key _ hsorted, fun entry hentry => ?_⟩
        rcases mem_alter hentry with hput | hold
        · exact ih _ (fun w hw => hfields _ (mem_of_lookup hw)) _ hput.symm
        · exact hfields _ hold
      · have hsame : put new (key :: rest) value = value := by
          cases value with
          | none => rfl
          | some value =>
              cases value with
              | object fields => exact absurd ⟨fields, rfl⟩ hobject
              | _ => rfl
        rw [hsame]
        exact hvalue

theorem ascends_valueAt (hvalue : ∀ v, value = some v → v.ascends = true) :
    ∀ v, valueAt value place = some v → v.ascends = true := by
  induction place generalizing value with
  | nil => exact hvalue
  | cons key rest ih =>
      by_cases hobject : IsObject value
      · obtain ⟨fields, rfl⟩ := hobject
        obtain ⟨-, hfields⟩ := Json.ascends_object.1 (hvalue _ rfl)
        exact ih fun w hw => hfields _ (mem_of_lookup hw)
      · rw [valueAt_cons_of_not_isObject hobject]
        intro v hv
        cases hv

/-- Beside a place, nothing is changed. -/
theorem beside_put (h : Place value place') (hput : Place value place)
    (hbeside : ¬ (place' <+: place ∨ place <+: place')) :
    Place (put new place value) place' ∧
      valueAt (put new place value) place' = valueAt value place' := by
  induction place generalizing value place' with
  | nil => exact absurd (Or.inr (List.nil_prefix)) hbeside
  | cons key rest ih =>
      cases place' with
      | nil => exact absurd (Or.inl (List.nil_prefix)) hbeside
      | cons key' rest' =>
          obtain ⟨fields, rfl, hrest⟩ := place_cons.1 hput
          change Place ((alter key _ fields).lookup key') rest' ∧
            valueAt ((alter key _ fields).lookup key') rest' = valueAt (fields.lookup key') rest'
          rw [lookup_alter]
          split
          · rename_i hkey
            subst hkey
            refine ih h hrest fun hcomparable => hbeside ?_
            exact hcomparable.imp (fun hp => List.cons_prefix_cons.2 ⟨rfl, hp⟩)
              (fun hp => List.cons_prefix_cons.2 ⟨rfl, hp⟩)
          · exact ⟨h, rfl⟩

/-- A new value at a place is a change of this place, and no other change beside it is lost. -/
theorem differs_put (hbefore : Place before place) (hafter : Place after place)
    (hdiffer : valueAt before place ≠ new)
    (hobjects : ¬ (IsObject (valueAt before place) ∧ IsObject new)) :
    Differs before (put new place after) place' ↔ place' = place ∨
      ¬ (place' <+: place ∨ place <+: place') ∧ Differs before after place' := by
  induction place generalizing before after place' with
  | nil =>
      constructor
      · intro h
        cases place' with
        | nil => exact Or.inl rfl
        | cons key rest =>
            obtain ⟨beforeMap, afterMap, rfl, hnew, -⟩ := differs_cons.1 h
            exact absurd ⟨⟨_, rfl⟩, ⟨_, hnew⟩⟩ hobjects
      · rintro (rfl | ⟨hbeside, -⟩)
        · exact differs_nil.2 ⟨hdiffer, hobjects⟩
        · exact absurd (Or.inr List.nil_prefix) hbeside
  | cons key rest ih =>
      obtain ⟨beforeMap, rfl, hbelow⟩ := place_cons.1 hbefore
      obtain ⟨afterMap, rfl, hbelow'⟩ := place_cons.1 hafter
      cases place' with
      | nil =>
          refine iff_of_false (fun h => h.notObjects ⟨⟨_, rfl⟩, ⟨_, rfl⟩⟩) ?_
          rintro (hnil | ⟨hbeside, -⟩)
          · cases hnil
          · exact hbeside (Or.inl List.nil_prefix)
      | cons key' rest' =>
          change Differs (some (.object beforeMap)) (some (.object (alter key _ afterMap)))
            (key' :: rest') ↔ _
          rw [differs_objects_cons, differs_objects_cons, lookup_alter, List.cons_prefix_cons,
            List.cons_prefix_cons, List.cons.injEq]
          by_cases hkey : key' = key
          · subst hkey
            rw [if_pos rfl, ih hbelow hbelow' hdiffer hobjects]
            simp
          · rw [if_neg hkey]
            simp [hkey, Ne.symm hkey]

end

/-- The document with another value at a place below it. -/
def Document.put (document : Document) (new : Option Json)
    (hnew : ∀ v, new = some v → v.ascends = true) (key : String) (rest : List String) :
    Document where
  fields := alter key (ResourceChange.put new rest (document.fields.lookup key)) document.fields
  ascends := ascends_put document.value (key :: rest)
    (fun _ hv => Option.some.inj hv ▸ document.ascends) hnew _ rfl

/-! ## The last entry -/

/-- The order in which a place comes last. -/
def KeyOrder.lastAlong : List String → KeyOrder
  | [] => .asListed
  | key :: rest => .lastAt key (lastAlong rest)

/-- The entry of the place that comes last stays. -/
theorem exists_diffAt_lastAlong {before after : Option Json} {place : List String}
    (h : Differs before after place) (path : String) (changes : Changes) :
    ∃ acc, diffAt (.lastAlong place) path before after changes =
      record before after path acc place := by
  induction place generalizing before after path changes with
  | nil =>
      obtain ⟨hne, hobjects⟩ := differs_nil.1 h
      rw [diffAt_of_not_objects _ path hobjects, if_neg hne]
      exact ⟨changes, rfl⟩
  | cons key rest ih =>
      obtain ⟨beforeMap, afterMap, rfl, rfl, hrest⟩ := differs_cons.1 h
      have hkey : key ∈ allKeys beforeMap afterMap := by
        cases hbefore : beforeMap.lookup key with
        | some v => exact mem_allKeys_left hbefore
        | none =>
            cases hafter : afterMap.lookup key with
            | some w => exact mem_allKeys_right hafter
            | none =>
                rw [hbefore, hafter] at hrest
                exact absurd hrest not_differs_self
      obtain ⟨acc, hacc⟩ := diff_objects_lastAt beforeMap afterMap hkey (.lastAlong rest) path none
        none none changes
      obtain ⟨acc', hacc'⟩ := ih hrest (joinPath path key) acc
      refine ⟨acc', ?_⟩
      change diffValuesWithSensitivity _ _ _ _ _ _ _ _ = _
      rw [KeyOrder.lastAlong, hacc, diffKey_eq_diffAt, KeyOrder.lastAt_under, hacc']
      rfl

/-- When all places that differ have one path, the map is the entry of the last one. -/
theorem diffAt_lastAlong {before after : Document} {place : List String}
    (h : Differs before.value after.value place)
    (hpath : ∀ place', Differs before.value after.value place' →
      joinedPath place' = joinedPath place) :
    diffAt (.lastAlong place) "" before.value after.value [] = [(joinedPath place,
      storedEntry (valueAt before.value place) (valueAt after.value place))] := by
  refine eq_of_mem_iff pairwise_diffAt (List.pairwise_singleton _ _) fun entry => ?_
  obtain ⟨path, value⟩ := entry
  obtain ⟨acc, hacc⟩ := exists_diffAt_lastAlong h "" []
  have hlast : (diffAt (.lastAlong place) "" before.value after.value []).lookup
      (joinedPath place) =
        some (storedEntry (valueAt before.value place) (valueAt after.value place)) := by
    rw [hacc]
    exact lookup_insert_self _ _ _
  rw [mem_iff_lookup pairwise_diffAt, List.mem_singleton, Prod.mk.injEq]
  constructor
  · intro hlookup
    obtain ⟨place', hplace', hsame, -⟩ := exists_place_of_lookup hlookup
    have heq : path = joinedPath place := hsame.symm.trans (hpath place' hplace')
    rw [heq, hlast] at hlookup
    exact ⟨heq, (Option.some.inj hlookup).symm⟩
  · rintro ⟨rfl, rfl⟩
    exact hlast

/-! ## Plans that are not clear -/

section

variable {before after : Document} {key : String} {rest : List String} {new : Option Json}

theorem value_put (hnew : ∀ v, new = some v → v.ascends = true) :
    (before.put new hnew key rest).value = put new (key :: rest) before.value :=
  rfl

/-- A plan of one change. -/
theorem differs_single (hnew : ∀ v, new = some v → v.ascends = true) (hplace : Place before.value (key :: rest))
    (hdiffer : valueAt before.value (key :: rest) ≠ new)
    (hobjects : ¬ (IsObject (valueAt before.value (key :: rest)) ∧ IsObject new))
    {place : List String} :
    Differs before.value (before.put new hnew key rest).value place ↔ place = key :: rest := by
  rw [value_put, differs_put hplace hplace hdiffer hobjects]
  exact or_iff_left fun h => not_differs_self h.2

theorem exists_fields_of_differs {place : List String}
    (h : Differs before.value after.value place) : ∃ key rest, place = key :: rest := by
  cases place with
  | nil => exact absurd ⟨⟨_, rfl⟩, ⟨_, rfl⟩⟩ h.notObjects
  | cons key rest => exact ⟨key, rest, rfl⟩

/-- Each change of a plan is a plan. -/
theorem exists_single {place : List String} (h : Differs before.value after.value place) :
    ∃ single : Document, PartOf before single after ∧
      (∀ place', Differs before.value single.value place' ↔ place' = place) ∧
      valueAt single.value place = valueAt after.value place ∧
      ∀ place', Place before.value place' → ¬ (place' <+: place ∨ place <+: place') →
        Place single.value place' ∧ valueAt single.value place' = valueAt before.value place' := by
  obtain ⟨key, rest, rfl⟩ := exists_fields_of_differs h
  have hascends : ∀ v, valueAt after.value (key :: rest) = some v → v.ascends = true :=
    ascends_valueAt fun v hv => Option.some.inj hv ▸ after.ascends
  have hvalue : valueAt (before.put _ hascends key rest).value (key :: rest) =
      valueAt after.value (key :: rest) := valueAt_put h.inBefore
  have hdiffers : ∀ {place'}, Differs before.value (before.put _ hascends key rest).value place' ↔
      place' = key :: rest := differs_single hascends h.inBefore h.differ h.notObjects
  refine ⟨before.put _ hascends key rest, fun place' hplace' => ?_, fun _ => hdiffers, hvalue,
    fun place' hplace' hbeside => beside_put hplace' h.inBefore hbeside⟩
  obtain rfl := hdiffers.1 hplace'
  exact ⟨h, hvalue⟩

/-- Markers that are not there. -/
def noMarkers : Unmarked where
  beforeSensitive := none
  afterSensitive := none
  afterUnknown := none
  noneBefore := isSensitive_foldl_none
  noneAfter := isSensitive_foldl_none
  noneUnknown := isSensitive_foldl_none

/-- A value that is lost for null cannot be told from one that is removed. -/
theorem kept_of_complete
    (h : ∀ part, PartOf before part after → Complete before part) {place : List String}
    (hplace : Differs before.value after.value place)
    (hsome : (valueAt before.value place).getD .null ≠ .null) :
    (valueAt after.value place).getD .null ≠ .null := by
  intro hnull
  obtain ⟨single, hpart, hsingle, hvalue, -⟩ := exists_single hplace
  obtain ⟨key, rest, rfl⟩ := exists_fields_of_differs hplace
  -- The other way to lose the value.
  obtain ⟨other, hother, hne⟩ : ∃ other : Option Json, (other = none ∨ other = some .null) ∧
      other ≠ valueAt after.value (key :: rest) := by
    cases valueAt after.value (key :: rest) with
    | none => exact ⟨some .null, Or.inr rfl, Option.some_ne_none _⟩
    | some value => exact ⟨none, Or.inl rfl, (Option.some_ne_none value).symm⟩
  have hascends : ∀ v, other = some v → v.ascends = true := by
    rcases hother with rfl | rfl
    · intro v hv
      cases hv
    · intro v hv
      obtain rfl := Option.some.inj hv
      rfl
  have hgetD : other.getD .null = .null := by rcases hother with rfl | rfl <;> rfl
  have hdiffer : valueAt before.value (key :: rest) ≠ other := by
    intro heq
    rw [heq] at hsome
    exact hsome hgetD
  have hnot : ¬ IsObject other := by
    rintro ⟨fields, hfields⟩
    rw [hfields] at hgetD
    cases hgetD
  have hdiffers : ∀ {place'}, Differs before.value (before.put _ hascends key rest).value place' ↔
      place' = key :: rest :=
    differs_single hascends hplace.inBefore hdiffer fun h => hnot h.2
  have hput : valueAt (before.put other hascends key rest).value (key :: rest) = other :=
    valueAt_put hplace.inBefore
  have hmap : diffAt (.lastAlong (key :: rest)) "" before.value single.value [] =
      diffAt (.lastAlong (key :: rest)) "" before.value
        (before.put other hascends key rest).value [] := by
    rw [diffAt_lastAlong ((hsingle _).2 rfl) fun place' h => by rw [(hsingle place').1 h],
      diffAt_lastAlong (hdiffers.2 rfl) fun place' h => by rw [hdiffers.1 h], hvalue, hput]
    unfold storedEntry
    rw [hnull, hgetD]
  have heq := (h single hpart).determines _ noMarkers _ noMarkers _
    (storedChanges_eq_of_diffAt hmap)
  rw [heq, hput] at hvalue
  exact hne hvalue

/-- A change can be hidden by one that is stored under its path. -/
theorem apart_of_complete
    (h : ∀ part, PartOf before part after → Complete before part) {place : List String}
    (hplace : Differs before.value after.value place) {place' : List String}
    (hplace' : Place before.value place') (hpath : joinedPath place' = joinedPath place) :
    place' <+: place ∨ place <+: place' := by
  by_contra hbeside
  obtain ⟨single, hpart, hsingle, hvalue, hbesides⟩ := exists_single hplace
  obtain ⟨hinSingle, hsame⟩ := hbesides place' hplace' hbeside
  obtain ⟨key, rest, rfl⟩ : ∃ key rest, place' = key :: rest := by
    cases place' with
    | nil => exact absurd (Or.inl List.nil_prefix) hbeside
    | cons key rest => exact ⟨key, rest, rfl⟩
  obtain ⟨b, hb⟩ : ∃ b : Bool, valueAt before.value (key :: rest) ≠ some (.bool b) := by
    by_cases htrue : valueAt before.value (key :: rest) = some (.bool true)
    · exact ⟨false, by rw [htrue]; simp⟩
    · exact ⟨true, htrue⟩
  have hascends : ∀ v, some (Json.bool b) = some v → v.ascends = true := by
    intro v hv
    obtain rfl := Option.some.inj hv
    rfl
  have hnot : ¬ IsObject (some (Json.bool b)) := by
    rintro ⟨fields, hfields⟩
    cases hfields
  have hdiffers : ∀ p, Differs before.value (single.put _ hascends key rest).value p ↔
      p = key :: rest ∨ ¬ (p <+: key :: rest ∨ key :: rest <+: p) ∧
        Differs before.value single.value p := fun p =>
    differs_put hplace' hinSingle hb fun h => hnot h.2
  have hbeside' : ¬ (place <+: key :: rest ∨ key :: rest <+: place) := fun h => hbeside h.symm
  have hput : valueAt (single.put _ hascends key rest).value place =
      valueAt after.value place :=
    (beside_put ((hsingle place).2 rfl).inAfter hinSingle hbeside').2.trans hvalue
  have hmap : diffAt (.lastAlong place) "" before.value single.value [] =
      diffAt (.lastAlong place) "" before.value (single.put _ hascends key rest).value [] := by
    rw [diffAt_lastAlong ((hsingle _).2 rfl) fun p hp => by rw [(hsingle p).1 hp],
      diffAt_lastAlong ((hdiffers place).2 (Or.inr ⟨hbeside', (hsingle _).2 rfl⟩)) fun p hp => ?_,
      hvalue, hput]
    rcases (hdiffers p).1 hp with rfl | ⟨-, hp⟩
    · exact hpath
    · rw [(hsingle p).1 hp]
  have heq := (h single hpart).determines _ noMarkers _ noMarkers _
    (storedChanges_eq_of_diffAt hmap)
  have hnew : valueAt (single.put _ hascends key rest).value (key :: rest) =
    some (.bool b) := valueAt_put hinSingle
  rw [← heq, hsame] at hnew
  exact hb hnew

end

/-- A key with a dot beside an object. -/
def dotted (nested flat : String) : Document where
  fields := [("app", .object [("name", .string nested)]), ("app.name", .string flat)]
  ascends := by
    have hkeys : ["app", "app.name"].Pairwise (· < ·) := by decide
    simpa [Json.ascends, Json.fieldsAscend, keys] using hkeys

end ResourceChange
end InfraWeave
