import InfraWeave.Defs.ResourceChange
import Mathlib.Data.Set.Finite.Basic
import Mathlib.Data.Option.Basic

/-!
# Values that agree outside their sensitive leaves

Terraform marks a value by a tree of its own: `true` at a position covers the value there and
everything below it.  `Agree` relates two values that are identical except for leaves the markers
cover, and `hasSecret` says that a value has such a leaf.  A value without one is determined by its
agreement class (`eq_of_agree`), a value with one is not (`exists_agree_ne`).
-/

namespace InfraWeave
namespace ResourceChange

open OrderedMap

/-! ## Related options -/

section
variable {α β : Type*} {r : α → β → Prop}

theorem eq_none_of_rel {y : Option β} (h : Option.Rel r none y) : y = none := by
  cases h
  rfl

theorem exists_of_rel_some {a : α} {y : Option β} (h : Option.Rel r (some a) y) :
    ∃ b, y = some b ∧ r a b := by
  cases h with
  | some hab => exact ⟨_, rfl, hab⟩

end

/-! ## The two notions -/

def itemMarkers : Option Json → List Json
  | some (.array markers) => markers
  | _ => []

mutual

/-- Identical except for leaves at or below a position marked `true`; `covered` says that a marker
above this position was. -/
def Agree (covered : Bool) (markers : Option Json) : Json → Json → Prop
  | .array xs, .array ys => AgreeItems (covered || isSensitive markers) (itemMarkers markers) xs ys
  | .object fs, .object gs => AgreeFields (covered || isSensitive markers) markers fs gs
  | v, w => v.isLeaf ∧ w.isLeaf ∧ ((covered || isSensitive markers) = true ∨ v = w)

def AgreeItems (covered : Bool) : List Json → List Json → List Json → Prop
  | markers, x :: xs, y :: ys =>
      Agree covered markers.head? x y ∧ AgreeItems covered markers.tail xs ys
  | _, [], [] => True
  | _, _, _ => False

def AgreeFields (covered : Bool) (markers : Option Json) :
    List (String × Json) → List (String × Json) → Prop
  | (k, v) :: fs, (l, w) :: gs =>
      k = l ∧ Agree covered (fieldMarker markers k) v w ∧ AgreeFields covered markers fs gs
  | [], [] => True
  | _, _ => False

end

mutual

/-- Some leaf lies at or below a position marked `true`. -/
def hasSecret (covered : Bool) (markers : Option Json) : Json → Bool
  | .array xs => itemsHaveSecret (covered || isSensitive markers) (itemMarkers markers) xs
  | .object fs => fieldsHaveSecret (covered || isSensitive markers) markers fs
  | _ => covered || isSensitive markers

def itemsHaveSecret (covered : Bool) : List Json → List Json → Bool
  | markers, x :: xs =>
      hasSecret covered markers.head? x || itemsHaveSecret covered markers.tail xs
  | _, [] => false

def fieldsHaveSecret (covered : Bool) (markers : Option Json) : List (String × Json) → Bool
  | (k, v) :: fs =>
      hasSecret covered (fieldMarker markers k) v || fieldsHaveSecret covered markers fs
  | [] => false

end

/-! ## Agreement is reflexive and keeps the shape -/

mutual

theorem agree_refl (covered : Bool) (markers : Option Json) : ∀ v : Json, Agree covered markers v v
  | .null => by simp [Agree, Json.isLeaf]
  | .bool _ => by simp [Agree, Json.isLeaf]
  | .number _ => by simp [Agree, Json.isLeaf]
  | .string _ => by simp [Agree, Json.isLeaf]
  | .array xs => by simpa [Agree] using agreeItems_refl _ _ xs
  | .object fs => by simpa [Agree] using agreeFields_refl _ _ fs

theorem agreeItems_refl (covered : Bool) :
    ∀ (markers : List Json) (xs : List Json), AgreeItems covered markers xs xs
  | _, [] => by simp [AgreeItems]
  | markers, x :: xs => by
      simpa [AgreeItems] using
        ⟨agree_refl covered markers.head? x, agreeItems_refl covered markers.tail xs⟩

theorem agreeFields_refl (covered : Bool) (markers : Option Json) :
    ∀ fs : List (String × Json), AgreeFields covered markers fs fs
  | [] => by simp [AgreeFields]
  | (k, v) :: fs => by
      simpa [AgreeFields] using
        ⟨agree_refl covered (fieldMarker markers k) v, agreeFields_refl covered markers fs⟩

end

theorem lookup_of_agreeFields {covered : Bool} {markers : Option Json} :
    ∀ {fs gs : List (String × Json)}, AgreeFields covered markers fs gs → ∀ key : String,
      Option.Rel (Agree covered (fieldMarker markers key)) (fs.lookup key) (gs.lookup key)
  | [], [], _, _ => by
      simp
  | [], _ :: _, h, _ => by simp [AgreeFields] at h
  | _ :: _, [], h, _ => by simp [AgreeFields] at h
  | (k, v) :: fs, (l, w) :: gs, h, key => by
      simp only [AgreeFields] at h
      rcases h with ⟨rfl, hv, hrest⟩
      by_cases hk : key = k
      · subst hk
        simpa using Option.Rel.some hv
      · simpa [lookup_cons_ite, hk] using lookup_of_agreeFields hrest key

theorem lookup_eq_none_of_agreeFields {covered : Bool} {markers : Option Json}
    {fs gs : List (String × Json)} {key : String} (h : AgreeFields covered markers fs gs)
    (hnone : fs.lookup key = none) : gs.lookup key = none :=
  eq_none_of_rel (hnone ▸ lookup_of_agreeFields h key)

theorem exists_lookup_of_agreeFields {covered : Bool} {markers : Option Json}
    {fs gs : List (String × Json)} {key : String} {v : Json}
    (h : AgreeFields covered markers fs gs) (hv : fs.lookup key = some v) :
    ∃ w, gs.lookup key = some w ∧ Agree covered (fieldMarker markers key) v w :=
  exists_of_rel_some (hv ▸ lookup_of_agreeFields h key)

theorem keys_of_agreeFields {covered : Bool} {markers : Option Json} :
    ∀ {fs gs : List (String × Json)}, AgreeFields covered markers fs gs → keys fs = keys gs
  | [], [], _ => rfl
  | [], _ :: _, h => by simp [AgreeFields] at h
  | _ :: _, [], h => by simp [AgreeFields] at h
  | (k, v) :: fs, (l, w) :: gs, h => by
      simp only [AgreeFields] at h
      rcases h with ⟨rfl, -, hrest⟩
      simpa [keys] using keys_of_agreeFields hrest

/-- A value that agrees with an object is an object with agreeing fields. -/
theorem exists_of_agree_object {covered : Bool} {markers : Option Json}
    {fs : List (String × Json)} {w : Json} (h : Agree covered markers (.object fs) w) :
    ∃ gs, w = .object gs ∧ AgreeFields (covered || isSensitive markers) markers fs gs := by
  cases w with
  | object gs => exact ⟨gs, rfl, by simpa [Agree] using h⟩
  | _ => simp [Agree, Json.isLeaf] at h

theorem asObject_eq_none_of_agree {covered : Bool} {markers : Option Json} {v w : Json}
    (h : Agree covered markers v w) (hv : v.asObject = none) : w.asObject = none := by
  cases v <;> cases w <;> simp_all [Agree, Json.asObject, Json.isLeaf]

theorem isSome_at?_of_agree {covered : Bool} {markers : Option Json} {v w : Json}
    (h : Agree covered markers v w) (path : List String) :
    (v.at? path).isSome = (w.at? path).isSome := by
  induction path generalizing covered markers v w with
  | nil => simp
  | cons key path ih =>
      rw [Json.at?_cons, Json.at?_cons]
      cases hv : v.asObject with
      | none =>
          have hw := asObject_eq_none_of_agree h hv
          have hv' : v.get? key = none := by cases v <;> simp_all [Json.asObject, Json.get?]
          have hw' : w.get? key = none := by cases w <;> simp_all [Json.asObject, Json.get?]
          simp [hv', hw']
      | some fs =>
          have hobj : v = .object fs := by cases v <;> simp_all [Json.asObject]
          subst hobj
          rcases exists_of_agree_object h with ⟨gs, rfl, hfields⟩
          have hlook := lookup_of_agreeFields hfields key
          simp only [Json.get?_object]
          generalize fs.lookup key = x at hlook ⊢
          generalize gs.lookup key = y at hlook ⊢
          cases hlook with
          | none => rfl
          | some hvw => exact ih hvw

/-! ## Values without a secret -/

mutual

theorem eq_of_agree {covered : Bool} {markers : Option Json} :
    ∀ {v w : Json}, hasSecret covered markers v = false → Agree covered markers v w → v = w
  | .null, w, hs, h => by cases w <;> simp_all [hasSecret, Agree, Json.isLeaf]
  | .bool _, w, hs, h => by cases w <;> simp_all [hasSecret, Agree, Json.isLeaf]
  | .number _, w, hs, h => by cases w <;> simp_all [hasSecret, Agree, Json.isLeaf]
  | .string _, w, hs, h => by cases w <;> simp_all [hasSecret, Agree, Json.isLeaf]
  | .array xs, w, hs, h => by
      cases w with
      | array ys =>
          have := eq_of_agreeItems (by simpa [hasSecret] using hs) (by simpa [Agree] using h)
          rw [this]
      | _ => simp [Agree, Json.isLeaf] at h
  | .object fs, w, hs, h => by
      rcases exists_of_agree_object h with ⟨gs, rfl, hfields⟩
      have := eq_of_agreeFields (by simpa [hasSecret] using hs) hfields
      rw [this]

theorem eq_of_agreeItems {covered : Bool} :
    ∀ {markers xs ys : List Json}, itemsHaveSecret covered markers xs = false →
      AgreeItems covered markers xs ys → xs = ys
  | _, [], [], _, _ => rfl
  | _, [], _ :: _, _, h => by simp [AgreeItems] at h
  | _, _ :: _, [], _, h => by simp [AgreeItems] at h
  | markers, x :: xs, y :: ys, hs, h => by
      simp only [itemsHaveSecret, Bool.or_eq_false_iff] at hs
      simp only [AgreeItems] at h
      rw [eq_of_agree hs.1 h.1, eq_of_agreeItems hs.2 h.2]

theorem eq_of_agreeFields {covered : Bool} {markers : Option Json} :
    ∀ {fs gs : List (String × Json)}, fieldsHaveSecret covered markers fs = false →
      AgreeFields covered markers fs gs → fs = gs
  | [], [], _, _ => rfl
  | [], _ :: _, _, h => by simp [AgreeFields] at h
  | _ :: _, [], _, h => by simp [AgreeFields] at h
  | (k, v) :: fs, (l, w) :: gs, hs, h => by
      simp only [fieldsHaveSecret, Bool.or_eq_false_iff] at hs
      simp only [AgreeFields] at h
      rcases h with ⟨rfl, hv, hrest⟩
      rw [eq_of_agree hs.1 hv, eq_of_agreeFields hs.2 hrest]

end

/-! ## Values without markers -/

mutual

theorem hasSecret_none : ∀ v : Json, hasSecret false none v = false
  | .null => rfl
  | .bool _ => rfl
  | .number _ => rfl
  | .string _ => rfl
  | .array xs => by simpa [hasSecret, isSensitive, itemMarkers] using itemsHaveSecret_nil xs
  | .object fs => by simpa [hasSecret, isSensitive] using fieldsHaveSecret_none fs

theorem itemsHaveSecret_nil : ∀ xs : List Json, itemsHaveSecret false [] xs = false
  | [] => rfl
  | x :: xs => by simp [itemsHaveSecret, hasSecret_none x, itemsHaveSecret_nil xs]

theorem fieldsHaveSecret_none : ∀ fs : List (String × Json), fieldsHaveSecret false none fs = false
  | [] => rfl
  | (k, v) :: fs => by
      have hv : hasSecret false (fieldMarker none k) v = false := hasSecret_none v
      simp [fieldsHaveSecret, hv, fieldsHaveSecret_none fs]

end

/-! ## Values with a secret -/

theorem exists_agree_family_leaf {covered : Bool} {markers : Option Json} {v : Json}
    (hv : v.isLeaf = true) (h : covered = true ∨ isSensitive markers = true) :
    ∃ f : String → Json, Function.Injective f ∧ ∀ s, Agree covered markers v (f s) := by
  refine ⟨fun s => .string s, fun s t hst => by simpa using hst, fun s => ?_⟩
  cases v <;> simp_all [Agree, Json.isLeaf]

mutual

/-- A covered leaf can carry any text: the values agreeing with `v` contain a copy of `String`. -/
theorem exists_agree_family {covered : Bool} {markers : Option Json} :
    ∀ {v : Json}, hasSecret covered markers v = true →
      ∃ f : String → Json, Function.Injective f ∧ ∀ s, Agree covered markers v (f s)
  | .null, h => exists_agree_family_leaf rfl (by simpa [hasSecret] using h)
  | .bool _, h => exists_agree_family_leaf rfl (by simpa [hasSecret] using h)
  | .number _, h => exists_agree_family_leaf rfl (by simpa [hasSecret] using h)
  | .string _, h => exists_agree_family_leaf rfl (by simpa [hasSecret] using h)
  | .array xs, h => by
      rcases exists_agreeItems_family (by simpa [hasSecret] using h) with ⟨f, hinj, hf⟩
      refine ⟨fun s => .array (f s), ?_, fun s => by simpa [Agree] using hf s⟩
      intro s t hst
      exact hinj (by simpa using hst)
  | .object fs, h => by
      rcases exists_agreeFields_family (by simpa [hasSecret] using h) with ⟨f, hinj, hf⟩
      refine ⟨fun s => .object (f s), ?_, fun s => by simpa [Agree] using hf s⟩
      intro s t hst
      exact hinj (by simpa using hst)

theorem exists_agreeItems_family {covered : Bool} :
    ∀ {markers xs : List Json}, itemsHaveSecret covered markers xs = true →
      ∃ f : String → List Json, Function.Injective f ∧ ∀ s, AgreeItems covered markers xs (f s)
  | _, [], h => by simp [itemsHaveSecret] at h
  | markers, x :: xs, h => by
      rcases Bool.or_eq_true_iff.1 (by simpa [itemsHaveSecret] using h) with hx | hxs
      · rcases exists_agree_family hx with ⟨f, hinj, hf⟩
        refine ⟨fun s => f s :: xs, fun s t hst => hinj (by simpa using hst), fun s => ?_⟩
        simpa [AgreeItems] using ⟨hf s, agreeItems_refl covered markers.tail xs⟩
      · rcases exists_agreeItems_family hxs with ⟨f, hinj, hf⟩
        refine ⟨fun s => x :: f s, fun s t hst => hinj (by simpa using hst), fun s => ?_⟩
        simpa [AgreeItems] using ⟨agree_refl covered markers.head? x, hf s⟩

theorem exists_agreeFields_family {covered : Bool} {markers : Option Json} :
    ∀ {fs : List (String × Json)}, fieldsHaveSecret covered markers fs = true →
      ∃ f : String → List (String × Json),
        Function.Injective f ∧ ∀ s, AgreeFields covered markers fs (f s)
  | [], h => by simp [fieldsHaveSecret] at h
  | (k, v) :: fs, h => by
      rcases Bool.or_eq_true_iff.1 (by simpa [fieldsHaveSecret] using h) with hv | hfs
      · rcases exists_agree_family hv with ⟨f, hinj, hf⟩
        refine ⟨fun s => (k, f s) :: fs, fun s t hst => hinj (by simpa using hst), fun s => ?_⟩
        simpa [AgreeFields] using ⟨hf s, agreeFields_refl covered markers fs⟩
      · rcases exists_agreeFields_family hfs with ⟨f, hinj, hf⟩
        refine ⟨fun s => (k, v) :: f s, fun s t hst => hinj (by simpa using hst), fun s => ?_⟩
        simpa [AgreeFields] using ⟨agree_refl covered (fieldMarker markers k) v, hf s⟩

end

/-- A value with a secret agrees with values other than any two given ones. -/
theorem exists_agree_ne {covered : Bool} {markers : Option Json} {v : Json}
    (h : hasSecret covered markers v = true) (w : Json) :
    ∃ v', Agree covered markers v v' ∧ v' ≠ v ∧ v' ≠ w := by
  rcases exists_agree_family h with ⟨f, hinj, hf⟩
  rcases (Set.infinite_range_of_injective hinj).exists_notMem_finset {v, w} with ⟨v', hv', hne⟩
  rcases hv' with ⟨s, rfl⟩
  exact ⟨f s, hf s, by simpa [not_or] using hne⟩

/-! ## Replacing one field -/

/-- The fields with the value of `key` replaced. -/
def setField (key : String) (w : Json) : List (String × Json) → List (String × Json)
  | (k, v) :: fs => if k = key then (k, w) :: fs else (k, v) :: setField key w fs
  | [] => []

theorem lookup_setField {key : String} {v : Json} (w : Json) {fs : List (String × Json)}
    (h : fs.lookup key = some v) (key' : String) :
    (setField key w fs).lookup key' = if key' = key then some w else fs.lookup key' := by
  induction fs with
  | nil => simp at h
  | cons entry fs ih =>
      rcases entry with ⟨k, u⟩
      by_cases hk : k = key
      · subst hk
        by_cases hk' : key' = k <;> simp [setField, lookup_cons_ite, hk']
      · have hrest := ih (by simpa [lookup_cons_ite, Ne.symm hk] using h)
        by_cases hk' : key' = k
        · subst hk'
          simp [setField, hk]
        · simp [setField, lookup_cons_ite, hk, hk', hrest]

theorem agreeFields_setField {covered : Bool} {markers : Option Json} {key : String} {v w : Json}
    {fs : List (String × Json)} (h : fs.lookup key = some v)
    (hvw : Agree covered (fieldMarker markers key) v w) :
    AgreeFields covered markers fs (setField key w fs) := by
  induction fs with
  | nil => simp at h
  | cons entry fs ih =>
      rcases entry with ⟨k, u⟩
      by_cases hk : k = key
      · subst hk
        have huv : u = v := by simpa using h
        subst huv
        simpa [setField, AgreeFields] using ⟨hvw, agreeFields_refl covered markers fs⟩
      · have hrest := ih (by simpa [lookup_cons_ite, Ne.symm hk] using h)
        simpa [setField, AgreeFields, hk] using ⟨agree_refl _ _ u, hrest⟩

end ResourceChange
end InfraWeave
