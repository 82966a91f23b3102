import InfraWeave.Defs.Sensitivity

/-!
# What the stored resource changes reveal

`sanitizeValues` follows the markers all the way down, so a created or deleted resource reveals
nothing.  The diff of an update looks at the marker of the very position it stores and nowhere
else.  `Leaks` lists the positions where that is not enough: a value stored whole whose secret is
nested deeper, and a secret whose marker sits on an object that is compared key by key.
-/

namespace InfraWeave
namespace ResourceChange

open OrderedMap

/-! ## Created and deleted values -/

theorem asBool_eq_some_true_iff (v : Json) : v.asBool = some true ↔ isSensitive (some v) = true := by
  cases v with
  | bool b => cases b <;> simp [Json.asBool, isSensitive]
  | _ => simp [Json.asBool, isSensitive]

theorem sanitizeValue_of_isSensitive {v markers : Json} (h : isSensitive (some markers) = true) :
    sanitizeValue v markers = none := by
  rw [sanitizeValue.eq_def, if_pos ((asBool_eq_some_true_iff markers).2 h)]

theorem sanitizeValue_eq_of_agree_leaf {markers v w : Json} (hv : v.isLeaf = true)
    (h : Agree false (some markers) v w) : sanitizeValue v markers = sanitizeValue w markers := by
  by_cases hs : isSensitive (some markers) = true
  · rw [sanitizeValue_of_isSensitive hs, sanitizeValue_of_isSensitive hs]
  · have heq : v = w := by cases v <;> cases w <;> simp_all [Agree, Json.isLeaf]
    rw [heq]

mutual

theorem sanitizeValue_eq_of_agree (markers : Json) :
    ∀ {v w : Json}, Agree false (some markers) v w → sanitizeValue v markers = sanitizeValue w markers
  | .null, _, h => sanitizeValue_eq_of_agree_leaf rfl h
  | .bool _, _, h => sanitizeValue_eq_of_agree_leaf rfl h
  | .number _, _, h => sanitizeValue_eq_of_agree_leaf rfl h
  | .string _, _, h => sanitizeValue_eq_of_agree_leaf rfl h
  | .array xs, w, h => by
      cases w with
      | array ys =>
          by_cases hs : isSensitive (some markers) = true
          · rw [sanitizeValue_of_isSensitive hs, sanitizeValue_of_isSensitive hs]
          · cases markers with
            | array senses =>
                have hitems : AgreeItems false senses xs ys := by
                  simpa [Agree, isSensitive, itemMarkers] using h
                simp [sanitizeValue, sanitizeItems_eq_of_agree hitems]
            | bool b => cases b <;> simp [sanitizeValue, Json.isLeaf]
            | _ => simp [sanitizeValue, Json.isLeaf]
      | _ => simp [Agree, Json.isLeaf] at h
  | .object fs, w, h => by
      rcases exists_of_agree_object h with ⟨gs, rfl, hfields⟩
      by_cases hs : isSensitive (some markers) = true
      · rw [sanitizeValue_of_isSensitive hs, sanitizeValue_of_isSensitive hs]
      · cases markers with
        | object sensMap =>
            have hfields' : AgreeFields false (some (.object sensMap)) fs gs := by
              simpa [isSensitive] using hfields
            simp [sanitizeValue, sanitizeFields_eq_of_agree sensMap hfields' []]
        | bool b => cases b <;> simp [sanitizeValue, Json.isLeaf]
        | _ => simp [sanitizeValue]

theorem sanitizeItems_eq_of_agree :
    ∀ {senses xs ys : List Json}, AgreeItems false senses xs ys →
      sanitizeItems xs senses = sanitizeItems ys senses
  | _, [], [], _ => rfl
  | _, [], _ :: _, h => by simp [AgreeItems] at h
  | _, _ :: _, [], h => by simp [AgreeItems] at h
  | [], _ :: _, _ :: _, _ => by simp [sanitizeItems]
  | sens :: senses, x :: xs, y :: ys, h => by
      simp only [AgreeItems, List.head?_cons, List.tail_cons] at h
      simp only [sanitizeItems, sanitizeValue_eq_of_agree sens h.1, sanitizeItems_eq_of_agree h.2]

theorem sanitizeFields_eq_of_agree (sensMap : List (String × Json)) :
    ∀ {fs gs : List (String × Json)}, AgreeFields false (some (.object sensMap)) fs gs →
      ∀ sanitized, sanitizeFields fs sensMap sanitized = sanitizeFields gs sensMap sanitized
  | [], [], _, _ => rfl
  | [], _ :: _, h, _ => by simp [AgreeFields] at h
  | _ :: _, [], h, _ => by simp [AgreeFields] at h
  | (k, v) :: fs, (l, w) :: gs, h, sanitized => by
      simp only [AgreeFields, fieldMarker, Option.bind_some, Json.asObject] at h
      rcases h with ⟨rfl, hvw, hrest⟩
      cases hk : sensMap.lookup k with
      | none =>
          have heq : v = w := eq_of_agree (hasSecret_none v) (by simpa [hk] using hvw)
          subst heq
          simp [sanitizeFields, hk, sanitizeFields_eq_of_agree sensMap hrest]
      | some sens =>
          have hsan := sanitizeValue_eq_of_agree sens (by simpa [hk] using hvw)
          simp [sanitizeFields, hk, hsan, sanitizeFields_eq_of_agree sensMap hrest]

end

theorem sanitizeValues_eq_of_agree {markers v w : Option Json}
    (h : Option.Rel (Agree false markers) v w) : sanitizeValues v markers = sanitizeValues w markers := by
  cases h with
  | none => rfl
  | some h =>
      cases markers with
      | none => rfl
      | some m => exact sanitizeValue_eq_of_agree m h

/-! ## Where the diff of an update leaks -/

/-- The diff of `before` and `after` stores a value with a secret in it.  `coveredBefore` and
`coveredAfter` say that a marker above this position was `true`: the diff has forgotten it. -/
inductive Leaks : Bool → Bool → Json → Json → Option Json → Option Json → Prop
  /-- Values that are not both objects are stored whole, unless their own marker is `true`. -/
  | whole {coveredBefore coveredAfter : Bool} {before after : Json}
      {beforeSensitive afterSensitive : Option Json}
      (notObjects : before.asObject = none ∨ after.asObject = none)
      (differ : before ≠ after)
      (unmarked : (isSensitive beforeSensitive || isSensitive afterSensitive) = false)
      (secret : (hasSecret coveredBefore beforeSensitive before
        || hasSecret coveredAfter afterSensitive after) = true) :
      Leaks coveredBefore coveredAfter before after beforeSensitive afterSensitive
  /-- So is the value of a removed key. -/
  | removed {coveredBefore coveredAfter : Bool} {beforeMap afterMap : List (String × Json)}
      {beforeSensitive afterSensitive : Option Json} {key : String} {val : Json}
      (inBefore : beforeMap.lookup key = some val) (notInAfter : afterMap.lookup key = none)
      (unmarked : isSensitive (fieldMarker beforeSensitive key) = false)
      (secret : hasSecret (coveredBefore || isSensitive beforeSensitive)
        (fieldMarker beforeSensitive key) val = true) :
      Leaks coveredBefore coveredAfter (.object beforeMap) (.object afterMap) beforeSensitive
        afterSensitive
  /-- So is the value of an added key. -/
  | added {coveredBefore coveredAfter : Bool} {beforeMap afterMap : List (String × Json)}
      {beforeSensitive afterSensitive : Option Json} {key : String} {val : Json}
      (notInBefore : beforeMap.lookup key = none) (inAfter : afterMap.lookup key = some val)
      (unmarked : isSensitive (fieldMarker afterSensitive key) = false)
      (secret : hasSecret (coveredAfter || isSensitive afterSensitive)
        (fieldMarker afterSensitive key) val = true) :
      Leaks coveredBefore coveredAfter (.object beforeMap) (.object afterMap) beforeSensitive
        afterSensitive
  /-- Values that differ below a common key are compared with the markers of that key. -/
  | nested {coveredBefore coveredAfter : Bool} {beforeMap afterMap : List (String × Json)}
      {beforeSensitive afterSensitive : Option Json} {key : String} {beforeVal afterVal : Json}
      (inBefore : beforeMap.lookup key = some beforeVal)
      (inAfter : afterMap.lookup key = some afterVal) (differ : beforeVal ≠ afterVal)
      (below : Leaks (coveredBefore || isSensitive beforeSensitive)
        (coveredAfter || isSensitive afterSensitive) beforeVal afterVal
        (fieldMarker beforeSensitive key) (fieldMarker afterSensitive key)) :
      Leaks coveredBefore coveredAfter (.object beforeMap) (.object afterMap) beforeSensitive
        afterSensitive

/-- Two updates change the values at the same paths. -/
def SameDifferences (before after before' after' : Json) : Prop :=
  ∀ path, before.at? path = after.at? path ↔ before'.at? path = after'.at? path

theorem SameDifferences.eq_iff {before after before' after' : Json}
    (h : SameDifferences before after before' after') : before = after ↔ before' = after' := by
  simpa using h []

theorem SameDifferences.below {fs gs fs' gs' : List (String × Json)} {key : String}
    {v w v' w' : Json} (h : SameDifferences (.object fs) (.object gs) (.object fs') (.object gs'))
    (hv : fs.lookup key = some v) (hw : gs.lookup key = some w)
    (hv' : fs'.lookup key = some v') (hw' : gs'.lookup key = some w') :
    SameDifferences v w v' w' := by
  intro path
  simpa [Json.at?_cons, hv, hw, hv', hw'] using h (key :: path)

theorem allKeys_congr {fs gs fs' gs' : List (String × Json)} (hf : keys fs = keys fs')
    (hg : keys gs = keys gs') : allKeys fs gs = allKeys fs' gs' := by
  simp [allKeys, hf, hg]

/-! ## Without a leak the diff is determined -/

section
variable {coveredBefore coveredAfter : Bool} {fs gs fs' gs' : List (String × Json)}
  {beforeSensitive afterSensitive : Option Json}

/-- One key of two objects, given that the diff of its values is determined. -/
theorem diffKey_eq_of_not_leaks
    (hleak : ¬ Leaks coveredBefore coveredAfter (.object fs) (.object gs) beforeSensitive
      afterSensitive)
    (hf : AgreeFields (coveredBefore || isSensitive beforeSensitive) beforeSensitive fs fs')
    (hg : AgreeFields (coveredAfter || isSensitive afterSensitive) afterSensitive gs gs')
    (hsame : SameDifferences (.object fs) (.object gs) (.object fs') (.object gs'))
    (order : KeyOrder) (path : String) (afterUnknown : Option Json) (changes : Changes)
    (key : String)
    (hrec : ∀ v w v' w', fs.lookup key = some v → gs.lookup key = some w →
      ¬ Leaks (coveredBefore || isSensitive beforeSensitive)
        (coveredAfter || isSensitive afterSensitive) v w (fieldMarker beforeSensitive key)
        (fieldMarker afterSensitive key) →
      Agree (coveredBefore || isSensitive beforeSensitive) (fieldMarker beforeSensitive key) v v' →
      Agree (coveredAfter || isSensitive afterSensitive) (fieldMarker afterSensitive key) w w' →
      SameDifferences v w v' w' →
        diffValuesWithSensitivity (order.under key) (joinPath path key) v w
            (fieldMarker beforeSensitive key) (fieldMarker afterSensitive key)
            (fieldMarker afterUnknown key) changes =
          diffValuesWithSensitivity (order.under key) (joinPath path key) v' w'
            (fieldMarker beforeSensitive key) (fieldMarker afterSensitive key)
            (fieldMarker afterUnknown key) changes) :
    diffKey order path fs gs beforeSensitive afterSensitive afterUnknown changes key =
      diffKey order path fs' gs' beforeSensitive afterSensitive afterUnknown changes key := by
  unfold diffKey
  cases hv : fs.lookup key with
  | none =>
      have hv' := lookup_eq_none_of_agreeFields hf hv
      cases hw : gs.lookup key with
      | none => simp [hv', lookup_eq_none_of_agreeFields hg hw]
      | some w =>
          rcases exists_lookup_of_agreeFields hg hw with ⟨w', hw', hww'⟩
          cases hs : isSensitive (fieldMarker afterSensitive key) with
          | true => simp [hv', hw']
          | false =>
              have hsecret : hasSecret (coveredAfter || isSensitive afterSensitive)
                  (fieldMarker afterSensitive key) w = false :=
                Bool.eq_false_iff.2 fun h => hleak (.added hv hw hs h)
              simp [hv', hw', eq_of_agree hsecret hww']
  | some v =>
      rcases exists_lookup_of_agreeFields hf hv with ⟨v', hv', hvv'⟩
      cases hw : gs.lookup key with
      | none =>
          have hw' := lookup_eq_none_of_agreeFields hg hw
          cases hs : isSensitive (fieldMarker beforeSensitive key) with
          | true => simp [hv', hw']
          | false =>
              have hsecret : hasSecret (coveredBefore || isSensitive beforeSensitive)
                  (fieldMarker beforeSensitive key) v = false :=
                Bool.eq_false_iff.2 fun h => hleak (.removed hv hw hs h)
              simp [hv', hw', eq_of_agree hsecret hvv']
      | some w =>
          rcases exists_lookup_of_agreeFields hg hw with ⟨w', hw', hww'⟩
          have hbelow := hsame.below hv hw hv' hw'
          by_cases heq : v = w
          · simp [hv', hw', heq, hbelow.eq_iff.1 heq]
          · have heq' : v' ≠ w' := mt hbelow.eq_iff.2 heq
            have hnot := fun h => hleak (.nested hv hw heq h)
            simpa [hv', hw', heq, heq'] using hrec v w v' w' hv hw hnot hvv' hww' hbelow

end

theorem diff_eq_of_not_leaks {coveredBefore coveredAfter : Bool}
    {before after before' after' : Json} {beforeSensitive afterSensitive : Option Json}
    (hleak : ¬ Leaks coveredBefore coveredAfter before after beforeSensitive afterSensitive)
    (hb : Agree coveredBefore beforeSensitive before before')
    (ha : Agree coveredAfter afterSensitive after after')
    (hsame : SameDifferences before after before' after')
    (order : KeyOrder) (path : String) (afterUnknown : Option Json) (changes : Changes) :
    diffValuesWithSensitivity order path before after beforeSensitive afterSensitive afterUnknown
        changes =
      diffValuesWithSensitivity order path before' after' beforeSensitive afterSensitive
        afterUnknown changes := by
  by_cases hobj : before.asObject = none ∨ after.asObject = none
  · have hobj' : before'.asObject = none ∨ after'.asObject = none :=
      hobj.imp (asObject_eq_none_of_agree hb) (asObject_eq_none_of_agree ha)
    rw [diff_whole order path hobj, diff_whole order path hobj']
    by_cases heq : before = after
    · rw [if_pos heq, if_pos (hsame.eq_iff.1 heq)]
    · rw [if_neg heq, if_neg (mt hsame.eq_iff.2 heq)]
      cases hs : isSensitive beforeSensitive || isSensitive afterSensitive with
      | true => rfl
      | false =>
          have hsecret : (hasSecret coveredBefore beforeSensitive before
              || hasSecret coveredAfter afterSensitive after) = false :=
            Bool.eq_false_iff.2 fun h => hleak (.whole hobj heq hs h)
          rw [Bool.or_eq_false_iff] at hsecret
          rw [eq_of_agree hsecret.1 hb, eq_of_agree hsecret.2 ha]
  · -- Both values are objects, and so are the two they agree with.
    rcases not_or.1 hobj with ⟨hbo, hao⟩
    rcases Json.exists_object_of_asObject hbo with ⟨fs, rfl⟩
    rcases Json.exists_object_of_asObject hao with ⟨gs, rfl⟩
    rcases exists_of_agree_object hb with ⟨fs', rfl, hf⟩
    rcases exists_of_agree_object ha with ⟨gs', rfl, hg⟩
    rw [diff_objects, diff_objects, allKeys_congr (keys_of_agreeFields hf) (keys_of_agreeFields hg)]
    congr 1
    funext acc key
    refine diffKey_eq_of_not_leaks hleak hf hg hsame order path afterUnknown acc key ?_
    intro v w v' w' hv hw hnot hvv' hww' hbelow
    have := Json.sizeOf_lt_of_lookup hv
    exact diff_eq_of_not_leaks hnot hvv' hww' hbelow _ _ _ _
termination_by sizeOf before

/-! ## With a leak it is not -/

/-- `key` comes last among the keys of the outermost objects, and `child` orders the rest. -/
def KeyOrder.lastAt (key : String) (child : KeyOrder) : KeyOrder where
  arrange
    | [], keys => if key ∈ keys then keys.erase key ++ [key] else keys
    | _ :: trail, keys => child.arrange trail keys
  perm
    | [], keys => by
        by_cases h : key ∈ keys
        · simpa [h] using (List.perm_append_comm).trans (List.perm_cons_erase h).symm
        · simp [h]
    | _ :: trail, keys => child.perm trail keys

@[simp] theorem KeyOrder.lastAt_under (key : String) (child : KeyOrder) :
    (KeyOrder.lastAt key child).under key = child := rfl

theorem KeyOrder.lastAt_arrange {key : String} {keys : List String} (h : key ∈ keys)
    (child : KeyOrder) : (KeyOrder.lastAt key child).arrange [] keys = keys.erase key ++ [key] :=
  if_pos h

/-- The diff of two objects ends with the key that comes last. -/
theorem diff_objects_lastAt (fs gs : List (String × Json)) {key : String}
    (hkey : key ∈ allKeys fs gs) (child : KeyOrder) (path : String)
    (beforeSensitive afterSensitive afterUnknown : Option Json) (changes : Changes) :
    ∃ acc, diffValuesWithSensitivity (.lastAt key child) path (.object fs) (.object gs)
        beforeSensitive afterSensitive afterUnknown changes =
      diffKey (.lastAt key child) path fs gs beforeSensitive afterSensitive afterUnknown acc key := by
  rw [diff_objects, KeyOrder.lastAt_arrange hkey, List.foldl_append]
  exact ⟨_, rfl⟩

theorem mem_allKeys_left {key : String} {v : Json} {fs gs : List (String × Json)}
    (h : fs.lookup key = some v) : key ∈ allKeys fs gs := by
  have hmem : key ∈ keys fs := mem_keys_iff.2 ⟨v, h⟩
  simp [allKeys, hmem]

theorem mem_allKeys_right {key : String} {w : Json} {fs gs : List (String × Json)}
    (h : gs.lookup key = some w) : key ∈ allKeys fs gs := by
  have hmem : key ∈ keys gs := mem_keys_iff.2 ⟨w, h⟩
  simp [allKeys, hmem]

/-- Replacing the values of one key changes the differences below that key only. -/
theorem sameDifferences_of_lookup (key : String) {fs gs fs' gs' : List (String × Json)}
    (hne : fs ≠ gs) (hne' : fs' ≠ gs')
    (hf : ∀ k, k ≠ key → fs'.lookup k = fs.lookup k)
    (hg : ∀ k, k ≠ key → gs'.lookup k = gs.lookup k)
    (hkey : ∀ path, (Json.object fs).at? (key :: path) = (Json.object gs).at? (key :: path) ↔
      (Json.object fs').at? (key :: path) = (Json.object gs').at? (key :: path)) :
    SameDifferences (.object fs) (.object gs) (.object fs') (.object gs') := by
  intro path
  cases path with
  | nil => simp [hne, hne']
  | cons k path =>
      by_cases hk : k = key
      · subst hk
        exact hkey path
      · simp [Json.at?_cons, hf k hk, hg k hk]

theorem at?_eq_none_iff_of_agree {covered : Bool} {markers : Option Json} {v w : Json}
    (h : Agree covered markers v w) (path : List String) :
    v.at? path = none ↔ w.at? path = none := by
  have hsome := isSome_at?_of_agree h path
  rw [← Option.isNone_iff_eq_none, ← Option.isNone_iff_eq_none, ← Option.not_isSome,
    ← Option.not_isSome, hsome]

theorem at?_cons_of_asObject {v : Json} (h : v.asObject = none) (key : String)
    (path : List String) : v.at? (key :: path) = none := by
  cases v with
  | object fields => simp [Json.asObject] at h
  | _ => simp [Json.at?, Json.get?]

theorem sameDifferences_whole {cb ca : Bool} {bs as' : Option Json}
    {before after before' after' : Json}
    (hobj : before.asObject = none ∨ after.asObject = none) (hne : before ≠ after)
    (hne' : before' ≠ after') (hb : Agree cb bs before before') (ha : Agree ca as' after after') :
    SameDifferences before after before' after' := by
  intro path
  cases path with
  | nil => simp [hne, hne']
  | cons key path =>
      rcases hobj with h | h
      · rw [at?_cons_of_asObject h, at?_cons_of_asObject (asObject_eq_none_of_agree hb h)]
        rw [eq_comm, at?_eq_none_iff_of_agree ha, eq_comm]
      · rw [at?_cons_of_asObject h, at?_cons_of_asObject (asObject_eq_none_of_agree ha h)]
        exact at?_eq_none_iff_of_agree hb _

theorem changeEntry_injective {before after before' after' : Json} {u u' : Bool}
    (h : changeEntry before after u = changeEntry before' after' u') :
    before = before' ∧ after = after' := by
  simp only [changeEntry, Json.object.injEq, List.cons.injEq, Prod.mk.injEq] at h
  exact ⟨h.2.2.1.2, h.1.2⟩

section
variable {coveredBefore coveredAfter : Bool} {before after : Json}
  {fs gs : List (String × Json)} {beforeSensitive afterSensitive : Option Json}

/-- Another update that agrees with this one outside the covered leaves is told apart from it by
some entry of the two diffs, whatever the diffs are added to. -/
def Discloses (coveredBefore coveredAfter : Bool) (before after : Json)
    (beforeSensitive afterSensitive : Option Json) : Prop :=
  ∃ before' after', Agree coveredBefore beforeSensitive before before' ∧
    Agree coveredAfter afterSensitive after after' ∧ SameDifferences before after before' after' ∧
    ∃ order, ∀ path afterUnknown changes changes', ∃ entry,
      (diffValuesWithSensitivity order path before after beforeSensitive afterSensitive
          afterUnknown changes).lookup entry ≠
        (diffValuesWithSensitivity order path before' after' beforeSensitive afterSensitive
          afterUnknown changes').lookup entry

def KeyOrder.asListed : KeyOrder where
  arrange _ keys := keys
  perm _ _ := .refl _

theorem discloses_whole_of_ne {before' after' : Json}
    (hobj : before.asObject = none ∨ after.asObject = none) (hne : before ≠ after)
    (hun : (isSensitive beforeSensitive || isSensitive afterSensitive) = false)
    (hb : Agree coveredBefore beforeSensitive before before')
    (ha : Agree coveredAfter afterSensitive after after') (hne' : before' ≠ after')
    (hdiff : before' ≠ before ∨ after' ≠ after) :
    Discloses coveredBefore coveredAfter before after beforeSensitive afterSensitive := by
  refine ⟨before', after', hb, ha, sameDifferences_whole hobj hne hne' hb ha, .asListed, ?_⟩
  intro path afterUnknown changes changes'
  refine ⟨path, ?_⟩
  have hobj' : before'.asObject = none ∨ after'.asObject = none :=
    hobj.imp (asObject_eq_none_of_agree hb) (asObject_eq_none_of_agree ha)
  rw [diff_whole _ path hobj, diff_whole _ path hobj', if_neg hne, if_neg hne', hun]
  simp only [Bool.false_eq_true, if_false, lookup_insert_self]
  intro heq
  rcases changeEntry_injective (Option.some.inj heq) with ⟨hbefore, hafter⟩
  rcases hdiff with h | h
  · exact h hbefore.symm
  · exact h hafter.symm

theorem discloses_whole (hobj : before.asObject = none ∨ after.asObject = none)
    (hne : before ≠ after)
    (hun : (isSensitive beforeSensitive || isSensitive afterSensitive) = false)
    (hsecret : (hasSecret coveredBefore beforeSensitive before
      || hasSecret coveredAfter afterSensitive after) = true) :
    Discloses coveredBefore coveredAfter before after beforeSensitive afterSensitive := by
  rcases Bool.or_eq_true_iff.1 hsecret with hs | hs
  · rcases exists_agree_ne hs after with ⟨v', hv', hne₁, hne₂⟩
    exact discloses_whole_of_ne hobj hne hun hv' (agree_refl _ _ _) hne₂ (.inl hne₁)
  · rcases exists_agree_ne hs before with ⟨w', hw', hne₁, hne₂⟩
    exact discloses_whole_of_ne hobj hne hun (agree_refl _ _ _) hw' hne₂.symm (.inr hne₁)

theorem discloses_removed {key : String} {val : Json} (hin : fs.lookup key = some val)
    (hout : gs.lookup key = none)
    (hun : isSensitive (fieldMarker beforeSensitive key) = false)
    (hsecret : hasSecret (coveredBefore || isSensitive beforeSensitive)
      (fieldMarker beforeSensitive key) val = true) :
    Discloses coveredBefore coveredAfter (.object fs) (.object gs) beforeSensitive
      afterSensitive := by
  rcases exists_agree_ne hsecret val with ⟨v', hv', hne, -⟩
  have hset := lookup_setField v' hin
  have hin' : (setField key v' fs).lookup key = some v' := by simpa using hset key
  refine ⟨.object (setField key v' fs), .object gs,
    by simpa [Agree] using agreeFields_setField hin hv', agree_refl _ _ _, ?_,
    .lastAt key .asListed, ?_⟩
  · refine sameDifferences_of_lookup key (fun h => ?_) (fun h => ?_)
      (fun k hk => by simp [hset, hk]) (fun _ _ => rfl) (fun path => ?_)
    · simp [h, hout] at hin
    · simp [h, hout] at hin'
    · simpa [Json.at?_cons, hin, hin', hout] using at?_eq_none_iff_of_agree hv' path
  · intro path afterUnknown changes changes'
    refine ⟨joinPath path key, ?_⟩
    rcases diff_objects_lastAt _ gs (mem_allKeys_left hin) .asListed path beforeSensitive
      afterSensitive afterUnknown changes with ⟨acc, h⟩
    rcases diff_objects_lastAt _ gs (mem_allKeys_left hin') .asListed path beforeSensitive
      afterSensitive afterUnknown changes' with ⟨acc', h'⟩
    rw [h, h']
    simp only [diffKey, hin, hout, hin', hun, Bool.false_eq_true, if_false, lookup_insert_self]
    intro heq
    exact hne (changeEntry_injective (Option.some.inj heq)).1.symm

theorem discloses_added {key : String} {val : Json} (hout : fs.lookup key = none)
    (hin : gs.lookup key = some val)
    (hun : isSensitive (fieldMarker afterSensitive key) = false)
    (hsecret : hasSecret (coveredAfter || isSensitive afterSensitive)
      (fieldMarker afterSensitive key) val = true) :
    Discloses coveredBefore coveredAfter (.object fs) (.object gs) beforeSensitive
      afterSensitive := by
  rcases exists_agree_ne hsecret val with ⟨w', hw', hne, -⟩
  have hset := lookup_setField w' hin
  have hin' : (setField key w' gs).lookup key = some w' := by simpa using hset key
  refine ⟨.object fs, .object (setField key w' gs), agree_refl _ _ _,
    by simpa [Agree] using agreeFields_setField hin hw', ?_, .lastAt key .asListed, ?_⟩
  · refine sameDifferences_of_lookup key (fun h => ?_) (fun h => ?_)
      (fun _ _ => rfl) (fun k hk => by simp [hset, hk]) (fun path => ?_)
    · simp [← h, hout] at hin
    · simp [← h, hout] at hin'
    · simpa [Json.at?_cons, hin, hin', hout, eq_comm] using at?_eq_none_iff_of_agree hw' path
  · intro path afterUnknown changes changes'
    refine ⟨joinPath path key, ?_⟩
    rcases diff_objects_lastAt fs _ (mem_allKeys_right hin) .asListed path beforeSensitive
      afterSensitive afterUnknown changes with ⟨acc, h⟩
    rcases diff_objects_lastAt fs _ (mem_allKeys_right hin') .asListed path beforeSensitive
      afterSensitive afterUnknown changes' with ⟨acc', h'⟩
    rw [h, h']
    simp only [diffKey, hin, hout, hin', hun, Bool.false_eq_true, if_false, lookup_insert_self]
    intro heq
    exact hne (changeEntry_injective (Option.some.inj heq)).2.symm

theorem discloses_nested {key : String} {v w : Json} (hv : fs.lookup key = some v)
    (hw : gs.lookup key = some w) (hne : v ≠ w)
    (hbelow : Discloses (coveredBefore || isSensitive beforeSensitive)
      (coveredAfter || isSensitive afterSensitive) v w (fieldMarker beforeSensitive key)
      (fieldMarker afterSensitive key)) :
    Discloses coveredBefore coveredAfter (.object fs) (.object gs) beforeSensitive
      afterSensitive := by
  rcases hbelow with ⟨v', w', hvv', hww', hsame, child, hdiff⟩
  have hsetf := lookup_setField v' hv
  have hsetg := lookup_setField w' hw
  have hv' : (setField key v' fs).lookup key = some v' := by simpa using hsetf key
  have hw' : (setField key w' gs).lookup key = some w' := by simpa using hsetg key
  have hne' : v' ≠ w' := mt hsame.eq_iff.2 hne
  refine ⟨.object (setField key v' fs), .object (setField key w' gs),
    by simpa [Agree] using agreeFields_setField hv hvv',
    by simpa [Agree] using agreeFields_setField hw hww', ?_, .lastAt key child, ?_⟩
  · refine sameDifferences_of_lookup key (fun h => ?_) (fun h => ?_)
      (fun k hk => by simp [hsetf, hk]) (fun k hk => by simp [hsetg, hk]) (fun path => ?_)
    · rw [h, hw] at hv
      exact hne (Option.some.inj hv).symm
    · rw [h, hw'] at hv'
      exact hne' (Option.some.inj hv').symm
    · simpa [Json.at?_cons, hv, hw, hv', hw'] using hsame path
  · intro path afterUnknown changes changes'
    rcases diff_objects_lastAt _ gs (mem_allKeys_left hv) child path beforeSensitive
      afterSensitive afterUnknown changes with ⟨acc, h⟩
    rcases diff_objects_lastAt _ (setField key w' gs) (mem_allKeys_left hv') child path
      beforeSensitive afterSensitive afterUnknown changes' with ⟨acc', h'⟩
    rcases hdiff (joinPath path key) (fieldMarker afterUnknown key) acc acc' with ⟨entry, hentry⟩
    refine ⟨entry, ?_⟩
    rw [h, h']
    simpa [diffKey, hv, hw, hv', hw', hne, hne'] using hentry

theorem discloses_of_leaks
    (h : Leaks coveredBefore coveredAfter before after beforeSensitive afterSensitive) :
    Discloses coveredBefore coveredAfter before after beforeSensitive afterSensitive := by
  induction h with
  | whole notObjects differ unmarked secret =>
      exact discloses_whole notObjects differ unmarked secret
  | removed inBefore notInAfter unmarked secret =>
      exact discloses_removed inBefore notInAfter unmarked secret
  | added notInBefore inAfter unmarked secret =>
      exact discloses_added notInBefore inAfter unmarked secret
  | nested inBefore inAfter differ _ ih => exact discloses_nested inBefore inAfter differ ih

end

end ResourceChange
end InfraWeave
