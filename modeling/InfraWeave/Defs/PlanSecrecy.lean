import InfraWeave.Defs.ResourceChangeSecrecy

/-!
# Sensitive values and the records of a plan

Two plans agree when their resource changes are identical except for leaf values that
`before_sensitive` or `after_sensitive` covers, and each update changes the values at the same
paths in both (a covered value that changed is recorded as `[REDACTED]`, so whether it changed is
not a secret).  `noninterfering_iff` says when the records of a plan are those of every plan that
agrees with it: exactly when none of its updates leaks.
-/

namespace InfraWeave
namespace ResourceChange

/-! ## Plans that agree -/

structure ChangeAgree (change change' : Json) : Prop where
  others : ∀ key, key ≠ "before" → key ≠ "after" → change'.get? key = change.get? key
  before : Option.Rel (Agree false (change.get? "before_sensitive")) (change.get? "before")
    (change'.get? "before")
  after : Option.Rel (Agree false (change.get? "after_sensitive")) (change.get? "after")
    (change'.get? "after")
  sameDifferences : ∀ path, change.at? ("before" :: path) = change.at? ("after" :: path) ↔
    change'.at? ("before" :: path) = change'.at? ("after" :: path)

structure ResourceAgree (resource resource' : Json) : Prop where
  others : ∀ key, key ≠ "change" → resource'.get? key = resource.get? key
  change : Option.Rel ChangeAgree (resource.get? "change") (resource'.get? "change")

/-- The resource changes the records are made from. -/
def planResources (refreshOnly : Bool) (plan : Json) : List Json :=
  ((plan.get? (changesKey refreshOnly)).bind Json.asArray).getD []

def PlanAgree (refreshOnly : Bool) (plan plan' : Json) : Prop :=
  List.Forall₂ ResourceAgree (planResources refreshOnly plan) (planResources refreshOnly plan')

/-- No plan that agrees with this one is recorded differently. -/
def Noninterfering (refreshOnly : Bool) (plan : Json) : Prop :=
  ∀ (orders : Nat → KeyOrder) (plan' : Json), PlanAgree refreshOnly plan plan' →
    sanitizeResourceChangesFromPlan orders plan refreshOnly =
      sanitizeResourceChangesFromPlan orders plan' refreshOnly

theorem changeAgree_refl (change : Json) : ChangeAgree change change where
  others _ _ _ := rfl
  before := by cases change.get? "before" <;> simp [agree_refl]
  after := by cases change.get? "after" <;> simp [agree_refl]
  sameDifferences _ := Iff.rfl

theorem resourceAgree_refl (resource : Json) : ResourceAgree resource resource where
  others _ _ := rfl
  change := by cases resource.get? "change" <;> simp [changeAgree_refl]

theorem sanitizeResourceChangesFromPlan_eq (orders : Nat → KeyOrder) (plan : Json)
    (refreshOnly : Bool) :
    sanitizeResourceChangesFromPlan orders plan refreshOnly =
      (planResources refreshOnly plan).zipIdx.filterMap fun (resource, i) =>
        fromTerraformJson (orders i) resource := by
  unfold sanitizeResourceChangesFromPlan planResources
  cases plan.get? (changesKey refreshOnly) with
  | none => rfl
  | some changes => cases h : changes.asArray <;> simp [sanitizeResourceChanges, h]

/-! ## The updates that leak -/

/-- The action of a resource that has all a record needs. -/
def recordedAction (resource : Json) : Option ResourceAction := do
  let _ ← (← resource.get? "address").asStr
  let _ ← (← resource.get? "type").asStr
  let _ ← (← resource.get? "name").asStr
  let change ← resource.get? "change"
  let actions ← (← change.get? "actions").asArray
  some (parseAction (actions.filterMap Json.asStr))

structure UpdateLeaks (resource change before after : Json) : Prop where
  hasChange : resource.get? "change" = some change
  hasBefore : change.get? "before" = some before
  hasAfter : change.get? "after" = some after
  updated : recordedAction resource = some .update ∨ recordedAction resource = some .replace
  leaks : Leaks false false before after (change.get? "before_sensitive")
    (change.get? "after_sensitive")

def ResourceLeaks (resource : Json) : Prop :=
  ∃ change before after, UpdateLeaks resource change before after

/-! ## Resources that do not leak -/

theorem computeChanges_eq_of_agree (order : KeyOrder) {resource change change' : Json}
    (hleak : ¬ ResourceLeaks resource) (hchange : resource.get? "change" = some change)
    (haction : recordedAction resource = some .update ∨ recordedAction resource = some .replace)
    (h : ChangeAgree change change') :
    computeChangesWithSensitivity order (change.get? "before") (change.get? "after")
        (change.get? "before_sensitive") (change.get? "after_sensitive")
        (change.get? "after_unknown") =
      computeChangesWithSensitivity order (change'.get? "before") (change'.get? "after")
        (change.get? "before_sensitive") (change.get? "after_sensitive")
        (change.get? "after_unknown") := by
  have hb := h.before
  have ha := h.after
  have hsame := h.sameDifferences
  simp only [Json.at?_cons] at hsame
  cases hbefore : change.get? "before" with
  | none =>
      have hbefore' : change'.get? "before" = none := eq_none_of_rel (hbefore ▸ hb)
      simp [hbefore', computeChangesWithSensitivity]
  | some before =>
      rcases exists_of_rel_some (hbefore ▸ hb) with ⟨before', hbefore', hbb'⟩
      cases hafter : change.get? "after" with
      | none =>
          have hafter' : change'.get? "after" = none := eq_none_of_rel (hafter ▸ ha)
          simp [hafter', computeChangesWithSensitivity]
      | some after =>
          rcases exists_of_rel_some (hafter ▸ ha) with ⟨after', hafter', haa'⟩
          have hnot : ¬ Leaks false false before after (change.get? "before_sensitive")
              (change.get? "after_sensitive") := fun hl =>
            hleak ⟨change, before, after, hchange, hbefore, hafter, haction, hl⟩
          have hdiff := diff_eq_of_not_leaks hnot hbb' haa'
            (fun path => by simpa [hbefore, hafter, hbefore', hafter'] using hsame path)
            order "" (change.get? "after_unknown") []
          simp [hbefore', hafter', computeChangesWithSensitivity, hdiff]

theorem fromTerraformJson_eq_of_agree (order : KeyOrder) {resource resource' : Json}
    (hleak : ¬ ResourceLeaks resource) (h : ResourceAgree resource resource') :
    fromTerraformJson order resource = fromTerraformJson order resource' := by
  have hothers := h.others
  have hc := h.change
  unfold fromTerraformJson
  simp only [Option.bind_eq_bind, hothers "address" (by decide), hothers "type" (by decide),
    hothers "name" (by decide), hothers "mode" (by decide), hothers "provider_name" (by decide),
    hothers "action_reason" (by decide), hothers "index" (by decide)]
  refine Option.bind_congr fun address haddress => ?_
  refine Option.bind_congr fun address' haddress' => ?_
  refine Option.bind_congr fun type htype => ?_
  refine Option.bind_congr fun type' htype' => ?_
  refine Option.bind_congr fun name hname => ?_
  refine Option.bind_congr fun name' hname' => ?_
  cases hchange : resource.get? "change" with
  | none =>
      have hchange' : resource'.get? "change" = none := eq_none_of_rel (hchange ▸ hc)
      simp [hchange']
  | some change =>
      rcases exists_of_rel_some (hchange ▸ hc) with ⟨change', hchange', hagree⟩
      have hchangeOthers := hagree.others
      simp only [hchange', Option.bind_some, hchangeOthers "actions" (by decide) (by decide),
        hchangeOthers "before_sensitive" (by decide) (by decide),
        hchangeOthers "after_sensitive" (by decide) (by decide),
        hchangeOthers "after_unknown" (by decide) (by decide),
        hchangeOthers "before_depends_on" (by decide) (by decide),
        hchangeOthers "after_depends_on" (by decide) (by decide)]
      refine Option.bind_congr fun actions hactions => ?_
      refine Option.bind_congr fun actions' hactions' => ?_
      have haction : recordedAction resource =
          some (parseAction (actions'.filterMap Json.asStr)) := by
        simp [recordedAction, haddress, haddress', htype, htype', hname, hname', hchange, hactions,
          hactions']
      cases hparse : parseAction (actions'.filterMap Json.asStr) with
      | create => simp [sanitizeValues_eq_of_agree hagree.after]
      | delete => simp [sanitizeValues_eq_of_agree hagree.before]
      | noOp => rfl
      | update =>
          have hcompute := computeChanges_eq_of_agree order hleak hchange
            (.inl (haction.trans (congrArg some hparse))) hagree
          simp [hcompute]
      | replace =>
          have hcompute := computeChanges_eq_of_agree order hleak hchange
            (.inr (haction.trans (congrArg some hparse))) hagree
          simp [hcompute]

theorem filterMap_zipIdx_congr (orders : Nat → KeyOrder) {resources resources' : List Json}
    (hleak : ∀ resource ∈ resources, ¬ ResourceLeaks resource)
    (h : List.Forall₂ ResourceAgree resources resources') (start : Nat) :
    ((resources.zipIdx start).filterMap fun (resource, i) =>
        fromTerraformJson (orders i) resource) =
      (resources'.zipIdx start).filterMap fun (resource, i) =>
        fromTerraformJson (orders i) resource := by
  induction h generalizing start with
  | nil => rfl
  | @cons resource resource' resources resources' hhead _ ih =>
      have hrest := ih (fun r hr => hleak r (List.mem_cons_of_mem _ hr)) (start + 1)
      have heq := fromTerraformJson_eq_of_agree (orders start)
        (hleak resource List.mem_cons_self) hhead
      simp only [List.zipIdx_cons, List.filterMap_cons, heq, hrest]

/-! ## Resources that leak -/

theorem get?_setField {key : String} {v : Json} (w : Json) {fs : List (String × Json)}
    (h : (Json.object fs).get? key = some v) (key' : String) :
    (Json.object (setField key w fs)).get? key' =
      if key' = key then some w else (Json.object fs).get? key' :=
  lookup_setField w h key'

theorem exists_fields_of_get? {v w : Json} {key : String} (h : v.get? key = some w) :
    ∃ fs, v = .object fs := by
  cases v with
  | object fs => exact ⟨fs, rfl⟩
  | _ => simp [Json.get?] at h

/-- Some resource with the values before and after replaced, everything else the same. -/
theorem exists_resource_with {resource change before after : Json}
    (hchange : resource.get? "change" = some change)
    (hbefore : change.get? "before" = some before) (hafter : change.get? "after" = some after)
    (before' after' : Json) :
    ∃ resource' change' : Json, resource'.get? "change" = some change' ∧
      change'.get? "before" = some before' ∧ change'.get? "after" = some after' ∧
      (∀ key, key ≠ "change" → resource'.get? key = resource.get? key) ∧
      ∀ key, key ≠ "before" → key ≠ "after" → change'.get? key = change.get? key := by
  rcases exists_fields_of_get? hchange with ⟨rs, rfl⟩
  rcases exists_fields_of_get? hbefore with ⟨cs, rfl⟩
  have hset := get?_setField before' hbefore
  have hafter' : (Json.object (setField "before" before' cs)).get? "after" = some after := by
    rw [hset, if_neg (by decide), hafter]
  have hset' := get?_setField after' hafter'
  refine ⟨.object (setField "change" (.object (setField "after" after'
    (setField "before" before' cs))) rs), _, (get?_setField _ hchange "change").trans (if_pos rfl),
    ?_, ?_, ?_, ?_⟩
  · rw [hset', if_neg (by decide), hset, if_pos rfl]
  · rw [hset', if_pos rfl]
  · intro key hkey
    rw [get?_setField _ hchange, if_neg hkey]
  · intro key hb ha
    rw [hset', if_neg ha, hset, if_neg hb]

theorem exists_record (order : KeyOrder) {resource change before after : Json}
    (hchange : resource.get? "change" = some change)
    (hbefore : change.get? "before" = some before) (hafter : change.get? "after" = some after)
    (haction : recordedAction resource = some .update ∨
      recordedAction resource = some .replace) :
    ∃ record, fromTerraformJson order resource = some record ∧
      record.changes = computeChangesWithSensitivity order (some before) (some after)
        (change.get? "before_sensitive") (change.get? "after_sensitive")
        (change.get? "after_unknown") := by
  obtain ⟨action, haction, hupdate⟩ :
      ∃ action, recordedAction resource = some action ∧ (action = .update ∨ action = .replace) := by
    rcases haction with h | h
    · exact ⟨_, h, .inl rfl⟩
    · exact ⟨_, h, .inr rfl⟩
  simp only [recordedAction, Option.bind_eq_bind, Option.bind_eq_some_iff, hchange,
    Option.some.injEq] at haction
  rcases haction with ⟨a, ha, a', ha', t, ht, t', ht', n, hn, n', hn', _, rfl, acts, hacts, acts',
    hacts', hparse⟩
  refine ⟨_, by simp [fromTerraformJson, ha, ha', ht, ht', hn, hn', hchange, hacts, hacts']; rfl, ?_⟩
  rcases hupdate with rfl | rfl <;> simp [hparse, hbefore, hafter]

theorem computeChanges_injective {order : KeyOrder} {before after before' after' : Json}
    {beforeSensitive afterSensitive afterUnknown : Option Json}
    (h : computeChangesWithSensitivity order (some before') (some after') beforeSensitive
        afterSensitive afterUnknown =
      computeChangesWithSensitivity order (some before) (some after) beforeSensitive
        afterSensitive afterUnknown) :
    diffValuesWithSensitivity order "" before after beforeSensitive afterSensitive afterUnknown [] =
      diffValuesWithSensitivity order "" before' after' beforeSensitive afterSensitive afterUnknown
        [] := by
  simp only [computeChangesWithSensitivity] at h
  split at h <;> split at h <;> simp_all

theorem exists_fromTerraformJson_ne {resource : Json} (h : ResourceLeaks resource) :
    ∃ resource' order record record', ResourceAgree resource resource' ∧
      fromTerraformJson order resource = some record ∧
      fromTerraformJson order resource' = some record' ∧ record ≠ record' := by
  rcases h with ⟨change, before, after, h⟩
  rcases discloses_of_leaks h.leaks with ⟨before', after', hb, ha, hsame, order, hdiff⟩
  rcases exists_resource_with h.hasChange h.hasBefore h.hasAfter before' after' with
    ⟨resource', change', hchange', hbefore', hafter', hres, hchangeOthers⟩
  have hagree : ChangeAgree change change' :=
    { others := hchangeOthers
      before := by simpa [h.hasBefore, hbefore'] using hb
      after := by simpa [h.hasAfter, hafter'] using ha
      sameDifferences := fun path => by
        simpa [Json.at?_cons, h.hasBefore, h.hasAfter, hbefore', hafter'] using hsame path }
  have haction' : recordedAction resource' = recordedAction resource := by
    simp [recordedAction, hres "address" (by decide), hres "type" (by decide),
      hres "name" (by decide), h.hasChange, hchange',
      hchangeOthers "actions" (by decide) (by decide)]
  rcases exists_record order h.hasChange h.hasBefore h.hasAfter h.updated with
    ⟨record, hrecord, hchanges⟩
  rcases exists_record order hchange' hbefore' hafter' (haction'.symm ▸ h.updated) with
    ⟨record', hrecord', hchanges'⟩
  refine ⟨resource', order, record, record', ⟨hres, ?_⟩, hrecord, hrecord', ?_⟩
  · simpa [h.hasChange, hchange'] using hagree
  · intro heq
    rw [heq, hchanges', hchangeOthers "before_sensitive" (by decide) (by decide),
      hchangeOthers "after_sensitive" (by decide) (by decide),
      hchangeOthers "after_unknown" (by decide) (by decide)] at hchanges
    rcases hdiff "" (change.get? "after_unknown") [] [] with ⟨entry, hentry⟩
    refine hentry ?_
    rw [computeChanges_injective hchanges]

/-! ## The plan -/

/-- An update that appends to a list whose first element is marked. -/
def tokensUpdate (token : String) : Json :=
  .object [
    ("actions", .array [.string "update"]),
    ("after", .object [("tokens", .array [.string token, .string "reader"])]),
    ("after_sensitive", .object [("tokens", .array [.bool true, .bool false])]),
    ("before", .object [("tokens", .array [.string token])]),
    ("before_sensitive", .object [("tokens", .array [.bool true])])]

def tokensPlan (token : String) : Json :=
  .object [("resource_changes", .array [.object [
    ("address", .string "vault_policy.main"), ("change", tokensUpdate token),
    ("name", .string "main"), ("type", .string "vault_policy")]])]

theorem changeAgree_tokensUpdate (token token' : String) :
    ChangeAgree (tokensUpdate token) (tokensUpdate token') where
  others key hb ha := by simp [tokensUpdate, OrderedMap.lookup_cons_ite, hb, ha]
  before := by
    simp [tokensUpdate, OrderedMap.lookup_cons_ite, Agree, AgreeFields, AgreeItems, fieldMarker, isSensitive,
      itemMarkers, Json.asObject, Json.isLeaf]
  after := by
    simp [tokensUpdate, OrderedMap.lookup_cons_ite, Agree, AgreeFields, AgreeItems, fieldMarker, isSensitive,
      itemMarkers, Json.asObject, Json.isLeaf]
  sameDifferences path := by
    cases path with
    | nil => simp [tokensUpdate, Json.at?_cons, OrderedMap.lookup_cons_ite]
    | cons key path =>
        by_cases hkey : key = "tokens"
        · subst hkey
          cases path <;> simp [tokensUpdate, Json.at?_cons, OrderedMap.lookup_cons_ite, Json.get?]
        · simp [tokensUpdate, Json.at?_cons, OrderedMap.lookup_cons_ite, hkey]

end ResourceChange
end InfraWeave
