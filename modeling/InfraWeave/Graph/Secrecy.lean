import InfraWeave.Graph.ProcessGraph

/-!
# Sensitive values and the graph of a plan

Two plans whose changes differ in nothing but values that are marked as sensitive have the same
graph, and so have plans whose states differ in nothing but values.
-/

namespace InfraWeave
namespace Graph

/-! ## Plans that are alike -/

structure ChangeAlike (c c' : Change) : Prop where
  actions : c'.actions = c.actions
  unknown : c'.afterUnknown = c.afterUnknown
  sensitive : c'.afterSensitive = c.afterSensitive
  after : Alike c.afterSensitive c.after c'.after

structure ResourceAlike (r r' : ResourceChange) : Prop where
  address : r'.address = r.address
  mode : r'.mode = r.mode
  change : ChangeAlike r.change r'.change

def EntryAlike (r : ν → ν → Prop) (entry entry' : String × ν) : Prop :=
  entry'.1 = entry.1 ∧ r entry.2 entry'.2

/-- Of the states before and after the changes, only the addresses count. -/
structure PlanAlike (plan plan' : Plan) : Prop where
  resources : List.Forall₂ ResourceAlike plan.resourceChanges plan'.resourceChanges
  outputs : List.Forall₂ (EntryAlike ChangeAlike) plan.outputChanges plan'.outputChanges
  configuration : plan'.configuration = plan.configuration
  priorState : stateAddresses plan'.priorState = stateAddresses plan.priorState
  plannedValues : stateAddresses plan'.plannedValues = stateAddresses plan.plannedValues
  values : plan'.values = plan.values

/-! ## Maps of related entries -/

theorem map_eq_of_forall₂ {r : α → α → Prop} {f : α → β} (hf : ∀ a b, r a b → f b = f a)
    {xs ys : List α} (h : List.Forall₂ r xs ys) : ys.map f = xs.map f := by
  induction h with
  | nil => rfl
  | cons hhead _ ih => rw [List.map_cons, List.map_cons, hf _ _ hhead, ih]

theorem rel_lookup {r : ν → ν → Prop} {m m' : List (String × ν)}
    (h : List.Forall₂ (EntryAlike r) m m') (k : String) :
    Option.Rel r (m.lookup k) (m'.lookup k) := by
  induction h with
  | nil => exact .none
  | @cons entry entry' m m' hentry _ ih =>
      rcases entry with ⟨l, v⟩
      rcases entry' with ⟨l', v'⟩
      obtain rfl : l' = l := hentry.1
      rw [OrderedMap.lookup_cons_ite, OrderedMap.lookup_cons_ite]
      split
      · exact .some hentry.2
      · exact ih

theorem forall₂_upsert {r : ν → ν → Prop} {m m' : List (String × ν)}
    (h : List.Forall₂ (EntryAlike r) m m') (k : String) {new new' : ν} {f f' : ν → ν}
    (hnew : r new new') (hf : ∀ v v', r v v' → r (f v) (f' v')) :
    List.Forall₂ (EntryAlike r) (InsertionOrder.upsert k new f m)
      (InsertionOrder.upsert k new' f' m') := by
  induction h with
  | nil => exact .cons ⟨rfl, hnew⟩ .nil
  | @cons entry entry' m m' hentry hrest ih =>
      unfold InsertionOrder.upsert
      rw [hentry.1]
      split
      · exact .cons ⟨rfl, hf _ _ hentry.2⟩ hrest
      · exact .cons hentry ih

/-! ## What is shown -/

theorem processChange_eq {c c' : Change} (h : ChangeAlike c c') :
    processChange c' = processChange c := by
  unfold processChange
  rw [h.unknown, h.sensitive]
  exact (processValues_eq_of_alike h.after c.afterUnknown).symm

theorem describeChanges_eq {changes changes' : List ResourceChange}
    (h : List.Forall₂ ResourceAlike changes changes') (includeValues : Bool) :
    describeChanges includeValues changes' = describeChanges includeValues changes := by
  have hactions := map_eq_of_forall₂ (f := fun c : ResourceChange => c.change.actions)
    (fun a b hab => hab.change.actions) h
  have hvalues := map_eq_of_forall₂ (f := fun c : ResourceChange => processChange c.change)
    (fun a b hab => processChange_eq hab.change) h
  have hmodes := map_eq_of_forall₂ (f := fun c : ResourceChange => c.mode)
    (fun a b hab => hab.mode) h
  have haddresses := map_eq_of_forall₂ (f := fun c : ResourceChange => c.address)
    (fun a b hab => hab.address) h
  have hcollected : (changes'.filterMap fun c => processChange c.change) =
      changes.filterMap fun c => processChange c.change := by
    have hsome := congrArg (List.filterMap id) hvalues
    simpa [List.filterMap_map, Function.comp_def] using hsome
  have hdata : (changes'.any fun c => c.mode = some "data") =
      changes.any fun c => c.mode = some "data" := by
    have hany := congrArg (List.any · fun mode => decide (mode = some "data")) hmodes
    simpa [List.any_map, Function.comp_def] using hany
  have hindexed : (changes'.any fun c => c.address.toList.getLast? = some ']') =
      changes.any fun c => c.address.toList.getLast? = some ']' := by
    have hany := congrArg (List.any · fun a => decide (a.toList.getLast? = some ']')) haddresses
    simpa [List.any_map, Function.comp_def] using hany
  unfold describeChanges
  rw [List.flatMap_def, List.flatMap_def, hactions, hcollected, hdata, hindexed, ← h.length_eq]

theorem forall₂_indexChange {m m' : List (String × List ResourceChange)}
    (h : List.Forall₂ (EntryAlike (List.Forall₂ ResourceAlike)) m m') {c c' : ResourceChange}
    (hc : ResourceAlike c c') :
    List.Forall₂ (EntryAlike (List.Forall₂ ResourceAlike)) (indexChange m c)
      (indexChange m' c') := by
  have hpush : ∀ {m m' : List (String × List ResourceChange)},
      List.Forall₂ (EntryAlike (List.Forall₂ ResourceAlike)) m m' → ∀ address,
        List.Forall₂ (EntryAlike (List.Forall₂ ResourceAlike)) (pushChange address c m)
          (pushChange address c' m') := by
    intro m m' h address
    refine forall₂_upsert h address (.cons hc .nil) fun v v' hv => ?_
    exact List.rel_append hv (.cons hc .nil)
  unfold indexChange
  rw [hc.address]
  dsimp only
  split
  · exact hpush (hpush h _) _
  · exact hpush h _

theorem forall₂_foldl_indexChange {changes changes' : List ResourceChange}
    (h : List.Forall₂ ResourceAlike changes changes') :
    ∀ {m m' : List (String × List ResourceChange)},
      List.Forall₂ (EntryAlike (List.Forall₂ ResourceAlike)) m m' →
        List.Forall₂ (EntryAlike (List.Forall₂ ResourceAlike)) (changes.foldl indexChange m)
          (changes'.foldl indexChange m') := by
  induction h with
  | nil => exact fun hm => hm
  | cons hc _ ih => exact fun hm => ih (forall₂_indexChange hm hc)

theorem describeOutput_eq {maps maps' : PlanMaps}
    (h : List.Forall₂ (EntryAlike ChangeAlike) maps.outputMap maps'.outputMap)
    (includeValues : Bool) (address : String) :
    describeOutput maps' includeValues address = describeOutput maps includeValues address := by
  have hlookup := rel_lookup h
    (String.ofList (trimStartMatches "output.".toList address.toList.length address.toList))
  unfold describeOutput
  dsimp only
  revert hlookup
  generalize maps.outputMap.lookup _ = change
  generalize maps'.outputMap.lookup _ = change'
  intro hlookup
  cases hlookup with
  | none => rfl
  | some hchange => simp [hchange.actions, processChange_eq hchange]

/-- The plans say the same about every address. -/
theorem describe_eq {plan plan' : Plan} (h : PlanAlike plan plan') (includeValues : Bool) :
    describe (planMaps plan') includeValues = describe (planMaps plan) includeValues := by
  funext address
  have hresources := rel_lookup (forall₂_foldl_indexChange h.resources .nil) address
  have haddresses := map_eq_of_forall₂ (f := ResourceChange.address)
    (fun a b hab => hab.address) h.resources
  have hactive : (planMaps plan').activePlanAddresses = (planMaps plan).activePlanAddresses := by
    simp only [planMaps, h.values, h.priorState, h.plannedValues, haddresses]
  have hstate : (planMaps plan').stateValuesMap = (planMaps plan).stateValuesMap := by
    simp only [planMaps, h.values]
  have houtput : describeOutput (planMaps plan') includeValues address =
      describeOutput (planMaps plan) includeValues address :=
    describeOutput_eq h.outputs includeValues address
  unfold describe
  rw [hactive, hstate, houtput]
  revert hresources
  change Option.Rel _ ((planMaps plan).resourceMap.lookup address)
    ((planMaps plan').resourceMap.lookup address) → _
  generalize (planMaps plan).resourceMap.lookup address = changes
  generalize (planMaps plan').resourceMap.lookup address = changes'
  intro hresources
  cases hresources with
  | none => rfl
  | some hchanges => exact congrArg some (describeChanges_eq hchanges includeValues)

/-- Sensitive values do not show in the graph of a plan. -/
theorem processGraph_eq_of_alike {plan plan' : Plan} (h : PlanAlike plan plan')
    (dotContent : String) (includeValues : Bool) (hcl : String → Option String)
    (orders : HashOrders) :
    processGraph plan' dotContent includeValues hcl orders =
      processGraph plan dotContent includeValues hcl orders := by
  unfold processGraph configDeps
  rw [describe_eq h, h.configuration]

/-- A database with a password that is marked as sensitive. -/
def passwordPlan (password : String) : Plan where
  resourceChanges :=
    [⟨"aws_db_instance.a", some "managed", ⟨["create"],
      some (.object [("password", .string password)]), none,
      some (.object [("password", .bool true)])⟩⟩]
  outputChanges := []
  configuration := none
  priorState := none
  plannedValues := none
  values := none

theorem planAlike_passwordPlan (password password' : String) :
    PlanAlike (passwordPlan password) (passwordPlan password') := by
  refine ⟨.cons ⟨rfl, rfl, rfl, rfl, rfl, .object fun k => ?_⟩ .nil, .nil, rfl, rfl, rfl, rfl⟩
  rw [Option.bind_some, Json.get?_object, OrderedMap.lookup_cons_ite, OrderedMap.lookup_cons_ite,
    OrderedMap.lookup_cons_ite]
  split
  · exact .marked _ _
  · exact .same _ _

theorem processGraph_eq_passwordPlan :
    processGraph (passwordPlan "hunter2") "\"aws_db_instance.a\" [label = \"aws_db_instance.a\"" true
        (fun _ => none) .asListed =
      processGraph (passwordPlan "letmein") "\"aws_db_instance.a\" [label = \"aws_db_instance.a\""
        true (fun _ => none) .asListed :=
  processGraph_eq_of_alike (planAlike_passwordPlan "letmein" "hunter2") _ _ _ _

end Graph
end InfraWeave
