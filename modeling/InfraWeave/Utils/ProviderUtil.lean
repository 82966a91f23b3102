import InfraWeave.Defs.Deployment
import InfraWeave.Defs.Module
import InfraWeave.Lib.Fallible
import InfraWeave.Lib.Text

/-!
# Rows as records

A provider reads rows as JSON, and makes records of them.  A row that cannot be read ends the
process, or fails the call.
-/

namespace InfraWeave
namespace ProviderUtil

/-- `serde_json::from_value` for the kinds of records. -/
structure Records where
  policy : Json → Option PolicyResp
  deployment : Json → Option DeploymentResp
  dependent : Json → Option Dependent
  /-- The error of a list of deployments one of which cannot be read. -/
  deploymentsError : List Json → String

def asF64 : Json → Option Rat
  | .number (.int n) => some n
  | .number (.float value) => some value
  | _ => none

def addMissing (name : String) (value : Json) (v : Json) : Json :=
  if (v.get? name).getD .null = .null then v.set name value else v

def deploymentAddMissingFields (v : Json) : Json :=
  addMissing "reference" (.string "") (addMissing "memory" (.string "2048")
    (addMissing "cpu" (.string "1024") v))

/-- The flag of a row is a number; a row without one ends the process. -/
def mutateDeployment (v : Json) : Except String Json :=
  match (v.get? "deleted").bind asF64 with
  | some n => .ok (deploymentAddMissingFields (v.set "deleted" (.bool (n ≠ 0))))
  | none => .error "called `Option::unwrap()` on a `None` value"

variable (records : Records)

/-- `_get_deployments`: a row that is no deployment fails the call. -/
def getDeployments (items : List Json) : Except String (List DeploymentResp) := do
  let items ← items.mapM mutateDeployment
  match items.mapM records.deployment with
  | some deployments => .ok deployments
  | none => .error (records.deploymentsError items)

def isDependent (item : Json) : Bool :=
  ((item.get? "SK").bind Json.asStr).any fun sk => (Text.stripPrefix "DEPENDENT#" sk).isSome

def readDependent (item : Json) : Except String Dependent :=
  match records.dependent item with
  | some dependent => .ok dependent
  | none => .error "Failed to parse dependent"

def readDeployment (item : Json) : Except String DeploymentResp := do
  let value ← mutateDeployment item
  match records.deployment value with
  | some deployment => .ok deployment
  | none => .error "Failed to parse deployment"

/-- A row without a sort key ends the process. -/
def readRow (item : Json) : Except String (DeploymentResp ⊕ Dependent) :=
  match (item.get? "SK").bind Json.asStr with
  | none => .error "called `Option::unwrap()` on a `None` value"
  | some _ =>
      if isDependent item then (readDependent records item).map .inr
      else (readDeployment records item).map .inl

/-- `_get_deployment_and_dependents`. -/
def getDeploymentAndDependents (items : List Json) :
    Except String (Option DeploymentResp × List Dependent) := do
  let rows ← items.mapM (readRow records)
  .ok ((rows.filterMap Sum.getLeft?).head?, rows.filterMap Sum.getRight?)

def readPolicy (item : Json) : Except String PolicyResp :=
  match records.policy item with
  | some policy => .ok policy
  | none => .error "Failed to parse policy"

/-- `_get_policies`. -/
def getPolicies (items : List Json) : Except String (List PolicyResp) :=
  items.mapM (readPolicy records)

/-! ## Rows that can be read -/

section

variable {records : Records} {items : List Json}

/-- A list of deployments is read deployment by deployment. -/
theorem getDeployments_eq_ok {deployments : List DeploymentResp} :
    getDeployments records items = .ok deployments ↔
      items.map (readDeployment records) = deployments.map .ok := by
  have hread : ∀ item deployment, readDeployment records item = .ok deployment ↔
      ∃ value, mutateDeployment item = .ok value ∧ records.deployment value = some deployment := by
    intro item deployment
    rw [readDeployment, bind_eq_ok_iff]
    refine exists_congr fun value => and_congr_right fun _ => ?_
    cases records.deployment value with
    | none => simp
    | some found => simp
  rw [getDeployments, bind_eq_ok_iff]
  simp only [mapM_eq_ok_iff]
  induction items generalizing deployments with
  | nil =>
      constructor
      · rintro ⟨values, hvalues, hresult⟩
        obtain rfl : values = [] := List.map_eq_nil_iff.1 hvalues.symm
        rw [← Except.ok.inj hresult]
        rfl
      · intro h
        obtain rfl : deployments = [] := List.map_eq_nil_iff.1 h.symm
        exact ⟨[], rfl, rfl⟩
  | cons item items ih =>
      constructor
      · rintro ⟨values, hvalues, hresult⟩
        cases values with
        | nil => cases hvalues
        | cons value values =>
            obtain ⟨hvalue, hvalues⟩ := List.cons.inj hvalues
            rw [List.mapM_cons] at hresult
            cases hfirst : records.deployment value with
            | none =>
                rw [hfirst] at hresult
                cases hresult
            | some first =>
                cases hrest : values.mapM records.deployment with
                | none =>
                    rw [hfirst, hrest] at hresult
                    cases hresult
                | some rest =>
                    rw [hfirst, hrest] at hresult
                    have hlist : first :: rest = deployments := Except.ok.inj hresult
                    have hitems : items.map (readDeployment records) = rest.map .ok :=
                      ih.1 ⟨values, hvalues, by rw [hrest]⟩
                    rw [← hlist, List.map_cons, List.map_cons, hitems,
                      (hread item first).2 ⟨value, hvalue, hfirst⟩]
      · intro h
        cases deployments with
        | nil => cases h
        | cons first rest =>
            obtain ⟨hitem, hitems⟩ := List.cons.inj h
            obtain ⟨value, hvalue, hfirst⟩ := (hread item first).1 hitem
            obtain ⟨values, hvalues, hresult⟩ := ih.2 hitems
            refine ⟨value :: values, by rw [List.map_cons, List.map_cons, hvalue, hvalues], ?_⟩
            cases hrest : values.mapM records.deployment with
            | none =>
                rw [hrest] at hresult
                cases hresult
            | some found =>
                rw [hrest] at hresult
                have hfound : found = rest := Except.ok.inj hresult
                rw [List.mapM_cons, hfirst, hrest, ← hfound]
                rfl

/-- The dependents that are found are those among the rows. -/
theorem dependents_of_readRows {found : List (DeploymentResp ⊕ Dependent)}
    (h : items.map (readRow records) = found.map .ok) :
    (items.filter isDependent).map (readDependent records) =
      (found.filterMap Sum.getRight?).map .ok := by
  induction items generalizing found with
  | nil =>
      obtain rfl : found = [] := List.map_eq_nil_iff.1 h.symm
      rfl
  | cons item items ih =>
      cases found with
      | nil => cases h
      | cons first found =>
          obtain ⟨hitem, hitems⟩ := List.cons.inj h
          have hrest := ih hitems
          unfold readRow at hitem
          cases hsk : (item.get? "SK").bind Json.asStr with
          | none =>
              rw [hsk] at hitem
              cases hitem
          | some sk =>
              rw [hsk] at hitem
              by_cases hdependent : isDependent item = true
              · rw [if_pos hdependent] at hitem
                rw [List.filter_cons_of_pos hdependent, List.map_cons, hrest]
                cases hread : readDependent records item with
                | error e =>
                    rw [hread] at hitem
                    cases hitem
                | ok dependent =>
                    rw [hread] at hitem
                    obtain rfl : Sum.inr dependent = first := Except.ok.inj hitem
                    rfl
              · rw [if_neg hdependent] at hitem
                rw [List.filter_cons_of_neg hdependent, hrest]
                cases hread : readDeployment records item with
                | error e =>
                    rw [hread] at hitem
                    cases hitem
                | ok deployment =>
                    rw [hread] at hitem
                    obtain rfl : Sum.inl deployment = first := Except.ok.inj hitem
                    rfl

end

end ProviderUtil
end InfraWeave
