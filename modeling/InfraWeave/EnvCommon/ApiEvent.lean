import InfraWeave.EnvCommon.DeploymentStatusHandler
import InfraWeave.Lib.KeyedTable
import InfraWeave.Lib.Runs
import Mathlib.Logic.Function.Basic

/-!
# Events

Whoever works on a deployment tells so in an event.  An event is put under the name of its
deployment and the time at which it is stored, over whatever is there.
-/

namespace InfraWeave
namespace EnvCommon

structure EventData where
  deploymentId : String
  projectId : String
  region : String
  environment : String
  event : String
  epoch : Nat
  errorText : String
  id : String
  jobId : String
  metadata : Json
  driftDetection : DriftDetection
  nextDriftCheckEpoch : Int
  hasDrifted : Bool
  module : String
  moduleVersion : String
  name : String
  status : DeploymentStatus
  timestamp : String
  output : Json
  policyResults : List Json
  initiatedBy : String
  eventDuration : Nat
  deriving DecidableEq

/-- The environment comes before the deployment. -/
def getEventIdentifier (projectId region deploymentId environment : String) : String :=
  projectId ++ "::" ++ region ++ "::" ++ environment ++ "::" ++ deploymentId

def EventData.identifier (event : EventData) : String :=
  getEventIdentifier event.projectId event.region event.deploymentId event.environment

/-- What the clock says when an event is made, and the fields of a handler that only go into its
events. -/
structure EventStamp where
  epoch : Nat
  timestamp : String
  name : String
  nextDriftCheckEpoch : Int
  eventDuration : Nat

/-- The event that `send_event` makes. -/
def DeploymentStatusHandler.event (h : DeploymentStatusHandler) (stamp : EventStamp) :
    EventData where
  environment := h.environment
  event := h.command
  epoch := stamp.epoch
  status := h.status
  module := h.module
  moduleVersion := h.moduleVersion
  driftDetection := h.driftDetection
  nextDriftCheckEpoch := stamp.nextDriftCheckEpoch
  hasDrifted := h.hasDrifted
  deploymentId := h.deploymentId
  projectId := h.projectId
  region := h.region
  errorText := h.errorText
  id := h.module ++ "-" ++ h.deploymentId ++ "-" ++ toString stamp.epoch ++ "-" ++ h.command ++ "-" ++
    h.status.text
  jobId := h.jobId
  metadata := .null
  name := stamp.name
  output := h.output
  policyResults := h.policyResults
  timestamp := stamp.timestamp
  initiatedBy := h.initiatedBy
  eventDuration := stamp.eventDuration

/-! ## The table of events -/

structure EventItem where
  pkBaseRegion : String
  event : EventData
  deriving DecidableEq

/-- The tables of events, by region. -/
abbrev EventTables :=
  String → KeyedTable Key EventItem

/-- How a put ends: a put that is refused may have been carried out all the same. -/
inductive PutOutcome where
  | accepted
  | refused (stored : Bool)
  deriving DecidableEq

def PutOutcome.isStored : PutOutcome → Bool
  | accepted => true
  | refused stored => stored

/-- A call of `insert_event` by some process: the region of its handler, what its clock says when
the row is made, and how the put ends. -/
structure EventCall where
  region : String
  event : EventData
  epoch : Nat
  outcome : PutOutcome

namespace EventCall

variable (call : EventCall)

def key : Key :=
  ⟨"EVENT#" ++ call.event.identifier, toString call.epoch⟩

def item : EventItem :=
  ⟨"EVENT#" ++ call.event.region, call.event⟩

end EventCall

/-- The put is not conditional. -/
def insertEvent (tables : EventTables) (call : EventCall) : EventTables :=
  if call.outcome.isStored then
    Function.update tables call.region ((tables call.region).put call.key call.item)
  else tables

/-! ## What is asked -/

/-- The event of the call is in the table of its region. -/
def EventTables.Holds (tables : EventTables) (call : EventCall) : Prop :=
  (tables call.region).item call.key = some call.item

/-- Every event that was accepted is in its table at every later time. -/
def LosesNothing (tables : EventTables) (calls : List EventCall) : Prop :=
  ∀ before call after rest, calls = before ++ call :: after ++ rest → call.outcome = .accepted →
    (run insertEvent tables (before ++ call :: after)).Holds call

/-- Both calls are for one deployment, as far as its joined name tells, in one table and at one
time. -/
def EventCall.Collides (call call' : EventCall) : Prop :=
  call.region = call'.region ∧ call.event.identifier = call'.event.identifier ∧
    call.epoch = call'.epoch

/-! ## Puts -/

section

variable {tables : EventTables} {call call' : EventCall}

theorem EventCall.key_eq_iff : call.key = call'.key ↔
    call.event.identifier = call'.event.identifier ∧ call.epoch = call'.epoch := by
  constructor
  · intro h
    have hpk : "EVENT#" ++ call.event.identifier = "EVENT#" ++ call'.event.identifier :=
      congrArg Key.pk h
    have hsk : toString call.epoch = toString call'.epoch := congrArg Key.sk h
    refine ⟨(String.append_right_inj _).1 hpk, ?_⟩
    -- A number can be read back from its digits.
    have hdigits : Nat.toDigits 10 call.epoch = Nat.toDigits 10 call'.epoch :=
      String.ofList_injective hsk
    calc call.epoch = Nat.ofDigitChars 10 (Nat.toDigits 10 call.epoch) 0 :=
          Nat.ofDigitChars_ten_toDigits.symm
      _ = Nat.ofDigitChars 10 (Nat.toDigits 10 call'.epoch) 0 := by rw [hdigits]
      _ = call'.epoch := Nat.ofDigitChars_ten_toDigits
  · rintro ⟨hidentifier, hepoch⟩
    simp only [key, hidentifier, hepoch]

theorem EventTables.holds_insertEvent (hstored : call.outcome.isStored = true) :
    (insertEvent tables call).Holds call := by
  unfold insertEvent EventTables.Holds
  rw [if_pos hstored, Function.update_self, KeyedTable.item_put, if_pos rfl]

/-- A put changes nothing but the row under its key. -/
theorem EventTables.item_insertEvent
    (hother : call'.outcome.isStored = true → ¬ call.Collides call') :
    (insertEvent tables call' call.region).item call.key =
      (tables call.region).item call.key := by
  unfold insertEvent
  by_cases hstored : call'.outcome.isStored = true
  · rw [if_pos hstored]
    by_cases hregion : call.region = call'.region
    · have hkey : call.key ≠ call'.key := by
        intro hkey
        have hsame := EventCall.key_eq_iff.1 hkey
        exact hother hstored ⟨hregion, hsame.1, hsame.2⟩
      rw [hregion, Function.update_self, KeyedTable.item_put, if_neg hkey]
    · rw [Function.update_of_ne hregion]
  · rw [if_neg hstored]

end

/-! ## Runs -/

/-- No accepted event is lost exactly when no other event is stored later for the same deployment
at the same time. -/
theorem losesNothing_iff (tables : EventTables) (calls : List EventCall) :
    LosesNothing tables calls ↔
      ∀ before call middle call' rest, calls = before ++ call :: middle ++ call' :: rest →
        call.outcome = .accepted → call'.outcome.isStored = true → call.Collides call' →
          call'.event = call.event := by
  constructor
  · intro hkept before call middle call' rest hcalls haccepted hstored hcollides
    -- After the second put its own row is there.
    have hcalls' : calls = before ++ call :: (middle ++ [call']) ++ rest := by
      simpa using hcalls
    have hholds := hkept before call (middle ++ [call']) rest hcalls' haccepted
    have hrun : run insertEvent tables (before ++ call :: (middle ++ [call'])) =
        insertEvent (run insertEvent tables (before ++ call :: middle)) call' := by
      rw [← List.cons_append, ← List.append_assoc, run_append]
      rfl
    have hlast : (run insertEvent tables (before ++ call :: (middle ++ [call']))).Holds call' := by
      rw [hrun]
      exact EventTables.holds_insertEvent hstored
    have hkey : call.key = call'.key := EventCall.key_eq_iff.2 hcollides.2
    unfold EventTables.Holds at hholds hlast
    rw [hkey, hcollides.1, hlast] at hholds
    exact congrArg EventItem.event (Option.some.inj hholds)
  · intro hclear before call after rest hcalls haccepted
    -- By induction on the calls that have followed.
    induction after using List.reverseRecOn generalizing rest with
    | nil =>
        have hstored : call.outcome.isStored = true := by
          rw [haccepted]
          rfl
        rw [run_append]
        exact EventTables.holds_insertEvent hstored
    | append_singleton middle call' ih =>
        have hcalls' : calls = before ++ call :: middle ++ call' :: rest := by
          simpa using hcalls
        have hholds := ih (call' :: rest) hcalls'
        have hrun : run insertEvent tables (before ++ call :: (middle ++ [call'])) =
            insertEvent (run insertEvent tables (before ++ call :: middle)) call' := by
          rw [← List.cons_append, ← List.append_assoc, run_append]
          rfl
        rw [hrun]
        by_cases hcollides : call'.outcome.isStored = true ∧ call.Collides call'
        · obtain ⟨hstored, hcollides⟩ := hcollides
          have hevent := hclear before call middle call' rest hcalls' haccepted hstored hcollides
          have hitem : call'.item = call.item := by
            simp only [EventCall.item, hevent]
          have hkey : call.key = call'.key := EventCall.key_eq_iff.2 hcollides.2
          have hlast : (insertEvent (run insertEvent tables (before ++ call :: middle))
              call').Holds call' := EventTables.holds_insertEvent hstored
          unfold EventTables.Holds at hlast ⊢
          rw [hkey, hcollides.1, hlast, hitem]
        · have hother : call'.outcome.isStored = true → ¬ call.Collides call' :=
            fun hstored hsame => hcollides ⟨hstored, hsame⟩
          unfold EventTables.Holds at hholds ⊢
          rw [EventTables.item_insertEvent hother]
          exact hholds

/-! ## A job that starts at once -/

/-- The request of a job, whose event is stored in the first millisecond. -/
def requestedCall : EventCall where
  region := "eu"
  event :=
    (DeploymentStatusHandler.ofRequest
      ⟨{ command := "apply", flags := [], module := "web", moduleVersion := "1.0.0"
         moduleType := "module", moduleTrack := "stable", name := "a", environment := "cli/default"
         deploymentId := "web/a", projectId := "1", region := "eu", driftDetection := .default
         nextDriftCheckEpoch := -1, annotations := .null, dependencies := [], initiatedBy := "cli"
         cpu := "256", memory := "512", reference := "", extraData := .null }, .object []⟩
      "job").event
      { epoch := 0, timestamp := "", name := "a", nextDriftCheckEpoch := -1, eventDuration := 0 }
  epoch := 1
  outcome := .accepted

/-- The runner tells in the same millisecond that it has started. -/
def initiatedCall : EventCall :=
  { requestedCall with event := { requestedCall.event with status := .initiated } }

theorem not_losesNothing_web :
    ¬ ∀ (tables : EventTables) (calls : List EventCall), LosesNothing tables calls := by
  intro hall
  have hkept := hall (fun _ => .empty) [requestedCall, initiatedCall]
  have hholds := hkept [] requestedCall [initiatedCall] [] rfl rfl
  have hlost : ¬ (run insertEvent (fun _ => .empty) [requestedCall, initiatedCall]).Holds
      requestedCall := by
    unfold EventTables.Holds
    decide +kernel
  exact hlost hholds

end EnvCommon
end InfraWeave
