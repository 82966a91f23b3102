import InfraWeave.Lib.Runs
import Mathlib.Data.List.Basic
import Mathlib.Logic.Function.Basic

/-!
# Credentials of requests

A request runs in scopes: that of a workload account, or that of a resource which is published.  In
a scope, `get_aws_config` gives the credentials of a role that is assumed for it, and keeps them in
a cache.  Calls of different requests are interleaved; a call takes the time, reads the cache, and
then, under the lock, reads it again and assumes the role.
-/

namespace InfraWeave
namespace EnvAwsDirect
namespace CentralCreds

structure PublishScope where
  resourceType : String
  resourceName : String
  track : Option String
  deriving DecidableEq

inductive Scope where
  | workload (account : String)
  | publish (scope : PublishScope)
  deriving DecidableEq

/-- A request to STS. -/
structure AssumeRole where
  roleArn : String
  sessionName : String
  tags : List (String × String)
  deriving DecidableEq

inductive Credentials where
  /-- Those of the environment of the process. -/
  | environment
  /-- Those of the central role. -/
  | central
  | assumed (request : AssumeRole) (expiresAt : Nat)
  /-- The placeholder, which no service accepts. -/
  | denied
  deriving DecidableEq

structure SdkConfig where
  credentials : Credentials
  region : Option String
  deriving DecidableEq

structure CachedWorkloadConfig where
  config : SdkConfig
  expiresAt : Nat
  deriving DecidableEq

/-- What the process finds around it: variables of its environment, the region that the SDK finds
elsewhere, and the region of the central configuration, once there is one. -/
structure Environment where
  awsRegion : Option String
  awsDefaultRegion : Option String
  sdkRegion : Option String
  workloadAccessRoleArn : Option String
  publishAccessRoleArn : Option String
  centralRegion : Option String
  deriving DecidableEq

/-- `WORKLOAD_CONFIG_EXPIRY_SKEW`, in seconds. -/
def workloadConfigExpirySkew : Nat := 300

/-! ## Session names -/

def sanitizeRoleSessionComponent (value : String) : String :=
  let sanitized := value.toList.map fun c =>
    if c.isAlphanum || c ∈ ['_', '+', '=', ',', '.', '@', '-'] then c else '-'
  if sanitized.isEmpty then "unknown" else .ofList sanitized

/-- `role_session_name`; a name of one character does not occur. -/
def roleSessionName (start : String) (parts : List String) : String :=
  let name := parts.foldl (fun name part => name ++ "-" ++ sanitizeRoleSessionComponent part)
    (sanitizeRoleSessionComponent start)
  let name : String := .ofList (name.toList.take 64)
  if name.length < 2 then "iw" else name

namespace Environment

variable (env : Environment)

/-- The variables that are read for a region. -/
def variableRegion : Option String :=
  env.awsRegion <|> env.awsDefaultRegion

/-- The region of the process. -/
def processRegion : Option String :=
  env.variableRegion <|> env.sdkRegion

def workloadRequest (workloadAccount : String) : Option AssumeRole :=
  env.workloadAccessRoleArn.map fun roleArn =>
    { roleArn
      sessionName := roleSessionName "infraweave-workload" [workloadAccount]
      tags := [("WorkloadAccount", workloadAccount)] }

def publishRequest (scope : PublishScope) : Option AssumeRole :=
  env.publishAccessRoleArn.map fun roleArn =>
    { roleArn
      sessionName := roleSessionName "infraweave-publish" [scope.resourceType, scope.resourceName]
      tags := [("PublishType", scope.resourceType), ("PublishName", scope.resourceName),
        ("PublishTrack", scope.track.getD "-")] }

/-- What is asked of STS in a scope, if the role is configured. -/
def request : Scope → Option AssumeRole
  | .workload account => env.workloadRequest account
  | .publish scope => env.publishRequest scope

end Environment

/-! ## Configurations -/

def configForRegion (config : SdkConfig) (region : Option String) : SdkConfig :=
  match region with
  | some r => if config.region ≠ some r then { config with region := some r } else config
  | none => config

def deniedAwsConfig (env : Environment) (region : Option String) : SdkConfig where
  credentials := .denied
  region := some ((region <|> env.variableRegion).getD "us-east-1")

/-- The configuration outside of all scopes. -/
def unscopedConfig (env : Environment) (region : Option String) : SdkConfig :=
  match env.centralRegion with
  | some central => configForRegion ⟨.central, some central⟩ region
  | none => ⟨.environment, region <|> env.processRegion⟩

/-- An entry of a cache that does not expire soon. -/
def usable (now : Nat) (cached : Option CachedWorkloadConfig) : Option SdkConfig :=
  match cached with
  | some cached =>
      if now + workloadConfigExpirySkew < cached.expiresAt then some cached.config else none
  | none => none

/-- The entry that is made of what STS has answered: when the credentials expire. -/
def assume (env : Environment) (scope : Scope) (region : Option String) (answer : Option Nat) :
    Option CachedWorkloadConfig := do
  let request ← env.request scope
  let expiresAt ← answer
  some
    { config :=
        { credentials := .assumed request expiresAt
          region := region <|> env.processRegion }
      expiresAt }

/-! ## Calls -/

/-- The scopes that a request is in, the innermost one first, and the region that it asks for. -/
structure Call where
  scopes : List Scope
  region : Option String
  deriving DecidableEq

def currentWorkloadAccount (scopes : List Scope) : Option String :=
  scopes.findSome? fun
    | .workload account => some account
    | .publish _ => none

def currentPublishScope (scopes : List Scope) : Option PublishScope :=
  scopes.findSome? fun
    | .workload _ => none
    | .publish scope => some scope

/-- The scope that `get_aws_config` looks for: that of an account, and then that of a resource. -/
def currentScope (scopes : List Scope) : Option Scope :=
  match currentWorkloadAccount scopes with
  | some account => some (.workload account)
  | none => (currentPublishScope scopes).map .publish

/-- Where a call is.  A call that has returned knows when it was made, and whether the assumption
that it asked for was refused. -/
inductive Phase where
  | idle
  | called (now : Nat)
  | locking (now : Nat)
  | returned (now : Nat) (config : SdkConfig) (refused : Bool)
  deriving DecidableEq

structure State where
  clock : Nat
  workloadConfigs : String → Option CachedWorkloadConfig
  publishConfigs : PublishScope → Option CachedWorkloadConfig
  phase : Nat → Phase

def State.init : State where
  clock := 0
  workloadConfigs _ := none
  publishConfigs _ := none
  phase _ := .idle

namespace State

variable (s : State)

def cached : Scope → Option CachedWorkloadConfig
  | .workload account => s.workloadConfigs account
  | .publish scope => s.publishConfigs scope

def store (scope : Scope) (entry : CachedWorkloadConfig) : State :=
  match scope with
  | .workload account =>
      { s with workloadConfigs := Function.update s.workloadConfigs account (some entry) }
  | .publish scope =>
      { s with publishConfigs := Function.update s.publishConfigs scope (some entry) }

def move (i : Nat) (phase : Phase) : State :=
  { s with phase := Function.update s.phase i phase }

end State

inductive Action where
  | tick
  /-- The call is made; it takes the time. -/
  | call (i : Nat)
  /-- It reads the cache. -/
  | read (i : Nat)
  /-- It has the lock, and STS answers if it is asked. -/
  | assume (i : Nat) (answer : Option Nat)
  deriving DecidableEq

variable (env : Environment) (calls : Nat → Call)

/-- What a call does once it has the lock. -/
def assumeStep (s : State) (i now : Nat) (scope : Scope) (region : Option String)
    (answer : Option Nat) : State :=
  match usable now (s.cached scope) with
  | some config => s.move i (.returned now (configForRegion config region) false)
  | none =>
      match assume env scope region answer with
      | some entry =>
          (s.store scope entry).move i (.returned now (configForRegion entry.config region) false)
      | none => s.move i (.returned now (deniedAwsConfig env region) true)

/-- One step of `get_aws_config`; an action that is not possible changes nothing. -/
def step (s : State) : Action → State
  | .tick => { s with clock := s.clock + 1 }
  | .call i =>
      match s.phase i with
      | .idle =>
          match currentScope (calls i).scopes with
          | some _ => s.move i (.called s.clock)
          | none => s.move i (.returned s.clock (unscopedConfig env (calls i).region) false)
      | _ => s
  | .read i =>
      match s.phase i, currentScope (calls i).scopes with
      | .called now, some scope =>
          match usable now (s.cached scope) with
          | some config => s.move i (.returned now (configForRegion config (calls i).region) false)
          | none => s.move i (.locking now)
      | _, _ => s
  | .assume i answer =>
      match s.phase i, currentScope (calls i).scopes with
      | .locking now, some scope => assumeStep env s i now scope (calls i).region answer
      | _, _ => s

/-! ## What a call is to return -/

/-- The configuration that a call is to return: credentials that have been assumed for its innermost
scope and do not expire soon, or the placeholder when that was refused; and the region that it
asks for, or that of the process. -/
structure Correct (call : Call) (now : Nat) (config : SdkConfig) (refused : Bool) : Prop where
  credentials : ∀ scope, call.scopes.head? = some scope →
    (∃ request expiresAt, env.request scope = some request ∧
      config.credentials = .assumed request expiresAt ∧
      now + workloadConfigExpirySkew < expiresAt) ∨
    refused = true ∧ config.credentials = .denied
  region : config.region = (call.region <|> env.processRegion)

/-- No resource is published within the scope of an account. -/
def Innermost (call : Call) : Prop :=
  ∀ scope, call.scopes.head? = some scope → currentScope call.scopes = some scope

/-- A session that STS opens lasts for fifteen minutes at least. -/
def Answers (s : State) : Action → Prop
  | .assume _ (some expiresAt) => s.clock + 900 ≤ expiresAt
  | _ => True

/-- A call that asks for no region uses no entry with another region than that of the process. -/
def UsesProcessRegion (s : State) (i now : Nat) : Prop :=
  (calls i).region = none → ∀ scope config, currentScope (calls i).scopes = some scope →
    usable now (s.cached scope) = some config → config.region = env.processRegion

/-- A call that asks for no region and is refused finds the region of the process in its
variables. -/
def RefusedInProcessRegion (s : State) (i now : Nat) (answer : Option Nat) : Prop :=
  (calls i).region = none → ∀ scope, currentScope (calls i).scopes = some scope →
    usable now (s.cached scope) = none → env.request scope = none ∨ answer = none →
      env.variableRegion ≠ none ∨ env.sdkRegion = some "us-east-1"

/-- The scope of a call is the innermost one, and a call without a region is given that of the
process by the entry, the central configuration or the placeholder that it uses. -/
def Regular (s : State) : Action → Prop
  | .tick => True
  | .call i =>
      Innermost (calls i) ∧
        ((calls i).region = none → currentScope (calls i).scopes = none →
          ∀ central, env.centralRegion = some central → some central = env.processRegion)
  | .read i => ∀ now, s.phase i = .called now → UsesProcessRegion env calls s i now
  | .assume i answer => ∀ now, s.phase i = .locking now →
      UsesProcessRegion env calls s i now ∧ RefusedInProcessRegion env calls s i now answer

/-! ## Lookups -/

theorem State.phase_move (s : State) (i j : Nat) (phase : Phase) :
    (s.move i phase).phase j = if j = i then phase else s.phase j := by
  simp [State.move, Function.update_apply]

@[simp] theorem State.cached_move (s : State) (i : Nat) (phase : Phase) (scope : Scope) :
    (s.move i phase).cached scope = s.cached scope := by
  cases scope <;> rfl

@[simp] theorem State.clock_move (s : State) (i : Nat) (phase : Phase) :
    (s.move i phase).clock = s.clock := rfl

@[simp] theorem State.clock_store (s : State) (scope : Scope) (entry : CachedWorkloadConfig) :
    (s.store scope entry).clock = s.clock := by
  cases scope <;> rfl

@[simp] theorem State.phase_store (s : State) (scope : Scope) (entry : CachedWorkloadConfig) :
    (s.store scope entry).phase = s.phase := by
  cases scope <;> rfl

theorem State.cached_store (s : State) (scope scope' : Scope) (entry : CachedWorkloadConfig) :
    (s.store scope entry).cached scope' =
      if scope' = scope then some entry else s.cached scope' := by
  cases scope with
  | workload account =>
      cases scope' with
      | workload account' => simp [State.store, State.cached, Function.update_apply]
      | publish scope' => simp [State.store, State.cached]
  | publish scope =>
      cases scope' with
      | workload account' => simp [State.store, State.cached]
      | publish scope' => simp [State.store, State.cached, Function.update_apply]

@[simp] theorem credentials_configForRegion (config : SdkConfig) (region : Option String) :
    (configForRegion config region).credentials = config.credentials := by
  unfold configForRegion
  split
  · split <;> rfl
  · rfl

@[simp] theorem region_configForRegion (config : SdkConfig) (region : Option String) :
    (configForRegion config region).region = (region <|> config.region) := by
  unfold configForRegion
  split
  · split
    · rfl
    · rename_i hsame
      simpa using hsame
  · simp

theorem usable_eq_some {now : Nat} {cached : Option CachedWorkloadConfig} {config : SdkConfig}
    (h : usable now cached = some config) :
    ∃ entry, cached = some entry ∧ entry.config = config ∧
      now + workloadConfigExpirySkew < entry.expiresAt := by
  unfold usable at h
  split at h
  · rename_i entry
    split at h
    · rename_i hlate
      exact ⟨entry, rfl, Option.some.inj h, hlate⟩
    · cases h
  · cases h

theorem assume_eq_some {scope : Scope} {region : Option String} {answer : Option Nat}
    {entry : CachedWorkloadConfig} (h : assume env scope region answer = some entry) :
    ∃ request, env.request scope = some request ∧ answer = some entry.expiresAt ∧
      entry.config = ⟨.assumed request entry.expiresAt, region <|> env.processRegion⟩ := by
  unfold assume at h
  cases hrequest : env.request scope with
  | none =>
      rw [hrequest] at h
      cases h
  | some request =>
      cases answer with
      | none =>
          rw [hrequest] at h
          cases h
      | some expiresAt =>
          rw [hrequest] at h
          obtain rfl := Option.some.inj h
          exact ⟨request, rfl, rfl, rfl⟩

theorem assume_eq_none {scope : Scope} {region : Option String} {answer : Option Nat}
    (h : assume env scope region answer = none) :
    env.request scope = none ∨ answer = none := by
  unfold assume at h
  cases hrequest : env.request scope with
  | none => exact Or.inl rfl
  | some request =>
      cases answer with
      | none => exact Or.inr rfl
      | some expiresAt =>
          rw [hrequest] at h
          cases h

/-! ## The invariant -/

/-- The credentials of an entry have been assumed for its scope, and expire with it. -/
def Holds (scope : Scope) (entry : CachedWorkloadConfig) : Prop :=
  ∃ request, env.request scope = some request ∧
    entry.config.credentials = .assumed request entry.expiresAt

structure Inv (s : State) : Prop where
  cached : ∀ scope entry, s.cached scope = some entry → Holds env scope entry
  pending : ∀ i now, s.phase i = .called now ∨ s.phase i = .locking now →
    now ≤ s.clock ∧ Innermost (calls i)
  returned : ∀ i now config refused, s.phase i = .returned now config refused →
    Correct env (calls i) now config refused

variable {env calls} {s : State}

theorem inv_init : Inv env calls State.init where
  cached scope entry h := by cases scope <;> cases h
  pending i now h := by rcases h with h | h <;> cases h
  returned i now config refused h := by cases h

/-- What a call does to its own phase, and what it stores, decide whether the invariant is kept. -/
theorem Inv.move (h : Inv env calls s) {i : Nat} {phase : Phase}
    (hpending : ∀ now, phase = .called now ∨ phase = .locking now →
      now ≤ s.clock ∧ Innermost (calls i))
    (hreturned : ∀ now config refused, phase = .returned now config refused →
      Correct env (calls i) now config refused) : Inv env calls (s.move i phase) where
  cached scope entry hentry := h.cached scope entry (by simpa using hentry)
  pending j now hphase := by
    rw [State.phase_move] at hphase
    split at hphase
    · rename_i heq
      exact heq ▸ hpending now hphase
    · exact h.pending j now hphase
  returned j now config refused hphase := by
    rw [State.phase_move] at hphase
    split at hphase
    · rename_i heq
      exact heq ▸ hreturned now config refused hphase
    · exact h.returned j now config refused hphase

theorem Inv.move_returned (h : Inv env calls s) {i now : Nat} {config : SdkConfig} {refused : Bool}
    (hcorrect : Correct env (calls i) now config refused) :
    Inv env calls (s.move i (.returned now config refused)) := by
  refine h.move (fun now' hphase => ?_) fun now' config' refused' hphase => ?_
  · rcases hphase with hphase | hphase <;> cases hphase
  · cases hphase
    exact hcorrect

theorem Inv.store (h : Inv env calls s) {scope : Scope} {entry : CachedWorkloadConfig}
    (hholds : Holds env scope entry) : Inv env calls (s.store scope entry) where
  cached scope' entry' hentry := by
    rw [State.cached_store] at hentry
    split at hentry
    · rename_i heq
      obtain rfl := Option.some.inj hentry
      exact heq ▸ hholds
    · exact h.cached scope' entry' hentry
  pending j now hphase := by simpa using h.pending j now (by simpa using hphase)
  returned j now config refused hphase := h.returned j now config refused (by simpa using hphase)

/-! ## Steps -/

/-- An entry that is used has the credentials of the scope. -/
theorem Inv.correct_of_usable (h : Inv env calls s) {i now : Nat} {scope : Scope}
    {config : SdkConfig} (hinnermost : Innermost (calls i))
    (hscope : currentScope (calls i).scopes = some scope)
    (husable : usable now (s.cached scope) = some config)
    (hregion : UsesProcessRegion env calls s i now) :
    Correct env (calls i) now (configForRegion config (calls i).region) false where
  credentials scope' hhead := by
    obtain rfl := Option.some.inj ((hinnermost scope' hhead).symm.trans hscope)
    obtain ⟨entry, hentry, rfl, hlate⟩ := usable_eq_some husable
    obtain ⟨request, hrequest, hcredentials⟩ := h.cached _ _ hentry
    exact Or.inl ⟨request, entry.expiresAt, hrequest, by simpa using hcredentials, hlate⟩
  region := by
    rw [region_configForRegion]
    cases hasked : (calls i).region with
    | some region => rfl
    | none => simpa using hregion hasked scope config hscope husable

theorem correct_of_assume {i now : Nat} {scope : Scope} {answer : Option Nat}
    {entry : CachedWorkloadConfig} (hinnermost : Innermost (calls i))
    (hscope : currentScope (calls i).scopes = some scope)
    (hassume : assume env scope (calls i).region answer = some entry)
    (hlate : now + workloadConfigExpirySkew < entry.expiresAt) :
    Correct env (calls i) now (configForRegion entry.config (calls i).region) false where
  credentials scope' hhead := by
    obtain rfl := Option.some.inj ((hinnermost scope' hhead).symm.trans hscope)
    obtain ⟨request, hrequest, -, hconfig⟩ := assume_eq_some env hassume
    exact Or.inl ⟨request, entry.expiresAt, hrequest, by simp [hconfig], hlate⟩
  region := by
    obtain ⟨request, -, -, hconfig⟩ := assume_eq_some env hassume
    rw [region_configForRegion, hconfig]
    cases (calls i).region <;> simp

/-- The placeholder is returned when the assumption was refused. -/
theorem correct_denied {i now : Nat}
    (hregion : (calls i).region = none →
      env.variableRegion ≠ none ∨ env.sdkRegion = some "us-east-1") :
    Correct env (calls i) now (deniedAwsConfig env (calls i).region) true where
  credentials _ _ := Or.inr ⟨rfl, rfl⟩
  region := by
    unfold deniedAwsConfig Environment.processRegion
    cases hasked : (calls i).region with
    | some region => rfl
    | none =>
        have hnamed := hregion hasked
        cases hvariable : env.variableRegion with
        | some region => rfl
        | none =>
            rw [hvariable] at hnamed
            have hsdk := hnamed.resolve_left fun hne => hne rfl
            simp [hsdk]

theorem correct_unscoped {i now : Nat} (hscope : currentScope (calls i).scopes = none)
    (hinnermost : Innermost (calls i))
    (hcentral : (calls i).region = none → ∀ central, env.centralRegion = some central →
      some central = env.processRegion) :
    Correct env (calls i) now (unscopedConfig env (calls i).region) false where
  credentials scope hhead := by
    have hcurrent := hinnermost scope hhead
    rw [hscope] at hcurrent
    cases hcurrent
  region := by
    unfold unscopedConfig
    split
    · rename_i central heq
      rw [region_configForRegion]
      cases hasked : (calls i).region with
      | some region => rfl
      | none => simpa using hcentral hasked central heq
    · rfl

theorem Inv.assumeStep (h : Inv env calls s) {i now : Nat} {scope : Scope} {answer : Option Nat}
    (hscope : currentScope (calls i).scopes = some scope) (hphase : s.phase i = .locking now)
    (hanswers : Answers s (.assume i answer))
    (hregular : Regular env calls s (.assume i answer)) :
    Inv env calls (assumeStep env s i now scope (calls i).region answer) := by
  obtain ⟨hnow, hinnermost⟩ := h.pending i now (Or.inr hphase)
  obtain ⟨huses, hrefused⟩ := hregular now hphase
  unfold CentralCreds.assumeStep
  cases husable : usable now (s.cached scope) with
  | some config => exact h.move_returned (h.correct_of_usable hinnermost hscope husable huses)
  | none =>
      cases hassume : assume env scope (calls i).region answer with
      | none =>
          refine h.move_returned (correct_denied fun hasked => ?_)
          exact hrefused hasked scope hscope husable (assume_eq_none env hassume)
      | some entry =>
          obtain ⟨request, hrequest, rfl, hconfig⟩ := assume_eq_some env hassume
          have hlate : now + workloadConfigExpirySkew < entry.expiresAt := by
            have hlasts : s.clock + 900 ≤ entry.expiresAt := hanswers
            unfold workloadConfigExpirySkew
            omega
          refine (h.store ⟨request, hrequest, ?_⟩).move_returned
            (correct_of_assume hinnermost hscope hassume hlate)
          rw [hconfig]

theorem Inv.step (h : Inv env calls s) {a : Action} (hanswers : Answers s a)
    (hregular : Regular env calls s a) : Inv env calls (step env calls s a) := by
  cases a with
  | tick =>
      refine ⟨fun scope entry hentry => h.cached scope entry ?_, fun i now hphase => ?_, h.returned⟩
      · cases scope <;> exact hentry
      · exact ⟨Nat.le_succ_of_le (h.pending i now hphase).1, (h.pending i now hphase).2⟩
  | call i =>
      obtain ⟨hinnermost, hcentral⟩ := hregular
      unfold CentralCreds.step
      dsimp only
      split
      · split
        · refine h.move (fun now hphase => ?_) fun now config refused hphase => ?_
          · rcases hphase with hphase | hphase
            · cases hphase
              exact ⟨Nat.le_refl _, hinnermost⟩
            · cases hphase
          · cases hphase
        · rename_i hscope
          exact h.move_returned (correct_unscoped hscope hinnermost fun hasked =>
            hcentral hasked hscope)
      · exact h
  | read i =>
      unfold CentralCreds.step
      dsimp only
      split
      · rename_i now scope hphase hscope
        obtain ⟨hnow, hinnermost⟩ := h.pending i now (Or.inl hphase)
        split
        · rename_i config husable
          exact h.move_returned
            (h.correct_of_usable hinnermost hscope husable (hregular now hphase))
        · refine h.move (fun now' hphase' => ?_) fun now' config refused hphase' => ?_
          · rcases hphase' with hphase' | hphase'
            · cases hphase'
            · cases hphase'
              exact ⟨hnow, hinnermost⟩
          · cases hphase'
      · exact h
  | assume i answer =>
      unfold CentralCreds.step
      dsimp only
      split
      · rename_i now scope hphase hscope
        exact h.assumeStep hscope hphase hanswers hregular
      · exact h

/-- In every interleaving of calls whose steps are regular, every call that has returned has the
credentials of its scope and its region. -/
theorem correct_run (env : Environment) (calls : Nat → Call) (actions : List Action)
    (h : Meets (step env calls) (fun s a => Answers s a ∧ Regular env calls s a) .init actions)
    (i now : Nat) (config : SdkConfig) (refused : Bool)
    (hreturned : (run (step env calls) .init actions).phase i = .returned now config refused) :
    Correct env (calls i) now config refused := by
  have hstep : ∀ s a, Inv env calls s → Answers s a ∧ Regular env calls s a →
      Inv env calls (step env calls s a) := fun s a hs ha => hs.step ha.1 ha.2
  exact (run_invariant (Inv env calls) hstep inv_init h).returned i now config refused hreturned

/-! ## A region that another request has asked for -/

def lambdaEnvironment : Environment where
  awsRegion := some "us-east-1"
  awsDefaultRegion := none
  sdkRegion := none
  workloadAccessRoleArn := some "arn:aws:iam::999999999999:role/workload"
  publishAccessRoleArn := some "arn:aws:iam::999999999999:role/publish"
  centralRegion := some "us-east-1"

/-- The first request asks for a region, and the second one asks for none. -/
def twoRegions : Nat → Call
  | 0 => ⟨[.workload "111111111111"], some "eu-west-1"⟩
  | _ => ⟨[.workload "111111111111"], none⟩

/-- The second request finds what the first one has stored. -/
def oneAfterTheOther : List Action :=
  [.call 0, .read 0, .assume 0 (some 3600), .call 1, .read 1]

/-- The second request is given the region of the first one. -/
theorem not_correct_twoRegions : ∃ config,
    (run (step lambdaEnvironment twoRegions) .init oneAfterTheOther).phase 1 =
        .returned 0 config false ∧
      ¬ Correct lambdaEnvironment (twoRegions 1) 0 config false := by
  refine ⟨⟨.assumed ⟨"arn:aws:iam::999999999999:role/workload",
    "infraweave-workload-111111111111", [("WorkloadAccount", "111111111111")]⟩ 3600,
    some "eu-west-1"⟩, by decide +kernel, fun h => ?_⟩
  exact absurd h.region (by decide)

/-- Both requests ask for a region. -/
def namedRegions : Nat → Call
  | 0 => ⟨[.workload "111111111111"], some "eu-west-1"⟩
  | _ => ⟨[.workload "111111111111"], some "us-east-2"⟩

theorem innermost_namedRegions (i : Nat) : Innermost (namedRegions i) := by
  intro scope h
  cases i <;> exact h

theorem asked_namedRegions {i : Nat} (h : (namedRegions i).region = none) : False := by
  cases i <;> cases h

theorem correct_namedRegions : Correct lambdaEnvironment (namedRegions 1) 0
    ⟨.assumed ⟨"arn:aws:iam::999999999999:role/workload", "infraweave-workload-111111111111",
      [("WorkloadAccount", "111111111111")]⟩ 3600, some "us-east-2"⟩ false :=
  correct_run lambdaEnvironment namedRegions oneAfterTheOther
    ⟨⟨trivial, innermost_namedRegions 0, fun h => (asked_namedRegions h).elim⟩,
      ⟨trivial, fun _ _ h => (asked_namedRegions h).elim⟩,
      ⟨Nat.le_of_ble_eq_true rfl, fun _ _ =>
        ⟨fun h => (asked_namedRegions h).elim, fun h => (asked_namedRegions h).elim⟩⟩,
      ⟨trivial, innermost_namedRegions 1, fun h => (asked_namedRegions h).elim⟩,
      ⟨trivial, fun _ _ h => (asked_namedRegions h).elim⟩, trivial⟩
    1 0 _ false (by decide +kernel)

end CentralCreds
end EnvAwsDirect
end InfraWeave
