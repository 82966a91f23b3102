import InfraWeave.Defs.Json
import InfraWeave.Lib.Fallible
import InfraWeave.Lib.Text

/-!
# Project authorization

The middleware in front of the routes with a `{project}` segment, in a build without the `local`
feature.  The claims are read from the header the gateway fills in or, failing that, from the bearer
token; decoding them (base64, then JSON) is the `Codec`.
-/

namespace InfraWeave
namespace InternalApi

open Text

structure Response where
  status : Nat
  nextToken : Option String
  body : Json
  deriving DecidableEq

def errorResponse (status : Nat) (message : String) : Response :=
  { status, nextToken := none, body := .object [("error", .string message)] }

/-- Each header with its value as text, when there is one. -/
structure Headers where
  xAuthUser : Option String
  xInfraweaveVerifiedClaims : Option String
  authorization : Option String

structure Codec where
  /-- URL-safe base64 without padding, then JSON. -/
  urlSafeJson : String → Option Json
  /-- Standard base64, then UTF-8, then JSON. -/
  standardJson : String → Option Json

structure AuthConfig where
  codec : Codec
  allowedProjectsClaimKey : String

def extractVerifiedClaims (codec : Codec) (headers : Headers) : Option Json := do
  codec.urlSafeJson (← headers.xInfraweaveVerifiedClaims)

def extractJwtClaims (codec : Codec) (headers : Headers) : Option Json :=
  match extractVerifiedClaims codec headers with
  | some claims => some claims
  | none => do
      let authHeader ← headers.authorization
      let token ← stripPrefix "Bearer " authHeader <|> stripPrefix "bearer " authHeader
      match split '.' token with
      | [_, payload, _] => codec.urlSafeJson payload
      | _ => none

/-- The `allowed_projects` claim, read as a comma-separated list. -/
def parseAllowedProjects (allowedProjectsStr : String) : List String :=
  ((split ',' allowedProjectsStr).map trim).filter (· ≠ "")

def ensureAccess (config : AuthConfig) (headers : Headers) (projectId : String) :
    Except Response Unit :=
  match headers.xAuthUser with
  | some _ =>
      match ((extractJwtClaims config.codec headers).bind
          (·.get? config.allowedProjectsClaimKey)).bind Json.asStr with
      | some allowedProjectsStr =>
          if projectId ∈ parseAllowedProjects allowedProjectsStr then .ok ()
          else .error (errorResponse 403 "Access denied to this project")
      | none =>
          .error (errorResponse 403 "Access denied: no allowed_projects claim found in token")
  | none => .error (errorResponse 401 "Missing authentication user context")

def ensureAuthenticatedUser (headers : Headers) : Except Response Unit :=
  if headers.xAuthUser.isSome then .ok ()
  else .error (errorResponse 401 "Missing authentication user context")

def ensureAccessToAll (config : AuthConfig) (headers : Headers) : List String → Except Response Unit
  | [] => .ok ()
  | project :: projects => do
      if trim project ≠ "" then ensureAccess config headers (trim project)
      ensureAccessToAll config headers projects

/-- `auth_middleware`, up to the point where it runs the next handler. -/
def authMiddleware (config : AuthConfig) (headers : Headers) (projectParam : Option String) :
    Except Response Unit := do
  ensureAuthenticatedUser headers
  match projectParam with
  | some projects => ensureAccessToAll config headers (split ',' projects)
  | none => .ok ()

/-! ## The caller's projects -/

def allowedProjects (config : AuthConfig) (headers : Headers) : List String :=
  match headers.xAuthUser with
  | some _ =>
      match ((extractJwtClaims config.codec headers).bind
          (·.get? config.allowedProjectsClaimKey)).bind Json.asStr with
      | some allowedProjectsStr => parseAllowedProjects allowedProjectsStr
      | none => []
  | none => []

theorem ensureAccess_eq_ok_iff (config : AuthConfig) (headers : Headers) (projectId : String) :
    ensureAccess config headers projectId = .ok () ↔ projectId ∈ allowedProjects config headers := by
  unfold ensureAccess allowedProjects
  cases headers.xAuthUser with
  | none => simp
  | some user =>
      split
      · split <;> simp_all
      · simp_all

theorem ensureAccessToAll_eq_ok_iff (config : AuthConfig) (headers : Headers)
    (projects : List String) :
    ensureAccessToAll config headers projects = .ok () ↔
      ∀ project ∈ projects, trim project ≠ "" →
        trim project ∈ allowedProjects config headers := by
  induction projects with
  | nil => simp [ensureAccessToAll]
  | cons project projects ih =>
      by_cases hne : trim project ≠ ""
      · have hstep := ensureAccess_eq_ok_iff config headers (trim project)
        cases haccess : ensureAccess config headers (trim project) with
        | ok u => simp_all [ensureAccessToAll]
        | error e => simp_all [ensureAccessToAll]
      · simp_all [ensureAccessToAll]

/-- A text that the comma split and the trimming leave as it is. -/
def plainProject (text : String) : Bool :=
  text ≠ "" && !text.toList.contains ',' && trim text = text

theorem plainProject_of_mem_allowedProjects {config : AuthConfig} {headers : Headers}
    {project : String} (h : project ∈ allowedProjects config headers) :
    plainProject project = true := by
  unfold allowedProjects at h
  split at h
  · split at h
    · simp only [parseAllowedProjects, List.mem_filter, List.mem_map] at h
      rcases h with ⟨⟨piece, hpiece, rfl⟩, hne⟩
      have hcomma : ',' ∉ (trim piece).toList := fun hc =>
        notMem_of_mem_split hpiece (mem_of_mem_trim hc)
      simpa [plainProject, hcomma] using hne
    · simp at h
  · simp at h

/-- What the middleware lets through is what it would accept as it stands, if it is plain. -/
theorem mem_allowedProjects_iff_plain {config : AuthConfig} {headers : Headers} {text piece : String}
    (hauth : authMiddleware config headers (some text) = .ok ()) (hpiece : piece ∈ split ',' text) :
    piece ∈ allowedProjects config headers ↔ plainProject piece = true := by
  constructor
  · intro h
    exact plainProject_of_mem_allowedProjects h
  · intro h
    rcases bind_eq_ok_iff.1 hauth with ⟨_, -, hall⟩
    simp only [plainProject, Bool.and_eq_true, decide_eq_true_eq] at h
    have hmem := (ensureAccessToAll_eq_ok_iff config headers _).1 hall piece hpiece
    rw [h.2] at hmem
    exact hmem (by simpa using h.1.1)

end InternalApi
end InfraWeave
