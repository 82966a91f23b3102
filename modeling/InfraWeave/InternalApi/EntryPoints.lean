import InfraWeave.InternalApi.HttpRouter
import InfraWeave.InternalApi.PublishRoutes

/-!
# The entry points of the internal API

On AWS a Lambda event is turned into a request, on Azure the requests of the functions host are
passed on.  Both hand the router the identity that the platform has verified in headers of their
own, and take these headers out of what the client has sent.
-/

namespace InfraWeave
namespace InternalApi

open Text

/-! ## Headers -/

/-- The headers of a request in their order, the names in lower case. -/
structure HeaderMap where
  entries : List (String × String)

namespace HeaderMap

def empty : HeaderMap := ⟨[]⟩

/-- The first value of a header. -/
def get (headers : HeaderMap) (name : String) : Option String :=
  headers.entries.lookup name

def append (headers : HeaderMap) (name value : String) : HeaderMap :=
  ⟨headers.entries ++ [(name, value)]⟩

def remove (headers : HeaderMap) (name : String) : HeaderMap :=
  ⟨headers.entries.filter (·.1 ≠ name)⟩

def insert (headers : HeaderMap) (name value : String) : HeaderMap :=
  (headers.remove name).append name value

/-- The value of a header, where `to_str` reads it. -/
def text (headers : HeaderMap) (name : String) : Option String :=
  (headers.get name).filter validHeaderValue

/-- What the authorization reads. -/
def view (headers : HeaderMap) : Headers where
  xAuthUser := headers.text "x-auth-user"
  xInfraweaveVerifiedClaims := headers.text "x-infraweave-verified-claims"
  authorization := headers.text "authorization"

theorem get_append_of_ne (headers : HeaderMap) {name other : String} (h : name ≠ other)
    (value : String) : (headers.append other value).get name = headers.get name := by
  have hbeq : (name == other) = false := beq_false_of_ne h
  unfold get append
  rw [List.lookup_append]
  simp only [List.lookup_cons, hbeq, List.lookup_nil, Option.or_none]

theorem get_append_self {headers : HeaderMap} {name : String} (h : headers.get name = none)
    (value : String) : (headers.append name value).get name = some value := by
  unfold get append at *
  rw [List.lookup_append, h]
  simp only [List.lookup_cons, beq_self_eq_true, Option.none_or]

@[simp]
theorem get_remove_self (headers : HeaderMap) (name : String) :
    (headers.remove name).get name = none := by
  unfold get remove
  refine List.lookup_eq_none_iff.2 fun entry hentry => ?_
  have hne := (List.mem_filter.1 hentry).2
  simpa using fun heq => (of_decide_eq_true hne) (Eq.symm heq)

theorem get_remove_of_ne (headers : HeaderMap) {name other : String} (h : name ≠ other) :
    (headers.remove other).get name = headers.get name := by
  unfold get remove
  induction headers.entries with
  | nil => rfl
  | cons entry entries ih =>
      obtain ⟨key, value⟩ := entry
      by_cases hkey : key = other
      · subst hkey
        have hbeq : (name == key) = false := beq_false_of_ne h
        simpa [List.lookup_cons, hbeq] using ih
      · simp only [List.filter_cons, hkey, ne_eq, not_false_eq_true, decide_true, if_true,
          List.lookup_cons, ih]

@[simp]
theorem get_insert_self (headers : HeaderMap) (name value : String) :
    (headers.insert name value).get name = some value :=
  get_append_self (get_remove_self headers name) value

theorem get_insert_of_ne (headers : HeaderMap) {name other : String} (h : name ≠ other)
    (value : String) : (headers.insert other value).get name = headers.get name :=
  (get_append_of_ne _ h value).trans (get_remove_of_ne headers h)

end HeaderMap

/-- What the requests of the `http` crate are made of. -/
structure HttpCrate where
  validMethod : String → Bool
  validUri : String → Bool
  validName : String → Bool
  /-- The values that `HeaderValue::from_str` takes, which `to_str` need not read again. -/
  validValue : String → Bool

/-- A header of a request that is being built. -/
def HttpCrate.header (http : HttpCrate) (headers : HeaderMap) (key value : String) :
    Option HeaderMap :=
  if http.validName key && http.validValue value then
    some (headers.append (toLowercase key) value)
  else
    none

structure EntryPoint where
  http : HttpCrate
  auth : AuthConfig
  checkPublish : Json → String → String → Option String → Bool
  usernameClaimKeys : List String
  /-- JSON, then URL-safe base64 without padding. -/
  urlSafeText : Json → String

/-! ## AWS -/

structure AxumRequest where
  method : String
  uri : String
  headers : HeaderMap
  body : String

inductive Invocation where
  /-- An event that names an operation. -/
  | direct (eventType : String)
  /-- A request for the router, unless it could not be built. -/
  | http (request : Option AxumRequest)

def tokenPath : String := "/api/v1/auth/token"

def httpMethod (payload : Json) : String :=
  ((payload.get? "httpMethod" <|>
    ((payload.get? "requestContext").bind (·.get? "http")).bind (·.get? "method")).bind
      Json.asStr).getD "GET"

def eventPath (payload : Json) : String :=
  ((payload.get? "path" <|> payload.get? "rawPath").bind Json.asStr).getD "/"

def eventUri (payload : Json) : String :=
  match (payload.get? "queryStringParameters").bind Json.asObject with
  | some params =>
      match params.filterMap fun (k, v) => v.asStr.map fun value => k ++ "=" ++ value with
      | [] => eventPath payload
      | query => eventPath payload ++ "?" ++ "&".intercalate query
  | none => eventPath payload

/-- The headers that only the entry point may set. -/
def isInternalHeader (key : String) : Bool :=
  toLowercase key = "x-auth-user" || toLowercase key = "x-infraweave-verified-claims"

theorem toLowercase_userHeader : toLowercase "x-auth-user" = "x-auth-user" := by
  decide +kernel

theorem toLowercase_claimsHeader :
    toLowercase "x-infraweave-verified-claims" = "x-infraweave-verified-claims" := by
  decide +kernel

theorem toLowercase_projectsHeader : toLowercase "x-allowed-projects" = "x-allowed-projects" := by
  decide +kernel

theorem isInternalHeader_user : isInternalHeader "x-auth-user" = true := by
  simp [isInternalHeader, toLowercase_userHeader]

theorem isInternalHeader_claims : isInternalHeader "x-infraweave-verified-claims" = true := by
  simp [isInternalHeader, toLowercase_claimsHeader]

section

variable (entry : EntryPoint)

def addClientHeaders : HeaderMap → List (String × Json) → Option HeaderMap
  | headers, [] => some headers
  | headers, (key, value) :: rest =>
      if isInternalHeader key then addClientHeaders headers rest
      else
        match value.asStr with
        | none => addClientHeaders headers rest
        | some text => (entry.http.header headers key text).bind (addClientHeaders · rest)

def clientHeaders (payload : Json) : Option HeaderMap :=
  match (payload.get? "headers").bind Json.asObject with
  | some headers => addClientHeaders entry .empty headers
  | none => some .empty

/-- The claims are those of the authorizer itself or of its token. -/
def authorizerClaims (authorizer : Json) : Option Json :=
  match authorizer.get? "claims" with
  | some claims => some claims
  | none => (authorizer.get? "jwt").bind (·.get? "claims")

def claimText (claims : Json) (key : String) : Option String :=
  (claims.get? key).bind Json.asStr

/-- The first of the configured claims that is a text. -/
def usernameOf (claims : Json) : Option String :=
  entry.usernameClaimKeys.findSome? (claimText claims)

def iamUser (requestContext : Json) : Option String :=
  let iam := (requestContext.get? "authorizer").bind (·.get? "iam")
  ((iam.bind fun iam => iam.get? "userArn" <|> iam.get? "userId")).bind Json.asStr

def addAllowedProjects (headers : HeaderMap) (claims : Json) : Option HeaderMap :=
  match claimText claims entry.auth.allowedProjectsClaimKey with
  | some allowedProjects => entry.http.header headers "x-allowed-projects" allowedProjects
  | none => some headers

/-- The headers of a user, with the claims that name the user. -/
def addVerifiedUser (headers : HeaderMap) (user : String) (claims : Json) : Option HeaderMap := do
  let headers ← entry.http.header headers "x-auth-user" user
  let headers ← addAllowedProjects entry headers claims
  entry.http.header headers "x-infraweave-verified-claims" (entry.urlSafeText claims)

/-- The claims of an event with the user they name. -/
def eventIdentity (requestContext : Json) : Option (String × Json) := do
  let authorizer ← requestContext.get? "authorizer"
  let claims ← authorizerClaims authorizer
  let user ← usernameOf entry claims
  some (user, claims)

/-- A user of IAM is let in to the token bridge only. -/
def addIdentity (headers : HeaderMap) (isTokenRoute : Bool) (requestContext : Json) :
    Option HeaderMap :=
  match eventIdentity entry requestContext with
  | some (user, claims) => addVerifiedUser entry headers user claims
  | none =>
      if isTokenRoute then
        match iamUser requestContext with
        | some user => entry.http.header headers "x-auth-user" user
        | none => some headers
      else some headers

def requestHeaders (payload : Json) : Option HeaderMap := do
  let headers ← clientHeaders entry payload
  match payload.get? "requestContext" with
  | some requestContext => addIdentity entry headers (eventPath payload = tokenPath) requestContext
  | none => some headers

def buildRequest (payload : Json) : Option AxumRequest := do
  let headers ← requestHeaders entry payload
  if entry.http.validMethod (httpMethod payload) && entry.http.validUri (eventUri payload) then
    some {
      method := httpMethod payload
      uri := eventUri payload
      headers
      body := ((payload.get? "body").bind Json.asStr).getD "" }
  else
    none

def unifiedHandler (payload : Json) : Invocation :=
  match (payload.get? "event").bind Json.asStr with
  | some eventType => .direct eventType
  | none => .http (buildRequest entry payload)

/-! ## Azure -/

def normalizeAzureHeaders (headers : HeaderMap) : HeaderMap :=
  let headers := (headers.remove "x-auth-user").remove "x-infraweave-verified-claims"
  match headers.text "x-ms-client-principal-name" with
  | some user =>
      if entry.http.validValue user then headers.insert "x-auth-user" user else headers
  | none => headers

end

end InternalApi
end InfraWeave
