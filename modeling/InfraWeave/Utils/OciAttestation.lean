import InfraWeave.Utils.Oci

/-!
# Attestations and signatures of OCI artifacts

A runner has three archives of a module: the artifact, its attestation and its signature.  It checks
them one after the other, and some of the checks end the process instead of failing.
-/

namespace InfraWeave
namespace Oci

structure OciArtifactSet where
  ociArtifactPath : String
  digest : String
  tagMain : String
  tagSignature : Option String
  tagAttestation : Option String

/-- A check returns an error, or ends the process. -/
inductive Failure where
  | error (message : String)
  | panic (message : String)
  deriving DecidableEq

/-- Other packages: the base64 decoder, and the engine that evaluates `data.verification.allow` of a
policy on an input. -/
structure Verifier extends Library where
  base64 : String → Except String Bytes
  rego : String → Json → Except String (Option Json)

/-- Where the archives and configuration files are, and the variable `ATTESTATION_POLICY`. -/
structure Surroundings where
  archive : String → Except String (List Entry)
  configFile : String → Option (Except String Bytes)
  attestationPolicy : Option Bytes

/-! ## Failures -/

/-- The operator `?`. -/
def propagate {α : Type} (x : Except String α) : Except Failure α :=
  x.mapError .error

def unwrapResult {α : Type} (x : Except String α) : Except Failure α :=
  x.mapError fun e => .panic ("called `Result::unwrap()` on an `Err` value: " ++ e)

def unwrapOption {α : Type} : Option α → Except Failure α
  | some a => .ok a
  | none => .error (.panic "called `Option::unwrap()` on a `None` value")

/-! ## Configuration -/

variable (v : Verifier) (around : Surroundings)

def loadVerificationConfig : Except Failure Json := do
  let text ← unwrapResult (orError "NotPresent" around.attestationPolicy)
  unwrapResult (v.value text)

def verificationConfig (configPath : Option String) : Except Failure Json :=
  match configPath with
  | some path =>
      match around.configFile path with
      | some content => do
          let text ← propagate content
          propagate (v.value text)
      | none => .error (.error ("Configuration file not found: " ++ path))
  | none => loadVerificationConfig v around

def policyContent (config : Json) : Option String :=
  (config.get? "policy_content").bind Json.asStr

def policyInput (payload config : Json) : Json :=
  .object [("attestation", payload), ("config", config)]

def verifyWithPolicy (payload config : Json) : Except String Unit := do
  let policy ← orError "No policy content found in configuration" (policyContent config)
  match ← v.rego policy (policyInput payload config) with
  | some (.bool true) => .ok ()
  | some (.bool false) =>
      .error "Policy verification failed: all conditions must be met for verification to pass"
  | _ => .error "Policy evaluation returned no result or invalid result type"

/-! ## Saved blobs -/

structure Blob where
  digest : String
  content : Bytes
  deriving DecidableEq

def fromUtf8 (bytes : Bytes) : Except String String :=
  orError "invalid utf-8 sequence" (String.fromUTF8? ⟨bytes.toArray⟩)

/-- A later entry of the same name replaces an earlier one. -/
def collectEntry (name : String) (state : Option Bytes × Option String) (entry : Entry) :
    Except String (Option Bytes × Option String) :=
  if entry.path = name then .ok (some entry.contents, state.2)
  else if entry.path = "digest.txt" then do
    let digest ← fromUtf8 entry.contents
    .ok (state.1, some digest)
  else .ok state

def savedBlob (name incomplete : String) (archive : Except String (List Entry)) :
    Except String Blob := do
  let entries ← archive
  match ← entries.foldlM (collectEntry name) (none, none) with
  | (some content, some digest) => .ok ⟨digest, content⟩
  | _ => .error incomplete

def attestationBlob (tag : String) : Except String Blob :=
  savedBlob "attestation.json" "Incomplete attestation data in archive"
    (around.archive (tag ++ ".tar.gz"))

def signatureBlob (tag : String) : Except String Blob :=
  savedBlob "signature.json" "Incomplete signature data in archive"
    (around.archive (tag ++ ".tar.gz"))

/-! ## Attestations -/

/-- The payload of a DSSE envelope. -/
def dssePayload (content : Bytes) : Except String Json := do
  let envelope ← (v.value content).mapError fun _ => "Failed to parse DSSE envelope JSON"
  let payloadB64 ← orError "No payload found in DSSE envelope"
    ((envelope.get? "payload").bind Json.asStr)
  let bytes ← (v.base64 payloadB64).mapError fun _ => "Failed to decode base64 payload"
  let _ ← (fromUtf8 bytes).mapError fun _ => "Failed to convert payload to UTF-8"
  (v.value bytes).mapError fun _ => "Failed to parse payload JSON"

def subjectSha256 (subject : Json) : Option String :=
  ((subject.get? "digest").bind fun digest => digest.get? "sha256").bind Json.asStr

def predicateType (payload : Json) : Option String :=
  (payload.get? "predicateType").bind Json.asStr

/-- What follows when a subject matches. -/
def verifyPredicate (payload : Json) : Except Failure Unit :=
  match predicateType payload with
  | none => .error (.error "Missing predicateType in attestation")
  | some type =>
      if Text.contains type "slsa.dev/provenance" then do
        let config ← loadVerificationConfig v around
        if (policyContent config).isSome then propagate (verifyWithPolicy v payload config)
        else .ok ()
      else .error (.error ("Unsupported predicate type: " ++ type))

/-- The first subject that matches decides. -/
def verifySubject (payload : Json) (subjectHex : String) : Except Failure Unit :=
  match (payload.get? "subject").bind Json.asArray with
  | none => .error (.error "No subject found in attestation payload")
  | some subjects =>
      if subjects.any fun subject => subjectSha256 subject = some subjectHex then
        verifyPredicate v around payload
      else
        .error (.error ("No matching subject found in attestation for digest: " ++ subjectHex))

def verifySlsaProvenanceAttestation (blob : Blob) (subjectHex : String) : Except Failure Unit := do
  let payload ← propagate (dssePayload v blob.content)
  verifySubject v around payload subjectHex

/-- The configuration that the source hands over is not used. -/
def verifyAttestationOffline (tag subjectDigest : String) : Except Failure Unit := do
  let blob ← propagate (attestationBlob around tag)
  verifySlsaProvenanceAttestation v around blob (withoutPrefix subjectDigest)

/-! ## Signatures -/

/-- `critical.image.docker-manifest-digest`. -/
def dockerManifestDigest (signature : Json) : Option Json :=
  ((signature.get? "critical").bind fun critical => critical.get? "image").bind
    fun image => image.get? "docker-manifest-digest"

/-- A signature that is no JSON, or does not name a digest, passes. -/
def verifySignatureContent (content : Bytes) (subjectDigest : String) : Except String Unit :=
  if content = [] then .error "Signature content is empty"
  else
    match v.value content with
    | .error _ => .ok ()
    | .ok signature =>
        match dockerManifestDigest signature with
        | none => .ok ()
        | some named =>
            let sigDigest := named.asStr.getD ""
            if Text.contains sigDigest subjectDigest then .ok ()
            else
              .error ("Signature references incorrect image digest: " ++ sigDigest ++ " vs " ++
                subjectDigest)

def verifySignatureOffline (tag subjectDigest : String) : Except Failure Unit := do
  let blob ← propagate (signatureBlob around tag)
  propagate (verifySignatureContent v blob.content subjectDigest)

/-! ## The three checks -/

def verifyMain (set : OciArtifactSet) : Except String Unit := do
  let archive ← around.archive (set.tagMain ++ ".tar.gz")
  verifyMainArtifactOffline v.toLibrary archive set.digest

def verifyOciArtifactsOffline (set : OciArtifactSet) (configPath : Option String) :
    Except Failure Unit := do
  let _ ← verificationConfig v around configPath
  unwrapResult (verifyMain v around set)
  let attestation ← unwrapOption set.tagAttestation
  verifyAttestationOffline v around attestation set.digest
  let signature ← unwrapOption set.tagSignature
  verifySignatureOffline v around signature set.digest

/-! ## What is asked -/

section

variable (v : Verifier) (around : Surroundings)

/-- The policy of the configuration, if it has one, allows the attestation. -/
def Allows (payload config : Json) : Prop :=
  ∀ policy, policyContent config = some policy →
    v.rego policy (policyInput payload config) = .ok (some (.bool true))

/-- The payload of the envelope is about the digest, and of a kind that is supported. -/
structure Attests (content : Bytes) (digest : String) (payload : Json) : Prop where
  decoded : dssePayload v content = .ok payload
  subject : ∃ subjects, (payload.get? "subject").bind Json.asArray = some subjects ∧
    ∃ subject ∈ subjects, subjectSha256 subject = some (withoutPrefix digest)
  type : ∃ type, predicateType payload = some type ∧
    Text.contains type "slsa.dev/provenance" = true

def Names (content : Bytes) (digest : String) : Prop :=
  ∃ signature, v.value content = .ok signature ∧
    dockerManifestDigest signature = some (.string digest)

structure Bound (set : OciArtifactSet) (config : Json) : Prop where
  main : verifyMain v around set = .ok ()
  attestation : ∃ tag blob payload, set.tagAttestation = some tag ∧
    attestationBlob around tag = .ok blob ∧ Attests v blob.content set.digest payload ∧
      Allows v payload config
  signature : ∃ tag blob, set.tagSignature = some tag ∧ signatureBlob around tag = .ok blob ∧
    Names v blob.content set.digest

/-- What is accepted is bound to the artifact, and what is not is refused with an error. -/
structure BindsToArtifact (set : OciArtifactSet) (configPath : Option String) : Prop where
  bound : verifyOciArtifactsOffline v around set configPath = .ok () →
    ∃ config, verificationConfig v around configPath = .ok config ∧ Bound v around set config
  noPanic : ∀ message,
    verifyOciArtifactsOffline v around set configPath ≠ .error (.panic message)

/-- The signature that is asked for after the attestation is there, and one that passes names the
digest; the policy of the configuration allows what the one of the environment has allowed. -/
def SignatureSound (set : OciArtifactSet) (config payload : Json) : Prop :=
  ∃ tag, set.tagSignature = some tag ∧ ∀ blob, signatureBlob around tag = .ok blob →
    verifySignatureContent v blob.content set.digest = .ok () →
      Names v blob.content set.digest ∧ Allows v payload config

/-- No check of the set ends the process or lets something else pass. -/
structure Sound (set : OciArtifactSet) (config : Json) : Prop where
  main : verifyMain v around set = .ok ()
  attestation : ∃ tag, set.tagAttestation = some tag ∧ ∀ blob payload,
    attestationBlob around tag = .ok blob → Attests v blob.content set.digest payload →
      ∃ environment, loadVerificationConfig v around = .ok environment ∧
        (Allows v payload environment → SignatureSound v around set config payload)

end

/-! ## Single checks -/

section

variable {v : Verifier} {around : Surroundings}

theorem propagate_ne_panic {α : Type} (x : Except String α) (message : String) :
    propagate x ≠ .error (.panic message) := by
  intro h
  cases x <;> cases h

/-- The environment is read, or the process ends. -/
theorem load_cases (v : Verifier) (around : Surroundings) :
    (∃ config, loadVerificationConfig v around = .ok config) ∨
      ∃ message, loadVerificationConfig v around = .error (.panic message) := by
  unfold loadVerificationConfig unwrapResult
  cases orError "NotPresent" around.attestationPolicy with
  | error e => exact .inr ⟨_, rfl⟩
  | ok text =>
      cases hvalue : v.value text with
      | error e =>
          refine .inr ⟨"called `Result::unwrap()` on an `Err` value: " ++ e, ?_⟩
          change (v.value text).mapError _ = _
          rw [hvalue]
          rfl
      | ok config =>
          refine .inl ⟨config, ?_⟩
          change (v.value text).mapError _ = _
          rw [hvalue]
          rfl

/-- A configuration file is read, or an error is returned. -/
theorem verificationConfig_ne_panic (path message : String) :
    verificationConfig v around (some path) ≠ .error (.panic message) := by
  intro h
  simp only [verificationConfig] at h
  cases hfile : around.configFile path with
  | none =>
      rw [hfile] at h
      cases h
  | some content =>
      rw [hfile] at h
      cases content with
      | error e => cases h
      | ok text => exact propagate_ne_panic _ _ h

theorem verifyWithPolicy_of_allows {payload config : Json} (h : Allows v payload config)
    (hpolicy : (policyContent config).isSome = true) :
    verifyWithPolicy v payload config = .ok () := by
  obtain ⟨policy, hpolicy⟩ := Option.isSome_iff_exists.1 hpolicy
  unfold verifyWithPolicy
  rw [hpolicy]
  change (v.rego policy (policyInput payload config) >>= _) = _
  rw [h policy hpolicy]
  rfl

theorem allows_of_verifyWithPolicy {payload config : Json}
    (h : verifyWithPolicy v payload config = .ok ()) : Allows v payload config := by
  intro policy hpolicy
  unfold verifyWithPolicy at h
  rw [hpolicy] at h
  obtain ⟨result, hresult, h⟩ := bind_eq_ok_iff.1 (show (v.rego policy _ >>= _) = .ok () from h)
  rw [hresult]
  split at h
  · rfl
  · cases h
  · cases h

theorem allows_of_no_policy {payload config : Json} (h : ¬ (policyContent config).isSome = true) :
    Allows v payload config := by
  intro policy hpolicy
  exact absurd (Option.isSome_of_eq_some hpolicy) h

/-- What is left to check when the payload is about the digest. -/
def policyCheck (v : Verifier) (around : Surroundings) (payload : Json) : Except Failure Unit := do
  let config ← loadVerificationConfig v around
  if (policyContent config).isSome then propagate (verifyWithPolicy v payload config) else .ok ()

theorem policyCheck_cases (payload : Json) {environment : Json}
    (hload : loadVerificationConfig v around = .ok environment) :
    (Allows v payload environment ∧ policyCheck v around payload = .ok ()) ∨
      (¬ Allows v payload environment ∧
        ∃ e, policyCheck v around payload = .error (.error e)) := by
  unfold policyCheck
  rw [hload, ok_bind]
  by_cases hpolicy : (policyContent environment).isSome = true
  · rw [if_pos hpolicy]
    cases hverify : verifyWithPolicy v payload environment with
    | ok u => exact .inl ⟨allows_of_verifyWithPolicy hverify, rfl⟩
    | error e =>
        refine .inr ⟨fun hallows => ?_, e, rfl⟩
        rw [verifyWithPolicy_of_allows hallows hpolicy] at hverify
        cases hverify
  · rw [if_neg hpolicy]
    exact .inl ⟨allows_of_no_policy hpolicy, rfl⟩

/-- A payload about the digest is left to the policy; any other is refused. -/
theorem verifySubject_cases (v : Verifier) (around : Surroundings) {content : Bytes}
    (digest : String) {payload : Json} (hpayload : dssePayload v content = .ok payload) :
    (Attests v content digest payload ∧
        verifySubject v around payload (withoutPrefix digest) = policyCheck v around payload) ∨
      (¬ Attests v content digest payload ∧
        ∃ e, verifySubject v around payload (withoutPrefix digest) = .error (.error e)) := by
  unfold verifySubject
  cases hsubjects : (payload.get? "subject").bind Json.asArray with
  | none =>
      refine .inr ⟨fun hattests => ?_, _, rfl⟩
      obtain ⟨subjects, hsome, -⟩ := hattests.subject
      rw [hsubjects] at hsome
      cases hsome
  | some subjects =>
      dsimp only
      split
      · rename_i hany
        obtain ⟨subject, hmem, hdigest⟩ := List.any_eq_true.1 hany
        have hsubject : ∃ subjects, (payload.get? "subject").bind Json.asArray = some subjects ∧
            ∃ subject ∈ subjects, subjectSha256 subject = some (withoutPrefix digest) :=
          ⟨subjects, hsubjects, subject, hmem, of_decide_eq_true hdigest⟩
        unfold verifyPredicate
        cases htype : predicateType payload with
        | none =>
            refine .inr ⟨fun hattests => ?_, _, rfl⟩
            obtain ⟨type, hsome, -⟩ := hattests.type
            rw [htype] at hsome
            cases hsome
        | some type =>
            dsimp only
            split
            · rename_i hsupported
              exact .inl ⟨⟨hpayload, hsubject, type, htype, hsupported⟩, rfl⟩
            · rename_i hunsupported
              refine .inr ⟨fun hattests => ?_, _, rfl⟩
              obtain ⟨type', hsome, hcontains⟩ := hattests.type
              obtain rfl := Option.some.inj (htype.symm.trans hsome)
              exact hunsupported hcontains
      · rename_i hnone
        refine .inr ⟨fun hattests => hnone ?_, _, rfl⟩
        obtain ⟨subjects', hsome, subject, hmem, hdigest⟩ := hattests.subject
        obtain rfl := Option.some.inj (hsubjects.symm.trans hsome)
        exact List.any_eq_true.2 ⟨subject, hmem, decide_eq_true hdigest⟩

/-- The archive of an attestation, with what it attests. -/
def Attested (v : Verifier) (around : Surroundings) (tag digest : String) (payload : Json) : Prop :=
  ∃ blob, attestationBlob around tag = .ok blob ∧ Attests v blob.content digest payload

theorem verifyAttestation_cases (v : Verifier) (around : Surroundings) (tag digest : String) :
    (∃ payload, Attested v around tag digest payload ∧
        verifyAttestationOffline v around tag digest = policyCheck v around payload) ∨
      ((∀ payload, ¬ Attested v around tag digest payload) ∧
        ∃ e, verifyAttestationOffline v around tag digest = .error (.error e)) := by
  unfold verifyAttestationOffline verifySlsaProvenanceAttestation
  cases hblob : attestationBlob around tag with
  | error e =>
      refine .inr ⟨fun payload hattested => ?_, e, rfl⟩
      obtain ⟨blob, hblob', -⟩ := hattested
      rw [hblob] at hblob'
      cases hblob'
  | ok blob =>
      have hpropagate : propagate (Except.ok blob : Except String Blob) = .ok blob := rfl
      rw [hpropagate, ok_bind]
      cases hpayload : dssePayload v blob.content with
      | error e =>
          refine .inr ⟨fun payload hattested => ?_, e, rfl⟩
          obtain ⟨blob', hblob', hattests⟩ := hattested
          obtain rfl := Except.ok.inj (hblob.symm.trans hblob')
          rw [hattests.decoded] at hpayload
          cases hpayload
      | ok payload =>
          have hpropagate : propagate (Except.ok payload : Except String Json) = .ok payload := rfl
          rw [hpropagate, ok_bind]
          rcases verifySubject_cases v around digest hpayload with
            ⟨hattests, hcheck⟩ | ⟨hnot, e, herror⟩
          · exact .inl ⟨payload, ⟨blob, hblob, hattests⟩, hcheck⟩
          · refine .inr ⟨fun payload' hattested => ?_, e, herror⟩
            obtain ⟨blob', hblob', hattests⟩ := hattested
            obtain rfl := Except.ok.inj (hblob.symm.trans hblob')
            obtain rfl := Except.ok.inj (hpayload.symm.trans hattests.decoded)
            exact hnot hattests

theorem Attested.unique {tag digest : String} {payload payload' : Json}
    (h : Attested v around tag digest payload) (h' : Attested v around tag digest payload') :
    payload = payload' := by
  obtain ⟨blob, hblob, hattests⟩ := h
  obtain ⟨blob', hblob', hattests'⟩ := h'
  obtain rfl := Except.ok.inj (hblob.symm.trans hblob')
  exact Except.ok.inj (hattests.decoded.symm.trans hattests'.decoded)

/-- A signature is accepted, or refused with an error. -/
theorem verifySignature_cases (v : Verifier) (around : Surroundings) (tag digest : String) :
    (∃ blob, signatureBlob around tag = .ok blob ∧
        verifySignatureContent v blob.content digest = .ok () ∧
        verifySignatureOffline v around tag digest = .ok ()) ∨
      ((∀ blob, signatureBlob around tag = .ok blob →
          verifySignatureContent v blob.content digest ≠ .ok ()) ∧
        ∃ e, verifySignatureOffline v around tag digest = .error (.error e)) := by
  unfold verifySignatureOffline
  cases hblob : signatureBlob around tag with
  | error e => exact .inr ⟨fun blob h => absurd h (by simp), e, rfl⟩
  | ok blob =>
      have hpropagate : propagate (Except.ok blob : Except String Blob) = .ok blob := rfl
      rw [hpropagate, ok_bind]
      cases hcontent : verifySignatureContent v blob.content digest with
      | ok u => exact .inl ⟨blob, rfl, hcontent, rfl⟩
      | error e =>
          refine .inr ⟨fun blob' h hok => ?_, e, rfl⟩
          obtain rfl := Except.ok.inj h
          rw [hcontent] at hok
          cases hok

/-! ## The three checks -/

/-- The signature is checked when the attestation has passed. -/
def signatureCheck (v : Verifier) (around : Surroundings) (set : OciArtifactSet) :
    Except Failure Unit := do
  let tag ← unwrapOption set.tagSignature
  verifySignatureOffline v around tag set.digest

theorem verifyOciArtifactsOffline_eq {set : OciArtifactSet} {configPath : Option String}
    {config : Json} (hconfig : verificationConfig v around configPath = .ok config)
    (hmain : verifyMain v around set = .ok ()) {tag : String}
    (htag : set.tagAttestation = some tag) :
    verifyOciArtifactsOffline v around set configPath =
      (verifyAttestationOffline v around tag set.digest >>= fun _ => signatureCheck v around set) := by
  unfold verifyOciArtifactsOffline
  rw [hconfig, hmain, htag]
  rfl

theorem bindsToArtifact_of_error {set : OciArtifactSet} {configPath : Option String} {e : String}
    (h : verifyOciArtifactsOffline v around set configPath = .error (.error e)) :
    BindsToArtifact v around set configPath where
  bound hok := by
    rw [h] at hok
    cases hok
  noPanic message hpanic := by
    rw [h] at hpanic
    cases hpanic

/-- What is left of the checks once the policy of the environment has allowed the attestation. -/
theorem binds_iff_signatureSound {set : OciArtifactSet} {configPath : Option String} {config : Json}
    (hconfig : verificationConfig v around configPath = .ok config)
    (hmain : verifyMain v around set = .ok ()) {tag : String}
    (htag : set.tagAttestation = some tag) {payload : Json}
    (hattested : Attested v around tag set.digest payload)
    (heq : verifyOciArtifactsOffline v around set configPath = signatureCheck v around set) :
    BindsToArtifact v around set configPath ↔ SignatureSound v around set config payload := by
  unfold signatureCheck at heq
  cases hsignature : set.tagSignature with
  | none =>
      rw [hsignature] at heq
      change _ = Except.error (Failure.panic "called `Option::unwrap()` on a `None` value") at heq
      refine ⟨fun h => absurd heq (h.noPanic _), fun h => ?_⟩
      obtain ⟨tag', htag', -⟩ := h
      rw [hsignature] at htag'
      cases htag'
  | some signatureTag =>
      rw [hsignature] at heq
      change _ = verifySignatureOffline v around signatureTag set.digest at heq
      rcases verifySignature_cases v around signatureTag set.digest with
        ⟨blob, hblob, hcontent, hok⟩ | ⟨hnone, e, herror⟩
      · rw [hok] at heq
        constructor
        · intro hbinds
          obtain ⟨config', hconfig', hbound⟩ := hbinds.bound heq
          obtain rfl := Except.ok.inj (hconfig.symm.trans hconfig')
          refine ⟨signatureTag, hsignature, fun blob' hblob' _ => ⟨?_, ?_⟩⟩
          · obtain ⟨tag', blob'', htag', hblob'', hnames⟩ := hbound.signature
            obtain rfl := Option.some.inj (hsignature.symm.trans htag')
            obtain rfl := Except.ok.inj (hblob'.symm.trans hblob'')
            exact hnames
          · obtain ⟨tag', blob'', payload', htag', hblob'', hattests, hallows⟩ := hbound.attestation
            obtain rfl := Option.some.inj (htag.symm.trans htag')
            obtain rfl := hattested.unique ⟨blob'', hblob'', hattests⟩
            exact hallows
        · rintro ⟨tag', htag', hsound⟩
          obtain rfl := Option.some.inj (hsignature.symm.trans htag')
          obtain ⟨hnames, hallows⟩ := hsound blob hblob hcontent
          obtain ⟨blob', hblob', hattests⟩ := hattested
          refine ⟨fun _ => ⟨config, hconfig, hmain, ?_, ?_⟩, fun message hpanic => ?_⟩
          · exact ⟨tag, blob', payload, htag, hblob', hattests, hallows⟩
          · exact ⟨signatureTag, blob, hsignature, hblob, hnames⟩
          · rw [heq] at hpanic
            cases hpanic
      · rw [herror] at heq
        refine ⟨fun _ => ⟨signatureTag, hsignature, fun blob hblob hok => ?_⟩,
          fun _ => bindsToArtifact_of_error heq⟩
        exact absurd hok (hnone blob hblob)

/-- The checks that follow an attestation of the digest. -/
theorem binds_iff_sound_attested {set : OciArtifactSet} {configPath : Option String} {config : Json}
    (hconfig : verificationConfig v around configPath = .ok config)
    (hmain : verifyMain v around set = .ok ()) {tag : String}
    (htag : set.tagAttestation = some tag) {payload : Json}
    (hattested : Attested v around tag set.digest payload)
    (heq : verifyOciArtifactsOffline v around set configPath =
      (policyCheck v around payload >>= fun _ => signatureCheck v around set)) :
    BindsToArtifact v around set configPath ↔ Sound v around set config := by
  -- `Sound` speaks of every payload that the archive attests; there is only this one.
  have hsound : ∀ {environment}, loadVerificationConfig v around = .ok environment →
      (Allows v payload environment → SignatureSound v around set config payload) →
        Sound v around set config := by
    intro environment hload hsignature
    refine ⟨hmain, tag, htag, fun blob payload' hblob hattests => ?_⟩
    obtain rfl := hattested.unique ⟨blob, hblob, hattests⟩
    exact ⟨environment, hload, hsignature⟩
  have hsound' : Sound v around set config →
      ∃ environment, loadVerificationConfig v around = .ok environment ∧
        (Allows v payload environment → SignatureSound v around set config payload) := by
    intro h
    obtain ⟨tag', htag', hattests⟩ := h.attestation
    obtain rfl := Option.some.inj (htag.symm.trans htag')
    obtain ⟨blob, hblob, hpayload⟩ := hattested
    exact hattests blob payload hblob hpayload
  rcases load_cases v around with ⟨environment, hload⟩ | ⟨message, hpanic⟩
  · rcases policyCheck_cases payload hload with ⟨hallows, hpolicy⟩ | ⟨hdenied, e, hpolicy⟩
    · rw [hpolicy, ok_bind] at heq
      have hbinds := binds_iff_signatureSound hconfig hmain htag hattested heq
      refine hbinds.trans ⟨fun h => hsound hload fun _ => h, fun h => ?_⟩
      obtain ⟨environment', hload', himp⟩ := hsound' h
      obtain rfl := Except.ok.inj (hload.symm.trans hload')
      exact himp hallows
    · rw [hpolicy] at heq
      exact ⟨fun _ => hsound hload fun hallows => absurd hallows hdenied,
        fun _ => bindsToArtifact_of_error heq⟩
  · have hrun : verifyOciArtifactsOffline v around set configPath = .error (.panic message) := by
      rw [heq, policyCheck, hpanic]
      rfl
    refine ⟨fun h => absurd hrun (h.noPanic message), fun h => ?_⟩
    obtain ⟨environment, hload, -⟩ := hsound' h
    rw [hload] at hpanic
    cases hpanic

/-- The checks that follow the configuration. -/
theorem binds_iff_sound {set : OciArtifactSet} {configPath : Option String} {config : Json}
    (hconfig : verificationConfig v around configPath = .ok config) :
    BindsToArtifact v around set configPath ↔ Sound v around set config := by
  cases hmain : verifyMain v around set with
  | error e =>
      have hpanic : verifyOciArtifactsOffline v around set configPath =
          .error (.panic ("called `Result::unwrap()` on an `Err` value: " ++ e)) := by
        unfold verifyOciArtifactsOffline
        rw [hconfig, hmain]
        rfl
      refine ⟨fun h => absurd hpanic (h.noPanic _), fun h => ?_⟩
      have hok := h.main
      rw [hmain] at hok
      cases hok
  | ok u =>
      cases htag : set.tagAttestation with
      | none =>
          have hpanic : verifyOciArtifactsOffline v around set configPath =
              .error (.panic "called `Option::unwrap()` on a `None` value") := by
            unfold verifyOciArtifactsOffline
            rw [hconfig, hmain, htag]
            rfl
          refine ⟨fun h => absurd hpanic (h.noPanic _), fun h => ?_⟩
          obtain ⟨tag, htag', -⟩ := h.attestation
          rw [htag] at htag'
          cases htag'
      | some tag =>
          have heq := verifyOciArtifactsOffline_eq hconfig hmain htag
          rcases verifyAttestation_cases v around tag set.digest with
            ⟨payload, hattested, hpolicy⟩ | ⟨hnone, e, herror⟩
          · rw [hpolicy] at heq
            exact binds_iff_sound_attested hconfig hmain htag hattested heq
          · rw [herror] at heq
            have hsound : Sound v around set config :=
              ⟨hmain, tag, htag, fun blob payload hblob hattests =>
                absurd ⟨blob, hblob, hattests⟩ (hnone payload)⟩
            exact ⟨fun _ => hsound, fun _ => bindsToArtifact_of_error heq⟩

/-- A signature and an attestation bind what is accepted, and whatever fails is an error, if and only
if the configuration can be loaded and the set is sound for it. -/
theorem bindsToArtifact_iff (v : Verifier) (around : Surroundings) (set : OciArtifactSet)
    (configPath : Option String) :
    BindsToArtifact v around set configPath ↔
      (configPath = none → ∃ config, loadVerificationConfig v around = .ok config) ∧
        ∀ config, verificationConfig v around configPath = .ok config →
          Sound v around set config := by
  constructor
  · intro hbinds
    refine ⟨fun hnone => ?_, fun config hconfig => (binds_iff_sound hconfig).1 hbinds⟩
    subst hnone
    rcases load_cases v around with hload | ⟨message, hpanic⟩
    · exact hload
    · have hrun : verifyOciArtifactsOffline v around set none = .error (.panic message) := by
        unfold verifyOciArtifactsOffline verificationConfig
        rw [hpanic]
        rfl
      exact absurd hrun (hbinds.noPanic message)
  · rintro ⟨hload, hsound⟩
    cases hconfig : verificationConfig v around configPath with
    | ok config => exact (binds_iff_sound hconfig).2 (hsound config hconfig)
    | error failure =>
        have hrun : verifyOciArtifactsOffline v around set configPath = .error failure := by
          unfold verifyOciArtifactsOffline
          rw [hconfig]
          rfl
        cases failure with
        | error e => exact bindsToArtifact_of_error hrun
        | panic message =>
            cases configPath with
            | some path => exact absurd hconfig (verificationConfig_ne_panic path message)
            | none =>
                obtain ⟨config, hok⟩ := hload rfl
                have hload' : loadVerificationConfig v around = .error (.panic message) := hconfig
                rw [hok] at hload'
                cases hload'

end

/-! ## A signature of a few bytes -/

def utf8 (text : String) : Bytes :=
  text.toByteArray.data.toList

def emptyManifest : Bytes :=
  utf8 "\x7b\"config\":\x7b\x7d,\"layers\":[]\x7d"

def emptyManifestHex : String := "f53e9334367d65dd27d02cff1c8ce230fb432277d2018ac4936dbce8d92f1ae2"

/-- The payload of the envelope, in base64. -/
def provenanceB64 : String :=
  "eyJzdWJqZWN0IjpbeyJkaWdlc3QiOnsic2hhMjU2IjoiZjUzZTkzMzQzNjdkNjVkZDI3ZDAyY2ZmMWM4Y2UyMzBmYjQzMj" ++
    "I3N2QyMDE4YWM0OTM2ZGJjZThkOTJmMWFlMiJ9fV0sInByZWRpY2F0ZVR5cGUiOiJodHRwczovL3Nsc2EuZGV2L3Byb3Zl" ++
    "bmFuY2UvdjEifQ=="

def provenance : Bytes :=
  utf8 ("\x7b\"subject\":[\x7b\"digest\":\x7b\"sha256\":\"" ++ emptyManifestHex ++
    "\"\x7d\x7d],\"predicateType\":\"https://slsa.dev/provenance/v1\"\x7d")

def provenanceEnvelope : Bytes :=
  utf8 ("\x7b\"payload\":\"" ++ provenanceB64 ++ "\"\x7d")

def openPolicy : Bytes := utf8 "\x7b\x7d"

/-- The start of a signature in the binary form. -/
def binarySignature : Bytes := [0x30, 0x45]

/-- The answers on the contents of the three archives; the policy has no rules. -/
def provenanceVerifier : Verifier where
  sha256 contents :=
    if contents = emptyManifest then
      [0xf5, 0x3e, 0x93, 0x34, 0x36, 0x7d, 0x65, 0xdd, 0x27, 0xd0, 0x2c, 0xff, 0x1c, 0x8c,
        0xe2, 0x30, 0xfb, 0x43, 0x22, 0x77, 0xd2, 0x01, 0x8a, 0xc4, 0x93, 0x6d, 0xbc, 0xe8,
        0xd9, 0x2f, 0x1a, 0xe2]
    else []
  value contents :=
    if contents = openPolicy then .ok (.object [])
    else if contents = provenanceEnvelope then
      .ok (.object [("payload", .string provenanceB64)])
    else if contents = provenance then
      .ok (.object [("predicateType", .string "https://slsa.dev/provenance/v1"),
        ("subject", .array [.object [("digest", .object [("sha256", .string emptyManifestHex)])]])])
    else .error "expected value at line 1 column 1"
  manifest contents :=
    if contents = emptyManifest then .ok ⟨none, .object [], []⟩
    else .error "missing field config"
  moduleResp _ := .error "missing field track"
  targzToZipBytes _ := .error "Failed to decompress tar.gz"
  base64 text :=
    if text = provenanceB64 then .ok provenance else .error "Invalid byte"
  rego _ _ := .ok none

def provenanceArchives : Surroundings where
  archive path :=
    if path = "main.tar.gz" then .ok [⟨"blobs/sha256/" ++ emptyManifestHex, emptyManifest⟩]
    else if path = "attestation.tar.gz" then
      .ok [⟨"attestation.json", provenanceEnvelope⟩, ⟨"digest.txt", utf8 "sha256:1"⟩]
    else if path = "signature.tar.gz" then
      .ok [⟨"signature.json", binarySignature⟩, ⟨"digest.txt", utf8 "sha256:2"⟩]
    else .error "No such file or directory (os error 2)"
  configFile _ := none
  attestationPolicy := some openPolicy

def provenanceSet : OciArtifactSet where
  ociArtifactPath := "oci-artifacts/"
  digest := "sha256:" ++ emptyManifestHex
  tagMain := "main"
  tagSignature := some "signature"
  tagAttestation := some "attestation"

/-- Two bytes that name no digest pass for a signature. -/
theorem binary_signature_not_bound :
    verifyOciArtifactsOffline provenanceVerifier provenanceArchives provenanceSet none = .ok () ∧
      ¬ BindsToArtifact provenanceVerifier provenanceArchives provenanceSet none := by
  have hrun : verifyOciArtifactsOffline provenanceVerifier provenanceArchives provenanceSet none =
      .ok () := by
    decide +kernel
  refine ⟨hrun, fun hbinds => ?_⟩
  obtain ⟨config, -, hbound⟩ := hbinds.bound hrun
  obtain ⟨tag, blob, htag, hblob, signature, hvalue, -⟩ := hbound.signature
  obtain rfl : "signature" = tag := Option.some.inj htag
  have hsaved : signatureBlob provenanceArchives "signature" = .ok ⟨"sha256:2", binarySignature⟩ := by
    decide +kernel
  obtain rfl := Except.ok.inj (hsaved.symm.trans hblob)
  have herror : provenanceVerifier.value binarySignature =
      .error "expected value at line 1 column 1" := by
    decide +kernel
  rw [herror] at hvalue
  cases hvalue

end Oci
end InfraWeave
