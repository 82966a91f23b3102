import InfraWeave.Defs.Json
import InfraWeave.Defs.Module
import InfraWeave.Lib.Fallible
import InfraWeave.Lib.Text

/-!
# OCI artifacts of modules

A runner verifies the archive of a module against the digest that was published, and then extracts
the zip file and the description of the module from it: two passes over the same tar entries.
-/

namespace InfraWeave
namespace Oci

abbrev Bytes := List UInt8

/-- An entry of a tar archive, with the path as a text. -/
structure Entry where
  path : String
  contents : Bytes
  deriving DecidableEq

structure LayerDesc where
  mediaType : String
  size : Nat
  digest : String
  deriving DecidableEq

structure OciManifest where
  mediaType : Option String
  config : Json
  layers : List LayerDesc
  deriving DecidableEq

/-- What is used of other packages: the hash function, the readers of JSON, and the conversion of an
archive of the older format. -/
structure Library where
  sha256 : Bytes → Bytes
  value : Bytes → Except String Json
  manifest : Bytes → Except String OciManifest
  moduleResp : Json → Except String ModuleResp
  targzToZipBytes : Bytes → Except String Bytes

/-! ## Texts -/

/-- `{:x}` of a digest. -/
def hex (bytes : Bytes) : String :=
  .ofList (bytes.flatMap fun b => [Nat.digitChar (b.toNat / 16), Nat.digitChar (b.toNat % 16)])

/-- `Path::file_name`: the last component, unless it is `..`. -/
def fileName (path : String) : Option String :=
  match ((Text.split '/' path).filter fun part => part ≠ "" ∧ part ≠ ".").getLast? with
  | some part => if part = ".." then none else some part
  | none => none

def isBlob (path : String) : Bool :=
  "blobs/sha256/".toList.isPrefixOf path.toList && path.toList.getLast? ≠ some '/'

def isAsciiHexdigit (c : Char) : Bool :=
  c.isDigit || ('a' ≤ c && c ≤ 'f') || ('A' ≤ c && c ≤ 'F')

def orError {α : Type} (message : String) : Option α → Except String α
  | some a => .ok a
  | none => .error message

/-- The text without `sha256:`, or as it is. -/
def withoutPrefix (digest : String) : String :=
  (Text.stripPrefix "sha256:" digest).getD digest

variable (lib : Library)

namespace Library

def computedHex (contents : Bytes) : String :=
  hex (lib.sha256 contents)

def digest (contents : Bytes) : String :=
  "sha256:" ++ lib.computedHex contents

end Library

/-! ## The verifier -/

/-- `index["manifests"][0]["digest"]`. -/
def indexDigest (index : Json) : Option String :=
  ((((index.get? "manifests").bind Json.asArray).bind List.head?).bind
    fun manifest => manifest.get? "digest").bind Json.asStr

structure Verification where
  manifestBytes : Option Bytes
  layerCount : Nat
  configDigest : Option String
  deriving DecidableEq

def requireDigest (computed expected message : String) : Except String Unit :=
  if computed ≠ expected then .error message else .ok ()

def verifyEntry (expectedDigest : String) (state : Verification) (entry : Entry) :
    Except String Verification :=
  if entry.path = "index.json" then do
    let index ← lib.value entry.contents
    match indexDigest index with
    | some digest =>
        if digest ≠ expectedDigest then
          .error ("Manifest digest in index.json (" ++ digest ++
            ") doesn't match expected digest (" ++ expectedDigest ++ ")")
        else .ok state
    | none => .ok state
  else if isBlob entry.path then do
    let filename ← orError "called `Option::unwrap()` on a `None` value" (fileName entry.path)
    let expectedHex := withoutPrefix expectedDigest
    let computedHex := lib.computedHex entry.contents
    if filename = expectedHex then do
      let manifest ← lib.manifest entry.contents
      let configDigest := match (manifest.config.get? "digest").bind Json.asStr with
        | some configDig => some (withoutPrefix configDig)
        | none => state.configDigest
      requireDigest computedHex expectedHex ("Manifest digest mismatch: expected " ++ expectedHex ++
        ", computed " ++ computedHex)
      .ok { state with manifestBytes := some entry.contents, configDigest := configDigest }
    else if state.configDigest = some filename then do
      requireDigest computedHex filename ("Config digest mismatch for " ++ filename ++
        ": computed " ++ computedHex)
      .ok state
    else do
      -- The config counts as a layer when it comes before the manifest.
      requireDigest computedHex filename ("Layer digest mismatch for " ++ filename ++
        ": computed " ++ computedHex)
      .ok { state with layerCount := state.layerCount + 1 }
  else .ok state

def verifyLayer (i : Nat) (layer : LayerDesc) : Except String Unit :=
  match Text.stripPrefix "sha256:" layer.digest with
  | none => .error ("Layer " ++ toString i ++ " has invalid digest format: " ++ layer.digest)
  | some digestHex =>
      if digestHex.utf8ByteSize ≠ 64 then
        .error ("Layer " ++ toString i ++ " has invalid digest length: " ++
          toString digestHex.utf8ByteSize)
      else if !digestHex.toList.all isAsciiHexdigit then
        .error ("Layer " ++ toString i ++ " digest contains invalid hex characters")
      else .ok ()

/-- Equal sizes of layers and empty layers are only warned of. -/
def verifyOciArtifactIntegrity (manifestBytes : Bytes) (layers : List LayerDesc)
    (subjectDigest : String) : Except String Unit := do
  let computed := lib.digest manifestBytes
  if subjectDigest ≠ computed then
    .error ("Manifest digest mismatch: expected " ++ subjectDigest ++ ", computed " ++ computed)
  else layers.zipIdx.forM fun (layer, i) => verifyLayer i layer

def verifyMainArtifactOffline (archive : List Entry) (expectedDigest : String) :
    Except String Unit := do
  let state ← archive.foldlM (verifyEntry lib expectedDigest) ⟨none, 0, none⟩
  let manifestData ← orError "Manifest blob not found in artifact" state.manifestBytes
  let manifest ← lib.manifest manifestData
  if manifest.layers.length ≠ state.layerCount then
    .error ("Layer count mismatch: manifest declares " ++ toString manifest.layers.length ++
      " layers but found " ++ toString state.layerCount ++ " layer files")
  else verifyOciArtifactIntegrity lib manifestData manifest.layers expectedDigest

/-! ## The extractor -/

structure OciArtifactData where
  blobs : List (String × Bytes)
  manifest : Json

def parseEntry (state : Option Json × List (String × Bytes)) (entry : Entry) :
    Except String (Option Json × List (String × Bytes)) :=
  if entry.path = "index.json" then do
    let index ← lib.value entry.contents
    .ok (some index, state.2)
  else if isBlob entry.path then do
    let filename ← orError "Failed to get blob filename" (fileName entry.path)
    .ok (state.1, OrderedMap.insert filename entry.contents state.2)
  else .ok state

def parseOciArtifact (archive : List Entry) : Except String OciArtifactData := do
  let (indexJson, blobs) ← archive.foldlM (parseEntry lib) (none, [])
  let index ← orError "index.json not found in OCI artifact" indexJson
  let manifestDigest ← orError "No manifest digest found" (indexDigest index)
  let manifestHex ← orError "Invalid manifest digest format"
    (Text.stripPrefix "sha256:" manifestDigest)
  let manifestContent ← orError "Manifest blob not found" (blobs.lookup manifestHex)
  let manifest ← lib.value manifestContent
  .ok ⟨blobs, manifest⟩

def firstLayer (manifest : Json) : Option Json :=
  ((manifest.get? "layers").bind Json.asArray).bind List.head?

def getModuleZipFromOciTargz (archive : List Entry) : Except String Bytes := do
  let artifact ← parseOciArtifact lib archive
  let layer ← orError "No layers found in manifest" (firstLayer artifact.manifest)
  let layerDigest ← orError "Layer digest not found" ((layer.get? "digest").bind Json.asStr)
  let layerMediaType ← orError "Layer media type not found"
    ((layer.get? "mediaType").bind Json.asStr)
  let layerHex ← orError "Invalid layer digest format" (Text.stripPrefix "sha256:" layerDigest)
  let layerContent ← orError "Layer blob not found" (artifact.blobs.lookup layerHex)
  if Text.contains layerMediaType "infraweave.module" && Text.contains layerMediaType "zip" then
    .ok layerContent
  else if Text.contains layerMediaType "tar+gzip" || Text.contains layerMediaType "tar.gz" then
    lib.targzToZipBytes layerContent
  else .error ("Unsupported layer media type: " ++ layerMediaType)

def configDigest (manifest : Json) : Option String :=
  ((manifest.get? "config").bind fun config => config.get? "digest").bind Json.asStr

def getModuleManifestFromOciTargz (archive : List Entry) : Except String ModuleResp := do
  let artifact ← parseOciArtifact lib archive
  let configDigest ← orError "No config digest found" (configDigest artifact.manifest)
  let configHex ← orError "Invalid config digest format" (Text.stripPrefix "sha256:" configDigest)
  let configContent ← orError "Config blob not found" (artifact.blobs.lookup configHex)
  let config ← lib.value configContent
  let moduleValue ← orError "No 'module' field found in config blob" (config.get? "module")
  (lib.moduleResp moduleValue).mapError fun _ => "Failed to deserialize module from config"

/-! ## What is verified -/

section

variable {lib : Library}

theorem stripPrefix_eq_some {start s rest : String} (h : Text.stripPrefix start s = some rest) :
    s = start ++ rest := by
  unfold Text.stripPrefix at h
  split at h
  · rename_i hprefix
    obtain ⟨tail, htail⟩ := List.isPrefixOf_iff_prefix.1 hprefix
    have hrest := Option.some.inj h
    rw [← htail, List.drop_left] at hrest
    rw [← String.toList_inj, String.toList_append, ← hrest, String.toList_ofList, htail]
  · cases h

theorem orError_eq_ok {α : Type} {message : String} {x : Option α} {a : α}
    (h : orError message x = .ok a) : x = some a := by
  cases x with
  | none => cases h
  | some b => rw [Except.ok.inj h]

theorem requireDigest_eq_ok {computed expected message : String}
    (h : requireDigest computed expected message = .ok ()) : computed = expected := by
  unfold requireDigest at h
  split at h
  · cases h
  · rename_i hne
    exact not_not.1 hne

/-- The name of the entry is the digest of its contents. -/
def Library.Verified (lib : Library) (entry : Entry) : Prop :=
  fileName entry.path = some (lib.computedHex entry.contents)

/-- What passes the verifier: an index that names the expected digest if it names one, and a blob
under its digest. -/
structure Passes (lib : Library) (expectedDigest : String) (entry : Entry) : Prop where
  index : entry.path = "index.json" → ∀ index, lib.value entry.contents = .ok index →
    ∀ digest, indexDigest index = some digest → digest = expectedDigest
  blob : entry.path ≠ "index.json" → isBlob entry.path = true → lib.Verified entry

/-- Whatever the verifier takes a blob for, it compares the digest with the name. -/
theorem passes_of_verifyEntry {expectedDigest : String} {state state' : Verification}
    {entry : Entry} (h : verifyEntry lib expectedDigest state entry = .ok state') :
    Passes lib expectedDigest entry := by
  unfold verifyEntry at h
  constructor
  · intro hpath index hindex digest hdigest
    rw [if_pos hpath, hindex, ok_bind, hdigest] at h
    dsimp only at h
    split at h
    · cases h
    · rename_i hne
      exact not_not.1 hne
  · intro hpath hblob
    rw [if_neg hpath, if_pos hblob] at h
    obtain ⟨filename, hname, h⟩ := bind_eq_ok_iff.1 h
    have hname := orError_eq_ok hname
    unfold Library.Verified
    rw [hname, Option.some_inj]
    dsimp only at h
    split at h
    · rename_i hmanifest
      obtain ⟨manifest, -, h⟩ := bind_eq_ok_iff.1 h
      obtain ⟨_, hdigest, -⟩ := bind_eq_ok_iff.1 h
      exact hmanifest.trans (requireDigest_eq_ok hdigest).symm
    · split at h
      · obtain ⟨_, hdigest, -⟩ := bind_eq_ok_iff.1 h
        exact (requireDigest_eq_ok hdigest).symm
      · obtain ⟨_, hdigest, -⟩ := bind_eq_ok_iff.1 h
        exact (requireDigest_eq_ok hdigest).symm

/-- An archive that is accepted has only entries that pass, and the expected digest is the digest
of some contents. -/
theorem passes_of_verified {archive : List Entry} {expectedDigest : String}
    (h : verifyMainArtifactOffline lib archive expectedDigest = .ok ()) :
    (∀ entry ∈ archive, Passes lib expectedDigest entry) ∧
      ∃ contents, expectedDigest = lib.digest contents := by
  obtain ⟨state, hstate, h⟩ := bind_eq_ok_iff.1 h
  obtain ⟨manifestData, -, h⟩ := bind_eq_ok_iff.1 h
  obtain ⟨manifest, -, h⟩ := bind_eq_ok_iff.1 h
  refine ⟨forall_of_foldlM hstate fun s entry t => passes_of_verifyEntry, manifestData, ?_⟩
  split at h
  · cases h
  · unfold verifyOciArtifactIntegrity at h
    dsimp only at h
    split at h
    · cases h
    · rename_i hne
      exact not_not.1 hne

/-! ## What is extracted -/

/-- Contents of the archive, under their digest. -/
def Stored (lib : Library) (archive : List Entry) (contents : Bytes) : Prop :=
  ∃ entry ∈ archive, isBlob entry.path = true ∧ entry.contents = contents ∧ lib.Verified entry

/-- What the extractor has collected comes from the entries it has passed. -/
structure Collected (lib : Library) (archive : List Entry)
    (state : Option Json × List (String × Bytes)) : Prop where
  index : ∀ index, state.1 = some index → ∃ entry ∈ archive, entry.path = "index.json" ∧
    lib.value entry.contents = .ok index
  blobs : ∀ name contents, state.2.lookup name = some contents → ∃ entry ∈ archive,
    entry.path ≠ "index.json" ∧ isBlob entry.path = true ∧ fileName entry.path = some name ∧
      entry.contents = contents

theorem collected_parseEntry {archive : List Entry}
    {state state' : Option Json × List (String × Bytes)} {entry : Entry}
    (hentry : entry ∈ archive) (hstate : Collected lib archive state)
    (h : parseEntry lib state entry = .ok state') : Collected lib archive state' := by
  unfold parseEntry at h
  split at h
  · rename_i hpath
    obtain ⟨index, hindex, h⟩ := bind_eq_ok_iff.1 h
    obtain rfl := Except.ok.inj h
    refine ⟨fun index' h' => ?_, hstate.blobs⟩
    obtain rfl := Option.some.inj h'
    exact ⟨entry, hentry, hpath, hindex⟩
  · rename_i hpath
    split at h
    · rename_i hblob
      obtain ⟨filename, hname, h⟩ := bind_eq_ok_iff.1 h
      have hname := orError_eq_ok hname
      obtain rfl := Except.ok.inj h
      refine ⟨hstate.index, fun name contents hlookup => ?_⟩
      dsimp only at hlookup
      rw [OrderedMap.lookup_insert] at hlookup
      split at hlookup
      · rename_i hsame
        exact ⟨entry, hentry, hpath, hblob, hname.trans (by rw [hsame]),
          Option.some.inj hlookup⟩
      · exact hstate.blobs name contents hlookup
    · obtain rfl := Except.ok.inj h
      exact hstate

/-- The manifest of what is extracted has the digest that the index names, and its blobs come from
the archive. -/
theorem parsed_artifact {archive : List Entry} {artifact : OciArtifactData}
    (h : parseOciArtifact lib archive = .ok artifact) :
    ∃ index manifestHex manifestContent, (∃ entry ∈ archive, entry.path = "index.json" ∧
        lib.value entry.contents = .ok index) ∧
      indexDigest index = some ("sha256:" ++ manifestHex) ∧
      artifact.blobs.lookup manifestHex = some manifestContent ∧
      lib.value manifestContent = .ok artifact.manifest ∧
      ∀ name contents, artifact.blobs.lookup name = some contents → ∃ entry ∈ archive,
        entry.path ≠ "index.json" ∧ isBlob entry.path = true ∧ fileName entry.path = some name ∧
          entry.contents = contents := by
  obtain ⟨⟨indexJson, blobs⟩, hfold, h⟩ := bind_eq_ok_iff.1 h
  obtain ⟨index, hindex, h⟩ := bind_eq_ok_iff.1 h
  obtain ⟨manifestDigest, hdigest, h⟩ := bind_eq_ok_iff.1 h
  obtain ⟨manifestHex, hhex, h⟩ := bind_eq_ok_iff.1 h
  obtain ⟨manifestContent, hcontent, h⟩ := bind_eq_ok_iff.1 h
  obtain ⟨manifest, hmanifest, h⟩ := bind_eq_ok_iff.1 h
  obtain rfl := Except.ok.inj h
  have hcollected : Collected lib archive (indexJson, blobs) :=
    foldlM_invariant hfold (fun s entry hentry t hs => collected_parseEntry hentry hs)
      ⟨(fun index h => by cases h), fun name contents h => by cases h⟩
  have hnamed : indexDigest index = some ("sha256:" ++ manifestHex) := by
    rw [orError_eq_ok hdigest, stripPrefix_eq_some (orError_eq_ok hhex)]
  exact ⟨index, manifestHex, manifestContent, hcollected.index index (orError_eq_ok hindex), hnamed,
    orError_eq_ok hcontent, hmanifest, hcollected.blobs⟩

/-! ## The extractor uses what was verified -/

/-- The manifest of an artifact is of the bytes with the expected digest. -/
def OfDigest (lib : Library) (archive : List Entry) (expectedDigest : String) (manifest : Json) :
    Prop :=
  ∃ manifestBytes, Stored lib archive manifestBytes ∧
    lib.digest manifestBytes = expectedDigest ∧ lib.value manifestBytes = .ok manifest

theorem verified_artifact {archive : List Entry} {expectedDigest : String}
    (hverified : verifyMainArtifactOffline lib archive expectedDigest = .ok ())
    {artifact : OciArtifactData} (h : parseOciArtifact lib archive = .ok artifact) :
    OfDigest lib archive expectedDigest artifact.manifest ∧
      ∀ name contents, artifact.blobs.lookup name = some contents →
        Stored lib archive contents ∧ lib.computedHex contents = name := by
  obtain ⟨hpasses, -⟩ := passes_of_verified hverified
  obtain ⟨index, manifestHex, manifestContent, ⟨entry, hentry, hpath, hindex⟩, hdigest, hcontent,
    hmanifest, hblobs⟩ := parsed_artifact h
  have hblobs' : ∀ name contents, artifact.blobs.lookup name = some contents →
      Stored lib archive contents ∧ lib.computedHex contents = name := by
    intro name contents hlookup
    obtain ⟨blob, hblob, hnot, hisBlob, hname, rfl⟩ := hblobs name contents hlookup
    have hverifiedBlob := (hpasses blob hblob).blob hnot hisBlob
    exact ⟨⟨blob, hblob, hisBlob, rfl, hverifiedBlob⟩,
      Option.some.inj (hverifiedBlob.symm.trans hname)⟩
  refine ⟨⟨manifestContent, (hblobs' _ _ hcontent).1, ?_, hmanifest⟩, hblobs'⟩
  have hexpected := (hpasses entry hentry).index hpath index hindex _ hdigest
  rw [← hexpected, Library.digest, (hblobs' _ _ hcontent).2]

/-- When an archive is accepted for a digest, the extractor reads verified blobs only, works on the
manifest of that digest, and gives the contents of its first layer and of its config. -/
theorem verified_content_used (lib : Library) (archive : List Entry) (d : String)
    (hverified : verifyMainArtifactOffline lib archive d = .ok ()) :
    (∀ artifact, parseOciArtifact lib archive = .ok artifact →
      OfDigest lib archive d artifact.manifest ∧
        ∀ name contents, artifact.blobs.lookup name = some contents →
          Stored lib archive contents ∧ lib.computedHex contents = name) ∧
    (∀ zip, getModuleZipFromOciTargz lib archive = .ok zip →
      ∃ manifest layer content, OfDigest lib archive d manifest ∧
        firstLayer manifest = some layer ∧ Stored lib archive content ∧
        (layer.get? "digest").bind Json.asStr = some (lib.digest content) ∧
        (zip = content ∨ lib.targzToZipBytes content = .ok zip)) ∧
    ∀ module, getModuleManifestFromOciTargz lib archive = .ok module →
      ∃ manifest content config moduleValue, OfDigest lib archive d manifest ∧
        Stored lib archive content ∧ configDigest manifest = some (lib.digest content) ∧
        lib.value content = .ok config ∧ config.get? "module" = some moduleValue ∧
        lib.moduleResp moduleValue = .ok module := by
  refine ⟨fun artifact => verified_artifact hverified, fun zip h => ?_, fun module h => ?_⟩
  · obtain ⟨artifact, hartifact, h⟩ := bind_eq_ok_iff.1 h
    obtain ⟨layer, hlayer, h⟩ := bind_eq_ok_iff.1 h
    obtain ⟨layerDigest, hdigest, h⟩ := bind_eq_ok_iff.1 h
    obtain ⟨mediaType, -, h⟩ := bind_eq_ok_iff.1 h
    obtain ⟨layerHex, hhex, h⟩ := bind_eq_ok_iff.1 h
    obtain ⟨content, hcontent, h⟩ := bind_eq_ok_iff.1 h
    obtain ⟨hmanifest, hblobs⟩ := verified_artifact hverified hartifact
    obtain ⟨hstored, hname⟩ := hblobs layerHex content (orError_eq_ok hcontent)
    refine ⟨artifact.manifest, layer, content, hmanifest, orError_eq_ok hlayer, hstored, ?_, ?_⟩
    · rw [orError_eq_ok hdigest, stripPrefix_eq_some (orError_eq_ok hhex), Library.digest, hname]
    · split at h
      · exact Or.inl (Except.ok.inj h).symm
      · split at h
        · exact Or.inr h
        · cases h
  · obtain ⟨artifact, hartifact, h⟩ := bind_eq_ok_iff.1 h
    obtain ⟨digest, hdigest, h⟩ := bind_eq_ok_iff.1 h
    obtain ⟨configHex, hhex, h⟩ := bind_eq_ok_iff.1 h
    obtain ⟨content, hcontent, h⟩ := bind_eq_ok_iff.1 h
    obtain ⟨config, hconfig, h⟩ := bind_eq_ok_iff.1 h
    obtain ⟨moduleValue, hvalue, h⟩ := bind_eq_ok_iff.1 h
    obtain ⟨hmanifest, hblobs⟩ := verified_artifact hverified hartifact
    obtain ⟨hstored, hname⟩ := hblobs configHex content (orError_eq_ok hcontent)
    refine ⟨artifact.manifest, content, config, moduleValue, hmanifest, hstored, ?_, hconfig,
      orError_eq_ok hvalue, mapError_eq_ok_iff.1 h⟩
    rw [orError_eq_ok hdigest, stripPrefix_eq_some (orError_eq_ok hhex), Library.digest, hname]

end

/-! ## An artifact with one layer -/

def webLayer : Bytes :=
  [0x50, 0x4b, 0x03, 0x04, 0x7a, 0x69, 0x70]

def webLayerHex : String := "1171d55c61a4107d133a28904611ae09f32c15bc1cfb951caa9388bbc9ae16e9"

def webConfigHex : String := "9a9d0c1a20c126f794d21ea55081aab99e57f516704e1f933b19e9ae30e34914"

def webManifestHex : String := "e7502349d9706acf8ef747d4298d31303cc6a09043efefafb56a97c54fb74b70"

/-- An object with an empty `module`. -/
def webConfig : Bytes :=
  [123, 34, 109, 111, 100, 117, 108, 101, 34, 58, 123, 125, 125]

/-- An object with the digest of the config, and the one layer. -/
def webManifestBytes : Bytes :=
  [123, 34, 99, 111, 110, 102, 105, 103, 34, 58, 123, 34, 100, 105, 103, 101, 115, 116, 34, 58,
   34, 115, 104, 97, 50, 53, 54, 58, 57, 97, 57, 100, 48, 99, 49, 97, 50, 48, 99, 49, 50, 54, 102,
   55, 57, 52, 100, 50, 49, 101, 97, 53, 53, 48, 56, 49, 97, 97, 98, 57, 57, 101, 53, 55, 102, 53,
   49, 54, 55, 48, 52, 101, 49, 102, 57, 51, 51, 98, 49, 57, 101, 57, 97, 101, 51, 48, 101, 51,
   52, 57, 49, 52, 34, 125, 44, 34, 108, 97, 121, 101, 114, 115, 34, 58, 91, 123, 34, 109, 101,
   100, 105, 97, 84, 121, 112, 101, 34, 58, 34, 97, 112, 112, 108, 105, 99, 97, 116, 105, 111,
   110, 47, 118, 110, 100, 46, 105, 110, 102, 114, 97, 119, 101, 97, 118, 101, 46, 109, 111, 100,
   117, 108, 101, 46, 118, 49, 46, 122, 105, 112, 34, 44, 34, 115, 105, 122, 101, 34, 58, 55, 44,
   34, 100, 105, 103, 101, 115, 116, 34, 58, 34, 115, 104, 97, 50, 53, 54, 58, 49, 49, 55, 49,
   100, 53, 53, 99, 54, 49, 97, 52, 49, 48, 55, 100, 49, 51, 51, 97, 50, 56, 57, 48, 52, 54, 49,
   49, 97, 101, 48, 57, 102, 51, 50, 99, 49, 53, 98, 99, 49, 99, 102, 98, 57, 53, 49, 99, 97, 97,
   57, 51, 56, 56, 98, 98, 99, 57, 97, 101, 49, 54, 101, 57, 34, 125, 93, 125]

/-- An object with one entry in `manifests`, of the digest of the manifest. -/
def webIndex : Bytes :=
  [123, 34, 109, 97, 110, 105, 102, 101, 115, 116, 115, 34, 58, 91, 123, 34, 100, 105, 103, 101,
   115, 116, 34, 58, 34, 115, 104, 97, 50, 53, 54, 58, 101, 55, 53, 48, 50, 51, 52, 57, 100, 57,
   55, 48, 54, 97, 99, 102, 56, 101, 102, 55, 52, 55, 100, 52, 50, 57, 56, 100, 51, 49, 51, 48,
   51, 99, 99, 54, 97, 48, 57, 48, 52, 51, 101, 102, 101, 102, 97, 102, 98, 53, 54, 97, 57, 55,
   99, 53, 52, 102, 98, 55, 52, 98, 55, 48, 34, 125, 93, 125]

/-- The answers on the contents of the artifact. -/
def webLibrary : Library where
  sha256 contents :=
    if contents = webLayer then
      [0x11, 0x71, 0xd5, 0x5c, 0x61, 0xa4, 0x10, 0x7d, 0x13, 0x3a, 0x28, 0x90, 0x46, 0x11,
        0xae, 0x09, 0xf3, 0x2c, 0x15, 0xbc, 0x1c, 0xfb, 0x95, 0x1c, 0xaa, 0x93, 0x88, 0xbb,
        0xc9, 0xae, 0x16, 0xe9]
    else if contents = webConfig then
      [0x9a, 0x9d, 0x0c, 0x1a, 0x20, 0xc1, 0x26, 0xf7, 0x94, 0xd2, 0x1e, 0xa5, 0x50, 0x81,
        0xaa, 0xb9, 0x9e, 0x57, 0xf5, 0x16, 0x70, 0x4e, 0x1f, 0x93, 0x3b, 0x19, 0xe9, 0xae,
        0x30, 0xe3, 0x49, 0x14]
    else if contents = webManifestBytes then
      [0xe7, 0x50, 0x23, 0x49, 0xd9, 0x70, 0x6a, 0xcf, 0x8e, 0xf7, 0x47, 0xd4, 0x29, 0x8d,
        0x31, 0x30, 0x3c, 0xc6, 0xa0, 0x90, 0x43, 0xef, 0xef, 0xaf, 0xb5, 0x6a, 0x97, 0xc5,
        0x4f, 0xb7, 0x4b, 0x70]
    else []
  value contents :=
    if contents = webIndex then
      .ok (.object [("manifests", .array
        [.object [("digest", .string ("sha256:" ++ webManifestHex))]])])
    else if contents = webManifestBytes then
      .ok (.object [("config", .object [("digest", .string ("sha256:" ++ webConfigHex))]),
        ("layers", .array [.object
          [("digest", .string ("sha256:" ++ webLayerHex)),
            ("mediaType", .string "application/vnd.infraweave.module.v1.zip"),
            ("size", .number (.int 7))]])])
    else if contents = webConfig then .ok (.object [("module", .object [])])
    else .error "expected value at line 1 column 1"
  manifest contents :=
    if contents = webManifestBytes then
      .ok ⟨none, .object [("digest", .string ("sha256:" ++ webConfigHex))],
        [⟨"application/vnd.infraweave.module.v1.zip", 7, "sha256:" ++ webLayerHex⟩]⟩
    else .error "missing field config"
  moduleResp _ := .error "missing field track"
  targzToZipBytes _ := .error "Failed to decompress tar.gz"

def webArchive : List Entry :=
  [⟨"index.json", webIndex⟩, ⟨"blobs/sha256/" ++ webManifestHex, webManifestBytes⟩,
   ⟨"blobs/sha256/" ++ webConfigHex, webConfig⟩, ⟨"blobs/sha256/" ++ webLayerHex, webLayer⟩]

/-- The zip file of the artifact is the layer of the manifest with the digest. -/
theorem verified_content_used_web : ∃ manifest layer content,
    OfDigest webLibrary webArchive ("sha256:" ++ webManifestHex) manifest ∧
      firstLayer manifest = some layer ∧ Stored webLibrary webArchive content ∧
      (layer.get? "digest").bind Json.asStr = some (webLibrary.digest content) ∧
      (webLayer = content ∨ webLibrary.targzToZipBytes content = .ok webLayer) :=
  (verified_content_used webLibrary webArchive ("sha256:" ++ webManifestHex)
    (by decide +kernel)).2.1 webLayer (by decide +kernel)

end Oci
end InfraWeave
