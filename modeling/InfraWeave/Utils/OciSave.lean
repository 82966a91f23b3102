import InfraWeave.Utils.OciAttestation
import Mathlib.Data.List.Dedup

/-!
# Saving an OCI artifact and verifying it offline

The archive of an artifact is written from its manifest: the manifest's blob, the config's, and one
blob for each layer that is listed.  The verifier takes every other blob for a layer and compares
their number with the length of the list.
-/

namespace InfraWeave
namespace Oci

/-- The blobs of a repository, by digest. -/
structure Registry where
  blob : String → Except String Bytes

structure Writer extends Library where
  toVec : Json → Bytes

/-! ## The writer -/

/-- `manifest.config.get("digest")`, as a text. -/
def OciManifest.configDigest (manifest : OciManifest) : Option String :=
  (manifest.config.get? "digest").bind Json.asStr

/-- What the manifest lists: the config and the layers. -/
def OciManifest.listed (manifest : OciManifest) : List String :=
  manifest.configDigest.toList ++ manifest.layers.map LayerDesc.digest

def layoutFile : Json :=
  .object [("imageLayoutVersion", .string "1.0.0")]

def indexJson (digest : String) (size : Nat) : Json :=
  .object [("manifests", .array [.object [("digest", .string digest),
    ("mediaType", .string "application/vnd.oci.image.manifest.v1+json"),
    ("size", .number (.int size))]]), ("schemaVersion", .number (.int 2))]

def blobEntry (hex : String) (contents : Bytes) : Entry :=
  ⟨"blobs/sha256/" ++ hex, contents⟩

/-- A blob of another algorithm than SHA-256 ends the process. -/
def downloadBlob (registry : Registry) (digest : String) : Except Failure Entry := do
  let hex ← unwrapOption (Text.stripPrefix "sha256:" digest)
  let bytes ← propagate (registry.blob digest)
  .ok (blobEntry hex bytes)

def saveMainArtifact (w : Writer) (registry : Registry) (manifestBytes : Bytes)
    (dockerDigest : String) : Except Failure (List Entry) := do
  let digestHex ← propagate
    (orError "digest did not start with sha256:" (Text.stripPrefix "sha256:" dockerDigest))
  let manifest ← propagate (w.manifest manifestBytes)
  let config ← manifest.configDigest.toList.mapM (downloadBlob registry)
  let layers ← (manifest.layers.map LayerDesc.digest).mapM (downloadBlob registry)
  .ok ([⟨"oci-layout", w.toVec layoutFile⟩, ⟨"blobs/", []⟩, ⟨"blobs/sha256/", []⟩,
    blobEntry digestHex manifestBytes,
    ⟨"index.json", w.toVec (indexJson dockerDigest manifestBytes.length)⟩] ++ config ++ layers)

/-! ## What is asked -/

/-- A registry has every blob that is listed, with contents that match the digest, and under the
digest of the manifest the manifest. -/
structure Serves (lib : Library) (registry : Registry) (manifestBytes : Bytes)
    (manifest : OciManifest) : Prop where
  blob : ∀ digest ∈ manifest.listed, ∃ contents, registry.blob digest = .ok contents
  contents : ∀ digest contents, registry.blob digest = .ok contents →
    ∀ hex, Text.stripPrefix "sha256:" digest = some hex → lib.computedHex contents = hex
  manifest : ∀ contents, registry.blob (lib.digest manifestBytes) = .ok contents →
    contents = manifestBytes

/-- What is written into `index.json` is read back. -/
def IndexReadBack (w : Writer) (manifestBytes : Bytes) : Prop :=
  ∃ index, w.value (w.toVec (indexJson (w.digest manifestBytes) manifestBytes.length)) = .ok index ∧
    indexDigest index = some (w.digest manifestBytes)

def AcceptsSaved (w : Writer) (registry : Registry) (manifestBytes : Bytes) : Prop :=
  ∃ archive, saveMainArtifact w registry manifestBytes (w.digest manifestBytes) = .ok archive ∧
    verifyMainArtifactOffline w.toLibrary archive (w.digest manifestBytes) = .ok ()

/-- The name of a blob, for entries that are blobs. -/
def blobName (entry : Entry) : Option String :=
  if entry.path = "index.json" then none
  else if isBlob entry.path then fileName entry.path
  else none

/-- The bytes of the manifest with a digest: the last blob under its name. -/
def manifestOf (hex : String) (archive : List Entry) : Option Bytes :=
  ((archive.filter fun entry => blobName entry = some hex).getLast?).map Entry.contents

/-- The archive has the manifest, and a blob for whatever the manifest lists. -/
def Complete (lib : Library) (archive : List Entry) (digest : String) : Prop :=
  ∃ manifestBytes manifest, manifestOf (withoutPrefix digest) archive = some manifestBytes ∧
    lib.manifest manifestBytes = .ok manifest ∧ ∀ listed ∈ manifest.listed,
      ∃ entry ∈ archive, (blobName entry).isSome = true ∧ lib.digest entry.contents = listed

/-! ## What is counted -/

section

variable (lib : Library) (hex : String)

/-- The config that the manifest with these bytes names. -/
def configOf (contents : Bytes) : Option String :=
  match lib.manifest contents with
  | .ok manifest => manifest.configDigest.map withoutPrefix
  | .error _ => none

/-- The config that is known after an entry. -/
def nextConfig (config : Option String) (entry : Entry) : Option String :=
  if blobName entry = some hex then (configOf lib entry.contents).or config else config

/-- The blobs that count as layers: neither the manifest's, nor the config's once it is known. -/
def countedNames : Option String → List Entry → List String
  | _, [] => []
  | config, entry :: rest =>
      ((blobName entry).filter fun name => name ≠ hex ∧ config ≠ some name).toList ++
        countedNames (nextConfig lib hex config entry) rest

/-- The blobs that are passed as the config. -/
def passedNames : Option String → List Entry → List String
  | _, [] => []
  | config, entry :: rest =>
      ((blobName entry).filter fun name => name ≠ hex ∧ config = some name).toList ++
        passedNames (nextConfig lib hex config entry) rest

end

/-- The layers, each once, that only a counted blob can be. -/
def wantedNames (lib : Library) (hex : String) (archive : List Entry) (manifest : OciManifest) :
    List String :=
  ((manifest.layers.map fun layer => withoutPrefix layer.digest).dedup).filter fun name =>
    name ≠ hex ∧ name ∉ passedNames lib hex none archive

/-- The config has a blob, and as many blobs are counted beyond the wanted ones as layers are listed
beyond them: repeated ones, and ones that the manifest does not list. -/
def CountedForListed (lib : Library) (archive : List Entry) (digest : String) : Prop :=
  ∃ manifestBytes manifest,
    manifestOf (withoutPrefix digest) archive = some manifestBytes ∧
    lib.manifest manifestBytes = .ok manifest ∧
    (∀ config, manifest.configDigest = some config →
      ∃ name ∈ archive.filterMap blobName, config = "sha256:" ++ name) ∧
    ((countedNames lib (withoutPrefix digest) none archive).diff
        (wantedNames lib (withoutPrefix digest) archive manifest)).length =
      ((manifest.layers.map fun layer => withoutPrefix layer.digest).diff
        (wantedNames lib (withoutPrefix digest) archive manifest)).length

/-- Every blob is of SHA-256, and no layer has the digest of the manifest or of the config. -/
structure CountsAllLayers (lib : Library) (manifestBytes : Bytes) (manifest : OciManifest) :
    Prop where
  sha256 : ∀ digest ∈ manifest.listed, (Text.stripPrefix "sha256:" digest).isSome = true
  layers : ∀ layer ∈ manifest.layers, layer.digest ≠ lib.digest manifestBytes ∧
    manifest.configDigest ≠ some layer.digest

/-! ## Covering a list -/

/-- What is left of a list without the wanted elements is too long where one of them is missing. -/
theorem length_le_length_diff {α : Type} [DecidableEq α] (l wanted : List α) :
    l.length ≤ (l.diff wanted).length + wanted.length := by
  induction wanted generalizing l with
  | nil => simp
  | cons a wanted ih =>
      have hrest := ih (l.erase a)
      have herase : l.length ≤ (l.erase a).length + 1 := by
        have := List.length_erase (a := a) (l := l)
        split at this <;> omega
      rw [List.diff_cons, List.length_cons]
      omega

theorem subset_iff_length_diff {α : Type} [DecidableEq α] {l wanted : List α}
    (hwanted : wanted.Nodup) :
    wanted ⊆ l ↔ (l.diff wanted).length + wanted.length = l.length := by
  induction wanted generalizing l with
  | nil => simp
  | cons a wanted ih =>
      rcases List.nodup_cons.1 hwanted with ⟨hfresh, hwanted⟩
      rw [List.diff_cons, List.length_cons, List.cons_subset]
      by_cases ha : a ∈ l
      · have hlength := List.length_erase_add_one ha
        have hsubset : wanted ⊆ l ↔ wanted ⊆ l.erase a := by
          refine ⟨fun h b hb => ?_, fun h b hb => List.mem_of_mem_erase (h hb)⟩
          have hne : b ≠ a := fun heq => hfresh (heq ▸ hb)
          exact (List.mem_erase_of_ne hne).2 (h hb)
        rw [hsubset, ih hwanted]
        constructor
        · rintro ⟨-, h⟩
          omega
        · intro h
          exact ⟨ha, by omega⟩
      · have hlong := length_le_length_diff l wanted
        rw [List.erase_of_not_mem ha]
        constructor
        · rintro ⟨h, -⟩
          exact absurd h ha
        · intro h
          omega

/-! ## Digests as texts -/

theorem hexDigit_digitChar : ∀ n < 16, isAsciiHexdigit (Nat.digitChar n) = true ∧
    (Nat.digitChar n).utf8Size = 1 ∧ Nat.digitChar n ≠ '/' := by
  decide

theorem mem_hexDigits {bytes : Bytes} {c : Char} (h : c ∈ (hex bytes).toList) :
    isAsciiHexdigit c = true ∧ c.utf8Size = 1 ∧ c ≠ '/' := by
  rw [hex, String.toList_ofList] at h
  rcases List.mem_flatMap.1 h with ⟨b, -, hc⟩
  have hb : b.toNat < 256 := b.toNat_lt
  rcases List.mem_cons.1 hc with rfl | hc
  · exact hexDigit_digitChar _ (by omega)
  · rw [List.mem_singleton.1 hc]
    exact hexDigit_digitChar _ (Nat.mod_lt _ (by decide))

theorem length_hex (bytes : Bytes) : (hex bytes).toList.length = 2 * bytes.length := by
  rw [hex, String.toList_ofList]
  induction bytes with
  | nil => rfl
  | cons b bytes ih => simp only [List.flatMap_cons, List.length_append, List.length_cons,
      List.length_nil, ih]; omega

theorem utf8ByteSize_ofList_of_ascii {cs : List Char} (h : ∀ c ∈ cs, c.utf8Size = 1) :
    (String.ofList cs).utf8ByteSize = cs.length := by
  induction cs with
  | nil => rfl
  | cons c cs ih =>
      have hrest := ih fun d hd => h d (List.mem_cons_of_mem _ hd)
      have hc := h c List.mem_cons_self
      rw [String.ofList_cons, String.utf8ByteSize_append, String.utf8ByteSize_singleton, hc, hrest]
      simp [Nat.add_comm]

theorem utf8ByteSize_hex (bytes : Bytes) : (hex bytes).utf8ByteSize = 2 * bytes.length := by
  have hsize := utf8ByteSize_ofList_of_ascii fun c (hc : c ∈ (hex bytes).toList) =>
    (mem_hexDigits hc).2.1
  rw [String.ofList_toList, length_hex] at hsize
  exact hsize

theorem stripPrefix_append (start rest : String) :
    Text.stripPrefix start (start ++ rest) = some rest := by
  simp [Text.stripPrefix]

section

variable {lib : Library}

theorem withoutPrefix_digest (contents : Bytes) :
    withoutPrefix (lib.digest contents) = lib.computedHex contents := by
  simp [withoutPrefix, Library.digest, stripPrefix_append]

/-- The path of a blob is read as it was written. -/
theorem blobName_blobEntry (hsha : ∀ contents, (lib.sha256 contents).length = 32)
    (contents contents' : Bytes) :
    blobName (blobEntry (lib.computedHex contents) contents') =
      some (lib.computedHex contents) := by
  have hlength : (lib.computedHex contents).toList.length = 64 := by
    rw [Library.computedHex, length_hex, hsha]
  have hslash : '/' ∉ (lib.computedHex contents).toList := fun h => (mem_hexDigits h).2.2 rfl
  have hne : (lib.computedHex contents).toList ≠ [] := by
    intro h
    simp [h] at hlength
  have hpath : ("blobs/sha256/" ++ lib.computedHex contents).toList =
      "blobs".toList ++ '/' :: ("sha256".toList ++ '/' :: (lib.computedHex contents).toList) := by
    simp
  have hindex : (blobEntry (lib.computedHex contents) contents').path ≠ "index.json" := by
    intro h
    have hhead := congrArg (fun s : String => s.toList.head?) h
    simp [blobEntry] at hhead
  have hblob : isBlob (blobEntry (lib.computedHex contents) contents').path = true := by
    have hlast : ("blobs/sha256/" ++ lib.computedHex contents).toList.getLast? ≠ some '/' := by
      rw [String.toList_append, List.getLast?_append_of_ne_nil _ hne]
      intro h
      exact hslash (List.mem_of_getLast? h)
    simpa [isBlob, blobEntry] using hlast
  have hsplit : Text.split '/' (blobEntry (lib.computedHex contents) contents').path =
      ["blobs", "sha256", lib.computedHex contents] := by
    have h₁ : ("blobs".toList).splitOn '/' = ["blobs".toList] := by decide
    have h₂ : ("sha256".toList).splitOn '/' = ["sha256".toList] := by decide
    simp only [Text.split, blobEntry, hpath]
    rw [List.splitOn_append_cons_self, List.splitOn_append_cons_self,
      List.splitOn_eq_singleton hslash, h₁, h₂]
    simp
  have hname : fileName (blobEntry (lib.computedHex contents) contents').path =
      some (lib.computedHex contents) := by
    have hdots : ∀ s : String, s.toList.length < 64 → lib.computedHex contents ≠ s := by
      rintro s hs rfl
      omega
    have h₀ := hdots "" (by decide)
    have h₁ := hdots "." (by decide)
    have h₂ := hdots ".." (by decide)
    simp [fileName, hsplit, h₀, h₁, h₂]
  simp only [blobName, if_neg hindex, hblob, if_true, hname]

/-- The digest of a layer that matches its contents has the form that is asked for. -/
theorem verifyLayer_digest (hsha : ∀ contents, (lib.sha256 contents).length = 32) (i : Nat)
    {layer : LayerDesc} {contents : Bytes} (h : layer.digest = lib.digest contents) :
    verifyLayer i layer = .ok () := by
  have hsize : (lib.computedHex contents).utf8ByteSize = 64 := by
    rw [Library.computedHex, utf8ByteSize_hex, hsha]
  have hdigits : (lib.computedHex contents).toList.all isAsciiHexdigit = true :=
    List.all_eq_true.2 fun c hc => (mem_hexDigits hc).1
  simp [verifyLayer, h, Library.digest, stripPrefix_append, hsize, hdigits]

/-! ## One entry -/

variable (lib) in
/-- The state after an entry that passes. -/
def advance (hex : String) (state : Verification) (entry : Entry) : Verification where
  manifestBytes := if blobName entry = some hex then some entry.contents else state.manifestBytes
  layerCount := state.layerCount +
    ((blobName entry).filter fun name => name ≠ hex ∧ state.configDigest ≠ some name).toList.length
  configDigest := nextConfig lib hex state.configDigest entry

theorem blobName_eq_none {entry : Entry} (h : isBlob entry.path = false) :
    blobName entry = none := by
  unfold blobName
  split
  · rfl
  · simp [h]

theorem blobName_eq_some_iff {entry : Entry} {name : String} : blobName entry = some name ↔
    entry.path ≠ "index.json" ∧ isBlob entry.path = true ∧ fileName entry.path = some name := by
  unfold blobName
  by_cases hindex : entry.path = "index.json"
  · simp [hindex]
  · by_cases hblob : isBlob entry.path = true <;> simp [hindex, hblob]

theorem advance_of_not_blob {hex : String} {state : Verification} {entry : Entry}
    (h : blobName entry = none) : advance lib hex state entry = state := by
  simp [advance, nextConfig, h]

theorem configOf_of_manifest {contents : Bytes} {manifest : OciManifest}
    (h : lib.manifest contents = .ok manifest) :
    configOf lib contents = manifest.configDigest.map withoutPrefix := by
  simp [configOf, h]

/-- An entry that passes changes the state in the one way. -/
theorem advance_of_verifyEntry {digest : String} {state state' : Verification} {entry : Entry}
    (h : verifyEntry lib digest state entry = .ok state') :
    state' = advance lib (withoutPrefix digest) state entry := by
  unfold verifyEntry at h
  by_cases hindex : entry.path = "index.json"
  · have hname : blobName entry = none := by simp [blobName, hindex]
    rw [if_pos hindex] at h
    rcases bind_eq_ok_iff.1 h with ⟨index, -, h⟩
    rw [advance_of_not_blob hname]
    cases hfound : indexDigest index with
    | none =>
        rw [hfound] at h
        exact (Except.ok.inj h).symm
    | some found =>
        rw [hfound] at h
        dsimp only at h
        split at h
        · cases h
        · exact (Except.ok.inj h).symm
  · rw [if_neg hindex] at h
    by_cases hblob : isBlob entry.path = true
    · rw [if_pos hblob] at h
      rcases bind_eq_ok_iff.1 h with ⟨filename, hfile, h⟩
      have hname : blobName entry = some filename :=
        blobName_eq_some_iff.2 ⟨hindex, hblob, orError_eq_ok hfile⟩
      dsimp only at h
      split at h
      · -- The manifest.
        rename_i hmanifest
        rcases bind_eq_ok_iff.1 h with ⟨manifest, hparsed, h⟩
        rcases bind_eq_ok_iff.1 h with ⟨_, -, h⟩
        rw [← Except.ok.inj h]
        have hconfig := configOf_of_manifest hparsed
        cases hdigest : (manifest.config.get? "digest").bind Json.asStr with
        | none =>
            simp [advance, nextConfig, hname, hmanifest, hconfig, OciManifest.configDigest, hdigest]
        | some config =>
            simp [advance, nextConfig, hname, hmanifest, hconfig, OciManifest.configDigest, hdigest]
      · rename_i hother
        split at h
        · -- The config.
          rename_i hconfig
          rcases bind_eq_ok_iff.1 h with ⟨_, -, h⟩
          rw [← Except.ok.inj h]
          have hsame : advance lib (withoutPrefix digest) state entry =
              ⟨state.manifestBytes, state.layerCount, state.configDigest⟩ := by
            simp [advance, nextConfig, hname, Option.filter_some, hother, hconfig]
          exact hsame.symm
        · rename_i hconfig
          rcases bind_eq_ok_iff.1 h with ⟨_, -, h⟩
          rw [← Except.ok.inj h]
          simp [advance, nextConfig, hname, Option.filter_some, hother, hconfig]
    · rw [if_neg hblob] at h
      have hname : blobName entry = none := blobName_eq_none (Bool.eq_false_iff.2 hblob)
      rw [advance_of_not_blob hname]
      exact (Except.ok.inj h).symm

/-- A blob under its digest passes, the manifest's when it can be read. -/
theorem verifyEntry_blob {digest name : String} (state : Verification) {entry : Entry}
    (hname : blobName entry = some name) (hcontents : lib.computedHex entry.contents = name)
    (hmanifest : name = withoutPrefix digest → ∃ manifest,
      lib.manifest entry.contents = .ok manifest) :
    verifyEntry lib digest state entry = .ok (advance lib (withoutPrefix digest) state entry) := by
  have hpasses : ∃ state', verifyEntry lib digest state entry = .ok state' := by
    rcases blobName_eq_some_iff.1 hname with ⟨hindex, hblob, hfile⟩
    unfold verifyEntry
    rw [if_neg hindex, if_pos hblob, hfile]
    simp only [orError, ok_bind, hcontents]
    by_cases hsame : name = withoutPrefix digest
    · rcases hmanifest hsame with ⟨manifest, hparsed⟩
      simp [hsame, hparsed, requireDigest]
    · by_cases hconfig : state.configDigest = some name <;>
        simp [hsame, hconfig, requireDigest]
  rcases hpasses with ⟨state', h⟩
  rw [h, advance_of_verifyEntry h]

/-! ## The entries of an archive -/

theorem manifestOf_cons {hex : String} {entry : Entry} {rest : List Entry} :
    manifestOf hex (entry :: rest) = (manifestOf hex rest).or
      (if blobName entry = some hex then some entry.contents else none) := by
  unfold manifestOf
  by_cases hname : blobName entry = some hex
  · cases hlast : (rest.filter fun entry => blobName entry = some hex).getLast? <;>
      simp [hname, List.getLast?_cons, hlast]
  · simp [hname]

theorem foldl_advance (hex : String) (archive : List Entry) (state : Verification) :
    (archive.foldl (advance lib hex) state).manifestBytes =
        (manifestOf hex archive).or state.manifestBytes ∧
      (archive.foldl (advance lib hex) state).layerCount =
        state.layerCount + (countedNames lib hex state.configDigest archive).length := by
  induction archive generalizing state with
  | nil => exact ⟨rfl, rfl⟩
  | cons entry rest ih =>
      rcases ih (advance lib hex state entry) with ⟨hmanifest, hcount⟩
      rw [List.foldl_cons]
      constructor
      · rw [hmanifest, manifestOf_cons, Option.or_assoc]
        by_cases hname : blobName entry = some hex <;> simp [advance, hname]
      · rw [hcount, countedNames, List.length_append, ← Nat.add_assoc]
        rfl

theorem exists_of_manifestOf {hex : String} {archive : List Entry} {manifestBytes : Bytes}
    (h : manifestOf hex archive = some manifestBytes) :
    ∃ entry ∈ archive, blobName entry = some hex ∧ entry.contents = manifestBytes := by
  rcases Option.map_eq_some_iff.1 h with ⟨entry, hlast, hcontents⟩
  rcases List.mem_filter.1 (List.mem_of_getLast? hlast) with ⟨hentry, hname⟩
  exact ⟨entry, hentry, of_decide_eq_true hname, hcontents⟩

/-- A blob is the manifest's, or it is counted, or it is passed as the config. -/
theorem mem_names_iff {hex name : String} (hne : name ≠ hex) (config : Option String)
    (archive : List Entry) : name ∈ archive.filterMap blobName ↔
      name ∈ countedNames lib hex config archive ∨ name ∈ passedNames lib hex config archive := by
  induction archive generalizing config with
  | nil => simp [countedNames, passedNames]
  | cons entry rest ih =>
      have hhead : blobName entry = some name ↔
          (name ∈ (blobName entry).filter fun name => name ≠ hex ∧ config ≠ some name) ∨
            name ∈ (blobName entry).filter fun name => name ≠ hex ∧ config = some name := by
        by_cases hconfig : config = some name
        · simp [Option.filter_eq_some_iff, hne, hconfig]
        · simp [Option.filter_eq_some_iff, hne, hconfig]
      simp only [List.mem_filterMap, List.exists_mem_cons_iff, countedNames, passedNames,
        List.mem_append, Option.mem_toList] at ih ⊢
      rw [hhead, ih (nextConfig lib hex config entry)]
      tauto

/-! ## Accepted archives -/

/-- What an accepted archive has: blobs under their digests, the manifest, and as many counted blobs
as layers are listed. -/
structure Verifies (lib : Library) (archive : List Entry) (digest : String) (manifestBytes : Bytes)
    (manifest : OciManifest) : Prop where
  passes : ∀ entry ∈ archive, ∀ name, blobName entry = some name →
    lib.computedHex entry.contents = name
  manifestOf : manifestOf (withoutPrefix digest) archive = some manifestBytes
  parsed : lib.manifest manifestBytes = .ok manifest
  count : manifest.layers.length = (countedNames lib (withoutPrefix digest) none archive).length
  layers : ∀ layer ∈ manifest.layers, ∃ i, verifyLayer i layer = .ok ()

theorem verifies_of_ok {archive : List Entry} {digest : String}
    (h : verifyMainArtifactOffline lib archive digest = .ok ()) :
    ∃ manifestBytes manifest, Verifies lib archive digest manifestBytes manifest := by
  have hpasses := (passes_of_verified h).1
  rcases bind_eq_ok_iff.1 h with ⟨state, hstate, h⟩
  rcases bind_eq_ok_iff.1 h with ⟨manifestBytes, hbytes, h⟩
  rcases bind_eq_ok_iff.1 h with ⟨manifest, hparsed, h⟩
  have hfinal := eq_foldl_of_foldlM (fun _ _ _ => advance_of_verifyEntry) hstate
  have hspec := @foldl_advance lib (withoutPrefix digest) archive ⟨none, 0, none⟩
  rw [← hfinal] at hspec
  refine ⟨manifestBytes, manifest, ?_, ?_, hparsed, ?_, ?_⟩
  · intro entry hentry name hname
    rcases blobName_eq_some_iff.1 hname with ⟨hindex, hblob, hfile⟩
    have hverified := (hpasses entry hentry).blob hindex hblob
    exact Option.some.inj (hverified.symm.trans hfile)
  · have hbytes := orError_eq_ok hbytes
    rw [hspec.1, Option.or_none] at hbytes
    exact hbytes
  · split at h
    · cases h
    · rename_i hcount
      rw [hspec.2, Nat.zero_add] at hcount
      exact not_not.1 hcount
  · intro layer hlayer
    split at h
    · cases h
    · unfold verifyOciArtifactIntegrity at h
      dsimp only at h
      split at h
      · cases h
      · rcases List.getElem_of_mem hlayer with ⟨i, hi, hget⟩
        have hmem : (layer, i) ∈ manifest.layers.zipIdx := by
          rw [List.mem_zipIdx_iff_getElem?, List.getElem?_eq_getElem hi, hget]
        exact ⟨i, forM_eq_ok_iff.1 h _ hmem⟩

theorem digest_eq_of_verifyLayer {i : Nat} {layer : LayerDesc} (h : verifyLayer i layer = .ok ()) :
    layer.digest = "sha256:" ++ withoutPrefix layer.digest := by
  unfold verifyLayer at h
  cases hstart : Text.stripPrefix "sha256:" layer.digest with
  | none => simp [hstart] at h
  | some rest => simpa [withoutPrefix, hstart] using stripPrefix_eq_some hstart

theorem digest_injective {name name' : String} (h : "sha256:" ++ name = "sha256:" ++ name') :
    name = name' := by
  have hrest := stripPrefix_append "sha256:" name
  rw [h, stripPrefix_append] at hrest
  exact (Option.some.inj hrest).symm

/-- The blobs of an accepted archive have the digests that their names say. -/
theorem Verifies.blob_iff {archive : List Entry} {digest : String} {manifestBytes : Bytes}
    {manifest : OciManifest} (h : Verifies lib archive digest manifestBytes manifest)
    {listed : String} :
    (∃ entry ∈ archive, (blobName entry).isSome = true ∧ lib.digest entry.contents = listed) ↔
      ∃ name ∈ archive.filterMap blobName, listed = "sha256:" ++ name := by
  constructor
  · rintro ⟨entry, hentry, hblob, rfl⟩
    rcases Option.isSome_iff_exists.1 hblob with ⟨name, hname⟩
    refine ⟨name, List.mem_filterMap.2 ⟨entry, hentry, hname⟩, ?_⟩
    rw [← h.passes entry hentry name hname, Library.digest]
  · rintro ⟨name, hmem, rfl⟩
    rcases List.mem_filterMap.1 hmem with ⟨entry, hentry, hname⟩
    refine ⟨entry, hentry, by simp [hname], ?_⟩
    rw [← h.passes entry hentry name hname, Library.digest]

/-- The layers are there if and only if the wanted ones are counted. -/
theorem Verifies.layers_iff {archive : List Entry} {digest : String} {manifestBytes : Bytes}
    {manifest : OciManifest} (h : Verifies lib archive digest manifestBytes manifest) :
    (∀ layer ∈ manifest.layers, withoutPrefix layer.digest ∈ archive.filterMap blobName) ↔
      wantedNames lib (withoutPrefix digest) archive manifest ⊆
        countedNames lib (withoutPrefix digest) none archive := by
  constructor
  · intro hlayers name hname
    rcases List.mem_filter.1 hname with ⟨hlisted, hother⟩
    rcases of_decide_eq_true hother with ⟨hne, hpassed⟩
    rcases List.mem_map.1 (List.mem_dedup.1 hlisted) with ⟨layer, hlayer, rfl⟩
    exact ((mem_names_iff hne none archive).1 (hlayers layer hlayer)).resolve_right hpassed
  · intro hsubset layer hlayer
    by_cases hmanifest : withoutPrefix layer.digest = withoutPrefix digest
    · rcases exists_of_manifestOf h.manifestOf with ⟨entry, hentry, hname, -⟩
      exact List.mem_filterMap.2 ⟨entry, hentry, hmanifest ▸ hname⟩
    · refine (@mem_names_iff lib _ _ hmanifest none archive).2 ?_
      by_cases hpassed : withoutPrefix layer.digest ∈ passedNames lib (withoutPrefix digest) none
          archive
      · exact Or.inr hpassed
      · have hlisted := List.mem_dedup.2 (List.mem_map_of_mem
          (f := fun layer : LayerDesc => withoutPrefix layer.digest) hlayer)
        exact Or.inl (hsubset (List.mem_filter.2 ⟨hlisted, decide_eq_true ⟨hmanifest, hpassed⟩⟩))

theorem complete_iff_countedForListed {archive : List Entry} {digest : String}
    (hok : verifyMainArtifactOffline lib archive digest = .ok ()) :
    Complete lib archive digest ↔ CountedForListed lib archive digest := by
  rcases verifies_of_ok hok with ⟨manifestBytes, manifest, h⟩
  let layerNames := manifest.layers.map fun layer => withoutPrefix layer.digest
  let wanted := wantedNames lib (withoutPrefix digest) archive manifest
  let counted := countedNames lib (withoutPrefix digest) none archive
  have hwanted : wanted.Nodup := (List.nodup_dedup _).filter _
  have hlength : layerNames.length = counted.length := by
    rw [List.length_map, h.count]
  -- The wanted names are listed, so the list of the layers has all of them.
  have hlisted := (subset_iff_length_diff (l := layerNames) hwanted).1 fun name hname =>
    List.mem_dedup.1 (List.mem_filter.1 hname).1
  have hcount : wanted ⊆ counted ↔
      (counted.diff wanted).length = (layerNames.diff wanted).length := by
    rw [subset_iff_length_diff hwanted]
    omega
  have hlayers : (∀ layer ∈ manifest.layers, ∃ name ∈ archive.filterMap blobName,
      layer.digest = "sha256:" ++ name) ↔
        ∀ layer ∈ manifest.layers, withoutPrefix layer.digest ∈ archive.filterMap blobName := by
    refine forall₂_congr fun layer hlayer => ?_
    rcases h.layers layer hlayer with ⟨i, hform⟩
    have hdigest := digest_eq_of_verifyLayer hform
    constructor
    · rintro ⟨name, hname, heq⟩
      rw [hdigest] at heq
      exact digest_injective heq ▸ hname
    · exact fun hname => ⟨_, hname, hdigest⟩
  have hall : (∀ listed ∈ manifest.listed, ∃ entry ∈ archive, (blobName entry).isSome = true ∧
        lib.digest entry.contents = listed) ↔
      (∀ config, manifest.configDigest = some config →
        ∃ name ∈ archive.filterMap blobName, config = "sha256:" ++ name) ∧
      (counted.diff wanted).length = (layerNames.diff wanted).length := by
    rw [← hcount, ← h.layers_iff, ← hlayers]
    simp only [h.blob_iff, OciManifest.listed, List.forall_mem_append, List.forall_mem_map,
      Option.mem_toList]
  constructor
  · rintro ⟨bytes, parsed, hbytes, hparsed, hcomplete⟩
    obtain rfl := Option.some.inj (h.manifestOf.symm.trans hbytes)
    obtain rfl := Except.ok.inj (h.parsed.symm.trans hparsed)
    exact ⟨_, _, hbytes, hparsed, (hall.1 hcomplete).1, (hall.1 hcomplete).2⟩
  · rintro ⟨bytes, parsed, hbytes, hparsed, hconfig, hdiff⟩
    obtain rfl := Option.some.inj (h.manifestOf.symm.trans hbytes)
    obtain rfl := Except.ok.inj (h.parsed.symm.trans hparsed)
    exact ⟨_, _, hbytes, hparsed, hall.2 ⟨hconfig, hdiff⟩⟩

/-! ## Saved archives -/

theorem downloadBlob_eq_ok_iff {registry : Registry} {digest : String} {entry : Entry} :
    downloadBlob registry digest = .ok entry ↔ ∃ hex contents,
      Text.stripPrefix "sha256:" digest = some hex ∧ registry.blob digest = .ok contents ∧
        entry = blobEntry hex contents := by
  unfold downloadBlob
  cases hstart : Text.stripPrefix "sha256:" digest with
  | none => simp [unwrapOption]
  | some hex =>
      cases hblob : registry.blob digest with
      | error e => simp [unwrapOption, propagate, Except.mapError]
      | ok contents => simp [unwrapOption, propagate, Except.mapError, eq_comm]

/-- What is known of the entries that were written for some digests. -/
structure SavedFor (lib : Library) (manifestBytes : Bytes) (digests : List String)
    (entries : List Entry) : Prop where
  sha256 : ∀ digest ∈ digests, (Text.stripPrefix "sha256:" digest).isSome = true
  matching : ∀ digest ∈ digests, ∃ contents, digest = lib.digest contents
  names : entries.filterMap blobName = digests.map withoutPrefix
  passes : ∀ entry ∈ entries, blobName entry = some (lib.computedHex entry.contents)
  manifest : ∀ entry ∈ entries, blobName entry = some (lib.computedHex manifestBytes) →
    entry.contents = manifestBytes

theorem savedFor_of_mapM {registry : Registry} {manifestBytes : Bytes} {manifest : OciManifest}
    (hsha : ∀ contents, (lib.sha256 contents).length = 32)
    (hserves : Serves lib registry manifestBytes manifest) {digests : List String}
    {entries : List Entry} (h : digests.mapM (downloadBlob registry) = .ok entries) :
    SavedFor lib manifestBytes digests entries := by
  rw [mapM_eq_ok_iff] at h
  induction digests generalizing entries with
  | nil =>
      obtain rfl : entries = [] := by simpa using h.symm
      exact ⟨by simp, by simp, rfl, by simp, by simp⟩
  | cons digest digests ih =>
      cases entries with
      | nil => cases h
      | cons entry entries =>
          rcases List.cons.inj h with ⟨hentry, hrest⟩
          have hsaved := ih hrest
          rcases downloadBlob_eq_ok_iff.1 hentry with ⟨hex, contents, hstart, hblob, rfl⟩
          obtain rfl := hserves.contents digest contents hblob hex hstart
          have hname := blobName_blobEntry hsha contents contents
          have hdigest : digest = lib.digest contents := stripPrefix_eq_some hstart
          refine ⟨?_, ?_, ?_, ?_, ?_⟩
          · exact List.forall_mem_cons.2 ⟨by simp [hstart], hsaved.sha256⟩
          · exact List.forall_mem_cons.2 ⟨⟨contents, hdigest⟩, hsaved.matching⟩
          · rw [List.filterMap_cons, hname, List.map_cons, ← hsaved.names]
            simp [withoutPrefix, hstart]
          · exact List.forall_mem_cons.2 ⟨hname, hsaved.passes⟩
          · refine List.forall_mem_cons.2 ⟨fun hsame => ?_, hsaved.manifest⟩
            have hhex : lib.computedHex contents = lib.computedHex manifestBytes :=
              Option.some.inj (hname.symm.trans hsame)
            refine hserves.manifest contents ?_
            rw [Library.digest, ← hhex, ← Library.digest, ← hdigest]
            exact hblob

theorem manifestOf_eq_some {hex : String} {archive : List Entry} {manifestBytes : Bytes}
    (hthere : ∃ entry ∈ archive, blobName entry = some hex)
    (hall : ∀ entry ∈ archive, blobName entry = some hex → entry.contents = manifestBytes) :
    manifestOf hex archive = some manifestBytes := by
  rcases hthere with ⟨entry, hentry, hname⟩
  have hne : (archive.filter fun entry => blobName entry = some hex) ≠ [] :=
    List.ne_nil_of_mem (List.mem_filter.2 ⟨hentry, decide_eq_true hname⟩)
  have hlast := List.getLast_mem hne
  rcases List.mem_filter.1 hlast with ⟨hmem, hsame⟩
  rw [manifestOf, List.getLast?_eq_some_getLast hne, Option.map_some,
    hall _ hmem (of_decide_eq_true hsame)]

/-- Once the manifest has been read, what counts is decided by the name. -/
theorem countedNames_eq_filter {hex : String} {manifestBytes : Bytes} {entries : List Entry}
    (h : ∀ entry ∈ entries, blobName entry = some hex → entry.contents = manifestBytes) :
    countedNames lib hex (configOf lib manifestBytes) entries =
      (entries.filterMap blobName).filter fun name =>
        name ≠ hex ∧ configOf lib manifestBytes ≠ some name := by
  induction entries with
  | nil => rfl
  | cons entry rest ih =>
      have hnext : nextConfig lib hex (configOf lib manifestBytes) entry =
          configOf lib manifestBytes := by
        unfold nextConfig
        split
        · rename_i hname
          rw [h entry List.mem_cons_self hname, Option.or_self]
        · rfl
      have hrest := ih fun e he => h e (List.mem_cons_of_mem _ he)
      rw [countedNames, hnext, hrest]
      cases hname : blobName entry with
      | none => simp [hname]
      | some name =>
          rw [List.filterMap_cons, hname]
          simp only [Option.filter_some, List.filter_cons]
          split <;> rfl

/-- What is written before the blobs that the manifest lists. -/
def archiveHead (w : Writer) (manifestBytes : Bytes) : List Entry :=
  [⟨"oci-layout", w.toVec layoutFile⟩, ⟨"blobs/", []⟩, ⟨"blobs/sha256/", []⟩,
    blobEntry (w.computedHex manifestBytes) manifestBytes,
    ⟨"index.json", w.toVec (indexJson (w.digest manifestBytes) manifestBytes.length)⟩]

theorem saveMainArtifact_eq_ok_iff {w : Writer} {registry : Registry} {manifestBytes : Bytes}
    {manifest : OciManifest} (hparsed : w.manifest manifestBytes = .ok manifest)
    {archive : List Entry} :
    saveMainArtifact w registry manifestBytes (w.digest manifestBytes) = .ok archive ↔
      ∃ entries, manifest.listed.mapM (downloadBlob registry) = .ok entries ∧
        archive = archiveHead w manifestBytes ++ entries := by
  have hhex : Text.stripPrefix "sha256:" (w.digest manifestBytes) =
      some (w.computedHex manifestBytes) := stripPrefix_append _ _
  have hlisted : manifest.listed.mapM (downloadBlob registry) = (do
      let config ← manifest.configDigest.toList.mapM (downloadBlob registry)
      let layers ← (manifest.layers.map LayerDesc.digest).mapM (downloadBlob registry)
      .ok (config ++ layers)) := List.mapM_append
  have hbegin : saveMainArtifact w registry manifestBytes (w.digest manifestBytes) = (do
      let config ← manifest.configDigest.toList.mapM (downloadBlob registry)
      let layers ← (manifest.layers.map LayerDesc.digest).mapM (downloadBlob registry)
      .ok (archiveHead w manifestBytes ++ config ++ layers)) := by
    simp only [saveMainArtifact, hhex, orError, hparsed, propagate, Except.mapError, ok_bind]
    rfl
  rw [hlisted, hbegin]
  simp only [bind_eq_ok_iff, Except.ok.injEq]
  constructor
  · rintro ⟨config, hconfig, layers, hlayers, rfl⟩
    exact ⟨config ++ layers, ⟨config, hconfig, layers, hlayers, rfl⟩, List.append_assoc _ _ _⟩
  · rintro ⟨_, ⟨config, hconfig, layers, hlayers, rfl⟩, rfl⟩
    exact ⟨config, hconfig, layers, hlayers, List.append_assoc _ _ _⟩

/-- The verifier passes every entry that is written. -/
theorem verifyEntry_saved {w : Writer} (hsha : ∀ contents, (w.sha256 contents).length = 32)
    {manifestBytes : Bytes} {manifest : OciManifest}
    (hparsed : w.manifest manifestBytes = .ok manifest) (hindex : IndexReadBack w manifestBytes)
    {digests : List String} {entries : List Entry}
    (hsaved : SavedFor w.toLibrary manifestBytes digests entries) :
    ∀ entry ∈ archiveHead w manifestBytes ++ entries, ∀ state,
      verifyEntry w.toLibrary (w.digest manifestBytes) state entry =
        .ok (advance w.toLibrary (w.computedHex manifestBytes) state entry) := by
  have hexpected := @withoutPrefix_digest w.toLibrary manifestBytes
  have hplain : ∀ {entry : Entry} (state : Verification), entry.path ≠ "index.json" →
      isBlob entry.path = false →
      verifyEntry w.toLibrary (w.digest manifestBytes) state entry =
        .ok (advance w.toLibrary (w.computedHex manifestBytes) state entry) := by
    intro entry state hpath hblob
    rw [advance_of_not_blob (blobName_eq_none hblob)]
    simp [verifyEntry, hpath, hblob]
  intro entry hentry state
  rcases List.mem_append.1 hentry with hhead | hblob
  · simp only [archiveHead, List.mem_cons, List.not_mem_nil, or_false] at hhead
    rcases hhead with rfl | rfl | rfl | rfl | rfl
    · have hblob : isBlob "oci-layout" = false := by decide
      have hpath : "oci-layout" ≠ "index.json" := by decide
      exact hplain state hpath hblob
    · exact hplain state (by decide) (by decide)
    · exact hplain state (by decide) (by decide)
    · have hname := blobName_blobEntry hsha manifestBytes manifestBytes
      have h := @verifyEntry_blob w.toLibrary (w.digest manifestBytes) _ state _ hname rfl
        fun _ => ⟨manifest, hparsed⟩
      rw [hexpected] at h
      exact h
    · rcases hindex with ⟨index, hvalue, hdigest⟩
      rw [advance_of_not_blob (by simp [blobName])]
      simp [verifyEntry, hvalue, hdigest]
  · have h := @verifyEntry_blob w.toLibrary (w.digest manifestBytes) _ state _
      (hsaved.passes entry hblob) rfl fun hsame => by
        have hname := (hsaved.passes entry hblob).trans (congrArg some (hsame.trans hexpected))
        exact ⟨manifest, hsaved.manifest entry hblob hname ▸ hparsed⟩
    rw [hexpected] at h
    exact h

/-- The blobs of a written archive that count as layers. -/
theorem countedNames_saved {w : Writer} (hsha : ∀ contents, (w.sha256 contents).length = 32)
    {manifestBytes : Bytes} {digests : List String} {entries : List Entry}
    (hsaved : SavedFor w.toLibrary manifestBytes digests entries) :
    countedNames w.toLibrary (w.computedHex manifestBytes) none
        (archiveHead w manifestBytes ++ entries) =
      (digests.map withoutPrefix).filter fun name =>
        name ≠ w.computedHex manifestBytes ∧ configOf w.toLibrary manifestBytes ≠ some name := by
  have hname := blobName_blobEntry hsha manifestBytes manifestBytes
  have hlayout : blobName ⟨"oci-layout", w.toVec layoutFile⟩ = none :=
    blobName_eq_none (show isBlob "oci-layout" = false by decide)
  have hblobs : blobName ⟨"blobs/", []⟩ = none := blobName_eq_none (by decide)
  have hfolder : blobName ⟨"blobs/sha256/", []⟩ = none := blobName_eq_none (by decide)
  have hindex : ∀ contents, blobName ⟨"index.json", contents⟩ = none := fun _ => rfl
  have hcontents : (blobEntry (w.computedHex manifestBytes) manifestBytes).contents =
      manifestBytes := rfl
  simp only [hcontents, archiveHead, List.cons_append, List.nil_append, countedNames, nextConfig,
    hlayout, hblobs, hfolder, hindex, hname, Option.filter_none, Option.filter_some, Option.toList_none,
    if_true, reduceCtorEq, if_false, Option.or_none]
  rw [countedNames_eq_filter hsaved.manifest, hsaved.names]
  simp

theorem manifestOf_saved {w : Writer} (hsha : ∀ contents, (w.sha256 contents).length = 32)
    {manifestBytes : Bytes} {digests : List String} {entries : List Entry}
    (hsaved : SavedFor w.toLibrary manifestBytes digests entries) :
    manifestOf (w.computedHex manifestBytes) (archiveHead w manifestBytes ++ entries) =
      some manifestBytes := by
  have hname := blobName_blobEntry hsha manifestBytes manifestBytes
  refine manifestOf_eq_some ?_ fun entry hentry hhex => ?_
  · exact ⟨_, List.mem_append_left _ (by simp [archiveHead]), hname⟩
  · rcases List.mem_append.1 hentry with hhead | hblob
    · simp only [archiveHead, List.mem_cons, List.not_mem_nil, or_false] at hhead
      rcases hhead with rfl | rfl | rfl | rfl | rfl
      · rw [blobName_eq_none (show isBlob "oci-layout" = false by decide)] at hhex
        cases hhex
      · rw [blobName_eq_none (by decide)] at hhex
        cases hhex
      · rw [blobName_eq_none (by decide)] at hhex
        cases hhex
      · rfl
      · cases hhex
    · exact hsaved.manifest entry hblob hhex

theorem verifyOciArtifactIntegrity_eq_ok (hsha : ∀ contents, (lib.sha256 contents).length = 32)
    {manifestBytes : Bytes} {layers : List LayerDesc}
    (hlayers : ∀ layer ∈ layers, ∃ contents, layer.digest = lib.digest contents) :
    verifyOciArtifactIntegrity lib manifestBytes layers (lib.digest manifestBytes) = .ok () := by
  simp only [verifyOciArtifactIntegrity, ne_eq, not_true_eq_false, if_false]
  refine forM_eq_ok_iff.2 ?_
  rintro ⟨layer, i⟩ hmem
  rcases hlayers layer (List.fst_mem_of_mem_zipIdx hmem) with ⟨contents, hdigest⟩
  exact verifyLayer_digest hsha i hdigest

/-- An archive that was written for some digests is accepted if and only if the number of the names
that count is the number of the layers. -/
theorem verifyMainArtifactOffline_head_iff {w : Writer}
    (hsha : ∀ contents, (w.sha256 contents).length = 32) {manifestBytes : Bytes}
    {manifest : OciManifest} (hparsed : w.manifest manifestBytes = .ok manifest)
    (hindex : IndexReadBack w manifestBytes)
    (hlayers : ∀ layer ∈ manifest.layers, ∃ contents, layer.digest = w.digest contents)
    {digests : List String} {entries : List Entry}
    (hsaved : SavedFor w.toLibrary manifestBytes digests entries) :
    verifyMainArtifactOffline w.toLibrary (archiveHead w manifestBytes ++ entries)
        (w.digest manifestBytes) = .ok () ↔
      manifest.layers.length = ((digests.map withoutPrefix).filter fun name =>
        name ≠ w.computedHex manifestBytes ∧
          configOf w.toLibrary manifestBytes ≠ some name).length := by
  have hstate := foldlM_eq_foldl (verifyEntry_saved hsha hparsed hindex hsaved) ⟨none, 0, none⟩
  have hspec := @foldl_advance w.toLibrary (w.computedHex manifestBytes)
    (archiveHead w manifestBytes ++ entries) ⟨none, 0, none⟩
  rw [manifestOf_saved hsha hsaved, countedNames_saved hsha hsaved] at hspec
  have hintegrity := @verifyOciArtifactIntegrity_eq_ok w.toLibrary hsha manifestBytes _ hlayers
  unfold verifyMainArtifactOffline
  rw [hstate, ok_bind, hspec.1, hspec.2]
  simp only [Option.or_none, orError, ok_bind, hparsed, hintegrity, Nat.zero_add]
  simp

/-- The config that is listed does not count, and a layer counts unless its digest is the manifest's
or the config's. -/
theorem layers_counted_iff {w : Writer} {manifestBytes : Bytes} {manifest : OciManifest}
    (hparsed : w.manifest manifestBytes = .ok manifest) {entries : List Entry}
    (hsaved : SavedFor w.toLibrary manifestBytes manifest.listed entries) :
    manifest.layers.length = ((manifest.listed.map withoutPrefix).filter fun name =>
        name ≠ w.computedHex manifestBytes ∧
          configOf w.toLibrary manifestBytes ≠ some name).length ↔
      ∀ layer ∈ manifest.layers, layer.digest ≠ w.digest manifestBytes ∧
        manifest.configDigest ≠ some layer.digest := by
  have hconfigOf := configOf_of_manifest hparsed
  have hconfig : (manifest.configDigest.toList.map withoutPrefix).filter (fun name =>
      name ≠ w.computedHex manifestBytes ∧
        configOf w.toLibrary manifestBytes ≠ some name) = [] := by
    cases hdigest : manifest.configDigest <;> simp [hconfigOf, hdigest]
  have hlength : manifest.layers.length =
      ((manifest.layers.map LayerDesc.digest).map withoutPrefix).length := by simp
  rw [OciManifest.listed, List.map_append, List.filter_append, hconfig, List.nil_append, hlength,
    eq_comm, List.length_filter_eq_length_iff]
  simp only [List.forall_mem_map, decide_eq_true_eq, List.map_map, Function.comp]
  refine forall₂_congr fun layer hlayer => ?_
  have hlisted : layer.digest ∈ manifest.listed :=
    List.mem_append_right _ (List.mem_map_of_mem hlayer)
  rcases hsaved.matching _ hlisted with ⟨contents, hdigest⟩
  have hsame : ∀ contents', withoutPrefix layer.digest = w.computedHex contents' ↔
      layer.digest = w.digest contents' := by
    intro contents'
    rw [hdigest, withoutPrefix_digest]
    exact ⟨fun h => congrArg ("sha256:" ++ ·) h, digest_injective⟩
  refine and_congr (not_congr (hsame manifestBytes)) (not_congr ?_)
  rw [hconfigOf]
  cases hfound : manifest.configDigest with
  | none => simp
  | some config =>
      have hmem : config ∈ manifest.listed := List.mem_append_left _ (by simp [hfound])
      rcases hsaved.matching _ hmem with ⟨contents', hconfig'⟩
      rw [Option.map_some, Option.some_inj, Option.some_inj, hconfig', withoutPrefix_digest,
        eq_comm, hsame contents', eq_comm]

/-- The saved archive of a manifest is accepted if and only if every blob is of SHA-256 and no layer
has the digest of the manifest or of the config. -/
theorem acceptsSaved_iff {w : Writer} (hsha : ∀ contents, (w.sha256 contents).length = 32)
    {registry : Registry} {manifestBytes : Bytes} {manifest : OciManifest}
    (hparsed : w.manifest manifestBytes = .ok manifest)
    (hserves : Serves w.toLibrary registry manifestBytes manifest)
    (hindex : IndexReadBack w manifestBytes) :
    AcceptsSaved w registry manifestBytes ↔
      CountsAllLayers w.toLibrary manifestBytes manifest := by
  -- What the verifier says of what was written.
  have hverify : ∀ entries, SavedFor w.toLibrary manifestBytes manifest.listed entries →
      (verifyMainArtifactOffline w.toLibrary (archiveHead w manifestBytes ++ entries)
          (w.digest manifestBytes) = .ok () ↔
        ∀ layer ∈ manifest.layers, layer.digest ≠ w.digest manifestBytes ∧
          manifest.configDigest ≠ some layer.digest) := by
    intro entries hsaved
    have hlayers : ∀ layer ∈ manifest.layers, ∃ contents, layer.digest = w.digest contents :=
      fun layer hlayer =>
        hsaved.matching _ (List.mem_append_right _ (List.mem_map_of_mem hlayer))
    rw [← layers_counted_iff hparsed hsaved]
    exact verifyMainArtifactOffline_head_iff hsha hparsed hindex hlayers hsaved
  constructor
  · rintro ⟨archive, hsave, hok⟩
    rcases (saveMainArtifact_eq_ok_iff hparsed).1 hsave with ⟨entries, hentries, rfl⟩
    have hsaved := savedFor_of_mapM hsha hserves hentries
    exact ⟨hsaved.sha256, (hverify entries hsaved).1 hok⟩
  · rintro ⟨hstart, hlayers⟩
    have hdownload : ∀ digest ∈ manifest.listed, ∃ entry,
        downloadBlob registry digest = .ok entry := by
      intro digest hdigest
      rcases Option.isSome_iff_exists.1 (hstart digest hdigest) with ⟨hex, hhex⟩
      rcases hserves.blob digest hdigest with ⟨contents, hblob⟩
      exact ⟨_, downloadBlob_eq_ok_iff.2 ⟨hex, contents, hhex, hblob, rfl⟩⟩
    rcases exists_mapM_iff.2 hdownload with ⟨entries, hentries⟩
    have hsaved := savedFor_of_mapM hsha hserves hentries
    exact ⟨_, (saveMainArtifact_eq_ok_iff hparsed).2 ⟨entries, hentries, rfl⟩,
      (hverify entries hsaved).2 hlayers⟩

/-- A saved archive is accepted if and only if every blob is of SHA-256 and no layer has the digest
of the manifest or of the config; an accepted archive is complete if and only if it has the config
and no more blobs are counted in vain than layers are listed in vain. -/
theorem saved_accepted_and_accepted_complete_iff (w : Writer)
    (hsha : ∀ contents, (w.sha256 contents).length = 32) :
    (∀ registry manifestBytes manifest, w.manifest manifestBytes = .ok manifest →
      Serves w.toLibrary registry manifestBytes manifest → IndexReadBack w manifestBytes →
        (AcceptsSaved w registry manifestBytes ↔
          CountsAllLayers w.toLibrary manifestBytes manifest)) ∧
      ∀ archive digest, verifyMainArtifactOffline w.toLibrary archive digest = .ok () →
        (Complete w.toLibrary archive digest ↔ CountedForListed w.toLibrary archive digest) :=
  ⟨fun _ _ _ hparsed hserves hindex => acceptsSaved_iff hsha hparsed hserves hindex,
    fun _ _ hok => complete_iff_countedForListed hok⟩

end

/-- An archive in which no blob has one of the digests is not complete. -/
theorem not_complete {lib : Library} {archive : List Entry} {digest listed : String}
    {manifestBytes : Bytes} {manifest : OciManifest}
    (hbytes : manifestOf (withoutPrefix digest) archive = some manifestBytes)
    (hparsed : lib.manifest manifestBytes = .ok manifest) (hlisted : listed ∈ manifest.listed)
    (hblobs : ∀ entry ∈ archive, lib.digest entry.contents ≠ listed) :
    ¬ Complete lib archive digest := by
  rintro ⟨bytes, parsed, hbytes', hparsed', hcomplete⟩
  obtain rfl := Option.some.inj (hbytes.symm.trans hbytes')
  obtain rfl := Except.ok.inj (hparsed.symm.trans hparsed')
  rcases hcomplete listed hlisted with ⟨entry, hentry, -, hdigest⟩
  exact hblobs entry hentry hdigest

theorem digitChar_injective : ∀ m < 16, ∀ n < 16, Nat.digitChar m = Nat.digitChar n → m = n := by
  decide

theorem hex_injective {bytes bytes' : Bytes} (h : hex bytes = hex bytes') : bytes = bytes' := by
  have hchars := String.ofList_injective h
  clear h
  induction bytes generalizing bytes' with
  | nil =>
      cases bytes' with
      | nil => rfl
      | cons b bytes' => simp at hchars
  | cons b bytes ih =>
      cases bytes' with
      | nil => simp at hchars
      | cons b' bytes' =>
          simp only [List.flatMap_cons, List.cons_append, List.nil_append,
            List.cons.injEq] at hchars
          rcases hchars with ⟨hhigh, hlow, hrest⟩
          have hb : b.toNat < 256 := b.toNat_lt
          have hb' : b'.toNat < 256 := b'.toNat_lt
          have h₁ := digitChar_injective _ (by omega) _ (by omega) hhigh
          have h₂ := digitChar_injective _ (by omega) _ (by omega) hlow
          have hsame : b = b' := UInt8.toNat_inj.1 (by omega)
          rw [hsame, ih hrest]

theorem digest_ne {lib : Library} {contents contents' : Bytes}
    (h : lib.sha256 contents ≠ lib.sha256 contents') :
    lib.digest contents ≠ lib.digest contents' := by
  intro heq
  exact h (hex_injective (digest_injective heq))

/-! ## Two artifacts -/

/-- An empty object, which is the config and the layer of an artifact. -/
def bareBlob : Bytes :=
  [123, 125]

/-- An object with the digest of the empty object in its config and in its one layer. -/
def bareManifestBytes : Bytes :=
  [123, 34, 99, 111, 110, 102, 105, 103, 34, 58, 123, 34, 100, 105, 103, 101, 115, 116, 34, 58, 34,
   115, 104, 97, 50, 53, 54, 58, 52, 52, 49, 51, 54, 102, 97, 51, 53, 53, 98, 51, 54, 55, 56, 97,
   49, 49, 52, 54, 97, 100, 49, 54, 102, 55, 101, 56, 54, 52, 57, 101, 57, 52, 102, 98, 52, 102, 99,
   50, 49, 102, 101, 55, 55, 101, 56, 51, 49, 48, 99, 48, 54, 48, 102, 54, 49, 99, 97, 97, 102, 102,
   56, 97, 34, 125, 44, 34, 108, 97, 121, 101, 114, 115, 34, 58, 91, 123, 34, 109, 101, 100, 105,
   97, 84, 121, 112, 101, 34, 58, 34, 97, 112, 112, 108, 105, 99, 97, 116, 105, 111, 110, 47, 118,
   110, 100, 46, 111, 99, 105, 46, 101, 109, 112, 116, 121, 46, 118, 49, 43, 106, 115, 111, 110, 34,
   44, 34, 115, 105, 122, 101, 34, 58, 50, 44, 34, 100, 105, 103, 101, 115, 116, 34, 58, 34, 115,
   104, 97, 50, 53, 54, 58, 52, 52, 49, 51, 54, 102, 97, 51, 53, 53, 98, 51, 54, 55, 56, 97, 49, 49,
   52, 54, 97, 100, 49, 54, 102, 55, 101, 56, 54, 52, 57, 101, 57, 52, 102, 98, 52, 102, 99, 50, 49,
   102, 101, 55, 55, 101, 56, 51, 49, 48, 99, 48, 54, 48, 102, 54, 49, 99, 97, 97, 102, 102, 56, 97,
   34, 125, 93, 125]

def exampleSha256 (contents : Bytes) : Bytes :=
  if contents = bareBlob then
    [0x44, 0x13, 0x6f, 0xa3, 0x55, 0xb3, 0x67, 0x8a, 0x11, 0x46, 0xad, 0x16, 0xf7, 0xe8, 0x64,
      0x9e, 0x94, 0xfb, 0x4f, 0xc2, 0x1f, 0xe7, 0x7e, 0x83, 0x10, 0xc0, 0x60, 0xf6, 0x1c, 0xaa,
      0xff, 0x8a]
  else if contents = bareManifestBytes then
    [0xa9, 0xa3, 0xa4, 0x8f, 0x61, 0x4b, 0x41, 0x78, 0x41, 0x7c, 0xc3, 0x3c, 0x7d, 0xd3, 0xda,
      0x59, 0x9e, 0xb5, 0x10, 0x27, 0x24, 0x80, 0x0e, 0xf4, 0x11, 0xe3, 0x66, 0x16, 0x51, 0x21,
      0x8c, 0x32]
  else if (webLibrary.sha256 contents).length = 32 then webLibrary.sha256 contents
  else List.replicate 32 0

def exampleDigest (contents : Bytes) : String :=
  "sha256:" ++ hex (exampleSha256 contents)

def bareManifest : OciManifest where
  mediaType := none
  config := .object [("digest", .string (exampleDigest bareBlob))]
  layers := [⟨"application/vnd.oci.empty.v1+json", 2, exampleDigest bareBlob⟩]

def webManifest : OciManifest where
  mediaType := none
  config := .object [("digest", .string (exampleDigest webConfig))]
  layers := [⟨"application/vnd.infraweave.module.v1.zip", 7, exampleDigest webLayer⟩]

/-- What is written into `index.json` for the manifest of the empty object. -/
def bareIndex : Bytes :=
  [123, 34, 115, 99, 104, 101, 109, 97, 86, 101, 114, 115, 105, 111, 110, 34, 58, 50, 44, 34, 109,
   97, 110, 105, 102, 101, 115, 116, 115, 34, 58, 91, 123, 34, 109, 101, 100, 105, 97, 84, 121, 112,
   101, 34, 58, 34, 97, 112, 112, 108, 105, 99, 97, 116, 105, 111, 110, 47, 118, 110, 100, 46, 111,
   99, 105, 46, 105, 109, 97, 103, 101, 46, 109, 97, 110, 105, 102, 101, 115, 116, 46, 118, 49, 43,
   106, 115, 111, 110, 34, 44, 34, 100, 105, 103, 101, 115, 116, 34, 58, 34, 115, 104, 97, 50, 53,
   54, 58, 97, 57, 97, 51, 97, 52, 56, 102, 54, 49, 52, 98, 52, 49, 55, 56, 52, 49, 55, 99, 99, 51,
   51, 99, 55, 100, 100, 51, 100, 97, 53, 57, 57, 101, 98, 53, 49, 48, 50, 55, 50, 52, 56, 48, 48,
   101, 102, 52, 49, 49, 101, 51, 54, 54, 49, 54, 53, 49, 50, 49, 56, 99, 51, 50, 34, 44, 34, 115,
   105, 122, 101, 34, 58, 50, 52, 56, 125, 93, 125]

/-- The same for the manifest with a config and a layer. -/
def savedWebIndex : Bytes :=
  [123, 34, 115, 99, 104, 101, 109, 97, 86, 101, 114, 115, 105, 111, 110, 34, 58, 50, 44, 34, 109,
   97, 110, 105, 102, 101, 115, 116, 115, 34, 58, 91, 123, 34, 109, 101, 100, 105, 97, 84, 121, 112,
   101, 34, 58, 34, 97, 112, 112, 108, 105, 99, 97, 116, 105, 111, 110, 47, 118, 110, 100, 46, 111,
   99, 105, 46, 105, 109, 97, 103, 101, 46, 109, 97, 110, 105, 102, 101, 115, 116, 46, 118, 49, 43,
   106, 115, 111, 110, 34, 44, 34, 100, 105, 103, 101, 115, 116, 34, 58, 34, 115, 104, 97, 50, 53,
   54, 58, 101, 55, 53, 48, 50, 51, 52, 57, 100, 57, 55, 48, 54, 97, 99, 102, 56, 101, 102, 55, 52,
   55, 100, 52, 50, 57, 56, 100, 51, 49, 51, 48, 51, 99, 99, 54, 97, 48, 57, 48, 52, 51, 101, 102,
   101, 102, 97, 102, 98, 53, 54, 97, 57, 55, 99, 53, 52, 102, 98, 55, 52, 98, 55, 48, 34, 44, 34,
   115, 105, 122, 101, 34, 58, 50, 53, 53, 125, 93, 125]

def layoutBytes : Bytes :=
  [123, 34, 105, 109, 97, 103, 101, 76, 97, 121, 111, 117, 116, 86, 101, 114, 115, 105, 111, 110,
   34, 58, 34, 49, 46, 48, 46, 48, 34, 125]

def bareIndexJson : Json :=
  indexJson (exampleDigest bareManifestBytes) 248

def webIndexJson : Json :=
  indexJson (exampleDigest webManifestBytes) 255

def exampleValue (contents : Bytes) : Except String Json :=
  if contents = bareIndex then .ok bareIndexJson
  else if contents = savedWebIndex then .ok webIndexJson
  else webLibrary.value contents

def exampleManifest (contents : Bytes) : Except String OciManifest :=
  if contents = bareManifestBytes then .ok bareManifest
  else if contents = webManifestBytes then .ok webManifest
  else .error "missing field config"

def exampleToVec (json : Json) : Bytes :=
  if json = bareIndexJson then bareIndex
  else if json = webIndexJson then savedWebIndex
  else layoutBytes

/-- The answers on the contents of the two artifacts. -/
def exampleWriter : Writer where
  sha256 := exampleSha256
  value := exampleValue
  manifest := exampleManifest
  moduleResp := webLibrary.moduleResp
  targzToZipBytes := webLibrary.targzToZipBytes
  toVec := exampleToVec

theorem digest_example (contents : Bytes) :
    exampleWriter.digest contents = exampleDigest contents :=
  rfl

theorem sha256_example (contents : Bytes) :
    exampleWriter.sha256 contents = exampleSha256 contents :=
  rfl

theorem manifest_example (contents : Bytes) :
    exampleWriter.manifest contents = exampleManifest contents :=
  rfl

theorem length_sha256_example (contents : Bytes) :
    (exampleWriter.sha256 contents).length = 32 := by
  simp only [exampleWriter, exampleSha256]
  split
  · rfl
  · split
    · rfl
    · split
      · assumption
      · simp

def exampleBlobs : List Bytes :=
  [bareBlob, webConfig, webLayer]

/-- The contents of the two artifacts have digests of their own, and what is written beside them
has not that of the empty object. -/
theorem example_contents :
    ((exampleBlobs ++ [bareManifestBytes, webManifestBytes]).map exampleSha256).Nodup ∧
      bareManifestBytes.length = 248 ∧ webManifestBytes.length = 255 ∧
      savedWebIndex ≠ bareIndex ∧
      ∀ contents ∈ [bareIndex, savedWebIndex, layoutBytes, []],
        exampleSha256 contents ≠ exampleSha256 bareBlob := by
  decide +kernel

theorem exampleToVec_mem (json : Json) :
    exampleToVec json ∈ [bareIndex, savedWebIndex, layoutBytes] := by
  unfold exampleToVec
  split
  · exact List.mem_cons_self
  · split
    · exact List.mem_cons_of_mem _ List.mem_cons_self
    · exact List.mem_cons_of_mem _ (List.mem_cons_of_mem _ List.mem_cons_self)

theorem webLayer_mem : webLayer ∈ exampleBlobs :=
  List.mem_cons_of_mem _ (List.mem_cons_of_mem _ List.mem_cons_self)

theorem blob_ne_manifest {contents manifestBytes : Bytes} (hblob : contents ∈ exampleBlobs)
    (hmanifest : manifestBytes = bareManifestBytes ∨ manifestBytes = webManifestBytes) :
    exampleWriter.sha256 contents ≠ exampleWriter.sha256 manifestBytes := by
  have hnodup := example_contents.1
  rw [List.map_append, List.nodup_append] at hnodup
  exact hnodup.2.2 _ (List.mem_map_of_mem hblob) _
    (List.mem_map_of_mem (List.mem_pair.2 hmanifest))

theorem blob_ne_webLayer {contents : Bytes} (hblob : contents = bareBlob ∨ contents = webConfig) :
    exampleWriter.sha256 contents ≠ exampleWriter.sha256 webLayer := by
  have hnodup := example_contents.1
  rw [List.map_append, List.nodup_append] at hnodup
  have hblobs : ([bareBlob, webConfig] ++ [webLayer]).map exampleSha256 |>.Nodup := hnodup.1
  rw [List.map_append, List.nodup_append] at hblobs
  exact hblobs.2.2 _ (List.mem_map_of_mem (List.mem_pair.2 hblob)) _ List.mem_cons_self

theorem manifests_ne :
    exampleWriter.sha256 webManifestBytes ≠ exampleWriter.sha256 bareManifestBytes := by
  have hnodup := example_contents.1
  rw [List.map_append, List.nodup_append] at hnodup
  have hmanifests := List.nodup_cons.1 hnodup.2.1
  intro heq
  rw [sha256_example, sha256_example] at heq
  exact hmanifests.1 (List.mem_map.2 ⟨webManifestBytes, List.mem_cons_self, heq⟩)

theorem webManifestBytes_ne : webManifestBytes ≠ bareManifestBytes :=
  ne_of_apply_ne exampleWriter.sha256 manifests_ne

def exampleRegistry : Registry where
  blob digest :=
    match exampleBlobs.find? (fun contents => exampleDigest contents = digest) with
    | some contents => .ok contents
    | none => .error "HTTP status client error (404 Not Found)"

theorem exampleRegistry_blob {digest : String} {contents : Bytes}
    (h : exampleRegistry.blob digest = .ok contents) :
    contents ∈ exampleBlobs ∧ exampleWriter.digest contents = digest := by
  simp only [exampleRegistry] at h
  cases hfound : exampleBlobs.find? (fun contents => exampleDigest contents = digest) with
  | none => simp [hfound] at h
  | some found =>
      have heq : found = contents := by simpa [hfound] using h
      have hdigest : exampleDigest found = digest := by simpa using List.find?_some hfound
      exact heq ▸ ⟨List.mem_of_find?_eq_some hfound, hdigest⟩

/-- A manifest whose blobs are in the registry, and which is none of them. -/
theorem serves_example {manifestBytes : Bytes} {manifest : OciManifest}
    (hlisted : ∀ digest ∈ manifest.listed, ∃ contents ∈ exampleBlobs,
      exampleDigest contents = digest)
    (hother : ∀ contents ∈ exampleBlobs,
      exampleWriter.sha256 contents ≠ exampleWriter.sha256 manifestBytes) :
    Serves exampleWriter.toLibrary exampleRegistry manifestBytes manifest where
  blob digest hdigest := by
    rcases hlisted digest hdigest with ⟨contents, hblob, hcontents⟩
    have hsome : (exampleBlobs.find? fun contents =>
        exampleDigest contents = digest).isSome = true :=
      List.find?_isSome.2 ⟨contents, hblob, decide_eq_true hcontents⟩
    rcases Option.isSome_iff_exists.1 hsome with ⟨found, hfound⟩
    exact ⟨found, by simp only [exampleRegistry, hfound]⟩
  contents digest contents h hex hhex := by
    rw [← (exampleRegistry_blob h).2, Library.digest, stripPrefix_append] at hhex
    exact Option.some.inj hhex
  manifest contents h := by
    rcases exampleRegistry_blob h with ⟨hblob, hdigest⟩
    exact absurd hdigest (digest_ne (hother contents hblob))

theorem serves_bare : Serves exampleWriter.toLibrary exampleRegistry bareManifestBytes
    bareManifest := by
  refine serves_example (fun digest hdigest => ?_) fun contents hblob =>
    blob_ne_manifest hblob (Or.inl rfl)
  have hlisted : bareManifest.listed = [exampleDigest bareBlob, exampleDigest bareBlob] := rfl
  have heq : digest = exampleDigest bareBlob := by simpa [hlisted] using hdigest
  exact ⟨bareBlob, List.mem_cons_self, heq.symm⟩

theorem indexDigest_indexJson (digest : String) (size : Nat) :
    indexDigest (indexJson digest size) = some digest := by
  simp [indexDigest, indexJson, Json.get?, Json.asArray, Json.asStr]

/-- The index of a manifest is read back when the text that is written for it is read so. -/
theorem indexReadBack_example {manifestBytes : Bytes} {json : Json}
    (hjson : json = indexJson (exampleDigest manifestBytes) manifestBytes.length)
    (hread : exampleValue (exampleToVec json) = .ok json) :
    IndexReadBack exampleWriter manifestBytes := by
  refine ⟨json, ?_, ?_⟩
  · rw [digest_example, ← hjson]
    exact hread
  · rw [hjson, indexDigest_indexJson, digest_example]

theorem indexReadBack_bare : IndexReadBack exampleWriter bareManifestBytes := by
  refine @indexReadBack_example _ bareIndexJson (by rw [example_contents.2.1, bareIndexJson]) ?_
  simp only [exampleToVec, exampleValue, if_true]

/-! ## The config as a layer, and a blob that is not listed -/

/-- What is written for the manifest of the empty object, with another blob in place of the config
and the layer. -/
def strayArchive : List Entry :=
  archiveHead exampleWriter bareManifestBytes ++
    [blobEntry (exampleWriter.computedHex webLayer) webLayer]

theorem savedFor_stray : SavedFor exampleWriter.toLibrary bareManifestBytes
    [exampleWriter.digest webLayer] [blobEntry (exampleWriter.computedHex webLayer) webLayer] := by
  have hname := blobName_blobEntry length_sha256_example webLayer webLayer
  have hother : exampleWriter.sha256 webLayer ≠ exampleWriter.sha256 bareManifestBytes :=
    blob_ne_manifest webLayer_mem (Or.inl rfl)
  refine ⟨?_, ?_, ?_, ?_, ?_⟩
  · simp [Library.digest, stripPrefix_append]
  · exact fun digest hdigest => ⟨webLayer, by simpa using hdigest⟩
  · simp [hname, withoutPrefix_digest]
  · exact fun entry hentry => List.mem_singleton.1 hentry ▸ hname
  · intro entry hentry hsame
    obtain rfl := List.mem_singleton.1 hentry
    have hhex := Option.some.inj (hname.symm.trans hsame)
    exact (hother (hex_injective hhex)).elim

/-- An artifact whose layer is its config is refused as it was saved, and an archive with another
blob in place of the two is accepted. -/
theorem bareArtifact_refused_stray_accepted :
    (exampleWriter.manifest bareManifestBytes = .ok bareManifest ∧
      Serves exampleWriter.toLibrary exampleRegistry bareManifestBytes bareManifest ∧
      IndexReadBack exampleWriter bareManifestBytes ∧
      ¬ AcceptsSaved exampleWriter exampleRegistry bareManifestBytes) ∧
    verifyMainArtifactOffline exampleWriter.toLibrary strayArchive
        (exampleWriter.digest bareManifestBytes) = .ok () ∧
      ¬ Complete exampleWriter.toLibrary strayArchive
        (exampleWriter.digest bareManifestBytes) := by
  have hparsed : exampleWriter.manifest bareManifestBytes = .ok bareManifest := by
    rw [manifest_example]
    simp only [exampleManifest, if_true]
  have hconfig : bareManifest.configDigest = some (exampleWriter.digest bareBlob) :=
    (congrArg some (digest_example bareBlob)).symm
  have hlayer : ∀ layer ∈ bareManifest.layers, layer.digest = exampleWriter.digest bareBlob := by
    intro layer hlayer
    rw [List.mem_singleton.1 hlayer, digest_example]
  refine ⟨⟨hparsed, serves_bare, indexReadBack_bare, fun haccepted => ?_⟩, ?_, ?_⟩
  · have hcounts := (acceptsSaved_iff length_sha256_example hparsed serves_bare
      indexReadBack_bare).1 haccepted
    exact (hcounts.layers _ List.mem_cons_self).2 hconfig
  · refine (verifyMainArtifactOffline_head_iff length_sha256_example hparsed indexReadBack_bare
      (fun layer hmem => ⟨bareBlob, hlayer layer hmem⟩) savedFor_stray).2 ?_
    -- The other blob counts, and there is one layer.
    have hmanifest : exampleWriter.computedHex webLayer ≠
        exampleWriter.computedHex bareManifestBytes := fun h =>
      blob_ne_manifest webLayer_mem (Or.inl rfl) (hex_injective h)
    have hbare : exampleWriter.computedHex bareBlob ≠ exampleWriter.computedHex webLayer :=
      fun h => blob_ne_webLayer (Or.inl rfl) (hex_injective h)
    have hknown := configOf_of_manifest hparsed
    rw [hconfig, Option.map_some, withoutPrefix_digest] at hknown
    simp [withoutPrefix_digest, hknown, hmanifest, hbare, bareManifest]
  · have hbytes := manifestOf_saved length_sha256_example savedFor_stray
    rw [← withoutPrefix_digest] at hbytes
    have hlisted : exampleWriter.digest bareBlob ∈ bareManifest.listed :=
      List.mem_append_left _ (by simp [hconfig])
    refine not_complete hbytes hparsed hlisted ?_
    have hwritten : ∀ json, exampleWriter.sha256 (exampleWriter.toVec json) ≠
        exampleWriter.sha256 bareBlob := fun json =>
      example_contents.2.2.2.2 _ (List.mem_append_left [[]] (exampleToVec_mem json))
    have hempty : exampleWriter.sha256 [] ≠ exampleWriter.sha256 bareBlob :=
      example_contents.2.2.2.2 _ (List.mem_append_right
        [bareIndex, savedWebIndex, layoutBytes] List.mem_cons_self)
    have hblob : bareBlob ∈ exampleBlobs := List.mem_cons_self
    have hmanifest := blob_ne_manifest hblob (Or.inl (Eq.refl bareManifestBytes))
    have hlayer := blob_ne_webLayer (Or.inl (Eq.refl bareBlob))
    have hcontents : strayArchive.map Entry.contents = [exampleWriter.toVec layoutFile, [], [],
        bareManifestBytes, exampleWriter.toVec (indexJson (exampleWriter.digest bareManifestBytes)
          bareManifestBytes.length), webLayer] := by
      simp only [strayArchive, archiveHead, blobEntry, List.map_cons, List.map_nil,
        List.cons_append, List.nil_append]
    have hall : ∀ contents ∈ strayArchive.map Entry.contents,
        exampleWriter.sha256 contents ≠ exampleWriter.sha256 bareBlob := by
      rw [hcontents]
      simp only [List.forall_mem_cons]
      exact ⟨hwritten _, hempty, hempty, hmanifest.symm, hwritten _, hlayer.symm,
        fun _ h => absurd h List.not_mem_nil⟩
    exact fun entry hentry => digest_ne (hall _ (List.mem_map_of_mem hentry))

/-! ## A config and another layer -/

theorem parsed_web : exampleWriter.manifest webManifestBytes = .ok webManifest := by
  rw [manifest_example]
  simp only [exampleManifest, if_neg webManifestBytes_ne, if_true]

theorem listed_web :
    webManifest.listed = [exampleWriter.digest webConfig, exampleWriter.digest webLayer] := by
  rw [digest_example, digest_example]
  rfl

theorem serves_web : Serves exampleWriter.toLibrary exampleRegistry webManifestBytes webManifest := by
  refine serves_example (fun digest hdigest => ?_) fun contents hblob =>
    blob_ne_manifest hblob (Or.inr rfl)
  rw [listed_web] at hdigest
  rcases List.mem_cons.1 hdigest with hconfig | hlayer
  · exact ⟨webConfig, by simp [exampleBlobs], hconfig.symm⟩
  · exact ⟨webLayer, by simp [exampleBlobs], (List.mem_singleton.1 hlayer).symm⟩

theorem indexReadBack_web : IndexReadBack exampleWriter webManifestBytes := by
  refine @indexReadBack_example _ webIndexJson (by rw [example_contents.2.2.1, webIndexJson]) ?_
  have hdigest : exampleWriter.digest webManifestBytes ≠ exampleWriter.digest bareManifestBytes :=
    digest_ne manifests_ne
  rw [digest_example, digest_example] at hdigest
  have hjson : webIndexJson ≠ bareIndexJson := by
    intro h
    have hsame := congrArg indexDigest h
    rw [webIndexJson, bareIndexJson, indexDigest_indexJson, indexDigest_indexJson] at hsame
    exact hdigest (Option.some.inj hsame)
  have hindex := example_contents.2.2.2.1
  simp only [exampleToVec, exampleValue, if_neg hjson, if_neg hindex, if_true]

theorem countsAllLayers_web :
    CountsAllLayers exampleWriter.toLibrary webManifestBytes webManifest := by
  have hmanifest : exampleWriter.digest webLayer ≠ exampleWriter.digest webManifestBytes :=
    digest_ne (blob_ne_manifest webLayer_mem (Or.inr rfl))
  have hconfig : exampleWriter.digest webConfig ≠ exampleWriter.digest webLayer :=
    digest_ne (blob_ne_webLayer (Or.inr rfl))
  constructor
  · simp [listed_web, Library.digest, stripPrefix_append]
  · intro layer hlayer
    have hdigest : layer.digest = exampleWriter.digest webLayer := by
      rw [List.mem_singleton.1 hlayer, digest_example]
    have hknown : webManifest.configDigest = some (exampleWriter.digest webConfig) :=
      (congrArg some (digest_example webConfig)).symm
    rw [hdigest, hknown]
    exact ⟨hmanifest, fun h => hconfig (Option.some.inj h)⟩

/-- Every saved archive of the artifact is complete, and counts its layer once. -/
theorem countedForListed_web {entries : List Entry}
    (hsaved : SavedFor exampleWriter.toLibrary webManifestBytes webManifest.listed entries) :
    CountedForListed exampleWriter.toLibrary (archiveHead exampleWriter webManifestBytes ++ entries)
      (exampleWriter.digest webManifestBytes) := by
  have hbytes := manifestOf_saved length_sha256_example hsaved
  have hcounted := countedNames_saved length_sha256_example hsaved
  rw [← withoutPrefix_digest] at hbytes hcounted
  refine ⟨webManifestBytes, webManifest, hbytes, parsed_web, ?_, ?_⟩
  · intro config hconfig
    have hlisted : config ∈ webManifest.listed := List.mem_append_left _ (by simp [hconfig])
    rcases hsaved.matching config hlisted with ⟨contents, hdigest⟩
    refine ⟨withoutPrefix config, ?_, ?_⟩
    · rw [List.filterMap_append, hsaved.names]
      exact List.mem_append_right _ (List.mem_map_of_mem hlisted)
    · rw [hdigest, withoutPrefix_digest, Library.digest]
  · have hmanifest : exampleWriter.computedHex webLayer ≠
        exampleWriter.computedHex webManifestBytes := fun h =>
      blob_ne_manifest webLayer_mem (Or.inr rfl) (hex_injective h)
    have hother : exampleWriter.computedHex webConfig ≠ exampleWriter.computedHex webLayer :=
      fun h => blob_ne_webLayer (Or.inr rfl) (hex_injective h)
    have hknown := configOf_of_manifest parsed_web
    have hconfig : webManifest.configDigest = some (exampleWriter.digest webConfig) :=
      (congrArg some (digest_example webConfig)).symm
    have hlayers : webManifest.layers.map (fun layer => withoutPrefix layer.digest) =
        [exampleWriter.computedHex webLayer] := by
      rw [← withoutPrefix_digest, digest_example]
      rfl
    rw [hconfig, Option.map_some, withoutPrefix_digest] at hknown
    rw [hcounted, hlayers, listed_web, hknown]
    simp [withoutPrefix_digest, hmanifest, hother]

/-- The artifact is accepted as it was saved, and what was saved is complete. -/
theorem web_saved_and_complete : ∃ archive,
    saveMainArtifact exampleWriter exampleRegistry webManifestBytes
        (exampleWriter.digest webManifestBytes) = .ok archive ∧
      Complete exampleWriter.toLibrary archive (exampleWriter.digest webManifestBytes) := by
  have hexact := saved_accepted_and_accepted_complete_iff exampleWriter length_sha256_example
  rcases (hexact.1 exampleRegistry webManifestBytes webManifest parsed_web serves_web
    indexReadBack_web).2 countsAllLayers_web with ⟨archive, hsave, hverified⟩
  refine ⟨archive, hsave, (hexact.2 archive _ hverified).2 ?_⟩
  rcases (saveMainArtifact_eq_ok_iff parsed_web).1 hsave with ⟨entries, hentries, rfl⟩
  exact countedForListed_web (savedFor_of_mapM length_sha256_example serves_web hentries)

end Oci
end InfraWeave
