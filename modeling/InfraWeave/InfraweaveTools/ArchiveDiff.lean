import InfraWeave.Lib.OrderedMap
import InfraWeave.Lib.Semver
import InfraWeave.Lib.Text
import Mathlib.Data.Set.Card
import Mathlib.Data.String.Basic

/-!
# The diff of two archives

The zip archives of two versions are compared file by file.  Before they are compared the contents
are read as text; of what is not text, or is too large, only the number of bytes is kept.
-/

namespace InfraWeave
namespace InfraweaveTools

def maxRenderedFiles : Nat := 20

def maxDiffBytesPerFile : Nat := 16 * 1024

def maxFileBytes : Nat := 256 * 1024

/-- An entry of an archive that can be read: its size is that of its content. -/
structure ZipEntry where
  name : String
  isDir : Bool
  content : ByteArray

inductive ZipFileContent where
  | text (text : String)
  | binary (bytes : Nat)
  | tooLarge (bytes : Nat)
  deriving DecidableEq

/-! ## Reading an archive -/

def isControl (c : Char) : Bool :=
  c.toNat < 32 || (127 ≤ c.toNat && c.toNat ≤ 159)

def isTextLike (text : String) : Bool :=
  text.toList.all fun c => c == '\n' || c == '\r' || c == '\t' || !isControl c

/-- `trim_start_matches("./")`. -/
def trimDotSlash : List Char → List Char
  | '.' :: '/' :: cs => trimDotSlash cs
  | cs => cs

def ZipEntry.path (entry : ZipEntry) : String :=
  .ofList (trimDotSlash entry.name.toList)

def zipFileContent (content : ByteArray) : ZipFileContent :=
  if content.size > maxFileBytes then .tooLarge content.size
  else
    match String.fromUTF8? content with
    | some text => if isTextLike text then .text text else .binary text.utf8ByteSize
    | none => .binary content.size

def ZipEntry.isFile (entry : ZipEntry) : Bool :=
  !entry.isDir && entry.path != ""

/-- Of two entries with one path, the later stays. -/
def extractZipTextFiles (entries : List ZipEntry) : List (String × ZipFileContent) :=
  entries.foldl (fun files entry =>
    if entry.isFile then OrderedMap.insert entry.path (zipFileContent entry.content) files
    else files) []

/-! ## Rendering -/

/-- `create_patch`: the names of the two files, then their texts. -/
structure Diffy where
  createPatch : String → String → String → String → String

def describeContent : ZipFileContent → String
  | .text text => "text, " ++ toString text.utf8ByteSize ++ " bytes"
  | .binary bytes => "binary, " ++ toString bytes ++ " bytes"
  | .tooLarge bytes => "too large to diff inline, " ++ toString bytes ++ " bytes"

def truncationNote (count : Nat) : String :=
  if count > maxRenderedFiles then
    "- ... " ++ toString (count - maxRenderedFiles) ++ " more file(s) omitted\n"
  else ""

def takeLines (truncated : String) : List String → String
  | [] => truncated
  | line :: lines =>
      if truncated.utf8ByteSize + line.utf8ByteSize + 1 > maxDiffBytesPerFile then truncated
      else takeLines (truncated ++ line ++ "\n") lines

def truncateDiff (diff : String) : String :=
  if diff.utf8ByteSize ≤ maxDiffBytesPerFile then diff
  else takeLines "" (Text.lines diff) ++ "... diff truncated ...\n"

variable (diffy : Diffy)

def renderTextDiff (oldFilename newFilename old new : String) : String :=
  let patch := truncateDiff (diffy.createPatch oldFilename newFilename old new)
  "```diff\n" ++ patch ++ (if patch.toList.getLast? = some '\n' then "" else "\n") ++ "```\n"

/-- One file of the added and the removed ones: the text of its diff, unless it is no text. -/
def renderOneSided (textDiff : String → String) (file : String × ZipFileContent) : String :=
  "#### `" ++ file.1 ++ "` (" ++ describeContent file.2 ++ ")\n\n" ++
    (match file.2 with
      | .text text => textDiff text
      | _ => "- content omitted; not a text file that can be diffed inline\n") ++ "\n"

def renderAdded (file : String × ZipFileContent) : String :=
  renderOneSided (fun text => renderTextDiff diffy "/dev/null" ("new/" ++ file.1) "" text) file

def renderRemoved (file : String × ZipFileContent) : String :=
  renderOneSided (fun text => renderTextDiff diffy ("old/" ++ file.1) "/dev/null" text "") file

def renderChanged (file : String × ZipFileContent × ZipFileContent) : String :=
  "#### `" ++ file.1 ++ "`\n\n" ++
    (match file.2 with
      | (.text old, .text new) => renderTextDiff diffy ("old/" ++ file.1) ("new/" ++ file.1) old new
      | (old, new) =>
          "- changed from " ++ describeContent old ++ " to " ++ describeContent new ++ "\n") ++ "\n"

/-- A section of the files, the first of them rendered; nothing when there are none. -/
def renderSection {α : Type} (title ending : String) (render : α → String) (files : List α) :
    String :=
  if files.isEmpty then ""
  else
    title ++ String.join ((files.take maxRenderedFiles).map render) ++
      truncationNote files.length ++ ending

def heading (kind name track previousVersion version : String) : String :=
  "## Diff: " ++ kind ++ " `" ++ name ++ "` " ++ previousVersion ++ " -> " ++ version ++
    " (track: " ++ track ++ ")\n\n"

def summaryLine (added removed changed : Nat) : String :=
  "**Summary:** " ++ toString added ++ " file(s) added, " ++ toString removed ++ " removed, " ++
    toString changed ++ " changed.\n\n"

def noChanges : String :=
  "No file content changes found between the downloaded zips."

/-- The files of the one map whose path the other does not have. -/
def onlyIn (files others : List (String × ZipFileContent)) : List (String × ZipFileContent) :=
  files.filter fun file => (others.lookup file.1).isNone

def changedFiles (oldFiles newFiles : List (String × ZipFileContent)) :
    List (String × ZipFileContent × ZipFileContent) :=
  oldFiles.filterMap fun file =>
    ((newFiles.lookup file.1).filter fun new => new != file.2).map fun new => (file.1, file.2, new)

def renderFileDiff (kind name track previousVersion version : String)
    (oldFiles newFiles : List (String × ZipFileContent)) : String :=
  let added := onlyIn newFiles oldFiles
  let removed := onlyIn oldFiles newFiles
  let changed := changedFiles oldFiles newFiles
  heading kind name track previousVersion version ++
    summaryLine added.length removed.length changed.length ++
    (if added.isEmpty && removed.isEmpty && changed.isEmpty then noChanges
    else
      renderSection "### Added files\n" "\n" (renderAdded diffy) added ++
        renderSection "### Removed files\n" "\n" (renderRemoved diffy) removed ++
        renderSection "### Changed files\n" "" (renderChanged diffy) changed)

/-- The entries of the archives, where both can be read. -/
def renderZipDiff (openZip : ByteArray → Except String (List ZipEntry))
    (kind name track previousVersion version : String) (oldZip newZip : ByteArray) :
    Except String String := do
  let oldEntries ← (openZip oldZip).mapError fun _ =>
    "could not read `" ++ name ++ "` " ++ previousVersion ++ " zip"
  let newEntries ← (openZip newZip).mapError fun _ =>
    "could not read `" ++ name ++ "` " ++ version ++ " zip"
  .ok (renderFileDiff diffy kind name track previousVersion version
    (extractZipTextFiles oldEntries) (extractZipTextFiles newEntries))

/-! ## What has changed -/

/-- The content of the file at a path, as the archive leaves it there. -/
def fileAt (entries : List ZipEntry) (path : String) : Option ByteArray :=
  (entries.filter fun entry => entry.isFile && entry.path == path).getLast?.map ZipEntry.content

def addedPaths (old new : List ZipEntry) : Set String :=
  {path | fileAt old path = none ∧ fileAt new path ≠ none}

def changedPaths (old new : List ZipEntry) : Set String :=
  {path | ∃ b b', fileAt old path = some b ∧ fileAt new path = some b' ∧ b ≠ b'}

def SameFiles (old new : List ZipEntry) : Prop :=
  ∀ path, fileAt old path = fileAt new path

/-- A text under the heading that says that nothing has changed only when nothing has, and that
otherwise counts what has changed. -/
structure FaithfulDiff (heading text : String) (old new : List ZipEntry) : Prop where
  unchanged : text = heading ++ summaryLine 0 0 0 ++ noChanges → SameFiles old new
  counts : text ≠ heading ++ summaryLine 0 0 0 ++ noChanges → ∃ rest,
    text = heading ++ summaryLine (addedPaths old new).ncard (addedPaths new old).ncard
      (changedPaths old new).ncard ++ rest

def isText (content : ByteArray) : Bool :=
  ((String.fromUTF8? content).map isTextLike).getD false

/-- Contents of one length, both too large to be read or both no text. -/
def Indistinct (b b' : ByteArray) : Prop :=
  b.size = b'.size ∧ (maxFileBytes < b.size ∨ isText b = false ∧ isText b' = false)

/-- No file has been replaced by another content that looks the same. -/
def NothingHidden (old new : List ZipEntry) : Prop :=
  ∀ path b b', fileAt old path = some b → fileAt new path = some b' → b ≠ b' → ¬ Indistinct b b'

/-! ## What is kept of a content -/

theorem fromUTF8?_eq_some {b : ByteArray} {text : String} (h : String.fromUTF8? b = some text) :
    text.toByteArray = b := by
  unfold String.fromUTF8? at h
  split at h
  · rw [← Option.some.inj h]
    rfl
  · cases h

/-- A large content, a text, or a content that is no text. -/
theorem zipFileContent_cases (b : ByteArray) :
    maxFileBytes < b.size ∧ zipFileContent b = .tooLarge b.size ∨
      b.size ≤ maxFileBytes ∧ isText b = true ∧
        (∃ text, text.toByteArray = b ∧ zipFileContent b = .text text) ∨
      b.size ≤ maxFileBytes ∧ isText b = false ∧ zipFileContent b = .binary b.size := by
  unfold zipFileContent isText
  by_cases hlarge : b.size > maxFileBytes
  · exact Or.inl ⟨hlarge, if_pos hlarge⟩
  · have hsmall : b.size ≤ maxFileBytes := Nat.le_of_not_lt hlarge
    right
    rw [if_neg hlarge]
    cases hdecode : String.fromUTF8? b with
    | none => exact Or.inr ⟨hsmall, rfl, rfl⟩
    | some text =>
        have hbytes := fromUTF8?_eq_some hdecode
        cases hlike : isTextLike text with
        | true => exact Or.inl ⟨hsmall, hlike, text, hbytes, by simp [hlike]⟩
        | false =>
            refine Or.inr ⟨hsmall, hlike, ?_⟩
            have hsize : text.utf8ByteSize = b.size := by
              rw [← hbytes]
              rfl
            simp [hlike, hsize]

theorem eq_or_indistinct {b b' : ByteArray} (h : zipFileContent b = zipFileContent b') :
    b = b' ∨ Indistinct b b' := by
  rcases zipFileContent_cases b with ⟨hlarge, hb⟩ | ⟨-, -, text, hbytes, hb⟩ | ⟨-, htext, hb⟩
  · rcases zipFileContent_cases b' with ⟨-, hb'⟩ | ⟨-, -, text', -, hb'⟩ | ⟨-, -, hb'⟩ <;>
      rw [hb, hb'] at h
    · exact Or.inr ⟨ZipFileContent.tooLarge.inj h, Or.inl hlarge⟩
    · cases h
    · cases h
  · rcases zipFileContent_cases b' with ⟨-, hb'⟩ | ⟨-, -, text', hbytes', hb'⟩ | ⟨-, -, hb'⟩ <;>
      rw [hb, hb'] at h
    · cases h
    · exact Or.inl (by rw [← hbytes, ← hbytes', ZipFileContent.text.inj h])
    · cases h
  · rcases zipFileContent_cases b' with ⟨-, hb'⟩ | ⟨-, -, text', -, hb'⟩ | ⟨-, htext', hb'⟩ <;>
      rw [hb, hb'] at h
    · cases h
    · cases h
    · exact Or.inr ⟨ZipFileContent.binary.inj h, Or.inr ⟨htext, htext'⟩⟩

theorem zipFileContent_of_large {b : ByteArray} (h : maxFileBytes < b.size) :
    zipFileContent b = .tooLarge b.size := if_pos h

theorem zipFileContent_of_not_isText {b : ByteArray} (hsmall : ¬ maxFileBytes < b.size)
    (h : isText b = false) : zipFileContent b = .binary b.size := by
  rcases zipFileContent_cases b with ⟨hlarge, -⟩ | ⟨-, htext, -⟩ | ⟨-, -, hb⟩
  · exact absurd hlarge hsmall
  · rw [h] at htext
    cases htext
  · exact hb

theorem zipFileContent_of_indistinct {b b' : ByteArray} (h : Indistinct b b') :
    zipFileContent b = zipFileContent b' := by
  rcases h with ⟨hsize, hkind⟩
  by_cases hlarge : maxFileBytes < b.size
  · rw [zipFileContent_of_large hlarge, zipFileContent_of_large (hsize ▸ hlarge), hsize]
  · rcases hkind with hlarge' | ⟨htext, htext'⟩
    · exact absurd hlarge' hlarge
    · rw [zipFileContent_of_not_isText hlarge htext,
        zipFileContent_of_not_isText (hsize ▸ hlarge) htext', hsize]

/-! ## The maps and the files -/

theorem fileAt_concat (entries : List ZipEntry) (entry : ZipEntry) (path : String) :
    fileAt (entries ++ [entry]) path =
      if entry.isFile && entry.path == path then some entry.content else fileAt entries path := by
  unfold fileAt
  rw [List.filter_append, List.filter_cons]
  split
  · simp
  · simp

theorem extractZipTextFiles_concat (entries : List ZipEntry) (entry : ZipEntry) :
    extractZipTextFiles (entries ++ [entry]) =
      if entry.isFile then
        OrderedMap.insert entry.path (zipFileContent entry.content) (extractZipTextFiles entries)
      else extractZipTextFiles entries :=
  List.foldl_append

/-- The map holds what is kept of the files. -/
theorem lookup_extractZipTextFiles (entries : List ZipEntry) (path : String) :
    (extractZipTextFiles entries).lookup path = (fileAt entries path).map zipFileContent := by
  induction entries using List.reverseRecOn with
  | nil => rfl
  | append_singleton entries entry ih =>
      rw [extractZipTextFiles_concat, fileAt_concat]
      cases hfile : entry.isFile with
      | false => simpa using ih
      | true =>
          rw [if_pos rfl, OrderedMap.lookup_insert, ih]
          by_cases hpath : path = entry.path
          · simp [hpath]
          · simp [hpath, Ne.symm hpath]

theorem pairwise_extractZipTextFiles (entries : List ZipEntry) :
    (extractZipTextFiles entries).Pairwise fun a b => a.1 < b.1 := by
  induction entries using List.reverseRecOn with
  | nil => exact List.Pairwise.nil
  | append_singleton entries entry ih =>
      rw [extractZipTextFiles_concat]
      split
      · exact OrderedMap.pairwise_insert _ _ ih
      · exact ih

theorem nodup_keys_extract (entries : List ZipEntry) :
    (OrderedMap.keys (extractZipTextFiles entries)).Nodup :=
  OrderedMap.nodup_keys_of_pairwise (pairwise_extractZipTextFiles entries)

/-! ## Counting -/

theorem length_eq_ncard {α : Type} {files : List (String × α)}
    (hnodup : (files.map Prod.fst).Nodup) {paths : Set String}
    (h : ∀ path, path ∈ files.map Prod.fst ↔ path ∈ paths) : files.length = paths.ncard := by
  have hpaths : paths = ((files.map Prod.fst).toFinset : Set String) := by
    ext path
    rw [Finset.mem_coe, List.mem_toFinset, h]
  rw [hpaths, Set.ncard_coe_finset, List.toFinset_card_of_nodup hnodup, List.length_map]

theorem mem_onlyIn_iff (old new : List ZipEntry) (path : String) :
    path ∈ (onlyIn (extractZipTextFiles new) (extractZipTextFiles old)).map Prod.fst ↔
      path ∈ addedPaths old new := by
  have hnone : ∀ entries : List ZipEntry, (extractZipTextFiles entries).lookup path = none ↔
      fileAt entries path = none := by
    intro entries
    rw [lookup_extractZipTextFiles, Option.map_eq_none_iff]
  constructor
  · intro h
    rcases List.mem_map.1 h with ⟨file, hfile, rfl⟩
    rcases List.mem_filter.1 hfile with ⟨hmem, hothers⟩
    have hlookup := OrderedMap.lookup_of_mem (nodup_keys_extract new) hmem
    refine ⟨(hnone old).1 (Option.isNone_iff_eq_none.1 hothers), fun hempty => ?_⟩
    rw [(hnone new).2 hempty] at hlookup
    cases hlookup
  · rintro ⟨hold, hnew⟩
    rcases Option.ne_none_iff_exists'.1 (mt (hnone new).1 hnew) with ⟨content, hcontent⟩
    refine List.mem_map.2 ⟨(path, content), List.mem_filter.2 ⟨?_, ?_⟩, rfl⟩
    · exact OrderedMap.mem_of_lookup hcontent
    · exact Option.isNone_iff_eq_none.2 ((hnone old).2 hold)

theorem length_onlyIn (old new : List ZipEntry) :
    (onlyIn (extractZipTextFiles new) (extractZipTextFiles old)).length =
      (addedPaths old new).ncard := by
  refine length_eq_ncard ?_ (mem_onlyIn_iff old new)
  exact (List.filter_sublist.map Prod.fst).nodup (nodup_keys_extract new)

/-- Paths whose contents are seen to differ. -/
def seenChanged (old new : List ZipEntry) : Set String :=
  {path | ∃ b b', fileAt old path = some b ∧ fileAt new path = some b' ∧
    zipFileContent b' ≠ zipFileContent b}

theorem mem_changedFiles_iff (old new : List ZipEntry) (path : String) :
    path ∈ (changedFiles (extractZipTextFiles old) (extractZipTextFiles new)).map Prod.fst ↔
      path ∈ seenChanged old new := by
  constructor
  · intro h
    rcases List.mem_map.1 h with ⟨changed, hchanged, rfl⟩
    rcases List.mem_filterMap.1 hchanged with ⟨file, hmem, hnew⟩
    rcases Option.map_eq_some_iff.1 hnew with ⟨content, hfilter, rfl⟩
    rcases Option.filter_eq_some_iff.1 hfilter with ⟨hlookup', hne⟩
    have hlookup := OrderedMap.lookup_of_mem (nodup_keys_extract old) hmem
    rw [lookup_extractZipTextFiles] at hlookup hlookup'
    rcases Option.map_eq_some_iff.1 hlookup with ⟨b, hb, hkept⟩
    rcases Option.map_eq_some_iff.1 hlookup' with ⟨b', hb', hkept'⟩
    refine ⟨b, b', hb, hb', ?_⟩
    rw [hkept, hkept']
    simpa using hne
  · rintro ⟨b, b', hb, hb', hne⟩
    have hlookup : (extractZipTextFiles old).lookup path = some (zipFileContent b) := by
      rw [lookup_extractZipTextFiles, hb]
      rfl
    have hlookup' : (extractZipTextFiles new).lookup path = some (zipFileContent b') := by
      rw [lookup_extractZipTextFiles, hb']
      rfl
    refine List.mem_map.2 ⟨(path, zipFileContent b, zipFileContent b'), ?_, rfl⟩
    refine List.mem_filterMap.2 ⟨(path, zipFileContent b), OrderedMap.mem_of_lookup hlookup, ?_⟩
    simp [hlookup', hne]

theorem length_changedFiles (old new : List ZipEntry) :
    (changedFiles (extractZipTextFiles old) (extractZipTextFiles new)).length =
      (seenChanged old new).ncard := by
  refine length_eq_ncard ?_ (mem_changedFiles_iff old new)
  refine OrderedMap.nodup_keys_of_pairwise ?_
  refine List.Pairwise.filterMap _ ?_ (pairwise_extractZipTextFiles old)
  intro a a' hlt c hc c' hc'
  rcases Option.map_eq_some_iff.1 hc with ⟨_, -, rfl⟩
  rcases Option.map_eq_some_iff.1 hc' with ⟨_, -, rfl⟩
  exact hlt

theorem seenChanged_subset (old new : List ZipEntry) :
    seenChanged old new ⊆ changedPaths old new := by
  rintro path ⟨b, b', hb, hb', hne⟩
  exact ⟨b, b', hb, hb', fun heq => hne (by rw [heq])⟩

theorem finite_changedPaths (old new : List ZipEntry) : (changedPaths old new).Finite := by
  refine (List.finite_toSet (OrderedMap.keys (extractZipTextFiles old))).subset ?_
  rintro path ⟨b, -, hb, -, -⟩
  refine OrderedMap.mem_keys_iff.2 ⟨zipFileContent b, ?_⟩
  rw [lookup_extractZipTextFiles, hb]
  rfl

/-- As many changes are seen as there are exactly when none is hidden. -/
theorem ncard_seenChanged_iff (old new : List ZipEntry) :
    (seenChanged old new).ncard = (changedPaths old new).ncard ↔ NothingHidden old new := by
  constructor
  · intro h path b b' hb hb' hne hindistinct
    have hsets : seenChanged old new = changedPaths old new :=
      Set.eq_of_subset_of_ncard_le (seenChanged_subset old new) h.ge (finite_changedPaths old new)
    have hmem : path ∈ seenChanged old new := hsets ▸ ⟨b, b', hb, hb', hne⟩
    rcases hmem with ⟨c, c', hc, hc', hseen⟩
    obtain rfl : b = c := Option.some.inj (hb.symm.trans hc)
    obtain rfl : b' = c' := Option.some.inj (hb'.symm.trans hc')
    exact hseen (zipFileContent_of_indistinct hindistinct).symm
  · intro h
    have hsets : changedPaths old new ⊆ seenChanged old new := by
      rintro path ⟨b, b', hb, hb', hne⟩
      refine ⟨b, b', hb, hb', fun heq => ?_⟩
      rcases eq_or_indistinct heq.symm with hsame | hindistinct
      · exact hne hsame
      · exact h path b b' hb hb' hne hindistinct
    rw [Set.Subset.antisymm (seenChanged_subset old new) hsets]

/-! ## The summary -/

/-- A number ends where a space follows it. -/
theorem toDigits_append_inj {m n : Nat} {r s : List Char} (hr : r.head? = some ' ')
    (hs : s.head? = some ' ') (h : Nat.toDigits 10 m ++ r = Nat.toDigits 10 n ++ s) :
    m = n ∧ r = s := by
  have hdigits : ∀ n, (Nat.toDigits 10 n).all Char.isDigit = true := fun n =>
    List.all_eq_true.2 fun _ hc => Nat.isDigit_of_mem_toDigits (by decide) (by decide) hc
  have hspace : ∀ {cs : List Char}, cs.head? = some ' ' →
      ∀ c, cs.head? = some c → c.isDigit = false := by
    intro cs hcs c hc
    rw [hcs] at hc
    obtain rfl := Option.some.inj hc
    rfl
  rcases Semver.append_inj_of_all (hdigits m) (hdigits n) (hspace hr) (hspace hs) h with
    ⟨hnumber, hrest⟩
  have hvalue := congrArg (fun ds => Nat.ofDigitChars 10 ds 0) hnumber
  exact ⟨by simpa [Nat.ofDigitChars_toDigits] using hvalue, hrest⟩

/-- Three numbers with a space after each can be read off a text. -/
theorem counts_inj {s₀ s₁ s₂ s₃ start rest rest' : String} {a r c a' r' c' : Nat}
    (h₁ : s₁.toList.head? = some ' ') (h₂ : s₂.toList.head? = some ' ')
    (h₃ : s₃.toList.head? = some ' ')
    (h : start ++ (s₀ ++ toString a ++ s₁ ++ toString r ++ s₂ ++ toString c ++ s₃) ++ rest =
      start ++ (s₀ ++ toString a' ++ s₁ ++ toString r' ++ s₂ ++ toString c' ++ s₃) ++ rest') :
    a = a' ∧ r = r' ∧ c = c' := by
  have hhead : ∀ {s : String} (cs : List Char), s.toList.head? = some ' ' →
      (s.toList ++ cs).head? = some ' ' := by
    intro s cs hs
    rw [List.head?_append, hs, Option.some_or]
  have hlists := congrArg String.toList h
  simp only [String.toList_append, List.append_assoc, Nat.toString_eq_ofList_toDigits,
    String.toList_ofList] at hlists
  have hadded := toDigits_append_inj (hhead _ h₁) (hhead _ h₁)
    (List.append_cancel_left (List.append_cancel_left hlists))
  have hremoved := toDigits_append_inj (hhead _ h₂) (hhead _ h₂)
    (List.append_cancel_left hadded.2)
  have hchanged := toDigits_append_inj (hhead _ h₃) (hhead _ h₃)
    (List.append_cancel_left hremoved.2)
  exact ⟨hadded.1, hremoved.1, hchanged.1⟩

theorem summaryLine_inj {a r c a' r' c' : Nat} {start rest rest' : String}
    (h : start ++ summaryLine a r c ++ rest = start ++ summaryLine a' r' c' ++ rest') :
    a = a' ∧ r = r' ∧ c = c' :=
  counts_inj (by decide) (by decide) (by decide) h

theorem finite_addedPaths (old new : List ZipEntry) : (addedPaths old new).Finite := by
  refine (List.finite_toSet (OrderedMap.keys (extractZipTextFiles new))).subset ?_
  rintro path ⟨-, hnew⟩
  rcases Option.ne_none_iff_exists'.1 hnew with ⟨b, hb⟩
  refine OrderedMap.mem_keys_iff.2 ⟨zipFileContent b, ?_⟩
  rw [lookup_extractZipTextFiles, hb]
  rfl

theorem sameFiles_of_ncard {old new : List ZipEntry} (hadded : (addedPaths old new).ncard = 0)
    (hremoved : (addedPaths new old).ncard = 0) (hchanged : (changedPaths old new).ncard = 0) :
    SameFiles old new := by
  have hnone : ∀ path, path ∉ addedPaths old new := by
    simp [(Set.ncard_eq_zero (finite_addedPaths old new)).1 hadded]
  have hnone' : ∀ path, path ∉ addedPaths new old := by
    simp [(Set.ncard_eq_zero (finite_addedPaths new old)).1 hremoved]
  have hunchanged : ∀ path, path ∉ changedPaths old new := by
    simp [(Set.ncard_eq_zero (finite_changedPaths old new)).1 hchanged]
  intro path
  cases hold : fileAt old path with
  | none =>
      cases hnew : fileAt new path with
      | none => rfl
      | some b' => exact absurd ⟨hold, by simp [hnew]⟩ (hnone path)
  | some b =>
      cases hnew : fileAt new path with
      | none => exact absurd ⟨hnew, by simp [hold]⟩ (hnone' path)
      | some b' =>
          by_contra hne
          exact hunchanged path ⟨b, b', hold, hnew, fun heq => hne (by rw [heq])⟩

theorem renderFileDiff_eq (kind name track previousVersion version : String)
    (old new : List ZipEntry) : ∃ rest,
      renderFileDiff diffy kind name track previousVersion version (extractZipTextFiles old)
          (extractZipTextFiles new) =
        heading kind name track previousVersion version ++
          summaryLine (addedPaths old new).ncard (addedPaths new old).ncard
            (seenChanged old new).ncard ++ rest := by
  rw [renderFileDiff, length_onlyIn, length_onlyIn, length_changedFiles]
  exact ⟨_, rfl⟩

theorem faithfulDiff_renderFileDiff_iff (kind name track previousVersion version : String)
    (old new : List ZipEntry) :
    FaithfulDiff (heading kind name track previousVersion version)
        (renderFileDiff diffy kind name track previousVersion version (extractZipTextFiles old)
          (extractZipTextFiles new)) old new ↔
      NothingHidden old new := by
  rcases renderFileDiff_eq diffy kind name track previousVersion version old new with
    ⟨rest, htext⟩
  rw [htext, ← ncard_seenChanged_iff]
  constructor
  · intro h
    by_cases hnone : heading kind name track previousVersion version ++
        summaryLine (addedPaths old new).ncard (addedPaths new old).ncard
          (seenChanged old new).ncard ++ rest =
        heading kind name track previousVersion version ++ summaryLine 0 0 0 ++ noChanges
    · have hsame := h.unchanged hnone
      have hempty : changedPaths old new = ∅ := by
        ext path
        refine iff_of_false ?_ (Set.notMem_empty path)
        rintro ⟨b, b', hb, hb', hne⟩
        exact hne (Option.some.inj (hb.symm.trans ((hsame path).trans hb')))
      rw [hempty, (summaryLine_inj hnone).2.2, Set.ncard_empty]
    · rcases h.counts hnone with ⟨rest', hcounts⟩
      exact (summaryLine_inj hcounts).2.2
  · intro h
    rw [h]
    exact
      { unchanged := fun hnone => by
          rcases summaryLine_inj hnone with ⟨hadded, hremoved, hchanged⟩
          exact sameFiles_of_ncard hadded hremoved hchanged
        counts := fun _ => ⟨rest, rfl⟩ }

/-- The diff is faithful when no file has been replaced by one of its length, both too large to be
read or both no text. -/
theorem faithfulDiff_iff {openZip : ByteArray → Except String (List ZipEntry)}
    {oldZip newZip : ByteArray} {old new : List ZipEntry} (hold : openZip oldZip = .ok old)
    (hnew : openZip newZip = .ok new) (kind name track previousVersion version : String) :
    ∃ text, renderZipDiff diffy openZip kind name track previousVersion version oldZip newZip =
        .ok text ∧
      (FaithfulDiff (heading kind name track previousVersion version) text old new ↔
        NothingHidden old new) := by
  refine ⟨_, ?_, faithfulDiff_renderFileDiff_iff diffy kind name track previousVersion version
    old new⟩
  rw [renderZipDiff, hold, hnew]
  rfl

/-! ## Archives of one file -/

theorem isText_toByteArray (text : String) : isText text.toByteArray = isTextLike text := by
  have hdecode : String.fromUTF8? text.toByteArray = some text := dif_pos text.isValidUTF8
  rw [isText, hdecode]
  rfl

def oneFile (name content : String) : List ZipEntry :=
  [{ name := name, isDir := false, content := content.toByteArray }]

/-- Archives of one byte and of two bytes. -/
def openSample (old new : List ZipEntry) (zip : ByteArray) : Except String (List ZipEntry) :=
  if zip.size = 1 then .ok old else if zip.size = 2 then .ok new else .error "invalid zip archive"

def noPatch : Diffy :=
  ⟨fun _ _ _ _ => ""⟩

theorem content_of_fileAt {name content path : String} {b : ByteArray}
    (h : fileAt (oneFile name content) path = some b) : content.toByteArray = b := by
  rcases Option.map_eq_some_iff.1 h with ⟨entry, hentry, rfl⟩
  have hmem := List.mem_of_mem_filter (List.mem_of_getLast? hentry)
  rw [List.mem_singleton.1 hmem]

theorem faithfulDiff_longerText :
    ∃ text, renderZipDiff noPatch (openSample (oneFile "main.tf" "a") (oneFile "./main.tf" "ab"))
        "module" "web" "stable" "1.0.0" "1.1.0" ⟨#[0]⟩ ⟨#[0, 0]⟩ = .ok text ∧
      FaithfulDiff (heading "module" "web" "stable" "1.0.0" "1.1.0") text
        (oneFile "main.tf" "a") (oneFile "./main.tf" "ab") := by
  have hhidden : NothingHidden (oneFile "main.tf" "a") (oneFile "./main.tf" "ab") := by
    intro path b b' hb hb' _ hindistinct
    have hsize := hindistinct.1
    rw [← content_of_fileAt hb, ← content_of_fileAt hb'] at hsize
    exact absurd hsize (by decide)
  have hold : openSample (oneFile "main.tf" "a") (oneFile "./main.tf" "ab") ⟨#[0]⟩ =
      .ok (oneFile "main.tf" "a") := rfl
  have hnew : openSample (oneFile "main.tf" "a") (oneFile "./main.tf" "ab") ⟨#[0, 0]⟩ =
      .ok (oneFile "./main.tf" "ab") := rfl
  rcases faithfulDiff_iff noPatch hold hnew "module" "web" "stable" "1.0.0" "1.1.0" with
    ⟨text, hrender, hiff⟩
  exact ⟨text, hrender, hiff.2 hhidden⟩

/-- A file of one byte that is no text is replaced by another. -/
theorem not_faithfulDiff_control :
    ∃ text, renderZipDiff noPatch
        (openSample (oneFile "logo.png" "\u0000") (oneFile "logo.png" "\u0001"))
        "module" "web" "stable" "1.0.0" "1.1.0" ⟨#[0]⟩ ⟨#[0, 0]⟩ = .ok text ∧
      ¬ FaithfulDiff (heading "module" "web" "stable" "1.0.0" "1.1.0") text
        (oneFile "logo.png" "\u0000") (oneFile "logo.png" "\u0001") := by
  refine ⟨_, rfl, fun h => ?_⟩
  have hhidden := (faithfulDiff_renderFileDiff_iff noPatch _ _ _ _ _ _ _).1 h
  have hne : "\u0000".toByteArray ≠ "\u0001".toByteArray := by
    rw [ne_eq, String.toByteArray_inj]
    decide
  have hpath : String.ofList (trimDotSlash "logo.png".toList) = "logo.png" := by decide
  have hfile : ∀ content, fileAt (oneFile "logo.png" content) "logo.png" =
      some content.toByteArray := by
    intro content
    have hconcat := fileAt_concat [] ⟨"logo.png", false, content.toByteArray⟩ "logo.png"
    rw [ZipEntry.isFile, ZipEntry.path, hpath] at hconcat
    exact hconcat
  have hindistinct : Indistinct "\u0000".toByteArray "\u0001".toByteArray :=
    ⟨rfl, Or.inr ⟨(isText_toByteArray _).trans (by decide),
      (isText_toByteArray _).trans (by decide)⟩⟩
  exact hhidden "logo.png" _ _ (hfile _) (hfile _) hne hindistinct

end InfraweaveTools
end InfraWeave
