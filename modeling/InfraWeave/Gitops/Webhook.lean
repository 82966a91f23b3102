import InfraWeave.Gitops.Reconciliation
import Mathlib.Data.List.Dedup

/-!
# The files of a push

A push tells which files its commits have added, removed and modified.  Their contents are fetched
after the push, and from where it started: the commit before it on the default branch, and the head
of the default branch on any other.
-/

namespace InfraWeave
namespace Gitops

structure Commit where
  added : List String
  removed : List String
  modified : List String

structure WebhookPayload where
  gitRef : String
  before : String
  after : String
  commits : List Commit

/-- The API of GitHub, for one repository and token, and the order in which a hash set is gone
through. -/
structure WebhookServices where
  getDefaultBranch : Except String String
  getDefaultBranchSha : Except String String
  /-- The content of a path at a reference; a file that is not found is none. -/
  getFileContentOption : String → String → Except String (Option String)
  hashOrder : List String → List String
  perm_hashOrder : ∀ files, (hashOrder files).Perm files

/-- The prefix is that of `GITOPS_FILE_PATH_PREFIX`, when it is set. -/
def shouldProcessFile (prefixFilter : Option String) (filePath : String) : Bool :=
  isYaml filePath &&
    match prefixFilter with
    | none => true
    | some start =>
        let start := Text.trim start
        start = "" || start.toList.isPrefixOf filePath.toList

namespace WebhookPayload

variable (payload : WebhookPayload)

def currentBranch : String :=
  (Text.stripPrefix "refs/heads/" payload.gitRef).getD payload.gitRef

def added : List String :=
  payload.commits.flatMap Commit.added

def removed : List String :=
  payload.commits.flatMap Commit.removed

def modified : List String :=
  payload.commits.flatMap Commit.modified

def allFiles : List String :=
  (payload.added ++ payload.removed ++ payload.modified).dedup

end WebhookPayload

section

variable (services : WebhookServices) (prefixFilter : Option String) (payload : WebhookPayload)

def beforeRef : Except String String := do
  let defaultBranch ← services.getDefaultBranch
  if payload.currentBranch = defaultBranch then .ok payload.before
  else services.getDefaultBranchSha

/-- The body of the loop over the files. -/
def processFile (before : String) (files : ProcessedFiles) (file : String) :
    Except String ProcessedFiles :=
  if shouldProcessFile prefixFilter file then
    if file ∈ payload.modified then do
      let activeContent ← services.getFileContentOption file payload.after
      let deletedContent ← services.getFileContentOption file before
      .ok ⟨files.activeFiles ++ [⟨file, activeContent.getD ""⟩],
        files.deletedFiles ++ [⟨file, deletedContent.getD ""⟩]⟩
    else if file ∈ payload.added then do
      let activeContent ← services.getFileContentOption file payload.after
      .ok ⟨files.activeFiles ++ (activeContent.map (FileChange.mk file)).toList, files.deletedFiles⟩
    else if file ∈ payload.removed then do
      let deletedContent ← services.getFileContentOption file before
      .ok ⟨files.activeFiles,
        files.deletedFiles ++ (deletedContent.map (FileChange.mk file)).toList⟩
    else .ok files
  else .ok files

def processWebhookFiles : Except String ProcessedFiles := do
  let before ← beforeRef services payload
  (services.hashOrder payload.allFiles).foldlM (processFile services prefixFilter payload before)
    ⟨[], []⟩

end

/-! ## Histories -/

/-- The content of a path in a tree. -/
def fileAt (tree : Tree) (path : String) : Option String :=
  (tree.find? fun file => file.path = path).map FileChange.content

/-- A commit adds files that there are not, and removes and modifies files that there are. -/
structure Commit.Applies (commit : Commit) (old new : String → Option String) : Prop where
  added : ∀ path ∈ commit.added, old path = none ∧ (new path).isSome = true
  removed : ∀ path ∈ commit.removed, (old path).isSome = true ∧ new path = none
  modified : ∀ path ∈ commit.modified, (old path).isSome = true ∧ (new path).isSome = true
  others : ∀ path, path ∉ commit.added → path ∉ commit.removed → path ∉ commit.modified →
    new path = old path

/-- The commits lead from one tree to the other. -/
inductive Leads : List Commit → (String → Option String) → (String → Option String) → Prop
  | nil (tree : String → Option String) : Leads [] tree tree
  | cons {commit : Commit} {commits : List Commit} {old next new : String → Option String}
      (happlies : commit.Applies old next) (hleads : Leads commits next new) :
      Leads (commit :: commits) old new

/-! ## What is asked -/

/-- The trees that a push goes between: GitHub has their files, and the commits of the push lead
from the one to the other. -/
structure Pushed (services : WebhookServices) (payload : WebhookPayload) (before after : Tree) :
    Prop where
  nodup : (before.map FileChange.path).Nodup
  nodup' : (after.map FileChange.path).Nodup
  contents : ∃ ref, beforeRef services payload = .ok ref ∧
    ∀ path, services.getFileContentOption path ref = .ok (fileAt before path)
  contents' : ∀ path, services.getFileContentOption path payload.after = .ok (fileAt after path)
  leads : Leads payload.commits (fileAt before) (fileAt after)

/-- On the default branch a file is touched by a commit, on other branches when the trees differ. -/
def Touched (services : WebhookServices) (payload : WebhookPayload) (before after : Tree)
    (path : String) : Prop :=
  (services.getDefaultBranch = .ok payload.currentBranch ∧ path ∈ payload.allFiles) ∨
    (services.getDefaultBranch ≠ .ok payload.currentBranch ∧ fileAt before path ≠ fileAt after path)

/-- The files that are handed over are those of the trees that have been touched. -/
structure ExactFiles (services : WebhookServices) (prefixFilter : Option String)
    (payload : WebhookPayload) (before after : Tree) (processed : ProcessedFiles) : Prop where
  active : ∀ file, file ∈ processed.activeFiles ↔ file ∈ after ∧
    shouldProcessFile prefixFilter file.path = true ∧
      Touched services payload before after file.path
  deleted : ∀ file, file ∈ processed.deletedFiles ↔ file ∈ before ∧
    shouldProcessFile prefixFilter file.path = true ∧
      Touched services payload before after file.path

/-- The groups are those of the whole trees. -/
def SameGroups (yaml : SerdeYaml) (prefixFilter : Option String) (before after : Tree)
    (processed : ProcessedFiles) : Prop :=
  let selected := fun tree : Tree =>
    tree.filter fun file => shouldProcessFile prefixFilter file.path
  ∃ groups whole, groupFilesByManifest yaml processed = .ok groups ∧
    groupFilesByManifest yaml ⟨selected after, selected before⟩ = .ok whole ∧
    ∀ group, group ∈ groups ↔ group ∈ whole

/-! ## The condition -/

/-- A modified file is there before and after, one that is added but not modified was not there
before; and on other branches than the default one, a file that is in both trees differs. -/
structure Classifiable (services : WebhookServices) (prefixFilter : Option String)
    (payload : WebhookPayload) (before after : Tree) : Prop where
  modified : ∀ path ∈ payload.modified, shouldProcessFile prefixFilter path = true →
    (fileAt before path).isSome = true ∧ (fileAt after path).isSome = true
  added : ∀ path ∈ payload.added, path ∉ payload.modified →
    shouldProcessFile prefixFilter path = true → fileAt before path = none
  differ : services.getDefaultBranch ≠ .ok payload.currentBranch → ∀ path ∈ payload.allFiles,
    shouldProcessFile prefixFilter path = true → fileAt before path = fileAt after path →
      fileAt before path = none

/-- No two files of the tree have manifests of one key. -/
def DeclaresApart (yaml : SerdeYaml) (prefixFilter : Option String) (tree : Tree) : Prop :=
  ∀ file ∈ tree, shouldProcessFile prefixFilter file.path = true →
    ∀ file' ∈ tree, shouldProcessFile prefixFilter file'.path = true →
      ∀ change ∈ extractManifestChanges yaml file,
        ∀ change' ∈ extractManifestChanges yaml file', change.key = change'.key → file = file'

/-! ## The files that are handed over -/

section

variable (payload : WebhookPayload) (before after : String → Option String)

/-- A file that is modified or added, as it is afterwards. -/
def activeChange (file : String) : Option FileChange :=
  if file ∈ payload.modified then some ⟨file, (after file).getD ""⟩
  else if file ∈ payload.added then (after file).map (FileChange.mk file)
  else none

/-- A file that is modified, or removed and not added, as it was. -/
def deletedChange (file : String) : Option FileChange :=
  if file ∈ payload.modified then some ⟨file, (before file).getD ""⟩
  else if file ∈ payload.added then none
  else if file ∈ payload.removed then (before file).map (FileChange.mk file)
  else none

variable {payload before after} {services : WebhookServices} {prefixFilter : Option String}
  {ref : String}

theorem processFile_eq
    (hbefore : ∀ path, services.getFileContentOption path ref = .ok (before path))
    (hafter : ∀ path, services.getFileContentOption path payload.after = .ok (after path))
    (files : ProcessedFiles) (file : String) :
    processFile services prefixFilter payload ref files file =
      .ok (if shouldProcessFile prefixFilter file then
        ⟨files.activeFiles ++ (activeChange payload after file).toList,
          files.deletedFiles ++ (deletedChange payload before file).toList⟩
      else files) := by
  unfold processFile activeChange deletedChange
  rw [hbefore, hafter]
  by_cases hselected : shouldProcessFile prefixFilter file = true
  · rw [if_pos hselected, if_pos hselected]
    by_cases hmodified : file ∈ payload.modified
    · rw [if_pos hmodified, if_pos hmodified, if_pos hmodified]
      rfl
    · rw [if_neg hmodified, if_neg hmodified, if_neg hmodified]
      by_cases hadded : file ∈ payload.added
      · rw [if_pos hadded, if_pos hadded, if_pos hadded, Option.toList_none, List.append_nil]
        rfl
      · rw [if_neg hadded, if_neg hadded, if_neg hadded, Option.toList_none, List.append_nil]
        by_cases hremoved : file ∈ payload.removed
        · rw [if_pos hremoved, if_pos hremoved]
          rfl
        · rw [if_neg hremoved, if_neg hremoved, Option.toList_none, List.append_nil]
  · rw [if_neg hselected, if_neg hselected]

theorem foldlM_processFile
    (hbefore : ∀ path, services.getFileContentOption path ref = .ok (before path))
    (hafter : ∀ path, services.getFileContentOption path payload.after = .ok (after path))
    (list : List String) (files : ProcessedFiles) :
    let selected := list.filter (shouldProcessFile prefixFilter)
    list.foldlM (processFile services prefixFilter payload ref) files =
      .ok ⟨files.activeFiles ++ selected.filterMap (activeChange payload after),
        files.deletedFiles ++ selected.filterMap (deletedChange payload before)⟩ := by
  induction list generalizing files with
  | nil =>
      intro selected
      change Except.ok files = .ok ⟨files.activeFiles ++ [], files.deletedFiles ++ []⟩
      rw [List.append_nil, List.append_nil]
  | cons file list ih =>
      intro selected
      rw [List.foldlM_cons, processFile_eq hbefore hafter, ok_bind, ih]
      by_cases hselected : shouldProcessFile prefixFilter file = true
      · have hlist : selected = file :: list.filter (shouldProcessFile prefixFilter) :=
          List.filter_cons_of_pos hselected
        have hcons : ∀ f : String → Option FileChange, selected.filterMap f =
            (f file).toList ++ (list.filter (shouldProcessFile prefixFilter)).filterMap f := by
          intro f
          rw [hlist]
          cases hf : f file with
          | none => rw [List.filterMap_cons_none hf, Option.toList_none, List.nil_append]
          | some change => rw [List.filterMap_cons_some hf]; rfl
        rw [if_pos hselected, hcons, hcons, List.append_assoc, List.append_assoc]
      · have hlist : selected = list.filter (shouldProcessFile prefixFilter) :=
          List.filter_cons_of_neg hselected
        rw [if_neg hselected, hlist]

end

/-- The files of a push, in the order of the hash set. -/
theorem processWebhookFiles_eq {services : WebhookServices} (prefixFilter : Option String)
    {payload : WebhookPayload} {before after : Tree} (h : Pushed services payload before after) :
    let selected := (services.hashOrder payload.allFiles).filter (shouldProcessFile prefixFilter)
    processWebhookFiles services prefixFilter payload =
      .ok ⟨selected.filterMap (activeChange payload (fileAt after)),
        selected.filterMap (deletedChange payload (fileAt before))⟩ := by
  intro selected
  obtain ⟨ref, href, hbefore⟩ := h.contents
  rw [processWebhookFiles, href, ok_bind, foldlM_processFile hbefore h.contents']
  rfl

/-! ## Histories of files -/

section

variable {commits : List Commit} {old new : String → Option String} {path : String}

/-- A file that no commit names is as it was. -/
theorem Leads.eq_of_not_named (h : Leads commits old new)
    (hadded : path ∉ commits.flatMap Commit.added)
    (hremoved : path ∉ commits.flatMap Commit.removed)
    (hmodified : path ∉ commits.flatMap Commit.modified) : new path = old path := by
  induction h with
  | nil tree => rfl
  | cons happlies hleads ih =>
      rw [List.flatMap_cons, List.mem_append, not_or] at hadded hremoved hmodified
      calc
        _ = _ := ih hadded.2 hremoved.2 hmodified.2
        _ = _ := happlies.others path hadded.1 hremoved.1 hmodified.1

/-- A file that is not there comes by a commit that adds it. -/
theorem Leads.none_of_none (h : Leads commits old new)
    (hadded : path ∉ commits.flatMap Commit.added) (hnone : old path = none) :
    new path = none := by
  induction h with
  | nil tree => exact hnone
  | @cons commit commits old next new happlies hleads ih =>
      rw [List.flatMap_cons, List.mem_append, not_or] at hadded
      refine ih hadded.2 ?_
      have hgone : ∀ {present : Prop}, (old path).isSome = true ∧ present → False := by
        rintro present ⟨hsome, -⟩
        rw [hnone] at hsome
        cases hsome
      refine (happlies.others path hadded.1 ?_ ?_).trans hnone
      · exact fun hremoved => hgone (happlies.removed path hremoved)
      · exact fun hmodified => hgone (happlies.modified path hmodified)

/-- A file that is removed and not added is not there any more. -/
theorem Leads.none_of_removed (h : Leads commits old new)
    (hadded : path ∉ commits.flatMap Commit.added)
    (hremoved : path ∈ commits.flatMap Commit.removed) : new path = none := by
  induction h with
  | nil tree => cases hremoved
  | cons happlies hleads ih =>
      rw [List.flatMap_cons, List.mem_append] at hadded hremoved
      rcases hremoved with hhere | hlater
      · exact hleads.none_of_none (fun hlater => hadded (Or.inr hlater))
          (happlies.removed path hhere).2
      · exact ih (fun hlater => hadded (Or.inr hlater)) hlater

end

/-! ## Trees -/

/-- The file that a tree has at a path. -/
theorem mem_iff_fileAt {tree : Tree} (hnodup : (tree.map FileChange.path).Nodup)
    {file : FileChange} : file ∈ tree ↔ fileAt tree file.path = some file.content := by
  unfold fileAt
  constructor
  · intro hfile
    have hsome : (tree.find? fun other => other.path = file.path).isSome = true :=
      List.find?_isSome.2 ⟨file, hfile, decide_eq_true rfl⟩
    obtain ⟨other, hother⟩ := Option.isSome_iff_exists.1 hsome
    have hfound := List.find?_some hother
    have hpath : other.path = file.path := of_decide_eq_true hfound
    obtain rfl : other = file :=
      List.inj_on_of_nodup_map hnodup (List.mem_of_find?_eq_some hother) hfile hpath
    rw [hother]
    rfl
  · intro hcontent
    obtain ⟨other, hother, heq⟩ := Option.map_eq_some_iff.1 hcontent
    have hfound := List.find?_some hother
    have hpath : other.path = file.path := of_decide_eq_true hfound
    obtain rfl : other = file := by
      cases other
      cases file
      exact congrArg₂ FileChange.mk hpath heq
    exact List.mem_of_find?_eq_some hother

section

variable {services : WebhookServices} {prefixFilter : Option String} {payload : WebhookPayload}
  {before after : Tree}

theorem mem_allFiles {path : String} : path ∈ payload.allFiles ↔
    path ∈ payload.added ∨ path ∈ payload.removed ∨ path ∈ payload.modified := by
  rw [WebhookPayload.allFiles, List.mem_dedup, List.mem_append, List.mem_append, or_assoc]

/-- A file that is neither modified nor added has been removed. -/
theorem mem_removed {path : String} (hmem : path ∈ payload.allFiles)
    (hmodified : path ∉ payload.modified) (hadded : path ∉ payload.added) :
    path ∈ payload.removed := by
  rcases mem_allFiles.1 hmem with hcase | hcase | hcase
  · exact absurd hcase hadded
  · exact hcase
  · exact absurd hcase hmodified

/-- What differs between the trees has been named by a commit. -/
theorem Touched.mem_allFiles (h : Pushed services payload before after) {path : String}
    (htouched : Touched services payload before after path) : path ∈ payload.allFiles := by
  rcases htouched with ⟨-, hmem⟩ | ⟨-, hdiffer⟩
  · exact hmem
  · by_contra hnot
    rw [Gitops.mem_allFiles, not_or, not_or] at hnot
    exact hdiffer (h.leads.eq_of_not_named hnot.1 hnot.2.1 hnot.2.2).symm

/-- A file that has not been touched is the same in both trees. -/
theorem eq_of_not_touched (h : Pushed services payload before after) {path : String}
    (hnot : ¬ Touched services payload before after path) :
    fileAt before path = fileAt after path := by
  by_cases hdefault : services.getDefaultBranch = .ok payload.currentBranch
  · have hunnamed : path ∉ payload.allFiles := fun hmem => hnot (Or.inl ⟨hdefault, hmem⟩)
    rw [mem_allFiles, not_or, not_or] at hunnamed
    exact (h.leads.eq_of_not_named hunnamed.1 hunnamed.2.1 hunnamed.2.2).symm
  · by_contra hdiffer
    exact hnot (Or.inr ⟨hdefault, hdiffer⟩)

/-! ## Exact files -/

/-- The files that are selected. -/
def selectedFiles (services : WebhookServices) (prefixFilter : Option String)
    (payload : WebhookPayload) : List String :=
  (services.hashOrder payload.allFiles).filter (shouldProcessFile prefixFilter)

theorem mem_selectedFiles {path : String} : path ∈ selectedFiles services prefixFilter payload ↔
    path ∈ payload.allFiles ∧ shouldProcessFile prefixFilter path = true := by
  rw [selectedFiles, List.mem_filter, (services.perm_hashOrder _).mem_iff]

theorem mem_active {content : String → Option String} {file : FileChange} :
    file ∈ (selectedFiles services prefixFilter payload).filterMap (activeChange payload content) ↔
      file.path ∈ payload.allFiles ∧ shouldProcessFile prefixFilter file.path = true ∧
        activeChange payload content file.path = some file := by
  rw [List.mem_filterMap]
  constructor
  · rintro ⟨path, hpath, hchange⟩
    obtain rfl : file.path = path := by
      unfold activeChange at hchange
      split at hchange
      · rw [← Option.some.inj hchange]
      · split at hchange
        · obtain ⟨text, -, rfl⟩ := Option.map_eq_some_iff.1 hchange
          rfl
        · cases hchange
    obtain ⟨hmem, hselected⟩ := mem_selectedFiles.1 hpath
    exact ⟨hmem, hselected, hchange⟩
  · rintro ⟨hmem, hselected, hchange⟩
    exact ⟨file.path, mem_selectedFiles.2 ⟨hmem, hselected⟩, hchange⟩

theorem mem_deleted {content : String → Option String} {file : FileChange} :
    file ∈ (selectedFiles services prefixFilter payload).filterMap (deletedChange payload content) ↔
      file.path ∈ payload.allFiles ∧ shouldProcessFile prefixFilter file.path = true ∧
        deletedChange payload content file.path = some file := by
  rw [List.mem_filterMap]
  constructor
  · rintro ⟨path, hpath, hchange⟩
    obtain rfl : file.path = path := by
      unfold deletedChange at hchange
      split at hchange
      · rw [← Option.some.inj hchange]
      · split at hchange
        · cases hchange
        · split at hchange
          · obtain ⟨text, -, rfl⟩ := Option.map_eq_some_iff.1 hchange
            rfl
          · cases hchange
    obtain ⟨hmem, hselected⟩ := mem_selectedFiles.1 hpath
    exact ⟨hmem, hselected, hchange⟩
  · rintro ⟨hmem, hselected, hchange⟩
    exact ⟨file.path, mem_selectedFiles.2 ⟨hmem, hselected⟩, hchange⟩

/-- The files that a push hands over. -/
def handedOver (services : WebhookServices) (prefixFilter : Option String)
    (payload : WebhookPayload) (before after : Tree) : ProcessedFiles :=
  ⟨(selectedFiles services prefixFilter payload).filterMap (activeChange payload (fileAt after)),
    (selectedFiles services prefixFilter payload).filterMap (deletedChange payload (fileAt before))⟩

theorem isSome_of_mem {tree : Tree} (hnodup : (tree.map FileChange.path).Nodup)
    {file : FileChange} (hfile : file ∈ tree) : (fileAt tree file.path).isSome = true := by
  rw [(mem_iff_fileAt hnodup).1 hfile]
  rfl

theorem classifiable_of_exactFiles (h : Pushed services payload before after)
    (hexact : ExactFiles services prefixFilter payload before after
      (handedOver services prefixFilter payload before after)) :
    Classifiable services prefixFilter payload before after := by
  have hactive := fun file => mem_active.symm.trans (hexact.active file)
  have hdeleted := fun file => mem_deleted.symm.trans (hexact.deleted file)
  refine ⟨fun path hmodified hselected => ?_, fun path hadded hmodified hselected => ?_,
    fun hbranch path hmem hselected hsame => ?_⟩
  · have hmem : path ∈ payload.allFiles := mem_allFiles.2 (Or.inr (Or.inr hmodified))
    have hnew := (hactive ⟨path, (fileAt after path).getD ""⟩).1
      ⟨hmem, hselected, if_pos hmodified⟩
    have hold := (hdeleted ⟨path, (fileAt before path).getD ""⟩).1
      ⟨hmem, hselected, if_pos hmodified⟩
    exact ⟨isSome_of_mem h.nodup hold.1, isSome_of_mem h.nodup' hnew.1⟩
  · by_contra hsome
    obtain ⟨text, htext⟩ := Option.ne_none_iff_exists'.1 hsome
    have hmem : path ∈ payload.allFiles := mem_allFiles.2 (Or.inl hadded)
    have hnothing : deletedChange payload (fileAt before) path = none := by
      rw [deletedChange, if_neg hmodified, if_pos hadded]
    have hfile : (⟨path, text⟩ : FileChange) ∈ before := (mem_iff_fileAt h.nodup).2 htext
    by_cases htouched : Touched services payload before after path
    · have hchange := ((hdeleted ⟨path, text⟩).2 ⟨hfile, hselected, htouched⟩).2.2
      exact absurd (hnothing.symm.trans hchange) (by simp)
    · -- The same file is in both trees, and is handed over although it is not touched.
      have hnew : fileAt after path = some text := (eq_of_not_touched h htouched).symm.trans htext
      have hchange : activeChange payload (fileAt after) path = some ⟨path, text⟩ := by
        rw [activeChange, if_neg hmodified, if_pos hadded, hnew]
        rfl
      exact htouched ((hactive ⟨path, text⟩).1 ⟨hmem, hselected, hchange⟩).2.2
  · by_contra hsome
    obtain ⟨text, htext⟩ := Option.ne_none_iff_exists'.1 hsome
    have hnot : ¬ Touched services payload before after path := by
      rintro (⟨hdefault, -⟩ | ⟨-, hdiffer⟩)
      · exact hbranch hdefault
      · exact hdiffer hsame
    have hnew : fileAt after path = some text := hsame.symm.trans htext
    refine hnot ((hactive ⟨path, text⟩).1 ⟨hmem, hselected, ?_⟩).2.2
    unfold activeChange
    by_cases hmodified : path ∈ payload.modified
    · rw [if_pos hmodified, hnew]
      rfl
    · rw [if_neg hmodified]
      by_cases hadded : path ∈ payload.added
      · rw [if_pos hadded, hnew]
        rfl
      · -- A file that has only been removed is not there any more.
        have hremoved := mem_removed hmem hmodified hadded
        exact absurd ((h.leads.none_of_removed hadded hremoved).symm.trans hnew) (by simp)

theorem exactFiles_of_classifiable (h : Pushed services payload before after)
    (hclass : Classifiable services prefixFilter payload before after) :
    ExactFiles services prefixFilter payload before after
      (handedOver services prefixFilter payload before after) := by
  have htouched : ∀ {path text}, path ∈ payload.allFiles →
      shouldProcessFile prefixFilter path = true → fileAt before path = some text ∨
        fileAt before path = none ∧ fileAt after path = some text →
      Touched services payload before after path := by
    intro path text hmem hselected hcases
    by_cases hdefault : services.getDefaultBranch = .ok payload.currentBranch
    · exact Or.inl ⟨hdefault, hmem⟩
    · refine Or.inr ⟨hdefault, fun hsame => ?_⟩
      have hnone := hclass.differ hdefault path hmem hselected hsame
      rcases hcases with hold | ⟨-, hnew⟩
      · exact absurd (hnone.symm.trans hold) (by simp)
      · exact absurd ((hsame.symm.trans hnone).symm.trans hnew) (by simp)
  refine ⟨fun file => mem_active.trans ⟨?_, ?_⟩, fun file => mem_deleted.trans ⟨?_, ?_⟩⟩
  · rintro ⟨hmem, hselected, hchange⟩
    have hnew : fileAt after file.path = some file.content := by
      unfold activeChange at hchange
      by_cases hmodified : file.path ∈ payload.modified
      · obtain ⟨text, htext⟩ := Option.isSome_iff_exists.1
          (hclass.modified _ hmodified hselected).2
        rw [if_pos hmodified, htext, Option.some_inj] at hchange
        rw [htext, ← hchange]
        rfl
      · rw [if_neg hmodified] at hchange
        split at hchange
        · obtain ⟨text, htext, heq⟩ := Option.map_eq_some_iff.1 hchange
          rw [htext, ← heq]
        · cases hchange
    refine ⟨(mem_iff_fileAt h.nodup').2 hnew, hselected, ?_⟩
    cases hold : fileAt before file.path with
    | some text => exact htouched hmem hselected (Or.inl hold)
    | none => exact htouched hmem hselected (Or.inr ⟨hold, hnew⟩)
  · rintro ⟨hfile, hselected, hdone⟩
    have hnew := (mem_iff_fileAt h.nodup').1 hfile
    have hmem := hdone.mem_allFiles h
    refine ⟨hmem, hselected, ?_⟩
    unfold activeChange
    by_cases hmodified : file.path ∈ payload.modified
    · rw [if_pos hmodified, hnew]
      rfl
    · rw [if_neg hmodified]
      by_cases hadded : file.path ∈ payload.added
      · rw [if_pos hadded, hnew]
        rfl
      · have hremoved := mem_removed hmem hmodified hadded
        exact absurd ((h.leads.none_of_removed hadded hremoved).symm.trans hnew) (by simp)
  · rintro ⟨hmem, hselected, hchange⟩
    have hold : fileAt before file.path = some file.content := by
      unfold deletedChange at hchange
      by_cases hmodified : file.path ∈ payload.modified
      · obtain ⟨text, htext⟩ := Option.isSome_iff_exists.1
          (hclass.modified _ hmodified hselected).1
        rw [if_pos hmodified, htext, Option.some_inj] at hchange
        rw [htext, ← hchange]
        rfl
      · rw [if_neg hmodified] at hchange
        split at hchange
        · cases hchange
        · split at hchange
          · obtain ⟨text, htext, heq⟩ := Option.map_eq_some_iff.1 hchange
            rw [htext, ← heq]
          · cases hchange
    exact ⟨(mem_iff_fileAt h.nodup).2 hold, hselected, htouched hmem hselected (Or.inl hold)⟩
  · rintro ⟨hfile, hselected, hdone⟩
    have hold := (mem_iff_fileAt h.nodup).1 hfile
    have hmem := hdone.mem_allFiles h
    refine ⟨hmem, hselected, ?_⟩
    unfold deletedChange
    by_cases hmodified : file.path ∈ payload.modified
    · rw [if_pos hmodified, hold]
      rfl
    · rw [if_neg hmodified]
      by_cases hadded : file.path ∈ payload.added
      · exact absurd ((hclass.added _ hadded hmodified hselected).symm.trans hold) (by simp)
      · have hremoved := mem_removed hmem hmodified hadded
        rw [if_neg hadded, if_pos hremoved, hold]
        rfl

end

end Gitops
end InfraWeave
