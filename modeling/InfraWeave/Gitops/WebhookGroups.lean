import InfraWeave.Gitops.Webhook

/-!
# The groups of a push

A manifest of a file that has not been touched is the same in both trees, and asks for nothing.
Where the files of a push are exactly those that have been touched, and no key is in two files, the
groups are those of the whole trees.
-/

namespace InfraWeave
namespace Gitops

/-! ## The file of a key -/

section

variable (yaml : SerdeYaml)

/-- The changes of a file under a key. -/
def changesUnder (key : GroupKey) (file : FileChange) : List ManifestChange :=
  (extractManifestChanges yaml file).filter fun change => change.key = key

variable {yaml} {key : GroupKey} {files : List FileChange}

theorem lookup_eq_getLast :
    (insertChanges yaml files).lookup key = (files.flatMap (changesUnder yaml key)).getLast? := by
  rw [lookup_insertChanges, List.filter_flatMap]
  rfl

theorem lookup_of_none (hnone : ∀ file ∈ files, changesUnder yaml key file = []) :
    (insertChanges yaml files).lookup key = none := by
  rw [lookup_eq_getLast, List.flatMap_eq_nil_iff.2 hnone]
  rfl

/-- Where one file has the key, its last document under the key counts. -/
theorem lookup_of_only {file : FileChange} (hfile : file ∈ files)
    (honly : ∀ other ∈ files, changesUnder yaml key other ≠ [] → other = file) :
    (insertChanges yaml files).lookup key = (changesUnder yaml key file).getLast? := by
  rw [lookup_eq_getLast]
  induction files with
  | nil => cases hfile
  | cons first rest ih =>
      have honly' : ∀ other ∈ rest, changesUnder yaml key other ≠ [] → other = file :=
        fun other hother => honly other (List.mem_cons_of_mem _ hother)
      rw [List.flatMap_cons, List.getLast?_append]
      by_cases hrest : file ∈ rest
      · rw [ih hrest honly']
        by_cases hfirst : changesUnder yaml key first = []
        · rw [hfirst]
          exact Option.or_none
        · rw [honly first List.mem_cons_self hfirst]
          exact Option.or_self
      · -- The other files have nothing under the key.
        obtain rfl : file = first := (List.mem_cons.1 hfile).resolve_right hrest
        have hnil : rest.flatMap (changesUnder yaml key) = [] := by
          refine List.flatMap_eq_nil_iff.2 fun other hother => ?_
          by_contra hne
          exact hrest (honly' other hother hne ▸ hother)
        rw [hnil]
        rfl

/-- Files without changes under the key make no difference. -/
theorem lookup_eq_of_subset {files' : List FileChange} (hsub : ∀ file ∈ files, file ∈ files')
    (hall : ∀ file ∈ files', changesUnder yaml key file ≠ [] → file ∈ files)
    (hapart : ∀ file ∈ files', changesUnder yaml key file ≠ [] → ∀ file' ∈ files',
      changesUnder yaml key file' ≠ [] → file = file') :
    (insertChanges yaml files).lookup key = (insertChanges yaml files').lookup key := by
  by_cases hany : ∃ file ∈ files', changesUnder yaml key file ≠ []
  · obtain ⟨file, hfile, hne⟩ := hany
    rw [lookup_of_only (hall file hfile hne) fun other hother hne' =>
        hapart other (hsub other hother) hne' file hfile hne,
      lookup_of_only hfile fun other hother hne' => hapart other hother hne' file hfile hne]
  · have hnone : ∀ file ∈ files', changesUnder yaml key file = [] := by
      intro file hfile
      by_contra hne
      exact hany ⟨file, hfile, hne⟩
    rw [lookup_of_none hnone, lookup_of_none fun file hfile => hnone file (hsub file hfile)]

end

/-- A manifest that is the same in the same file asks for nothing. -/
theorem emit_self (key : GroupKey) (change : ManifestChange) :
    emit key change (some change) = none := by
  simp [emit]

/-! ## The groups -/

section

variable {yaml : SerdeYaml} {services : WebhookServices} {prefixFilter : Option String}
  {payload : WebhookPayload} {before after : Tree} {processed : ProcessedFiles}

theorem DeclaresApart.eq {tree : Tree} (h : DeclaresApart yaml prefixFilter tree) {key : GroupKey}
    {file file' : FileChange}
    (hfile : file ∈ tree.filter fun file => shouldProcessFile prefixFilter file.path)
    (hne : changesUnder yaml key file ≠ [])
    (hfile' : file' ∈ tree.filter fun file => shouldProcessFile prefixFilter file.path)
    (hne' : changesUnder yaml key file' ≠ []) : file = file' := by
  obtain ⟨hmem, hselected⟩ := List.mem_filter.1 hfile
  obtain ⟨hmem', hselected'⟩ := List.mem_filter.1 hfile'
  obtain ⟨change, hchange⟩ := List.exists_mem_of_ne_nil _ hne
  obtain ⟨change', hchange'⟩ := List.exists_mem_of_ne_nil _ hne'
  obtain ⟨hread, hkey⟩ := List.mem_filter.1 hchange
  obtain ⟨hread', hkey'⟩ := List.mem_filter.1 hchange'
  have hsame : change.key = change'.key :=
    (of_decide_eq_true hkey).trans (of_decide_eq_true hkey').symm
  exact h file hmem hselected file' hmem' hselected' change hread change' hread' hsame

/-- What the two ways of looking at a push show for a key: the same, or an untouched manifest. -/
theorem lookup_cases (h : Pushed services payload before after)
    (hexact : ExactFiles services prefixFilter payload before after processed)
    (hbefore : DeclaresApart yaml prefixFilter before)
    (hafter : DeclaresApart yaml prefixFilter after) (key : GroupKey) :
    let selected := fun tree : Tree =>
      tree.filter fun file => shouldProcessFile prefixFilter file.path
    let shows := fun files : List FileChange => (insertChanges yaml files).lookup key
    (shows processed.activeFiles = shows (selected after) ∧
        shows processed.deletedFiles = shows (selected before)) ∨
      (shows processed.activeFiles = none ∧ shows processed.deletedFiles = none ∧
        ∃ change, shows (selected after) = some change ∧
          shows (selected before) = some change) := by
  intro selected shows
  have hactive : ∀ file, file ∈ processed.activeFiles ↔ file ∈ selected after ∧
      Touched services payload before after file.path := by
    intro file
    rw [hexact.active, List.mem_filter, and_assoc]
  have hdeleted : ∀ file, file ∈ processed.deletedFiles ↔ file ∈ selected before ∧
      Touched services payload before after file.path := by
    intro file
    rw [hexact.deleted, List.mem_filter, and_assoc]
  -- A file that has not been touched is in both trees or in none.
  have hkept : ∀ file : FileChange, ¬ Touched services payload before after file.path →
      (file ∈ selected after ↔ file ∈ selected before) := by
    intro file hnot
    rw [List.mem_filter, List.mem_filter, mem_iff_fileAt h.nodup', mem_iff_fileAt h.nodup,
      eq_of_not_touched h hnot]
  by_cases hany : ∃ file ∈ selected after, ¬ Touched services payload before after file.path ∧
      changesUnder yaml key file ≠ []
  · obtain ⟨file, hfile, hnot, hne⟩ := hany
    have hfile' := (hkept file hnot).1 hfile
    refine Or.inr ⟨?_, ?_, ?_⟩
    · refine lookup_of_none fun other hother => ?_
      by_contra hne'
      obtain ⟨hmem, htouched⟩ := (hactive other).1 hother
      exact hnot (hafter.eq hmem hne' hfile hne ▸ htouched)
    · refine lookup_of_none fun other hother => ?_
      by_contra hne'
      obtain ⟨hmem, htouched⟩ := (hdeleted other).1 hother
      exact hnot (hbefore.eq hmem hne' hfile' hne ▸ htouched)
    · obtain ⟨change, hchange⟩ := Option.ne_none_iff_exists'.1
        (fun hnone => hne (List.getLast?_eq_none_iff.1 hnone))
      refine ⟨change, ?_, ?_⟩
      · exact (lookup_of_only hfile fun other hother hne' =>
          hafter.eq hother hne' hfile hne).trans hchange
      · exact (lookup_of_only hfile' fun other hother hne' =>
          hbefore.eq hother hne' hfile' hne).trans hchange
  · refine Or.inl ⟨?_, ?_⟩
    · refine lookup_eq_of_subset (fun file hfile => ((hactive file).1 hfile).1)
        (fun file hfile hne => (hactive file).2 ⟨hfile, ?_⟩)
        fun file hfile hne file' hfile' hne' => hafter.eq hfile hne hfile' hne'
      by_contra hnot
      exact hany ⟨file, hfile, hnot, hne⟩
    · refine lookup_eq_of_subset (fun file hfile => ((hdeleted file).1 hfile).1)
        (fun file hfile hne => (hdeleted file).2 ⟨hfile, ?_⟩)
        fun file hfile hne file' hfile' hne' => hbefore.eq hfile hne hfile' hne'
      by_contra hnot
      exact hany ⟨file, (hkept file hnot).2 hfile, hnot, hne⟩

theorem sameGroups_of_exactFiles (hyaml : yaml.RoundTrips)
    (h : Pushed services payload before after)
    (hexact : ExactFiles services prefixFilter payload before after processed)
    (hbefore : DeclaresApart yaml prefixFilter before)
    (hafter : DeclaresApart yaml prefixFilter after) :
    SameGroups yaml prefixFilter before after processed := by
  refine ⟨_, _, groupFilesByManifest_eq hyaml _, groupFilesByManifest_eq hyaml _, fun group => ?_⟩
  have hcases := lookup_cases h hexact hbefore hafter
  rw [mem_groupsOf, mem_groupsOf]
  dsimp only at hcases ⊢
  refine or_congr (exists_congr fun key => ?_) (exists_congr fun key => ?_)
  · rcases hcases key with ⟨hactive, hdeleted⟩ | ⟨hactive, hdeleted, change, hnew, hold⟩
    · rw [hactive, hdeleted]
    · rw [hactive, hdeleted, hnew, hold]
      constructor
      · rintro ⟨active, heq, -⟩
        cases heq
      · rintro ⟨active, heq, hemit⟩
        obtain rfl := Option.some.inj heq
        rw [emit_self] at hemit
        cases hemit
  · rcases hcases key with ⟨hactive, hdeleted⟩ | ⟨hactive, hdeleted, change, hnew, hold⟩
    · rw [hactive, hdeleted]
    · rw [hactive, hdeleted, hnew, hold]
      constructor
      · rintro ⟨deleted, heq, -⟩
        cases heq
      · rintro ⟨deleted, -, heq, -⟩
        cases heq

/-- The files of a push are exactly those that have been touched if and only if it can be told from
the commits which those are; then, where no key is in two files, the groups are those of the whole
trees. -/
theorem pushedFiles_iff (hyaml : yaml.RoundTrips) (services : WebhookServices)
    (prefixFilter : Option String) (payload : WebhookPayload) (before after : Tree)
    (h : Pushed services payload before after) :
    ∃ processed, processWebhookFiles services prefixFilter payload = .ok processed ∧
      (ExactFiles services prefixFilter payload before after processed ↔
        Classifiable services prefixFilter payload before after) ∧
      (Classifiable services prefixFilter payload before after →
        DeclaresApart yaml prefixFilter before → DeclaresApart yaml prefixFilter after →
          SameGroups yaml prefixFilter before after processed) := by
  have hiff : ExactFiles services prefixFilter payload before after
      (handedOver services prefixFilter payload before after) ↔
        Classifiable services prefixFilter payload before after :=
    ⟨classifiable_of_exactFiles h, exactFiles_of_classifiable h⟩
  refine ⟨_, processWebhookFiles_eq prefixFilter h, hiff, fun hclass hbefore hafter => ?_⟩
  exact sameGroups_of_exactFiles hyaml h (hiff.2 hclass) hbefore hafter

end

/-! ### Pushes to the default branch -/

/-- The file of the claim at the two commits of a push. -/
def claimServices (before after : Tree) : WebhookServices where
  getDefaultBranch := .ok "main"
  getDefaultBranchSha := .ok "before"
  getFileContentOption path ref :=
    if ref = "before" then .ok (fileAt before path) else .ok (fileAt after path)
  hashOrder files := files
  perm_hashOrder _ := .refl _

def claimPush (commits : List Commit) : WebhookPayload where
  gitRef := "refs/heads/main"
  before := "before"
  after := "after"
  commits

def addClaim : Commit :=
  ⟨["claims/web.yaml"], [], []⟩

def removeClaim : Commit :=
  ⟨[], ["claims/web.yaml"], []⟩

theorem fileAt_claim_of_ne {content path : String} (h : path ≠ "claims/web.yaml") :
    fileAt [⟨"claims/web.yaml", content⟩] path = none := by
  rw [fileAt, List.find?_cons_of_neg (by simpa using Ne.symm h)]
  rfl

theorem applies_addClaim (content : String) :
    addClaim.Applies (fileAt []) (fileAt [⟨"claims/web.yaml", content⟩]) where
  added path hpath := by
    obtain rfl := List.mem_singleton.1 hpath
    exact ⟨rfl, rfl⟩
  removed path hpath := by cases hpath
  modified path hpath := by cases hpath
  others path hadded _ _ := fileAt_claim_of_ne fun heq => hadded (List.mem_singleton.2 heq)

theorem applies_removeClaim (content : String) :
    removeClaim.Applies (fileAt [⟨"claims/web.yaml", content⟩]) (fileAt []) where
  added path hpath := by cases hpath
  removed path hpath := by
    obtain rfl := List.mem_singleton.1 hpath
    exact ⟨rfl, rfl⟩
  modified path hpath := by cases hpath
  others path _ hremoved _ :=
    (fileAt_claim_of_ne fun heq => hremoved (List.mem_singleton.2 heq)).symm

theorem currentBranch_claimPush (commits : List Commit) :
    (claimPush commits).currentBranch = "main" := by
  change (Text.stripPrefix "refs/heads/" "refs/heads/main").getD "refs/heads/main" = "main"
  decide +kernel

theorem beforeRef_claim (before after : Tree) (commits : List Commit) :
    beforeRef (claimServices before after) (claimPush commits) = .ok "before" := by
  change (if (claimPush commits).currentBranch = "main" then Except.ok "before"
    else (claimServices before after).getDefaultBranchSha) = .ok "before"
  exact if_pos (currentBranch_claimPush commits)

theorem pushed_claim {before after : Tree} {commits : List Commit}
    (hbefore : (before.map FileChange.path).Nodup) (hafter : (after.map FileChange.path).Nodup)
    (hleads : Leads commits (fileAt before) (fileAt after)) :
    Pushed (claimServices before after) (claimPush commits) before after where
  nodup := hbefore
  nodup' := hafter
  contents := ⟨"before", beforeRef_claim before after commits, fun _ => rfl⟩
  contents' _ := rfl
  leads := hleads

/-- A claim that is added is handed over, and applied as the whole trees ask for. -/
theorem pushedFiles_added :
    ∃ processed,
      processWebhookFiles (claimServices [] (claimTree "main")) none (claimPush [addClaim]) =
          .ok processed ∧
        ExactFiles (claimServices [] (claimTree "main")) none (claimPush [addClaim]) []
          (claimTree "main") processed ∧
        SameGroups claimYaml none [] (claimTree "main") processed := by
  have hleads : Leads [addClaim] (fileAt []) (fileAt (claimTree "main")) :=
    .cons (applies_addClaim _) (.nil _)
  have hclass : Classifiable (claimServices [] (claimTree "main")) none (claimPush [addClaim]) []
      (claimTree "main") :=
    ⟨fun path hpath => absurd hpath List.not_mem_nil, fun path _ _ _ => rfl,
      fun hbranch => absurd (congrArg Except.ok (currentBranch_claimPush _).symm) hbranch⟩
  obtain ⟨processed, hprocessed, hiff, hgroups⟩ :=
    pushedFiles_iff claimYaml_roundTrips (claimServices [] (claimTree "main")) none
      (claimPush [addClaim]) [] (claimTree "main")
      (pushed_claim List.nodup_nil (List.nodup_singleton _) hleads)
  refine ⟨processed, hprocessed, hiff.2 hclass, hgroups hclass ?_ ?_⟩
  · intro file hfile
    cases hfile
  · intro file hfile _ file' hfile' _ _ _ _ _ _
    rw [List.mem_singleton.1 hfile, List.mem_singleton.1 hfile']

/-- A file that is removed and added again counts as added, and the claim that it had is not
destroyed. -/
theorem readded_not_exact :
    Pushed (claimServices (claimTree "main") [⟨"claims/web.yaml", ""⟩])
        (claimPush [removeClaim, addClaim]) (claimTree "main") [⟨"claims/web.yaml", ""⟩] ∧
      ∃ processed,
        processWebhookFiles (claimServices (claimTree "main") [⟨"claims/web.yaml", ""⟩]) none
            (claimPush [removeClaim, addClaim]) = .ok processed ∧
          ¬ ExactFiles (claimServices (claimTree "main") [⟨"claims/web.yaml", ""⟩]) none
              (claimPush [removeClaim, addClaim]) (claimTree "main") [⟨"claims/web.yaml", ""⟩]
              processed ∧
          ¬ SameGroups claimYaml none (claimTree "main") [⟨"claims/web.yaml", ""⟩] processed := by
  have hpushed : Pushed (claimServices (claimTree "main") [⟨"claims/web.yaml", ""⟩])
      (claimPush [removeClaim, addClaim]) (claimTree "main") [⟨"claims/web.yaml", ""⟩] :=
    pushed_claim (List.nodup_singleton _) (List.nodup_singleton _)
      (.cons (applies_removeClaim _) (.cons (applies_addClaim _) (.nil _)))
  have hselected : shouldProcessFile none "claims/web.yaml" = true := by decide +kernel
  have hdefault : (claimServices (claimTree "main") [⟨"claims/web.yaml", ""⟩]).getDefaultBranch =
      .ok (claimPush [removeClaim, addClaim]).currentBranch :=
    congrArg Except.ok (currentBranch_claimPush _).symm
  have hprocessed : processWebhookFiles
      (claimServices (claimTree "main") [⟨"claims/web.yaml", ""⟩]) none
      (claimPush [removeClaim, addClaim]) = .ok ⟨[⟨"claims/web.yaml", ""⟩], []⟩ := by
    decide +kernel
  refine ⟨hpushed, _, hprocessed, fun h => ?_, fun h => ?_⟩
  · have hdeleted := (h.deleted ⟨"claims/web.yaml", claimText "main"⟩).2
      ⟨List.mem_cons_self, hselected, Or.inl ⟨hdefault, by decide +kernel⟩⟩
    cases hdeleted
  · obtain ⟨groups, whole, hgroups, hwhole, hsame⟩ := h
    -- The whole trees ask for the claim to be destroyed.
    have hread : extractManifestChanges claimYaml ⟨"claims/web.yaml", ""⟩ = [] := by
      decide +kernel
    have hdeleted : (insertChanges claimYaml (claimTree "main")).lookup webKey =
        some (webChange "main") := by
      rw [lookup_insertChanges, claimTree, List.flatMap_singleton, extractManifestChanges_main]
      rfl
    have hactive : (insertChanges claimYaml [⟨"claims/web.yaml", ""⟩]).lookup webKey = none := by
      rw [lookup_insertChanges, List.flatMap_singleton, hread]
      rfl
    have hnothing : groupsOf (insertChanges claimYaml [⟨"claims/web.yaml", ""⟩])
        (insertChanges claimYaml []) = [] := by
      decide +kernel
    rw [groupFilesByManifest_eq claimYaml_roundTrips] at hgroups hwhole
    have hgroup : deleteGroup webKey (webChange "main") ∈ whole := by
      rw [← Except.ok.inj hwhole]
      refine mem_groupsOf.2 (Or.inr ⟨webKey, webChange "main", ?_, ?_, rfl⟩)
      · exact hdeleted
      · exact hactive
    have hnone := (hsame _).2 hgroup
    rw [← Except.ok.inj hgroups] at hnone
    rw [hnothing] at hnone
    cases hnone

end Gitops
end InfraWeave
