import InfraWeave.Gitops.Gitops
import InfraWeave.Lib.Deltas
import InfraWeave.Lib.OrderedMap

/-!
# What the groups do to the declared manifests

The groups are the edits that two views ask for: the manifests that the files which are handed over
show before and after the change.  Whether they lead from what the tree declares before to what it
declares after depends on whether these views show the change.
-/

namespace InfraWeave
namespace Gitops

open Deltas

variable {yaml : SerdeYaml}

/-! ## Views -/

/-- What files show for a key: the last of their documents counts. -/
def shown (yaml : SerdeYaml) (files : List FileChange) (key : GroupKey) : Option String :=
  ((files.flatMap (extractManifestChanges yaml)).filter fun change => change.key = key).getLast?.map
    ManifestChange.content

theorem lookup_foldl_insert (list : List ManifestChange) (changes : Changes) (key : GroupKey) :
    (list.foldl (fun changes change => changes.insert change.key change) changes).lookup key =
      ((list.filter fun change => change.key = key).getLast?).or (changes.lookup key) := by
  induction list generalizing changes with
  | nil => rfl
  | cons change list ih =>
      rw [List.foldl_cons, ih]
      by_cases hkey : change.key = key
      · subst hkey
        rw [AList.lookup_insert, List.filter_cons_of_pos (by simp)]
        cases hlast : (list.filter fun other => other.key = change.key) with
        | nil => rfl
        | cons other rest => simp [List.getLast?_cons]
      · rw [AList.lookup_insert_ne (Ne.symm hkey), List.filter_cons_of_neg (by simpa using hkey)]

theorem lookup_insertChanges (files : List FileChange) (key : GroupKey) :
    (insertChanges yaml files).lookup key =
      ((files.flatMap (extractManifestChanges yaml)).filter fun change =>
        change.key = key).getLast? := by
  rw [insertChanges, lookup_foldl_insert]
  simp

theorem shown_eq (files : List FileChange) (key : GroupKey) :
    shown yaml files key = ((insertChanges yaml files).lookup key).map ManifestChange.content := by
  rw [lookup_insertChanges, shown]

/-- The change is a manifest that has been read and printed, under its key. -/
def Canonical (yaml : SerdeYaml) (key : GroupKey) (change : ManifestChange) : Prop :=
  ∃ manifest, yaml.print manifest = some change.content ∧ manifest.key = key

theorem canonical_of_lookup {files : List FileChange} {key : GroupKey} {change : ManifestChange}
    (h : (insertChanges yaml files).lookup key = some change) : Canonical yaml key change := by
  rw [lookup_insertChanges] at h
  obtain ⟨hmem, hkey⟩ := List.mem_filter.1 (List.mem_of_getLast? h)
  obtain ⟨file, -, hchange⟩ := List.mem_flatMap.1 hmem
  obtain ⟨doc, -, hdoc⟩ := List.mem_filterMap.1 hchange
  obtain ⟨manifest, -, hdoc⟩ := Option.bind_eq_some_iff.1 hdoc
  obtain ⟨canonical, hprint, hdoc⟩ := Option.bind_eq_some_iff.1 hdoc
  obtain rfl := Option.some.inj hdoc
  exact ⟨manifest, hprint, by simpa using hkey⟩

/-! ## The groups -/

/-- The group of an active change, if there is one. -/
def emit (key : GroupKey) (active : ManifestChange) (deleted : Option ManifestChange) :
    Option GroupedFile :=
  match deleted with
  | none => some (applyGroup key active)
  | some deleted =>
      if active.content = deleted.content then
        if active.file.content = deleted.file.content ∧ active.file.path ≠ deleted.file.path then
          some (renameGroup key active)
        else none
      else some (applyGroup key active)

/-- Two changes under one key are in one region, so that the case of different regions does not
occur. -/
theorem groupActive_eq (hyaml : yaml.RoundTrips) {key : GroupKey} {active : ManifestChange}
    (hactive : Canonical yaml key active) {deletedChanges : Changes}
    (hdeleted : ∀ deleted, deletedChanges.lookup key = some deleted → Canonical yaml key deleted)
    (groups : List GroupedFile) :
    groupActive yaml groups deletedChanges key active =
      .ok (groups ++ (emit key active (deletedChanges.lookup key)).toList, deletedChanges) := by
  unfold groupActive emit
  cases hlookup : deletedChanges.lookup key with
  | none => rfl
  | some deleted =>
      dsimp only
      by_cases hcontent : active.content = deleted.content
      · simp only [hcontent, true_and, if_true]
        split
        · rfl
        · rw [Option.toList_none, List.append_nil]
      · rw [if_neg fun h => hcontent h.1, if_neg hcontent, if_neg hcontent]
        obtain ⟨manifest, hprint, hkey⟩ := hactive
        obtain ⟨manifest', hprint', hkey'⟩ := hdeleted deleted hlookup
        obtain ⟨a, ha, hregion⟩ := hyaml _ _ hprint
        obtain ⟨d, hd, hregion'⟩ := hyaml _ _ hprint'
        have hsame : a.spec.region = d.spec.region := by
          calc
            a.spec.region = manifest.key.region := hregion
            _ = manifest'.key.region := by rw [hkey, hkey']
            _ = d.spec.region := hregion'.symm
        simp only [ha, hd, hsame, ne_eq, not_true_eq_false, if_false]
        rfl

theorem groupActives_eq (hyaml : yaml.RoundTrips) {deletedChanges : Changes}
    (hdeleted : ∀ key deleted, deletedChanges.lookup key = some deleted →
      Canonical yaml key deleted)
    {entries : List (Sigma fun _ : GroupKey => ManifestChange)}
    (hentries : ∀ entry ∈ entries, Canonical yaml entry.1 entry.2) (groups : List GroupedFile) :
    groupActives yaml entries groups deletedChanges =
      .ok (groups ++ entries.filterMap fun entry =>
        emit entry.1 entry.2 (deletedChanges.lookup entry.1), deletedChanges) := by
  induction entries generalizing groups with
  | nil =>
      rw [List.filterMap_nil, List.append_nil]
      rfl
  | cons entry entries ih =>
      obtain ⟨key, active⟩ := entry
      have hactive := hentries _ List.mem_cons_self
      rw [groupActives, groupActive_eq hyaml hactive (hdeleted key), ok_bind]
      dsimp only
      rw [ih fun entry hentry => hentries entry (List.mem_cons_of_mem _ hentry)]
      cases hemit : emit key active (deletedChanges.lookup key) <;> simp [hemit]

/-- The groups of the active changes, and those of the deleted changes under other keys. -/
def groupsOf (activeChanges deletedChanges : Changes) : List GroupedFile :=
  (activeChanges.entries.filterMap fun entry =>
      emit entry.1 entry.2 (deletedChanges.lookup entry.1)) ++
    deletedChanges.entries.filterMap fun entry =>
      if entry.1 ∈ activeChanges then none else some (deleteGroup entry.1 entry.2)

theorem groupFilesByManifest_eq (hyaml : yaml.RoundTrips) (processed : ProcessedFiles) :
    groupFilesByManifest yaml processed =
      .ok (groupsOf (insertChanges yaml processed.activeFiles)
        (insertChanges yaml processed.deletedFiles)) := by
  have hentries : ∀ entry ∈ (insertChanges yaml processed.activeFiles).entries,
      Canonical yaml entry.1 entry.2 := fun entry hentry =>
    canonical_of_lookup (AList.mem_lookup_iff.2 hentry)
  rw [groupFilesByManifest]
  dsimp only
  rw [groupActives_eq hyaml (fun _ _ => canonical_of_lookup) hentries, ok_bind]
  rfl

/-! ## The edits of the groups -/

def GroupedFile.edit (group : GroupedFile) : Edit String :=
  match group.active with
  | some (_, content) => .set content
  | none => if group.deleted.isSome then .remove else .keep

def edits (groups : List GroupedFile) : List (GroupKey × Edit String) :=
  groups.map fun group => (group.key, group.edit)

section

variable {activeChanges deletedChanges : Changes}

/-- What changes show for a key. -/
def contentOf (changes : Changes) (key : GroupKey) : Option String :=
  (changes.lookup key).map ManifestChange.content

theorem emit_cases {key : GroupKey} {active : ManifestChange} {deleted : Option ManifestChange}
    {group : GroupedFile} (h : emit key active deleted = some group) :
    group.key = key ∧ group.deleted = none ∧
      group.edit = requested (deleted.map ManifestChange.content) (some active.content) := by
  cases deleted with
  | none =>
      obtain rfl := Option.some.inj h
      exact ⟨rfl, rfl, rfl⟩
  | some deleted =>
      unfold emit at h
      dsimp only at h
      split at h
      · rename_i hcontent
        split at h
        · obtain rfl := Option.some.inj h
          refine ⟨rfl, rfl, ?_⟩
          rw [Option.map_some, ← hcontent, requested, if_pos rfl]
          rfl
        · cases h
      · rename_i hcontent
        obtain rfl := Option.some.inj h
        have hne : some deleted.content ≠ some active.content :=
          fun heq => hcontent (Option.some.inj heq).symm
        refine ⟨rfl, rfl, ?_⟩
        rw [Option.map_some, requested, if_neg hne]
        rfl

/-- Where the views differ, an active change has the group that applies it. -/
theorem emit_of_ne {key : GroupKey} {active : ManifestChange} {deleted : Option ManifestChange}
    (h : deleted.map ManifestChange.content ≠ some active.content) :
    emit key active deleted = some (applyGroup key active) := by
  cases deleted with
  | none => rfl
  | some deleted =>
      have hne : active.content ≠ deleted.content := fun heq => h (congrArg some heq.symm)
      exact if_neg hne

theorem mem_groupsOf {group : GroupedFile} : group ∈ groupsOf activeChanges deletedChanges ↔
    (∃ key active, activeChanges.lookup key = some active ∧
      emit key active (deletedChanges.lookup key) = some group) ∨
    ∃ key deleted, deletedChanges.lookup key = some deleted ∧ activeChanges.lookup key = none ∧
      group = deleteGroup key deleted := by
  unfold groupsOf
  rw [List.mem_append, List.mem_filterMap, List.mem_filterMap]
  refine or_congr ?_ ?_
  · constructor
    · rintro ⟨⟨key, active⟩, hentry, hemit⟩
      exact ⟨key, active, AList.mem_lookup_iff.2 hentry, hemit⟩
    · rintro ⟨key, active, hlookup, hemit⟩
      exact ⟨⟨key, active⟩, AList.mem_lookup_iff.1 hlookup, hemit⟩
  · constructor
    · rintro ⟨⟨key, deleted⟩, hentry, hgroup⟩
      dsimp only at hgroup
      split at hgroup
      · cases hgroup
      · rename_i hnot
        exact ⟨key, deleted, AList.mem_lookup_iff.2 hentry, AList.lookup_eq_none.2 hnot,
          (Option.some.inj hgroup).symm⟩
    · rintro ⟨key, deleted, hlookup, hnone, rfl⟩
      exact ⟨⟨key, deleted⟩, AList.mem_lookup_iff.1 hlookup,
        if_neg (AList.lookup_eq_none.1 hnone)⟩

theorem keys_filterMap_sublist {entries : List (Sigma fun _ : GroupKey => ManifestChange)}
    {f : (Sigma fun _ : GroupKey => ManifestChange) → Option GroupedFile}
    (h : ∀ entry group, f entry = some group → group.key = entry.1) :
    ((entries.filterMap f).map GroupedFile.key).Sublist entries.keys := by
  induction entries with
  | nil => exact List.Sublist.slnil
  | cons entry entries ih =>
      rw [List.keys_cons]
      cases hf : f entry with
      | none =>
          rw [List.filterMap_cons_none hf]
          exact ih.cons _
      | some group =>
          rw [List.filterMap_cons_some hf, List.map_cons, h entry group hf]
          exact ih.cons_cons _

theorem nodup_keys_groupsOf :
    ((groupsOf activeChanges deletedChanges).map GroupedFile.key).Nodup := by
  unfold groupsOf
  rw [List.map_append, List.nodup_append]
  refine ⟨?_, ?_, ?_⟩
  · refine (keys_filterMap_sublist fun entry group hgroup => ?_).nodup activeChanges.nodupKeys
    exact (emit_cases hgroup).1
  · refine (keys_filterMap_sublist fun entry group hgroup => ?_).nodup deletedChanges.nodupKeys
    split at hgroup
    · cases hgroup
    · rw [← Option.some.inj hgroup]
      rfl
  · -- A key of the first groups is active, and a key of the others is not.
    intro key hfirst key' hsecond heq
    subst heq
    have hactive := (keys_filterMap_sublist fun entry group hgroup =>
      (emit_cases hgroup).1).subset hfirst
    obtain ⟨group, hgroup, hkey⟩ := List.mem_map.1 hsecond
    obtain ⟨entry, -, hentry⟩ := List.mem_filterMap.1 hgroup
    split at hentry
    · cases hentry
    · rename_i hnot
      rw [← Option.some.inj hentry] at hkey
      change entry.1 = key at hkey
      exact hnot (hkey ▸ hactive)

/-- The groups are the edits that the two views ask for. -/
theorem requested_groupsOf : Requested (edits (groupsOf activeChanges deletedChanges))
    (contentOf deletedChanges) (contentOf activeChanges) where
  keys := by
    rw [edits, List.map_map]
    exact nodup_keys_groupsOf
  edit key edit h := by
    obtain ⟨group, hgroup, heq⟩ := List.mem_map.1 h
    cases heq
    rcases mem_groupsOf.1 hgroup with ⟨key, active, hactive, hemit⟩ |
      ⟨key, deleted, hdeleted, hactive, rfl⟩
    · obtain ⟨rfl, -, hedit⟩ := emit_cases hemit
      rw [hedit, contentOf, contentOf, hactive]
      rfl
    · change Edit.remove = requested (contentOf deletedChanges key) (contentOf activeChanges key)
      rw [contentOf, contentOf, hdeleted, hactive]
      rfl
  complete key hne := by
    rw [edits, List.map_map, List.mem_map]
    unfold contentOf at hne
    cases hactive : activeChanges.lookup key with
    | some active =>
        rw [hactive, Option.map_some] at hne
        exact ⟨applyGroup key active, mem_groupsOf.2 (Or.inl ⟨key, active, hactive,
          emit_of_ne hne⟩), rfl⟩
    | none =>
        cases hdeleted : deletedChanges.lookup key with
        | some deleted =>
            exact ⟨deleteGroup key deleted, mem_groupsOf.2 (Or.inr ⟨key, deleted, hdeleted,
              hactive, rfl⟩), rfl⟩
        | none =>
            rw [hactive, hdeleted] at hne
            exact absurd rfl hne

end

/-! ## Declared manifests -/

abbrev Tree :=
  List FileChange

section

variable (declares : String → List (GroupKey × String))

/-- The manifests of the YAML files of a tree; `declares` says what a file declares. -/
def manifests (tree : Tree) : List (GroupKey × String) :=
  (tree.filter fun file => isYaml file.path).flatMap fun file => declares file.content

def declared (tree : Tree) (key : GroupKey) : Option String :=
  (manifests declares tree).lookup key

def DeclaredOnce (tree : Tree) : Prop :=
  (OrderedMap.keys (manifests declares tree)).Nodup

end

/-- Nothing is deleted that is still declared, nothing is lost, a key has one group at most, and the
groups lead from one set of manifests to the other. -/
structure Reconciles (groups : List GroupedFile) (before after : GroupKey → Option String) :
    Prop where
  noLiveDelete : ∀ group ∈ groups, group.deleted.isSome = true → after group.key = none
  applied : ∀ key content, after key = some content → before key ≠ some content →
    ∃ group ∈ groups, group.key = key ∧ ∃ file, group.active = some (file, content)
  once : (groups.map GroupedFile.key).Nodup
  replays : replay (edits groups) before = after

theorem reconciles_groupsOf_iff {activeChanges deletedChanges : Changes}
    (before after : GroupKey → Option String) :
    Reconciles (groupsOf activeChanges deletedChanges) before after ↔
      ∀ key, Shows (contentOf deletedChanges key) (contentOf activeChanges key) (before key)
        (after key) := by
  have hrequested : Requested (edits (groupsOf activeChanges deletedChanges))
      (contentOf deletedChanges) (contentOf activeChanges) := requested_groupsOf
  have hreplay : ∀ old new, replay (edits (groupsOf activeChanges deletedChanges)) old = new ↔
      ∀ key, Shows (contentOf deletedChanges key) (contentOf activeChanges key) (old key)
        (new key) := fun _ _ => hrequested.replay_eq_iff
  constructor
  · intro h
    exact (hreplay _ _).1 h.replays
  · intro hshows
    refine ⟨fun group hgroup hdeleted => ?_, fun key content hafter hbefore => ?_,
      nodup_keys_groupsOf, (hreplay _ _).2 hshows⟩
    · rcases mem_groupsOf.1 hgroup with ⟨key, active, -, hemit⟩ |
        ⟨key, deleted, hlookup, hnone, rfl⟩
      · rw [(emit_cases hemit).2.1] at hdeleted
        cases hdeleted
      · -- The file that declared it shows it before, and none shows it after.
        have hchanged := (hshows key).changed (by rw [contentOf, contentOf, hlookup, hnone]; simp)
        rw [contentOf, hnone] at hchanged
        exact hchanged
    · have hne : contentOf deletedChanges key ≠ contentOf activeChanges key := by
        intro hsame
        rw [(hshows key).unchanged hsame] at hafter
        exact hbefore hafter
      have hview := (hshows key).changed hne
      rw [hafter] at hview
      obtain ⟨active, hactive, rfl⟩ := Option.map_eq_some_iff.1 hview.symm
      rw [← hview] at hne
      exact ⟨_, mem_groupsOf.2 (Or.inl ⟨key, active, hactive, emit_of_ne hne⟩), rfl, active.file,
        rfl⟩

/-! ## Files that are reported whole -/

section

variable (yaml) (declares : String → List (GroupKey × String))

/-- The files that are handed over are the YAML files in which the trees differ, and the code reads
in them what they declare. -/
structure Reported (activeFiles deletedFiles : List FileChange) (before after : Tree) : Prop where
  differ : ∃ kept : List FileChange,
    (before.filter fun file => isYaml file.path).Perm (deletedFiles ++ kept) ∧
      (after.filter fun file => isYaml file.path).Perm (activeFiles ++ kept)
  read : ∀ file ∈ activeFiles ++ deletedFiles,
    ((extractManifestChanges yaml file).map fun change => (change.key, change.content)) =
      declares file.content

end

section

variable {declares : String → List (GroupKey × String)}

/-- Where a key is there once at most, its last document is its only one. -/
theorem getLast_filter_eq_lookup {changes : List ManifestChange}
    (hkeys : (changes.map ManifestChange.key).Nodup) (key : GroupKey) :
    ((changes.filter fun change => change.key = key).getLast?).map ManifestChange.content =
      (changes.map fun change => (change.key, change.content)).lookup key := by
  induction changes with
  | nil => rfl
  | cons change changes ih =>
      obtain ⟨hfirst, hrest⟩ := List.nodup_cons.1 hkeys
      rw [List.map_cons, OrderedMap.lookup_cons_ite]
      by_cases hkey : change.key = key
      · have hnone : (changes.filter fun other => other.key = key) = [] := by
          refine List.filter_eq_nil_iff.2 fun other hother hsame => hfirst ?_
          have heq : other.key = change.key := (of_decide_eq_true hsame).trans hkey.symm
          exact heq ▸ List.mem_map_of_mem hother
        rw [List.filter_cons_of_pos (by simpa using hkey), hnone, if_pos hkey.symm]
        rfl
      · rw [List.filter_cons_of_neg (by simpa using hkey), if_neg (Ne.symm hkey)]
        exact ih hrest

theorem shown_eq_lookup {files : List FileChange}
    (hread : ∀ file ∈ files,
      ((extractManifestChanges yaml file).map fun change => (change.key, change.content)) =
        declares file.content)
    (hkeys : (OrderedMap.keys (files.flatMap fun file => declares file.content)).Nodup)
    (key : GroupKey) :
    shown yaml files key = (files.flatMap fun file => declares file.content).lookup key := by
  have hentries : ((files.flatMap (extractManifestChanges yaml)).map fun change =>
      (change.key, change.content)) = files.flatMap fun file => declares file.content := by
    rw [List.map_flatMap]
    exact List.flatMap_congr hread
  rw [← hentries, OrderedMap.keys, List.map_map] at hkeys
  rw [← hentries]
  exact getLast_filter_eq_lookup hkeys key

/-- What a tree declares is what its files declare, in any order. -/
theorem declared_eq_or {tree : Tree} {files kept : List FileChange}
    (hfiles : (tree.filter fun file => isYaml file.path).Perm (files ++ kept))
    (honce : DeclaredOnce declares tree) :
    let read := fun files : List FileChange => files.flatMap fun file => declares file.content
    (OrderedMap.keys (read files)).Nodup ∧
      (∀ key, declared declares tree key = ((read files).lookup key).or ((read kept).lookup key)) ∧
      ∀ key value, (read kept).lookup key = some value → (read files).lookup key = none := by
  intro read
  have hperm : (manifests declares tree).Perm (read files ++ read kept) := by
    have happend : read (files ++ kept) = read files ++ read kept := List.flatMap_append
    rw [← happend]
    exact hfiles.flatMap_right _
  have hkeys : (OrderedMap.keys (read files ++ read kept)).Nodup :=
    (hperm.map Prod.fst).nodup_iff.1 honce
  have hdisjoint := hkeys
  rw [OrderedMap.keys, List.map_append, List.nodup_append] at hdisjoint
  refine ⟨hdisjoint.1, fun key => ?_, fun key value hkept => ?_⟩
  · rw [declared, OrderedMap.lookup_perm honce hperm, List.lookup_append]
  · by_contra hsome
    obtain ⟨value', hvalue'⟩ := Option.ne_none_iff_exists'.1 hsome
    have hmem := OrderedMap.mem_keys_iff.2 ⟨value', hvalue'⟩
    exact hdisjoint.2.2 key hmem key (OrderedMap.mem_keys_iff.2 ⟨value, hkept⟩) rfl

/-- Where the files are reported whole, and no key is declared twice, all changes are shown. -/
theorem Reported.shows {activeFiles deletedFiles : List FileChange} {before after : Tree}
    (h : Reported yaml declares activeFiles deletedFiles before after)
    (hbefore : DeclaredOnce declares before) (hafter : DeclaredOnce declares after)
    (key : GroupKey) :
    Shows (shown yaml deletedFiles key) (shown yaml activeFiles key)
      (declared declares before key) (declared declares after key) := by
  obtain ⟨kept, hdeleted, hactive⟩ := h.differ
  obtain ⟨hkeys, hold, hfree⟩ := declared_eq_or hdeleted hbefore
  obtain ⟨hkeys', hnew, hfree'⟩ := declared_eq_or hactive hafter
  have hview : shown yaml deletedFiles key = _ :=
    shown_eq_lookup (fun file hfile => h.read file (List.mem_append_right _ hfile)) hkeys key
  have hview' : shown yaml activeFiles key = _ :=
    shown_eq_lookup (fun file hfile => h.read file (List.mem_append_left _ hfile)) hkeys' key
  rw [hold, hnew, ← hview, ← hview']
  refine ⟨fun hne => ?_, fun hsame => by rw [hsame]⟩
  -- A key of a file that is kept is in no file that is handed over.
  cases hkept : (kept.flatMap fun file => declares file.content).lookup key with
  | none => exact Option.or_none
  | some value =>
      rw [hview, hview', hfree key value hkept, hfree' key value hkept] at hne
      exact absurd rfl hne

theorem Reported.reconciles {activeFiles deletedFiles : List FileChange} {before after : Tree}
    (h : Reported yaml declares activeFiles deletedFiles before after)
    (hbefore : DeclaredOnce declares before) (hafter : DeclaredOnce declares after) :
    Reconciles (groupsOf (insertChanges yaml activeFiles) (insertChanges yaml deletedFiles))
      (declared declares before) (declared declares after) := by
  refine (reconciles_groupsOf_iff _ _).2 fun key => ?_
  have hshows := h.shows hbefore hafter key
  rw [shown_eq, shown_eq] at hshows
  exact hshows

end

/-! ## The groups of a diff -/

/-- The groups of a diff reconcile what two trees declare exactly when the files that are handed
over show, for each key, what has changed. -/
theorem reconciles_iff (hyaml : yaml.RoundTrips) {git : Git} {beforeRef afterRef : String}
    {changes : List (String × String)} (hdiff : getChangedFiles git beforeRef afterRef = .ok changes)
    (pathPrefix : Option String) (declares : String → List (GroupKey × String))
    (before after : Tree) :
    let selected := changes.filter fun change => isSelected pathPrefix change.2
    ∃ processed groups, getDiff git beforeRef afterRef pathPrefix = .ok processed ∧
      groupFilesByManifest yaml processed = .ok groups ∧
      (Reconciles groups (declared declares before) (declared declares after) ↔
        ∀ key, Shows (shown yaml (selected.filterMap (deletedFile git beforeRef afterRef)) key)
          (shown yaml (selected.filterMap (activeFile git afterRef)) key)
          (declared declares before key) (declared declares after key)) := by
  intro selected
  refine ⟨_, _, getDiff_eq git beforeRef afterRef pathPrefix hdiff,
    groupFilesByManifest_eq hyaml _, ?_⟩
  rw [reconciles_groupsOf_iff]
  simp only [shown_eq]
  rfl

/-! ### A claim that refers to a revision -/

@[irreducible] def claimText (reference : String) : String :=
  "\x7bapiVersion: v1, kind: Web, metadata: \x7bname: web\x7d, " ++
    "spec: \x7bregion: eu, variables: \x7b\x7d, reference: " ++ reference ++ "\x7d\x7d"

/-- The claim as `serde_yaml` writes it. -/
@[irreducible] def canonicalText (reference : String) : String :=
  "metadata:\n  name: web\n  namespace: null\n  annotations: null\n  labels: null\n" ++
    "apiVersion: v1\nkind: Web\nspec:\n  moduleVersion: null\n  stackVersion: null\n" ++
    "  region: eu\n  reference: " ++ reference ++
    "\n  variables: \x7b\x7d\n  dependencies: null\n  driftDetection: null\n"

def claimManifest (reference : String) : Manifest where
  metadata := ⟨"web", none⟩
  apiVersion := "v1"
  kind := "Web"
  spec := ⟨none, none, "eu", some reference, [], none, none⟩
  space := none
  labels := none

def webKey : GroupKey :=
  ⟨"v1", "Web", "web", "default", "eu"⟩

def claimReferences : List String :=
  ["main", "v---2"]

def referenceOf (text : String) : Option String :=
  claimReferences.find? fun reference =>
    text = claimText reference ∨ text = canonicalText reference

/-- Reads and writes these claims. -/
def claimYaml : SerdeYaml where
  fromStr text := (referenceOf text).map claimManifest
  print manifest :=
    if manifest.key = webKey then
      (manifest.spec.reference.filter (· ∈ claimReferences)).map canonicalText
    else none

theorem claimYaml_roundTrips : claimYaml.RoundTrips := by
  intro manifest text h
  change (if manifest.key = webKey then _ else none) = some text at h
  split at h
  · rename_i hkey
    obtain ⟨reference, hreference, rfl⟩ := Option.map_eq_some_iff.1 h
    have hmem : reference ∈ claimReferences := by
      simpa using (Option.filter_eq_some_iff.1 hreference).2
    have hsome : (referenceOf (canonicalText reference)).isSome = true :=
      List.find?_isSome.2 ⟨reference, hmem, decide_eq_true (Or.inr rfl)⟩
    obtain ⟨reference', hfind⟩ := Option.isSome_iff_exists.1 hsome
    have hregion : manifest.spec.region = "eu" := congrArg GroupKey.region hkey
    refine ⟨claimManifest reference', ?_, hregion.symm⟩
    simp only [claimYaml, hfind, Option.map_some]
  · cases h

/-- A file has the whole text as its only claim. -/
def claimDeclares (content : String) : List (GroupKey × String) :=
  if content = claimText "main" then [(webKey, canonicalText "main")]
  else if content = claimText "v---2" then [(webKey, canonicalText "v---2")]
  else []

def claimTree (reference : String) : Tree :=
  [⟨"claims/web.yaml", claimText reference⟩]

def webChange (reference : String) : ManifestChange :=
  ⟨webKey, canonicalText reference, ⟨"claims/web.yaml", claimText reference⟩⟩

/-- The file of the claim is the only one that differs. -/
def claimGit (status before after : String) : Git where
  diff _ _ := .ok (status ++ "\tclaims/web.yaml\n")
  showFile object :=
    if object = "before:claims/web.yaml" then .ok before
    else if object = "after:claims/web.yaml" then .ok after
    else .error "fatal: path does not exist"

theorem filter_claimTree (reference : String) :
    (claimTree reference).filter (fun file => isYaml file.path) = claimTree reference := by
  have hyaml : isYaml "claims/web.yaml" = true := by decide +kernel
  refine List.filter_eq_self.2 fun file hfile => ?_
  rw [List.mem_singleton.1 hfile]
  exact hyaml

theorem manifests_claimTree (reference : String) :
    manifests claimDeclares (claimTree reference) = claimDeclares (claimText reference) := by
  rw [manifests, filter_claimTree, claimTree, List.flatMap_singleton]

theorem claimDeclares_main : claimDeclares (claimText "main") = [(webKey, canonicalText "main")] :=
  if_pos rfl

theorem claimDeclares_dashes :
    claimDeclares (claimText "v---2") = [(webKey, canonicalText "v---2")] := by
  have hne : claimText "v---2" ≠ claimText "main" := by decide +kernel
  rw [claimDeclares, if_neg hne, if_pos rfl]

theorem extractManifestChanges_main :
    extractManifestChanges claimYaml ⟨"claims/web.yaml", claimText "main"⟩ =
      [webChange "main"] := by
  have hdocuments : documents (claimText "main") = [claimText "main"] := by decide +kernel
  have hreference : referenceOf (claimText "main") = some "main" := by decide +kernel
  have hread : claimYaml.fromStr (claimText "main") = some (claimManifest "main") := by
    simp only [claimYaml, hreference, Option.map_some]
  have hkey : (claimManifest "main").key = webKey := by decide +kernel
  have hprint : claimYaml.print (claimManifest "main") = some (canonicalText "main") := by
    simp only [claimYaml, hkey, if_true]
    rfl
  rw [extractManifestChanges, hdocuments, List.filterMap_cons_some (b := webChange "main")]
  · rfl
  · rw [hread, Option.bind_eq_bind, Option.bind_some, hprint]
    rfl

/-- None of the pieces is a claim. -/
theorem extractManifestChanges_dashes :
    extractManifestChanges claimYaml ⟨"claims/web.yaml", claimText "v---2"⟩ = [] := by
  have hreferences : (documents (claimText "v---2")).filterMap referenceOf = [] := by
    decide +kernel
  refine List.filterMap_eq_nil_iff.2 fun doc hdoc => ?_
  have hreference := List.filterMap_eq_nil_iff.1 hreferences doc hdoc
  have hread : claimYaml.fromStr doc = none := by
    simp only [claimYaml, hreference, Option.map_none]
  rw [hread]
  rfl

/-- A claim that is added is applied. -/
theorem reconciles_added : ∃ processed groups,
    getDiff (claimGit "A" "" (claimText "main")) "before" "after" none = .ok processed ∧
      groupFilesByManifest claimYaml processed = .ok groups ∧
      Reconciles groups (declared claimDeclares [])
        (declared claimDeclares (claimTree "main")) := by
  have hchanges : ∀ text, getChangedFiles (claimGit "A" "" text) "before" "after" =
      .ok [("A", "claims/web.yaml")] := by
    intro text
    have hlines : (Text.lines "A\tclaims/web.yaml\n").filterMap parseLine =
        [("A", "claims/web.yaml")] := by decide +kernel
    exact congrArg Except.ok hlines
  have hreported : Reported claimYaml claimDeclares (claimTree "main") [] []
      (claimTree "main") := by
    refine ⟨⟨[], .refl _, .of_eq (filter_claimTree _)⟩, fun file hfile => ?_⟩
    obtain rfl : file = _ := List.mem_singleton.1 hfile
    rw [extractManifestChanges_main, claimDeclares_main]
    rfl
  obtain ⟨processed, groups, hdiff, hgroups, hiff⟩ :=
    reconciles_iff claimYaml_roundTrips (hchanges (claimText "main")) none claimDeclares []
      (claimTree "main")
  refine ⟨processed, groups, hdiff, hgroups, hiff.2 fun key => ?_⟩
  have honce : DeclaredOnce claimDeclares (claimTree "main") := by
    rw [DeclaredOnce, manifests_claimTree, claimDeclares_main]
    exact List.nodup_singleton _
  exact hreported.shows List.nodup_nil honce key

/-- A revision with dashes in its name takes the claim apart, and it is deleted. -/
theorem not_reconciles_dashes :
    DeclaredOnce claimDeclares (claimTree "main") ∧
      DeclaredOnce claimDeclares (claimTree "v---2") ∧
      ∃ processed groups,
        getDiff (claimGit "M" (claimText "main") (claimText "v---2")) "before" "after" none =
            .ok processed ∧
          groupFilesByManifest claimYaml processed = .ok groups ∧
          ¬ Reconciles groups (declared claimDeclares (claimTree "main"))
            (declared claimDeclares (claimTree "v---2")) := by
  have hchanges : getChangedFiles (claimGit "M" (claimText "main") (claimText "v---2")) "before"
      "after" = .ok [("M", "claims/web.yaml")] := by
    have hlines : (Text.lines "M\tclaims/web.yaml\n").filterMap parseLine =
        [("M", "claims/web.yaml")] := by decide +kernel
    exact congrArg Except.ok hlines
  have hfiles : ∀ before after, getFileContent (claimGit "M" before after) "claims/web.yaml"
      "before" = .ok before ∧ getFileContent (claimGit "M" before after) "claims/web.yaml"
      "after" = .ok after := by
    intro before after
    simp [getFileContent, claimGit]
  have hdiff : getDiff (claimGit "M" (claimText "main") (claimText "v---2")) "before" "after"
      none = .ok ⟨claimTree "v---2", claimTree "main"⟩ := by
    rw [getDiff_eq _ _ _ none hchanges]
    simp [isSelected, activeFile, deletedFile, hfiles, Except.toOption, claimTree]
  refine ⟨?_, ?_, _, _, hdiff, groupFilesByManifest_eq claimYaml_roundTrips _, fun h => ?_⟩
  · rw [DeclaredOnce, manifests_claimTree, claimDeclares_main]
    exact List.nodup_singleton _
  · rw [DeclaredOnce, manifests_claimTree, claimDeclares_dashes]
    exact List.nodup_singleton _
  · have hshows := (reconciles_groupsOf_iff _ _).1 h webKey
    rw [contentOf, contentOf, ← shown_eq, ← shown_eq] at hshows
    have hbefore : shown claimYaml (claimTree "main") webKey = some (canonicalText "main") := by
      rw [shown, claimTree, List.flatMap_singleton, extractManifestChanges_main]
      rfl
    have hafter : shown claimYaml (claimTree "v---2") webKey = none := by
      rw [shown, claimTree, List.flatMap_singleton, extractManifestChanges_dashes]
      rfl
    have hdeclared : declared claimDeclares (claimTree "v---2") webKey =
        some (canonicalText "v---2") := by
      rw [declared, manifests_claimTree, claimDeclares_dashes]
      rfl
    have hgone := hshows.changed (by simp [hbefore, hafter])
    rw [hdeclared, hafter] at hgone
    cases hgone

end Gitops
end InfraWeave
