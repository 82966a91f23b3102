import InfraWeave.Defs.Deployment
import InfraWeave.Gitops.Diff
import InfraWeave.Lib.Separator
import Mathlib.Data.List.AList

/-!
# Changes of manifests

The documents of the changed files, by the keys of their manifests, and what is to be done for each
key.  The order in which the source goes through its hash maps does not show: a key has one group
at most.
-/

namespace InfraWeave
namespace Gitops

/-- A grouping key; the `namespace` of a manifest is its space here. -/
structure GroupKey where
  apiVersion : String
  kind : String
  name : String
  space : String
  region : String
  deriving DecidableEq

/-- A file with one of its documents, for each thing that can have happened to it. -/
structure GroupedFile where
  key : GroupKey
  active : Option (FileChange × String)
  deleted : Option (FileChange × String)
  renamed : Option (FileChange × String)
  deriving DecidableEq

structure ManifestChange where
  key : GroupKey
  content : String
  file : FileChange
  deriving DecidableEq

/-- A claim with the `namespace` and the labels of its metadata. -/
structure Manifest extends DeploymentManifest where
  space : Option String
  labels : Option YamlMapping

def Manifest.key (manifest : Manifest) : GroupKey where
  apiVersion := manifest.apiVersion
  kind := manifest.kind
  name := manifest.metadata.name
  space := manifest.space.getD "default"
  region := manifest.spec.region

/-- `serde_yaml::from_str` and `serde_yaml::to_string` for manifests. -/
structure SerdeYaml where
  fromStr : String → Option Manifest
  print : Manifest → Option String

/-- A manifest that has been printed can be read, and is in the same region. -/
def SerdeYaml.RoundTrips (yaml : SerdeYaml) : Prop :=
  ∀ manifest text, yaml.print manifest = some text →
    ∃ manifest', yaml.fromStr text = some manifest' ∧ manifest'.spec.region = manifest.spec.region

section

variable (yaml : SerdeYaml)

/-- `content.split("---")`, trimmed. -/
def documents (content : String) : List String :=
  ((splitAtSeparator "---".toList content.toList).map fun doc => Text.trim (.ofList doc)).filter
    (· ≠ "")

/-- Documents that are no manifests are skipped. -/
def extractManifestChanges (file : FileChange) : List ManifestChange :=
  (documents file.content).filterMap fun doc => do
    let manifest ← yaml.fromStr doc
    let canonical ← yaml.print manifest
    some ⟨manifest.key, canonical, file⟩

abbrev Changes :=
  AList fun _ : GroupKey => ManifestChange

def insertChanges (files : List FileChange) : Changes :=
  (files.flatMap (extractManifestChanges yaml)).foldl
    (fun changes change => changes.insert change.key change) ∅

def applyGroup (key : GroupKey) (change : ManifestChange) : GroupedFile :=
  ⟨key, some (change.file, change.content), none, none⟩

def deleteGroup (key : GroupKey) (change : ManifestChange) : GroupedFile :=
  ⟨key, none, some (change.file, change.content), none⟩

def renameGroup (key : GroupKey) (change : ManifestChange) : GroupedFile :=
  ⟨key, none, none, some (change.file, change.content)⟩

/-- The body of the loop over the active changes. -/
def groupActive (groups : List GroupedFile) (deletedChanges : Changes) (key : GroupKey)
    (activeChange : ManifestChange) : Except String (List GroupedFile × Changes) :=
  match deletedChanges.lookup key with
  | none => .ok (groups ++ [applyGroup key activeChange], deletedChanges)
  | some deletedChange =>
      if activeChange.content = deletedChange.content ∧
          activeChange.file.content = deletedChange.file.content ∧
          activeChange.file.path ≠ deletedChange.file.path then
        .ok (groups ++ [renameGroup key activeChange], deletedChanges)
      else if activeChange.content = deletedChange.content then .ok (groups, deletedChanges)
      else
        match yaml.fromStr activeChange.content, yaml.fromStr deletedChange.content with
        | some a, some d =>
            if a.spec.region ≠ d.spec.region then
              .ok (groups ++
                [deleteGroup { deletedChange.key with region := d.spec.region } deletedChange,
                  applyGroup { activeChange.key with region := a.spec.region } activeChange],
                deletedChanges.erase key)
            else .ok (groups ++ [applyGroup key activeChange], deletedChanges)
        | _, _ => .error "called `Result::unwrap()` on an `Err` value"

def groupActives : List (Sigma fun _ : GroupKey => ManifestChange) → List GroupedFile → Changes →
    Except String (List GroupedFile × Changes)
  | [], groups, deletedChanges => .ok (groups, deletedChanges)
  | ⟨key, activeChange⟩ :: rest, groups, deletedChanges => do
      let (groups, deletedChanges) ← groupActive yaml groups deletedChanges key activeChange
      groupActives rest groups deletedChanges

def groupFilesByManifest (processed : ProcessedFiles) : Except String (List GroupedFile) := do
  let activeChanges := insertChanges yaml processed.activeFiles
  let deletedChanges := insertChanges yaml processed.deletedFiles
  let (groups, deletedChanges) ← groupActives yaml activeChanges.entries [] deletedChanges
  .ok (groups ++ deletedChanges.entries.filterMap fun ⟨key, deletedChange⟩ =>
    if key ∈ activeChanges then none else some (deleteGroup key deletedChange))

end

end Gitops
end InfraWeave
