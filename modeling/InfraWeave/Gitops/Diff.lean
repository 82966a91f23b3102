import InfraWeave.Lib.Fallible
import InfraWeave.Lib.Text

/-!
# Changed files

`git` lists the files that differ between two references, and shows their contents.  Its answers
are given.
-/

namespace InfraWeave
namespace Gitops

structure FileChange where
  path : String
  content : String
  deriving DecidableEq

/-- The contents of changed files, after the change and before it. -/
structure ProcessedFiles where
  activeFiles : List FileChange
  deletedFiles : List FileChange
  deriving DecidableEq

/-- `git diff --name-status` and `git show`. -/
structure Git where
  diff : String → String → Except String String
  showFile : String → Except String String

def getFileContent (git : Git) (filePath gitRef : String) : Except String String :=
  git.showFile (gitRef ++ ":" ++ filePath)

/-- `file_path.ends_with(".yaml") || file_path.ends_with(".yml")`. -/
def isYaml (filePath : String) : Bool :=
  ".yaml".toList.isSuffixOf filePath.toList || ".yml".toList.isSuffixOf filePath.toList

/-- A line has a status and a path; the second path of a rename is not looked at. -/
def parseLine (line : String) : Option (String × String) :=
  match Text.split '\t' line with
  | status :: filePath :: _ => if isYaml filePath then some (status, filePath) else none
  | _ => none

def getChangedFiles (git : Git) (beforeRef afterRef : String) :
    Except String (List (String × String)) := do
  let diffOutput ← git.diff beforeRef afterRef
  .ok ((Text.lines diffOutput).filterMap parseLine)

/-! ## `get_diff` -/

/-- The prefixes of `FILE_PATH_PREFIX`, when it is set. -/
def isSelected (pathPrefix : Option String) (filePath : String) : Bool :=
  match pathPrefix with
  | none => true
  | some prefixes => ((Text.split ',' prefixes).map Text.trim).any fun start =>
      start.toList.isPrefixOf filePath.toList

section

variable (git : Git) (beforeRef afterRef : String)

/-- The loop over the changes.  Renames and other statuses are ignored. -/
def collect (files : ProcessedFiles) : String × String → ProcessedFiles
  | (status, filePath) =>
      if status = "A" ∨ status = "M" then
        match getFileContent git filePath afterRef with
        | .error _ => files
        | .ok content =>
            let activeFiles := files.activeFiles ++ [⟨filePath, content⟩]
            if status = "M" then
              match getFileContent git filePath beforeRef with
              | .ok beforeContent =>
                  ⟨activeFiles, files.deletedFiles ++ [⟨filePath, beforeContent⟩]⟩
              | .error _ => ⟨activeFiles, files.deletedFiles⟩
            else ⟨activeFiles, files.deletedFiles⟩
      else if status = "D" then
        match getFileContent git filePath beforeRef with
        | .ok content => ⟨files.activeFiles, files.deletedFiles ++ [⟨filePath, content⟩]⟩
        | .error _ => files
      else files

def getDiff (pathPrefix : Option String) : Except String ProcessedFiles := do
  let changes ← getChangedFiles git beforeRef afterRef
  let filteredChanges := changes.filter fun change => isSelected pathPrefix change.2
  .ok (filteredChanges.foldl (collect git beforeRef afterRef) ⟨[], []⟩)

/-! ### The files that are handed over -/

/-- A file that is added or modified, as it is afterwards. -/
def activeFile : String × String → Option FileChange
  | (status, filePath) =>
      if status = "A" ∨ status = "M" then
        (getFileContent git filePath afterRef).toOption.map (FileChange.mk filePath)
      else none

/-- A file that is modified or deleted, as it was. -/
def deletedFile : String × String → Option FileChange
  | (status, filePath) =>
      if status = "D" ∨ status = "M" ∧ (getFileContent git filePath afterRef).toOption.isSome then
        (getFileContent git filePath beforeRef).toOption.map (FileChange.mk filePath)
      else none

theorem collect_eq (files : ProcessedFiles) (change : String × String) :
    collect git beforeRef afterRef files change =
      ⟨files.activeFiles ++ (activeFile git afterRef change).toList,
        files.deletedFiles ++ (deletedFile git beforeRef afterRef change).toList⟩ := by
  obtain ⟨status, filePath⟩ := change
  unfold collect activeFile deletedFile
  by_cases hmodified : status = "M"
  · subst hmodified
    cases hafter : getFileContent git filePath afterRef with
    | error e => simp [Except.toOption, hafter]
    | ok content =>
        cases hbefore : getFileContent git filePath beforeRef with
        | error e => simp [Except.toOption, hafter, hbefore]
        | ok beforeContent => simp [Except.toOption, hafter, hbefore]
  · by_cases hadded : status = "A"
    · subst hadded
      cases hafter : getFileContent git filePath afterRef with
      | error e => simp [Except.toOption, hafter]
      | ok content => simp [Except.toOption, hafter]
    · by_cases hdeleted : status = "D"
      · subst hdeleted
        cases hbefore : getFileContent git filePath beforeRef with
        | error e => simp [Except.toOption, hbefore]
        | ok content => simp [Except.toOption, hbefore]
      · simp [hmodified, hadded, hdeleted]

theorem getDiff_eq (pathPrefix : Option String) {changes : List (String × String)}
    (h : getChangedFiles git beforeRef afterRef = .ok changes) :
    let selected := changes.filter fun change => isSelected pathPrefix change.2
    getDiff git beforeRef afterRef pathPrefix =
      .ok ⟨selected.filterMap (activeFile git afterRef),
        selected.filterMap (deletedFile git beforeRef afterRef)⟩ := by
  intro selected
  have hfold : ∀ (changes : List (String × String)) (files : ProcessedFiles),
      changes.foldl (collect git beforeRef afterRef) files =
        ⟨files.activeFiles ++ changes.filterMap (activeFile git afterRef),
          files.deletedFiles ++ changes.filterMap (deletedFile git beforeRef afterRef)⟩ := by
    intro changes
    induction changes with
    | nil =>
        intro files
        simp
    | cons change changes ih =>
        intro files
        have hcons : ∀ f : String × String → Option FileChange,
            (change :: changes).filterMap f = (f change).toList ++ changes.filterMap f := by
          intro f
          cases hf : f change <;> simp [hf]
        rw [List.foldl_cons, ih, collect_eq, hcons, hcons, List.append_assoc, List.append_assoc]
  rw [getDiff, h, ok_bind]
  change Except.ok (selected.foldl (collect git beforeRef afterRef) ⟨[], []⟩) = _
  rw [hfold]
  rfl

end

end Gitops
end InfraWeave
