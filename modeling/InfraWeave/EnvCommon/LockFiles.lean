import InfraWeave.Defs.Module
import InfraWeave.Utils.OciAttestation

/-!
# Lock files of published modules

A module is published from a folder that has its own files in a folder below, and the generated root
module with its lock file beside it.  The zip is written in the order of the directory walk, and a
file is looked up in it by its name at any depth.
-/

namespace InfraWeave
namespace EnvCommon

open Oci (Bytes Failure propagate unwrapOption unwrapResult fromUtf8 fileName orError)

/-- The name of a file or a folder. -/
structure FileName where
  text : String
  noSeparator : '/' ∉ text.toList
  named : text ≠ "" ∧ text ≠ "." ∧ text ≠ ".."

inductive Node where
  | file (contents : Bytes)
  | dir (children : List (FileName × Node))

/-- A folder, in the order in which it is listed. -/
abbrev Folder := List (FileName × Node)

def Node.isFile : Node → Bool
  | .file _ => true
  | .dir _ => false

/-- A file with its path below the folder. -/
structure WalkedFile where
  path : List FileName
  contents : Bytes

structure ZipEntry where
  name : String
  contents : Bytes
  deriving DecidableEq

/-! ## The zip of a folder -/

def shouldBeExcluded (name : FileName) (isDir : Bool) : Bool :=
  (isDir && name.text = ".terraform") ||
    name.text ∈ [".git", ".terraform-version", "terraform.tfstate", "terraform.tfstate.backup",
      "terraform.tfvars", "terraform.tfvars.json", "terraform.rc", ".terraformrc"] ||
    ".auto.tfvars".toList.isSuffixOf name.text.toList ||
    ".auto.tfvars.json".toList.isSuffixOf name.text.toList

mutual

/-- What the walk lists for a file, or for a folder and what is in it. -/
def walkNode (parents : List FileName) (name : FileName) : Node → List WalkedFile
  | .file contents =>
      if shouldBeExcluded name false then [] else [⟨parents ++ [name], contents⟩]
  | .dir children =>
      if shouldBeExcluded name true then [] else walkFolder (parents ++ [name]) children

def walkFolder (parents : List FileName) : List (FileName × Node) → List WalkedFile
  | [] => []
  | (name, node) :: rest => walkNode parents name node ++ walkFolder parents rest

end

def joinPath (path : List FileName) : String :=
  .ofList (List.intercalate ['/'] (path.map fun name => name.text.toList))

/-- Whether the manifest is there, its path if it is below the folder, and the environment. -/
structure ZipSettings where
  manifestExists : Bool
  manifestPath : Option (List String)
  bypassFileSizeCheck : Option String

def getZipFile (s : ZipSettings) (directory : Folder) : Except String (List ZipEntry) :=
  if s.manifestExists = false then .error "Manifest yaml not found"
  else
    let files : List WalkedFile := (walkFolder [] directory).filter fun file =>
      s.manifestPath ≠ some (file.path.map FileName.text)
    let totalSize : Nat := files.foldl (fun total file => total + file.contents.length) 0
    if s.bypassFileSizeCheck ≠ some "true" ∧ totalSize > 1048576 then
      .error "ZIP file exceeds 1MB limit"
    else .ok (files.map fun file => ⟨joinPath file.path, file.contents⟩)

/-! ## Files of a zip -/

/-- The first entry with the file name. -/
def entryNamed (filename : String) (zip : List ZipEntry) : Option ZipEntry :=
  zip.find? fun file => fileName file.name = some filename

def getFile (zip : List ZipEntry) (filename : String) : Except String String := do
  let file ← orError ("No " ++ filename ++ " file found") (entryNamed filename zip)
  fromUtf8 file.contents

def lockfileName : FileName where
  text := ".terraform.lock.hcl"
  noSeparator := by decide
  named := by decide

def getTerraformLockfile (zip : List ZipEntry) : Except String String :=
  getFile zip lockfileName.text

def getTerraformTfvars (zip : List ZipEntry) : Except String String :=
  getFile zip "terraform.tfvars"

/-! ## Locked providers -/

def lockedProvider (field : String × Json) : Except Failure TfLockProvider := do
  let version ← unwrapOption ((field.2.get? "version").bind Json.asStr)
  .ok ⟨field.1, version⟩

/-- The blocks of a body are an object, or an array of objects where there are several. -/
def getProvidersFromLockfile (parse : String → Except String (List (String × Json)))
    (contents : String) : Except Failure (List TfLockProvider) := do
  let parsed ← propagate ((parse contents).mapError ("Failed to parse HCL: " ++ ·))
  match parsed.lookup "provider" with
  | none => .ok []
  | some (.object fields) => fields.mapM lockedProvider
  | some (.array blocks) => do
      let providers ← blocks.mapM fun provider =>
        match provider with
        | .object fields => fields.mapM lockedProvider
        | _ => .error (.panic "called `Option::unwrap()` on a `None` value")
      .ok providers.flatten
  | some _ => .error (.panic "Expected a JSON object or array for provider block")

/-! ## Publishing -/

/-- The parts of the folder that is published: the copy of the module, in a folder of its own, and
the generated files. -/
structure PublishedFolder where
  moduleDir : FileName
  module : Folder
  providersTf : Bytes
  mainTf : Bytes
  /-- What `terraform init` has locked. -/
  lockFile : String

def providersTfName : FileName where
  text := "providers.tf"
  noSeparator := by decide
  named := by decide

def mainTfName : FileName where
  text := "main.tf"
  noSeparator := by decide
  named := by decide

def textBytes (s : String) : Bytes :=
  s.toByteArray.data.toList

def PublishedFolder.files (p : PublishedFolder) : Folder :=
  [(providersTfName, .file p.providersTf), (mainTfName, .file p.mainTf),
    (lockfileName, .file (textBytes p.lockFile))]

/-- Where the walk can list the root in this order. -/
def PublishedFolder.Lists (p : PublishedFolder) (root : Folder) : Prop :=
  root.Perm ((p.moduleDir, .dir p.module) :: p.files)

variable (parse : String → Except String (List (String × Json)))

/-- The folder is a copy, so the manifest is not below it. -/
def publishedZip (s : ZipSettings) (root : Folder) : Except String (List ZipEntry) :=
  getZipFile { s with manifestPath := none } root

/-- `tf_lock_providers` of the module that is published from a folder. -/
def publishedLockProviders (s : ZipSettings) (root : Folder) :
    Except Failure (List TfLockProvider) := do
  let zip ← propagate (publishedZip s root)
  let _ ← propagate (getTerraformLockfile zip)
  let lockfile ← unwrapResult (getTerraformLockfile zip)
  getProvidersFromLockfile parse lockfile

/-! ## What is asked -/

/-- An entry of the zip without a folder. -/
def RootLevel (filename : String) (file : ZipEntry) : Prop :=
  ((Text.split '/' file.name).filter fun part => part ≠ "" ∧ part ≠ ".") = [filename]

instance (filename : String) (file : ZipEntry) : Decidable (RootLevel filename file) :=
  inferInstanceAs (Decidable (_ = _))

def RecordsRootLocks (s : ZipSettings) (p : PublishedFolder) (root : Folder) : Prop :=
  ∀ stored, publishedLockProviders parse s root = .ok stored →
    getProvidersFromLockfile parse p.lockFile = .ok stored

def isLockFile (file : WalkedFile) : Bool :=
  file.path.getLast?.map FileName.text = some lockfileName.text

/-- The first lock file of the module, in the order of the walk. -/
def moduleLockFile (p : PublishedFolder) : Option WalkedFile :=
  (walkNode [] p.moduleDir (.dir p.module)).find? isLockFile

/-- The walk lists the root's lock file before the folder of the module, or that folder has no lock
file, or its first one has nothing that is stored and is not locked by the root's. -/
def RootLocksFirst (s : ZipSettings) (p : PublishedFolder) (root : Folder) : Prop :=
  lockfileName.text ∈ (root.takeWhile fun child => child.2.isFile).map (fun child => child.1.text) ∨
    ∀ file, moduleLockFile p = some file → ∀ zip, publishedZip s root = .ok zip →
      ∀ text, fromUtf8 file.contents = .ok text →
        ∀ stored, getProvidersFromLockfile parse text = .ok stored →
          getProvidersFromLockfile parse p.lockFile = .ok stored

/-! ## Names -/

theorem split_joinPath {path : List FileName} (hne : path ≠ []) :
    Text.split '/' (joinPath path) = path.map FileName.text := by
  have hparts : (List.intercalate ['/'] (path.map fun name => name.text.toList)).splitOn '/' =
      path.map fun name => name.text.toList := by
    refine List.splitOn_intercalate _ ?_ (by simpa using hne)
    intro part hpart
    rcases List.mem_map.1 hpart with ⟨name, -, rfl⟩
    exact name.noSeparator
  rw [Text.split, joinPath, String.toList_ofList, hparts, List.map_map]
  exact List.map_congr_left fun name _ => String.ofList_toList

/-- The name of a file in the zip is read as the last part of its path. -/
theorem fileName_joinPath {path : List FileName} (hne : path ≠ []) :
    fileName (joinPath path) = path.getLast?.map FileName.text := by
  have hkept : (path.map FileName.text).filter (fun part => part ≠ "" ∧ part ≠ ".") =
      path.map FileName.text := by
    refine List.filter_eq_self.2 fun part hpart => ?_
    rcases List.mem_map.1 hpart with ⟨name, -, rfl⟩
    exact decide_eq_true ⟨name.named.1, name.named.2.1⟩
  rw [fileName, split_joinPath hne, hkept, List.getLast?_map]
  cases path.getLast? with
  | none => rfl
  | some name => simp [name.named.2.2]

/-! ## The walk -/

mutual

theorem path_ne_nil_of_walkNode (parents : List FileName) (name : FileName) :
    ∀ node : Node, ∀ file ∈ walkNode parents name node, file.path ≠ []
  | .file contents, file, hfile => by
      rw [walkNode] at hfile
      split at hfile
      · cases hfile
      · rw [List.mem_singleton.1 hfile]
        simp
  | .dir children, file, hfile => by
      rw [walkNode] at hfile
      split at hfile
      · cases hfile
      · exact path_ne_nil_of_walkFolder (parents ++ [name]) children file hfile

theorem path_ne_nil_of_walkFolder (parents : List FileName) :
    ∀ children : List (FileName × Node), ∀ file ∈ walkFolder parents children, file.path ≠ []
  | [], file, hfile => by
      rw [walkFolder] at hfile
      cases hfile
  | (name, node) :: rest, file, hfile => by
      rw [walkFolder] at hfile
      rcases List.mem_append.1 hfile with hfile | hfile
      · exact path_ne_nil_of_walkNode parents name node file hfile
      · exact path_ne_nil_of_walkFolder parents rest file hfile

end

theorem walkFolder_append (parents : List FileName) (before after : Folder) :
    walkFolder parents (before ++ after) =
      walkFolder parents before ++ walkFolder parents after := by
  induction before with
  | nil => simp [walkFolder]
  | cons child before ih =>
      rcases child with ⟨name, node⟩
      rw [List.cons_append, walkFolder, walkFolder, ih, List.append_assoc]

def WalkedFile.entry (file : WalkedFile) : ZipEntry :=
  ⟨joinPath file.path, file.contents⟩

/-- The lock file that is read from the zip is the first one that the walk lists. -/
theorem entryNamed_publishedZip {s : ZipSettings} {root : Folder} {zip : List ZipEntry}
    (h : publishedZip s root = .ok zip) :
    entryNamed lockfileName.text zip =
      ((walkFolder [] root).find? isLockFile).map WalkedFile.entry := by
  have hzip : zip = (walkFolder [] root).map WalkedFile.entry := by
    unfold publishedZip getZipFile at h
    split at h
    · cases h
    · dsimp only at h
      split at h
      · cases h
      · have hall : zip = (walkFolder [] root).map fun file =>
            ⟨joinPath file.path, file.contents⟩ := by simpa using (Except.ok.inj h).symm
        exact hall
  rw [hzip, entryNamed, List.find?_map, ← List.head?_filter, ← List.head?_filter]
  congr 2
  refine List.filter_congr fun file hfile => ?_
  have hname := fileName_joinPath (path_ne_nil_of_walkFolder [] root file hfile)
  simp [WalkedFile.entry, isLockFile, hname]

/-- The lock file of the root. -/
def PublishedFolder.rootLockFile (p : PublishedFolder) : WalkedFile :=
  ⟨[lockfileName], textBytes p.lockFile⟩

theorem find_walkNode_file {name : FileName} {contents : Bytes}
    (h : name.text ≠ lockfileName.text) :
    (walkNode [] name (.file contents)).find? isLockFile = none := by
  unfold walkNode
  split
  · rfl
  · simp [isLockFile, h]

/-- Among the generated files only the lock file is one. -/
theorem find_walkFolder_files {p : PublishedFolder} {children : Folder}
    (h : ∀ child ∈ children, child ∈ p.files) :
    (walkFolder [] children).find? isLockFile =
      if lockfileName.text ∈ children.map (fun child => child.1.text) then some p.rootLockFile
      else none := by
  induction children with
  | nil => simp [walkFolder]
  | cons child children ih =>
      rcases child with ⟨name, node⟩
      have hrest := ih fun c hc => h c (List.mem_cons_of_mem _ hc)
      have hchild := h _ List.mem_cons_self
      rw [walkFolder, List.find?_append, hrest, List.map_cons]
      simp only [PublishedFolder.files, List.mem_cons, List.not_mem_nil, or_false,
        Prod.mk.injEq] at hchild
      rcases hchild with ⟨rfl, rfl⟩ | ⟨rfl, rfl⟩ | ⟨rfl, rfl⟩
      · have hne : lockfileName.text ≠ providersTfName.text := by decide
        rw [find_walkNode_file hne.symm, Option.none_or]
        simp only [List.mem_cons, hne, false_or]
      · have hne : lockfileName.text ≠ mainTfName.text := by decide
        rw [find_walkNode_file hne.symm, Option.none_or]
        simp only [List.mem_cons, hne, false_or]
      · have hkept : shouldBeExcluded lockfileName false = false := by decide
        have hroot : (walkNode [] lockfileName (.file (textBytes p.lockFile))).find? isLockFile =
            some p.rootLockFile := by
          simp [walkNode, hkept, isLockFile, PublishedFolder.rootLockFile]
        rw [hroot]
        simp

/-! ## The lock file that is read -/

/-- The root's lock file is read if it is listed before the module's folder, or that has none. -/
theorem find_walkFolder_root {p : PublishedFolder} {root : Folder} (h : p.Lists root) :
    (walkFolder [] root).find? isLockFile =
      if lockfileName.text ∈
          (root.takeWhile fun child => child.2.isFile).map (fun child => child.1.text) then
        some p.rootLockFile
      else (moduleLockFile p).or (some p.rootLockFile) := by
  have hmem : (p.moduleDir, Node.dir p.module) ∈ root := h.mem_iff.2 List.mem_cons_self
  rcases List.append_of_mem hmem with ⟨before, after, rfl⟩
  have hfiles : (before ++ after).Perm p.files := by
    have hcons : ((p.moduleDir, Node.dir p.module) :: (before ++ after)).Perm
        ((p.moduleDir, .dir p.module) :: p.files) := List.perm_middle.symm.trans h
    exact hcons.cons_inv
  have hbefore : ∀ child ∈ before, child ∈ p.files := fun child hchild =>
    hfiles.mem_iff.1 (List.mem_append_left _ hchild)
  have hafter : ∀ child ∈ after, child ∈ p.files := fun child hchild =>
    hfiles.mem_iff.1 (List.mem_append_right _ hchild)
  have hisFile : ∀ child ∈ before, child.2.isFile = true := by
    intro child hchild
    have hfile := hbefore child hchild
    simp only [PublishedFolder.files, List.mem_cons, List.not_mem_nil, or_false] at hfile
    rcases hfile with rfl | rfl | rfl <;> rfl
  have htake : (before ++ (p.moduleDir, Node.dir p.module) :: after).takeWhile
      (fun child => child.2.isFile) = before := by
    rw [List.takeWhile_append_of_pos hisFile, List.takeWhile_cons]
    simp [Node.isFile]
  rw [htake, walkFolder_append, List.find?_append, walkFolder, List.find?_append,
    find_walkFolder_files hbefore, find_walkFolder_files hafter]
  by_cases hlock : lockfileName.text ∈ before.map fun child => child.1.text
  · simp [hlock]
  · -- The lock file is among the generated ones, so it comes after the folder.
    have hall : lockfileName.text ∈ (before ++ after).map fun child => child.1.text :=
      (hfiles.map _).mem_iff.2 (by simp [PublishedFolder.files])
    have hlater : lockfileName.text ∈ after.map fun child => child.1.text := by
      rw [List.map_append] at hall
      exact (List.mem_append.1 hall).resolve_left hlock
    simp only [hlock, hlater, if_true, if_false, Option.none_or]
    rfl

theorem fromUtf8_textBytes (s : String) : fromUtf8 (textBytes s) = .ok s := by
  have hvalid : s.toByteArray.IsValidUTF8 := s.isValidUTF8
  have hread : String.fromUTF8? s.toByteArray = some s := by
    simp only [String.fromUTF8?, hvalid, dif_pos]
    rfl
  simp [fromUtf8, textBytes, hread, orError]

/-- What is stored comes from the lock file that is read. -/
theorem publishedLockProviders_eq_ok_iff {s : ZipSettings} {root : Folder}
    {stored : List TfLockProvider} :
    publishedLockProviders parse s root = .ok stored ↔ ∃ zip, publishedZip s root = .ok zip ∧
      ∃ file, (walkFolder [] root).find? isLockFile = some file ∧
        ∃ text, fromUtf8 file.contents = .ok text ∧
          getProvidersFromLockfile parse text = .ok stored := by
  unfold publishedLockProviders
  cases hzip : publishedZip s root with
  | error e => simp [propagate, Except.mapError]
  | ok zip =>
      have hentry := entryNamed_publishedZip hzip
      cases hfound : (walkFolder [] root).find? isLockFile with
      | none =>
          rw [hfound, Option.map_none] at hentry
          simp [propagate, Except.mapError, getTerraformLockfile, getFile, hentry, orError]
      | some file =>
          rw [hfound, Option.map_some] at hentry
          have hread : getTerraformLockfile zip = fromUtf8 file.contents := by
            simp only [getTerraformLockfile, getFile, hentry, orError, ok_bind]
            rfl
          cases htext : fromUtf8 file.contents with
          | error e => simp [propagate, Except.mapError, hread, htext]
          | ok text => simp [propagate, unwrapResult, Except.mapError, hread, htext]

/-- The stored providers are those of the root's lock file if and only if that one is listed first,
as far as it matters. -/
theorem recordsRootLocks_iff {s : ZipSettings} {p : PublishedFolder} {root : Folder}
    (h : p.Lists root) : RecordsRootLocks parse s p root ↔ RootLocksFirst parse s p root := by
  have hroot : ∀ text, fromUtf8 p.rootLockFile.contents = .ok text → text = p.lockFile := by
    intro text htext
    exact Except.ok.inj (htext.symm.trans (fromUtf8_textBytes p.lockFile))
  unfold RecordsRootLocks RootLocksFirst
  simp only [publishedLockProviders_eq_ok_iff, find_walkFolder_root h]
  by_cases hfirst : lockfileName.text ∈
      (root.takeWhile fun child => child.2.isFile).map fun child => child.1.text
  · simp only [hfirst, if_true, true_or, iff_true]
    rintro stored ⟨zip, -, file, hfile, text, htext, hstored⟩
    obtain rfl := Option.some.inj hfile
    exact hroot text htext ▸ hstored
  · simp only [hfirst, if_false, false_or]
    cases hmodule : moduleLockFile p with
    | none =>
        simp only [Option.none_or, reduceCtorEq, false_implies, implies_true, iff_true]
        rintro stored ⟨zip, -, file, hfile, text, htext, hstored⟩
        obtain rfl := Option.some.inj hfile
        exact hroot text htext ▸ hstored
    | some first =>
        simp only [Option.some_or]
        constructor
        · intro hall file hfile zip hzip text htext stored hstored
          exact hall stored ⟨zip, hzip, file, hfile, text, htext, hstored⟩
        · rintro hall stored ⟨zip, hzip, file, hfile, text, htext, hstored⟩
          exact hall file hfile zip hzip text htext stored hstored

/-! ## Lookups -/

theorem fileName_of_rootLevel {name : FileName} {file : ZipEntry} (h : RootLevel name.text file) :
    fileName file.name = some name.text := by
  unfold RootLevel at h
  rw [fileName, h]
  simp [name.named.2.2]

/-- A lookup finds a file of the root if and only if no file of that name in a folder comes before
the first one of the root. -/
theorem entryNamed_rootLevel_iff {zip : List ZipEntry} {name : FileName}
    (h : ∃ file ∈ zip, RootLevel name.text file) :
    (∃ file, entryNamed name.text zip = some file ∧ RootLevel name.text file) ↔
      ∀ before nested after, zip = before ++ nested :: after →
        (∀ file ∈ before, ¬ RootLevel name.text file) → ¬ RootLevel name.text nested →
          fileName nested.name ≠ some name.text := by
  induction zip with
  | nil => simp at h
  | cons file zip ih =>
      by_cases hroot : RootLevel name.text file
      · -- The first entry is the file of the root.
        have hfound : entryNamed name.text (file :: zip) = some file := by
          simp [entryNamed, fileName_of_rootLevel hroot]
        refine iff_of_true ⟨file, hfound, hroot⟩ fun before nested after hzip hbefore hnested => ?_
        cases before with
        | nil => exact absurd ((List.cons.inj hzip).1 ▸ hroot) hnested
        | cons first before =>
            have hfirst : file = first := (List.cons.inj hzip).1
            exact absurd (hfirst ▸ hroot) (hbefore first List.mem_cons_self)
      · have hrest : ∃ file ∈ zip, RootLevel name.text file := by
          rcases h with ⟨found, hfound, hfoundRoot⟩
          rcases List.mem_cons.1 hfound with rfl | hfound
          · exact absurd hfoundRoot hroot
          · exact ⟨found, hfound, hfoundRoot⟩
        by_cases hname : fileName file.name = some name.text
        · -- The first entry is a file of that name in a folder.
          have hfound : entryNamed name.text (file :: zip) = some file := by
            simp [entryNamed, hname]
          refine iff_of_false ?_ fun hall => ?_
          · rintro ⟨found, hsome, hfoundRoot⟩
            rw [hfound] at hsome
            exact hroot (Option.some.inj hsome ▸ hfoundRoot)
          · exact hall [] file zip rfl (by simp) hroot hname
        · have hnext : entryNamed name.text (file :: zip) = entryNamed name.text zip := by
            simp [entryNamed, hname]
          rw [hnext, ih hrest]
          constructor
          · intro hall before nested after hzip hbefore hnested
            cases before with
            | nil => exact (List.cons.inj hzip).1 ▸ hname
            | cons first before =>
                exact hall before nested after (List.cons.inj hzip).2
                  (fun f hf => hbefore f (List.mem_cons_of_mem _ hf)) hnested
          · intro hall before nested after hzip hbefore hnested
            refine hall (file :: before) nested after (by rw [hzip, List.cons_append]) ?_ hnested
            exact List.forall_mem_cons.2 ⟨hroot, hbefore⟩

/-- The stored locks are the root's if and only if the walk comes to the root's lock file first, as
far as it matters; a lookup finds the file of the root if and only if no nested one comes first. -/
theorem lockFiles_of_root_iff (parse : String → Except String (List (String × Json))) :
    (∀ s p root, PublishedFolder.Lists p root →
      (RecordsRootLocks parse s p root ↔ RootLocksFirst parse s p root)) ∧
    ∀ zip (name : FileName), (∃ file ∈ zip, RootLevel name.text file) →
      ((∃ file, entryNamed name.text zip = some file ∧ RootLevel name.text file) ↔
        ∀ before nested after, zip = before ++ nested :: after →
          (∀ file ∈ before, ¬ RootLevel name.text file) → ¬ RootLevel name.text nested →
            fileName nested.name ≠ some name.text) :=
  ⟨fun _ _ _ h => recordsRootLocks_iff parse h, fun _ _ h => entryNamed_rootLevel_iff h⟩

/-! ## A nested lock file -/

def nestedDir : FileName where
  text := "S3Bucket-1.0.0"
  noSeparator := by decide
  named := by decide

def awsSource : String := "registry.opentofu.org/hashicorp/aws"

def rootLock : String :=
  "provider \"registry.opentofu.org/hashicorp/aws\" \x7b\n  version = \"5.81.0\"\n\x7d\n"

def nestedLock : String :=
  "provider \"registry.opentofu.org/hashicorp/aws\" \x7b\n  version = \"4.0.0\"\n\x7d\n"

def awsLocked (version : String) : List (String × Json) :=
  [("provider", .object [(awsSource, .object [("version", .string version)])])]

/-- What the two texts are read as. -/
def parseLock (text : String) : Except String (List (String × Json)) :=
  if text = rootLock then .ok (awsLocked "5.81.0")
  else if text = nestedLock then .ok (awsLocked "4.0.0")
  else .error "expected block"

theorem getProviders_rootLock :
    getProvidersFromLockfile parseLock rootLock = .ok [⟨awsSource, "5.81.0"⟩] := by
  simp only [getProvidersFromLockfile, parseLock, if_true]
  rfl

theorem getProviders_nestedLock :
    getProvidersFromLockfile parseLock nestedLock = .ok [⟨awsSource, "4.0.0"⟩] := by
  have hne : nestedLock ≠ rootLock := by decide
  simp only [getProvidersFromLockfile, parseLock, hne, if_true, if_false]
  rfl

/-- A module with a lock file of its own. -/
def lockedModule : PublishedFolder where
  moduleDir := nestedDir
  module := [(lockfileName, .file (textBytes nestedLock)), (mainTfName, .file [])]
  providersTf := []
  mainTf := []
  lockFile := rootLock

/-- The folder of the module is listed first. -/
def moduleFirst : Folder :=
  (nestedDir, .dir lockedModule.module) :: lockedModule.files

def lockFirst : Folder :=
  lockedModule.files ++ [(nestedDir, .dir lockedModule.module)]

def noSizeCheck : ZipSettings where
  manifestExists := true
  manifestPath := none
  bypassFileSizeCheck := some "true"

def nestedTfvarsFirst : List ZipEntry :=
  [⟨"modules/vpc/terraform.tfvars", textBytes "size = 2"⟩,
    ⟨"terraform.tfvars", textBytes "size = 1"⟩]

def tfvarsName : FileName where
  text := "terraform.tfvars"
  noSeparator := by decide
  named := by decide

/-- The locks of the module are stored instead of the root's, and the values of a module below are
read instead of the root's. -/
theorem nested_files_found_first :
    (lockedModule.Lists moduleFirst ∧
        ¬ RecordsRootLocks parseLock noSizeCheck lockedModule moduleFirst) ∧
      (∃ file ∈ nestedTfvarsFirst, RootLevel tfvarsName.text file) ∧
      getTerraformTfvars nestedTfvarsFirst = .ok "size = 2" := by
  have hzip : ∃ zip, publishedZip noSizeCheck moduleFirst = .ok zip := by
    simp [publishedZip, getZipFile, noSizeCheck]
  have hfound : (walkFolder [] moduleFirst).find? isLockFile =
      some ⟨[nestedDir, lockfileName], textBytes nestedLock⟩ := by
    rfl
  refine ⟨⟨List.Perm.refl _, fun hroot => ?_⟩, ?_, ?_⟩
  · rcases hzip with ⟨zip, hzip⟩
    have hstored : publishedLockProviders parseLock noSizeCheck moduleFirst =
        .ok [⟨awsSource, "4.0.0"⟩] :=
      (publishedLockProviders_eq_ok_iff parseLock).2
        ⟨zip, hzip, _, hfound, nestedLock, fromUtf8_textBytes _, getProviders_nestedLock⟩
    have hsame := getProviders_rootLock.symm.trans (hroot _ hstored)
    exact absurd hsame (by decide)
  · exact ⟨⟨"terraform.tfvars", textBytes "size = 1"⟩, by simp [nestedTfvarsFirst], by decide⟩
  · have hentry : entryNamed "terraform.tfvars" nestedTfvarsFirst =
        some ⟨"modules/vpc/terraform.tfvars", textBytes "size = 2"⟩ := by
      have hname : fileName "modules/vpc/terraform.tfvars" = some "terraform.tfvars" := by decide
      simp [entryNamed, nestedTfvarsFirst, hname]
    simp only [getTerraformTfvars, getFile, hentry, orError, ok_bind]
    exact fromUtf8_textBytes _

/-- With the lock file listed first, and the values of the root first in the zip. -/
theorem root_files_found_first :
    RecordsRootLocks parseLock noSizeCheck lockedModule lockFirst ∧
      ∃ file, entryNamed tfvarsName.text nestedTfvarsFirst.reverse = some file ∧
        RootLevel tfvarsName.text file := by
  have hexact := lockFiles_of_root_iff parseLock
  refine ⟨(hexact.1 noSizeCheck lockedModule lockFirst ?_).2 (Or.inl ?_),
    (hexact.2 _ tfvarsName ?_).2 ?_⟩
  · exact List.perm_append_singleton _ _
  · simp [lockFirst, PublishedFolder.files, Node.isFile]
  · exact ⟨⟨"terraform.tfvars", textBytes "size = 1"⟩, by simp [nestedTfvarsFirst], by decide⟩
  · intro before nested after hzip hbefore hnested
    -- The first entry is the file of the root.
    have hroot : RootLevel tfvarsName.text ⟨"terraform.tfvars", textBytes "size = 1"⟩ := by decide
    have hreverse : nestedTfvarsFirst.reverse = [⟨"terraform.tfvars", textBytes "size = 1"⟩,
        ⟨"modules/vpc/terraform.tfvars", textBytes "size = 2"⟩] := rfl
    rw [hreverse] at hzip
    cases before with
    | nil => exact absurd ((List.cons.inj hzip).1 ▸ hroot) hnested
    | cons first before =>
        exact absurd ((List.cons.inj hzip).1 ▸ hroot) (hbefore first List.mem_cons_self)

end EnvCommon
end InfraWeave
