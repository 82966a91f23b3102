import InfraWeave.Lib.Text
import Mathlib.Data.List.Infix

/-!
# Modules on the way to an address

An address names the modules that it lies in, from the outermost to the innermost.  The path of each
of them is a part of the address, and the modules on the way to that path are those before it.
-/

namespace InfraWeave
namespace Graph

open Text (split)

/-- One more part of a path. -/
def pushPart (current part : String) : String :=
  if current = "" then part else current ++ "." ++ part

def pushModule (current name : String) : String :=
  (if current = "" then "" else current ++ ".") ++ "module." ++ name

/-- The paths of the modules that the parts name, behind the current path. -/
def hierarchyFrom : String → List String → List String
  | current, part :: name :: rest =>
      if part = "module" then
        pushModule current name :: hierarchyFrom (pushModule current name) rest
      else hierarchyFrom (pushPart current part) (name :: rest)
  | _, _ => []

/-- The modules that the address lies in, the outermost first. -/
def hierarchy (address : String) : List String :=
  hierarchyFrom "" (split '.' address)

/-! ## Paths made of parts -/

def joined (parts : List String) : String :=
  parts.foldl pushPart ""

theorem pushModule_eq (current name : String) :
    pushModule current name = pushPart (pushPart current "module") name := by
  unfold pushModule pushPart
  by_cases h : current = ""
  · rw [if_pos h, if_pos h, if_neg (by decide)]
    refine String.toList_injective ?_
    simp
  · have hne : current ++ "." ++ "module" ≠ "" := by
      intro heq
      have hlist := congrArg String.toList heq
      simp at hlist
    rw [if_neg h, if_neg h, if_neg hne]
    refine String.toList_injective ?_
    simp

theorem joined_append (parts : List String) (part : String) :
    joined (parts ++ [part]) = pushPart (joined parts) part := by
  simp [joined]

/-- The parts that lead to each module. -/
def leading : List String → List String → List (List String)
  | before, part :: name :: rest =>
      if part = "module" then
        (before ++ [part, name]) :: leading (before ++ [part, name]) rest
      else leading (before ++ [part]) (name :: rest)
  | _, _ => []

theorem hierarchyFrom_joined (before parts : List String) :
    hierarchyFrom (joined before) parts = (leading before parts).map joined := by
  induction before, parts using leading.induct with
  | case1 before name rest ih =>
      have hpath : pushModule (joined before) name = joined (before ++ ["module", name]) := by
        rw [pushModule_eq, ← joined_append, ← joined_append, List.append_assoc]
        rfl
      simp [hierarchyFrom, leading, hpath, ih]
  | case2 before part name rest hpart ih =>
      simp [hierarchyFrom, leading, hpart, ← joined_append, ih]
  | case3 before parts hparts =>
      rw [hierarchyFrom, leading]
      · rfl
      · exact hparts
      · exact hparts

/-- The parts that lead to a module are a start of the parts, and the modules that this start leads
to are those up to the module. -/
theorem exists_of_mem_leading {before parts path : List String} (h : path ∈ leading before parts) :
    ∃ start, path = before ++ start ∧ start <+: parts ∧
      leading before start <+: leading before parts ∧
      ∃ outer, leading before start = outer ++ [path] := by
  induction before, parts using leading.induct with
  | case1 before name rest ih =>
      rw [leading, if_pos rfl] at h
      rcases List.mem_cons.1 h with rfl | h
      · refine ⟨["module", name], rfl, by simp, ?_, [], ?_⟩
        · simp [leading]
        · simp [leading]
      · rcases ih h with ⟨start, rfl, hstart, hleading, outer, houter⟩
        refine ⟨"module" :: name :: start, by simp, by simpa using hstart, ?_,
          (before ++ ["module", name]) :: outer, ?_⟩
        · simpa [leading] using hleading
        · simp [leading, houter]
  | case2 before part name rest hpart ih =>
      rw [leading, if_neg hpart] at h
      rcases ih h with ⟨start, rfl, hstart, hleading, outer, houter⟩
      -- What leads to a module is not empty, so that the part is followed by the next one.
      cases start with
      | nil => simp [leading] at houter
      | cons next start =>
          obtain rfl : next = name := (List.cons_prefix_cons.1 hstart).1
          refine ⟨part :: next :: start, by simp, by simpa using hstart, ?_, outer, ?_⟩
          · simpa [leading, hpart] using hleading
          · simpa [leading, hpart] using houter
  | case3 before parts hparts =>
      rw [leading] at h
      · cases h
      · exact hparts

/-! ## Paths and addresses -/

theorem intercalate_append {sep : List Char} {xs ys : List (List Char)} (hxs : xs ≠ [])
    (hys : ys ≠ []) :
    sep.intercalate (xs ++ ys) = sep.intercalate xs ++ sep ++ sep.intercalate ys := by
  induction xs with
  | nil => exact absurd rfl hxs
  | cons x xs ih =>
      cases xs with
      | nil => simp [List.intercalate_cons_of_ne_nil hys]
      | cons x' xs =>
          have hne : x' :: xs ≠ [] := List.cons_ne_nil x' xs
          rw [List.cons_append, List.intercalate_cons_of_ne_nil (by simp), ih hne,
            List.intercalate_cons_of_ne_nil hne]
          simp only [List.append_assoc]

theorem intercalate_prefix {sep : List Char} {xs ys : List (List Char)} (h : xs <+: ys) :
    sep.intercalate xs <+: sep.intercalate ys := by
  rcases h with ⟨rest, rfl⟩
  by_cases hxs : xs = []
  · simp [hxs]
  · by_cases hrest : rest = []
    · simp [hrest]
    · rw [intercalate_append hxs hrest, List.append_assoc]
      exact List.prefix_append _ _

theorem intercalate_suffix {sep : List Char} {xs ys : List (List Char)} (h : xs <:+ ys) :
    sep.intercalate xs <:+ sep.intercalate ys := by
  rcases h with ⟨start, rfl⟩
  by_cases hxs : xs = []
  · simp [hxs]
  · by_cases hstart : start = []
    · simp [hstart]
    · rw [intercalate_append hstart hxs]
      exact List.suffix_append _ _

/-- Parts that are empty do not count at the start. -/
theorem joined_dropWhile (parts : List String) :
    joined (parts.dropWhile (· = "")) = joined parts := by
  induction parts with
  | nil => rfl
  | cons part parts ih =>
      by_cases h : part = ""
      · rw [List.dropWhile_cons_of_pos (by simpa using h), ih, h]
        rfl
      · rw [List.dropWhile_cons_of_neg (by simpa using h)]

theorem hierarchyFrom_dropWhile (parts : List String) :
    hierarchyFrom "" (parts.dropWhile (· = "")) = hierarchyFrom "" parts := by
  induction parts with
  | nil => rfl
  | cons part parts ih =>
      by_cases h : part = ""
      · rw [List.dropWhile_cons_of_pos (by simpa using h), ih, h]
        cases parts with
        | nil => rfl
        | cons name rest =>
            have hempty : hierarchyFrom "" ("" :: name :: rest) =
                hierarchyFrom (pushPart "" "") (name :: rest) := by
              rw [hierarchyFrom, if_neg (by decide)]
            exact hempty.symm
      · rw [List.dropWhile_cons_of_neg (by simpa using h)]

theorem toList_joined_cons {part : String} (hpart : part ≠ "") (parts : List String) :
    (joined (part :: parts)).toList = ['.'].intercalate ((part :: parts).map String.toList) := by
  induction parts using List.reverseRecOn with
  | nil => simp [joined, pushPart]
  | append_singleton parts last ih =>
      have hne : joined (part :: parts) ≠ "" := by
        intro heq
        rw [heq] at ih
        have hlength := congrArg List.length ih
        have hpos : 0 < part.toList.length :=
          List.length_pos_iff.2 fun hnil => hpart (String.toList_eq_nil_iff.1 hnil)
        cases parts with
        | nil =>
            simp at hlength
            omega
        | cons next parts =>
            simp [List.intercalate_cons_cons] at hlength
      rw [← List.cons_append, joined_append, pushPart, if_neg hne, List.map_append,
        intercalate_append (by simp) (by simp), ← ih]
      simp

theorem toList_joined (parts : List String) :
    (joined parts).toList = ['.'].intercalate ((parts.dropWhile (· = "")).map String.toList) := by
  rw [← joined_dropWhile]
  cases hparts : parts.dropWhile (· = "") with
  | nil => rfl
  | cons part rest =>
      refine toList_joined_cons ?_ rest
      have hhead := List.head_dropWhile_not (· = "") (l := parts) (by simp [hparts])
      simpa [hparts] using hhead

theorem toList_split (address : String) :
    ['.'].intercalate ((split '.' address).map String.toList) = address.toList := by
  have hmap : (split '.' address).map String.toList = address.toList.splitOn '.' := by
    simp [split, Function.comp_def]
  rw [hmap, List.intercalate_splitOn]

/-- A path made of a start of the parts of an address is found in the address. -/
theorem toList_joined_infix {address : String} {path : List String} (h : path <+: split '.' address) :
    (joined path).toList <:+: address.toList := by
  have hsuffix : (joined path).toList <:+ ['.'].intercalate (path.map String.toList) := by
    rw [toList_joined]
    exact intercalate_suffix ((List.dropWhile_suffix _).map String.toList)
  have hinit : ['.'].intercalate (path.map String.toList) <+: address.toList := by
    rw [← toList_split address]
    exact intercalate_prefix (h.map String.toList)
  exact hsuffix.isInfix.trans hinit.isInfix

theorem split_joined {path : List String} (hdots : ∀ part ∈ path, '.' ∉ part.toList)
    (hne : path.dropWhile (· = "") ≠ []) : split '.' (joined path) = path.dropWhile (· = "") := by
  have hpieces : ∀ piece ∈ (path.dropWhile (· = "")).map String.toList, '.' ∉ piece := by
    intro piece hpiece
    rcases List.mem_map.1 hpiece with ⟨part, hpart, rfl⟩
    exact hdots part ((List.dropWhile_sublist _).subset hpart)
  rw [split, toList_joined, List.splitOn_intercalate '.' hpieces (by simpa using hne)]
  simp [Function.comp_def]

/-- The hierarchy of the path of a module is that of the address, up to this module. -/
theorem exists_hierarchy_of_mem {address path : String} (h : path ∈ hierarchy address) :
    hierarchy path <+: hierarchy address ∧ ∃ outer, hierarchy path = outer ++ [path] := by
  have hleading : hierarchy address = (leading [] (split '.' address)).map joined :=
    hierarchyFrom_joined [] _
  rw [hleading] at h ⊢
  rcases List.mem_map.1 h with ⟨parts, hparts, rfl⟩
  rcases exists_of_mem_leading hparts with ⟨start, heq, hstart, hinit, outer, houter⟩
  obtain rfl : parts = start := heq
  have hhierarchy : hierarchy (joined parts) = (leading [] parts).map joined := by
    rw [hierarchy, split_joined, hierarchyFrom_dropWhile]
    · exact hierarchyFrom_joined [] parts
    · exact fun part hpart => Text.notMem_of_mem_split (hstart.subset hpart)
    · intro hnil
      have hempty : hierarchyFrom "" parts = [] := by
        rw [← hierarchyFrom_dropWhile, hnil]
        rfl
      have hmap : hierarchyFrom "" parts = (leading [] parts).map joined :=
        hierarchyFrom_joined [] parts
      simp [houter, hempty] at hmap
  rw [hhierarchy]
  exact ⟨hinit.map joined, outer.map joined, by simp [houter]⟩

/-! ## Parents -/

/-- The modules that the address lies in, each behind the one before it. -/
def modulesWithParents (address : String) : List (Option String × String) :=
  (none :: (hierarchy address).map some).zip (hierarchy address)

/-- The module that the one with the path lies in. -/
def parentPath (path : String) : Option String :=
  (hierarchy path).dropLast.getLast?

theorem length_le_pushPart (current part : String) :
    current.length ≤ (pushPart current part).length := by
  unfold pushPart
  split
  · rename_i h
    simp [h]
  · simp only [String.length_append]
    omega

theorem length_lt_pushModule (current name : String) :
    current.length < (pushModule current name).length := by
  have hlong : 0 < "module.".length := by decide
  unfold pushModule
  split
  · rename_i h
    simp only [h, String.length_append]
    exact Nat.lt_of_lt_of_le hlong (by omega)
  · simp only [String.length_append]
    omega

/-- Paths become longer. -/
theorem length_lt_of_mem_hierarchyFrom {current path : String} {parts : List String}
    (h : path ∈ hierarchyFrom current parts) : current.length < path.length := by
  induction current, parts using hierarchyFrom.induct with
  | case1 current name rest ih =>
      rw [hierarchyFrom, if_pos rfl] at h
      rcases List.mem_cons.1 h with rfl | h
      · exact length_lt_pushModule current name
      · exact (length_lt_pushModule current name).trans (ih h)
  | case2 current part name rest hpart ih =>
      rw [hierarchyFrom, if_neg hpart] at h
      exact (length_le_pushPart current part).trans_lt (ih h)
  | case3 current parts hparts =>
      rw [hierarchyFrom] at h
      · cases h
      · exact hparts

theorem pairwise_hierarchyFrom (current : String) (parts : List String) :
    (hierarchyFrom current parts).Pairwise fun a b => a.length < b.length := by
  induction current, parts using hierarchyFrom.induct with
  | case1 current name rest ih =>
      rw [hierarchyFrom, if_pos rfl]
      exact List.pairwise_cons.2 ⟨fun path => length_lt_of_mem_hierarchyFrom, ih⟩
  | case2 current part name rest hpart ih =>
      rw [hierarchyFrom, if_neg hpart]
      exact ih
  | case3 current parts hparts =>
      rw [hierarchyFrom]
      · exact List.Pairwise.nil
      · exact hparts

theorem nodup_hierarchy (address : String) : (hierarchy address).Nodup := by
  refine (pairwise_hierarchyFrom "" _).imp fun {a b} hlt heq => ?_
  rw [heq] at hlt
  exact lt_irrefl _ hlt

/-- The modules on the way to a module are those before it. -/
theorem hierarchy_of_split {address path : String} {before after : List String}
    (h : hierarchy address = before ++ path :: after) : hierarchy path = before ++ [path] := by
  have hmem : path ∈ hierarchy address := by simp [h]
  rcases exists_hierarchy_of_mem hmem with ⟨⟨rest, hrest⟩, outer, houter⟩
  have hnodup := nodup_hierarchy address
  rw [h] at hnodup
  have hfresh := List.nodup_append.1 hnodup
  have hbefore : before = outer := by
    rw [houter, h, List.append_assoc] at hrest
    refine ((List.append_cons_inj_of_notMem ?_ ?_).1 hrest.symm).1
    · exact fun hmem' => hfresh.2.2 _ hmem' _ List.mem_cons_self rfl
    · exact (List.nodup_cons.1 hfresh.2.1).1
  rw [houter, hbefore]

theorem exists_of_mem_zip {xs : List String} {first : Option String} {entry : Option String × String}
    (h : entry ∈ (first :: xs.map some).zip xs) :
    ∃ before after, xs = before ++ entry.2 :: after ∧ entry.1 = before.getLast?.or first := by
  induction xs generalizing first with
  | nil => simp at h
  | cons x xs ih =>
      rw [List.map_cons, List.zip_cons_cons] at h
      rcases List.mem_cons.1 h with rfl | h
      · exact ⟨[], xs, rfl, rfl⟩
      · rcases ih h with ⟨before, after, hxs, hparent⟩
        refine ⟨x :: before, after, by rw [List.cons_append, ← hxs], ?_⟩
        rw [hparent, List.getLast?_cons]
        cases before.getLast? <;> rfl

theorem parentPath_of_mem {address : String} {entry : Option String × String}
    (h : entry ∈ modulesWithParents address) :
    entry.2 ∈ hierarchy address ∧ entry.1 = parentPath entry.2 := by
  rcases exists_of_mem_zip h with ⟨before, after, hsplit, hparent⟩
  refine ⟨by simp [hsplit], ?_⟩
  rw [hparent, parentPath, hierarchy_of_split hsplit, List.dropLast_concat, Option.or_none]

theorem map_snd_modulesWithParents (address : String) :
    (modulesWithParents address).map Prod.snd = hierarchy address :=
  List.map_snd_zip (by simp)

/-- The parent of a module comes before it. -/
theorem parentPath_spec {address path parent : String} (h : path ∈ hierarchy address)
    (hparent : parentPath path = some parent) :
    parent ∈ hierarchy address ∧ parent.length < path.length := by
  rcases exists_hierarchy_of_mem h with ⟨hinit, outer, houter⟩
  rw [parentPath, houter, List.dropLast_concat] at hparent
  have hmem : parent ∈ outer := List.mem_of_getLast? hparent
  have hpairwise := pairwise_hierarchyFrom "" (split '.' path)
  rw [show hierarchyFrom "" (split '.' path) = outer ++ [path] from houter] at hpairwise
  refine ⟨hinit.subset ?_, ?_⟩
  · rw [houter]
    exact List.mem_append_left _ hmem
  · exact (List.pairwise_append.1 hpairwise).2.2 parent hmem path (List.mem_singleton_self path)

/-- The innermost module of an address is shorter than the address, unless it is the address. -/
theorem length_lt_of_mem_hierarchy {address path : String} (h : path ∈ hierarchy address)
    (hne : path ≠ address) : path.length < address.length := by
  have hleading : hierarchy address = (leading [] (split '.' address)).map joined :=
    hierarchyFrom_joined [] _
  rw [hleading] at h
  rcases List.mem_map.1 h with ⟨parts, hparts, rfl⟩
  rcases exists_of_mem_leading hparts with ⟨start, heq, hstart, -⟩
  obtain rfl : parts = start := heq
  have hinfix := toList_joined_infix hstart
  have hle := hinfix.length_le
  rw [String.length_toList, String.length_toList] at hle
  refine lt_of_le_of_ne hle fun hlength => hne (String.toList_injective ?_)
  exact hinfix.eq_of_length (by rwa [String.length_toList, String.length_toList])

end Graph
end InfraWeave
