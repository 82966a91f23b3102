import Mathlib.Data.List.Find
import Mathlib.Data.List.Forall2
import Mathlib.Data.String.Basic
import InfraWeave.Defs.Json
import InfraWeave.Lib.OrderedMap
import InfraWeave.Lib.Wildcards

/-!
# Projects of repositories

A webhook acts for the project that the map of projects names for the path of its repository.  The
patterns of the map are rewritten to regular expressions, which are searched for in the path.
-/

namespace InfraWeave
namespace Gitops

/-- `Regex::new` and `is_match` of the crate for regular expressions. -/
abbrev RegexCrate := String → Option (String → Bool)

/-- A map from patterns to values, with its entries in any order. -/
structure ProjectMap where
  entries : List (String × Json)
  distinct : (OrderedMap.keys entries).Nodup

/-- The look-up returns an error, or ends the process: on a pattern, or on the value of one. -/
inductive ProjectFailure where
  | error (message : String)
  | pattern (expression : String)
  | value (value : Json)
  deriving DecidableEq

/-- A pattern as a regular expression. -/
def patternExpression (key : String) : String :=
  Text.replace (Text.replace key "*" ".*") "/" "\\/"

def projectOf (value : Json) : Option String :=
  (value.get? "project_id").bind Json.asStr

def findProject (regex : RegexCrate) (path : String) :
    List (String × Json) → Except ProjectFailure String
  | [] => .error (.error ("No project ID has been configured for repository path: " ++ path))
  | (key, value) :: rest =>
      match regex (patternExpression key) with
      | none => .error (.pattern (patternExpression key))
      | some isMatch =>
          if isMatch path then
            match projectOf value with
            | some projectId => .ok projectId
            | none => .error (.value value)
          else findProject regex path rest

/-- The entries of an object are read in the order of their keys. -/
def getProjectIdForRepositoryPath (regex : RegexCrate) (projectMap : ProjectMap) (path : String) :
    Except ProjectFailure String :=
  findProject regex path (OrderedMap.collect projectMap.entries)

/-! ## What is asked -/

/-- The pattern matches the path as a whole. -/
def Matches (pattern path : String) : Prop :=
  Wild.accepts (Wild.glob pattern) path.toList = true

instance (pattern path : String) : Decidable (Matches pattern path) :=
  inferInstanceAs (Decidable (_ = true))

def Owns (projectMap : ProjectMap) (projectId path : String) : Prop :=
  ∃ entry ∈ projectMap.entries, projectOf entry.2 = some projectId ∧ Matches entry.1 path

section

variable (regex : RegexCrate) (projectMap : ProjectMap) (path : String)

structure Confined : Prop where
  owned : ∀ projectId, getProjectIdForRepositoryPath regex projectMap path = .ok projectId →
    Owns projectMap projectId path
  missing : ∀ message, getProjectIdForRepositoryPath regex projectMap path =
    .error (.error message) → ∀ entry ∈ projectMap.entries, ¬ Matches entry.1 path
  noPanic : ∀ expression,
    getProjectIdForRepositoryPath regex projectMap path ≠ .error (.pattern expression)
  unordered : ∀ entry ∈ projectMap.entries, Matches entry.1 path →
    (∀ other ∈ projectMap.entries, Matches other.1 path → other = entry) →
      ∀ projectMap' : ProjectMap, projectMap.entries.Perm projectMap'.entries →
        getProjectIdForRepositoryPath regex projectMap' path =
          getProjectIdForRepositoryPath regex projectMap path

/-- The look-up ends at a pattern that is no expression, or is found somewhere in the path. -/
def Stops (entry : String × Json) : Bool :=
  match regex (patternExpression entry.1) with
  | none => true
  | some isMatch => isMatch path

/-- The first pattern at which the look-up ends can be read, and stands for a project that owns the
path; without one, no pattern matches. -/
def FirstOwns : Prop :=
  match (OrderedMap.collect projectMap.entries).find? (Stops regex path) with
  | none => ∀ entry ∈ projectMap.entries, ¬ Matches entry.1 path
  | some entry => (regex (patternExpression entry.1)).isSome = true ∧
      ∀ projectId, projectOf entry.2 = some projectId → Owns projectMap projectId path

end

/-! ## Runs of the look-up -/

section

variable {regex : RegexCrate} {path : String}

/-- The look-up answers from the first entry at which it stops. -/
theorem findProject_eq (regex : RegexCrate) (path : String) (entries : List (String × Json)) :
    findProject regex path entries =
      match entries.find? (Stops regex path) with
      | none =>
          .error (.error ("No project ID has been configured for repository path: " ++ path))
      | some entry =>
          match regex (patternExpression entry.1) with
          | none => .error (.pattern (patternExpression entry.1))
          | some _ =>
              match projectOf entry.2 with
              | some projectId => .ok projectId
              | none => .error (.value entry.2) := by
  induction entries with
  | nil => rfl
  | cons entry rest ih =>
      obtain ⟨key, value⟩ := entry
      unfold findProject
      cases hregex : regex (patternExpression key) with
      | none =>
          have hstops : Stops regex path (key, value) = true := by
            simp [Stops, hregex]
          rw [List.find?_cons_of_pos hstops]
          simp only [hregex]
      | some isMatch =>
          have hstops : Stops regex path (key, value) = isMatch path := by
            simp [Stops, hregex]
          cases hmatch : isMatch path with
          | true =>
              rw [List.find?_cons_of_pos (hstops.trans hmatch)]
              simp only [hregex, hmatch, if_true]
          | false =>
              rw [List.find?_cons_of_neg (by rw [hstops, hmatch]; exact Bool.false_ne_true)]
              simp only [hmatch, Bool.false_eq_true, if_false]
              exact ih

end

/-- The order of the entries does not change the answer. -/
theorem getProjectId_perm {regex : RegexCrate} {projectMap projectMap' : ProjectMap} {path : String}
    (h : projectMap.entries.Perm projectMap'.entries) :
    getProjectIdForRepositoryPath regex projectMap' path =
      getProjectIdForRepositoryPath regex projectMap path := by
  unfold getProjectIdForRepositoryPath
  rw [OrderedMap.collect_perm projectMap.distinct h]

/-- A repository is confined to its project if and only if the first pattern found in its path is one
of a project that owns the path. -/
theorem projectConfined_iff (regex : RegexCrate) (projectMap : ProjectMap) (path : String) :
    Confined regex projectMap path ↔ FirstOwns regex projectMap path := by
  have hrun := findProject_eq regex path (OrderedMap.collect projectMap.entries)
  unfold FirstOwns
  cases hfirst : (OrderedMap.collect projectMap.entries).find? (Stops regex path) with
  | none =>
      rw [hfirst] at hrun
      refine ⟨fun h => h.missing _ hrun, fun hnone => ?_⟩
      exact {
        owned := fun projectId hok => by cases hrun.symm.trans hok
        missing := fun _ _ => hnone
        noPanic := fun expression hpanic => by cases hrun.symm.trans hpanic
        unordered := fun _ _ _ _ _ hperm => getProjectId_perm hperm }
  | some entry =>
      rw [hfirst] at hrun
      cases hregex : regex (patternExpression entry.1) with
      | none =>
          simp only [hregex] at hrun
          refine ⟨fun h => absurd hrun (h.noPanic _), fun h => ?_⟩
          have hsome := h.1
          rw [hregex] at hsome
          cases hsome
      | some isMatch =>
          simp only [hregex] at hrun
          cases hproject : projectOf entry.2 with
          | none =>
              simp only [hproject] at hrun
              have hnone : ∀ projectId, projectOf entry.2 ≠ some projectId := fun projectId h =>
                Option.some_ne_none projectId (h.symm.trans hproject)
              refine ⟨fun _ => ⟨Option.isSome_of_eq_some hregex, fun projectId h =>
                absurd h (hnone projectId)⟩, fun _ => ?_⟩
              exact {
                owned := fun projectId hok => by cases hrun.symm.trans hok
                missing := fun message herror => by cases hrun.symm.trans herror
                noPanic := fun expression hpanic => by cases hrun.symm.trans hpanic
                unordered := fun _ _ _ _ _ hperm => getProjectId_perm hperm }
          | some projectId =>
              simp only [hproject] at hrun
              constructor
              · intro h
                refine ⟨Option.isSome_of_eq_some hregex, fun projectId' h' => ?_⟩
                rw [← Option.some.inj (hproject.symm.trans h')]
                exact h.owned projectId hrun
              · rintro ⟨-, howns⟩
                exact {
                  owned := fun projectId' hok => by
                    rw [← Except.ok.inj (hrun.symm.trans hok)]
                    exact howns projectId hproject
                  missing := fun message herror => by cases hrun.symm.trans herror
                  noPanic := fun expression hpanic => by cases hrun.symm.trans hpanic
                  unordered := fun _ _ _ _ _ hperm => getProjectId_perm hperm }

/-! ## Patterns of simple elements -/

/-- What the rewriting makes of a character. -/
def patternAtom (c : Char) : Wild.Atom :=
  if c = '*' then .dotStar else if c = '/' then .escaped '/' else if c = '.' then .dot
  else .literal c

def patternAtoms (pattern : String) : List Wild.Atom :=
  pattern.toList.map patternAtom

/-- The only characters with a meaning in expressions are `*` and the dot. -/
def Simple (pattern : String) : Prop :=
  ∀ c ∈ pattern.toList, c = '*' ∨ c = '.' ∨ Wild.isMeta c = false

/-- Found in the path: some part of it matches, where a dot stands for any character. -/
def found (pattern path : String) : Bool :=
  Wild.occurs ((patternAtoms pattern).map Wild.Atom.element) path.toList

theorem replaceChars_single (c : Char) (new cs : List Char) :
    Text.replaceChars [c] new cs 0 = cs.flatMap fun d => if d = c then new else [d] := by
  induction cs with
  | nil => rfl
  | cons d ds ih =>
      rw [Text.replaceChars, List.flatMap_cons]
      by_cases h : d = c
      · subst h
        rw [if_pos (by simp), if_pos rfl]
        exact congrArg (new ++ ·) ih
      · have hne : ¬ [c].isPrefixOf (d :: ds) = true := by
          simp [List.isPrefixOf, Ne.symm h]
        rw [if_neg hne, if_neg h, ih]
        rfl

theorem patternExpression_eq (pattern : String) :
    patternExpression pattern = Wild.expressionText (patternAtoms pattern) := by
  unfold patternExpression Text.replace Wild.expressionText patternAtoms
  congr 1
  change Text.replaceChars ['/'] ['\\', '/'] (String.ofList
    (Text.replaceChars ['*'] ['.', '*'] pattern.toList 0)).toList 0 = _
  rw [String.toList_ofList, replaceChars_single, replaceChars_single, List.flatMap_assoc,
    List.flatMap_map]
  refine List.flatMap_congr fun c _ => ?_
  unfold patternAtom
  by_cases h1 : c = '*'
  · subst h1
    rfl
  · by_cases h2 : c = '/'
    · subst h2
      rfl
    · by_cases h3 : c = '.'
      · subst h3
        rfl
      · simp [h1, h2, h3, Wild.Atom.text]

theorem plain_of_simple {pattern : String} (h : Simple pattern) :
    ∀ atom ∈ patternAtoms pattern, atom.Plain := by
  intro atom hatom
  obtain ⟨c, hc, rfl⟩ := List.mem_map.1 hatom
  unfold patternAtom
  split
  · trivial
  · rename_i hstar
    split
    · exact Or.inr rfl
    · split
      · trivial
      · rename_i hdot
        exact ((h c hc).resolve_left hstar).resolve_left hdot

/-- The look-up stops at a pattern of simple elements when it is found in the path. -/
theorem stops_eq_found {regex : RegexCrate} (hsearch : Wild.SearchesFor regex)
    {entry : String × Json} (path : String) (h : Simple entry.1)
    (hcompiled : (regex (patternExpression entry.1)).isSome = true) :
    Stops regex path entry = found entry.1 path := by
  obtain ⟨isMatch, hregex⟩ := Option.isSome_iff_exists.1 hcompiled
  have hfound : isMatch path = found entry.1 path := by
    refine hsearch _ (plain_of_simple h) isMatch ?_ path
    rw [← patternExpression_eq]
    exact hregex
  unfold Stops
  rw [hregex]
  exact hfound

/-- A path on one line that a pattern matches is one that it is found in. -/
theorem found_of_matches {pattern path : String} (hline : '\n' ∉ path.toList)
    (h : Matches pattern path) : found pattern path = true := by
  refine Wild.occurs_of_accepts ?_
  have hwider : List.Forall₂ (Wild.Wider fun c => c ≠ '\n') (Wild.glob pattern)
      ((patternAtoms pattern).map Wild.Atom.element) := by
    unfold Wild.glob patternAtoms
    rw [List.forall₂_map_left_iff, List.map_map, List.forall₂_map_right_iff]
    refine List.forall₂_same.2 fun c _ => ?_
    change Wild.Wider _ (Wild.globElement c) (patternAtom c).element
    unfold Wild.globElement patternAtom
    by_cases h1 : c = '*'
    · rw [if_pos h1, if_pos h1]
      exact fun d hd _ => decide_eq_true hd
    · by_cases h2 : c = '/'
      · rw [if_neg h1, if_neg h1, if_pos h2, ← h2]
        exact fun d _ hd => hd
      · by_cases h3 : c = '.'
        · rw [if_neg h1, if_neg h1, if_neg h2, if_pos h3]
          exact fun d hd _ => decide_eq_true hd
        · rw [if_neg h1, if_neg h1, if_neg h2, if_neg h3]
          exact fun d _ hd => hd
  exact Wild.accepts_of_wider hwider (fun c hc heq => hline (heq ▸ hc)) h

/-- Among patterns of simple elements, only a pattern that is found in a part of the path, before one
of a project that owns the path, gives the repository to another project. -/
theorem firstOwns_iff_of_simple {regex : RegexCrate} (hsearch : Wild.SearchesFor regex)
    {projectMap : ProjectMap} {path : String} (hline : '\n' ∉ path.toList)
    (hsimple : ∀ entry ∈ projectMap.entries, Simple entry.1)
    (hcompiled : ∀ entry ∈ projectMap.entries,
      (regex (patternExpression entry.1)).isSome = true) :
    FirstOwns regex projectMap path ↔
      ∀ entry, (OrderedMap.collect projectMap.entries).find? (fun e => found e.1 path) =
          some entry →
        ∀ projectId, projectOf entry.2 = some projectId → Owns projectMap projectId path := by
  have hmem := OrderedMap.mem_collect projectMap.distinct
  have hstops : (OrderedMap.collect projectMap.entries).find? (Stops regex path) =
      (OrderedMap.collect projectMap.entries).find? fun e => found e.1 path := by
    refine List.find?_congr fun entry hentry => ?_
    have hentry' := (hmem entry).1 hentry
    exact stops_eq_found hsearch path (hsimple entry hentry') (hcompiled entry hentry')
  rw [FirstOwns, hstops]
  cases hfirst : (OrderedMap.collect projectMap.entries).find? fun e => found e.1 path with
  | none =>
      refine ⟨fun _ entry h => absurd h (Option.some_ne_none entry).symm,
        fun _ entry hentry hmatches => ?_⟩
      have hfound := found_of_matches hline hmatches
      exact List.find?_eq_none.1 hfirst entry ((hmem entry).2 hentry) hfound
  | some entry =>
      have hentry := (hmem entry).1 (List.mem_of_find?_eq_some hfirst)
      refine ⟨fun h entry' heq => ?_, fun h => ⟨hcompiled entry hentry, h entry rfl⟩⟩
      rw [← Option.some.inj heq]
      exact h.2

/-! ## A path that ends in another group -/

/-- Two groups, the name of the one ending in the name of the other. -/
def groupMap : ProjectMap where
  entries :=
    [("Platform/app", .object [("project_id", .string "111111111")]),
     ("SubPlatform/app", .object [("project_id", .string "222222222")])]
  distinct := by decide

/-- The answers for the two patterns, which have no special characters but the slash. -/
def groupRegex : RegexCrate := fun expression =>
  if expression = "Platform\\/app" then some fun text => Text.contains text "Platform/app"
  else if expression = "SubPlatform\\/app" then some fun text => Text.contains text "SubPlatform/app"
  else none

/-- The repository of one group acts in the project of the other. -/
theorem subgroup_not_confined :
    getProjectIdForRepositoryPath groupRegex groupMap "SubPlatform/app" = .ok "111111111" ∧
      ¬ Confined groupRegex groupMap "SubPlatform/app" := by
  have hrun : getProjectIdForRepositoryPath groupRegex groupMap "SubPlatform/app" =
      .ok "111111111" := by
    decide +kernel
  refine ⟨hrun, fun hconfined => ?_⟩
  obtain ⟨entry, hentry, hproject, hmatches⟩ := hconfined.owned _ hrun
  have hnot : ∀ entry ∈ groupMap.entries, projectOf entry.2 = some "111111111" →
      ¬ Matches entry.1 "SubPlatform/app" := by
    decide +kernel
  exact hnot entry hentry hproject hmatches

end Gitops
end InfraWeave
