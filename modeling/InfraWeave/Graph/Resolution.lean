import InfraWeave.Lib.OrderedMap
import InfraWeave.Lib.PassThrough
import InfraWeave.Lib.Text
import Mathlib.Data.List.Dedup

/-!
# Edges behind variables, locals and outputs

The edges of a graph pass through variables, locals and the outputs of modules: an edge to one of
these becomes edges to what lies behind it.  The nodes that are being resolved are kept on a stack,
which breaks cycles, and the results in a cache, which all nodes share.
-/

namespace InfraWeave
namespace Graph

open Text (split)

/-! ## Types of nodes -/

/-- `str::starts_with`. -/
def startsWith (s start : String) : Bool :=
  start.toList.isPrefixOf s.toList

/-- The type of the block with the address. -/
def determineBlockType (address : String) (isData : Bool) : String :=
  if startsWith address "var." then "var"
  else if startsWith address "local." then "local"
  else if startsWith address "output." then "output"
  else
    let parts := split '.' address
    match parts.find? fun part => part = "var" || part = "local" || part = "output" with
    | some part => part
    | none =>
        if isData then "data"
        else if 3 ≤ parts.length ∧ parts[parts.length - 3]? = some "data" then "data"
        else if startsWith address "data." then "data"
        else "resource"

/-- The type that a node has been given, or else the one that its address says. -/
def nodeType (types : List (String × String)) (node : String) : String :=
  (types.lookup node).getD (determineBlockType node false)

/-! ## Resolving -/

abbrev Cache := List (String × List String)

def isIntermediate (nType : String) : Bool :=
  nType = "var" || nType = "local" || nType = "output"

/-- What an intermediate node stands for when nothing lies behind it: a root variable and a root
output stand for themselves. -/
def rootOnly (nType node : String) : List String :=
  if nType = "var" then if startsWith node "var." then [node] else []
  else if nType = "output" then if startsWith node "output." then [node] else []
  else []

/-- `sort`, then `dedup`: of the equal texts, which are next to each other then, one is kept. -/
def sortDedup (resolved : List String) : List String :=
  (resolved.mergeSort fun a b => decide (a ≤ b)).dedup

theorem mem_sortDedup {resolved : List String} {s : String} :
    s ∈ sortDedup resolved ↔ s ∈ resolved := by
  rw [sortDedup, List.mem_dedup, List.mem_mergeSort]

/-- The nodes that are not on the stack become fewer. -/
theorem length_filter_lt {deps : List (String × List String)} {stack myDeps : List String}
    {node : String} (hdeps : deps.lookup node = some myDeps) (hstack : node ∉ stack) :
    (deps.filter fun entry => entry.1 ∉ node :: stack).length <
      (deps.filter fun entry => entry.1 ∉ stack).length := by
  have hmem := OrderedMap.mem_of_lookup hdeps
  have hsplit : (deps.filter fun entry => entry.1 ∉ node :: stack) =
      (deps.filter fun entry => entry.1 ∉ stack).filter fun entry => entry.1 ≠ node := by
    rw [List.filter_filter]
    exact List.filter_congr fun entry _ => by simp
  rw [hsplit]
  refine List.length_filter_lt_length_iff_exists.2 ⟨(node, myDeps), ?_, by simp⟩
  exact List.mem_filter.2 ⟨hmem, by simpa using hstack⟩

mutual

/-- The nodes on `stack` are being resolved.  The source takes a node from it when it is done; here
the caller goes on with its own. -/
def resolveDependencies (deps : List (String × List String)) (types : List (String × String))
    (node : String) (cache : Cache) (stack : List String) : List String × Cache :=
  if _hstack : node ∈ stack then ([], cache)
  else
    match cache.lookup node with
    | some cached => (cached, cache)
    | none =>
        let nType := nodeType types node
        if isIntermediate nType then
          match _hdeps : deps.lookup node with
          | some myDeps =>
              if myDeps.isEmpty then (rootOnly nType node, cache)
              else
                let (resolved, cache) := resolveAll deps types myDeps cache (node :: stack)
                -- The output of a module is never a source.
                if nType = "output" && !startsWith node "output." then
                  (sortDedup resolved, (node, sortDedup resolved) :: cache)
                else if resolved.isEmpty then (rootOnly nType node, cache)
                else (sortDedup resolved, (node, sortDedup resolved) :: cache)
          | none => (rootOnly nType node, cache)
        else ([node], cache)
termination_by ((deps.filter fun entry => entry.1 ∉ stack).length, 0)
decreasing_by
  exact Prod.Lex.left _ _ (length_filter_lt _hdeps _hstack)

def resolveAll (deps : List (String × List String)) (types : List (String × String))
    (nodes : List String) (cache : Cache) (stack : List String) : List String × Cache :=
  match nodes with
  | [] => ([], cache)
  | node :: rest =>
      let (resolved, cache) := resolveDependencies deps types node cache stack
      let (others, cache) := resolveAll deps types rest cache stack
      (resolved ++ others, cache)
termination_by ((deps.filter fun entry => entry.1 ∉ stack).length, nodes.length + 1)

end

/-! ## What a node stands for -/

section

variable (deps : List (String × List String)) (types : List (String × String))

/-- The node is passed through. -/
def Pass (node : String) : Prop :=
  isIntermediate (nodeType types node) = true

/-- The node stands for itself when nothing lies behind it. -/
def Root (node : String) : Prop :=
  node ∈ rootOnly (nodeType types node) node

def DependsOn (node dependency : String) : Prop :=
  ∃ myDeps, deps.lookup node = some myDeps ∧ dependency ∈ myDeps

/-- The node depends on the source through intermediate nodes, and resolution stops there. -/
def IsSource (node source : String) : Prop :=
  PassThrough.IsSource (Pass types) (Root types) (DependsOn deps) node source

/-- No cycle of intermediate nodes can be reached from the node through intermediate nodes. -/
def Acyclic (node : String) : Prop :=
  PassThrough.Acyclic (Pass types) (DependsOn deps) node

/-- The node depends on the source through intermediate nodes, and the source is no intermediate
node, or it is a root. -/
def Backed (node source : String) : Prop :=
  Relation.ReflTransGen (PassThrough.Step (Pass types) (DependsOn deps)) node source ∧
    PassThrough.Anchor (Pass types) (Root types) source

end

variable {deps : List (String × List String)} {types : List (String × String)}

theorem mem_rootOnly_iff {nType node s : String} :
    s ∈ rootOnly nType node ↔ s = node ∧ node ∈ rootOnly nType node := by
  unfold rootOnly
  split_ifs <;> simp

theorem Acyclic.acc {node : String} (h : Acyclic deps types node) :
    Acc (fun b a => PassThrough.Step (Pass types) (DependsOn deps) a b) node := by
  have hkeys : ∀ a b, PassThrough.Step (Pass types) (DependsOn deps) a b →
      a ∈ OrderedMap.keys deps := by
    intro a b hstep
    rcases hstep.2 with ⟨myDeps, hdeps, -⟩
    exact OrderedMap.mem_keys_iff.2 ⟨myDeps, hdeps⟩
  exact PassThrough.Acyclic.acc hkeys h

/-- The answer for a node is backed by paths; where no cycle is in the way, it is exact. -/
structure Answers (deps : List (String × List String)) (types : List (String × String))
    (node : String) (sources : List String) : Prop where
  backed : ∀ s ∈ sources, Backed deps types node s
  exact : Acyclic deps types node → ∀ s, s ∈ sources ↔ IsSource deps types node s

/-- Whatever is in the cache is an answer. -/
def CacheSound (deps : List (String × List String)) (types : List (String × String))
    (cache : Cache) : Prop :=
  ∀ node sources, cache.lookup node = some sources → Answers deps types node sources

theorem Backed.of_step {node d s : String}
    (hstep : PassThrough.Step (Pass types) (DependsOn deps) node d)
    (h : Backed deps types d s) : Backed deps types node s :=
  ⟨h.1.head hstep, h.2⟩

theorem answers_of_not_pass {node : String} (h : ¬ Pass types node) :
    Answers deps types node [node] where
  backed s hs := by
    obtain rfl := List.mem_singleton.1 hs
    exact ⟨.refl, Or.inl h⟩
  exact _ s := by
    rw [List.mem_singleton]
    exact (PassThrough.isSource_of_not_pass h).symm

/-- The answers for several nodes, put together. -/
structure AllAnswer (deps : List (String × List String)) (types : List (String × String))
    (nodes sources : List String) : Prop where
  backed : ∀ s ∈ sources, ∃ d ∈ nodes, Backed deps types d s
  exact : (∀ d ∈ nodes, Acyclic deps types d) →
    ∀ s, s ∈ sources ↔ ∃ d ∈ nodes, IsSource deps types d s

theorem AllAnswer.nil : AllAnswer deps types [] [] :=
  ⟨by simp, by simp⟩

theorem AllAnswer.cons {d : String} {nodes sources others : List String}
    (h : Answers deps types d sources) (hrest : AllAnswer deps types nodes others) :
    AllAnswer deps types (d :: nodes) (sources ++ others) where
  backed s hs := by
    rcases List.mem_append.1 hs with hs | hs
    · exact ⟨d, List.mem_cons_self, h.backed s hs⟩
    · rcases hrest.backed s hs with ⟨e, he, hbacked⟩
      exact ⟨e, List.mem_cons_of_mem d he, hbacked⟩
  exact hacyclic s := by
    have hparts := List.forall_mem_cons.1 hacyclic
    simp only [List.mem_append, h.exact hparts.1, hrest.exact hparts.2, List.exists_mem_cons_iff]

/-- An intermediate node whose dependencies lead to nothing. -/
theorem answers_rootOnly {node : String} (hpass : Pass types node)
    (hnone : Acyclic deps types node → ∀ d, DependsOn deps node d → ∀ s, ¬ IsSource deps types d s) :
    Answers deps types node (rootOnly (nodeType types node) node) where
  backed s hs := by
    rcases mem_rootOnly_iff.1 hs with ⟨rfl, hroot⟩
    exact ⟨.refl, Or.inr hroot⟩
  exact hacyclic s := by
    have hsource : IsSource deps types node s ↔
        (∃ d, DependsOn deps node d ∧ IsSource deps types d s) ∨
          s = node ∧ Root types node ∧ ∀ d, DependsOn deps node d → ∀ s, ¬ IsSource deps types d s :=
      PassThrough.isSource_iff_of_acc hacyclic.acc hpass
    refine (mem_rootOnly_iff.trans ?_).trans hsource.symm
    constructor
    · rintro ⟨rfl, hroot⟩
      exact Or.inr ⟨rfl, hroot, hnone hacyclic⟩
    · rintro (⟨d, hedge, hs⟩ | ⟨rfl, hroot, -⟩)
      · exact absurd hs (hnone hacyclic d hedge s)
      · exact ⟨rfl, hroot⟩

section

variable {node : String} {myDeps resolved : List String} (hpass : Pass types node)
  (hdeps : deps.lookup node = some myDeps) (h : AllAnswer deps types myDeps resolved)

include hpass hdeps

theorem acyclic_of_mem (hacyclic : Acyclic deps types node) :
    ∀ d ∈ myDeps, Acyclic deps types d :=
  fun _ hd => PassThrough.Acyclic.of_step hacyclic ⟨hpass, myDeps, hdeps, hd⟩

include h

theorem answers_of_nil (hnil : resolved = []) :
    Answers deps types node (rootOnly (nodeType types node) node) := by
  refine answers_rootOnly hpass fun hacyclic d hedge s hs => ?_
  rcases hedge with ⟨myDeps', hdeps', hd⟩
  obtain rfl := Option.some.inj (hdeps.symm.trans hdeps')
  have hmem := (h.exact (acyclic_of_mem hpass hdeps hacyclic) s).2 ⟨d, hd, hs⟩
  rw [hnil] at hmem
  cases hmem

/-- An intermediate node stands for what its dependencies stand for. -/
theorem answers_of_ne_nil (hne : resolved ≠ []) :
    Answers deps types node (sortDedup resolved) where
  backed s hs := by
    rcases h.backed s (mem_sortDedup.1 hs) with ⟨d, hd, hbacked⟩
    exact hbacked.of_step ⟨hpass, myDeps, hdeps, hd⟩
  exact hacyclic s := by
    have hexact := h.exact (acyclic_of_mem hpass hdeps hacyclic)
    have hedge : (∃ d ∈ myDeps, IsSource deps types d s) ↔
        ∃ d, DependsOn deps node d ∧ IsSource deps types d s := by
      constructor
      · rintro ⟨d, hd, hs⟩
        exact ⟨d, ⟨myDeps, hdeps, hd⟩, hs⟩
      · rintro ⟨d, ⟨myDeps', hdeps', hd⟩, hs⟩
        obtain rfl := Option.some.inj (hdeps.symm.trans hdeps')
        exact ⟨d, hd, hs⟩
    rw [mem_sortDedup, hexact, hedge]
    refine Iff.trans ?_ (PassThrough.isSource_iff_of_acc hacyclic.acc hpass).symm
    refine ⟨Or.inl, fun hsource => hsource.resolve_right ?_⟩
    -- A dependency leads somewhere, so that the node does not stand for itself.
    rintro ⟨-, -, hnone⟩
    rcases List.exists_mem_of_ne_nil _ hne with ⟨t, ht⟩
    rcases (hexact t).1 ht with ⟨d, hd, hsource⟩
    exact hnone d ⟨myDeps, hdeps, hd⟩ t hsource

theorem answers_of_moduleOutput (hroot : rootOnly (nodeType types node) node = []) :
    Answers deps types node (sortDedup resolved) := by
  by_cases hnil : resolved = []
  · have hanswers := answers_of_nil hpass hdeps h hnil
    rw [hroot] at hanswers
    simpa [hnil, sortDedup] using hanswers
  · exact answers_of_ne_nil hpass hdeps h hnil

end

theorem CacheSound.cons {cache : Cache} {node : String} {sources : List String}
    (hcache : CacheSound deps types cache) (h : Answers deps types node sources) :
    CacheSound deps types ((node, sources) :: cache) := by
  intro node' sources' hlookup
  rw [OrderedMap.lookup_cons_ite] at hlookup
  split at hlookup
  · rename_i heq
    rw [heq, ← Option.some.inj hlookup]
    exact h
  · exact hcache node' sources' hlookup

theorem rootOnly_of_moduleOutput {nType node : String}
    (h : (nType = "output" && !startsWith node "output.") = true) : rootOnly nType node = [] := by
  simp only [Bool.and_eq_true, decide_eq_true_eq, Bool.not_eq_true'] at h
  simp [rootOnly, h.1, h.2]

/-! ## The recursion -/

open Relation (TransGen ReflTransGen)

/-- The nodes on the stack lead to the node that is resolved. -/
def OnPath (deps : List (String × List String)) (types : List (String × String))
    (stack : List String) (node : String) : Prop :=
  ∀ m ∈ stack, TransGen (PassThrough.Step (Pass types) (DependsOn deps)) m node

theorem OnPath.cons {stack : List String} {node d : String} (h : OnPath deps types stack node)
    (hstep : PassThrough.Step (Pass types) (DependsOn deps) node d) :
    OnPath deps types (node :: stack) d := by
  refine List.forall_mem_cons.2 ⟨.single hstep, fun m hm => ?_⟩
  exact (h m hm).tail hstep

/-- A node on the stack lies on a cycle, so that nothing has to be answered for it. -/
theorem OnPath.answers_nil {stack : List String} {node : String} (h : OnPath deps types stack node)
    (hmem : node ∈ stack) : Answers deps types node [] where
  backed s hs := by cases hs
  exact hacyclic := absurd (h node hmem) (hacyclic node .refl)

mutual

theorem answers_resolveDependencies {node : String} {cache : Cache} {stack : List String}
    (hcache : CacheSound deps types cache) (hpath : OnPath deps types stack node) :
    Answers deps types node (resolveDependencies deps types node cache stack).1 ∧
      CacheSound deps types (resolveDependencies deps types node cache stack).2 := by
  rw [resolveDependencies]
  split
  · rename_i hmem
    exact ⟨hpath.answers_nil hmem, hcache⟩
  · rename_i hstack
    split
    · rename_i cached hcached
      exact ⟨hcache node cached hcached, hcache⟩
    · dsimp only
      split
      · rename_i hpass
        split
        · rename_i myDeps hdeps
          have hall := allAnswer_resolveAll hcache
            fun d (hd : d ∈ myDeps) => hpath.cons ⟨hpass, myDeps, hdeps, hd⟩
          split
          · rename_i hempty
            refine ⟨answers_rootOnly hpass fun _ d hedge => ?_, hcache⟩
            rcases hedge with ⟨myDeps', hdeps', hd⟩
            rw [← Option.some.inj (hdeps.symm.trans hdeps'), List.isEmpty_iff.1 hempty] at hd
            cases hd
          · split
            · rename_i houtput
              have hanswers := answers_of_moduleOutput hpass hdeps hall.1
                (rootOnly_of_moduleOutput houtput)
              exact ⟨hanswers, hall.2.cons hanswers⟩
            · split
              · rename_i hempty
                exact ⟨answers_of_nil hpass hdeps hall.1 (List.isEmpty_iff.1 hempty), hall.2⟩
              · rename_i hne
                have hanswers := answers_of_ne_nil hpass hdeps hall.1 (mt List.isEmpty_iff.2 hne)
                exact ⟨hanswers, hall.2.cons hanswers⟩
        · rename_i hdeps
          refine ⟨answers_rootOnly hpass fun _ d hedge => ?_, hcache⟩
          rcases hedge with ⟨myDeps, hdeps', -⟩
          cases hdeps.symm.trans hdeps'
      · rename_i hpass
        exact ⟨answers_of_not_pass hpass, hcache⟩
termination_by ((deps.filter fun entry => entry.1 ∉ stack).length, 0)
decreasing_by
  exact Prod.Lex.left _ _ (length_filter_lt ‹_› ‹_›)

theorem allAnswer_resolveAll {nodes : List String} {cache : Cache} {stack : List String}
    (hcache : CacheSound deps types cache) (hpath : ∀ d ∈ nodes, OnPath deps types stack d) :
    AllAnswer deps types nodes (resolveAll deps types nodes cache stack).1 ∧
      CacheSound deps types (resolveAll deps types nodes cache stack).2 := by
  rw [resolveAll.eq_def]
  cases nodes with
  | nil => exact ⟨.nil, hcache⟩
  | cons node rest =>
      have hparts := List.forall_mem_cons.1 hpath
      have hnode := answers_resolveDependencies hcache hparts.1
      have hrest := allAnswer_resolveAll hnode.2 hparts.2
      exact ⟨.cons hnode.1 hrest.1, hrest.2⟩
termination_by ((deps.filter fun entry => entry.1 ∉ stack).length, nodes.length + 1)

end

end Graph
end InfraWeave
