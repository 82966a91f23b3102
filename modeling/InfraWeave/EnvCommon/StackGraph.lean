import InfraWeave.EnvCommon.StackNames

/-!
# The graph of the modules of a stack

A stack says in its manifest which claims depend on which, and the claims refer to one another.  The
first goes into the `depends_on` of the module calls, and only the references, as far as they are on
the first two levels of the variables, are looked at when the stack is validated.
-/

namespace InfraWeave
namespace EnvCommon

/-- An entry of `spec.dependencies`. -/
structure StackDependency where
  forClaim : String
  dependsOn : List String
  deriving DecidableEq

/-- The parts of a stack that its module calls come from. -/
structure StackModules where
  claims : List StackClaim
  dependencies : List StackDependency
  /-- The labels of the module blocks in the Terraform code of the stack. -/
  imported : List String
  localValues : YamlMapping
  /-- The attributes of the locals in the code of a provider. -/
  providerLocals : String → List String

/-! ## References on every level -/

section

variable (conv : Conventions)

mutual

def deepReferences : Json → List FieldReference
  | .string s => references conv s
  | .array items => itemReferences items
  | .object fields => fieldReferences fields
  | _ => []

def itemReferences : List Json → List FieldReference
  | [] => []
  | item :: items => deepReferences item ++ itemReferences items

def fieldReferences : List (String × Json) → List FieldReference
  | [] => []
  | (_, value) :: fields => deepReferences value ++ fieldReferences fields

end

/-- The claims that a value refers to. -/
def referredClaims (value : Json) : List String :=
  ((deepReferences conv value).filter (!·.isStackVariable)).map FieldReference.claim

/-- The values that the stack puts in place of the locals of a provider. -/
def replacedLocals (s : StackModules) (provider : ProviderResp) : List Yaml :=
  (s.providerLocals provider.name).filterMap fun key =>
    YamlMapping.get? (conv.toCamelCase key) s.localValues

/-! ## Module calls -/

/-- A module block of the root: one of the stack's own code, or a call that is generated. -/
inductive RootModule where
  | imported (label : String)
  | call (label : String) (dependsOn : List String)
  deriving DecidableEq

def RootModule.label : RootModule → String
  | .imported label => label
  | .call label _ => label

/-- The names in `depends_on`, which are taken as they are. -/
def claimDependsOn (dependencies : List StackDependency) (name : String) : List String :=
  (dependencies.filter (·.forClaim = name)).flatMap StackDependency.dependsOn

/-- A claim whose module is there already is skipped. -/
def addModuleCall (dependencies : List StackDependency) (roots : List RootModule)
    (c : StackClaim) : List RootModule :=
  if c.name ∈ roots.map RootModule.label then roots
  else roots ++ [.call c.name (claimDependsOn dependencies c.name)]

def rootModules (s : StackModules) : List RootModule :=
  s.claims.foldl (addModuleCall s.dependencies) (s.imported.map .imported)

/-! ## What is asked -/

def ExplicitEdge (s : StackModules) (a b : String) : Prop :=
  ∃ d ∈ s.dependencies, d.forClaim = a ∧ b ∈ d.dependsOn

/-- A variable of the claim refers to another claim. -/
def ReferenceEdge (s : StackModules) (a b : String) : Prop :=
  ∃ c ∈ s.claims, c.name = a ∧ b ∈ referredClaims conv (providedVariables conv c.claim.spec)

/-- A provider of the module of the claim has a local that refers to another claim. -/
def LocalsEdge (s : StackModules) (a b : String) : Prop :=
  ∃ c ∈ s.claims, c.name = a ∧ ∃ provider ∈ c.module.tfProviders,
    ∃ value ∈ replacedLocals conv s provider,
      b ∈ referredClaims conv (Yaml.toJson conv.numberText value)

def Edge (s : StackModules) (a b : String) : Prop :=
  ExplicitEdge s a b ∨ ReferenceEdge conv s a b ∨ LocalsEdge conv s a b

structure WellFoundedGraph (s : StackModules) : Prop where
  dependsOn : ∀ label names, .call label names ∈ rootModules s → ∀ name ∈ names,
    name ∈ (rootModules s).map RootModule.label
  forClaims : ∀ d ∈ s.dependencies, ∃ c ∈ s.claims, c.name = d.forClaim
  acyclic : ∀ a, ¬ Relation.TransGen (Edge conv s) a a

/-- An edge that `validate_dependencies` follows. -/
def SeenEdge (s : StackModules) (a b : String) : Prop :=
  b ∈ dependencyGraph conv s.claims a

/-- Each entry is about a claim; what a claim depends on is a claim or a module of the stack, unless
the code of the stack has the claim; and no edge that is not followed closes a cycle. -/
structure CheckedByHand (s : StackModules) : Prop where
  forClaims : ∀ d ∈ s.dependencies, ∃ c ∈ s.claims, c.name = d.forClaim
  dependsOn : ∀ d ∈ s.dependencies, d.forClaim ∉ s.imported → ∀ name ∈ d.dependsOn,
    name ∈ s.imported ∨ ∃ c ∈ s.claims, c.name = name
  noReturn : ∀ a b, Edge conv s a b → ¬ SeenEdge conv s a b →
    ¬ Relation.ReflTransGen (Edge conv s) b a

end

/-! ## Root modules -/

section

variable {dependencies : List StackDependency}

theorem mem_labels_addModuleCall {roots : List RootModule} {c : StackClaim} {label : String} :
    label ∈ (addModuleCall dependencies roots c).map RootModule.label ↔
      label ∈ roots.map RootModule.label ∨ c.name = label := by
  unfold addModuleCall
  by_cases hthere : c.name ∈ roots.map RootModule.label
  · rw [if_pos hthere]
    exact ⟨Or.inl, fun h => h.elim id fun heq => heq ▸ hthere⟩
  · rw [if_neg hthere, List.map_append, List.mem_append, List.map_singleton, List.mem_singleton]
    exact or_congr_right eq_comm

theorem mem_labels_foldl {claims : List StackClaim} {roots : List RootModule} {label : String} :
    label ∈ (claims.foldl (addModuleCall dependencies) roots).map RootModule.label ↔
      label ∈ roots.map RootModule.label ∨ ∃ c ∈ claims, c.name = label := by
  induction claims generalizing roots with
  | nil => simp
  | cons c claims ih =>
      rw [List.foldl_cons, ih, mem_labels_addModuleCall, or_assoc]
      refine or_congr_right ?_
      simp

/-- Calls are generated for the claims that are not there already. -/
theorem mem_calls_foldl {claims : List StackClaim} (hdistinct : (claims.map StackClaim.name).Nodup)
    {roots : List RootModule} {label : String} {names : List String} :
    .call label names ∈ claims.foldl (addModuleCall dependencies) roots ↔
      .call label names ∈ roots ∨ ∃ c ∈ claims, c.name = label ∧
        c.name ∉ roots.map RootModule.label ∧ names = claimDependsOn dependencies c.name := by
  induction claims generalizing roots with
  | nil => simp
  | cons c claims ih =>
      obtain ⟨hfresh, hdistinct⟩ := List.nodup_cons.1 hdistinct
      have hother : ∀ d ∈ claims, d.name ≠ c.name := fun d hd heq =>
        hfresh (List.mem_map.2 ⟨d, hd, heq⟩)
      -- The call of `c` does not hide a later claim, since the names are distinct.
      have hlabels : ∀ d ∈ claims, d.name ∈ (addModuleCall dependencies roots c).map RootModule.label ↔
          d.name ∈ roots.map RootModule.label := by
        intro d hd
        exact mem_labels_addModuleCall.trans (or_iff_left fun heq => hother d hd heq.symm)
      have hhead : .call label names ∈ addModuleCall dependencies roots c ↔
          .call label names ∈ roots ∨ c.name = label ∧ c.name ∉ roots.map RootModule.label ∧
            names = claimDependsOn dependencies c.name := by
        unfold addModuleCall
        by_cases hthere : c.name ∈ roots.map RootModule.label
        · rw [if_pos hthere]
          exact (or_iff_left fun h => h.2.1 hthere).symm
        · rw [if_neg hthere, List.mem_append, List.mem_singleton, RootModule.call.injEq]
          refine or_congr_right ⟨?_, ?_⟩
          · rintro ⟨rfl, rfl⟩
            exact ⟨rfl, hthere, rfl⟩
          · rintro ⟨rfl, -, rfl⟩
            exact ⟨rfl, rfl⟩
      rw [List.foldl_cons, ih hdistinct, hhead, or_assoc]
      refine or_congr_right ?_
      rw [List.exists_mem_cons_iff]
      refine or_congr_right ?_
      exact exists_congr fun d => and_congr_right fun hd => and_congr_right fun _ =>
        and_congr_left fun _ => not_congr (hlabels d hd)

end

/-! ## Cycles -/

/-- A path either keeps to the edges that are followed, or takes one that is not. -/
theorem seen_or_unseen {α : Type} {edge : α → α → Prop} (seen : α → α → Prop) {a b : α}
    (h : Relation.TransGen edge a b) :
    Relation.TransGen seen a b ∨ ∃ u v, Relation.ReflTransGen edge a u ∧ edge u v ∧ ¬ seen u v ∧
      Relation.ReflTransGen edge v b := by
  induction h with
  | single hedge =>
      rename_i c
      by_cases hseen : seen a c
      · exact Or.inl (.single hseen)
      · exact Or.inr ⟨a, c, .refl, hedge, hseen, .refl⟩
  | tail hpath hedge ih =>
      rename_i c d
      rcases ih with ih | ⟨u, v, hu, huv, hunseen, hv⟩
      · by_cases hseen : seen c d
        · exact Or.inl (ih.tail hseen)
        · exact Or.inr ⟨c, d, hpath.to_reflTransGen, hedge, hseen, .refl⟩
      · exact Or.inr ⟨u, v, hu, huv, hunseen, hv.tail hedge⟩

section

variable {conv : Conventions}

theorem mem_names_of_moduleOf {claims : List StackClaim} {name : String}
    (h : (moduleOf claims name).isSome = true) : name ∈ claims.map StackClaim.name := by
  unfold moduleOf at h
  rw [Option.isSome_map] at h
  obtain ⟨c, hc⟩ := Option.isSome_iff_exists.1 h
  have hfound := List.find?_some hc
  have hname : c.name = name := of_decide_eq_true hfound
  exact List.mem_map.2 ⟨c, List.mem_reverse.1 (List.mem_of_find?_eq_some hc), hname⟩

/-- The edges that are followed lead from claims to claims. -/
theorem names_of_seen {claims : List StackClaim} {a b : String}
    (h : b ∈ dependencyGraph conv claims a) :
    a ∈ claims.map StackClaim.name ∧ b ∈ claims.map StackClaim.name := by
  obtain ⟨c, hc, hb⟩ := List.mem_flatMap.1 h
  obtain ⟨hmem, hname⟩ := List.mem_filter.1 hc
  refine ⟨List.mem_map.2 ⟨c, hmem, of_decide_eq_true hname⟩, ?_⟩
  exact mem_names_of_moduleOf (List.mem_filter.1 hb).2

/-- Accepted claims have no cycle of edges that are followed. -/
theorem seen_acyclic {claims : List StackClaim} (h : Accepted conv claims) (a : String) :
    ¬ Relation.TransGen (fun a b => b ∈ dependencyGraph conv claims a) a a := by
  intro hcycle
  have horder : ∀ name, name ∈ conv.hashOrder (claims.map StackClaim.name) ↔
      name ∈ claims.map StackClaim.name := fun name => (conv.perm_hashOrder _).mem_iff
  obtain ⟨b, hstart, -⟩ := Relation.TransGen.head'_iff.1 hcycle
  refine DepthFirst.acyclic_of_detectCycle (fun x _ y hy => ?_) h.acyclic ?_ hcycle
  · exact Or.inl ((horder y).2 (names_of_seen hy).2)
  · exact (horder a).2 (names_of_seen hstart).1

/-- The module graph of an accepted stack is well founded if and only if the entries of the manifest
are about claims and modules, and nothing that is not followed closes a cycle. -/
theorem wellFoundedGraph_iff (conv : Conventions) (s : StackModules)
    (haccepted : validateClaimModules conv s.claims = .ok ()) :
    WellFoundedGraph conv s ↔ CheckedByHand conv s := by
  have hvalid := accepted_of_validateClaimModules haccepted
  have himported : ∀ label, label ∈ (s.imported.map RootModule.imported).map RootModule.label ↔
      label ∈ s.imported := by
    intro label
    rw [List.map_map]
    have hid : RootModule.label ∘ RootModule.imported = id := rfl
    rw [hid, List.map_id]
  have hlabels : ∀ label, label ∈ (rootModules s).map RootModule.label ↔
      label ∈ s.imported ∨ ∃ c ∈ s.claims, c.name = label := fun label =>
    mem_labels_foldl.trans (or_congr_left (himported label))
  have hcalls : ∀ label names, .call label names ∈ rootModules s ↔ ∃ c ∈ s.claims,
      c.name = label ∧ c.name ∉ s.imported ∧ names = claimDependsOn s.dependencies c.name := by
    intro label names
    refine (mem_calls_foldl hvalid.distinct).trans ((or_iff_right ?_).trans ?_)
    · intro hmem
      obtain ⟨_, -, heq⟩ := List.mem_map.1 hmem
      cases heq
    · exact exists_congr fun c => and_congr_right fun _ => and_congr_right fun _ =>
        and_congr_left fun _ => not_congr (himported c.name)
  constructor
  · intro h
    refine ⟨h.forClaims, fun d hd hnot name hname => ?_, fun a b hedge _ hback => ?_⟩
    · obtain ⟨c, hc, hfor⟩ := h.forClaims d hd
      have hcall := (hcalls c.name _).2 ⟨c, hc, rfl, hfor ▸ hnot, rfl⟩
      refine (hlabels name).1 (h.dependsOn _ _ hcall name ?_)
      exact List.mem_flatMap.2 ⟨d, List.mem_filter.2 ⟨hd, decide_eq_true hfor.symm⟩, hname⟩
    · exact h.acyclic a (Relation.TransGen.head' hedge hback)
  · intro h
    refine ⟨fun label names hcall name hname => ?_, h.forClaims, fun a hcycle => ?_⟩
    · obtain ⟨c, hc, -, hnot, rfl⟩ := (hcalls label names).1 hcall
      obtain ⟨d, hd, hname⟩ := List.mem_flatMap.1 hname
      obtain ⟨hd, hfor⟩ := List.mem_filter.1 hd
      have hfor : d.forClaim = c.name := of_decide_eq_true hfor
      exact (hlabels name).2 (h.dependsOn d hd (hfor ▸ hnot) name hname)
    · rcases seen_or_unseen (SeenEdge conv s) hcycle with hseen | hunseen
      · exact seen_acyclic hvalid a hseen
      · obtain ⟨u, v, hto, hedge, hnot, hfrom⟩ := hunseen
        exact h.noReturn u v hedge hnot (hfrom.trans hto)

end

/-! ## A stack of two claims -/

def twoClaims (dependencies : List StackDependency) : StackModules where
  claims := [plainClaim "bucket" "bucket_name", plainClaim "web" "page_name"]
  dependencies
  imported := []
  localValues := []
  providerLocals := fun _ => []

theorem validate_twoClaims :
    validateClaimModules asciiConventions
      [plainClaim "bucket" "bucket_name", plainClaim "web" "page_name"] = .ok () := by
  decide +kernel

/-- Without references the edges are those of the manifest. -/
theorem edge_twoClaims {dependencies : List StackDependency} {a b : String}
    (h : Edge asciiConventions (twoClaims dependencies) a b) :
    ∃ d ∈ dependencies, d.forClaim = a ∧ b ∈ d.dependsOn := by
  rcases h with h | ⟨c, hc, -, hb⟩ | ⟨c, hc, -, provider, -, value, hvalue, -⟩
  · exact h
  · rcases List.mem_cons.1 hc with rfl | hc
    · cases hb
    · obtain rfl := List.mem_singleton.1 hc
      cases hb
  · cases hvalue

theorem wellFoundedGraph_twoClaims :
    WellFoundedGraph asciiConventions (twoClaims [⟨"web", ["bucket"]⟩]) := by
  refine (wellFoundedGraph_iff asciiConventions _ validate_twoClaims).2 ⟨?_, ?_, ?_⟩
  · intro d hd
    obtain rfl := List.mem_singleton.1 hd
    exact ⟨plainClaim "web" "page_name", List.mem_cons_of_mem _ List.mem_cons_self, rfl⟩
  · intro d hd _ name hname
    obtain rfl := List.mem_singleton.1 hd
    obtain rfl := List.mem_singleton.1 hname
    exact Or.inr ⟨plainClaim "bucket" "bucket_name", List.mem_cons_self, rfl⟩
  · intro a b hedge _ hback
    have hends : ∀ {x y : String},
        Edge asciiConventions (twoClaims [⟨"web", ["bucket"]⟩]) x y → x = "web" ∧ y = "bucket" := by
      intro x y h
      obtain ⟨d, hd, hfor, hy⟩ := edge_twoClaims h
      obtain rfl := List.mem_singleton.1 hd
      exact ⟨hfor.symm, List.mem_singleton.1 hy⟩
    obtain ⟨rfl, rfl⟩ := hends hedge
    rcases Relation.ReflTransGen.cases_head hback with heq | ⟨c, hstart, -⟩
    · exact absurd heq (by decide)
    · exact absurd (hends hstart).1 (by decide)

/-- An entry about a claim that the stack does not have is dropped without a word. -/
theorem danglingForClaim_not_wellFounded :
    validateClaimModules asciiConventions (twoClaims [⟨"database", ["bucket"]⟩]).claims = .ok () ∧
      rootModules (twoClaims [⟨"database", ["bucket"]⟩]) = [.call "bucket" [], .call "web" []] ∧
      ¬ WellFoundedGraph asciiConventions (twoClaims [⟨"database", ["bucket"]⟩]) := by
  refine ⟨validate_twoClaims, by decide +kernel, fun h => ?_⟩
  obtain ⟨c, hc, hname⟩ := h.forClaims ⟨"database", ["bucket"]⟩ List.mem_cons_self
  rcases List.mem_cons.1 hc with rfl | hc
  · exact absurd hname (by decide)
  · obtain rfl := List.mem_singleton.1 hc
    exact absurd hname (by decide)

end EnvCommon
end InfraWeave
