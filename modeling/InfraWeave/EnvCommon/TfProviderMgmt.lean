import InfraWeave.Defs.Hcl
import InfraWeave.Lib.InsertionOrder
import InfraWeave.Lib.OrderedMap
import InfraWeave.Lib.Text

/-!
# Merging root blocks

The blocks of a module, of its providers and of hand-written files become the root of one Terraform
configuration.  The first block of a kind and name is kept, and all `terraform` blocks are merged
into one.
-/

namespace InfraWeave
namespace EnvCommon

open Hcl (Block ObjectKey)
open InsertionOrder

/-! ## Adding blocks -/

structure TfProviderMgmt where
  terraform : List Block
  providers : List Block
  variableBlocks : List Block
  locals : List Hcl.Attribute
  output : List Block
  data : List Block

namespace TfProviderMgmt

def new : TfProviderMgmt :=
  ⟨[], [], [], [], [], []⟩

def addCheckDuplicateOnLabels (target : List Block) (identifier : String) (newBlock : Block) :
    List Block :=
  if newBlock.identifier ≠ identifier then target else addFirst Block.labels target newBlock

variable (mgmt : TfProviderMgmt) (newBlock : Block)

def addTerraform : TfProviderMgmt :=
  if newBlock.identifier ≠ "terraform" then mgmt
  else { mgmt with terraform := mgmt.terraform ++ [newBlock] }

def getAlias (providerBlock : Block) : Option Hcl.Expression :=
  (providerBlock.attributes.find? fun a => a.key = "alias").map Hcl.Attribute.expr

def configurationKey (providerBlock : Block) : List Hcl.BlockLabel × Option Hcl.Expression :=
  (providerBlock.labels, getAlias providerBlock)

def addProviderConfiguration : TfProviderMgmt :=
  if newBlock.identifier ≠ "provider" then mgmt
  else { mgmt with providers := addFirst configurationKey mgmt.providers newBlock }

def addVariable : TfProviderMgmt :=
  { mgmt with variableBlocks := addCheckDuplicateOnLabels mgmt.variableBlocks "variable" newBlock }

def addLocals : TfProviderMgmt :=
  if newBlock.identifier ≠ "locals" then mgmt
  else { mgmt with locals := newBlock.attributes.foldl (addFirst Hcl.Attribute.key) mgmt.locals }

def addOutput : TfProviderMgmt :=
  { mgmt with output := addCheckDuplicateOnLabels mgmt.output "output" newBlock }

def addData : TfProviderMgmt :=
  { mgmt with data := addCheckDuplicateOnLabels mgmt.data "data" newBlock }

def addBlock : TfProviderMgmt :=
  let mgmt := mgmt.addTerraform newBlock
  let mgmt := mgmt.addProviderConfiguration newBlock
  let mgmt := mgmt.addLocals newBlock
  let mgmt := mgmt.addVariable newBlock
  let mgmt := mgmt.addData newBlock
  mgmt.addOutput newBlock

def addBlocks (blocks : List Block) : TfProviderMgmt :=
  blocks.foldl addBlock new

/-! ## The terraform block -/

def textOfVersion (a : Hcl.Attribute) : Option String :=
  if a.key = "required_version" then a.expr.asText else none

def requiredVersion : List Hcl.Attribute :=
  let versionConstraints := (mgmt.terraform.flatMap Block.attributes).filterMap textOfVersion
  if versionConstraints.isEmpty then []
  else [⟨"required_version", .string (", ".intercalate versionConstraints)⟩]

def versionKey : ObjectKey :=
  .identifier "version"

def configuredAliasesKey : ObjectKey :=
  .identifier "configured_aliases"

def mergeVersion (m : Hcl.Object) (expr : Hcl.Expression) : Hcl.Object :=
  match expr with
  | .string ver =>
      upsert versionKey expr (fun
        | .string current => .string (current ++ ", " ++ ver)
        | v => v) m
  | _ => m

def mergeAliases (m map : Hcl.Object) : Hcl.Object :=
  match map.lookup configuredAliasesKey with
  | none => m
  | some newExpr =>
      upsert configuredAliasesKey newExpr (fun currExpr =>
        match currExpr, newExpr with
        | .array arr, .array newArr => .array (arr ++ newArr)
        | currExpr, _ => currExpr) m

/-- The version of a later object is unwrapped. -/
def mergeProvider (m map : Hcl.Object) : Option Hcl.Object :=
  (map.lookup versionKey).map fun expr => mergeAliases (mergeVersion m expr) map

/-- The attributes of the blocks of required providers. -/
def requirements (terraform : List Block) : List (String × Hcl.Expression) :=
  (((terraform.flatMap Block.blocks).filter fun b => b.identifier = "required_providers").flatMap
    Block.attributes).map fun a => (a.key, a.expr)

def objectOf (entry : String × Hcl.Expression) : Option (String × Hcl.Object) :=
  entry.2.asObject.map fun map => (entry.1, map)

/-- The iteration of a hash map. -/
structure HashOrder where
  order : List (String × Hcl.Object) → List (String × Hcl.Object)
  perm : ∀ providers, (order providers).Perm providers

variable (hash : HashOrder)

def requiredProviders : Option (List Block) :=
  (tryCollect mergeProvider ((requirements mgmt.terraform).filterMap objectOf)).map
    fun providers =>
      if providers.isEmpty then []
      else
        [{ identifier := "required_providers"
           labels := []
           attributes := (hash.order providers).map fun e => ⟨e.1, .object e.2⟩
           blocks := [] }]

def providerMeta : List Block :=
  (mgmt.terraform.flatMap Block.blocks).filter fun b => b.identifier = "provider_meta"

def terraformBlocks : Option (List Block) :=
  if mgmt.terraform.isEmpty then some []
  else (mgmt.requiredProviders hash).map fun required =>
    [{ identifier := "terraform"
       labels := []
       attributes := mgmt.requiredVersion
       blocks := required ++ mgmt.providerMeta }]

def localsBlocks : List Block :=
  if mgmt.locals.isEmpty then []
  else [{ identifier := "locals", labels := [], attributes := mgmt.locals, blocks := [] }]

/-- The blocks of the root, unless the process panics. -/
def build : Option (List Block) :=
  (mgmt.terraformBlocks hash).map fun terraform =>
    terraform ++ mgmt.providers ++ mgmt.localsBlocks ++ mgmt.variableBlocks ++ mgmt.data ++
      mgmt.output

/-! ## What is asked -/

/-- A version is one of several constraints, apart from blanks. -/
def constraintParts (text : String) : List String :=
  (Text.split ',' text).map Text.trim

def terraformOf (blocks : List Block) : List Block :=
  blocks.filter fun b => b.identifier = "terraform"

/-- What is asked for a provider, in the order of the blocks. -/
def given (blocks : List Block) (name : String) : List Hcl.Expression :=
  valuesOf (requirements (terraformOf blocks)) name

/-- A provider is required by an object, or by a version alone. -/
def IsRequirement : Hcl.Expression → Prop
  | .string _ | .object _ => True
  | _ => False

def constraintsOf : Hcl.Expression → List String
  | .string text => [text]
  | .object m => (Hcl.Object.named m "version").filterMap Hcl.Expression.asText
  | _ => []

def sourcesOf : Hcl.Expression → List Hcl.Expression
  | .object m => Hcl.Object.named m "source"
  | _ => []

def aliasesOf : Hcl.Expression → List Hcl.Expression
  | .object m => (Hcl.Object.named m "configured_aliases").flatMap Hcl.Expression.items
  | _ => []

/-- A constraint that is given for a provider. -/
def IsGiven (given : List Hcl.Expression) (part : String) : Prop :=
  ∃ e ∈ given, ∃ text ∈ constraintsOf e, part ∈ constraintParts text

/-- The object holds what is given for its provider, and nothing else. -/
structure CarriesProvider (given : List Hcl.Expression) (m : Hcl.Object) : Prop where
  version : (∃ e ∈ given, constraintsOf e ≠ []) →
    ∃ text, .string text ∈ m.named "version" ∧ ∀ part, part ∈ constraintParts text ↔
      IsGiven given part
  source : ∀ s, s ∈ m.named "source" ↔ ∃ e ∈ given, s ∈ sourcesOf e
  aliases : ∀ a, a ∈ aliasesOf (.object m) ↔ ∃ e ∈ given, a ∈ aliasesOf e

/-- The block holds what the `terraform` blocks ask for. -/
structure Carries (blocks : List Block) (t : Block) : Prop where
  version : ∀ part,
    (∃ a ∈ t.attributes, ∃ text, textOfVersion a = some text ∧ part ∈ constraintParts text) ↔
      ∃ b ∈ terraformOf blocks, ∃ a ∈ b.attributes, ∃ text, textOfVersion a = some text ∧
        part ∈ constraintParts text
  once : ((requirements [t]).map Prod.fst).Nodup
  names : ∀ name, name ∈ (requirements [t]).map Prod.fst ↔
    ∃ e ∈ given blocks name, IsRequirement e
  provider : ∀ name e, (name, e) ∈ requirements [t] →
    ∃ m, e = .object m ∧ CarriesProvider (given blocks name) m
  providerMeta : ∀ b, b ∈ t.blocks ∧ b.identifier = "provider_meta" ↔
    ∃ t' ∈ terraformOf blocks, b ∈ t'.blocks ∧ b.identifier = "provider_meta"

def blocksOf (identifier : String) (blocks : List Block) : List Block :=
  blocks.filter fun b => b.identifier = identifier

def localsOf (blocks : List Block) : List Hcl.Attribute :=
  (blocksOf "locals" blocks).flatMap Block.attributes

/-- Nothing is defined twice, the first definition is kept, and no requirement is lost. -/
structure Merged (blocks body : List Block) : Prop where
  terraform : terraformOf blocks ≠ [] → ∃ t, terraformOf body = [t] ∧ Carries blocks t
  noTerraform : terraformOf blocks = [] → terraformOf body = []
  provider : Firsts configurationKey (blocksOf "provider" blocks) (blocksOf "provider" body)
  locals : Firsts Hcl.Attribute.key (localsOf blocks) (localsOf body)
  variableBlocks : Firsts Block.labels (blocksOf "variable" blocks) (blocksOf "variable" body)
  data : Firsts Block.labels (blocksOf "data" blocks) (blocksOf "data" body)
  output : Firsts Block.labels (blocksOf "output" blocks) (blocksOf "output" body)

/-- In every order, what the blocks ask for is in the root. -/
def Merges (blocks : List Block) : Prop :=
  ∀ blocks', blocks'.Perm blocks → ∀ hash : HashOrder, ∃ body,
    (addBlocks blocks').build hash = some body ∧ Merged blocks' body

/-- What the objects of a provider must be like when this one comes first: all others have a plain
version, the first one has a version that can be extended, and so on. -/
structure FirstCarries (given : List Hcl.Expression) (first : Hcl.Object)
    (rest : List Hcl.Object) : Prop where
  versions : ∀ m ∈ rest, (m.lookup versionKey).isSome = true
  constraints : (∀ e ∈ given, constraintsOf e = []) ∨
    ((∀ e, first.lookup versionKey = some e → e.asText.isSome = true) ∧
      ∀ part, IsGiven given part → ∃ m ∈ first :: rest, ∃ text,
        m.lookup versionKey = some (.string text) ∧ part ∈ constraintParts text) ∨
    ∃ text, .string text ∈ first.named "version" ∧
      ∀ part, IsGiven given part → part ∈ constraintParts text
  sources : ∀ e ∈ given, ∀ s ∈ sourcesOf e, s ∈ first.named "source"
  aliases : ∀ e ∈ given, ∀ a ∈ aliasesOf e, a ∈ aliasesOf (.object first) ∨
    (∃ items, (first :: rest).findSome? (·.lookup configuredAliasesKey) = some (.array items)) ∧
      ∃ m ∈ first :: rest, ∃ items,
        m.lookup configuredAliasesKey = some (.array items) ∧ a ∈ items

/-- What is asked for one provider can be merged in the order in which it is given. -/
structure MergesCleanly (given : List Hcl.Expression) : Prop where
  present : (∃ e ∈ given, IsRequirement e) → given.filterMap Hcl.Expression.asObject ≠ []
  first : ∀ first rest, given.filterMap Hcl.Expression.asObject = first :: rest →
    FirstCarries given first rest

/-! ## Versions -/

theorem constraintParts_ne_nil (text : String) : constraintParts text ≠ [] := by
  unfold constraintParts Text.split
  simp

theorem trimChars_blank (cs : List Char) : Text.trimChars (' ' :: cs) = Text.trimChars cs := by
  unfold Text.trimChars
  rw [List.dropWhile_cons_of_pos (by decide)]

/-- Joined versions are their parts together. -/
theorem constraintParts_join (a b : String) :
    constraintParts (a ++ ", " ++ b) = constraintParts a ++ constraintParts b := by
  have hchars : (a ++ ", " ++ b).toList = a.toList ++ ',' :: (' ' :: b.toList) := by
    rw [String.toList_append, String.toList_append, List.append_assoc]
    rfl
  have hblank : (' ' :: b.toList).splitOn ',' = (b.toList.splitOn ',').modifyHead (' ' :: ·) := by
    rw [List.splitOn_cons_eq_if_modifyHead]
    rfl
  have htrim : ∀ pieces : List (List Char),
      ((pieces.modifyHead (' ' :: ·)).map String.ofList).map Text.trim =
        (pieces.map String.ofList).map Text.trim := by
    intro pieces
    cases pieces with
    | nil => rfl
    | cons piece pieces => simp [Text.trim, trimChars_blank]
  unfold constraintParts Text.split
  rw [hchars, List.splitOn_append_cons_self, List.map_append, List.map_append, hblank, htrim]

/-- A version after another one. -/
def joinVersion (current e : Option Hcl.Expression) : Option Hcl.Expression :=
  match e with
  | some (.string ver) =>
      match current with
      | some (.string text) => some (.string (text ++ ", " ++ ver))
      | some v => some v
      | none => some (.string ver)
  | _ => current

def joinAliases (current new : Option Hcl.Expression) : Option Hcl.Expression :=
  match new with
  | none => current
  | some new =>
      match current, new with
      | none, new => some new
      | some (.array arr), .array newArr => some (.array (arr ++ newArr))
      | some current, _ => some current

theorem lookup_mergeVersion (m : Hcl.Object) (expr : Hcl.Expression) (key : ObjectKey) :
    (mergeVersion m expr).lookup key =
      if key = versionKey then joinVersion (m.lookup versionKey) (some expr)
      else m.lookup key := by
  by_cases hkey : key = versionKey
  · subst hkey
    rw [if_pos rfl]
    cases expr with
    | string ver =>
        simp only [mergeVersion, lookup_upsert, if_true]
        cases m.lookup versionKey with
        | none => rfl
        | some current => cases current <;> rfl
    | _ => rfl
  · rw [if_neg hkey]
    cases expr with
    | string ver => simp only [mergeVersion, lookup_upsert, if_neg hkey]
    | _ => rfl

theorem lookup_mergeAliases (m map : Hcl.Object) (key : ObjectKey) :
    (mergeAliases m map).lookup key =
      if key = configuredAliasesKey then
        joinAliases (m.lookup configuredAliasesKey) (map.lookup configuredAliasesKey)
      else m.lookup key := by
  unfold mergeAliases
  cases map.lookup configuredAliasesKey with
  | none =>
      dsimp only [joinAliases]
      split
      · rename_i hkey
        rw [hkey]
      · rfl
  | some newExpr =>
      dsimp only
      rw [lookup_upsert]
      split
      · cases m.lookup configuredAliasesKey with
        | none => rfl
        | some current => cases current <;> cases newExpr <;> rfl
      · rfl

theorem versionKey_ne : versionKey ≠ configuredAliasesKey := by
  decide

/-- Only the version and the aliases are merged. -/
theorem lookup_mergeProvider {m map m' : Hcl.Object} (h : mergeProvider m map = some m')
    (key : ObjectKey) : m'.lookup key =
      if key = versionKey then joinVersion (m.lookup versionKey) (map.lookup versionKey)
      else if key = configuredAliasesKey then
        joinAliases (m.lookup configuredAliasesKey) (map.lookup configuredAliasesKey)
      else m.lookup key := by
  obtain ⟨expr, hexpr, rfl⟩ := Option.map_eq_some_iff.1 h
  rw [lookup_mergeAliases, lookup_mergeVersion, lookup_mergeVersion, if_neg versionKey_ne.symm]
  by_cases hkey : key = versionKey
  · subst hkey
    rw [if_neg versionKey_ne, if_pos rfl, if_pos rfl, hexpr]
  · rw [if_neg hkey, if_neg hkey]

/-- All objects of a provider are merged when every one after the first has a version. -/
theorem isSome_foldlM_mergeProvider {first : Hcl.Object} {rest : List Hcl.Object} :
    (rest.foldlM mergeProvider first).isSome = true ↔
      ∀ m ∈ rest, (m.lookup versionKey).isSome = true := by
  induction rest generalizing first with
  | nil => exact iff_of_true rfl fun _ hm => nomatch hm
  | cons map rest ih =>
      rw [List.foldlM_cons, List.forall_mem_cons]
      unfold mergeProvider
      cases map.lookup versionKey with
      | none => exact iff_of_false Bool.false_ne_true fun h => Bool.false_ne_true h.1
      | some expr =>
          change (rest.foldlM mergeProvider _).isSome = true ↔ _
          rw [ih]
          exact (and_iff_right rfl).symm

theorem lookup_foldlM_mergeProvider {first m : Hcl.Object} {rest : List Hcl.Object}
    (h : rest.foldlM mergeProvider first = some m) (key : ObjectKey) : m.lookup key =
      if key = versionKey then
        (rest.map (·.lookup versionKey)).foldl joinVersion (first.lookup versionKey)
      else if key = configuredAliasesKey then
        (rest.map (·.lookup configuredAliasesKey)).foldl joinAliases
          (first.lookup configuredAliasesKey)
      else first.lookup key := by
  induction rest generalizing first with
  | nil =>
      obtain rfl := Option.some.inj h
      by_cases hversion : key = versionKey
      · simp [hversion]
      · by_cases haliases : key = configuredAliasesKey
        · simp [haliases, versionKey_ne.symm]
        · simp [hversion, haliases]
  | cons map rest ih =>
      rw [List.foldlM_cons] at h
      obtain ⟨merged, hmerged, hrest⟩ := Option.bind_eq_some_iff.1 h
      rw [ih hrest, lookup_mergeProvider hmerged, lookup_mergeProvider hmerged,
        lookup_mergeProvider hmerged, if_pos rfl, if_neg versionKey_ne.symm, if_pos rfl]
      by_cases hversion : key = versionKey
      · simp [hversion]
      · by_cases haliases : key = configuredAliasesKey
        · simp [haliases]
        · simp [hversion, haliases]

/-! ## Joined values -/

/-- The constraints of a version. -/
def partsOf (e : Option Hcl.Expression) : List String :=
  match e with
  | some (.string text) => constraintParts text
  | _ => []

def itemsOf (e : Option Hcl.Expression) : List Hcl.Expression :=
  match e with
  | some (.array items) => items
  | _ => []

/-- There is no version, or one that can be extended. -/
def Extensible (current : Option Hcl.Expression) : Prop :=
  ∀ e, current = some e → e.asText.isSome = true

theorem foldl_joinVersion_of_not_extensible {current : Option Hcl.Expression}
    (h : ¬ Extensible current) (es : List (Option Hcl.Expression)) :
    es.foldl joinVersion current = current := by
  induction es with
  | nil => rfl
  | cons e es ih =>
      have hsame : joinVersion current e = current := by
        cases current with
        | none => exact absurd (fun _ heq => nomatch heq) h
        | some v =>
            cases v with
            | string text => exact absurd (fun _ heq => Option.some.inj heq ▸ rfl) h
            | _ => cases e with
              | none => rfl
              | some e => cases e <;> rfl
      rw [List.foldl_cons, hsame]
      exact ih

theorem joinVersion_extensible {current : Option Hcl.Expression} (h : Extensible current)
    (e : Option Hcl.Expression) : Extensible (joinVersion current e) ∧
      partsOf (joinVersion current e) = partsOf current ++ partsOf e := by
  cases e with
  | none => exact ⟨h, (List.append_nil _).symm⟩
  | some e =>
      cases e with
      | string ver =>
          cases current with
          | none => exact ⟨fun _ heq => Option.some.inj heq ▸ rfl, rfl⟩
          | some v =>
              cases v with
              | string text =>
                  exact ⟨fun _ heq => Option.some.inj heq ▸ rfl, constraintParts_join text ver⟩
              | _ => exact absurd (h _ rfl) (by simp [Hcl.Expression.asText])
      | _ => exact ⟨h, (List.append_nil _).symm⟩

theorem foldl_joinVersion {current : Option Hcl.Expression} (h : Extensible current)
    (es : List (Option Hcl.Expression)) : Extensible (es.foldl joinVersion current) ∧
      partsOf (es.foldl joinVersion current) = partsOf current ++ es.flatMap partsOf := by
  induction es generalizing current with
  | nil => exact ⟨h, (List.append_nil _).symm⟩
  | cons e es ih =>
      obtain ⟨hnext, hparts⟩ := joinVersion_extensible h e
      obtain ⟨hrest, heq⟩ := ih hnext
      refine ⟨hrest, ?_⟩
      rw [List.foldl_cons, heq, hparts, List.append_assoc, List.flatMap_cons]

/-- The first value that is there decides whether the others are added. -/
theorem mem_foldl_joinAliases {current : Option Hcl.Expression} {es : List (Option Hcl.Expression)}
    {a : Hcl.Expression} : a ∈ itemsOf (es.foldl joinAliases current) ↔
      (∃ items, (current :: es).findSome? id = some (.array items)) ∧
        ∃ e ∈ current :: es, a ∈ itemsOf e := by
  induction es generalizing current with
  | nil =>
      cases current with
      | none => simp [itemsOf]
      | some e => cases e <;> simp [itemsOf]
  | cons e es ih =>
      rw [List.foldl_cons, ih]
      cases e with
      | none => cases current <;> simp [joinAliases, itemsOf]
      | some e =>
          cases current with
          | none => simp [joinAliases, itemsOf]
          | some v =>
              cases v with
              | array arr =>
                  cases e with
                  | array newArr =>
                      simp only [joinAliases, List.findSome?_cons, id, List.mem_cons, itemsOf]
                      simp [or_and_right, exists_or, or_assoc]
                  | _ => simp [joinAliases, itemsOf]
              | _ => simp [joinAliases]

/-! ## One provider -/

section

variable {given : List Hcl.Expression} {first m : Hcl.Object} {rest : List Hcl.Object}

theorem mem_objects (hobjects : given.filterMap Hcl.Expression.asObject = first :: rest)
    {o : Hcl.Object} : o ∈ first :: rest ↔ .object o ∈ given := by
  rw [← hobjects, List.mem_filterMap]
  constructor
  · rintro ⟨e, he, ho⟩
    cases e with
    | object fields =>
        obtain rfl := Option.some.inj ho
        exact he
    | _ => cases ho
  · exact fun h => ⟨.object o, h, rfl⟩

/-- The versions of an object are given. -/
theorem isGiven_of_named {o : Hcl.Object} (ho : .object o ∈ given) {text part : String}
    (htext : .string text ∈ o.named "version") (hpart : part ∈ constraintParts text) :
    IsGiven given part :=
  ⟨.object o, ho, text, List.mem_filterMap.2 ⟨.string text, htext, rfl⟩, hpart⟩

theorem mem_partsOf {e : Option Hcl.Expression} {part : String} :
    part ∈ partsOf e ↔ ∃ text, e = some (.string text) ∧ part ∈ constraintParts text := by
  cases e with
  | none => simp [partsOf]
  | some e => cases e <;> simp [partsOf]

theorem mem_itemsOf {e : Option Hcl.Expression} {a : Hcl.Expression} :
    a ∈ itemsOf e ↔ ∃ items, e = some (.array items) ∧ a ∈ items := by
  cases e with
  | none => simp [itemsOf]
  | some e => cases e <;> simp [itemsOf]

/-- The constraints that are joined are those of the plain versions. -/
theorem mem_partsOf_version (hm : rest.foldlM mergeProvider first = some m)
    (hextensible : Extensible (first.lookup versionKey)) {part : String} :
    part ∈ partsOf (m.lookup versionKey) ↔ ∃ o ∈ first :: rest, ∃ text,
      o.lookup versionKey = some (.string text) ∧ part ∈ constraintParts text := by
  rw [lookup_foldlM_mergeProvider hm, if_pos rfl, (foldl_joinVersion hextensible _).2,
    List.mem_append, List.flatMap_map, List.mem_flatMap]
  simp only [mem_partsOf, List.mem_cons, exists_eq_or_imp]

theorem lookup_quoted (hm : rest.foldlM mergeProvider first = some m) (name : String) :
    m.lookup (.quoted name) = first.lookup (.quoted name) := by
  rw [lookup_foldlM_mergeProvider hm, if_neg (by simp [versionKey]),
    if_neg (by simp [configuredAliasesKey])]

theorem carries_version_iff (hobjects : given.filterMap Hcl.Expression.asObject = first :: rest)
    (hm : rest.foldlM mergeProvider first = some m) :
    ((∃ e ∈ given, constraintsOf e ≠ []) → ∃ text, .string text ∈ m.named "version" ∧
      ∀ part, part ∈ constraintParts text ↔ IsGiven given part) ↔
    ((∀ e ∈ given, constraintsOf e = []) ∨
      ((∀ e, first.lookup versionKey = some e → e.asText.isSome = true) ∧
        ∀ part, IsGiven given part → ∃ o ∈ first :: rest, ∃ text,
          o.lookup versionKey = some (.string text) ∧ part ∈ constraintParts text) ∨
      ∃ text, .string text ∈ first.named "version" ∧
        ∀ part, IsGiven given part → part ∈ constraintParts text) := by
  have hfirst : .object first ∈ given := (mem_objects hobjects).1 List.mem_cons_self
  -- The joined version, when it can be extended, holds nothing that is not given.
  have hwithin : Extensible (first.lookup versionKey) →
      ∀ part, part ∈ partsOf (m.lookup versionKey) → IsGiven given part := by
    intro hextensible part hpart
    obtain ⟨o, ho, text, htext, hpart⟩ := (mem_partsOf_version hm hextensible).1 hpart
    exact isGiven_of_named ((mem_objects hobjects).1 ho)
      (Hcl.Object.mem_named.2 (.inl htext)) hpart
  constructor
  · intro h
    by_cases hnone : ∀ e ∈ given, constraintsOf e = []
    · exact .inl hnone
    have hsome : ∃ e ∈ given, constraintsOf e ≠ [] := by
      by_contra hnot
      exact hnone fun e he => by_contra fun hne => hnot ⟨e, he, hne⟩
    obtain ⟨text, htext, hparts⟩ := h hsome
    rcases Hcl.Object.mem_named.1 htext with hplain | hquoted
    · refine .inr (.inl ?_)
      have hextensible : Extensible (first.lookup versionKey) := by
        by_contra hnot
        have hsame := lookup_foldlM_mergeProvider hm versionKey
        rw [if_pos rfl, foldl_joinVersion_of_not_extensible hnot] at hsame
        refine hnot fun e he => ?_
        change m.lookup versionKey = _ at hplain
        rw [hsame, he] at hplain
        obtain rfl := Option.some.inj hplain
        rfl
      refine ⟨hextensible, fun part hpart => (mem_partsOf_version hm hextensible).1 ?_⟩
      exact mem_partsOf.2 ⟨text, hplain, (hparts part).2 hpart⟩
    · rw [lookup_quoted hm] at hquoted
      exact .inr (.inr ⟨text, Hcl.Object.mem_named.2 (.inr hquoted),
        fun part hpart => (hparts part).2 hpart⟩)
  · rintro h ⟨e, he, hconstraints⟩
    -- Something is given.
    obtain ⟨part₀, hpart₀⟩ : ∃ part, IsGiven given part := by
      obtain ⟨text, htext⟩ := List.exists_mem_of_ne_nil _ hconstraints
      obtain ⟨part, hpart⟩ := List.exists_mem_of_ne_nil _ (constraintParts_ne_nil text)
      exact ⟨part, e, he, text, htext, hpart⟩
    have hplain : Extensible (first.lookup versionKey) →
        (∀ part, IsGiven given part → part ∈ partsOf (m.lookup versionKey)) →
        ∃ text, .string text ∈ m.named "version" ∧
          ∀ part, part ∈ constraintParts text ↔ IsGiven given part := by
      intro hextensible hall
      obtain ⟨text, htext, -⟩ := mem_partsOf.1 (hall part₀ hpart₀)
      refine ⟨text, Hcl.Object.mem_named.2 (.inl htext), fun part => ⟨fun hpart => ?_,
        fun hpart => ?_⟩⟩
      · exact hwithin hextensible part (mem_partsOf.2 ⟨text, htext, hpart⟩)
      · obtain ⟨text', htext', hpart'⟩ := mem_partsOf.1 (hall part hpart)
        rw [htext] at htext'
        cases htext'
        exact hpart'
    rcases h with hnone | ⟨hextensible, hall⟩ | ⟨text, htext, hall⟩
    · exact absurd (hnone e he) hconstraints
    · exact hplain hextensible fun part hpart =>
        (mem_partsOf_version hm hextensible).2 (hall part hpart)
    · rcases Hcl.Object.mem_named.1 htext with hversion | hquoted
      · have hextensible : Extensible (first.lookup versionKey) := by
          intro e he
          change first.lookup versionKey = _ at hversion
          rw [hversion] at he
          exact Option.some.inj he ▸ rfl
        refine hplain hextensible fun part hpart => (mem_partsOf_version hm hextensible).2 ?_
        exact ⟨first, List.mem_cons_self, text, hversion, hall part hpart⟩
      · refine ⟨text, Hcl.Object.mem_named.2 (.inr ?_), fun part => ⟨fun hpart => ?_, hall part⟩⟩
        · rw [lookup_quoted hm]
          exact hquoted
        · exact isGiven_of_named hfirst htext hpart

theorem carries_source_iff (hobjects : given.filterMap Hcl.Expression.asObject = first :: rest)
    (hm : rest.foldlM mergeProvider first = some m) :
    (∀ s, s ∈ m.named "source" ↔ ∃ e ∈ given, s ∈ sourcesOf e) ↔
      ∀ e ∈ given, ∀ s ∈ sourcesOf e, s ∈ first.named "source" := by
  have hfirst : .object first ∈ given := (mem_objects hobjects).1 List.mem_cons_self
  have hplain : m.lookup (.identifier "source") = first.lookup (.identifier "source") := by
    rw [lookup_foldlM_mergeProvider hm, if_neg (by simp [versionKey]),
      if_neg (by simp [configuredAliasesKey])]
  have hsame : m.named "source" = first.named "source" := by
    unfold Hcl.Object.named
    rw [hplain, lookup_quoted hm]
  rw [hsame]
  constructor
  · exact fun h e he s hs => (h s).2 ⟨e, he, hs⟩
  · rintro h s
    constructor
    · exact fun hs => ⟨.object first, hfirst, hs⟩
    · rintro ⟨e, he, hs⟩
      exact h e he s hs

theorem mem_aliasesOf {o : Hcl.Object} {a : Hcl.Expression} : a ∈ aliasesOf (.object o) ↔
    a ∈ itemsOf (o.lookup configuredAliasesKey) ∨
      a ∈ itemsOf (o.lookup (.quoted "configured_aliases")) := by
  have hitems : ∀ e : Option Hcl.Expression,
      e.toList.flatMap Hcl.Expression.items = itemsOf e := by
    intro e
    cases e with
    | none => rfl
    | some e => cases e <;> simp [Hcl.Expression.items, itemsOf]
  change a ∈ (Hcl.Object.named o "configured_aliases").flatMap Hcl.Expression.items ↔ _
  unfold Hcl.Object.named
  rw [List.flatMap_append, hitems, hitems, List.mem_append]
  rfl

/-- The aliases that are joined. -/
theorem mem_itemsOf_aliases (hm : rest.foldlM mergeProvider first = some m) {a : Hcl.Expression} :
    a ∈ itemsOf (m.lookup configuredAliasesKey) ↔
      (∃ items, (first :: rest).findSome? (·.lookup configuredAliasesKey) = some (.array items)) ∧
        ∃ o ∈ first :: rest, ∃ items,
          o.lookup configuredAliasesKey = some (.array items) ∧ a ∈ items := by
  have hvalues : first.lookup configuredAliasesKey :: rest.map (·.lookup configuredAliasesKey) =
      (first :: rest).map (·.lookup configuredAliasesKey) := rfl
  rw [lookup_foldlM_mergeProvider hm, if_neg versionKey_ne.symm, if_pos rfl,
    mem_foldl_joinAliases, hvalues]
  simp only [← mem_itemsOf]
  refine and_congr ?_ ?_
  · rw [List.findSome?_map]
    rfl
  · simp

theorem carries_aliases_iff (hobjects : given.filterMap Hcl.Expression.asObject = first :: rest)
    (hm : rest.foldlM mergeProvider first = some m) :
    (∀ a, a ∈ aliasesOf (.object m) ↔ ∃ e ∈ given, a ∈ aliasesOf e) ↔
      ∀ e ∈ given, ∀ a ∈ aliasesOf e, a ∈ aliasesOf (.object first) ∨
        (∃ items, (first :: rest).findSome? (·.lookup configuredAliasesKey) =
            some (.array items)) ∧
          ∃ o ∈ first :: rest, ∃ items,
            o.lookup configuredAliasesKey = some (.array items) ∧ a ∈ items := by
  have hfirst : .object first ∈ given := (mem_objects hobjects).1 List.mem_cons_self
  have hmem : ∀ a, a ∈ aliasesOf (.object m) ↔ a ∈ aliasesOf (.object first) ∨
      a ∈ itemsOf (m.lookup configuredAliasesKey) := by
    intro a
    rw [mem_aliasesOf, mem_aliasesOf, lookup_quoted hm, or_assoc]
    refine ⟨fun h => h.elim (fun h => .inr (.inr h)) fun h => .inr (.inl h), ?_⟩
    rintro (h | h | h)
    · -- What is in the plain aliases of the first object stays there.
      refine .inl ((mem_itemsOf_aliases hm).2 ?_)
      obtain ⟨items, hitems, ha⟩ := mem_itemsOf.1 h
      exact ⟨⟨items, by simp [hitems]⟩, first, List.mem_cons_self, items, hitems, ha⟩
    · exact .inr h
    · exact .inl h
  constructor
  · intro h e he a ha
    exact ((hmem a).1 ((h a).2 ⟨e, he, ha⟩)).imp_right (mem_itemsOf_aliases hm).1
  · intro h a
    rw [hmem]
    constructor
    · rintro (ha | ha)
      · exact ⟨.object first, hfirst, ha⟩
      · obtain ⟨-, o, ho, items, hitems, ha⟩ := (mem_itemsOf_aliases hm).1 ha
        exact ⟨.object o, (mem_objects hobjects).1 ho,
          mem_aliasesOf.2 (.inl (mem_itemsOf.2 ⟨items, hitems, ha⟩))⟩
    · rintro ⟨e, he, ha⟩
      exact (h e he a ha).imp_right (mem_itemsOf_aliases hm).2

/-- What the objects of a provider must be like. -/
theorem firstCarries_iff (hobjects : given.filterMap Hcl.Expression.asObject = first :: rest) :
    FirstCarries given first rest ↔
      ∃ m, rest.foldlM mergeProvider first = some m ∧ CarriesProvider given m := by
  constructor
  · intro h
    obtain ⟨m, hm⟩ := Option.isSome_iff_exists.1 (isSome_foldlM_mergeProvider.2 h.versions)
    exact ⟨m, hm, (carries_version_iff hobjects hm).2 h.constraints,
      (carries_source_iff hobjects hm).2 h.sources, (carries_aliases_iff hobjects hm).2 h.aliases⟩
  · rintro ⟨m, hm, hcarries⟩
    have hsome : (rest.foldlM mergeProvider first).isSome = true := by
      rw [hm]
      rfl
    exact ⟨isSome_foldlM_mergeProvider.1 hsome,
      (carries_version_iff hobjects hm).1 hcarries.version,
      (carries_source_iff hobjects hm).1 hcarries.source,
      (carries_aliases_iff hobjects hm).1 hcarries.aliases⟩

end

/-! ## The blocks that are kept -/

section

variable (blocks : List Block)

theorem addBlocks_append (b : Block) :
    addBlocks (blocks ++ [b]) = (addBlocks blocks).addBlock b := by
  unfold addBlocks
  rw [List.foldl_append]
  rfl

theorem blocksOf_append (identifier : String) (b : Block) : blocksOf identifier (blocks ++ [b]) =
    if b.identifier = identifier then blocksOf identifier blocks ++ [b]
    else blocksOf identifier blocks := by
  unfold blocksOf
  by_cases h : b.identifier = identifier
  · simp [h]
  · simp [h]

/-- A block is added where its identifier says. -/
theorem addBlock_eq (mgmt : TfProviderMgmt) (b : Block) : mgmt.addBlock b =
    { terraform :=
        if b.identifier = "terraform" then mgmt.terraform ++ [b] else mgmt.terraform
      providers :=
        if b.identifier = "provider" then addFirst configurationKey mgmt.providers b
        else mgmt.providers
      variableBlocks :=
        if b.identifier = "variable" then addFirst Block.labels mgmt.variableBlocks b
        else mgmt.variableBlocks
      locals :=
        if b.identifier = "locals" then b.attributes.foldl (addFirst Hcl.Attribute.key) mgmt.locals
        else mgmt.locals
      output :=
        if b.identifier = "output" then addFirst Block.labels mgmt.output b else mgmt.output
      data := if b.identifier = "data" then addFirst Block.labels mgmt.data b else mgmt.data } := by
  unfold addBlock addTerraform addProviderConfiguration addLocals addVariable addData addOutput
    addCheckDuplicateOnLabels
  by_cases hterraform : b.identifier = "terraform"
  · simp [hterraform]
  by_cases hprovider : b.identifier = "provider"
  · simp [hprovider]
  by_cases hlocals : b.identifier = "locals"
  · simp [hlocals]
  simp [hterraform, hprovider, hlocals]

theorem localsOf_append (b : Block) : localsOf (blocks ++ [b]) =
    if b.identifier = "locals" then localsOf blocks ++ b.attributes else localsOf blocks := by
  unfold localsOf
  rw [blocksOf_append]
  split
  · simp
  · rfl

/-- What is kept of all blocks. -/
theorem addBlocks_eq : addBlocks blocks =
    { terraform := terraformOf blocks
      providers := (blocksOf "provider" blocks).foldl (addFirst configurationKey) []
      variableBlocks := (blocksOf "variable" blocks).foldl (addFirst Block.labels) []
      locals := (localsOf blocks).foldl (addFirst Hcl.Attribute.key) []
      output := (blocksOf "output" blocks).foldl (addFirst Block.labels) []
      data := (blocksOf "data" blocks).foldl (addFirst Block.labels) [] } := by
  induction blocks using List.reverseRecOn with
  | nil => rfl
  | append_singleton blocks b ih =>
      have hterraform : terraformOf (blocks ++ [b]) = _ := blocksOf_append blocks "terraform" b
      rw [addBlocks_append, addBlock_eq, ih, hterraform, blocksOf_append, blocksOf_append,
        blocksOf_append, blocksOf_append, localsOf_append]
      simp only [TfProviderMgmt.mk.injEq]
      refine ⟨rfl, ?_, ?_, ?_, ?_, ?_⟩
      all_goals split
      all_goals simp [List.foldl_append]

theorem constraintParts_intercalate {versions : List String} (h : versions ≠ []) :
    constraintParts (", ".intercalate versions) = versions.flatMap constraintParts := by
  induction versions with
  | nil => exact absurd rfl h
  | cons version versions ih =>
      cases versions with
      | nil => simp [String.intercalate_singleton]
      | cons next versions =>
          rw [String.intercalate_cons_of_ne_nil (List.cons_ne_nil _ _), constraintParts_join,
            ih (List.cons_ne_nil _ _)]
          exact List.flatMap_cons.symm

/-- Every version that is required, and nothing else. -/
theorem carries_requiredVersion (mgmt : TfProviderMgmt) (part : String) :
    (∃ a ∈ mgmt.requiredVersion, ∃ text, textOfVersion a = some text ∧
      part ∈ constraintParts text) ↔
    ∃ b ∈ mgmt.terraform, ∃ a ∈ b.attributes, ∃ text, textOfVersion a = some text ∧
      part ∈ constraintParts text := by
  let versions := (mgmt.terraform.flatMap Block.attributes).filterMap textOfVersion
  have hversions : (∃ b ∈ mgmt.terraform, ∃ a ∈ b.attributes, ∃ text,
      textOfVersion a = some text ∧ part ∈ constraintParts text) ↔
      part ∈ versions.flatMap constraintParts := by
    simp only [versions, List.mem_flatMap, List.mem_filterMap]
    constructor
    · rintro ⟨b, hb, a, ha, text, htext, hpart⟩
      exact ⟨text, ⟨a, ⟨b, hb, ha⟩, htext⟩, hpart⟩
    · rintro ⟨text, ⟨a, ⟨b, hb, ha⟩, htext⟩, hpart⟩
      exact ⟨b, hb, a, ha, text, htext, hpart⟩
  rw [hversions]
  have heq : mgmt.requiredVersion = if versions.isEmpty then []
      else [⟨"required_version", .string (", ".intercalate versions)⟩] := rfl
  rw [heq]
  by_cases hempty : versions = []
  · simp [hempty]
  · rw [if_neg (by simpa using hempty), ← constraintParts_intercalate hempty]
    simp [textOfVersion, Hcl.Expression.asText]

/-! ## The blocks of the root -/

theorem blocksOf_of_forall {identifier : String}
    (h : ∀ b ∈ blocks, b.identifier = identifier) (identifier' : String) :
    blocksOf identifier' blocks = if identifier = identifier' then blocks else [] := by
  unfold blocksOf
  split
  · rename_i heq
    exact List.filter_eq_self.2 fun b hb => decide_eq_true ((h b hb).trans heq)
  · rename_i hne
    exact List.filter_eq_nil_iff.2 fun b hb hid =>
      hne ((h b hb).symm.trans (of_decide_eq_true hid))

theorem identifier_of_mem_blocksOf {identifier : String} {b : Block}
    (h : b ∈ blocksOf identifier blocks) : b.identifier = identifier :=
  of_decide_eq_true (List.mem_filter.1 h).2

/-- What is kept of the blocks of one kind is of this kind. -/
theorem identifier_of_kept {κ : Type} [DecidableEq κ] {key : Block → κ} {identifier : String}
    {b : Block} (h : b ∈ (blocksOf identifier blocks).foldl (addFirst key) []) :
    b.identifier = identifier := by
  have hfirsts : Firsts key _ _ := firsts_foldl (blocksOf identifier blocks)
  have hfound := (hfirsts.mem_iff b).1 h
  exact identifier_of_mem_blocksOf blocks (List.mem_of_find?_eq_some hfound)

theorem blocksOf_append_list (identifier : String) (blocks' : List Block) :
    blocksOf identifier (blocks ++ blocks') =
      blocksOf identifier blocks ++ blocksOf identifier blocks' :=
  List.filter_append _ _

theorem identifier_of_terraformBlocks {mgmt : TfProviderMgmt} {hash : HashOrder}
    {terraform : List Block} (h : mgmt.terraformBlocks hash = some terraform) :
    ∀ b ∈ terraform, b.identifier = "terraform" := by
  unfold terraformBlocks at h
  split at h
  · obtain rfl := Option.some.inj h
    exact fun _ hb => nomatch hb
  · obtain ⟨required, -, rfl⟩ := Option.map_eq_some_iff.1 h
    intro b hb
    rw [List.mem_singleton.1 hb]

theorem identifier_of_localsBlocks (mgmt : TfProviderMgmt) :
    ∀ b ∈ mgmt.localsBlocks, b.identifier = "locals" := by
  unfold localsBlocks
  split
  · exact fun _ hb => nomatch hb
  · intro b hb
    rw [List.mem_singleton.1 hb]

/-- The blocks of each kind in the root. -/
theorem blocksOf_build {hash : HashOrder} {body : List Block}
    (h : (addBlocks blocks).build hash = some body) :
    (addBlocks blocks).terraformBlocks hash = some (terraformOf body) ∧
      blocksOf "provider" body = (addBlocks blocks).providers ∧
      blocksOf "locals" body = (addBlocks blocks).localsBlocks ∧
      blocksOf "variable" body = (addBlocks blocks).variableBlocks ∧
      blocksOf "data" body = (addBlocks blocks).data ∧
      blocksOf "output" body = (addBlocks blocks).output := by
  obtain ⟨terraform, hterraform, rfl⟩ := Option.map_eq_some_iff.1 h
  have hproviders : ∀ b ∈ (addBlocks blocks).providers, b.identifier = "provider" := by
    rw [addBlocks_eq]
    exact fun b hb => identifier_of_kept blocks hb
  have hvariables : ∀ b ∈ (addBlocks blocks).variableBlocks, b.identifier = "variable" := by
    rw [addBlocks_eq]
    exact fun b hb => identifier_of_kept blocks hb
  have hdata : ∀ b ∈ (addBlocks blocks).data, b.identifier = "data" := by
    rw [addBlocks_eq]
    exact fun b hb => identifier_of_kept blocks hb
  have houtput : ∀ b ∈ (addBlocks blocks).output, b.identifier = "output" := by
    rw [addBlocks_eq]
    exact fun b hb => identifier_of_kept blocks hb
  have hall : ∀ identifier, blocksOf identifier
      (terraform ++ (addBlocks blocks).providers ++ (addBlocks blocks).localsBlocks ++
        (addBlocks blocks).variableBlocks ++ (addBlocks blocks).data ++
        (addBlocks blocks).output) =
      (if "terraform" = identifier then terraform else []) ++
        (if "provider" = identifier then (addBlocks blocks).providers else []) ++
        (if "locals" = identifier then (addBlocks blocks).localsBlocks else []) ++
        (if "variable" = identifier then (addBlocks blocks).variableBlocks else []) ++
        (if "data" = identifier then (addBlocks blocks).data else []) ++
        (if "output" = identifier then (addBlocks blocks).output else []) := by
    intro identifier
    simp only [blocksOf_append_list]
    rw [blocksOf_of_forall _ (identifier_of_terraformBlocks hterraform),
      blocksOf_of_forall _ hproviders, blocksOf_of_forall _ (identifier_of_localsBlocks _),
      blocksOf_of_forall _ hvariables, blocksOf_of_forall _ hdata, blocksOf_of_forall _ houtput]
  have hfirst := hall "terraform"
  refine ⟨?_, ?_, ?_, ?_, ?_, ?_⟩
  · rw [hterraform]
    change some terraform = some (blocksOf "terraform" _)
    rw [hfirst]
    simp
  · rw [hall]
    simp
  · rw [hall]
    simp
  · rw [hall]
    simp
  · rw [hall]
    simp
  · rw [hall]
    simp

theorem localsOf_build {hash : HashOrder} {body : List Block}
    (h : (addBlocks blocks).build hash = some body) :
    localsOf body = (addBlocks blocks).locals := by
  unfold localsOf
  rw [(blocksOf_build blocks h).2.2.1]
  unfold localsBlocks
  cases (addBlocks blocks).locals with
  | nil => rfl
  | cons a locals => simp

end

/-! ## All providers -/

section

variable {blocks : List Block} {hash : HashOrder} {providers : List (String × Hcl.Object)}

/-- The objects among the requirements. -/
def objectsOf (blocks : List Block) : List (String × Hcl.Object) :=
  (requirements (terraformOf blocks)).filterMap objectOf

theorem valuesOf_filterMap_objectOf (entries : List (String × Hcl.Expression)) (name : String) :
    valuesOf (entries.filterMap objectOf) name =
      (valuesOf entries name).filterMap Hcl.Expression.asObject := by
  induction entries with
  | nil => rfl
  | cons entry entries ih =>
      obtain ⟨key, e⟩ := entry
      unfold valuesOf at ih ⊢
      by_cases hkey : key = name
      · cases hobject : e.asObject with
        | none => simp [objectOf, hobject, hkey, ih]
        | some m => simp [objectOf, hobject, hkey, ih]
      · cases hobject : e.asObject with
        | none => simp [objectOf, hobject, hkey, ih]
        | some m => simp [objectOf, hobject, hkey, ih]

theorem valuesOf_objectsOf (blocks : List Block) (name : String) :
    valuesOf (objectsOf blocks) name =
      (given blocks name).filterMap Hcl.Expression.asObject :=
  valuesOf_filterMap_objectOf _ name

/-- What is collected is what the objects of each provider are merged into. -/
theorem lookup_providers (h : tryCollect mergeProvider (objectsOf blocks) = some providers)
    {name : String} {first : Hcl.Object} {rest : List Hcl.Object}
    (hobjects : (given blocks name).filterMap Hcl.Expression.asObject = first :: rest) :
    ∃ m, rest.foldlM mergeProvider first = some m ∧ providers.lookup name = some m := by
  have hcombine := lookup_tryCollect h name
  rw [valuesOf_objectsOf, hobjects] at hcombine
  obtain ⟨m, hm, heq⟩ := Option.map_eq_some_iff.1 hcombine
  exact ⟨m, hm, heq.symm⟩

theorem lookup_providers_eq_none
    (h : tryCollect mergeProvider (objectsOf blocks) = some providers) {name : String}
    (hobjects : (given blocks name).filterMap Hcl.Expression.asObject = []) :
    providers.lookup name = none := by
  have hcombine := lookup_tryCollect h name
  rw [valuesOf_objectsOf, hobjects] at hcombine
  exact (Option.some.inj hcombine).symm

/-- The merged block. -/
def mergedBlock (mgmt : TfProviderMgmt) (required : List Block) : Block where
  identifier := "terraform"
  labels := []
  attributes := mgmt.requiredVersion
  blocks := required ++ mgmt.providerMeta

theorem requirements_mergedBlock (mgmt : TfProviderMgmt) {required : List Block}
    (hcollect : tryCollect mergeProvider ((requirements mgmt.terraform).filterMap objectOf) =
      some providers)
    (hrequired : mgmt.requiredProviders hash = some required) :
    requirements [mergedBlock mgmt required] =
      (hash.order providers).map fun e => (e.1, .object e.2) := by
  unfold requiredProviders at hrequired
  rw [hcollect] at hrequired
  obtain rfl := Option.some.inj hrequired
  have hmeta : blocksOf "required_providers" mgmt.providerMeta = [] := by
    refine List.filter_eq_nil_iff.2 fun b hb hid => ?_
    have hother : b.identifier = "provider_meta" := of_decide_eq_true (List.mem_filter.1 hb).2
    rw [of_decide_eq_true hid] at hother
    exact absurd hother (by decide)
  unfold requirements mergedBlock
  rw [List.flatMap_singleton, List.filter_append]
  change List.map _ (List.flatMap _ (_ ++ blocksOf "required_providers" mgmt.providerMeta)) = _
  rw [hmeta, List.append_nil]
  cases providers with
  | nil =>
      have hnil : hash.order [] = [] := (hash.perm []).eq_nil
      rw [hnil]
      rfl
  | cons provider providers => simp

/-- The merged block carries what is asked exactly when each provider does. -/
theorem carries_mergedBlock_iff
    (hcollect : tryCollect mergeProvider (objectsOf blocks) = some providers)
    {required : List Block}
    (hrequired : (addBlocks blocks).requiredProviders hash = some required) :
    Carries blocks (mergedBlock (addBlocks blocks) required) ↔
      ∀ name, MergesCleanly (given blocks name) := by
  have hterraform : (addBlocks blocks).terraform = terraformOf blocks := by
    rw [addBlocks_eq]
  have hcollect' : tryCollect mergeProvider
      ((requirements (addBlocks blocks).terraform).filterMap objectOf) = some providers := by
    rw [hterraform]
    exact hcollect
  have hrequirements := requirements_mergedBlock (addBlocks blocks) hcollect' hrequired
  have hnodup : (providers.map Prod.fst).Nodup := nodup_keys_tryCollect hcollect
  have hkeys : ((requirements [mergedBlock (addBlocks blocks) required]).map Prod.fst).Perm
      (providers.map Prod.fst) := by
    rw [hrequirements, List.map_map]
    exact (hash.perm providers).map _
  have hmem : ∀ name e, (name, e) ∈ requirements [mergedBlock (addBlocks blocks) required] ↔
      ∃ m, providers.lookup name = some m ∧ e = .object m := by
    intro name e
    rw [hrequirements, List.mem_map]
    constructor
    · rintro ⟨⟨name', m⟩, hentry, heq⟩
      obtain ⟨rfl, rfl⟩ := Prod.mk.inj heq
      exact ⟨m, OrderedMap.lookup_of_mem hnodup ((hash.perm providers).mem_iff.1 hentry), rfl⟩
    · rintro ⟨m, hlookup, rfl⟩
      exact ⟨(name, m), (hash.perm providers).mem_iff.2 (OrderedMap.mem_of_lookup hlookup), rfl⟩
  have hnames : ∀ name, name ∈ (requirements [mergedBlock (addBlocks blocks) required]).map
      Prod.fst ↔ (given blocks name).filterMap Hcl.Expression.asObject ≠ [] := by
    intro name
    rw [hkeys.mem_iff]
    change name ∈ OrderedMap.keys providers ↔ _
    rw [OrderedMap.mem_keys_iff]
    constructor
    · rintro ⟨m, hlookup⟩ hnil
      rw [lookup_providers_eq_none hcollect hnil] at hlookup
      cases hlookup
    · intro hne
      obtain ⟨first, rest, hobjects⟩ := List.exists_cons_of_ne_nil hne
      obtain ⟨m, -, hlookup⟩ := lookup_providers hcollect hobjects
      exact ⟨m, hlookup⟩
  constructor
  · intro hcarries name
    refine ⟨fun hsome => (hnames name).1 ((hcarries.names name).2 hsome), ?_⟩
    intro first rest hobjects
    obtain ⟨m, hm, hlookup⟩ := lookup_providers hcollect hobjects
    obtain ⟨m', heq, hprovider⟩ := hcarries.provider name _ ((hmem name _).2 ⟨m, hlookup, rfl⟩)
    cases heq
    exact (firstCarries_iff hobjects).2 ⟨m, hm, hprovider⟩
  · intro hall
    refine ⟨?_, ?_, fun name => ?_, fun name e hentry => ?_, ?_⟩
    · intro part
      rw [← hterraform]
      exact carries_requiredVersion _ part
    · exact hkeys.nodup_iff.2 hnodup
    · rw [hnames]
      refine ⟨fun hne => ?_, (hall name).present⟩
      obtain ⟨m, hm⟩ := List.exists_mem_of_ne_nil _ hne
      obtain ⟨e, he, hobject⟩ := List.mem_filterMap.1 hm
      refine ⟨e, he, ?_⟩
      cases e with
      | object fields => exact trivial
      | _ => cases hobject
    · obtain ⟨m, hlookup, rfl⟩ := (hmem name e).1 hentry
      refine ⟨m, rfl, ?_⟩
      have hne : (given blocks name).filterMap Hcl.Expression.asObject ≠ [] := by
        intro hnil
        rw [lookup_providers_eq_none hcollect hnil] at hlookup
        cases hlookup
      obtain ⟨first, rest, hobjects⟩ := List.exists_cons_of_ne_nil hne
      obtain ⟨m', hm', hlookup'⟩ := lookup_providers hcollect hobjects
      obtain ⟨m'', hm'', hcarries⟩ := (firstCarries_iff hobjects).1 ((hall name).first _ _ hobjects)
      obtain rfl := Option.some.inj (hlookup'.symm.trans hlookup)
      obtain rfl := Option.some.inj (hm'.symm.trans hm'')
      exact hcarries
    · intro b
      have hother : ∀ b ∈ required, b.identifier = "required_providers" := by
        unfold requiredProviders at hrequired
        rw [hcollect'] at hrequired
        obtain rfl := Option.some.inj hrequired
        intro b hb
        dsimp only at hb
        split at hb
        · cases hb
        · rw [List.mem_singleton.1 hb]
      change b ∈ required ++ (addBlocks blocks).providerMeta ∧ _ ↔ _
      rw [List.mem_append, ← hterraform]
      constructor
      · rintro ⟨hb | hb, hid⟩
        · rw [hother b hb] at hid
          exact absurd hid (by decide)
        · obtain ⟨t', ht', hb⟩ := List.mem_flatMap.1 (List.mem_filter.1 hb).1
          exact ⟨t', ht', hb, hid⟩
      · rintro ⟨t', ht', hb, hid⟩
        exact ⟨.inr (List.mem_filter.2 ⟨List.mem_flatMap.2 ⟨t', ht', hb⟩, decide_eq_true hid⟩), hid⟩

/-- Without a `terraform` block nothing is required. -/
theorem mergesCleanly_nil : MergesCleanly [] where
  present h := by
    obtain ⟨e, he, -⟩ := h
    cases he
  first _ _ h := nomatch h

/-- Whatever the blocks, nothing is defined twice, and the first definition is kept. -/
theorem merged_iff_of_build {body : List Block}
    (h : (addBlocks blocks).build hash = some body) : Merged blocks body ↔
      (terraformOf blocks ≠ [] → ∃ t, terraformOf body = [t] ∧ Carries blocks t) := by
  obtain ⟨hterraform, hprovider, -, hvariables, hdata, houtput⟩ := blocksOf_build blocks h
  refine ⟨Merged.terraform, fun hcarries => ?_⟩
  constructor
  · exact hcarries
  · intro hempty
    have hkept : (addBlocks blocks).terraform = [] := by
      rw [addBlocks_eq]
      exact hempty
    unfold terraformBlocks at hterraform
    rw [hkept] at hterraform
    exact (Option.some.inj hterraform).symm
  · rw [hprovider, addBlocks_eq]
    exact firsts_foldl _
  · rw [localsOf_build blocks h, addBlocks_eq]
    exact firsts_foldl _
  · rw [hvariables, addBlocks_eq]
    exact firsts_foldl _
  · rw [hdata, addBlocks_eq]
    exact firsts_foldl _
  · rw [houtput, addBlocks_eq]
    exact firsts_foldl _

theorem terraformBlocks_addBlocks (hash : HashOrder) (hsome : terraformOf blocks ≠ []) :
    (addBlocks blocks).terraformBlocks hash =
      ((addBlocks blocks).requiredProviders hash).map fun required =>
        [mergedBlock (addBlocks blocks) required] := by
  have hterraform : (addBlocks blocks).terraform = terraformOf blocks := by
    rw [addBlocks_eq]
  unfold terraformBlocks
  rw [hterraform, if_neg (by simpa using hsome)]
  rfl

theorem requiredProviders_addBlocks (blocks : List Block) (hash : HashOrder) :
    ((addBlocks blocks).requiredProviders hash).isSome =
    (tryCollect mergeProvider (objectsOf blocks)).isSome := by
  have hterraform : (addBlocks blocks).terraform = terraformOf blocks := by
    rw [addBlocks_eq]
  unfold requiredProviders objectsOf
  rw [hterraform, Option.isSome_map]

/-- In one order, the root is what is asked exactly when each provider can be merged. -/
theorem build_merged_iff (blocks : List Block) (hash : HashOrder) :
    (∃ body, (addBlocks blocks).build hash = some body ∧ Merged blocks body) ↔
      ∀ name, MergesCleanly (given blocks name) := by
  by_cases hempty : terraformOf blocks = []
  · -- There is no block to be merged.
    have hbuild : ∃ body, (addBlocks blocks).build hash = some body := by
      have hterraform : (addBlocks blocks).terraform = [] := by
        rw [addBlocks_eq]
        exact hempty
      unfold build terraformBlocks
      rw [hterraform]
      exact ⟨_, rfl⟩
    refine iff_of_true ?_ fun name => ?_
    · obtain ⟨body, hbody⟩ := hbuild
      exact ⟨body, hbody, (merged_iff_of_build hbody).2 fun hsome => absurd hempty hsome⟩
    · have hnil : given blocks name = [] := by
        unfold given
        rw [hempty]
        rfl
      rw [hnil]
      exact mergesCleanly_nil
  have hblocks := terraformBlocks_addBlocks hash hempty
  have hisSome := requiredProviders_addBlocks blocks hash
  cases hcollect : tryCollect mergeProvider (objectsOf blocks) with
  | none =>
      -- The version of some object is missing.
      have hnone : (addBlocks blocks).requiredProviders hash = none := by
        rw [hcollect] at hisSome
        exact Option.isSome_eq_false_iff.1 hisSome |> Option.isNone_iff_eq_none.1
      refine iff_of_false ?_ fun hall => ?_
      · rintro ⟨body, hbody, -⟩
        unfold build at hbody
        rw [hblocks, hnone] at hbody
        cases hbody
      · obtain ⟨name, hname⟩ := exists_of_tryCollect_eq_none hcollect
        rw [valuesOf_objectsOf] at hname
        cases hobjects : (given blocks name).filterMap Hcl.Expression.asObject with
        | nil =>
            rw [hobjects] at hname
            cases hname
        | cons first rest =>
            rw [hobjects] at hname
            obtain ⟨m, hm, -⟩ :=
              (firstCarries_iff hobjects).1 ((hall name).first first rest hobjects)
            change (rest.foldlM mergeProvider first).map some = none at hname
            rw [hm] at hname
            cases hname
  | some providers =>
      obtain ⟨required, hrequired⟩ : ∃ required,
          (addBlocks blocks).requiredProviders hash = some required := by
        rw [hcollect] at hisSome
        exact Option.isSome_iff_exists.1 hisSome
      have hbuild : ∃ body, (addBlocks blocks).build hash = some body := by
        unfold build
        rw [hblocks, hrequired]
        exact ⟨_, rfl⟩
      rw [← carries_mergedBlock_iff hcollect hrequired]
      obtain ⟨body, hbody⟩ := hbuild
      have hterraform : terraformOf body = [mergedBlock (addBlocks blocks) required] := by
        have hsame := (blocksOf_build blocks hbody).1
        rw [hblocks, hrequired] at hsame
        exact (Option.some.inj hsame).symm
      constructor
      · rintro ⟨body', hbody', hmerged⟩
        obtain rfl := Option.some.inj (hbody.symm.trans hbody')
        obtain ⟨t, ht, hcarries⟩ := hmerged.terraform hempty
        rw [hterraform] at ht
        cases ht
        exact hcarries
      · exact fun hcarries =>
          ⟨body, hbody, (merged_iff_of_build hbody).2 fun _ => ⟨_, hterraform, hcarries⟩⟩

/-- The root is what is asked, in every order, exactly when in every order each provider can be
merged. -/
theorem merges_iff (blocks : List Block) : Merges blocks ↔
    ∀ blocks', blocks'.Perm blocks → ∀ name, MergesCleanly (given blocks' name) := by
  constructor
  · intro h blocks' hperm
    exact (build_merged_iff blocks' ⟨id, fun _ => .refl _⟩).1 (h blocks' hperm _)
  · exact fun h blocks' hperm hash => (build_merged_iff blocks' hash).2 (h blocks' hperm)

/-- A provider that is required by its version alone. -/
def awsVersion : Block where
  identifier := "terraform"
  labels := []
  attributes := []
  blocks :=
    [{ identifier := "required_providers"
       labels := []
       attributes := [⟨"aws", .string "~> 5.0"⟩]
       blocks := [] }]

theorem not_merges_aws : ¬ Merges [awsVersion] := by
  intro h
  have hbuild := h [awsVersion] (.refl _) ⟨id, fun _ => .refl _⟩
  have hclean := (build_merged_iff [awsVersion] _).1 hbuild "aws"
  exact hclean.present ⟨.string "~> 5.0", by decide, trivial⟩ (by decide)

end

end TfProviderMgmt

end EnvCommon
end InfraWeave
