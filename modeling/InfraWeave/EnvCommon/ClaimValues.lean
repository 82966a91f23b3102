import InfraWeave.Defs.TfBlockSurvival
import InfraWeave.EnvCommon.ModuleExamples
import InfraWeave.EnvCommon.TfProviderMgmt

/-!
# Values of a claim and types of variables

The type of a variable is recorded as the text of an expression, and a claim is checked against that
text: `list(` and the like are recognised, any other text is compared with the name of a JSON type.
-/

namespace InfraWeave
namespace EnvCommon

open Hcl (Block Crate)
open InsertionOrder

/-! ## Types -/

inductive TypeWord where
  | string
  | number
  | bool
  | any
  | list
  | set
  | tuple
  | map
  | object
  deriving DecidableEq

def TypeWord.text : TypeWord → String
  | .string => "string"
  | .number => "number"
  | .bool => "bool"
  | .any => "any"
  | .list => "list"
  | .set => "set"
  | .tuple => "tuple"
  | .map => "map"
  | .object => "object"

/-- The types that a variable may have.  A word may stand alone, and it may be quoted; an attribute
of an object may be optional, with a default. -/
inductive VariableType where
  | word (word : TypeWord)
  | quoted (word : TypeWord)
  | list (element : VariableType)
  | set (element : VariableType)
  | map (element : VariableType)
  | tuple (items : List VariableType)
  | object (attributes : List (String × Option (Option String) × VariableType))

namespace VariableType

section

variable (brackets : List String → String) (braces : List (String × String) → String)

mutual

/-- A type as it is printed; `brackets` and `braces` print a list and an object. -/
def text : VariableType → String
  | .word w => w.text
  | .quoted w => "\"" ++ w.text ++ "\""
  | .list element => "list(" ++ text element ++ ")"
  | .set element => "set(" ++ text element ++ ")"
  | .map element => "map(" ++ text element ++ ")"
  | .tuple items => "tuple(" ++ brackets (textItems items) ++ ")"
  | .object attributes => "object(" ++ braces (textAttributes attributes) ++ ")"

def textItems : List VariableType → List String
  | [] => []
  | item :: items => text item :: textItems items

def textAttributes :
    List (String × Option (Option String) × VariableType) → List (String × String)
  | [] => []
  | (name, modifier, type) :: attributes =>
      (name,
        match modifier with
        | none => text type
        | some none => "optional(" ++ text type ++ ")"
        | some (some default) => "optional(" ++ text type ++ ", " ++ default ++ ")") ::
        textAttributes attributes

end

/-- The expression that a variable block has for its type. -/
def expression (t : VariableType) : Hcl.Expression :=
  match t with
  | .quoted w => .string w.text
  | t => .computed (t.text brackets braces)

end

end VariableType

inductive JsonKind where
  | null
  | text
  | number
  | bool
  | array
  | mapping
  deriving DecidableEq

def jsonKind : Json → JsonKind
  | .null => .null
  | .bool _ => .bool
  | .number _ => .number
  | .string _ => .text
  | .array _ => .array
  | .object _ => .mapping

/-- The kind of values that a type admits, unless it admits all. -/
def TypeWord.kind : TypeWord → Option JsonKind
  | .string => some .text
  | .number => some .number
  | .bool => some .bool
  | .any => none
  | .list | .set | .tuple => some .array
  | .map | .object => some .mapping

namespace VariableType

def kind : VariableType → Option JsonKind
  | .word w | .quoted w => w.kind
  | .list _ | .set _ | .tuple _ => some .array
  | .map _ | .object _ => some .mapping

/-- A value fits: null if the variable is nullable, otherwise a value of the kind of the type. -/
def admits (t : VariableType) (nullable : Bool) (value : Json) : Bool :=
  match jsonKind value with
  | .null => nullable
  | kind => t.kind.all (· = kind)

/-- The types whose values the check tells apart: a word that names a JSON type, and what starts
with one of four texts. -/
def isRecognised (t : VariableType) (nullable : Bool) : Bool :=
  match t with
  | .word .any => nullable
  | .word w => w ∈ [.string, .number, .bool, .list, .object]
  | .quoted _ | .tuple _ => false
  | .list _ | .set _ | .map _ | .object _ => true

end VariableType

/-! ## What the check compares -/

theorem isSome_stripPrefix (start s : String) :
    (Text.stripPrefix start s).isSome = start.toList.isPrefixOf s.toList := by
  unfold Text.stripPrefix
  cases start.toList.isPrefixOf s.toList with
  | true => rfl
  | false => rfl

theorem moduleVariableType_word (w : TypeWord) :
    moduleVariableType (.string w.text) = w.text := by
  cases w <;> decide

theorem moduleVariableType_quoted (w : TypeWord) :
    moduleVariableType (.string ("\"" ++ w.text ++ "\"")) = "\"" ++ w.text ++ "\"" := by
  cases w <;> decide

section

variable {brackets : List String → String} {braces : List (String × String) → String}

/-- The text that the name of a value's type is compared with. -/
def expectedText (brackets : List String → String) (braces : List (String × String) → String)
    (t : VariableType) : String :=
  match t with
  | .list _ | .set _ => "list"
  | .map _ | .object _ => "object"
  | t => t.text brackets braces

theorem moduleVariableType_text (t : VariableType) :
    moduleVariableType (.string (t.text brackets braces)) = expectedText brackets braces t := by
  cases t with
  | word w =>
      simp only [expectedText, VariableType.text]
      exact moduleVariableType_word w
  | quoted w =>
      simp only [expectedText, VariableType.text]
      exact moduleVariableType_quoted w
  | list element =>
      simp only [moduleVariableType, isSome_stripPrefix, VariableType.text, String.toList_append]
      rfl
  | set element =>
      simp only [moduleVariableType, isSome_stripPrefix, VariableType.text, String.toList_append]
      rfl
  | map element =>
      simp only [moduleVariableType, isSome_stripPrefix, VariableType.text, String.toList_append]
      rfl
  | tuple items =>
      simp only [moduleVariableType, isSome_stripPrefix, VariableType.text, String.toList_append,
        expectedText]
      rfl
  | object attributes =>
      simp only [moduleVariableType, isSome_stripPrefix, VariableType.text, String.toList_append]
      rfl

variable (brackets braces) in
theorem expectedText_ne_of_tuple (items : List VariableType) :
    expectedText brackets braces (.tuple items) ≠ "any" ∧
      expectedText brackets braces (.tuple items) ≠ "list" := by
  have hchars : (expectedText brackets braces (.tuple items)).toList =
      't' :: ("uple(".toList ++ (brackets (VariableType.textItems brackets braces items)).toList ++
        ")".toList) := by
    simp only [expectedText, VariableType.text, String.toList_append]
    rfl
  constructor
  · intro h
    rw [h] at hchars
    exact absurd (List.cons.inj hchars).1 (by decide)
  · intro h
    rw [h] at hchars
    exact absurd (List.cons.inj hchars).1 (by decide)

/-- What the check does with a value that is no reference. -/
def Passes (expected : String) (nullable : Bool) (value : Json) : Prop :=
  expected = "any" ∨ variableValueType value = expected ∨ value = .null ∧ nullable = true

instance (expected : String) (nullable : Bool) (value : Json) :
    Decidable (Passes expected nullable value) :=
  inferInstanceAs (Decidable (_ ∨ _ ∨ _ ∧ _))

/-- A recognised type is checked as it has to be. -/
theorem passes_iff_admits {t : VariableType} {nullable : Bool}
    (h : t.isRecognised nullable = true) (value : Json) :
    Passes (expectedText brackets braces t) nullable value ↔ t.admits nullable value = true := by
  unfold Passes VariableType.admits
  cases t with
  | word w =>
      simp only [expectedText, VariableType.text]
      cases w <;> cases value <;>
        simp_all [VariableType.isRecognised, VariableType.kind, TypeWord.kind, TypeWord.text,
          variableValueType, jsonKind]
  | quoted w => cases h
  | tuple items => cases h
  | list element => cases value <;> simp [expectedText, VariableType.kind, variableValueType, jsonKind]
  | set element => cases value <;> simp [expectedText, VariableType.kind, variableValueType, jsonKind]
  | map element => cases value <;> simp [expectedText, VariableType.kind, variableValueType, jsonKind]
  | object attributes =>
      cases value <;> simp [expectedText, VariableType.kind, variableValueType, jsonKind]

/-- A value of a kind that is not null. -/
def sampleOf : Option JsonKind → Json
  | none | some .bool => .bool true
  | some .text => .string ""
  | some .number => .number (.int 0)
  | some .array => .array []
  | some .mapping => .object []
  | some .null => .null

theorem word_not_passes_iff_admits {w : TypeWord} {nullable : Bool}
    (h : (VariableType.word w).isRecognised nullable = false) : ∃ value,
      (∀ s, value = .string s → s = "") ∧
        ¬ (Passes w.text nullable value ↔ (VariableType.word w).admits nullable value = true) := by
  cases w with
  | any =>
      refine ⟨.null, by simp, ?_⟩
      have hnullable : nullable = false := h
      simp [Passes, TypeWord.text, VariableType.admits, jsonKind, hnullable]
  | set =>
      refine ⟨.array [], by simp, ?_⟩
      cases nullable <;> decide
  | tuple =>
      refine ⟨.array [], by simp, ?_⟩
      cases nullable <;> decide
  | map =>
      refine ⟨.object [], by simp, ?_⟩
      cases nullable <;> decide
  | _ => cases h

theorem quoted_not_passes_iff_admits (w : TypeWord) (nullable : Bool) : ∃ value,
    (∀ s, value = .string s → s = "") ∧
      ¬ (Passes ("\"" ++ w.text ++ "\"") nullable value ↔
        (VariableType.quoted w).admits nullable value = true) := by
  refine ⟨sampleOf w.kind, fun s hs => ?_, ?_⟩
  · cases w <;> cases hs
    rfl
  · cases w <;> cases nullable <;> decide

variable (brackets braces) in
/-- A type that is not recognised is checked wrongly for some value. -/
theorem exists_not_passes_iff_admits {t : VariableType} {nullable : Bool}
    (h : t.isRecognised nullable = false) : ∃ value, (∀ s, value = .string s → s = "") ∧
      ¬ (Passes (expectedText brackets braces t) nullable value ↔ t.admits nullable value = true) := by
  cases t with
  | word w =>
      simp only [expectedText, VariableType.text]
      exact word_not_passes_iff_admits h
  | quoted w =>
      simp only [expectedText, VariableType.text]
      exact quoted_not_passes_iff_admits w nullable
  | tuple items =>
      refine ⟨.array [], by simp, fun hiff => ?_⟩
      have hne := expectedText_ne_of_tuple brackets braces items
      rcases hiff.2 rfl with h | h | h
      · exact hne.1 h
      · exact hne.2 h.symm
      · cases h.1
  | _ => cases h

end

/-! ## Values -/

section

variable (conv : Conventions) (types : TfVariable → VariableType) (record : ModuleResp)

/-- The check accepts the values of a claim, none of them a reference, if and only if each is that
of a variable and fits its type. -/
def ChecksValues : Prop :=
  ∀ fields : List (String × Json),
    (∀ entry ∈ fields, entry.2.asStr.any (isReference conv) = false) →
      (verifyVariableExistenceAndType (isReference conv) record (.object fields) = .ok () ↔
        ∀ entry ∈ fields, ∃ v, findVariable record entry.1 = some v ∧
          (types v).admits v.nullable entry.2 = true)

variable {conv types record} {brackets : List String → String}
  {braces : List (String × String) → String}

theorem accepts_iff_passes {v : TfVariable} {value : Json}
    (htype : v.type = .string ((types v).text brackets braces))
    (hvalue : value.asStr.any (isReference conv) = false) :
    Accepts conv v value ↔
      Passes (expectedText brackets braces (types v)) v.nullable value := by
  have hnull : variableValueType value = "null" ↔ value = .null := by
    cases value <;> simp [variableValueType]
  unfold Accepts Passes
  rw [htype, moduleVariableType_text, hvalue, hnull]
  simp

theorem findVariable_mem {name : String} {v : TfVariable} (h : findVariable record name = some v) :
    v ∈ record.tfVariables ++ providerVariables record ∧ v.name = name :=
  ⟨List.mem_of_find?_eq_some h, by simpa using List.find?_some h⟩

variable (brackets braces) in
/-- The values are checked as they have to be if and only if each type is recognised. -/
theorem checksValues_iff
    (htypes : ∀ v ∈ record.tfVariables ++ providerVariables record,
      v.type = .string ((types v).text brackets braces)) :
    ChecksValues conv types record ↔
      ∀ name v, findVariable record name = some v → (types v).isRecognised v.nullable = true := by
  unfold ChecksValues
  simp only [verifyVariableExistenceAndType_eq_ok_iff]
  constructor
  · intro h name v hfind
    by_contra hunknown
    rcases exists_not_passes_iff_admits brackets braces (Bool.eq_false_iff.2 hunknown) with
      ⟨value, hempty, hwrong⟩
    have hplain : value.asStr.any (isReference conv) = false := by
      cases value with
      | string s =>
          rw [hempty s rfl]
          rfl
      | _ => rfl
    have hiff := h [(name, value)] (by simpa using hplain)
    simp only [List.mem_singleton, forall_eq, hfind, Option.some.injEq, exists_eq_left'] at hiff
    exact hwrong ((accepts_iff_passes (htypes v (findVariable_mem hfind).1) hplain).symm.trans hiff)
  · intro h fields hplain
    refine forall₂_congr fun entry hentry => exists_congr fun v => and_congr_right fun hfind => ?_
    rw [accepts_iff_passes (htypes v (findVariable_mem hfind).1) (hplain entry hentry)]
    exact passes_iff_admits (h entry.1 v hfind) entry.2

end

/-! ## Declarations -/

/-- The blocks that the root of a module or stack is made of, in this order: those of its providers
and its own.  The hand-written files of a stack are left out. -/
structure RootBlocks where
  providers : List Block
  own : List Block

section

variable (crate : Crate)

/-- The label of a variable block is the name. -/
def isNamed (name : String) (block : Block) : Bool :=
  block.labels.map Hcl.BlockLabel.asStr = [name]

/-- What the root declares under a name. -/
def RootBlocks.declaration (root : RootBlocks) (name : String) :
    Option (Except String TfVariable) :=
  ((TfProviderMgmt.addBlocks (root.providers ++ root.own)).variableBlocks.find?
    (isNamed name)).map (TfVariable.tryFrom crate)

/-- The variables of some blocks, without those of the platform. -/
def readVariables (blocks : List Block) : Except String (List TfVariable) :=
  ((TfProviderMgmt.blocksOf "variable" blocks).mapM (TfVariable.tryFrom crate)).map fun vars =>
    vars.filter (!isEnvironmentVariable ·)

/-- The record has been made of the blocks of which the root is made. -/
structure RootBlocks.Records (root : RootBlocks) (record : ModuleResp) : Prop where
  own : readVariables crate root.own = .ok record.tfVariables
  providers : readVariables crate root.providers = .ok (providerVariables record)

variable {crate}

theorem find?_variableBlocks (blocks : List Block) (name : String) :
    (TfProviderMgmt.addBlocks blocks).variableBlocks.find? (isNamed name) =
      (TfProviderMgmt.blocksOf "variable" blocks).find? (isNamed name) := by
  rw [TfProviderMgmt.addBlocks_eq]
  refine find?_foldl_addFirst (fun x y hlabels => ?_) _
  unfold isNamed
  rw [hlabels]

/-- The first block of a name gives the first variable of the name. -/
theorem find?_of_mapM {blocks : List Block} {vars : List TfVariable}
    (h : blocks.mapM (TfVariable.tryFrom crate) = .ok vars) (name : String) :
    (blocks.find? (isNamed name)).map (TfVariable.tryFrom crate) =
      (vars.find? (·.name = name)).map Except.ok := by
  induction blocks generalizing vars with
  | nil =>
      obtain rfl : [] = vars := Except.ok.inj h
      rfl
  | cons block blocks ih =>
      rw [List.mapM_cons] at h
      rcases bind_eq_ok_iff.1 h with ⟨v, hv, hrest⟩
      rcases bind_eq_ok_iff.1 hrest with ⟨vs, hvs, heq⟩
      obtain rfl : v :: vs = vars := Except.ok.inj heq
      have hname : isNamed name block = decide (v.name = name) := by
        unfold isNamed
        rw [TfVariable.labels_of_tryFrom hv]
        simp
      rw [List.find?_cons, List.find?_cons, hname]
      cases decide (v.name = name) with
      | true => exact congrArg some hv
      | false => exact ih hvs

/-- Leaving out the variables of the platform does not matter to another name. -/
theorem find?_filter_isEnvironmentVariable {vars : List TfVariable} {name : String}
    {v : TfVariable}
    (h : (vars.filter (!isEnvironmentVariable ·)).find? (·.name = name) = some v) :
    vars.find? (·.name = name) = some v := by
  have hname : v.name = name := by simpa using List.find?_some h
  have hplain : isEnvironmentVariable v = false := by
    simpa using (List.mem_filter.1 (List.mem_of_find?_eq_some h)).2
  rw [List.find?_filter] at h
  rw [← h]
  congr 1
  funext w
  by_cases hw : w.name = name
  · have hsame : isEnvironmentVariable w = isEnvironmentVariable v := by
      unfold isEnvironmentVariable
      rw [hw, hname]
    simp [hw, hsame, hplain]
  · simp [hw]

/-- What the root declares under a name that a provider declares is the provider's. -/
theorem RootBlocks.declaration_of_provider {root : RootBlocks} {record : ModuleResp}
    (h : root.Records crate record) {name : String} {w : TfVariable}
    (hw : (providerVariables record).find? (·.name = name) = some w) :
    root.declaration crate name = some (.ok w) := by
  have hread := h.providers
  unfold readVariables at hread
  cases hvars : (TfProviderMgmt.blocksOf "variable" root.providers).mapM
      (TfVariable.tryFrom crate) with
  | error e =>
      rw [hvars] at hread
      cases hread
  | ok vars =>
      rw [hvars] at hread
      have hfilter : vars.filter (!isEnvironmentVariable ·) = providerVariables record :=
        Except.ok.inj hread
      have hfind := find?_of_mapM hvars name
      rw [find?_filter_isEnvironmentVariable (hfilter ▸ hw)] at hfind
      unfold declaration
      rw [find?_variableBlocks]
      unfold TfProviderMgmt.blocksOf at hfind ⊢
      rw [List.filter_append, List.find?_append]
      cases hblock : (root.providers.filter fun b => b.identifier = "variable").find?
          (isNamed name) with
      | none => simp [hblock] at hfind
      | some block =>
          rw [hblock] at hfind
          exact hfind

end

section

variable (conv : Conventions) (crate : Crate) (types : TfVariable → VariableType)
  (root : RootBlocks) (record : ModuleResp)

/-- Where a module and a provider share a name, the declaration that is checked is the one of the
root. -/
def ChecksDeclared : Prop :=
  ∀ name v w, record.tfVariables.find? (·.name = name) = some v →
    (providerVariables record).find? (·.name = name) = some w →
      (findVariable record name).map Except.ok = root.declaration crate name

/-- Values of a claim are accepted exactly when they fit. -/
def ClaimValuesFit : Prop :=
  ChecksValues conv types record ∧ ChecksDeclared crate root record

variable {crate root record}

theorem checksDeclared_iff (h : root.Records crate record) :
    ChecksDeclared crate root record ↔
      ∀ name v w, record.tfVariables.find? (·.name = name) = some v →
        (providerVariables record).find? (·.name = name) = some w → v = w := by
  refine forall₃_congr fun name v w => forall₂_congr fun hv hw => ?_
  have hfind : findVariable record name = some v := by
    unfold findVariable
    rw [List.find?_append, hv]
    rfl
  rw [hfind, RootBlocks.declaration_of_provider h hw]
  simp

/-- The values of claims are accepted exactly when they fit if and only if every type is one that
the check recognises, and no variable of the module differs from one of a provider. -/
theorem claimValuesFit_iff (brackets : List String → String)
    (braces : List (String × String) → String) (h : root.Records crate record)
    (hcomputed : ∀ text, crate.print (.computed text) = text)
    (hquoted : ∀ w : TypeWord, crate.print (.string w.text) = "\"" ++ w.text ++ "\"")
    (htypes : ∀ v ∈ record.tfVariables ++ providerVariables record,
      v.type = .string (crate.print ((types v).expression brackets braces))) :
    ClaimValuesFit conv crate types root record ↔
      (∀ name v, findVariable record name = some v → (types v).isRecognised v.nullable = true) ∧
        ∀ name v w, record.tfVariables.find? (·.name = name) = some v →
          (providerVariables record).find? (·.name = name) = some w → v = w := by
  have hprint : ∀ t : VariableType,
      crate.print (t.expression brackets braces) = t.text brackets braces := by
    intro t
    cases t with
    | quoted w =>
        simp only [VariableType.expression, VariableType.text]
        exact hquoted w
    | _ => exact hcomputed _
  refine and_congr (checksValues_iff brackets braces fun v hv => ?_)
    (checksDeclared_iff h)
  rw [← hprint]
  exact htypes v hv

end

/-! ## A tuple, and a name that is shared -/

def printItems (items : List String) : String :=
  "[" ++ ", ".intercalate items ++ "]"

def printAttributes (attributes : List (String × String)) : String :=
  "\x7b" ++ ", ".intercalate (attributes.map fun a => a.1 ++ " = " ++ a.2) ++ "\x7d"

def variableBlock (name type : String) : Block where
  identifier := "variable"
  labels := [.string name]
  attributes := [⟨"type", .computed type⟩]
  blocks := []

theorem claimValuesFit_bucket : ClaimValuesFit asciiConventions wordCrate
    (fun _ => .word .string) ⟨[], [variableBlock "bucket_name" "string"]⟩ bucketRecord := by
  have hrecords : RootBlocks.Records wordCrate ⟨[], [variableBlock "bucket_name" "string"]⟩
      bucketRecord := ⟨rfl, rfl⟩
  refine (claimValuesFit_iff asciiConventions (fun _ => .word .string) printItems printAttributes
    hrecords (fun _ => rfl) (fun _ => rfl) fun v hv => ?_).2
    ⟨fun _ _ _ => rfl, fun name v w _ hw => ?_⟩
  · obtain rfl := List.mem_singleton.1 hv
    simp only [VariableType.expression, VariableType.text]
    rfl
  · cases hw

/-- `variable "subnets" { type = tuple([string, string]) }`. -/
def subnetsVariable : TfVariable :=
  { bucketName with name := "subnets", type := .string "tuple([string, string])" }

def subnetsType : VariableType :=
  .tuple [.word .string, .word .string]

/-- A list of two texts is rejected though it fits, and of two declarations of one name the root
has the other one. -/
theorem not_claimValuesFit_subnets :
    ¬ ClaimValuesFit asciiConventions wordCrate (fun _ => subnetsType)
      ⟨[], [variableBlock "subnets" "tuple([string, string])"]⟩
      { bucketRecord with tfVariables := [subnetsVariable] } ∧
    ¬ ClaimValuesFit asciiConventions wordCrate (fun _ => .word .string)
      ⟨[variableBlock "bucket_name" "number"], [variableBlock "bucket_name" "string"]⟩
      { bucketRecord with tfProviders := [{ regionalProvider with
          tfVariables := [{ bucketName with type := .string "number" }] }] } := by
  constructor
  · intro h
    have haccepted := (h.1 [("subnets", .array [.string "a", .string "b"])]
      (fun entry hentry => by
        obtain rfl := List.mem_singleton.1 hentry
        rfl)).2 fun entry hentry => by
          obtain rfl := List.mem_singleton.1 hentry
          exact ⟨subnetsVariable, by decide, rfl⟩
    revert haccepted
    decide
  · intro h
    have hdeclared := h.2 "bucket_name" bucketName { bucketName with type := .string "number" }
      (by decide) (by decide)
    revert hdeclared
    decide

end EnvCommon
end InfraWeave
