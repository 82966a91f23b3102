import InfraWeave.Defs.TfBlocks

/-!
# Blocks that come back from their records

What a block declares is compared with what the block declares that is written from its record.
-/

namespace InfraWeave

open Hcl (Block Crate Expression)

/-! ## What a block declares -/

/-- How Terraform evaluates what is computed, and reads an attribute that is a flag. -/
structure Evaluation where
  computed : String → Json
  key : String → String
  flag : Expression → Bool
  flag_bool : ∀ b, flag (.bool b) = b

namespace Evaluation

variable (t : Evaluation)

def value (e : Expression) : Json :=
  e.value t.computed t.key

def flagOf (block : Block) (key : String) (default : Bool) : Bool :=
  ((block.expr? key).map t.flag).getD default

/-- The blocks declare one variable.  A variable without a type has any type. -/
structure SameVariable (b b' : Block) : Prop where
  name : b'.labels.map Hcl.BlockLabel.asStr = b.labels.map Hcl.BlockLabel.asStr
  type : (b'.expr? "type").getD (.computed "any") = (b.expr? "type").getD (.computed "any")
  default : (b'.expr? "default").map t.value = (b.expr? "default").map t.value
  nullable : t.flagOf b' "nullable" true = t.flagOf b "nullable" true
  sensitive : t.flagOf b' "sensitive" false = t.flagOf b "sensitive" false

structure SameOutput (b b' : Block) : Prop where
  name : b'.labels.map Hcl.BlockLabel.asStr = b.labels.map Hcl.BlockLabel.asStr
  value : b'.expr? "value" = b.expr? "value"
  sensitive : t.flagOf b' "sensitive" false = t.flagOf b "sensitive" false

end Evaluation

/-- The block is one of a parsed text: no attribute is given twice. -/
structure Hcl.Crate.Parsed (crate : Crate) (block : Block) : Prop where
  keys : (block.attributes.map Hcl.Attribute.key).Nodup
  exprs : ∀ a ∈ block.attributes, ∃ s, crate.parse s = some a.expr

theorem Hcl.Crate.Parsed.parse_print {crate : Crate} {block : Block} (h : crate.Parsed block)
    {key : String} {e : Expression} (he : block.expr? key = some e) :
    crate.parse (crate.print e) = some e := by
  rcases Option.map_eq_some_iff.1 he with ⟨a, ha, rfl⟩
  rcases h.exprs a (List.mem_of_find?_eq_some ha) with ⟨s, hs⟩
  exact crate.parse_print s a.expr hs

/-- The value of what the conversion has made a JSON value. -/
theorem Hcl.Crate.value_toExpression (crate : Crate) (computed : String → Json)
    (key : String → String) (e : Expression) :
    (crate.toExpression (crate.toJson e)).value computed key = crate.toJson e :=
  Expression.value_ofJson_value (fun _ => ⟨_, rfl⟩) (crate.name_objectKey key) e

section

variable {crate : Crate}

/-! ## Variables -/

namespace TfVariable

/-- What one attribute does to each field of a record. -/
structure ReadStep (crate : Crate) (v v' : TfVariable) (a : Hcl.Attribute) : Prop where
  name : v'.name = v.name
  type : v'.type = if a.key = "type" then .string (crate.print a.expr) else v.type
  default : v'.default = if a.key = "default" then some (crate.toJson a.expr) else v.default
  nullable : ∀ t : Evaluation,
    v'.nullable = if a.key = "nullable" then t.flag a.expr else v.nullable
  sensitive : ∀ t : Evaluation,
    v'.sensitive = if a.key = "sensitive" then t.flag a.expr else v.sensitive

theorem readStep_of_readAttribute {v v' : TfVariable} {a : Hcl.Attribute}
    (h : readAttribute crate v a = .ok v') : ReadStep crate v v' a := by
  unfold readAttribute at h
  split at h
  · rename_i hkey
    obtain rfl := Except.ok.inj h
    constructor <;> simp [hkey]
  · split at h
    · rename_i hkey
      obtain rfl := Except.ok.inj h
      constructor <;> simp [hkey]
    · split at h
      · rename_i hkey
        obtain rfl := Except.ok.inj h
        constructor <;> simp [hkey]
      · split at h
        · rename_i hkey
          split at h
          · rename_i b hexpr
            obtain rfl := Except.ok.inj h
            constructor <;> simp [hkey, hexpr, Evaluation.flag_bool]
          · cases h
        · split at h
          · rename_i hkey
            split at h
            · rename_i b hexpr
              obtain rfl := Except.ok.inj h
              constructor <;> simp [hkey, hexpr, Evaluation.flag_bool]
            · cases h
          · rename_i htype hdefault hdescription hnullable hsensitive
            obtain rfl := Except.ok.inj h
            constructor <;> simp [htype, hdefault, hnullable, hsensitive]

/-- A field that one attribute sets, after all attributes have been read. -/
theorem field_of_readAttributes {α : Type} (field : TfVariable → α) (key : String)
    (g : Expression → α)
    (hstep : ∀ v v' a, ReadStep crate v v' a → field v' = if a.key = key then g a.expr else field v)
    {attributes : List Hcl.Attribute} (hkeys : (attributes.map Hcl.Attribute.key).Nodup)
    {v v' : TfVariable} (h : attributes.foldlM (readAttribute crate) v = .ok v') :
    field v' =
      (((attributes.find? fun a => a.key = key).map Hcl.Attribute.expr).map g).getD (field v) := by
  induction attributes generalizing v with
  | nil =>
      obtain rfl : v = v' := Except.ok.inj h
      rfl
  | cons a attributes ih =>
      rcases foldlM_cons_eq_ok_iff.1 h with ⟨w, hw, hrest⟩
      have hnodup := List.nodup_cons.1 hkeys
      have hfield := hstep v w a (readStep_of_readAttribute hw)
      rw [ih hnodup.2 hrest]
      by_cases ha : a.key = key
      · have hnone : attributes.find? (fun a => a.key = key) = none := by
          refine List.find?_eq_none.2 fun b hb hbkey => hnodup.1 ?_
          have hsame : b.key = a.key := (of_decide_eq_true hbkey).trans ha.symm
          exact hsame ▸ List.mem_map_of_mem hb
        simp [hnone, ha, hfield]
      · simp [ha, hfield]

/-- What the record of an accepted block holds. -/
structure ReadFrom (crate : Crate) (block : Block) (v : TfVariable) : Prop where
  labels : block.labels.map Hcl.BlockLabel.asStr = [v.name]
  type : v.type = .string ((block.expr? "type").elim "any" crate.print)
  default : v.default = (block.expr? "default").map crate.toJson
  nullable : ∀ t : Evaluation, v.nullable = t.flagOf block "nullable" true
  sensitive : ∀ t : Evaluation, v.sensitive = t.flagOf block "sensitive" false

/-- The label of an accepted block is the name of its record. -/
theorem labels_of_tryFrom {block : Block} {v : TfVariable} (h : tryFrom crate block = .ok v) :
    block.labels.map Hcl.BlockLabel.asStr = [v.name] := by
  unfold tryFrom at h
  split at h
  · cases h
  · split at h
    · rename_i label hlabels
      have hname : v.name = label.asStr :=
        foldlM_invariant (P := fun w => w.name = label.asStr) h
          (fun w a _ w' hw hread => (readStep_of_readAttribute hread).name.trans hw) rfl
      simp [hlabels, hname]
    · cases h

theorem readFrom_of_tryFrom {block : Block} (hparsed : crate.Parsed block) {v : TfVariable}
    (h : tryFrom crate block = .ok v) : ReadFrom crate block v := by
  have hlabels := labels_of_tryFrom h
  unfold tryFrom at h
  split at h
  · cases h
  · split at h
    · rename_i label _
      have htype : v.type =
          ((block.expr? "type").map fun e => Json.string (crate.print e)).getD (.string "any") :=
        field_of_readAttributes TfVariable.type "type" (fun e => .string (crate.print e))
          (fun _ _ _ hstep => hstep.type) hparsed.keys h
      have hdefault : v.default =
          ((block.expr? "default").map fun e => some (crate.toJson e)).getD none :=
        field_of_readAttributes TfVariable.default "default" (fun e => some (crate.toJson e))
          (fun _ _ _ hstep => hstep.default) hparsed.keys h
      refine ⟨hlabels, ?_, ?_, fun t => ?_, fun t => ?_⟩
      · rw [htype]
        cases block.expr? "type" with
        | none => rfl
        | some e => rfl
      · rw [hdefault]
        cases block.expr? "default" with
        | none => rfl
        | some e => rfl
      · exact field_of_readAttributes TfVariable.nullable "nullable" t.flag
          (fun _ _ _ hstep => hstep.nullable t) hparsed.keys h
      · exact field_of_readAttributes TfVariable.sensitive "sensitive" t.flag
          (fun _ _ _ hstep => hstep.sensitive t) hparsed.keys h
    · cases h

/-! ### The block of a record -/

/-- The expression that the type of a block stands for. -/
def declaredType (block : Block) : Expression :=
  (block.expr? "type").getD (.computed "any")

/-- The block that is written for a record, once the text of its type has been parsed. -/
def blockWith (crate : Crate) (type : Expression) (v : TfVariable) : Block where
  identifier := "variable"
  labels := [.string v.name]
  attributes :=
    [⟨"type", type⟩, ⟨"description", .string v.description⟩] ++
      (v.default.map fun value => ⟨"default", crate.toExpression value⟩).toList ++
      [⟨"nullable", .bool v.nullable⟩, ⟨"sensitive", .bool v.sensitive⟩]
  blocks := []

section

variable (type : Expression) (v : TfVariable)

@[simp] theorem blockWith_type : (blockWith crate type v).expr? "type" = some type := rfl

@[simp] theorem blockWith_default :
    (blockWith crate type v).expr? "default" = v.default.map crate.toExpression := by
  unfold blockWith Block.expr?
  cases v.default with
  | none => rfl
  | some value => rfl

@[simp] theorem blockWith_nullable :
    (blockWith crate type v).expr? "nullable" = some (.bool v.nullable) := by
  unfold blockWith Block.expr?
  cases v.default with
  | none => rfl
  | some value => rfl

@[simp] theorem blockWith_sensitive :
    (blockWith crate type v).expr? "sensitive" = some (.bool v.sensitive) := by
  unfold blockWith Block.expr?
  cases v.default with
  | none => rfl
  | some value => rfl

/-- Reading a written block gives the type as it is printed and the default as it is converted. -/
theorem tryFrom_blockWith :
    tryFrom crate (blockWith crate type v) =
      .ok { v with
        type := .string (crate.print type)
        default := v.default.map fun value => crate.toJson (crate.toExpression value) } := by
  rcases v with ⟨name, type', default, description, nullable, sensitive⟩
  cases default with
  | none => rfl
  | some value => rfl

end

/-- The text of a type that has been read is parsed as the type again. -/
theorem toBlock_of_readFrom {block : Block} (hparsed : crate.Parsed block) {v : TfVariable}
    (h : ReadFrom crate block v) :
    v.toBlock crate = some (blockWith crate (declaredType block) v) := by
  have hparse : crate.parse (v.typeText crate) = some (declaredType block) := by
    unfold typeText declaredType
    rw [h.type]
    cases htype : block.expr? "type" with
    | none => exact crate.parse_any
    | some e => exact hparsed.parse_print htype
  unfold toBlock toAttributes
  rw [hparse]
  rfl

theorem tryFrom_blockWith_of_readFrom {block : Block} {v : TfVariable}
    (h : ReadFrom crate block v) :
    tryFrom crate (blockWith crate (declaredType block) v) = .ok v := by
  have htype : Json.string (crate.print (declaredType block)) = v.type := by
    unfold declaredType
    rw [h.type]
    cases block.expr? "type" with
    | none => exact congrArg Json.string crate.print_any
    | some e => rfl
  have hdefault : v.default.map (fun value => crate.toJson (crate.toExpression value)) =
      v.default := by
    rw [h.default, Option.map_map]
    exact Option.map_congr fun e _ => crate.value_toExpression _ _ e
  rw [tryFrom_blockWith, htype, hdefault]

/-- The written block declares the same if and only if the conversion keeps the default. -/
theorem sameVariable_blockWith_iff (t : Evaluation) {block : Block} {v : TfVariable}
    (h : ReadFrom crate block v) :
    t.SameVariable block (blockWith crate (declaredType block) v) ↔
      ∀ e, block.expr? "default" = some e → crate.toJson e = t.value e := by
  have hdefault : ((blockWith crate (declaredType block) v).expr? "default").map t.value =
      (block.expr? "default").map crate.toJson := by
    rw [blockWith_default, h.default, Option.map_map, Option.map_map]
    exact Option.map_congr fun e _ => crate.value_toExpression t.computed t.key e
  constructor
  · intro hsame e he
    have heq := hdefault.symm.trans hsame.default
    rw [he] at heq
    exact Option.some.inj heq
  · intro hkeeps
    refine ⟨h.labels.symm, rfl, ?_, ?_, ?_⟩
    · rw [hdefault]
      exact Option.map_congr fun e he => hkeeps e he
    · rw [← h.nullable t]
      simp [Evaluation.flagOf, t.flag_bool]
    · rw [← h.sensitive t]
      simp [Evaluation.flagOf, t.flag_bool]

end TfVariable

/-! ## Outputs -/

namespace TfOutput

/-- What the record of an accepted block holds. -/
structure ReadFrom (crate : Crate) (block : Block) (o : TfOutput) : Prop where
  labels : block.labels.map Hcl.BlockLabel.asStr = [o.name]
  value : o.value = (block.expr? "value").elim "" crate.print
  sensitive : o.sensitive = (block.expr? "sensitive").bind Expression.asBool

theorem readFrom_of_fromBlock {block : Block} {o : TfOutput}
    (h : fromBlock crate block = some (.ok o)) : ReadFrom crate block o := by
  unfold fromBlock at h
  split at h
  · cases h
  · split at h
    · cases h
    · rename_i hlength
      cases hlabels : block.labels with
      | nil => simp [hlabels] at h
      | cons label labels =>
          have hnil : labels = [] := by
            rw [hlabels, List.length_cons] at hlength
            exact List.length_eq_zero_iff.1 (by omega)
          rw [hlabels] at h
          rcases Option.map_eq_some_iff.1 h with ⟨description, -, hrecord⟩
          obtain rfl := Except.ok.inj hrecord
          exact ⟨by simp [hlabels, hnil], rfl, rfl⟩

/-- The block that is written for a record, once its value has been parsed. -/
def blockWith (value : Expression) (o : TfOutput) : Block where
  identifier := "output"
  labels := [.string o.name]
  attributes :=
    [⟨"description", .string o.description⟩, ⟨"value", value⟩] ++
      (o.sensitive.map fun b => ⟨"sensitive", .bool b⟩).toList
  blocks := []

theorem blockWith_sensitive (value : Expression) (o : TfOutput) :
    (blockWith value o).expr? "sensitive" = o.sensitive.map Expression.bool := by
  unfold blockWith Block.expr?
  cases o.sensitive with
  | none => rfl
  | some b => rfl

theorem fromBlock_blockWith (value : Expression) (o : TfOutput) :
    fromBlock crate (blockWith value o) = some (.ok { o with value := crate.print value }) := by
  rcases o with ⟨name, value', description, sensitive⟩
  cases sensitive with
  | none => rfl
  | some b => rfl

/-- A block without a value is read, but no block can be written for it. -/
theorem toBlock_of_readFrom {block : Block} (hparsed : crate.Parsed block) {o : TfOutput}
    (h : ReadFrom crate block o) :
    o.toBlock crate = (block.expr? "value").map fun value => blockWith value o := by
  unfold toBlock toAttributes
  rw [h.value]
  cases hvalue : block.expr? "value" with
  | none =>
      rw [Option.elim_none, crate.parse_empty]
      rfl
  | some e =>
      rw [Option.elim_some, hparsed.parse_print hvalue]
      rfl

/-- The sensitivity is kept if and only if a flag that is no literal means that there is none. -/
theorem flagOf_blockWith_iff (t : Evaluation) {block : Block} {o : TfOutput}
    (h : ReadFrom crate block o) (value : Expression) :
    t.flagOf (blockWith value o) "sensitive" false = t.flagOf block "sensitive" false ↔
      ∀ e, block.expr? "sensitive" = some e → e.asBool = none → t.flag e = false := by
  unfold Evaluation.flagOf
  rw [blockWith_sensitive, h.sensitive]
  cases block.expr? "sensitive" with
  | none => simp
  | some e =>
      cases hflag : e.asBool with
      | none =>
          rw [Option.bind_some, hflag]
          constructor
          · intro hsame e' he' _
            obtain rfl := Option.some.inj he'
            exact hsame.symm
          · exact fun hkeeps => (hkeeps e rfl hflag).symm
      | some b =>
          have hbool : e = .bool b := Expression.asBool_eq_some_iff.1 hflag
          rw [Option.bind_some, hflag, hbool]
          refine iff_of_true rfl fun e' he' hnone => ?_
          obtain rfl := Option.some.inj he'
          cases hnone

end TfOutput

/-! ## The round trip -/

section

variable (crate : Crate) (t : Evaluation) (block : Block)

/-- The block that is written declares the same, and it is read as the same record; so too when the
record has been stored as JSON in between. -/
def VariableSurvives (v : TfVariable) : Prop :=
  (TfVariable.ofJson v.toJson).isSome = true ∧
    ∀ v', v' = v ∨ TfVariable.ofJson v.toJson = some v' → ∃ block',
      v'.toBlock crate = some block' ∧ t.SameVariable block block' ∧
        TfVariable.tryFrom crate block' = .ok v

def OutputSurvives (o : TfOutput) : Prop :=
  (TfOutput.ofJson o.toJson).isSome = true ∧
    ∀ o', o' = o ∨ TfOutput.ofJson o.toJson = some o' → ∃ block',
      o'.toBlock crate = some block' ∧ t.SameOutput block block' ∧
        TfOutput.fromBlock crate block' = some (.ok o)

/-- The block survives its record, if it is accepted as a variable or as an output. -/
def BlockSurvives : Prop :=
  (∀ v, TfVariable.tryFrom crate block = .ok v → VariableSurvives crate t block v) ∧
    ∀ o, TfOutput.fromBlock crate block = some (.ok o) → OutputSurvives crate t block o

/-- The default, if there is one, has the value that its conversion gives. -/
def KeepsDefault : Prop :=
  ∀ e, block.expr? "default" = some e → crate.toJson e = t.value e

/-- A sensitivity that is no literal means that there is none. -/
def KeepsSensitivity : Prop :=
  ∀ e, block.expr? "sensitive" = some e → e.asBool = none → t.flag e = false

end

variable {t : Evaluation} {block : Block}

/-- A default in which nothing is computed keeps its value. -/
theorem keepsDefault_of_isLiteral
    (h : ∀ e, block.expr? "default" = some e → e.isLiteral = true) : KeepsDefault crate t block :=
  fun e he => Expression.value_eq_of_isLiteral e (h e he)

theorem variableSurvives_iff (hparsed : crate.Parsed block) {v : TfVariable}
    (h : TfVariable.tryFrom crate block = .ok v) :
    VariableSurvives crate t block v ↔ KeepsDefault crate t block := by
  have hread := TfVariable.readFrom_of_tryFrom hparsed h
  have hblock := TfVariable.toBlock_of_readFrom hparsed hread
  unfold VariableSurvives
  rw [TfVariable.ofJson_toJson]
  constructor
  · intro hsurvives
    rcases hsurvives.2 v (Or.inl rfl) with ⟨block', hblock', hsame, -⟩
    obtain rfl := Option.some.inj (hblock.symm.trans hblock')
    exact (TfVariable.sameVariable_blockWith_iff t hread).1 hsame
  · intro hkeeps
    refine ⟨rfl, fun v' hv' => ?_⟩
    have hcopy : v' = v := by
      rcases hv' with hv' | hv'
      · exact hv'
      · exact (Option.some.inj hv').symm
    rw [hcopy]
    exact ⟨_, hblock, (TfVariable.sameVariable_blockWith_iff t hread).2 hkeeps,
      TfVariable.tryFrom_blockWith_of_readFrom hread⟩

theorem outputSurvives_iff (hparsed : crate.Parsed block) {o : TfOutput}
    (h : TfOutput.fromBlock crate block = some (.ok o)) :
    OutputSurvives crate t block o ↔
      (block.expr? "value").isSome = true ∧ KeepsSensitivity t block := by
  have hread := TfOutput.readFrom_of_fromBlock h
  have hblock := TfOutput.toBlock_of_readFrom hparsed hread
  unfold OutputSurvives
  rw [TfOutput.ofJson_toJson]
  constructor
  · intro hsurvives
    rcases hsurvives.2 o (Or.inl rfl) with ⟨block', hblock', hsame, -⟩
    rw [hblock] at hblock'
    rcases Option.map_eq_some_iff.1 hblock' with ⟨value, hvalue, rfl⟩
    exact ⟨by rw [hvalue]; rfl, (TfOutput.flagOf_blockWith_iff t hread value).1 hsame.sensitive⟩
  · intro hcondition
    rcases Option.isSome_iff_exists.1 hcondition.1 with ⟨value, hvalue⟩
    refine ⟨rfl, fun o' ho' => ?_⟩
    have hcopy : o' = o := by
      rcases ho' with ho' | ho'
      · exact ho'
      · exact (Option.some.inj ho').symm
    have hprint : o.value = crate.print value := by
      rw [hread.value, hvalue]
      rfl
    rw [hcopy, hblock, hvalue]
    refine ⟨_, rfl, ⟨hread.labels.symm, hvalue.symm, ?_⟩, ?_⟩
    · exact (TfOutput.flagOf_blockWith_iff t hread value).2 hcondition.2
    · rw [TfOutput.fromBlock_blockWith, ← hprint]

end

/-- A block survives its record if and only if, as a variable, its default keeps its value and, as
an output, it has a value and a sensitivity that is a literal. -/
theorem blockSurvives_iff (crate : Crate) (t : Evaluation) {block : Block}
    (hparsed : crate.Parsed block) :
    BlockSurvives crate t block ↔
      (∀ v, TfVariable.tryFrom crate block = .ok v → KeepsDefault crate t block) ∧
        ∀ o, TfOutput.fromBlock crate block = some (.ok o) →
          (block.expr? "value").isSome = true ∧ KeepsSensitivity t block :=
  and_congr (forall₂_congr fun _ hv => variableSurvives_iff hparsed hv)
    (forall₂_congr fun _ ho => outputSurvives_iff hparsed ho)

/-! ## An output without a value, and a sum -/

/-- A crate that knows the literals of one word; any other text is computed. -/
def wordCrate : Crate where
  print
    | .null => "null"
    | .bool true => "true"
    | .bool false => "false"
    | .number (.int n) => toString n
    | .string s => "\"" ++ s ++ "\""
    | .computed text => text
    | _ => "..."
  parse text :=
    if text = "" then none
    else if text = "null" then some .null
    else if text = "true" then some (.bool true)
    else if text = "false" then some (.bool false)
    else some (.computed text)
  parse_print s e h := by
    split at h
    · cases h
    · split at h
      · obtain rfl := Option.some.inj h
        rfl
      · split at h
        · obtain rfl := Option.some.inj h
          rfl
        · split at h
          · obtain rfl := Option.some.inj h
            rfl
          · rename_i hempty hnull htrue hfalse
            obtain rfl := Option.some.inj h
            simp [hempty, hnull, htrue, hfalse]
  parse_empty := rfl
  parse_any := rfl
  print_any := rfl
  computedText text := "$\x7b" ++ text ++ "\x7d"
  keyText text := text
  objectKey := .identifier
  objectKey_plain _ := Or.inl rfl
  debugLabels _ := ""
  floatText _ := ""

/-- An evaluation that knows one sum. -/
def sumEvaluation : Evaluation where
  computed text := if text = "1 + 1" then .number (.int 2) else .string text
  key text := text
  flag e := e.asBool.getD false
  flag_bool _ := rfl

/-- `variable "enabled" { type = bool, default = true, nullable = false }`. -/
def enabledBlock : Block where
  identifier := "variable"
  labels := [.string "enabled"]
  attributes := [⟨"type", .computed "bool"⟩, ⟨"default", .bool true⟩, ⟨"nullable", .bool false⟩]
  blocks := []

theorem blockSurvives_enabled : BlockSurvives wordCrate sumEvaluation enabledBlock := by
  have hparsed : wordCrate.Parsed enabledBlock := by
    refine ⟨by decide, fun a ha => ?_⟩
    simp only [enabledBlock, List.mem_cons, List.not_mem_nil, or_false] at ha
    rcases ha with rfl | rfl | rfl
    · exact ⟨"bool", rfl⟩
    · exact ⟨"true", rfl⟩
    · exact ⟨"false", rfl⟩
  refine (blockSurvives_iff wordCrate sumEvaluation hparsed).2 ⟨fun _ _ => ?_, fun o ho => ?_⟩
  · refine keepsDefault_of_isLiteral fun e he => ?_
    obtain rfl := Option.some.inj he
    rfl
  · cases ho

/-- `output "arn" { description = "" }`. -/
def arnBlock : Block where
  identifier := "output"
  labels := [.string "arn"]
  attributes := [⟨"description", .string ""⟩]
  blocks := []

/-- `variable "replicas" { default = 1 + 1 }`. -/
def replicasBlock : Block where
  identifier := "variable"
  labels := [.string "replicas"]
  attributes := [⟨"default", .computed "1 + 1"⟩]
  blocks := []

/-- The process ends when the first block is written, and the second is written with a text. -/
theorem not_blockSurvives_arn : ¬ BlockSurvives wordCrate sumEvaluation arnBlock ∧
    ¬ BlockSurvives wordCrate sumEvaluation replicasBlock := by
  constructor
  · intro h
    rcases (h.2 ⟨"arn", "", "", none⟩ rfl).2 _ (Or.inl rfl) with ⟨block', hblock', -, -⟩
    cases hblock'
  · intro h
    let v : TfVariable :=
      ⟨"replicas", .string "any", some (.string "$\x7b1 + 1\x7d"), "", true, false⟩
    rcases (h.1 v rfl).2 v (Or.inl rfl) with ⟨block', hblock', hsame, -⟩
    obtain rfl := Option.some.inj hblock'
    have hdefault := hsame.default
    cases hdefault

end InfraWeave
