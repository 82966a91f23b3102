import InfraWeave.EnvCommon.References
import InfraWeave.EnvCommon.VersionGuards
import Mathlib.Data.List.TakeDrop

/-!
# Values of a stack as expressions

`TfInputResolver` turns the YAML values of a claim into HCL expressions.  A text is searched for
references, and each of them is replaced by the interpolation of the variable or output that it
names; a text that is nothing but a reference becomes a traversal.  The source replaces the matches
of the text that it was given in a copy that grows, one after the other.
-/

namespace InfraWeave
namespace EnvCommon

open Text

variable (conv : Conventions)

/-! ## Spellings of references -/

/-- What the two regular expressions for references have in common. -/
structure Braces.Spelled (b : Braces) : Prop where
  before : ∀ c ∈ b.before, isWhitespace c = true
  kind : b.kind ≠ [] ∧ ∀ c ∈ b.kind, conv.isWord c = true
  colons : b.colons ≠ [] ∧ ∀ c ∈ b.colons, (c == ':') = true
  claim : b.claim ≠ [] ∧ ∀ c ∈ b.claim, conv.isWord c = true
  colons' : b.colons' ≠ [] ∧ ∀ c ∈ b.colons', (c == ':') = true
  field : b.field ≠ [] ∧ ∀ c ∈ b.field, conv.isWord c = true
  after : ∀ c ∈ b.after, isWhitespace c = true

section

variable {p q : Char → Bool} {xs ys : List Char}

/-- The longest part with a property ends where the next part has another one. -/
theorem span_append (hxs : ∀ c ∈ xs, p c = true) (hys : ys ≠ []) (hq : ∀ c ∈ ys, q c = true)
    (hpq : ∀ c, q c = true → p c = false) (rest : List Char) :
    (xs ++ (ys ++ rest)).span p = (xs, ys ++ rest) := by
  obtain ⟨y, ys, rfl⟩ := List.exists_cons_of_ne_nil hys
  have hy : p y = false := hpq y (hq y List.mem_cons_self)
  rw [List.span_eq_takeWhile_dropWhile, List.takeWhile_append_of_pos hxs,
    List.dropWhile_append_of_pos hxs]
  simp [hy]

theorem span_cases (p : Char → Bool) (cs : List Char) :
    cs = (cs.span p).1 ++ (cs.span p).2 ∧ ∀ c ∈ (cs.span p).1, p c = true := by
  rw [List.span_eq_takeWhile_dropWhile]
  exact ⟨List.takeWhile_append_dropWhile.symm, fun c hc => List.mem_takeWhile_imp hc⟩

end

namespace Conventions

variable {conv}

theorem not_whitespace_of_word {c : Char} (h : conv.isWord c = true) : isWhitespace c = false :=
  (conv.isWord_plain c h).1

theorem not_colon_of_word {c : Char} (h : conv.isWord c = true) : (c == ':') = false := by
  have hplain := (conv.isWord_plain c h).2.2
  simpa using fun heq : c = ':' => hplain (by simp [heq])

theorem not_brace_of_word {c : Char} (h : conv.isWord c = true) : c ≠ '{' := by
  rintro rfl
  exact (conv.isWord_plain _ h).2.2 (by simp)

theorem not_dollar_of_word {c : Char} (h : conv.isWord c = true) : c ≠ '$' := by
  rintro rfl
  exact (conv.isWord_plain _ h).2.2 (by simp)

theorem not_word_of_colon {c : Char} (h : (c == ':') = true) : conv.isWord c = false := by
  cases hword : conv.isWord c with
  | false => rfl
  | true =>
      rw [not_colon_of_word hword] at h
      cases h

theorem not_word_of_closing {c : Char} (h : (isWhitespace c || c == '\x7d') = true) :
    conv.isWord c = false := by
  cases hword : conv.isWord c with
  | false => rfl
  | true =>
      have hplain := conv.isWord_plain c hword
      rcases Bool.or_eq_true _ _ ▸ h with hspace | hbrace
      · rw [hplain.1] at hspace
        cases hspace
      · exact absurd (by simp [beq_iff_eq.1 hbrace]) hplain.2.2

end Conventions

variable {conv}

/-- A reference is read from its own text, whatever comes after it. -/
theorem Braces.Spelled.read {b : Braces} (h : b.Spelled conv) (rest : List Char) :
    readBraces conv (b.chars ++ rest) = some b := by
  have hbefore := span_append h.before h.kind.1 h.kind.2
    (fun c hc => conv.not_whitespace_of_word hc)
  have hkind := span_append h.kind.2 h.colons.1 h.colons.2 (fun c hc => conv.not_word_of_colon hc)
  have hcolons := span_append h.colons.2 h.claim.1 h.claim.2
    (fun c hc => conv.not_colon_of_word hc)
  have hclaim := span_append h.claim.2 h.colons'.1 h.colons'.2
    (fun c hc => conv.not_word_of_colon hc)
  have hcolons' := span_append h.colons'.2 h.field.1 h.field.2
    (fun c hc => conv.not_colon_of_word hc)
  have hclosing : ∀ c ∈ b.after ++ ['\x7d', '\x7d'], (isWhitespace c || c == '\x7d') = true := by
    intro c hc
    rcases List.mem_append.1 hc with hc | hc
    · simp [h.after c hc]
    · have hbrace : c = '\x7d' := by simpa using hc
      simp [hbrace]
  have hbraces : ∀ c ∈ ['\x7d', '\x7d'], (c == '\x7d') = true := by simp
  have hfield := span_append h.field.2 (by simp) hclosing
    (fun c hc => conv.not_word_of_closing hc)
  have hafter := span_append h.after (by simp) hbraces (fun c hc => by
      rw [beq_iff_eq.1 hc]
      rfl)
  unfold Braces.chars readBraces
  simp only [List.cons_append, List.append_assoc] at *
  simp only [hbefore, hkind, hcolons, hclaim, hcolons']
  simp only [List.nil_append] at hfield hafter
  simp only [hfield, hafter]
  simp [h.kind.1, h.colons.1, h.claim.1, h.colons'.1, h.field.1]

theorem readBraces_cases {cs : List Char} {b : Braces} (h : readBraces conv cs = some b) :
    b.Spelled conv ∧ b.chars <+: cs := by
  unfold readBraces at h
  split at h
  · rename_i cs
    dsimp only at h
    split at h
    · rename_i hparts
      obtain ⟨⟨rest, hclosing⟩, hkind, hcolons, hclaim, hcolons', hfield⟩ := hparts
      obtain rfl := Option.some.inj h
      have hsplit := span_cases isWhitespace cs
      generalize cs.span isWhitespace = before at *
      have hsplit₁ := span_cases conv.isWord before.2
      generalize before.2.span conv.isWord = kind at *
      have hsplit₂ := span_cases (· == ':') kind.2
      generalize kind.2.span (· == ':') = colons at *
      have hsplit₃ := span_cases conv.isWord colons.2
      generalize colons.2.span conv.isWord = claim at *
      have hsplit₄ := span_cases (· == ':') claim.2
      generalize claim.2.span (· == ':') = colons' at *
      have hsplit₅ := span_cases conv.isWord colons'.2
      generalize colons'.2.span conv.isWord = field at *
      have hsplit₆ := span_cases isWhitespace field.2
      generalize field.2.span isWhitespace = after at *
      refine ⟨⟨hsplit.2, ⟨hkind, hsplit₁.2⟩, ⟨hcolons, hsplit₂.2⟩, ⟨hclaim, hsplit₃.2⟩,
        ⟨hcolons', hsplit₄.2⟩, ⟨hfield, hsplit₅.2⟩, hsplit₆.2⟩, rest, ?_⟩
      rw [hsplit.1, hsplit₁.1, hsplit₂.1, hsplit₃.1, hsplit₄.1, hsplit₅.1, hsplit₆.1, ← hclosing]
      simp [Braces.chars]
    · cases h
  · cases h

variable (conv)

/-- The texts in double braces. -/
def bracesLexer : Lexer Braces where
  read := readBraces conv
  text := Braces.chars
  text_prefix h := (readBraces_cases h).2
  read_of_prefix h hprefix := by
    obtain ⟨rest, rfl⟩ := hprefix
    exact (readBraces_cases h).1.read rest
  text_ne_nil _ := by simp [Braces.chars]

/-- The regular expression of the resolver allows one space at either end. -/
def referenceLexer : Lexer Braces :=
  (bracesLexer conv).filter fun b => b.before.length ≤ 1 && b.after.length ≤ 1

/-- `captures_iter`. -/
def capturesIter (input : String) : List Braces :=
  (referenceLexer conv).tokens input.toList

/-! ## Expressions -/

inductive TemplateExpr where
  | quotedString (template : String)
  | heredoc (delimiter template : String)
  deriving DecidableEq

def TemplateExpr.template : TemplateExpr → String
  | quotedString template => template
  | heredoc _ template => template

/-- A variable of HCL and the attributes below it. -/
structure Traversal where
  root : String
  attrs : List String
  deriving DecidableEq

def Traversal.interpolation (t : Traversal) : String :=
  "$\x7b" ++ t.root ++ "." ++ ".".intercalate t.attrs ++ "\x7d"

inductive Expression where
  | null
  | bool (b : Bool)
  | number (n : JsonNumber)
  | string (s : String)
  | array (items : List Expression)
  | object (fields : List (String × Expression))
  | traversal (t : Traversal)
  | template (t : TemplateExpr)

/-- An error, or the end of the process. -/
inductive ResolveFailure where
  | error (e : ModuleError)
  | panic (message : String)
  deriving DecidableEq

/-- `Result::unwrap`. -/
def ResolveFailure.unwrapped : ResolveFailure → ResolveFailure
  | error _ => .panic "called `Result::unwrap()` on an `Err` value"
  | panic message => .panic message

/-- An entry of an object, at the place that its key has already. -/
def assign (key : String) (item : Expression) (fields : List (String × Expression)) :
    List (String × Expression) :=
  if key ∈ fields.map Prod.fst then
    fields.map fun field => if field.1 = key then (key, item) else field
  else fields ++ [(key, item)]

structure TfInputResolver where
  knownVariables : List String
  knownOutputs : List String

def prefixName (claimName fieldName : String) : String :=
  conv.toSnakeCase claimName ++ "__" ++ fieldName

namespace TfInputResolver

variable (r : TfInputResolver)

/-- `Expression::String`, `Heredoc` for a text of several lines, or `QuotedString`. -/
def finish (input returnString : String) : Expression :=
  if returnString = input then .string input
  else if '\n' ∈ returnString.toList then .template (.heredoc "EOF" returnString)
  else .template (.quotedString returnString)

/-- What one match does once its target is known: it is the whole text, or is replaced. -/
def replaceMatch (input toReplace returnString : String) (t : Traversal) :
    Except Expression String :=
  if input.utf8ByteSize = toReplace.utf8ByteSize then .error (.traversal t)
  else .ok (replace returnString toReplace t.interpolation)

/-- The loop over the matches. -/
def resolveMatches (input : String) : List Braces → String → Except ModuleError Expression
  | [], returnString => .ok (finish input returnString)
  | m :: rest, returnString =>
      let toReplace := m.text
      let kind : String := .ofList m.kind
      let claimName : String := .ofList m.claim
      let field : String := .ofList m.field
      let canonicalPattern := kind ++ "::" ++ claimName ++ "::" ++ field
      if !contains toReplace canonicalPattern then
        .error (.invalidReference toReplace ("\x7b\x7b " ++ canonicalPattern ++ " \x7d\x7d"))
      else
        let fieldSnakeCase := conv.toSnakeCase field
        if kind = "Stack" ∧ claimName = "variables" then
          let stackVarKey := "stack__" ++ fieldSnakeCase
          if stackVarKey ∈ r.knownVariables then
            match replaceMatch input toReplace returnString ⟨"var", [stackVarKey]⟩ with
            | .error expression => .ok expression
            | .ok returnString => resolveMatches input rest returnString
          else .error (.unresolvedReference toReplace stackVarKey)
        else
          let searchKey := prefixName conv claimName fieldSnakeCase
          if searchKey ∈ r.knownOutputs then
            match replaceMatch input toReplace returnString
              ⟨"module", [conv.toSnakeCase claimName, fieldSnakeCase]⟩ with
            | .error expression => .ok expression
            | .ok returnString => resolveMatches input rest returnString
          else if searchKey ∈ r.knownVariables then
            match replaceMatch input toReplace returnString ⟨"var", [searchKey]⟩ with
            | .error expression => .ok expression
            | .ok returnString => resolveMatches input rest returnString
          else .error (.unresolvedReference toReplace searchKey)

def stringToExpression (input : String) : Except ModuleError Expression :=
  r.resolveMatches conv input (capturesIter conv input) input

mutual

/-- Below the first level an error ends the process, and so does a key that is no identifier. -/
def resolve : Yaml → Except ResolveFailure Expression
  | .null => .ok .null
  | .bool b => .ok (.bool b)
  | .number n => .ok (.number n)
  | .notFinite => .error (.panic "failed to convert float")
  | .string s => (r.stringToExpression conv s).mapError .error
  | .sequence values => (resolveItems values).map .array
  | .mapping entries => (resolveFields entries []).map .object
  | .tagged _ value => resolve value

def resolveItems : List Yaml → Except ResolveFailure (List Expression)
  | [] => .ok []
  | value :: values => do
      let item ← (resolve value).mapError .unwrapped
      .ok (item :: (← resolveItems values))

def resolveFields :
    List (YamlKey × Yaml) → List (String × Expression) →
      Except ResolveFailure (List (String × Expression))
  | [], fields => .ok fields
  | (key, value) :: entries, fields => do
      match key.asStr with
      | none => .error (.panic "called `Option::unwrap()` on a `None` value")
      | some key =>
          if conv.isIdentifier key then do
            let item ← (resolve value).mapError .unwrapped
            resolveFields entries (assign key item fields)
          else .error (.panic ("invalid identifier " ++ key))

end

/-! ## Targets -/

/-- The variable or output that a reference names, if it is known. -/
def target (m : Braces) : Option Traversal :=
  let claimName : String := .ofList m.claim
  let field := conv.toSnakeCase (.ofList m.field)
  if .ofList m.kind = "Stack" ∧ claimName = "variables" then
    if "stack__" ++ field ∈ r.knownVariables then some ⟨"var", ["stack__" ++ field]⟩ else none
  else if prefixName conv claimName field ∈ r.knownOutputs then
    some ⟨"module", [conv.toSnakeCase claimName, field]⟩
  else if prefixName conv claimName field ∈ r.knownVariables then
    some ⟨"var", [prefixName conv claimName field]⟩
  else none

end TfInputResolver

/-- The three names are joined by two colons each. -/
def Braces.Canonical (b : Braces) : Prop :=
  b.colons = [':', ':'] ∧ b.colons' = [':', ':']

section

variable {as cs bs ds es : List Char}

/-- Where the colons are in a text with two runs of them. -/
theorem colon_at_iff (has : ':' ∉ as) (hcs : ∀ c ∈ cs, (c == ':') = true) (hbs : ':' ∉ bs)
    (hds : ∀ c ∈ ds, (c == ':') = true) (hes : ':' ∉ es) (i : Nat) :
    (as ++ (cs ++ (bs ++ (ds ++ es))))[i]? = some ':' ↔
      as.length ≤ i ∧ i < as.length + cs.length ∨
      as.length + cs.length + bs.length ≤ i ∧
        i < as.length + cs.length + bs.length + ds.length := by
  have hnone : ∀ {l : List Char} {j : Nat}, ':' ∉ l → l[j]? ≠ some ':' :=
    fun hl hget => hl (List.mem_of_getElem? hget)
  have hsome : ∀ {l : List Char} {j : Nat}, (∀ c ∈ l, (c == ':') = true) → j < l.length →
      l[j]? = some ':' := by
    intro l j hl hj
    have hcolon : l[j] = ':' := beq_iff_eq.1 (hl _ (List.getElem_mem hj))
    rw [List.getElem?_eq_getElem hj, hcolon]
  rw [List.getElem?_append]
  split
  · exact iff_of_false (hnone has) (by omega)
  rw [List.getElem?_append]
  split
  · exact iff_of_true (hsome hcs (by omega)) (by omega)
  rw [List.getElem?_append]
  split
  · exact iff_of_false (hnone hbs) (by omega)
  rw [List.getElem?_append]
  split
  · exact iff_of_true (hsome hds (by omega)) (by omega)
  · exact iff_of_false (hnone hes) (by omega)

end

namespace Braces

variable {conv} {b : Braces}

theorem Spelled.not_colon (h : b.Spelled conv) :
    (':' ∉ b.kind ∧ ':' ∉ b.claim ∧ ':' ∉ b.field) ∧ ':' ∉ b.before ∧ ':' ∉ b.after := by
  have hword : ∀ {cs : List Char}, (∀ c ∈ cs, conv.isWord c = true) → ':' ∉ cs := by
    intro cs hcs hmem
    have hcolon := conv.not_colon_of_word (hcs _ hmem)
    simp at hcolon
  have hspace : ∀ {cs : List Char}, (∀ c ∈ cs, isWhitespace c = true) → ':' ∉ cs := by
    intro cs hcs hmem
    have hcolon := hcs _ hmem
    revert hcolon
    decide
  exact ⟨⟨hword h.kind.2, hword h.claim.2, hword h.field.2⟩, hspace h.before, hspace h.after⟩

def canonicalPattern (b : Braces) : String :=
  .ofList b.kind ++ "::" ++ .ofList b.claim ++ "::" ++ .ofList b.field

/-- The text of a reference contains its canonical form when both runs of colons are of two. -/
theorem Spelled.contains_iff (h : b.Spelled conv) :
    contains b.text b.canonicalPattern = true ↔ b.Canonical := by
  obtain ⟨⟨hkind, hclaim, hfield⟩, hbefore, hafter⟩ := h.not_colon
  have hpattern : b.canonicalPattern.toList =
      b.kind ++ ([':', ':'] ++ (b.claim ++ ([':', ':'] ++ b.field))) := by
    simp [canonicalPattern]
  have hchars : b.chars = ('{' :: '{' :: b.before ++ b.kind) ++ (b.colons ++ (b.claim ++
      (b.colons' ++ (b.field ++ (b.after ++ ['\x7d', '\x7d']))))) := by
    simp [chars]
  unfold contains text
  rw [String.toList_ofList, hpattern, List.any_eq_true]
  constructor
  · rintro ⟨rest, hrest, hprefix⟩
    obtain ⟨u, hu⟩ := (List.mem_tails _ _).1 hrest
    obtain ⟨w, rfl⟩ := List.isPrefixOf_iff_prefix.1 hprefix
    have htwo : ∀ c ∈ [':', ':'], (c == ':') = true := by simp
    have hopening : ':' ∉ '{' :: '{' :: b.before ++ b.kind := by simp [hbefore, hkind]
    have hclosing : ':' ∉ b.field ++ (b.after ++ ['\x7d', '\x7d']) := by simp [hfield, hafter]
    have hat := colon_at_iff hopening h.colons.2 hclaim h.colons'.2 hclosing
    rw [← hchars, ← hu] at hat
    have hat' := colon_at_iff hkind htwo hclaim htwo hfield
    -- Both texts have colons at the same places.
    have hsame : ∀ j, j < b.kind.length + 4 + b.claim.length + b.field.length →
        ((u ++ ((b.kind ++ ([':', ':'] ++ (b.claim ++ ([':', ':'] ++ b.field)))) ++ w))[u.length +
          j]? = some ':' ↔
          (b.kind ++ ([':', ':'] ++ (b.claim ++ ([':', ':'] ++ b.field))))[j]? = some ':') := by
      intro j hj
      have hwithin : j <
          (b.kind ++ ([':', ':'] ++ (b.claim ++ ([':', ':'] ++ b.field)))).length := by
        simp only [List.length_append, List.length_cons, List.length_nil]
        omega
      rw [List.getElem?_append_right (by omega), Nat.add_sub_cancel_left,
        List.getElem?_append_left hwithin]
    have hkindpos := List.length_pos_iff.2 h.kind.1
    have hclaimpos := List.length_pos_iff.2 h.claim.1
    have hfieldpos := List.length_pos_iff.2 h.field.1
    have hcolonspos := List.length_pos_iff.2 h.colons.1
    have hcolonspos' := List.length_pos_iff.2 h.colons'.1
    simp only [hat, hat', List.length_cons, List.length_append, List.length_nil] at hsame
    have h₀ := hsame (b.kind.length - 1) (by omega)
    have h₁ := hsame b.kind.length (by omega)
    have h₂ := hsame (b.kind.length + 1) (by omega)
    have h₃ := hsame (b.kind.length + 2) (by omega)
    have h₄ := hsame (b.kind.length + 1 + b.claim.length) (by omega)
    have h₅ := hsame (b.kind.length + 2 + b.claim.length) (by omega)
    have h₆ := hsame (b.kind.length + 3 + b.claim.length) (by omega)
    have h₇ := hsame (b.kind.length + 4 + b.claim.length) (by omega)
    have hlength : b.colons.length = 2 ∧ b.colons'.length = 2 := by omega
    have htwoColons : ∀ {cs : List Char}, (∀ c ∈ cs, (c == ':') = true) → cs.length = 2 →
        cs = [':', ':'] := by
      intro cs hcs hcount
      exact List.eq_replicate_iff.2 ⟨hcount, fun c hc => beq_iff_eq.1 (hcs c hc)⟩
    exact ⟨htwoColons h.colons.2 hlength.1, htwoColons h.colons'.2 hlength.2⟩
  · rintro ⟨hcolons, hcolons'⟩
    refine ⟨b.kind ++ (b.colons ++ (b.claim ++ (b.colons' ++ (b.field ++ (b.after ++
      ['\x7d', '\x7d']))))), ?_, ?_⟩
    · refine (List.mem_tails _ _).2 ⟨'{' :: '{' :: b.before, ?_⟩
      simp [chars]
    · rw [hcolons, hcolons', List.isPrefixOf_iff_prefix]
      exact ⟨b.after ++ ['\x7d', '\x7d'], by simp⟩

end Braces

/-! ## Matches of a text -/

section

variable {conv}

theorem spelled_of_read {cs : List Char} {m : Braces}
    (h : (referenceLexer conv).read cs = some m) : m.Spelled conv ∧ m.chars <+: cs :=
  readBraces_cases (Option.filter_eq_some_iff.1 h).1

theorem Braces.Spelled.brace_notMem {b : Braces} (h : b.Spelled conv) :
    '{' ∉ b.chars.tail.tail ∧ '$' ∉ b.chars := by
  have hword : ∀ {cs : List Char}, (∀ c ∈ cs, conv.isWord c = true) → '{' ∉ cs ∧ '$' ∉ cs :=
    fun hcs => ⟨fun hmem => conv.not_brace_of_word (hcs _ hmem) rfl,
      fun hmem => conv.not_dollar_of_word (hcs _ hmem) rfl⟩
  have hother : ∀ {cs : List Char} {p : Char → Bool}, (∀ c ∈ cs, p c = true) → p '{' = false →
      p '$' = false → '{' ∉ cs ∧ '$' ∉ cs := by
    intro cs p hcs hbrace hdollar
    refine ⟨fun hmem => ?_, fun hmem => ?_⟩
    · rw [hcs _ hmem] at hbrace
      cases hbrace
    · rw [hcs _ hmem] at hdollar
      cases hdollar
  have hbefore := hother h.before rfl rfl
  have hkind := hword h.kind.2
  have hcolons := hother h.colons.2 rfl rfl
  have hclaim := hword h.claim.2
  have hcolons' := hother h.colons'.2 rfl rfl
  have hfield := hword h.field.2
  have hafter := hother h.after rfl rfl
  constructor
  · simp [Braces.chars, hbefore.1, hkind.1, hcolons.1, hclaim.1, hcolons'.1, hfield.1, hafter.1]
  · simp [Braces.chars, hbefore.2, hkind.2, hcolons.2, hclaim.2, hcolons'.2, hfield.2, hafter.2]

theorem braced_referenceLexer : (referenceLexer conv).Braced '{' := by
  intro cs m h
  have hspelled := (spelled_of_read h).1
  refine ⟨m.chars.tail.tail, rfl, hspelled.brace_notMem.1, ?_⟩
  simp [Braces.chars]

theorem read_of_mem_capturesIter {input : String} {m : Braces} (h : m ∈ capturesIter conv input) :
    ∃ ds, ds <:+ input.toList ∧ (referenceLexer conv).read ds = some m :=
  (Lexer.mem_tokens_iff braced_referenceLexer.separate).1 h

/-- A match that is the whole text is the only one. -/
theorem capturesIter_eq_singleton {m : Braces} (h : m ∈ capturesIter conv m.text) :
    capturesIter conv m.text = [m] := by
  obtain ⟨ds, ⟨u, hu⟩, hread⟩ := read_of_mem_capturesIter h
  obtain ⟨w, rfl⟩ := (spelled_of_read hread).2
  have hlength := congrArg List.length hu
  simp only [Braces.text, String.toList_ofList, List.length_append] at hlength
  obtain rfl : w = [] := List.eq_nil_of_length_eq_zero (by omega)
  unfold capturesIter
  rw [Braces.text, String.toList_ofList]
  have htoken := @Lexer.tokens_token _ (referenceLexer conv) _ _ hread
  rw [Lexer.tokens_nil] at htoken
  rw [← htoken]
  exact congrArg _ (List.append_nil _).symm

/-- The source compares lengths. -/
theorem size_eq_iff {input : String} {m : Braces} (h : m ∈ capturesIter conv input) :
    input.utf8ByteSize = m.text.utf8ByteSize ↔ input = m.text := by
  refine ⟨fun hsize => ?_, fun heq => heq ▸ rfl⟩
  obtain ⟨ds, ⟨u, hu⟩, hread⟩ := read_of_mem_capturesIter h
  obtain ⟨w, rfl⟩ := (spelled_of_read hread).2
  have hinput : input = String.ofList u ++ (m.text ++ String.ofList w) := by
    refine String.ext ?_
    simp [Braces.text, ← hu]
  rw [hinput, String.utf8ByteSize_append, String.utf8ByteSize_append] at hsize
  have hu' : (String.ofList u).utf8ByteSize = 0 := by omega
  have hw' : (String.ofList w).utf8ByteSize = 0 := by omega
  rw [hinput, String.utf8ByteSize_eq_zero_iff.1 hu', String.utf8ByteSize_eq_zero_iff.1 hw']
  simp

end

namespace TfInputResolver

variable {conv} {r : TfInputResolver}

/-! ## Interpolations -/

/-- An interpolation starts with a dollar sign and has one opening brace. -/
theorem marked_interpolation {m : Braces} (h : m.Spelled conv) {t : Traversal}
    (ht : r.target conv m = some t) : Lexer.Marked '$' '{' t.interpolation.toList := by
  have hclaim : ∀ c ∈ (conv.toSnakeCase (.ofList m.claim)).toList, conv.isWord c = true :=
    conv.toSnakeCase_word _ (by simpa using h.claim.2)
  have hfield : ∀ c ∈ (conv.toSnakeCase (.ofList m.field)).toList, conv.isWord c = true :=
    conv.toSnakeCase_word _ (by simpa using h.field.2)
  have hplain : ∀ {s : String}, (∀ c ∈ s.toList, conv.isWord c = true) →
      '$' ∉ s.toList ∧ '{' ∉ s.toList :=
    fun hs => ⟨fun hmem => conv.not_dollar_of_word (hs _ hmem) rfl,
      fun hmem => conv.not_brace_of_word (hs _ hmem) rfl⟩
  have hmarked : ∀ {root : String} {attrs : List String},
      '$' ∉ root.toList ∧ '{' ∉ root.toList →
      '$' ∉ ['.'].intercalate (attrs.map String.toList) ∧
        '{' ∉ ['.'].intercalate (attrs.map String.toList) →
      Lexer.Marked '$' '{' (Traversal.interpolation ⟨root, attrs⟩).toList := by
    intro root attrs hroot hattrs
    refine ⟨root.toList ++ ('.' :: ((".".intercalate attrs).toList ++ ['\x7d'])), ?_, ?_, ?_, ?_⟩
    · simp [Traversal.interpolation]
    · simp [hroot.1, hattrs.1]
    · simp [hroot.2, hattrs.2]
    · simp
  have hclaim' := hplain hclaim
  have hfield' := hplain hfield
  unfold target at ht
  dsimp only at ht
  split at ht
  · split at ht
    · obtain rfl := Option.some.inj ht
      refine hmarked (by decide) ?_
      simp [List.intercalate, hfield']
    · cases ht
  · split at ht
    · obtain rfl := Option.some.inj ht
      refine hmarked (by decide) ?_
      simp [List.intercalate, hclaim', hfield']
    · split at ht
      · obtain rfl := Option.some.inj ht
        refine hmarked (by decide) ?_
        simp [List.intercalate, prefixName, hclaim', hfield']
      · cases ht

variable (conv r) in
/-- The text of a match in the result. -/
def substitution (m : Braces) : String :=
  match r.target conv m with
  | some t => t.interpolation
  | none => "$\x7b_"

variable (conv r) in
/-- The text with every match replaced, left to right and all at once. -/
def substituted (input : String) : String :=
  .ofList ((referenceLexer conv).substitute (fun m => (r.substitution conv m).toList) input.toList)

theorem marked_substitution {m : Braces} (h : m.Spelled conv) :
    Lexer.Marked '$' '{' (r.substitution conv m).toList := by
  unfold substitution
  cases ht : r.target conv m with
  | some t => exact marked_interpolation h ht
  | none => exact ⟨['_'], by decide⟩

/-- Replacing the matches one after the other, wherever they occur in the copy, replaces all of
them at once. -/
theorem foldl_replace (input : String) :
    (capturesIter conv input).foldl (fun s m => replace s m.text (r.substitution conv m)) input =
      r.substituted conv input := by
  have hchars : ∀ (ms : List Braces) (s : String),
      (ms.foldl (fun s m => replace s m.text (r.substitution conv m)) s).toList =
        ms.foldl (fun cs m => replaceChars m.chars (r.substitution conv m).toList cs 0)
          s.toList := by
    intro ms
    induction ms with
    | nil => exact fun s => rfl
    | cons m ms ih =>
        intro s
        rw [List.foldl_cons, List.foldl_cons, ih]
        simp [replace, Braces.text]
  refine String.ext ?_
  rw [hchars, substituted, String.toList_ofList]
  exact Lexer.foldl_replaceChars braced_referenceLexer
    (fun h => (spelled_of_read h).1.brace_notMem.2)
    (fun h => marked_substitution (spelled_of_read h).1) input.toList

/-- A text with a match is changed, as a match starts with a brace. -/
theorem substituted_eq_iff (input : String) :
    r.substituted conv input = input ↔ capturesIter conv input = [] := by
  have hchars : ∀ cs, (referenceLexer conv).substitute
      (fun m => (r.substitution conv m).toList) cs = cs ↔ (referenceLexer conv).tokens cs = [] := by
    intro cs
    induction cs using Lexer.pieces_induction (referenceLexer conv) with
    | nil => simp
    | char c cs h ih => rw [Lexer.substitute_cons h, Lexer.tokens_cons h, List.cons_inj_right, ih]
    | token m rest h _ =>
        rw [Lexer.substitute_token h, Lexer.tokens_token h]
        obtain ⟨body, hmark, -⟩ := marked_substitution (r := r) (spelled_of_read h).1
        refine iff_of_false (fun heq => ?_) (List.cons_ne_nil _ _)
        rw [hmark] at heq
        have hhead := congrArg List.head? heq
        have hbrace : (referenceLexer conv).text m = '{' :: m.chars.tail := rfl
        rw [hbrace] at hhead
        simp at hhead
  rw [capturesIter, ← hchars, substituted]
  constructor
  · intro heq
    have htext := congrArg String.toList heq
    rwa [String.toList_ofList] at htext
  · intro heq
    rw [heq, String.ofList_toList]

/-! ## The loop -/

/-- A match is in its canonical spelling and names something known. -/
def Known (conv : Conventions) (r : TfInputResolver) (m : Braces) : Prop :=
  m.Canonical ∧ r.target conv m ≠ none

/-- One match: an error, the whole text, or a replacement in the copy. -/
theorem resolveMatches_cons {m : Braces} (h : m.Spelled conv) (input : String)
    (rest : List Braces) (s : String) :
    (¬ r.Known conv m ∧ ∃ e, r.resolveMatches conv input (m :: rest) s = .error e) ∨
      m.Canonical ∧ ∃ t, r.target conv m = some t ∧
        r.resolveMatches conv input (m :: rest) s =
          if input.utf8ByteSize = m.text.utf8ByteSize then .ok (.traversal t)
          else r.resolveMatches conv input rest (replace s m.text (r.substitution conv m)) := by
  have hcanonical := h.contains_iff
  unfold Braces.canonicalPattern at hcanonical
  rw [resolveMatches]
  unfold Known substitution target
  dsimp only
  by_cases hform : m.Canonical
  · rw [hcanonical.2 hform]
    simp only [Bool.not_true, Bool.false_eq_true, if_false]
    have hreplace : ∀ t : Traversal,
        (match replaceMatch input m.text s t with
          | .error expression => .ok expression
          | .ok returnString => r.resolveMatches conv input rest returnString) =
        if input.utf8ByteSize = m.text.utf8ByteSize then .ok (.traversal t)
        else r.resolveMatches conv input rest (replace s m.text t.interpolation) := by
      intro t
      unfold replaceMatch
      by_cases hsize : input.utf8ByteSize = m.text.utf8ByteSize
      · rw [if_pos hsize, if_pos hsize]
      · rw [if_neg hsize, if_neg hsize]
    split
    · split
      · exact Or.inr ⟨hform, _, rfl, hreplace _⟩
      · exact Or.inl ⟨fun hknown => hknown.2 rfl, _, rfl⟩
    · split
      · exact Or.inr ⟨hform, _, rfl, hreplace _⟩
      · split
        · exact Or.inr ⟨hform, _, rfl, hreplace _⟩
        · exact Or.inl ⟨fun hknown => hknown.2 rfl, _, rfl⟩
  · have hrefused := Bool.eq_false_iff.2 (mt hcanonical.1 hform)
    rw [hrefused]
    exact Or.inl ⟨fun hknown => hform hknown.1, _, rfl⟩

/-- When no match is the whole text, they are replaced one after the other, up to the first one
that is malformed or names nothing known. -/
theorem resolveMatches_cases {input : String} {ms : List Braces}
    (h : ∀ m ∈ ms, m.Spelled conv ∧ input.utf8ByteSize ≠ m.text.utf8ByteSize) (s : String) :
    ((∃ m ∈ ms, ¬ r.Known conv m) ∧ ∃ e, r.resolveMatches conv input ms s = .error e) ∨
      (∀ m ∈ ms, r.Known conv m) ∧ r.resolveMatches conv input ms s = .ok (finish input
        (ms.foldl (fun s m => replace s m.text (r.substitution conv m)) s)) := by
  induction ms generalizing s with
  | nil => exact Or.inr ⟨fun m hm => (List.not_mem_nil hm).elim, rfl⟩
  | cons m ms ih =>
      obtain ⟨hspelled, hsize⟩ := h m List.mem_cons_self
      rcases resolveMatches_cons (r := r) hspelled input ms s with
        ⟨hunknown, e, herror⟩ | ⟨hform, t, ht, heq⟩
      · exact Or.inl ⟨⟨m, List.mem_cons_self, hunknown⟩, e, herror⟩
      · rw [if_neg hsize] at heq
        have hknown : r.Known conv m := ⟨hform, by simp [ht]⟩
        rcases ih (fun m' hm' => h m' (List.mem_cons_of_mem _ hm'))
            (replace s m.text (r.substitution conv m)) with
          ⟨⟨m', hm', hunknown⟩, e, herror⟩ | ⟨hrest, hok⟩
        · exact Or.inl ⟨⟨m', List.mem_cons_of_mem _ hm', hunknown⟩, e, heq.trans herror⟩
        · refine Or.inr ⟨fun m' hm' => ?_, heq.trans hok⟩
          rcases List.mem_cons.1 hm' with rfl | hm'
          · exact hknown
          · exact hrest m' hm'

/-- What a text is turned into when all its references are known. -/
inductive Resolved (conv : Conventions) (r : TfInputResolver) (input : String) : Expression → Prop
  | plain (h : capturesIter conv input = []) : Resolved conv r input (.string input)
  | whole {m : Braces} {t : Traversal} (h : capturesIter conv input = [m]) (hwhole : input = m.text)
      (ht : r.target conv m = some t) : Resolved conv r input (.traversal t)
  | template {t : TemplateExpr} (h : capturesIter conv input ≠ [])
      (hpart : ∀ m ∈ capturesIter conv input, input ≠ m.text)
      (ht : t.template = r.substituted conv input) : Resolved conv r input (.template t)

theorem resolved_finish {input : String} (hpart : ∀ m ∈ capturesIter conv input, input ≠ m.text) :
    Resolved conv r input (finish input (r.substituted conv input)) := by
  unfold finish
  split
  · rename_i heq
    exact .plain ((substituted_eq_iff input).1 heq)
  · rename_i hne
    have hsome : capturesIter conv input ≠ [] := fun h => hne ((substituted_eq_iff input).2 h)
    split
    · exact .template hsome hpart rfl
    · exact .template hsome hpart rfl

variable (conv r) in
/-- A text is refused exactly when one of its matches is malformed or names nothing known, and is
resolved otherwise. -/
theorem stringToExpression_cases (input : String) :
    ((∃ m ∈ capturesIter conv input, ¬ r.Known conv m) ∧
        ∃ e, r.stringToExpression conv input = .error e) ∨
      (∀ m ∈ capturesIter conv input, r.Known conv m) ∧
        ∃ expression, r.stringToExpression conv input = .ok expression ∧
          Resolved conv r input expression := by
  unfold stringToExpression
  have hspelled : ∀ m ∈ capturesIter conv input, m.Spelled conv := by
    intro m hm
    obtain ⟨ds, -, hread⟩ := read_of_mem_capturesIter hm
    exact (spelled_of_read hread).1
  by_cases hwhole : ∃ m ∈ capturesIter conv input, input = m.text
  · obtain ⟨m, hm, rfl⟩ := hwhole
    have honly := capturesIter_eq_singleton hm
    rw [honly]
    rcases resolveMatches_cons (r := r) (hspelled m hm) m.text [] m.text with
      ⟨hunknown, e, herror⟩ | ⟨hform, t, ht, heq⟩
    · exact Or.inl ⟨⟨m, List.mem_singleton_self m, hunknown⟩, e, herror⟩
    · rw [if_pos rfl] at heq
      refine Or.inr ⟨fun m' hm' => ?_, _, heq, .whole honly rfl ht⟩
      obtain rfl := List.mem_singleton.1 hm'
      exact ⟨hform, by simp [ht]⟩
  · have hpart : ∀ m ∈ capturesIter conv input, input ≠ m.text :=
      fun m hm heq => hwhole ⟨m, hm, heq⟩
    rcases resolveMatches_cases (r := r) (fun m hm =>
        ⟨hspelled m hm, fun hsize => hpart m hm ((size_eq_iff hm).1 hsize)⟩) input with
      hleft | ⟨hknown, hok⟩
    · exact Or.inl hleft
    · rw [foldl_replace] at hok
      exact Or.inr ⟨hknown, _, hok, resolved_finish hpart⟩

/-- A text is resolved with an error exactly when one of its matches is malformed or names nothing
known.  Otherwise it stays as it is exactly when it has no match, becomes the traversal of its
target exactly when it is one reference, and else a template in which every match is replaced by
the interpolation of its target. -/
theorem resolve_string (conv : Conventions) (r : TfInputResolver) (input : String) :
    ((∃ e, r.resolve conv (.string input) = .error (.error e)) ↔
      ∃ m ∈ capturesIter conv input, ¬ m.Canonical ∨ r.target conv m = none) ∧
    ((∀ m ∈ capturesIter conv input, m.Canonical ∧ r.target conv m ≠ none) →
      ∃ expression, r.resolve conv (.string input) = .ok expression ∧
        (expression = .string input ↔ capturesIter conv input = []) ∧
        (∀ t, expression = .traversal t ↔ ∃ m, capturesIter conv input = [m] ∧ input = m.text ∧
          r.target conv m = some t) ∧
        ((∃ t, expression = .template t) ↔ capturesIter conv input ≠ [] ∧
          ∀ m ∈ capturesIter conv input, input ≠ m.text) ∧
        ∀ t, expression = .template t → t.template = .ofList ((referenceLexer conv).substitute
          (fun m => (r.substitution conv m).toList) input.toList)) := by
  have hnot : ∀ m, (¬ m.Canonical ∨ r.target conv m = none) ↔ ¬ r.Known conv m := by
    intro m
    unfold Known
    rw [not_and_or, not_not]
  have hresolve : r.resolve conv (.string input) =
      (r.stringToExpression conv input).mapError .error := by
    unfold resolve
    rfl
  rw [hresolve]
  simp only [hnot]
  rcases stringToExpression_cases conv r input with
    ⟨⟨m, hm, hunknown⟩, e, herror⟩ | ⟨hknown, expression, hok, hresolved⟩
  · rw [herror]
    exact ⟨iff_of_true ⟨e, rfl⟩ ⟨m, hm, hunknown⟩, fun hknown => absurd (hknown m hm) hunknown⟩
  · rw [hok]
    refine ⟨iff_of_false (fun ⟨e, herror⟩ => ?_) fun ⟨m, hm, hunknown⟩ => hunknown (hknown m hm),
      fun _ => ⟨expression, rfl, ?_⟩⟩
    · cases herror
    · cases hresolved with
      | plain h => simp [h]
      | whole h hwhole ht =>
          refine ⟨by simp [h], fun t => ?_, ?_, by simp⟩
          · simp [h, hwhole.symm, ht]
          · simp [h, hwhole.symm]
      | template h hpart ht =>
          refine ⟨by simp [h], fun t => ?_, ?_, fun t heq => ?_⟩
          · refine iff_of_false (by simp) ?_
            rintro ⟨m, hm, hwhole, -⟩
            exact hpart m (by simp [hm]) hwhole
          · exact iff_of_true ⟨_, rfl⟩ ⟨h, hpart⟩
          · obtain rfl := Expression.template.inj heq
            exact ht

end TfInputResolver

/-- Two references in one text, the first one twice. -/
example : TfInputResolver.substituted asciiConventions
    ⟨["bucket1a__bucket_name"], ["bucket1b__bucket_name"]⟩
    ("a\x7b\x7b S3::bucket1a::bucketName \x7d\x7d-\x7b\x7bS3::bucket1b::bucketName\x7d\x7d," ++
      "\x7b\x7b S3::bucket1a::bucketName \x7d\x7d") =
    "a$\x7bvar.bucket1a__bucket_name\x7d-$\x7bmodule.bucket1b.bucket_name\x7d," ++
      "$\x7bvar.bucket1a__bucket_name\x7d" := by
  decide +kernel

end EnvCommon
end InfraWeave
