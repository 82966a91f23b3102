import InfraWeave.Defs.Yaml
import InfraWeave.Lib.Lexer
import InfraWeave.Lib.Words

/-!
# References between the claims of a stack

A claim refers to an output or an input of another claim by a text in double braces that names a
kind, a claim and a field.  `Braces` is such a text as it is spelled, and the two regular
expressions that look for them accept different spellings of it.
-/

namespace InfraWeave
namespace EnvCommon

open Text

/-- `^[a-z][a-z0-9]+$`, the names that claims in stacks may have. -/
def isClaimName (name : String) : Bool :=
  match name.toList with
  | c :: d :: cs => c.isLower && (d :: cs).all fun c => c.isLower || c.isDigit
  | _ => false

/-- What the program takes from its libraries: the class `\w` of regular expressions, the case
conversions of `heck`, the identifiers of HCL, the texts of the numbers of JSON, and the order in
which a hash map iterates. -/
structure Conventions where
  isWord : Char → Bool
  isWord_ascii : ∀ c, c.isAlphanum = true ∨ c = '_' → isWord c = true
  isWord_plain : ∀ c, isWord c = true →
    isWhitespace c = false ∧ ' ' < c ∧ c ∉ [':', '.', '$', '{', '}', '"', '\\']
  toSnakeCase : String → String
  toCamelCase : String → String
  toSnakeCase_word : ∀ s, (∀ c ∈ s.toList, isWord c = true) →
    ∀ c ∈ (toSnakeCase s).toList, isWord c = true
  toSnakeCase_claimName : ∀ s, isClaimName s = true → toSnakeCase s = s
  toSnakeCase_single : ∀ s, ¬ ['_', '_'] <:+: (toSnakeCase s).toList
  toSnakeCase_end : ∀ s, ¬ ['_'] <:+ (toSnakeCase s).toList
  isIdentifier : String → Bool
  numberText : JsonNumber → String
  numberText_plain : ∀ n, ∀ c ∈ (numberText n).toList, c.isDigit = true ∨ c ∈ ['-', '+', '.', 'e']
  hashOrder : List String → List String
  perm_hashOrder : ∀ keys, (hashOrder keys).Perm keys

/-! ## Texts in double braces -/

structure Braces where
  before : List Char
  kind : List Char
  colons : List Char
  claim : List Char
  colons' : List Char
  field : List Char
  after : List Char
  deriving DecidableEq

namespace Braces

def chars (b : Braces) : List Char :=
  '{' :: '{' :: (b.before ++ (b.kind ++ (b.colons ++ (b.claim ++ (b.colons' ++ (b.field ++
    (b.after ++ ['}', '}'])))))))

/-- The text of the reference, braces included. -/
def text (b : Braces) : String :=
  .ofList b.chars

end Braces

variable (conv : Conventions)

def readBraces : List Char → Option Braces
  | '{' :: '{' :: cs =>
      let (before, cs) := cs.span isWhitespace
      let (kind, cs) := cs.span conv.isWord
      let (colons, cs) := cs.span (· == ':')
      let (claim, cs) := cs.span conv.isWord
      let (colons', cs) := cs.span (· == ':')
      let (field, cs) := cs.span conv.isWord
      let (after, cs) := cs.span isWhitespace
      if ['}', '}'] <+: cs ∧ kind ≠ [] ∧ colons ≠ [] ∧ claim ≠ [] ∧ colons' ≠ [] ∧ field ≠ [] then
        some { before, kind, colons, claim, colons', field, after }
      else none
  | _ => none

/-! ## Conventions of ASCII -/

theorem word_plain {c : Char} (h : (c.isAlphanum || c == '_') = true) :
    isWhitespace c = false ∧ ' ' < c ∧ c ∉ [':', '.', '$', '{', '}', '"', '\\'] := by
  have hrange : 48 ≤ c.toNat ∧ c.toNat ≤ 57 ∨ 65 ≤ c.toNat ∧ c.toNat ≤ 90 ∨ c.toNat = 95 ∨
      97 ≤ c.toNat ∧ c.toNat ≤ 122 := by
    rcases Bool.or_eq_true _ _ ▸ h with halnum | hunderscore
    · rcases Words.isAlphanum_iff.1 halnum with hupper | hlower | hdigit
      · exact Or.inr (Or.inl (Words.isUpper_iff.1 hupper))
      · exact Or.inr (Or.inr (Or.inr (Words.isLower_iff.1 hlower)))
      · exact Or.inl (Words.isDigit_iff.1 hdigit)
    · rw [beq_iff_eq.1 hunderscore]
      decide
  refine ⟨?_, ?_, ?_⟩
  · simp only [isWhitespace, Bool.or_eq_false_iff, Bool.and_eq_false_iff, decide_eq_false_iff_not,
      beq_eq_false_iff_ne]
    omega
  · change 32 < c.toNat
    omega
  · intro hmem
    simp only [List.mem_cons, List.not_mem_nil, or_false] at hmem
    rcases hmem with rfl | rfl | rfl | rfl | rfl | rfl | rfl <;> revert hrange <;> decide

theorem toSnakeCase_claimName {s : String} (h : isClaimName s = true) :
    Words.toSnakeCase s = s := by
  unfold isClaimName at h
  split at h
  · rename_i c d cs heq
    rw [Bool.and_eq_true, List.all_eq_true] at h
    refine Words.toSnakeCase_of_small (fun hempty => ?_) fun x hx => ?_
    · rw [hempty] at heq
      cases heq
    · rw [heq] at hx
      rcases List.mem_cons.1 hx with rfl | hx
      · exact Or.inl h.1
      · simpa using h.2 x hx
  · cases h

theorem mem_toString_nat {n : Nat} {c : Char} (h : c ∈ (toString n).toList) :
    c.isDigit = true := by
  rw [Nat.toString_eq_repr, Nat.repr_eq_ofList_toDigits, String.toList_ofList] at h
  exact Nat.isDigit_of_mem_toDigits (by decide) (by decide) h

theorem mem_toString_int {n : Int} {c : Char} (h : c ∈ (toString n).toList) :
    c.isDigit = true ∨ c ∈ ['-', '+', '.', 'e'] := by
  cases n with
  | ofNat n => exact Or.inl (mem_toString_nat (n := n) h)
  | negSucc n =>
      have heq : toString (Int.negSucc n) = "-" ++ toString (n + 1) := rfl
      rw [heq, String.toList_append] at h
      rcases List.mem_append.1 h with h | h
      · exact Or.inr (by simpa using Or.inl (by simpa using h))
      · exact Or.inl (mem_toString_nat h)

/-- The conventions as they are for ASCII texts and whole numbers, with maps that iterate in the
order of their keys. -/
def asciiConventions : Conventions where
  isWord c := c.isAlphanum || c == '_'
  isWord_ascii c h := by simpa using h
  isWord_plain c h := word_plain h
  toSnakeCase := Words.toSnakeCase
  toCamelCase := Words.toLowerCamelCase
  toSnakeCase_word s _ c hc := by simpa using Words.mem_toSnakeCase hc
  toSnakeCase_claimName s h := toSnakeCase_claimName h
  toSnakeCase_single s h :=
    Words.separable_toSnakeCase s (h.trans (List.prefix_append _ _).isInfix)
  toSnakeCase_end s h := by
    obtain ⟨start, heq⟩ := h
    refine Words.separable_toSnakeCase s ⟨start, [], ?_⟩
    rw [← heq]
    simp
  isIdentifier s := s.toList.all fun c => c.isAlphanum || c == '_'
  numberText
    | .int n => toString n
    | .float r => toString r.num ++ "." ++ toString r.den
  numberText_plain n c hc := by
    cases n with
    | int n => exact mem_toString_int hc
    | float r =>
        dsimp only at hc
        rw [String.toList_append, String.toList_append] at hc
        rcases List.mem_append.1 hc with hc | hc
        · rcases List.mem_append.1 hc with hc | hc
          · exact mem_toString_int hc
          · exact Or.inr (by simpa using Or.inr (Or.inr (Or.inl (by simpa using hc))))
        · exact Or.inl (mem_toString_nat hc)
  hashOrder keys := keys
  perm_hashOrder keys := List.Perm.refl keys

end EnvCommon
end InfraWeave
