import InfraWeave.Lib.Text
import Mathlib.Data.List.Perm.Basic

/-!
# Query texts of forms

`application/x-www-form-urlencoded`: pairs are joined by ampersands, a plus sign is a space, and a
percent sign with two hexadecimal digits is a byte.  A text that is written without any encoding is
read back as it was exactly when none of these stand in it.
-/

namespace InfraWeave
namespace FormUrlencoded

/-- A character of the text, or a byte that is escaped in it. -/
inductive Piece where
  | char (c : Char)
  | byte (value : Nat)

def hexValue (c : Char) : Option Nat :=
  if c.isDigit then some (c.toNat - 48)
  else if 'a' ≤ c ∧ c ≤ 'f' then some (c.toNat - 87)
  else if 'A' ≤ c ∧ c ≤ 'F' then some (c.toNat - 55)
  else none

/-- The byte of the escape that the text starts with. -/
def escape? : List Char → Option Nat
  | c :: a :: b :: _ => do
      let high ← hexValue a
      let low ← hexValue b
      if c = '%' then some (16 * high + low) else none
  | _ => none

def unplus (c : Char) : Char :=
  if c = '+' then ' ' else c

/-- The pieces of a text after the characters that are still to be passed. -/
def pieces : List Char → Nat → List Piece
  | [], _ => []
  | _ :: cs, skip + 1 => pieces cs skip
  | c :: cs, 0 =>
      match escape? (c :: cs) with
      | some value => .byte value :: pieces cs 2
      | none => .char (unplus c) :: pieces cs 0

variable (utf8 : List Nat → List Char)

/-- Bytes next to each other are read as UTF-8. -/
def join : List Nat → List Piece → List Char
  | bytes, [] => utf8 bytes
  | bytes, .byte value :: ps => join (bytes ++ [value]) ps
  | bytes, .char c :: ps => utf8 bytes ++ c :: join [] ps

def decode (cs : List Char) : List Char :=
  join utf8 [] (pieces cs 0)

def nameText (cs : List Char) : List Char :=
  cs.takeWhile (· != '=')

def valueText (cs : List Char) : List Char :=
  (cs.dropWhile (· != '=')).drop 1

/-- The name ends at the first equals sign; without one the value is empty. -/
def decodePair (cs : List Char) : List Char × List Char :=
  (decode utf8 (nameText cs), decode utf8 (valueText cs))

/-- `form_urlencoded::parse`; nothing between two ampersands is no pair. -/
def parse (query : List Char) : List (List Char × List Char) :=
  ((query.splitOn '&').filter fun cs => !cs.isEmpty).map (decodePair utf8)

def pairText (pair : List Char × List Char) : List Char :=
  pair.1 ++ '=' :: pair.2

/-- Pairs that are written without any encoding. -/
def plainText (pairs : List (List Char × List Char)) : List Char :=
  ['&'].intercalate (pairs.map pairText)

/-- What a URI keeps of the text after its question mark. -/
def beforeFragment (text : List Char) : List Char :=
  text.takeWhile (· != '#')

/-! ## Texts that stand for themselves -/

def hasEscape : List Char → Bool
  | [] => false
  | c :: cs => (escape? (c :: cs)).isSome || hasEscape cs

structure Literal (cs : List Char) : Prop where
  ampersand : '&' ∉ cs
  plus : '+' ∉ cs
  fragment : '#' ∉ cs
  escape : hasEscape cs = false

/-- A pair without separators or escapes. -/
structure LiteralPair (pair : List Char × List Char) : Prop where
  name : Literal pair.1
  value : Literal pair.2
  equals : '=' ∉ pair.1

instance (cs : List Char) : Decidable (Literal cs) :=
  decidable_of_iff ('&' ∉ cs ∧ '+' ∉ cs ∧ '#' ∉ cs ∧ hasEscape cs = false)
    ⟨fun h => ⟨h.1, h.2.1, h.2.2.1, h.2.2.2⟩, fun h => ⟨h.1, h.2, h.3, h.4⟩⟩

instance (pair : List Char × List Char) : Decidable (LiteralPair pair) :=
  decidable_of_iff (Literal pair.1 ∧ Literal pair.2 ∧ '=' ∉ pair.1)
    ⟨fun h => ⟨h.1, h.2.1, h.2.2⟩, fun h => ⟨h.1, h.2, h.3⟩⟩

variable {utf8}

/-! ## Decoding -/

/-- The characters that are no equals signs. -/
def weight (cs : List Char) : Nat :=
  cs.countP (· != '=')

theorem pieces_of_hasEscape {cs : List Char} (h : hasEscape cs = false) :
    pieces cs 0 = cs.map fun c => .char (unplus c) := by
  induction cs with
  | nil => rfl
  | cons c cs ih =>
      simp only [hasEscape, Bool.or_eq_false_iff, Option.isSome_eq_false_iff,
        Option.isNone_iff_eq_none] at h
      rw [pieces, h.1, ih h.2]
      rfl

theorem unplus_ne_plus (c : Char) : unplus c ≠ '+' := by
  unfold unplus
  split
  · decide
  · assumption

theorem join_chars (hutf8 : utf8 [] = []) (cs : List Char) :
    join utf8 [] (cs.map Piece.char) = cs := by
  induction cs with
  | nil => exact hutf8
  | cons c cs ih => rw [List.map_cons, join, hutf8, ih, List.nil_append]

/-- Without escapes only the plus signs change. -/
theorem decode_of_hasEscape (hutf8 : utf8 [] = []) {cs : List Char} (h : hasEscape cs = false) :
    decode utf8 cs = cs.map unplus := by
  have hmap : (cs.map fun c => Piece.char (unplus c)) = (cs.map unplus).map Piece.char := by simp
  rw [decode, pieces_of_hasEscape h, hmap, join_chars hutf8]

theorem escape?_eq_some {cs : List Char} {value : Nat} (h : escape? cs = some value) :
    ∃ a b rest, cs = '%' :: a :: b :: rest ∧ a ≠ '=' ∧ b ≠ '=' := by
  rcases cs with _ | ⟨c, _ | ⟨a, _ | ⟨b, rest⟩⟩⟩
  · cases h
  · cases h
  · cases h
  · simp only [escape?, Option.bind_eq_bind, Option.bind_eq_some_iff] at h
    rcases h with ⟨high, hhigh, low, hlow, hvalue⟩
    split at hvalue
    · rename_i hc
      refine ⟨a, b, rest, by rw [hc], ?_, ?_⟩
      · rintro rfl
        cases hhigh
      · rintro rfl
        cases hlow
    · cases hvalue

def Piece.counts : Piece → Bool
  | .char c => c != '='
  | .byte _ => true

theorem counts_unplus (c : Char) : (Piece.char (unplus c)).counts = (c != '=') := by
  unfold unplus
  split
  · rename_i hc
    rw [hc]
    rfl
  · rfl

theorem weight_append (cs ds : List Char) : weight (cs ++ ds) = weight cs + weight ds :=
  List.countP_append

theorem weight_equals (cs : List Char) : weight ('=' :: cs) = weight cs := by
  simp [weight]

theorem weight_cons {c : Char} (h : c ≠ '=') (cs : List Char) :
    weight (c :: cs) = weight cs + 1 := by
  simp [weight, h]

/-- A character that is kept is counted on both sides or on neither. -/
theorem weight_cons_sub (c : Char) (cs : List Char) :
    weight (c :: cs) = weight cs + if (Piece.char c).counts then 1 else 0 :=
  List.countP_cons

/-- Bytes are read as no more characters than there are bytes. -/
theorem weight_join (hutf8 : ∀ bytes, (utf8 bytes).length ≤ bytes.length) (bytes : List Nat)
    (ps : List Piece) :
    weight (join utf8 bytes ps) ≤ bytes.length + ps.countP Piece.counts := by
  have hbytes : ∀ bytes, weight (utf8 bytes) ≤ bytes.length := fun bytes =>
    List.countP_le_length.trans (hutf8 bytes)
  induction ps generalizing bytes with
  | nil => exact hbytes bytes
  | cons p ps ih =>
      cases p with
      | byte value =>
          have hrest := ih (bytes ++ [value])
          rw [List.length_append] at hrest
          rw [join, List.countP_cons_of_pos rfl]
          simp only [List.length_cons, List.length_nil] at hrest
          omega
      | char c =>
          have hhead := hbytes bytes
          have hrest := ih []
          rw [List.length_nil] at hrest
          rw [join, weight_append, weight_cons_sub, List.countP_cons]
          omega

/-- An escape has three characters and is one piece. -/
theorem countP_pieces_le (cs : List Char) (skip : Nat) :
    (pieces cs skip).countP Piece.counts ≤ weight (cs.drop skip) := by
  induction cs generalizing skip with
  | nil => simp [pieces]
  | cons c cs ih =>
      cases skip with
      | succ skip => exact ih skip
      | zero =>
          rw [pieces]
          cases hescape : escape? (c :: cs) with
          | none =>
              have hrest := ih 0
              rw [List.drop_zero] at hrest
              rw [List.drop_zero, weight_cons_sub, List.countP_cons, counts_unplus]
              exact Nat.add_le_add_right hrest _
          | some value =>
              rcases escape?_eq_some hescape with ⟨a, b, rest, hcs, ha, hb⟩
              obtain ⟨rfl, rfl⟩ := List.cons_eq_cons.1 hcs
              have hrest := ih 2
              rw [List.drop_succ_cons, List.drop_succ_cons, List.drop_zero] at hrest
              rw [List.drop_zero, weight_cons (by decide), weight_cons ha, weight_cons hb,
                List.countP_cons_of_pos rfl]
              omega

theorem countP_pieces_lt {cs : List Char} (h : hasEscape cs = true) :
    (pieces cs 0).countP Piece.counts < weight cs := by
  induction cs with
  | nil => cases h
  | cons c cs ih =>
      rw [pieces]
      cases hescape : escape? (c :: cs) with
      | none =>
          rw [hasEscape, hescape, Option.isSome_none, Bool.false_or] at h
          have hrest := ih h
          rw [weight_cons_sub, List.countP_cons, counts_unplus]
          exact Nat.add_lt_add_right hrest _
      | some value =>
          rcases escape?_eq_some hescape with ⟨a, b, rest, hcs, ha, hb⟩
          obtain ⟨rfl, rfl⟩ := List.cons_eq_cons.1 hcs
          have hrest := countP_pieces_le (a :: b :: rest) 2
          rw [List.drop_succ_cons, List.drop_succ_cons, List.drop_zero] at hrest
          rw [weight_cons (by decide), weight_cons ha, weight_cons hb, List.countP_cons_of_pos rfl]
          omega

section

variable (hutf8 : ∀ bytes, (utf8 bytes).length ≤ bytes.length)
include hutf8

theorem weight_decode_le (cs : List Char) : weight (decode utf8 cs) ≤ weight cs := by
  have hjoin := weight_join hutf8 [] (pieces cs 0)
  have hpieces := countP_pieces_le cs 0
  rw [List.length_nil] at hjoin
  rw [List.drop_zero] at hpieces
  exact hjoin.trans (by omega)

theorem hasEscape_of_weight {cs : List Char} (h : weight cs ≤ weight (decode utf8 cs)) :
    hasEscape cs = false := by
  by_contra hescape
  have hjoin := weight_join hutf8 [] (pieces cs 0)
  have hpieces := countP_pieces_lt (eq_true_of_ne_false hescape)
  rw [List.length_nil] at hjoin
  unfold decode at h
  omega

end

/-! ## Pairs -/

theorem nameText_append (cs : List Char) : nameText cs ++ cs.dropWhile (· != '=') = cs :=
  List.takeWhile_append_dropWhile

theorem eq_of_dropWhile_bne {cs rest : List Char} {c d : Char}
    (h : cs.dropWhile (· != d) = c :: rest) : c = d := by
  have hne : cs.dropWhile (· != d) ≠ [] := by simp [h]
  simpa [h] using List.head_dropWhile_not (· != d) hne

/-- Only the first equals sign is left out. -/
theorem weight_nameText_valueText (cs : List Char) :
    weight (nameText cs) + weight (valueText cs) = weight cs := by
  have hrest : weight (cs.dropWhile (· != '=')) = weight (valueText cs) := by
    cases hdrop : cs.dropWhile (· != '=') with
    | nil => rw [valueText, hdrop, List.drop_nil]
    | cons c rest =>
        rw [valueText, hdrop, eq_of_dropWhile_bne hdrop, List.drop_succ_cons, List.drop_zero,
          weight_equals]
  conv_rhs => rw [← nameText_append cs, weight_append, hrest]

theorem weight_pairText (pair : List Char × List Char) :
    weight (pairText pair) = weight pair.1 + weight pair.2 := by
  rw [pairText, weight_append]
  simp [weight]

/-- All names and values. -/
def content (pairs : List (List Char × List Char)) : List Char :=
  pairs.flatMap fun pair => pair.1 ++ pair.2

theorem weight_content_cons (pair : List Char × List Char) (pairs : List (List Char × List Char)) :
    weight (content (pair :: pairs)) = weight pair.1 + weight pair.2 + weight (content pairs) := by
  rw [content, List.flatMap_cons, weight_append, weight_append]
  rfl

theorem weight_content_pairText (pairs : List (List Char × List Char)) :
    weight (pairs.map pairText).flatten = weight (content pairs) := by
  induction pairs with
  | nil => rfl
  | cons pair pairs ih =>
      rw [List.map_cons, List.flatten_cons, weight_append, weight_pairText, ih,
        weight_content_cons]

section

variable (hutf8 : ∀ bytes, (utf8 bytes).length ≤ bytes.length)
include hutf8

theorem weight_decodePair_le (cs : List Char) :
    weight (decodePair utf8 cs).1 + weight (decodePair utf8 cs).2 ≤ weight cs := by
  rw [← weight_nameText_valueText cs]
  exact Nat.add_le_add (weight_decode_le hutf8 _) (weight_decode_le hutf8 _)

theorem weight_content_le (texts : List (List Char)) :
    weight (content (texts.map (decodePair utf8))) ≤ weight texts.flatten := by
  induction texts with
  | nil => exact Nat.le_refl _
  | cons cs texts ih =>
      rw [List.map_cons, weight_content_cons, List.flatten_cons, weight_append]
      exact Nat.add_le_add (weight_decodePair_le hutf8 cs) ih

/-- A text that has lost no weight has no escapes. -/
theorem hasEscape_of_weight_content {texts : List (List Char)}
    (h : weight texts.flatten ≤ weight (content (texts.map (decodePair utf8)))) :
    ∀ cs ∈ texts, hasEscape (nameText cs) = false ∧ hasEscape (valueText cs) = false := by
  induction texts with
  | nil => simp
  | cons cs texts ih =>
      have hname : weight (decodePair utf8 cs).1 ≤ weight (nameText cs) :=
        weight_decode_le hutf8 (nameText cs)
      have hvalue : weight (decodePair utf8 cs).2 ≤ weight (valueText cs) :=
        weight_decode_le hutf8 (valueText cs)
      have htext := weight_nameText_valueText cs
      have hrest := weight_content_le hutf8 texts
      rw [List.map_cons, weight_content_cons, List.flatten_cons, weight_append] at h
      have hname' : weight (nameText cs) ≤ weight (decodePair utf8 cs).1 := by omega
      have hvalue' : weight (valueText cs) ≤ weight (decodePair utf8 cs).2 := by omega
      intro ds hds
      rcases List.mem_cons.1 hds with rfl | hmem
      · exact ⟨hasEscape_of_weight hutf8 hname', hasEscape_of_weight hutf8 hvalue'⟩
      · exact ih (by omega) ds hmem

end

/-! ## Separators -/

theorem countP_intercalate {p : Char → Bool} (hp : p '&' = true) {texts : List (List Char)}
    (h : texts ≠ []) :
    (['&'].intercalate texts).countP p + 1 = texts.flatten.countP p + texts.length := by
  induction texts with
  | nil => exact absurd rfl h
  | cons cs texts ih =>
      cases texts with
      | nil => simp
      | cons ds texts =>
          have hrest := ih (List.cons_ne_nil ds texts)
          rw [List.intercalate_cons_cons, List.countP_append, List.countP_append,
            List.flatten_cons, List.countP_append, List.length_cons]
          simp only [List.countP_cons, List.countP_nil, hp, if_true]
          omega

theorem mem_intercalate {texts : List (List Char)} {c : Char} (h : c ∈ ['&'].intercalate texts) :
    c = '&' ∨ ∃ cs ∈ texts, c ∈ cs := by
  induction texts with
  | nil => simp at h
  | cons cs texts ih =>
      cases texts with
      | nil => exact Or.inr ⟨cs, List.mem_cons_self, by simpa using h⟩
      | cons ds texts =>
          rw [List.intercalate_cons_cons, List.mem_append, List.mem_append,
            List.mem_singleton] at h
          rcases h with (hmem | hamp) | hrest
          · exact Or.inr ⟨cs, List.mem_cons_self, hmem⟩
          · exact Or.inl hamp
          · rcases ih hrest with hamp | ⟨es, hes, hmem⟩
            · exact Or.inl hamp
            · exact Or.inr ⟨es, List.mem_cons_of_mem cs hes, hmem⟩

theorem mem_intercalate_of_mem {texts : List (List Char)} {cs : List Char} {c : Char}
    (hcs : cs ∈ texts) (hc : c ∈ cs) : c ∈ ['&'].intercalate texts := by
  induction texts with
  | nil => cases hcs
  | cons ds texts ih =>
      cases texts with
      | nil =>
          rw [List.mem_singleton] at hcs
          rw [List.intercalate_singleton, ← hcs]
          exact hc
      | cons es texts =>
          rw [List.intercalate_cons_cons]
          rcases List.mem_cons.1 hcs with rfl | hmem
          · exact List.mem_append_left _ (List.mem_append_left _ hc)
          · exact List.mem_append_right _ (ih hmem)

theorem beforeFragment_eq_self {text : List Char} (h : '#' ∉ text) :
    beforeFragment text = text := by
  refine List.takeWhile_eq_self_iff.2 fun c hc => ?_
  have hne : c ≠ '#' := fun heq => h (heq ▸ hc)
  simpa using hne

theorem mem_pairText_iff {pair : List Char × List Char} {c : Char} :
    c ∈ pairText pair ↔ c = '=' ∨ c ∈ pair.1 ∨ c ∈ pair.2 := by
  simp only [pairText, List.mem_append, List.mem_cons]
  tauto

/-- Without ampersands in the pairs, the text falls apart into the pairs. -/
theorem parse_plainText {pairs : List (List Char × List Char)} (hfragment : '#' ∉ plainText pairs)
    (hampersand : ∀ pair ∈ pairs, '&' ∉ pairText pair) :
    parse utf8 (beforeFragment (plainText pairs)) =
      pairs.map fun pair => decodePair utf8 (pairText pair) := by
  have hbefore := beforeFragment_eq_self hfragment
  cases pairs with
  | nil => rfl
  | cons pair rest =>
      have hsplit : (plainText (pair :: rest)).splitOn '&' = (pair :: rest).map pairText := by
        refine List.splitOn_intercalate '&' ?_ (by simp)
        intro cs hcs
        rcases List.mem_map.1 hcs with ⟨p, hp, rfl⟩
        exact hampersand p hp
      have hfilter : ((pair :: rest).map pairText).filter (fun cs => !cs.isEmpty) =
          (pair :: rest).map pairText := by
        refine List.filter_eq_self.2 fun cs hcs => ?_
        rcases List.mem_map.1 hcs with ⟨p, -, rfl⟩
        simp [pairText]
      rw [parse, hbefore, hsplit, hfilter, List.map_map]
      rfl

/-! ## Which pairs are read back -/

theorem map_unplus_eq_self {cs : List Char} (h : '+' ∉ cs) : cs.map unplus = cs := by
  induction cs with
  | nil => rfl
  | cons c cs ih =>
      rw [List.mem_cons, not_or] at h
      rw [List.map_cons, unplus, if_neg (Ne.symm h.1), ih h.2]

theorem nameText_pairText {pair : List Char × List Char} (h : '=' ∉ pair.1) :
    nameText (pairText pair) = pair.1 ∧ valueText (pairText pair) = pair.2 := by
  have hall : ∀ c ∈ pair.1, (c != '=') = true := by
    intro c hc
    have hne : c ≠ '=' := fun heq => h (heq ▸ hc)
    simpa using hne
  rw [nameText, valueText, pairText, List.takeWhile_append_of_pos hall,
    List.dropWhile_append_of_pos hall]
  simp

theorem decodePair_of_literal (hutf8 : utf8 [] = []) {pair : List Char × List Char}
    (h : LiteralPair pair) : decodePair utf8 (pairText pair) = pair := by
  have hparts := nameText_pairText h.equals
  rw [decodePair, hparts.1, hparts.2, decode_of_hasEscape hutf8 h.name.escape,
    decode_of_hasEscape hutf8 h.value.escape, map_unplus_eq_self h.name.plus,
    map_unplus_eq_self h.value.plus]

theorem fragment_notMem_plainText {pairs : List (List Char × List Char)}
    (h : ∀ pair ∈ pairs, LiteralPair pair) : '#' ∉ plainText pairs := by
  intro hc
  rcases mem_intercalate hc with heq | ⟨cs, hcs, hmem⟩
  · exact absurd heq (by decide)
  · rcases List.mem_map.1 hcs with ⟨pair, hpair, rfl⟩
    rcases mem_pairText_iff.1 hmem with heq | hname | hvalue
    · exact absurd heq (by decide)
    · exact (h pair hpair).name.fragment hname
    · exact (h pair hpair).value.fragment hvalue

theorem parse_of_literal (hutf8 : utf8 [] = []) {pairs : List (List Char × List Char)}
    (h : ∀ pair ∈ pairs, LiteralPair pair) :
    parse utf8 (beforeFragment (plainText pairs)) = pairs := by
  have hampersand : ∀ pair ∈ pairs, '&' ∉ pairText pair := by
    intro pair hpair hc
    rcases mem_pairText_iff.1 hc with heq | hname | hvalue
    · exact absurd heq (by decide)
    · exact (h pair hpair).name.ampersand hname
    · exact (h pair hpair).value.ampersand hvalue
  rw [parse_plainText (fragment_notMem_plainText h) hampersand]
  calc
    pairs.map (fun pair => decodePair utf8 (pairText pair)) = pairs.map id :=
      List.map_congr_left fun pair hpair => decodePair_of_literal hutf8 (h pair hpair)
    _ = pairs := List.map_id pairs

/-- Texts that are no longer one by one and as long together are as long one by one. -/
theorem length_eq_of_flatMap {α : Type} {f g : α → List Char} {l : List α}
    (hle : ∀ a ∈ l, (f a).length ≤ (g a).length)
    (h : (l.flatMap g).length ≤ (l.flatMap f).length) : ∀ a ∈ l, (g a).length ≤ (f a).length := by
  have htotal : ∀ {l : List α}, (∀ a ∈ l, (f a).length ≤ (g a).length) →
      (l.flatMap f).length ≤ (l.flatMap g).length := by
    intro l hle
    induction l with
    | nil => exact Nat.le_refl _
    | cons a l ih =>
        have hhead := hle a List.mem_cons_self
        have htail := ih fun b hb => hle b (List.mem_cons_of_mem a hb)
        rw [List.flatMap_cons, List.flatMap_cons, List.length_append, List.length_append]
        omega
  induction l with
  | nil => simp
  | cons a l ih =>
      have hhead := hle a List.mem_cons_self
      have hlater : ∀ b ∈ l, (f b).length ≤ (g b).length :=
        fun b hb => hle b (List.mem_cons_of_mem a hb)
      have htail := htotal hlater
      rw [List.flatMap_cons, List.flatMap_cons, List.length_append, List.length_append] at h
      intro b hb
      rcases List.mem_cons.1 hb with rfl | hmem
      · omega
      · exact ih hlater (by omega) b hmem

theorem length_nameText_le (k v : List Char) : (nameText (k ++ '=' :: v)).length ≤ k.length := by
  induction k with
  | nil => simp [nameText]
  | cons c k ih =>
      rw [List.cons_append, nameText, List.takeWhile_cons]
      split
      · exact Nat.succ_le_succ ih
      · simp

theorem equals_notMem {k v : List Char} (h : k.length ≤ (nameText (k ++ '=' :: v)).length) :
    '=' ∉ k := by
  induction k with
  | nil => simp
  | cons c k ih =>
      rw [List.cons_append, nameText, List.takeWhile_cons] at h
      split at h
      · rename_i hc
        rw [List.mem_cons, not_or]
        refine ⟨?_, ih (Nat.le_of_succ_le_succ h)⟩
        rintro rfl
        exact absurd hc (by decide)
      · simp at h

section

variable (hutf8 : ∀ bytes, (utf8 bytes).length ≤ bytes.length)
  {pairs : List (List Char × List Char)}
  (hperm : (parse utf8 (beforeFragment (plainText pairs))).Perm pairs)
include hutf8 hperm

/-- What is read back weighs as much as what was written, so that the text is all there, falls
apart into as many parts as there are pairs, and has no escapes. -/
theorem unchanged_of_perm (hne : pairs ≠ []) :
    '#' ∉ plainText pairs ∧ (∀ pair ∈ pairs, '&' ∉ pairText pair) ∧
      ∀ pair ∈ pairs, hasEscape (nameText (pairText pair)) = false ∧
        hasEscape (valueText (pairText pair)) = false := by
  have hwritten : weight (plainText pairs) + 1 =
      weight (pairs.map pairText).flatten + (pairs.map pairText).length :=
    countP_intercalate rfl (by simpa using hne)
  have hampersands : (plainText pairs).countP (· == '&') + 1 =
      (pairs.map pairText).flatten.countP (· == '&') + (pairs.map pairText).length :=
    countP_intercalate rfl (by simpa using hne)
  generalize htext : plainText pairs = text at *
  -- What is read: the parts of the text before the fragment that are not empty.
  have hread : weight (beforeFragment text) + 1 =
      weight ((beforeFragment text).splitOn '&').flatten +
        ((beforeFragment text).splitOn '&').length := by
    have hcount := countP_intercalate (p := (· != '=')) rfl
      (List.splitOn_ne_nil '&' (beforeFragment text))
    rwa [List.intercalate_splitOn] at hcount
  generalize hparts : (beforeFragment text).splitOn '&' = parts at *
  have hflatten : (parts.filter fun cs => !cs.isEmpty).flatten = parts.flatten :=
    List.flatten_filter_not_isEmpty
  have hparse : parse utf8 (beforeFragment text) =
      (parts.filter fun cs => !cs.isEmpty).map (decodePair utf8) := by
    rw [parse, hparts]
  have hlength : (parts.filter fun cs => !cs.isEmpty).length = pairs.length := by
    simpa [hparse] using hperm.length_eq
  have hfewer : (parts.filter fun cs => !cs.isEmpty).length ≤ parts.length :=
    List.length_filter_le _ _
  have hsame : weight (content (parse utf8 (beforeFragment text))) = weight (content pairs) :=
    (hperm.flatMap_right _).countP_eq _
  have hloss := weight_content_le hutf8 (parts.filter fun cs => !cs.isEmpty)
  have hcontent := weight_content_pairText pairs
  have hcut : weight text =
      weight (beforeFragment text) + weight (text.dropWhile (· != '#')) := by
    rw [← weight_append, beforeFragment, List.takeWhile_append_dropWhile]
  rw [← hparse, hflatten] at hloss
  rw [List.length_map] at hwritten hampersands
  -- Nothing is cut off, and no part is empty.
  have hrest : weight (text.dropWhile (· != '#')) = 0 := by omega
  have hdrop : text.dropWhile (· != '#') = [] := by
    cases hcons : text.dropWhile (· != '#') with
    | nil => rfl
    | cons c rest =>
        rw [hcons, eq_of_dropWhile_bne hcons, weight_cons (by decide)] at hrest
        exact absurd hrest (Nat.succ_ne_zero _)
  have hfragment : '#' ∉ text := by
    intro hmem
    exact absurd (List.dropWhile_eq_nil_iff.1 hdrop '#' hmem) (by decide)
  have hbefore := beforeFragment_eq_self hfragment
  have hkept : weight (parts.filter fun cs => !cs.isEmpty).flatten ≤
      weight (content ((parts.filter fun cs => !cs.isEmpty).map (decodePair utf8))) := by
    rw [← hparse, hflatten]
    omega
  have hescapes := hasEscape_of_weight_content hutf8 hkept
  have hnone : (pairs.map pairText).flatten.countP (· == '&') = 0 := by
    have hcount := Text.length_splitOn '&' text
    rw [← hbefore, hparts, hbefore] at hcount
    rw [List.count] at hcount
    omega
  have hampersand : ∀ pair ∈ pairs, '&' ∉ pairText pair := by
    intro pair hpair hmem
    have hnot := List.countP_eq_zero.1 hnone '&'
      (List.mem_flatten.2 ⟨_, List.mem_map_of_mem hpair, hmem⟩)
    exact hnot rfl
  refine ⟨hfragment, hampersand, fun pair hpair => hescapes _ ?_⟩
  have hsplit : text.splitOn '&' = pairs.map pairText := by
    rw [← htext]
    refine List.splitOn_intercalate '&' ?_ (by simpa using hne)
    intro cs hcs
    rcases List.mem_map.1 hcs with ⟨p, hp, rfl⟩
    exact hampersand p hp
  rw [← hparts, hbefore, hsplit, List.mem_filter]
  exact ⟨List.mem_map_of_mem hpair, by simp [pairText]⟩

end

/-- A text that is written without any encoding is read back when nothing in it has a meaning. -/
theorem perm_parse_iff (hutf8 : ∀ bytes, (utf8 bytes).length ≤ bytes.length)
    (pairs : List (List Char × List Char)) :
    (parse utf8 (beforeFragment (plainText pairs))).Perm pairs ↔
      ∀ pair ∈ pairs, LiteralPair pair := by
  have hnil : utf8 [] = [] := List.length_eq_zero_iff.1 (Nat.le_zero.1 (hutf8 []))
  constructor
  · intro hperm
    by_cases hne : pairs = []
    · simp [hne]
    · rcases unchanged_of_perm hutf8 hperm hne with ⟨hfragment, hampersand, hescape⟩
      have hparse : parse utf8 (beforeFragment (plainText pairs)) =
          pairs.map fun pair => decodePair utf8 (pairText pair) :=
        parse_plainText hfragment hampersand
      have hdecode : ∀ pair ∈ pairs, decodePair utf8 (pairText pair) =
          ((nameText (pairText pair)).map unplus, (valueText (pairText pair)).map unplus) := by
        intro pair hpair
        rw [decodePair, decode_of_hasEscape hnil (hescape pair hpair).1,
          decode_of_hasEscape hnil (hescape pair hpair).2]
      rw [hparse, List.map_congr_left hdecode] at hperm
      -- The names together are as long as they were.
      have hequals : ∀ pair ∈ pairs, '=' ∉ pair.1 := by
        have hnames := (hperm.flatMap_right Prod.fst).length_eq
        rw [List.flatMap_map] at hnames
        have hlong := length_eq_of_flatMap (f := fun pair => (nameText (pairText pair)).map unplus)
          (g := Prod.fst) (l := pairs)
          (fun pair _ => by rw [List.length_map]; exact length_nameText_le pair.1 pair.2)
          hnames.ge
        intro pair hpair
        have hle := hlong pair hpair
        rw [List.length_map] at hle
        exact equals_notMem hle
      have hplus : '+' ∉ content pairs := by
        intro hmem
        have hread := (hperm.flatMap_right fun pair => pair.1 ++ pair.2).mem_iff.2 hmem
        rcases List.mem_flatMap.1 hread with ⟨read, hmap, hin⟩
        rcases List.mem_map.1 hmap with ⟨pair, -, rfl⟩
        rw [← List.map_append] at hin
        rcases List.mem_map.1 hin with ⟨c, -, hc⟩
        exact unplus_ne_plus c hc
      intro pair hpair
      have htexts : ∀ {c : Char}, c ∈ pair.1 ++ pair.2 → c ∈ pairText pair :=
        fun hc => mem_pairText_iff.2 (Or.inr (List.mem_append.1 hc))
      have hliteral : ∀ {cs : List Char}, (∀ c ∈ cs, c ∈ pair.1 ++ pair.2) →
          hasEscape cs = false → Literal cs := by
        intro cs hcs hnone
        exact
          { ampersand := fun hc => hampersand pair hpair (htexts (hcs _ hc))
            plus := fun hc => hplus (List.mem_flatMap.2 ⟨pair, hpair, hcs _ hc⟩)
            fragment := fun hc => hfragment <|
              mem_intercalate_of_mem (List.mem_map_of_mem hpair) (htexts (hcs _ hc))
            escape := hnone }
      have hnone := hescape pair hpair
      rw [(nameText_pairText (hequals pair hpair)).1,
        (nameText_pairText (hequals pair hpair)).2] at hnone
      exact
        { name := hliteral (fun c hc => List.mem_append_left _ hc) hnone.1
          value := hliteral (fun c hc => List.mem_append_right _ hc) hnone.2
          equals := hequals pair hpair }
  · intro hliteral
    rw [parse_of_literal hnil hliteral]

end FormUrlencoded
end InfraWeave
