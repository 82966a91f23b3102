import InfraWeave.Lib.Text

/-!
# Tokens in a text

A lexer reads a token at the start of a text.  The tokens of a text are read from left to right, and
after a token its characters are passed, which is how the matches of a regular expression are found
one after the other.  The tokens here open with a brace that is doubled and does not occur again in
them, so they do not overlap: a token is read wherever the lexer reads one.

Replacing every occurrence of the text of one token after the other gives what replacing the tokens
gives, when what is put in their place cannot be read as a token again.
-/

namespace InfraWeave

universe u v

structure Lexer (α : Type u) where
  read : List Char → Option α
  text : α → List Char
  text_prefix : ∀ {cs a}, read cs = some a → text a <+: cs
  /-- What comes after a token does not matter. -/
  read_of_prefix : ∀ {cs ds a}, read cs = some a → text a <+: ds → read ds = some a
  text_ne_nil : ∀ {cs a}, read cs = some a → text a ≠ []

namespace Lexer

variable {α : Type u} (lexer : Lexer α)

/-- The characters and tokens of a text; `skip` characters are still to be passed. -/
def piecesFrom : List Char → Nat → List (Char ⊕ α)
  | [], _ => []
  | _ :: cs, skip + 1 => piecesFrom cs skip
  | c :: cs, 0 =>
      match lexer.read (c :: cs) with
      | some a => .inr a :: piecesFrom cs ((lexer.text a).length - 1)
      | none => .inl c :: piecesFrom cs 0

def pieces (cs : List Char) : List (Char ⊕ α) :=
  lexer.piecesFrom cs 0

def tokens (cs : List Char) : List α :=
  (lexer.pieces cs).filterMap Sum.getRight?

/-- The text with its tokens replaced. -/
def substitute (f : α → List Char) (cs : List Char) : List Char :=
  (lexer.pieces cs).flatMap (Sum.elim (fun c => [c]) f)

variable {lexer}

/-! ## Pieces -/

theorem piecesFrom_eq (cs : List Char) (skip : Nat) :
    lexer.piecesFrom cs skip = lexer.pieces (cs.drop skip) := by
  induction cs generalizing skip with
  | nil => simp [piecesFrom, pieces]
  | cons c cs ih =>
      cases skip with
      | zero => rfl
      | succ skip => exact ih skip

@[simp] theorem pieces_nil : lexer.pieces [] = [] := rfl

theorem pieces_cons {c : Char} {cs : List Char} (h : lexer.read (c :: cs) = none) :
    lexer.pieces (c :: cs) = .inl c :: lexer.pieces cs := by
  simp only [pieces, piecesFrom, h]

theorem pieces_token {a : α} {rest : List Char}
    (h : lexer.read (lexer.text a ++ rest) = some a) :
    lexer.pieces (lexer.text a ++ rest) = .inr a :: lexer.pieces rest := by
  obtain ⟨c, cs, htext⟩ := List.exists_cons_of_ne_nil (lexer.text_ne_nil h)
  have hdrop : (cs ++ rest).drop ((lexer.text a).length - 1) = rest := by simp [htext]
  rw [htext, List.cons_append] at h ⊢
  simp only [pieces, piecesFrom, h]
  rw [piecesFrom_eq, hdrop]
  rfl

variable (lexer) in
/-- Induction on the pieces of a text. -/
theorem pieces_induction {p : List Char → Prop} (nil : p [])
    (token : ∀ a rest, lexer.read (lexer.text a ++ rest) = some a → p rest →
      p (lexer.text a ++ rest))
    (char : ∀ c cs, lexer.read (c :: cs) = none → p cs → p (c :: cs)) (cs : List Char) : p cs := by
  induction hlength : cs.length using Nat.strong_induction_on generalizing cs with
  | _ n ih =>
      subst hlength
      cases cs with
      | nil => exact nil
      | cons c cs =>
          cases hread : lexer.read (c :: cs) with
          | none => exact char c cs hread (ih cs.length (by simp) cs rfl)
          | some a =>
              obtain ⟨rest, htext⟩ := lexer.text_prefix hread
              have hpos : 0 < (lexer.text a).length :=
                List.length_pos_iff.2 (lexer.text_ne_nil hread)
              have hshort : rest.length < (c :: cs).length := by
                rw [← htext, List.length_append]
                omega
              rw [← htext] at hread ⊢
              exact token a rest hread (ih rest.length hshort rest rfl)

@[simp] theorem tokens_nil : lexer.tokens [] = [] := rfl

theorem tokens_cons {c : Char} {cs : List Char} (h : lexer.read (c :: cs) = none) :
    lexer.tokens (c :: cs) = lexer.tokens cs := by
  rw [tokens, pieces_cons h]
  rfl

theorem tokens_token {a : α} {rest : List Char} (h : lexer.read (lexer.text a ++ rest) = some a) :
    lexer.tokens (lexer.text a ++ rest) = a :: lexer.tokens rest := by
  rw [tokens, pieces_token h]
  rfl

@[simp] theorem substitute_nil (f : α → List Char) : lexer.substitute f [] = [] := rfl

theorem substitute_cons {c : Char} {cs : List Char} (h : lexer.read (c :: cs) = none)
    (f : α → List Char) : lexer.substitute f (c :: cs) = c :: lexer.substitute f cs := by
  simp [substitute, pieces_cons h]

theorem substitute_token {a : α} {rest : List Char}
    (h : lexer.read (lexer.text a ++ rest) = some a) (f : α → List Char) :
    lexer.substitute f (lexer.text a ++ rest) = f a ++ lexer.substitute f rest := by
  simp [substitute, pieces_token h]

theorem substitute_text (cs : List Char) : lexer.substitute lexer.text cs = cs := by
  induction cs using pieces_induction lexer with
  | nil => rfl
  | token a rest h ih => rw [substitute_token h, ih]
  | char c cs h ih => rw [substitute_cons h, ih]

theorem substitute_congr {f g : α → List Char} {cs : List Char}
    (h : ∀ a ∈ lexer.tokens cs, f a = g a) : lexer.substitute f cs = lexer.substitute g cs := by
  induction cs using pieces_induction lexer with
  | nil => rfl
  | token a rest hread ih =>
      rw [tokens_token hread] at h
      rw [substitute_token hread, substitute_token hread, h a List.mem_cons_self,
        ih fun b hb => h b (List.mem_cons_of_mem _ hb)]
  | char c cs hread ih =>
      rw [tokens_cons hread] at h
      rw [substitute_cons hread, substitute_cons hread, ih h]

/-- The lexer that reads only some of the tokens. -/
def filter (lexer : Lexer α) (p : α → Bool) : Lexer α where
  read cs := (lexer.read cs).filter p
  text := lexer.text
  text_prefix h := lexer.text_prefix (Option.filter_eq_some_iff.1 h).1
  read_of_prefix h hprefix :=
    have hread := Option.filter_eq_some_iff.1 h
    Option.filter_eq_some_iff.2 ⟨lexer.read_of_prefix hread.1 hprefix, hread.2⟩
  text_ne_nil h := lexer.text_ne_nil (Option.filter_eq_some_iff.1 h).1

/-! ## Tokens in double braces -/

/-- The tokens open with two braces, and have no third one. -/
def Braced (lexer : Lexer α) (brace : Char) : Prop :=
  ∀ {cs a}, lexer.read cs = some a →
    ∃ body, lexer.text a = brace :: brace :: body ∧ brace ∉ body ∧ body ≠ []

/-- A text that opens with a mark and one brace, and has neither again. -/
def Marked (mark brace : Char) (cs : List Char) : Prop :=
  ∃ body, cs = mark :: brace :: body ∧ mark ∉ brace :: body ∧ brace ∉ body ∧ body ≠ []

/-- No token starts within a token. -/
def Separate (lexer : Lexer α) : Prop :=
  ∀ {cs a}, lexer.read cs = some a → ∀ {u w}, lexer.text a = u ++ w → u ≠ [] → w ≠ [] →
    ∀ rest, lexer.read (w ++ rest) = none

theorem Braced.separate {brace : Char} (hbraced : lexer.Braced brace) : lexer.Separate := by
  intro cs a h u w htext hu hw rest
  cases hread : lexer.read (w ++ rest) with
  | none => rfl
  | some b =>
      exfalso
      obtain ⟨body, ha, hbody, hne⟩ := hbraced h
      obtain ⟨body', hb, -, -⟩ := hbraced hread
      obtain ⟨tail, htail⟩ := lexer.text_prefix hread
      obtain ⟨c, u, rfl⟩ := List.exists_cons_of_ne_nil hu
      obtain ⟨d, w, rfl⟩ := List.exists_cons_of_ne_nil hw
      have hd : d = brace := by
        rw [hb] at htail
        simpa using (congrArg List.head? htail).symm
      subst hd
      have hrest : d :: body = u ++ d :: w := by
        rw [ha] at htext
        exact (List.cons.inj htext).2
      -- The brace that `w` starts with is the second one of the token.
      cases u with
      | nil =>
          obtain rfl : body = w := (List.cons.inj hrest).2
          obtain ⟨e, body, rfl⟩ := List.exists_cons_of_ne_nil hne
          rw [hb] at htail
          have he : d = e := by simpa using congrArg (fun cs => cs.tail.head?) htail
          exact hbody (by simp [he])
      | cons e u =>
          have hmem : body = u ++ d :: w := (List.cons.inj hrest).2
          exact hbody (by simp [hmem])

theorem separate_of_marked {mark brace : Char}
    (hmarked : ∀ {cs a}, lexer.read cs = some a → Marked mark brace (lexer.text a)) :
    lexer.Separate := by
  intro cs a h u w htext hu hw rest
  cases hread : lexer.read (w ++ rest) with
  | none => rfl
  | some b =>
      exfalso
      obtain ⟨body, ha, hmark, -, -⟩ := hmarked h
      obtain ⟨body', hb, -, -, -⟩ := hmarked hread
      obtain ⟨tail, htail⟩ := lexer.text_prefix hread
      obtain ⟨c, u, rfl⟩ := List.exists_cons_of_ne_nil hu
      obtain ⟨d, w, rfl⟩ := List.exists_cons_of_ne_nil hw
      have hd : d = mark := by
        rw [hb] at htail
        simpa using (congrArg List.head? htail).symm
      subst hd
      have hrest : brace :: body = u ++ d :: w := by
        rw [ha] at htext
        exact (List.cons.inj htext).2
      exact hmark (by simp [hrest])

/-- The tokens of a text are read at all its positions. -/
theorem mem_tokens_iff (hseparate : lexer.Separate) {a : α} {cs : List Char} :
    a ∈ lexer.tokens cs ↔ ∃ ds, ds <:+ cs ∧ lexer.read ds = some a := by
  induction cs using pieces_induction lexer with
  | nil =>
      simp only [tokens_nil, List.not_mem_nil, false_iff, List.suffix_nil]
      rintro ⟨ds, rfl, hread⟩
      exact lexer.text_ne_nil hread (List.prefix_nil.1 (lexer.text_prefix hread))
  | char c cs h ih =>
      rw [tokens_cons h, ih]
      constructor
      · rintro ⟨ds, hds, hread⟩
        exact ⟨ds, hds.trans (List.suffix_cons c cs), hread⟩
      · rintro ⟨ds, hds, hread⟩
        rcases List.suffix_cons_iff.1 hds with rfl | hds
        · rw [h] at hread
          cases hread
        · exact ⟨ds, hds, hread⟩
  | token b rest h ih =>
      rw [tokens_token h, List.mem_cons, ih]
      constructor
      · rintro (rfl | ⟨ds, hds, hread⟩)
        · exact ⟨_, List.suffix_rfl, h⟩
        · exact ⟨ds, hds.trans (List.suffix_append _ _), hread⟩
      · rintro ⟨ds, ⟨u, hu⟩, hread⟩
        rcases List.append_eq_append_iff.1 hu with ⟨w, htext, rfl⟩ | ⟨w, -, hrest⟩
        · cases w with
          | nil => exact Or.inr ⟨rest, List.suffix_rfl, hread⟩
          | cons d w =>
              cases u with
              | nil =>
                  have hsame : lexer.text b = d :: w := htext
                  rw [← hsame, h] at hread
                  exact Or.inl (Option.some.inj hread).symm
              | cons c u =>
                  rw [hseparate h htext (by simp) (by simp)] at hread
                  cases hread
        · exact Or.inr ⟨ds, ⟨w, hrest.symm⟩, hread⟩

theorem mem_tokens_cons_iff (hseparate : lexer.Separate) {a : α} {c : Char} {cs : List Char} :
    a ∈ lexer.tokens (c :: cs) ↔ lexer.read (c :: cs) = some a ∨ a ∈ lexer.tokens cs := by
  rw [mem_tokens_iff hseparate, mem_tokens_iff hseparate]
  constructor
  · rintro ⟨ds, hds, hread⟩
    rcases List.suffix_cons_iff.1 hds with rfl | hds
    · exact Or.inl hread
    · exact Or.inr ⟨ds, hds, hread⟩
  · rintro (hread | ⟨ds, hds, hread⟩)
    · exact ⟨_, List.suffix_rfl, hread⟩
    · exact ⟨ds, hds.trans (List.suffix_cons c cs), hread⟩

/-- Tokens that open with a mark start at no other character. -/
theorem mem_tokens_append_iff {mark brace : Char}
    (hmarked : ∀ {cs a}, lexer.read cs = some a → Marked mark brace (lexer.text a)) {a : α}
    {xs : List Char} (hxs : mark ∉ xs) (ys : List Char) :
    a ∈ lexer.tokens (xs ++ ys) ↔ a ∈ lexer.tokens ys := by
  induction xs with
  | nil => rfl
  | cons x xs ih =>
      simp only [List.mem_cons, not_or] at hxs
      rw [List.cons_append, mem_tokens_cons_iff (separate_of_marked hmarked), ih hxs.2]
      refine or_iff_right ?_
      intro hread
      obtain ⟨body, htext, -, -, -⟩ := hmarked hread
      have hprefix := lexer.text_prefix hread
      rw [htext, List.cons_prefix_cons] at hprefix
      exact hxs.1 hprefix.1

/-! ## Replacing tokens -/

section

variable {mark brace : Char} (hbraced : lexer.Braced brace) {f : α → List Char}
  (hf : ∀ {cs a}, lexer.read cs = some a → f a = lexer.text a ∨ Marked mark brace (f a))

include hbraced hf

/-- Replacing tokens changes no text without marks and braces. -/
theorem prefix_substitute_iff {w : List Char} (hw : mark ∉ w) (hw' : brace ∉ w) (cs : List Char) :
    w <+: lexer.substitute f cs ↔ w <+: cs := by
  induction cs using pieces_induction lexer generalizing w with
  | nil => simp
  | char c cs h ih =>
      rw [substitute_cons h]
      cases w with
      | nil => simp
      | cons d w =>
          simp only [List.mem_cons, not_or] at hw hw'
          rw [List.cons_prefix_cons, List.cons_prefix_cons, ih hw.2 hw'.2]
  | token a rest h _ =>
      rw [substitute_token h]
      cases w with
      | nil => simp
      | cons d w =>
          simp only [List.mem_cons, not_or] at hw hw'
          obtain ⟨body, htext, -, -⟩ := hbraced h
          have hleft : ¬ d :: w <+: f a ++ lexer.substitute f rest := by
            rcases hf h with hsame | ⟨body', hmarked, -, -, -⟩
            · rw [hsame, htext, List.cons_append, List.cons_prefix_cons]
              exact fun hd => hw'.1 hd.1.symm
            · rw [hmarked, List.cons_append, List.cons_prefix_cons]
              exact fun hd => hw.1 hd.1.symm
          have hright : ¬ d :: w <+: lexer.text a ++ rest := by
            rw [htext, List.cons_append, List.cons_prefix_cons]
            exact fun hd => hw'.1 hd.1.symm
          exact iff_of_false hleft hright

/-- The same for a text that starts with one brace. -/
theorem brace_prefix_substitute_iff {w : List Char} (hne : w ≠ []) (hw : mark ∉ w)
    (hw' : brace ∉ w) (cs : List Char) :
    brace :: w <+: lexer.substitute f cs ↔ brace :: w <+: cs := by
  obtain ⟨d, w, rfl⟩ := List.exists_cons_of_ne_nil hne
  have hd : brace ≠ d := fun h => hw' (by simp [h])
  induction cs using pieces_induction lexer with
  | nil => simp
  | char c cs h _ =>
      rw [substitute_cons h, List.cons_prefix_cons, List.cons_prefix_cons,
        prefix_substitute_iff hbraced hf hw hw']
  | token a rest h _ =>
      rw [substitute_token h]
      obtain ⟨body, htext, -, -⟩ := hbraced h
      have htwo : ∀ tail, ¬ brace :: d :: w <+: brace :: brace :: tail := by
        intro tail
        rw [List.cons_prefix_cons, List.cons_prefix_cons]
        exact fun h => hd h.2.1.symm
      have hleft : ¬ brace :: d :: w <+: f a ++ lexer.substitute f rest := by
        rcases hf h with hsame | ⟨body', hmarked, hmark, -, -⟩
        · rw [hsame, htext]
          exact htwo _
        · rw [hmarked, List.cons_append, List.cons_prefix_cons]
          exact fun h => hmark (by simp [h.1])
      have hright : ¬ brace :: d :: w <+: lexer.text a ++ rest := by
        rw [htext]
        exact htwo _
      exact iff_of_false hleft hright

end

/-- No text with two braces starts within a marked text. -/
theorem Marked.not_start {mark brace : Char} {cs u w : List Char} (h : Marked mark brace cs)
    (hcs : cs = u ++ w) (hw : w ≠ []) (body rest : List Char) :
    ¬ brace :: brace :: body <+: w ++ rest := by
  intro hprefix
  obtain ⟨tail, rfl, hmark, hbrace, hne⟩ := h
  obtain ⟨c, w, rfl⟩ := List.exists_cons_of_ne_nil hw
  rw [List.cons_append, List.cons_prefix_cons] at hprefix
  obtain ⟨rfl, hprefix⟩ := hprefix
  cases u with
  | nil => exact hmark (by simp [(List.cons.inj hcs).1])
  | cons d u =>
      have htail := (List.cons.inj hcs).2
      cases u with
      | nil =>
          obtain rfl : tail = w := (List.cons.inj htail).2
          obtain ⟨x, tail, rfl⟩ := List.exists_cons_of_ne_nil hne
          rw [List.cons_append, List.cons_prefix_cons] at hprefix
          exact hbrace (by simp [ hprefix.1])
      | cons d u =>
          have hmem : tail = u ++ brace :: w := (List.cons.inj htail).2
          exact hbrace (by simp [hmem])

section

variable {mark brace : Char} (hbraced : lexer.Braced brace)
  (hplain : ∀ {cs a}, lexer.read cs = some a → mark ∉ lexer.text a) {f : α → List Char}
  (hf : ∀ {cs a}, lexer.read cs = some a → Marked mark brace (f a))

include hbraced hplain hf

/-- Replacing the occurrences of the text of a token replaces that token, whichever tokens have been
replaced before. -/
theorem replaceChars_substitute [DecidableEq α] (done : List α) {t : α} {ds : List Char}
    (ht : lexer.read ds = some t) (cs : List Char) :
    Text.replaceChars (lexer.text t) (f t)
        (lexer.substitute (fun a => if a ∈ done then f a else lexer.text a) cs) 0 =
      lexer.substitute (fun a => if a ∈ t :: done then f a else lexer.text a) cs := by
  obtain ⟨body, htext, hbody, hne⟩ := hbraced ht
  have hmark : mark ∉ body := fun h => hplain ht (by simp [htext, h])
  have hpartial : ∀ {cs a}, lexer.read cs = some a →
      (if a ∈ done then f a else lexer.text a) = lexer.text a ∨
        Marked mark brace (if a ∈ done then f a else lexer.text a) := by
    intro cs a h
    split
    · exact Or.inr (hf h)
    · exact Or.inl rfl
  induction cs using pieces_induction lexer with
  | nil => rfl
  | char c cs h ih =>
      rw [substitute_cons h, substitute_cons h, ← ih]
      refine Text.replaceChars_cons ?_ _
      rw [htext, List.cons_prefix_cons]
      rintro ⟨rfl, hrest⟩
      have hhere := (brace_prefix_substitute_iff hbraced hpartial hne hmark hbody cs).1 hrest
      have hprefix : lexer.text t <+: brace :: cs := by
        rw [htext, List.cons_prefix_cons]
        exact ⟨rfl, hhere⟩
      have hread := lexer.read_of_prefix ht hprefix
      rw [h] at hread
      cases hread
  | token a rest h ih =>
      rw [substitute_token h, substitute_token h, ← ih]
      by_cases hdone : a ∈ done
      · rw [if_pos hdone, if_pos (List.mem_cons_of_mem _ hdone)]
        refine Text.replaceChars_append ?_ _
        intro u w hu hw
        rw [htext]
        exact (hf h).not_start hu hw _ _
      · by_cases hsame : a = t
        · subst hsame
          rw [if_neg hdone, if_pos List.mem_cons_self]
          exact Text.replaceChars_self (lexer.text_ne_nil ht) _ _
        · rw [if_neg hdone, if_neg (by simp [hsame, hdone])]
          refine Text.replaceChars_append ?_ _
          intro u w hu hw hprefix
          have hread := lexer.read_of_prefix ht hprefix
          cases u with
          | nil =>
              have hwhole : lexer.text a = w := hu
              have hread' := lexer.read_of_prefix h (List.prefix_append (lexer.text a)
                (lexer.substitute (fun a => if a ∈ done then f a else lexer.text a) rest))
              rw [hwhole, hread] at hread'
              exact hsame (Option.some.inj hread').symm
          | cons c u =>
              rw [hbraced.separate h hu (by simp) hw] at hread
              cases hread

/-- Replacing the occurrences of one token after the other replaces the tokens. -/
theorem foldl_replaceChars (cs : List Char) :
    (lexer.tokens cs).foldl (fun cs a => Text.replaceChars (lexer.text a) (f a) cs 0) cs =
      lexer.substitute f cs := by
  classical
  have hfold : ∀ (todo done : List α), (∀ a ∈ todo, a ∈ lexer.tokens cs) →
      todo.foldl (fun cs a => Text.replaceChars (lexer.text a) (f a) cs 0)
          (lexer.substitute (fun a => if a ∈ done then f a else lexer.text a) cs) =
        lexer.substitute (fun a => if a ∈ todo.reverse ++ done then f a else lexer.text a) cs := by
    intro todo
    induction todo with
    | nil => intro done _; rfl
    | cons t todo ih =>
        intro done htodo
        obtain ⟨ds, -, ht⟩ := (mem_tokens_iff hbraced.separate).1 (htodo t List.mem_cons_self)
        rw [List.foldl_cons, replaceChars_substitute hbraced hplain hf done ht,
          ih (t :: done) fun a ha => htodo a (List.mem_cons_of_mem _ ha)]
        simp
  calc (lexer.tokens cs).foldl (fun cs a => Text.replaceChars (lexer.text a) (f a) cs 0) cs
      = (lexer.tokens cs).foldl (fun cs a => Text.replaceChars (lexer.text a) (f a) cs 0)
          (lexer.substitute (fun a => if a ∈ ([] : List α) then f a else lexer.text a) cs) := by
        simp [substitute_text]
    _ = lexer.substitute
          (fun a => if a ∈ (lexer.tokens cs).reverse ++ [] then f a else lexer.text a) cs :=
        hfold _ [] fun _ h => h
    _ = lexer.substitute f cs := substitute_congr fun a ha => if_pos (by simp [ha])

end

/-! ## Marked tokens of a text with replaced tokens -/

/-- The marked tokens of a text in which braced tokens have been replaced by marked ones are those
of the text and those that have been put in. -/
theorem mem_tokens_substitute_iff {β : Type v} {marked : Lexer β} {mark brace : Char}
    (hbraced : lexer.Braced brace)
    (hplain : ∀ {cs a}, lexer.read cs = some a → mark ∉ lexer.text a)
    (hmarked : ∀ {cs b}, marked.read cs = some b → Marked mark brace (marked.text b))
    {f : α → List Char} {g : α → β}
    (hf : ∀ {cs a}, lexer.read cs = some a → Marked mark brace (f a))
    (hg : ∀ {cs a}, lexer.read cs = some a → marked.read (f a) = some (g a)) {b : β}
    (cs : List Char) :
    b ∈ marked.tokens (lexer.substitute f cs) ↔
      b ∈ marked.tokens cs ∨ ∃ a ∈ lexer.tokens cs, g a = b := by
  have hseparate : marked.Separate := separate_of_marked hmarked
  have hstands : ∀ {cs a}, lexer.read cs = some a →
      f a = lexer.text a ∨ Marked mark brace (f a) := fun h => Or.inr (hf h)
  induction cs using pieces_induction lexer with
  | nil => simp
  | char c cs h ih =>
      have hread : marked.read (c :: lexer.substitute f cs) = some b ↔
          marked.read (c :: cs) = some b := by
        constructor
        · intro hb
          obtain ⟨body, htext, hmark, hbrace, hne⟩ := hmarked hb
          have hprefix := marked.text_prefix hb
          rw [htext, List.cons_prefix_cons, brace_prefix_substitute_iff hbraced hstands hne
            (fun hm => hmark (List.mem_cons_of_mem _ hm)) hbrace] at hprefix
          refine marked.read_of_prefix hb ?_
          rw [htext, List.cons_prefix_cons]
          exact hprefix
        · intro hb
          obtain ⟨body, htext, hmark, hbrace, hne⟩ := hmarked hb
          have hprefix := marked.text_prefix hb
          rw [htext, List.cons_prefix_cons] at hprefix
          refine marked.read_of_prefix hb ?_
          rw [htext, List.cons_prefix_cons, brace_prefix_substitute_iff hbraced hstands hne
            (fun hm => hmark (List.mem_cons_of_mem _ hm)) hbrace]
          exact hprefix
      rw [substitute_cons h, tokens_cons h, mem_tokens_cons_iff hseparate,
        mem_tokens_cons_iff hseparate, hread, or_assoc]
      exact or_congr_right ih
  | token a rest h ih =>
      have hput : b ∈ marked.tokens (f a ++ lexer.substitute f rest) ↔
          g a = b ∨ b ∈ marked.tokens (lexer.substitute f rest) := by
        have hread : marked.read (f a ++ lexer.substitute f rest) = some (g a) :=
          marked.read_of_prefix (hg h)
            ((marked.text_prefix (hg h)).trans (List.prefix_append _ _))
        obtain ⟨body, htext, hmark, -, -⟩ := hf h
        rw [htext, List.cons_append] at hread ⊢
        rw [mem_tokens_cons_iff hseparate, mem_tokens_append_iff hmarked hmark, hread,
          Option.some_inj]
      rw [substitute_token h, tokens_token h, hput, mem_tokens_append_iff hmarked (hplain h)]
      simp only [List.mem_cons, exists_eq_or_imp]
      rw [or_left_comm]
      exact or_congr_right ih

end Lexer
end InfraWeave
