import InfraWeave.Lib.Text

/-!
# Patterns with wildcards

A pattern is a list of elements, each for one letter of a class or for any number of them.  A word
matches it as a whole, or has a part that does.  Patterns are written as globs, or as the simplest
regular expressions.
-/

namespace InfraWeave

universe u

variable {α : Type u}

/-- An element of a pattern. -/
inductive Wild (α : Type u) where
  | one (class_ : α → Bool)
  | many (class_ : α → Bool)

namespace Wild

def accepts : List (Wild α) → List α → Bool
  | [], w => w.isEmpty
  | .one _ :: _, [] => false
  | .one p :: rest, c :: w => p c && accepts rest w
  | .many p :: rest, w =>
      (List.range (w.length + 1)).any fun n => (w.take n).all p && accepts rest (w.drop n)

def anything : Wild α :=
  .many fun _ => true

/-- Some part of the word matches. -/
def occurs (pattern : List (Wild α)) (w : List α) : Bool :=
  accepts (anything :: (pattern ++ [anything])) w

/-! ## Matches -/

theorem accepts_one {p : α → Bool} {rest : List (Wild α)} {w : List α} :
    accepts (.one p :: rest) w = true ↔ ∃ c v, w = c :: v ∧ p c = true ∧ accepts rest v = true := by
  cases w with
  | nil => simp [accepts]
  | cons c v => simp [accepts]

theorem accepts_many {p : α → Bool} {rest : List (Wild α)} {w : List α} :
    accepts (.many p :: rest) w = true ↔
      ∃ u v, w = u ++ v ∧ (∀ c ∈ u, p c = true) ∧ accepts rest v = true := by
  rw [accepts, List.any_eq_true]
  constructor
  · rintro ⟨n, -, h⟩
    obtain ⟨htake, hdrop⟩ := Bool.and_eq_true_iff.1 h
    exact ⟨w.take n, w.drop n, (List.take_append_drop n w).symm, List.all_eq_true.1 htake, hdrop⟩
  · rintro ⟨u, v, rfl, hu, hv⟩
    refine ⟨u.length, List.mem_range.2 ?_, ?_⟩
    · simp only [List.length_append]
      omega
    · rw [List.take_left, List.drop_left, Bool.and_eq_true_iff]
      exact ⟨List.all_eq_true.2 hu, hv⟩

/-- A word matches two patterns in a row when it splits into two matches. -/
theorem accepts_append {a b : List (Wild α)} {w : List α} :
    accepts (a ++ b) w = true ↔
      ∃ u v, w = u ++ v ∧ accepts a u = true ∧ accepts b v = true := by
  induction a generalizing w with
  | nil =>
      constructor
      · intro h
        exact ⟨[], w, rfl, rfl, h⟩
      · rintro ⟨u, v, rfl, hu, hv⟩
        rw [List.isEmpty_iff.1 hu]
        exact hv
  | cons element rest ih =>
      cases element with
      | one p =>
          rw [List.cons_append, accepts_one]
          constructor
          · rintro ⟨c, v, rfl, hc, h⟩
            obtain ⟨x, y, rfl, hx, hy⟩ := ih.1 h
            exact ⟨c :: x, y, rfl, accepts_one.2 ⟨c, x, rfl, hc, hx⟩, hy⟩
          · rintro ⟨u, v, rfl, hu, hv⟩
            obtain ⟨c, x, rfl, hc, hx⟩ := accepts_one.1 hu
            exact ⟨c, x ++ v, rfl, hc, ih.2 ⟨x, v, rfl, hx, hv⟩⟩
      | many p =>
          rw [List.cons_append, accepts_many]
          constructor
          · rintro ⟨s, v, rfl, hs, h⟩
            obtain ⟨x, y, rfl, hx, hy⟩ := ih.1 h
            exact ⟨s ++ x, y, (List.append_assoc s x y).symm, accepts_many.2 ⟨s, x, rfl, hs, hx⟩, hy⟩
          · rintro ⟨u, v, rfl, hu, hv⟩
            obtain ⟨s, x, rfl, hs, hx⟩ := accepts_many.1 hu
            exact ⟨s, x ++ v, List.append_assoc s x v, hs, ih.2 ⟨x, v, rfl, hx, hv⟩⟩

theorem accepts_anything (w : List α) : accepts [anything] w = true :=
  accepts_many.2 ⟨w, [], (List.append_nil w).symm, fun _ _ => rfl, rfl⟩

/-- A word with a part that matches. -/
theorem occurs_iff {pattern : List (Wild α)} {w : List α} :
    occurs pattern w = true ↔ ∃ part, part <:+: w ∧ accepts pattern part = true := by
  unfold occurs anything
  rw [accepts_many]
  constructor
  · rintro ⟨before, rest, rfl, -, h⟩
    obtain ⟨part, after, rfl, hpart, -⟩ := accepts_append.1 h
    exact ⟨part, ⟨before, after, by rw [List.append_assoc]⟩, hpart⟩
  · rintro ⟨part, ⟨before, after, rfl⟩, hpart⟩
    refine ⟨before, part ++ after, List.append_assoc _ _ _, fun _ _ => rfl, ?_⟩
    exact accepts_append.2 ⟨part, after, rfl, hpart, accepts_anything after⟩

theorem occurs_of_accepts {pattern : List (Wild α)} {w : List α} (h : accepts pattern w = true) :
    occurs pattern w = true :=
  occurs_iff.2 ⟨w, List.infix_refl w, h⟩

/-! ## Wider patterns -/

/-- Among the letters that are `Plain`, what `a` stands for `b` stands for too. -/
def Wider (Plain : α → Prop) : Wild α → Wild α → Prop
  | .one p, .one q => ∀ c, Plain c → p c = true → q c = true
  | .many p, .many q => ∀ c, Plain c → p c = true → q c = true
  | _, _ => False

theorem accepts_of_wider {Plain : α → Prop} {a b : List (Wild α)} {w : List α}
    (hwider : List.Forall₂ (Wider Plain) a b) (hw : ∀ c ∈ w, Plain c)
    (h : accepts a w = true) : accepts b w = true := by
  induction hwider generalizing w with
  | nil => exact h
  | @cons x y rest rest' hxy hrest ih =>
      cases x with
      | one p =>
          cases y with
          | many q => exact hxy.elim
          | one q =>
              obtain ⟨c, v, rfl, hc, hv⟩ := accepts_one.1 h
              have hv' := ih (fun d hd => hw d (List.mem_cons_of_mem c hd)) hv
              exact accepts_one.2 ⟨c, v, rfl, hxy c (hw c List.mem_cons_self) hc, hv'⟩
      | many p =>
          cases y with
          | one q => exact hxy.elim
          | many q =>
              obtain ⟨u, v, rfl, hu, hv⟩ := accepts_many.1 h
              have hu' : ∀ c ∈ u, q c = true := fun c hc =>
                hxy c (hw c (List.mem_append_left v hc)) (hu c hc)
              have hv' := ih (fun c hc => hw c (List.mem_append_right u hc)) hv
              exact accepts_many.2 ⟨u, v, rfl, hu', hv'⟩

/-! ## Globs and expressions -/

/-- In a glob, `*` stands for any text and every other character for itself. -/
def globElement (c : Char) : Wild Char :=
  if c = '*' then anything else .one fun d => d = c

def glob (pattern : String) : List (Wild Char) :=
  pattern.toList.map globElement

/-- The characters that a regular expression does not read as themselves. -/
def isMeta (c : Char) : Bool :=
  "\\.+*?()|[]\x7b\x7d^$".toList.contains c

/-- The simplest elements of regular expressions. -/
inductive Atom where
  | literal (c : Char)
  | escaped (c : Char)
  | dot
  | dotStar
  deriving DecidableEq

namespace Atom

/-- As part of an expression. -/
def text : Atom → List Char
  | .literal c => [c]
  | .escaped c => ['\\', c]
  | .dot => ['.']
  | .dotStar => ['.', '*']

/-- A dot does not stand for the line feed. -/
def element : Atom → Wild Char
  | .literal c => .one fun d => d = c
  | .escaped c => .one fun d => d = c
  | .dot => .one fun d => d ≠ '\n'
  | .dotStar => .many fun d => d ≠ '\n'

/-- A literal means itself, and an escaped character is one that may be escaped. -/
def Plain : Atom → Prop
  | .literal c => isMeta c = false
  | .escaped c => isMeta c = true ∨ c = '/'
  | .dot => True
  | .dotStar => True

end Atom

def expressionText (atoms : List Atom) : String :=
  .ofList (atoms.flatMap Atom.text)

/-- What an engine for regular expressions documents: an expression of simple elements that it
compiles is found in a text with a part that matches. -/
def SearchesFor (compile : String → Option (String → Bool)) : Prop :=
  ∀ atoms : List Atom, (∀ atom ∈ atoms, atom.Plain) → ∀ isMatch,
    compile (expressionText atoms) = some isMatch →
      ∀ text, isMatch text = occurs (atoms.map Atom.element) text.toList

end Wild
end InfraWeave
