import Mathlib.Data.Finite.Defs
import Mathlib.Data.Set.Finite.List
import Mathlib.Logic.Relation
import Mathlib.Order.WellFounded
import Mathlib.Data.Fintype.Order

/-!
# Sources behind nodes that are passed through

A node that is passed through stands for what its edges lead to.  Some of these nodes are roots: when
nothing lies behind a root, it stands for itself.  Where the nodes that are passed through have no
cycle, what a node stands for is found by going through its edges.
-/

namespace InfraWeave
namespace PassThrough

open Relation

universe u

variable {α : Type u} (pass root : α → Prop) (edge : α → α → Prop)

/-- An edge of a node that is passed through. -/
def Step (a b : α) : Prop :=
  pass a ∧ edge a b

/-- The node can stand for itself. -/
def Anchor (a : α) : Prop :=
  ¬ pass a ∨ root a

/-- The node stands for itself: it is not passed through, or it is a root with no such node behind
it. -/
def Stops (a : α) : Prop :=
  ¬ pass a ∨ root a ∧ ∀ b, TransGen (Step pass edge) a b → ¬ Anchor pass root b

/-- The second node is one that the first stands for. -/
def IsSource (a s : α) : Prop :=
  ReflTransGen (Step pass edge) a s ∧ Stops pass root edge s

/-- Nothing that is passed through on the way from the node lies on a cycle. -/
def Acyclic (a : α) : Prop :=
  ∀ b, ReflTransGen (Step pass edge) a b → ¬ TransGen (Step pass edge) b b

variable {pass root edge} {a b s : α}

theorem Stops.anchor (h : Stops pass root edge a) : Anchor pass root a :=
  h.imp_right And.left

theorem Acyclic.of_step (h : Acyclic pass edge a) (hab : Step pass edge a b) :
    Acyclic pass edge b :=
  fun c hbc => h c (hbc.head hab)

/-- Nodes that come later the further one goes have no cycle. -/
theorem acyclic_of_rank (rank : α → ℕ) (h : ∀ a b, Step pass edge a b → rank b < rank a) (a : α) :
    Acyclic pass edge a := by
  intro b _ hcycle
  have hlt : ∀ c d, TransGen (Step pass edge) c d → rank d < rank c := by
    intro c d hpath
    induction hpath with
    | single hstep => exact h _ _ hstep
    | tail _ hstep ih => exact (h _ _ hstep).trans ih
  exact lt_irrefl _ (hlt b b hcycle)

theorem isSource_of_not_pass (h : ¬ pass a) : IsSource pass root edge a s ↔ s = a := by
  constructor
  · rintro ⟨hpath, -⟩
    rcases ReflTransGen.cases_head hpath with heq | ⟨b, hstep, -⟩
    · exact heq.symm
    · exact absurd hstep.1 h
  · rintro rfl
    exact ⟨.refl, Or.inl h⟩

theorem isSource_iff_of_pass (h : pass a) : IsSource pass root edge a s ↔
    (∃ b, edge a b ∧ IsSource pass root edge b s) ∨ s = a ∧ Stops pass root edge a := by
  constructor
  · rintro ⟨hpath, hstops⟩
    rcases ReflTransGen.cases_head hpath with rfl | ⟨b, hstep, hrest⟩
    · exact Or.inr ⟨rfl, hstops⟩
    · exact Or.inl ⟨b, hstep.2, hrest, hstops⟩
  · rintro (⟨b, hedge, hpath, hstops⟩ | ⟨rfl, hstops⟩)
    · exact ⟨hpath.head ⟨h, hedge⟩, hstops⟩
    · exact ⟨.refl, hstops⟩

/-! ## Without cycles -/

/-- With finitely many nodes that are passed through, a node without a cycle behind it is
accessible. -/
theorem Acyclic.acc {keys : List α} (hkeys : ∀ a b, Step pass edge a b → a ∈ keys)
    (h : Acyclic pass edge a) : Acc (fun b a => Step pass edge a b) a := by
  let Behind := {b // b ∈ keys ∧ ReflTransGen (Step pass edge) a b}
  have hkeysFinite : Finite {b // b ∈ keys} := (List.finite_toSet keys).to_subtype
  have hfinite : Finite Behind :=
    Finite.of_injective (β := {b // b ∈ keys}) (fun b => ⟨b.1, b.2.1⟩) fun b c hbc =>
      Subtype.ext (congrArg (fun x => x.1) hbc)
  let r : Behind → Behind → Prop := fun b c => TransGen (Step pass edge) c.1 b.1
  have htrans : IsTrans Behind r := ⟨fun _ _ _ hbc hcd => hcd.trans hbc⟩
  have hirrefl : Std.Irrefl r := ⟨fun b => h b.1 b.2.2⟩
  have hwf : WellFounded r := Finite.wellFounded_of_trans_of_irrefl r
  have hacc : ∀ b : Behind, Acc (fun b a => Step pass edge a b) b.1 := by
    intro b
    induction hwf.apply b with
    | intro b _ ih =>
        refine Acc.intro _ fun c hstep => ?_
        by_cases hmem : c ∈ keys
        · exact ih ⟨c, hmem, b.2.2.tail hstep⟩ (.single hstep)
        · exact Acc.intro _ fun d hstep' => absurd (hkeys _ _ hstep') hmem
  by_cases hmem : a ∈ keys
  · exact hacc ⟨a, hmem, .refl⟩
  · exact Acc.intro _ fun c hstep => absurd (hkeys _ _ hstep) hmem

/-- The last node behind `a` that can stand for itself does. -/
theorem exists_isSource (h : Acc (fun b a => Step pass edge a b) a)
    (hanchor : ∃ b, ReflTransGen (Step pass edge) a b ∧ Anchor pass root b) :
    ∃ s, IsSource pass root edge a s := by
  induction h with
  | intro a _ ih =>
      by_cases hpass : pass a
      · by_cases hbehind : ∃ b, TransGen (Step pass edge) a b ∧ Anchor pass root b
        · rcases hbehind with ⟨b, hpath, hb⟩
          rcases TransGen.head'_iff.1 hpath with ⟨c, hstep, hrest⟩
          rcases ih c hstep ⟨b, hrest, hb⟩ with ⟨s, hs⟩
          exact ⟨s, hs.1.head hstep, hs.2⟩
        · rcases hanchor with ⟨b, hpath, hb⟩
          rcases reflTransGen_iff_eq_or_transGen.1 hpath with rfl | hpath
          · refine ⟨b, .refl, Or.inr ⟨hb.resolve_left (not_not_intro hpass), fun c hc hanchor => ?_⟩⟩
            exact hbehind ⟨c, hc, hanchor⟩
          · exact absurd ⟨b, hpath, hb⟩ hbehind
      · exact ⟨a, .refl, Or.inl hpass⟩

/-- A root stands for itself if and only if its edges lead to nothing. -/
theorem stops_iff (h : Acc (fun b a => Step pass edge a b) a) (hpass : pass a) :
    Stops pass root edge a ↔
      root a ∧ ∀ b, edge a b → ∀ s, ¬ IsSource pass root edge b s := by
  constructor
  · intro hstops
    rcases hstops.resolve_left (not_not_intro hpass) with ⟨hroot, hnone⟩
    refine ⟨hroot, fun b hedge s hs => hnone s ?_ hs.2.anchor⟩
    exact TransGen.head' ⟨hpass, hedge⟩ hs.1
  · rintro ⟨hroot, hnone⟩
    refine Or.inr ⟨hroot, fun c hpath hanchor => ?_⟩
    rcases TransGen.head'_iff.1 hpath with ⟨b, hstep, hrest⟩
    rcases exists_isSource (h.inv hstep) ⟨c, hrest, hanchor⟩ with ⟨s, hs⟩
    exact hnone b hstep.2 s hs

/-- What a node that is passed through stands for, from what its edges lead to. -/
theorem isSource_iff_of_acc (h : Acc (fun b a => Step pass edge a b) a) (hpass : pass a) :
    IsSource pass root edge a s ↔
      (∃ b, edge a b ∧ IsSource pass root edge b s) ∨
        s = a ∧ root a ∧ ∀ b, edge a b → ∀ s, ¬ IsSource pass root edge b s := by
  rw [isSource_iff_of_pass hpass, stops_iff h hpass]

end PassThrough
end InfraWeave
