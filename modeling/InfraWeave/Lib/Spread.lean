import InfraWeave.Lib.Outcome
import Mathlib.Data.List.Infix
import Mathlib.Tactic.Ring

/-!
# The same steps at every index

`spread` is what a loop over indexes does that takes the same steps at each of them.  When it is cut
off, the last step has been taken at an index exactly when the cut is past it.
-/

namespace InfraWeave

universe u v w

section

variable {ι : Type u} {ω : Type v}

def spread (is : List ι) (steps : List ω) : List (ι × ω) :=
  is.flatMap fun i => steps.map fun step => (i, step)

theorem spread_cons (i : ι) (is : List ι) (steps : List ω) :
    spread (i :: is) steps = steps.map (fun step => (i, step)) ++ spread is steps := rfl

@[simp] theorem mem_spread {is : List ι} {steps : List ω} {i : ι} {step : ω} :
    (i, step) ∈ spread is steps ↔ i ∈ is ∧ step ∈ steps := by
  simp [spread]

/-- The last of the steps at an index, in a loop that is cut off and may be followed by others. -/
theorem mem_take_spread_iff [DecidableEq ι] {is : List ι} {steps : List ω} {last : ω}
    {rest : List (ι × ω)} {i : ι} (hlast : last ∉ steps) (hrest : (i, last) ∉ rest) (n : Nat) :
    (i, last) ∈ (spread is (steps ++ [last]) ++ rest).take n ↔
      i ∈ is ∧ (steps.length + 1) * (is.idxOf i + 1) ≤ n := by
  induction is generalizing n with
  | nil =>
      have hnot : (i, last) ∉ rest.take n := fun h => hrest (List.mem_of_mem_take h)
      simpa [spread] using hnot
  | cons j is ih =>
      let here := (steps ++ [last]).map fun step => (j, step)
      have hlength : here.length = steps.length + 1 := by simp [here]
      -- The cut falls into the steps at the first index, or is past them.
      have hhere : (i, last) ∈ here.take n ↔ i = j ∧ steps.length + 1 ≤ n := by
        by_cases hn : steps.length + 1 ≤ n
        · rw [List.take_of_length_le (by omega)]
          simp [here, hn, eq_comm]
        · have htake : here.take n = (steps.take n).map fun step => (j, step) := by
            rw [← List.map_take, List.take_append_of_le_length (by omega)]
          have hnot : last ∉ steps.take n := fun h => hlast (List.mem_of_mem_take h)
          rw [htake]
          simp [hn, hnot, -List.map_take]
      have hcons : (spread (j :: is) (steps ++ [last]) ++ rest).take n =
          here.take n ++ (spread is (steps ++ [last]) ++ rest).take (n - (steps.length + 1)) := by
        rw [spread_cons, List.append_assoc, List.take_append, hlength]
      rw [hcons, List.mem_append, hhere, ih]
      by_cases hi : i = j
      · subst hi
        have hpos : 0 < (steps.length + 1) * (is.idxOf i + 1) := Nat.mul_pos (Nat.succ_pos _) (Nat.succ_pos _)
        simp only [true_and, List.mem_cons, true_or, List.idxOf_cons_self, Nat.zero_add,
          Nat.mul_one]
        constructor
        · rintro (h | ⟨-, h⟩)
          · exact h
          · omega
        · exact Or.inl
      · have hidx : (j :: is).idxOf i = is.idxOf i + 1 := List.idxOf_cons_ne _ (Ne.symm hi)
        have hmul : (steps.length + 1) * (is.idxOf i + 1 + 1) =
            (steps.length + 1) * (is.idxOf i + 1) + (steps.length + 1) := by ring
        have hpos : 0 < (steps.length + 1) * (is.idxOf i + 1) := Nat.mul_pos (Nat.succ_pos _) (Nat.succ_pos _)
        simp only [hi, false_and, false_or, List.mem_cons, hidx, hmul]
        refine and_congr_right fun _ => ?_
        omega

end

namespace Outcome

variable {ι : Type u} {ω : Type v} {ε : Type w}

/-- A loop whose steps succeed at each of its indexes. -/
theorem forEach_eq_of_ok {is : List ι} {f : ι → Outcome (ι × ω) ε Unit} {steps : List ω}
    (h : ∀ i ∈ is, f i = ⟨steps.map fun step => (i, step), .ok ()⟩) :
    forEach is f = ⟨spread is steps, .ok ()⟩ := by
  induction is with
  | nil => rfl
  | cons i is ih =>
      rw [forEach, h i List.mem_cons_self, ih fun j hj => h j (List.mem_cons_of_mem _ hj)]
      rfl

end Outcome
end InfraWeave
