import InfraWeave.Lib.InsertionOrder

/-!
# Running maxima

A maximum that is kept while a list is read.  An element has a rank, which may be missing; ranks
are only looked at when two elements are compared, and a comparison with a missing one fails.
-/

namespace InfraWeave
namespace Greatest

open InsertionOrder Std

universe u v

variable {α : Type u} {ρ : Type v} (rank : α → Option ρ) (cmp : ρ → ρ → Ordering)

/-- The new element, if it is greater. -/
def keepGreater (existing new : α) : Option α :=
  match rank new, rank existing with
  | some a, some b => some (if cmp a b = .gt then new else existing)
  | _, _ => none

/-- An element of the list that no other one is greater than. -/
structure IsGreatest (m : α) (xs : List α) : Prop where
  mem : m ∈ xs
  isLE : ∀ x ∈ xs, x = m ∨ ∃ a b, rank x = some a ∧ rank m = some b ∧ (cmp a b).isLE = true

variable {rank cmp} {m m' : α} {xs : List α}

theorem IsGreatest.congr {ys : List α} (h : IsGreatest rank cmp m xs)
    (hsame : ∀ x, x ∈ ys ↔ x ∈ xs) : IsGreatest rank cmp m ys :=
  ⟨(hsame m).2 h.mem, fun x hx => h.isLE x ((hsame x).1 hx)⟩

/-- There is one greatest element where elements of one rank are equal. -/
theorem IsGreatest.unique [TransCmp cmp] [LawfulEqCmp cmp] (h : IsGreatest rank cmp m xs)
    (h' : IsGreatest rank cmp m' xs)
    (hrank : ∀ x ∈ xs, ∀ y ∈ xs, ∀ a, rank x = some a → rank y = some a → x = y) : m = m' := by
  rcases h'.isLE m h.mem with rfl | ⟨a, b, ha, hb, hle⟩
  · rfl
  · rcases h.isLE m' h'.mem with rfl | ⟨b', a', hb', ha', hle'⟩
    · rfl
    · rcases Option.some.inj (ha.symm.trans ha') with rfl
      rcases Option.some.inj (hb.symm.trans hb') with rfl
      have heq : a = b := LawfulEqCmp.eq_of_compare (OrientedCmp.isLE_antisymm hle hle')
      exact hrank m h.mem m' h'.mem a ha (heq ▸ hb)

theorem keepGreater_eq_some_iff {existing new kept : α} :
    keepGreater rank cmp existing new = some kept ↔ ∃ a b, rank new = some a ∧
      rank existing = some b ∧ (if cmp a b = .gt then new else existing) = kept := by
  unfold keepGreater
  cases rank new with
  | none => simp
  | some a =>
      cases rank existing with
      | none => simp
      | some b => simp

theorem keepGreater_eq_none_iff {existing new : α} :
    keepGreater rank cmp existing new = none ↔ rank new = none ∨ rank existing = none := by
  unfold keepGreater
  cases rank new with
  | none => simp
  | some a =>
      cases rank existing with
      | none => simp
      | some b => simp

theorem combine_eq_some_none_iff {f : α → α → Option α} :
    combine f xs = some none ↔ xs = [] := by
  cases xs with
  | nil => simp [combine]
  | cons x xs => simp [combine]

theorem mem_of_keepGreater {existing new kept : α}
    (h : keepGreater rank cmp existing new = some kept) : kept = existing ∨ kept = new := by
  rcases keepGreater_eq_some_iff.1 h with ⟨a, b, -, -, rfl⟩
  split
  · exact Or.inr rfl
  · exact Or.inl rfl

theorem mem_of_combine (h : combine (keepGreater rank cmp) xs = some (some m)) : m ∈ xs := by
  induction xs using List.reverseRecOn generalizing m with
  | nil => simp [combine] at h
  | append_singleton xs new ih =>
      rw [combine_append] at h
      rcases Option.bind_eq_some_iff.1 h with ⟨kept, hkept, hstep⟩
      rcases Option.map_eq_some_iff.1 hstep with ⟨next, hnext, hm⟩
      rcases (Option.some.inj hm : next = m) with rfl
      cases kept with
      | none => exact List.mem_append_right _ (List.mem_singleton.2 (Option.some.inj hnext).symm)
      | some existing =>
          rcases mem_of_keepGreater hnext with rfl | rfl
          · exact List.mem_append_left _ (ih hkept)
          · exact List.mem_append_right _ List.mem_cons_self

/-- A comparison fails when there is one and a rank is missing. -/
theorem combine_keepGreater_eq_none_iff :
    combine (keepGreater rank cmp) xs = none ↔ 2 ≤ xs.length ∧ ∃ x ∈ xs, rank x = none := by
  induction xs using List.reverseRecOn with
  | nil => simp [combine]
  | append_singleton xs new ih =>
      rw [combine_append]
      cases hkept : combine (keepGreater rank cmp) xs with
      | none =>
          rcases ih.1 hkept with ⟨hlength, x, hx, hrank⟩
          have hlonger : 2 ≤ (xs ++ [new]).length := by
            rw [List.length_append]
            omega
          exact iff_of_true rfl ⟨hlonger, x, List.mem_append_left _ hx, hrank⟩
      | some kept =>
          cases kept with
          | none =>
              rcases combine_eq_some_none_iff.1 hkept with rfl
              simp
          | some existing =>
              have hmem : existing ∈ xs := mem_of_combine hkept
              have hranks : rank existing = none ↔ ∃ x ∈ xs, rank x = none := by
                refine ⟨fun h => ⟨existing, hmem, h⟩, fun h => ?_⟩
                rcases h with ⟨x, hx, hrank⟩
                -- A rank was missing and no comparison has failed: there was none.
                have hshort : ¬ 2 ≤ xs.length := fun hlength => by
                  have hnone := ih.2 ⟨hlength, x, hx, hrank⟩
                  simp [hkept] at hnone
                rcases List.length_eq_one_iff.1 (by
                  have := List.length_pos_of_mem hx
                  omega : xs.length = 1) with ⟨y, rfl⟩
                rcases List.mem_singleton.1 hx with rfl
                rcases List.mem_singleton.1 hmem with rfl
                exact hrank
              have hpos := List.length_pos_of_mem hmem
              have hlength : 2 ≤ (xs ++ [new]).length := by
                rw [List.length_append]
                exact Nat.add_le_add hpos (Nat.le_refl 1)
              simp only [Option.bind_some, Option.elim_some, Option.map_eq_none_iff,
                keepGreater_eq_none_iff, hranks, hlength, true_and, List.mem_append,
                List.mem_singleton, or_and_right, exists_or, exists_eq_left]
              exact or_comm

/-- The greatest element of those that are collected under one key. -/
theorem isGreatest_of_combine [TransCmp cmp]
    (h : combine (keepGreater rank cmp) xs = some (some m)) : IsGreatest rank cmp m xs := by
  induction xs using List.reverseRecOn generalizing m with
  | nil => simp [combine] at h
  | append_singleton xs new ih =>
      rw [combine_append] at h
      rcases Option.bind_eq_some_iff.1 h with ⟨kept, hkept, hstep⟩
      rcases Option.map_eq_some_iff.1 hstep with ⟨next, hnext, hm⟩
      rcases (Option.some.inj hm : next = m) with rfl
      cases kept with
      | none =>
          rcases combine_eq_some_none_iff.1 hkept with rfl
          rcases (Option.some.inj hnext : new = next) with rfl
          exact ⟨List.mem_singleton_self _, fun x hx => Or.inl (List.mem_singleton.1 hx)⟩
      | some existing =>
          have hbefore := ih hkept
          rcases keepGreater_eq_some_iff.1 hnext with ⟨a, b, ha, hb, rfl⟩
          by_cases hgt : cmp a b = .gt
          · rw [if_pos hgt]
            refine ⟨List.mem_append_right _ List.mem_cons_self, fun x hx => ?_⟩
            have hswap : cmp b a = (cmp a b).swap := OrientedCmp.eq_swap
            have hback : (cmp b a).isLE = true := by
              rw [hswap, hgt]
              rfl
            rcases List.mem_append.1 hx with hx | hx
            · rcases hbefore.isLE x hx with rfl | ⟨c, b', hc, hb', hle⟩
              · exact Or.inr ⟨b, a, hb, ha, hback⟩
              · rcases Option.some.inj (hb.symm.trans hb') with rfl
                exact Or.inr ⟨c, a, hc, ha, TransCmp.isLE_trans hle hback⟩
            · exact Or.inl (List.mem_singleton.1 hx)
          · rw [if_neg hgt]
            refine ⟨List.mem_append_left _ hbefore.mem, fun x hx => ?_⟩
            rcases List.mem_append.1 hx with hx | hx
            · exact hbefore.isLE x hx
            · rcases List.mem_singleton.1 hx with rfl
              exact Or.inr ⟨a, b, ha, hb, Ordering.isLE_iff_ne_gt.2 hgt⟩

end Greatest
end InfraWeave
