import InfraWeave.Lib.DecimalOrder
import InfraWeave.Utils.Versioning

/-!
# Versions in the order of their sort keys

Listings order versions by the texts of `zero_pad_semver`.  Its numbers have three digits at least,
and more where they need more.
-/

namespace InfraWeave

open Semver DecimalOrder

/-! ## What a sort key promises -/

/-- Versions with one pre-release part have different sort keys, in the order of their numbers. -/
def SortAlike (s t : String) : Prop :=
  ∀ v w key key', parse s = some v → parse t = some w → zeroPadSemver s 3 = some key →
    zeroPadSemver t 3 = some key' → v.pre = w.pre →
      (key = key' → v = w) ∧ (precedence v w = .lt → key < key') ∧
        (precedence v w = .gt → key' < key)

/-- The first numbers that differ. -/
def firstDifference (v w : Version) : Option (Nat × Nat) :=
  if v.major ≠ w.major then some (v.major, w.major)
  else if v.minor ≠ w.minor then some (v.minor, w.minor)
  else if v.patch ≠ w.patch then some (v.patch, w.patch)
  else none

/-- How many digits a number has when it is padded. -/
def paddedLength (n : Nat) : Nat :=
  max 3 (Nat.toDigits 10 n).length

/-- The smaller number is at most what the first digits of the greater one make, as many as the
smaller one has. -/
def InStep (a b : Nat) : Prop :=
  min a b ≤ max a b / 10 ^ (paddedLength (max a b) - paddedLength (min a b))

/-! ## Numbers -/

theorem value_zeroPad (width n : Nat) : value (zeroPad width n) = n := by
  rw [value, zeroPad, List.leftpad, Nat.ofDigitChars_append, Nat.ofDigitChars_replicate_zero,
    Nat.mul_zero, Nat.ofDigitChars_ten_toDigits]

theorem length_zeroPad (n : Nat) : (zeroPad 3 n).length = paddedLength n :=
  List.length_leftpad

theorem paddedLength_mono {a b : Nat} (h : a ≤ b) : paddedLength a ≤ paddedLength b := by
  have hlength : (Nat.toDigits 10 a).length ≤ (Nat.toDigits 10 b).length := by
    have hpos : 0 < (Nat.toDigits 10 b).length := Nat.length_toDigits_pos
    have hb := (Nat.length_toDigits_le_iff (by decide) hpos).1 (Nat.le_refl _)
    exact (Nat.length_toDigits_le_iff (by decide) hpos).2 (Nat.lt_of_le_of_lt h hb)
  exact max_le_max_left 3 hlength

theorem zeroPad_lt_iff {a b : Nat} (h : a < b) : zeroPad 3 a < zeroPad 3 b ↔ InStep a b := by
  have hlength : (zeroPad 3 a).length ≤ (zeroPad 3 b).length := by
    rw [length_zeroPad, length_zeroPad]
    exact paddedLength_mono h.le
  have hne : zeroPad 3 a ≠ zeroPad 3 b := fun heq => absurd (zeroPad_injective 3 heq) h.ne
  rw [lt_iff_value_le_take (all_isDigit_zeroPad 3 a) (all_isDigit_zeroPad 3 b) hlength hne,
    value_take (all_isDigit_zeroPad 3 b), value_zeroPad, value_zeroPad, length_zeroPad,
    length_zeroPad, InStep, min_eq_left h.le, max_eq_right h.le]

theorem InStep.symm {a b : Nat} (h : InStep a b) : InStep b a := by
  unfold InStep at h ⊢
  rw [min_comm, max_comm]
  exact h

/-! ## Versions -/

variable {v w : Version} {a b : Nat}

theorem startsBelowDigits_dot (r : List Char) : StartsBelowDigits ('.' :: r) := by
  intro c hc
  rcases Option.some.inj hc with rfl
  decide

theorem startsBelowDigits_marked (pre build : Identifiers) :
    StartsBelowDigits (markedText '-' pre ++ markedText '+' build) := by
  intro c hc
  unfold markedText at hc
  by_cases hpre : pre.val = []
  · by_cases hbuild : build.val = []
    · simp [hpre, hbuild] at hc
    · simp only [hpre, hbuild, if_true, if_false, List.nil_append, List.head?_cons,
        Option.mem_some_iff] at hc
      rcases hc with rfl
      decide
  · simp only [hpre, if_false, List.cons_append, List.head?_cons, Option.mem_some_iff] at hc
    rcases hc with rfl
    decide

/-- The texts of two versions part at the first numbers that differ. -/
theorem textWith_of_firstDifference (h : firstDifference v w = some (a, b))
    (number : Nat → List Char) : ∃ common r r', StartsBelowDigits r ∧ StartsBelowDigits r' ∧
      v.textWith number = common ++ (number a ++ r) ∧
      w.textWith number = common ++ (number b ++ r') := by
  unfold firstDifference at h
  split at h
  · rcases Prod.mk.inj (Option.some.inj h) with ⟨rfl, rfl⟩
    exact ⟨[], _, _, startsBelowDigits_dot _, startsBelowDigits_dot _, rfl, rfl⟩
  · rename_i hmajor
    split at h
    · rcases Prod.mk.inj (Option.some.inj h) with ⟨rfl, rfl⟩
      refine ⟨number v.major ++ ['.'],
        '.' :: (number v.patch ++ (markedText '-' v.pre ++ markedText '+' v.build)),
        '.' :: (number w.patch ++ (markedText '-' w.pre ++ markedText '+' w.build)),
        startsBelowDigits_dot _, startsBelowDigits_dot _, ?_, ?_⟩
      · simp [Version.textWith]
      · simp [Version.textWith, not_not.1 hmajor]
    · rename_i hminor
      split at h
      · rcases Prod.mk.inj (Option.some.inj h) with ⟨rfl, rfl⟩
        refine ⟨number v.major ++ '.' :: (number v.minor ++ ['.']), _, _,
          startsBelowDigits_marked v.pre v.build, startsBelowDigits_marked w.pre w.build, ?_, ?_⟩
        · simp [Version.textWith]
        · simp [Version.textWith, not_not.1 hmajor, not_not.1 hminor]
      · cases h

theorem ne_of_firstDifference (h : firstDifference v w = some (a, b)) : a ≠ b := by
  unfold firstDifference at h
  split at h
  · rcases Prod.mk.inj (Option.some.inj h) with ⟨rfl, rfl⟩
    assumption
  · split at h
    · rcases Prod.mk.inj (Option.some.inj h) with ⟨rfl, rfl⟩
      assumption
    · split at h
      · rcases Prod.mk.inj (Option.some.inj h) with ⟨rfl, rfl⟩
        assumption
      · cases h

theorem textWith_lt_iff (h : firstDifference v w = some (a, b)) :
    v.textWith (zeroPad 3) < w.textWith (zeroPad 3) ↔ zeroPad 3 a < zeroPad 3 b := by
  rcases textWith_of_firstDifference h (zeroPad 3) with ⟨common, r, r', hr, hr', hv, hw⟩
  have hne : zeroPad 3 a ≠ zeroPad 3 b := fun heq =>
    ne_of_firstDifference h (zeroPad_injective 3 heq)
  rw [hv, hw, append_left_lt_iff]
  exact append_lt_append_iff (all_isDigit_zeroPad 3 a) (all_isDigit_zeroPad 3 b) hr hr' hne

theorem firstDifference_swap (h : firstDifference v w = some (a, b)) :
    firstDifference w v = some (b, a) := by
  unfold firstDifference at h ⊢
  by_cases hmajor : v.major = w.major
  · by_cases hminor : v.minor = w.minor
    · by_cases hpatch : v.patch = w.patch
      · simp [hmajor, hminor, hpatch] at h
      · simp only [hmajor, hminor, hpatch, ne_eq, not_true_eq_false, if_false, not_false_eq_true,
          if_true, Option.some.injEq, Prod.mk.injEq] at h
        rcases h with ⟨rfl, rfl⟩
        simp [hmajor, hminor, Ne.symm hpatch]
    · simp only [hmajor, hminor, ne_eq, not_true_eq_false, if_false, not_false_eq_true,
        if_true, Option.some.injEq, Prod.mk.injEq] at h
      rcases h with ⟨rfl, rfl⟩
      simp [hmajor, Ne.symm hminor]
  · simp only [hmajor, ne_eq, not_false_eq_true, if_true, Option.some.injEq, Prod.mk.injEq] at h
    rcases h with ⟨rfl, rfl⟩
    simp [Ne.symm hmajor]

theorem compare_then {a b : Nat} (h : a ≠ b) (o : Ordering) :
    (compare a b).then o = compare a b := by
  cases hcompare : compare a b with
  | eq => exact absurd (Nat.compare_eq_eq.1 hcompare) h
  | lt => rfl
  | gt => rfl

/-- The precedence of versions is the order of the first numbers that differ. -/
theorem precedence_of_firstDifference (h : firstDifference v w = some (a, b)) :
    precedence v w = compare a b := by
  unfold firstDifference at h
  simp only [precedence, compareLex, compareOn]
  by_cases hmajor : v.major = w.major
  · by_cases hminor : v.minor = w.minor
    · by_cases hpatch : v.patch = w.patch
      · simp [hmajor, hminor, hpatch] at h
      · simp only [hmajor, hminor, hpatch, ne_eq, not_true_eq_false, if_false,
          not_false_eq_true, if_true, Option.some.injEq, Prod.mk.injEq] at h
        rcases h with ⟨rfl, rfl⟩
        rw [hmajor, hminor, Nat.compare_eq_eq.2 rfl, Nat.compare_eq_eq.2 rfl]
        exact compare_then hpatch _
    · simp only [hmajor, hminor, ne_eq, not_true_eq_false, if_false, not_false_eq_true,
        if_true, Option.some.injEq, Prod.mk.injEq] at h
      rcases h with ⟨rfl, rfl⟩
      rw [hmajor, Nat.compare_eq_eq.2 rfl]
      exact compare_then hminor _
  · simp only [hmajor, ne_eq, not_false_eq_true, if_true, Option.some.injEq, Prod.mk.injEq] at h
    rcases h with ⟨rfl, rfl⟩
    exact compare_then hmajor _

theorem precedence_of_same (h : firstDifference v w = none) (hpre : v.pre = w.pre) :
    precedence v w = .eq := by
  unfold firstDifference at h
  by_cases hmajor : v.major = w.major
  · by_cases hminor : v.minor = w.minor
    · by_cases hpatch : v.patch = w.patch
      · have hsame : precedence v w = precedence w w := by
          simp only [precedence, compareLex, compareOn, hmajor, hminor, hpatch, hpre]
        rw [hsame, precedence_self]
      · simp [hmajor, hminor, hpatch] at h
    · simp [hmajor, hminor] at h
  · simp [hmajor] at h

/-! ## The order of the sort keys -/

/-- The sort keys of two versions are in the order of the versions, when the first numbers that
differ are in step. -/
theorem key_lt_iff (h : firstDifference v w = some (a, b)) (hlt : a < b) :
    String.ofList (v.textWith (zeroPad 3)) < String.ofList (w.textWith (zeroPad 3)) ↔
      InStep a b := by
  rw [← zeroPad_lt_iff hlt, ← textWith_lt_iff h]
  change (String.ofList _).toList < (String.ofList _).toList ↔ _
  rw [String.toList_ofList, String.toList_ofList]

/-- Sort keys tell all versions apart, and are in their order exactly when the first numbers that
differ are in step. -/
theorem sortAlike_iff (s t : String) : SortAlike s t ↔ ∀ v w a b, parse s = some v →
    parse t = some w → v.pre = w.pre → firstDifference v w = some (a, b) → InStep a b := by
  constructor
  · intro hsort v w a b hv hw hpre hdifference
    rcases hsort v w _ _ hv hw (congrArg (Option.map _) hv) (congrArg (Option.map _) hw) hpre with
      ⟨-, hlt, hgt⟩
    rw [precedence_of_firstDifference hdifference] at hlt hgt
    rcases lt_or_gt_of_ne (ne_of_firstDifference hdifference) with hab | hba
    · exact (key_lt_iff hdifference hab).1 (hlt (Nat.compare_eq_lt.2 hab))
    · exact ((key_lt_iff (firstDifference_swap hdifference) hba).1
        (hgt (Nat.compare_eq_gt.2 hba))).symm
  · intro hstep v w key key' hv hw hkey hkey' hpre
    have hkeys : key = .ofList (v.textWith (zeroPad 3)) ∧
        key' = .ofList (w.textWith (zeroPad 3)) := by
      rw [zeroPadSemver, hv] at hkey
      rw [zeroPadSemver, hw] at hkey'
      exact ⟨(Option.some.inj hkey).symm, (Option.some.inj hkey').symm⟩
    rcases hkeys with ⟨rfl, rfl⟩
    refine ⟨fun hsame => ?_, fun hlt => ?_, fun hgt => ?_⟩
    · exact textWith_injective (zeroPad_injective 3) (all_isDigit_zeroPad 3)
        (String.ofList_injective hsame)
    · cases hdifference : firstDifference v w with
      | none =>
          rw [precedence_of_same hdifference hpre] at hlt
          cases hlt
      | some difference =>
          rw [precedence_of_firstDifference hdifference] at hlt
          exact (key_lt_iff hdifference (Nat.compare_eq_lt.1 hlt)).2
            (hstep v w _ _ hv hw hpre hdifference)
    · cases hdifference : firstDifference v w with
      | none =>
          rw [precedence_of_same hdifference hpre] at hgt
          cases hgt
      | some difference =>
          rw [precedence_of_firstDifference hdifference] at hgt
          exact (key_lt_iff (firstDifference_swap hdifference) (Nat.compare_eq_gt.1 hgt)).2
            (hstep v w _ _ hv hw hpre hdifference).symm

/-- The key of 1000.0.0 comes before that of 999.0.0. -/
theorem not_sortAlike_fourDigits : ¬ SortAlike "999.0.0" "1000.0.0" := by
  intro hsort
  have hkeys := (hsort ⟨999, 0, 0, .empty, .empty⟩ ⟨1000, 0, 0, .empty, .empty⟩ "999.000.000"
    "1000.000.000" (by decide) (by decide) (by decide) (by decide) rfl).2.1 (by decide)
  exact absurd hkeys (by decide)

end InfraWeave
