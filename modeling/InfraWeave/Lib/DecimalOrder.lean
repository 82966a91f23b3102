import Mathlib.Algebra.Order.Ring.Nat
import Mathlib.Data.Char
import Mathlib.Data.List.Basic

/-!
# Decimal texts in the order of texts

Texts are compared character by character.  Two decimal texts of one length are in the order of
their numbers; a shorter one is compared with the first digits of the longer one.
-/

namespace InfraWeave
namespace DecimalOrder

/-- The text does not start with a digit, nor with a character after the digits. -/
def StartsBelowDigits (r : List Char) : Prop :=
  ∀ c ∈ r.head?, c < '0'

def value (d : List Char) : Nat :=
  Nat.ofDigitChars 10 d 0

variable {d e r s : List Char} {x : Char}

theorem zero_le_of_isDigit (h : x.isDigit = true) : '0' ≤ x :=
  (Char.isDigit_iff_toNat.1 h).1

theorem lt_zero_of_startsBelowDigits {c : Char} (h : StartsBelowDigits (c :: r)) : c < '0' :=
  h c rfl

/-- What follows the digits does not matter where the digits differ. -/
theorem append_lt_append_iff (hd : d.all Char.isDigit = true) (he : e.all Char.isDigit = true)
    (hr : StartsBelowDigits r) (hs : StartsBelowDigits s) (hne : d ≠ e) :
    d ++ r < e ++ s ↔ d < e := by
  induction d generalizing e with
  | nil =>
      cases e with
      | nil => exact absurd rfl hne
      | cons y e =>
          have hy := zero_le_of_isDigit (Bool.and_eq_true_iff.1 he).1
          refine iff_of_true ?_ (List.nil_lt_cons y e)
          cases r with
          | nil => exact List.nil_lt_cons y (e ++ s)
          | cons c r =>
              have hc : c < y := lt_of_lt_of_le (lt_zero_of_startsBelowDigits hr) hy
              exact List.cons_lt_cons_iff.2 (Or.inl hc)
  | cons x d ih =>
      rcases Bool.and_eq_true_iff.1 hd with ⟨hx, hdigits⟩
      cases e with
      | nil =>
          refine iff_of_false ?_ (List.not_lt_nil _)
          cases s with
          | nil => exact List.not_lt_nil _
          | cons c s =>
              have hc : c < x :=
                lt_of_lt_of_le (lt_zero_of_startsBelowDigits hs) (zero_le_of_isDigit hx)
              rw [List.nil_append, List.cons_append, List.cons_lt_cons_iff]
              rintro (hlt | ⟨rfl, -⟩)
              · exact absurd hlt (lt_asymm hc)
              · exact absurd hc (lt_irrefl x)
      | cons y e =>
          have hdigits' : e.all Char.isDigit = true := (Bool.and_eq_true_iff.1 he).2
          rw [List.cons_append, List.cons_append, List.cons_lt_cons_iff, List.cons_lt_cons_iff]
          by_cases hxy : x = y
          · rw [ih hdigits hdigits' fun heq => hne (by rw [hxy, heq])]
          · simp [hxy]

theorem append_left_lt_iff (common : List Char) : common ++ d < common ++ e ↔ d < e := by
  induction common with
  | nil => rfl
  | cons c common ih => simp [ih]

/-! ## Numbers -/

theorem value_cons (x : Char) (d : List Char) :
    value (x :: d) = 10 ^ d.length * (x.toNat - 48) + value d := by
  unfold value
  rw [Nat.ofDigitChars_cons, Nat.ofDigitChars_eq_ofDigitChars_zero, Nat.mul_zero, Nat.zero_add]
  rfl

/-- A smaller first digit outweighs what follows. -/
theorem mul_add_lt {p a b u v : Nat} (hab : a < b) (hu : u < p) : p * a + u < p * b + v :=
  calc p * a + u
      < p * a + p := Nat.add_lt_add_left hu _
    _ = p * (a + 1) := (Nat.mul_succ p a).symm
    _ ≤ p * b := Nat.mul_le_mul_left p hab
    _ ≤ p * b + v := Nat.le_add_right _ _

theorem value_lt (hd : d.all Char.isDigit = true) : value d < 10 ^ d.length := by
  induction d with
  | nil => exact Nat.one_pos
  | cons x d ih =>
      rcases Bool.and_eq_true_iff.1 hd with ⟨hx, hdigits⟩
      have hdigit : x.toNat - 48 ≤ 9 := by
        have hle : x.toNat ≤ 57 := (Char.isDigit_iff_toNat.1 hx).2
        omega
      have hrest := ih hdigits
      calc value (x :: d)
          = 10 ^ d.length * (x.toNat - 48) + value d := value_cons x d
        _ < 10 ^ d.length * (x.toNat - 48) + 10 ^ d.length := Nat.add_lt_add_left hrest _
        _ ≤ 10 ^ d.length * 9 + 10 ^ d.length :=
            Nat.add_le_add_right (Nat.mul_le_mul_left _ hdigit) _
        _ = 10 ^ (x :: d).length := by rw [List.length_cons, Nat.pow_succ]; omega

/-- The first digits of a number. -/
theorem value_take (he : e.all Char.isDigit = true) (k : Nat) :
    value (e.take k) = value e / 10 ^ (e.length - k) := by
  have hdrop : (e.drop k).all Char.isDigit = true :=
    List.all_eq_true.2 fun c hc => List.all_eq_true.1 he c (List.mem_of_mem_drop hc)
  have hsplit : value e = 10 ^ (e.drop k).length * value (e.take k) + value (e.drop k) := by
    unfold value
    conv_lhs => rw [← List.take_append_drop k e]
    rw [Nat.ofDigitChars_append, Nat.ofDigitChars_eq_ofDigitChars_zero]
  rw [hsplit, ← List.length_drop, Nat.mul_add_div (Nat.pow_pos (by decide)),
    Nat.div_eq_of_lt (value_lt hdrop), Nat.add_zero]

/-- A text of digits comes before a longer one when its number is at most that of the longer one's
first digits. -/
theorem lt_iff_value_le_take (hd : d.all Char.isDigit = true) (he : e.all Char.isDigit = true)
    (hlength : d.length ≤ e.length) (hne : d ≠ e) : d < e ↔ value d ≤ value (e.take d.length) := by
  induction d generalizing e with
  | nil =>
      cases e with
      | nil => exact absurd rfl hne
      | cons y e => exact iff_of_true (List.nil_lt_cons y e) (Nat.le_refl 0)
  | cons x d ih =>
      cases e with
      | nil => exact absurd hlength (Nat.not_succ_le_zero _)
      | cons y e =>
          rcases Bool.and_eq_true_iff.1 hd with ⟨hx, hdigits⟩
          rcases Bool.and_eq_true_iff.1 he with ⟨hy, hdigits'⟩
          have hshorter : d.length ≤ e.length := Nat.le_of_succ_le_succ hlength
          have htake : (e.take d.length).length = d.length := List.length_take_of_le hshorter
          have hlow := value_lt hdigits
          have hlow' : value (e.take d.length) < 10 ^ d.length := by
            have hall : (e.take d.length).all Char.isDigit = true :=
              List.all_eq_true.2 fun c hc => List.all_eq_true.1 hdigits' c (List.mem_of_mem_take hc)
            have hbound := value_lt hall
            rwa [htake] at hbound
          have hxlow : 48 ≤ x.toNat := (Char.isDigit_iff_toNat.1 hx).1
          have hylow : 48 ≤ y.toNat := (Char.isDigit_iff_toNat.1 hy).1
          rw [List.cons_lt_cons_iff, List.length_cons, List.take_succ_cons, value_cons, value_cons,
            htake]
          by_cases hxy : x = y
          · rw [hxy] at hne ⊢
            rw [ih hdigits hdigits' hshorter fun heq => hne (by rw [heq])]
            simp
          · have hxor : ¬ (x = y ∧ d < e) := fun h => hxy h.1
            rw [or_iff_left hxor]
            rcases lt_or_gt_of_ne hxy with hlt | hgt
            · have hdigit : x.toNat - 48 < y.toNat - 48 := by
                have hnat : x.toNat < y.toNat := hlt
                omega
              exact iff_of_true hlt (mul_add_lt hdigit hlow).le
            · have hdigit : y.toNat - 48 < x.toNat - 48 := by
                have hnat : y.toNat < x.toNat := hgt
                omega
              exact iff_of_false (lt_asymm hgt) (Nat.not_le.2 (mul_add_lt hdigit hlow'))

end DecimalOrder
end InfraWeave
