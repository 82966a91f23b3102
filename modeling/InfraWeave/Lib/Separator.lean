import Mathlib.Data.List.Infix
import Mathlib.Data.List.Basic

/-!
# Texts joined by a separator

A list is split at the occurrences of a separator, from left to right, which is how `str::split`
splits a text at a text.  A part is separable when the separator that follows it is the first one:
it can then be told from the text, and no other part gives the same text.
-/

namespace InfraWeave

universe u

variable {α : Type u}

/-- No occurrence of the separator starts in the part, not even one that ends in the separator
after it. -/
def Separable (sep part : List α) : Prop :=
  ¬ sep <:+: part ++ sep.dropLast

/-- The parts between the occurrences of `sep`; `skip` elements of an occurrence are still to be
passed. -/
def splitFrom [DecidableEq α] (sep : List α) : List α → Nat → List (List α)
  | [], _ => [[]]
  | _ :: xs, skip + 1 => splitFrom sep xs skip
  | x :: xs, 0 =>
      if sep.isPrefixOf (x :: xs) then [] :: splitFrom sep xs (sep.length - 1)
      else (splitFrom sep xs 0).modifyHead (x :: ·)

/-- `str::split` with a separator that is not empty. -/
def splitAtSeparator [DecidableEq α] (sep xs : List α) : List (List α) :=
  splitFrom sep xs 0

variable {sep : List α}

/-! ## Separable parts -/

theorem prefix_append_dropLast {xs ys : List α} (hxs : xs ≠ []) (h : sep <+: xs ++ (sep ++ ys)) :
    sep <+: xs ++ sep.dropLast := by
  have hshort : sep.length ≤ (xs ++ sep.dropLast).length := by
    have := List.length_pos_iff.2 hxs
    simp only [List.length_append, List.length_dropLast]
    omega
  have hlong : xs ++ sep.dropLast <+: xs ++ (sep ++ ys) := by
    refine (List.prefix_append_right_inj xs).2 ?_
    exact (List.dropLast_prefix sep).trans (List.prefix_append sep ys)
  exact List.prefix_of_prefix_length_le h hlong hshort

/-- What comes after a part begins with the separator, so a longer part is not separable. -/
theorem Separable.eq_nil {p xs x x' : List α} (h : Separable sep (p ++ xs))
    (heq : sep ++ x = xs ++ (sep ++ x')) : xs = [] := by
  by_contra hxs
  have hprefix : sep <+: xs ++ sep.dropLast :=
    prefix_append_dropLast hxs (heq ▸ List.prefix_append sep x)
  refine h ?_
  rw [List.append_assoc]
  exact hprefix.isInfix.trans (List.suffix_append p _).isInfix

/-- Two texts with separable first parts are equal only when their parts are. -/
theorem Separable.append_inj {p p' x x' : List α} (h : Separable sep p) (h' : Separable sep p')
    (heq : p ++ (sep ++ x) = p' ++ (sep ++ x')) : p = p' ∧ x = x' := by
  rcases List.append_eq_append_iff.1 heq with ⟨xs, rfl, hrest⟩ | ⟨xs, rfl, hrest⟩
  · obtain rfl := h'.eq_nil hrest
    simpa using hrest
  · obtain rfl := h.eq_nil hrest
    simpa using hrest.symm

/-- After the first part comes all that comes after any other occurrence of the separator. -/
theorem Separable.suffix {p p' x x' : List α} (h : Separable sep p)
    (heq : p' ++ (sep ++ x') = p ++ (sep ++ x)) : x' <:+ x := by
  rcases List.append_eq_append_iff.1 heq with ⟨xs, rfl, hrest⟩ | ⟨xs, rfl, hrest⟩
  · obtain rfl := h.eq_nil hrest
    obtain rfl : x' = x := by simpa using hrest
    exact List.suffix_rfl
  · have hlength := congrArg List.length hrest
    simp only [List.length_append] at hlength
    have hx' : x' <:+ xs ++ (sep ++ x') :=
      (List.suffix_append sep x').trans (List.suffix_append xs _)
    rw [← hrest] at hx'
    exact List.suffix_of_suffix_length_le hx' (List.suffix_append sep x) (by omega)

/-- The first part of a prefix that reaches past the separator is the whole first part. -/
theorem Separable.prefix_iff {p p' x x' : List α} (h : Separable sep p) (h' : Separable sep p') :
    p ++ (sep ++ x) <+: p' ++ (sep ++ x') ↔ p = p' ∧ x <+: x' := by
  constructor
  · rintro ⟨rest, heq⟩
    have heq : p ++ (sep ++ (x ++ rest)) = p' ++ (sep ++ x') := by simpa using heq
    obtain ⟨hp, hx⟩ := h.append_inj h' heq
    exact ⟨hp, rest, hx⟩
  · rintro ⟨rfl, hx⟩
    exact (List.prefix_append_right_inj p).2 ((List.prefix_append_right_inj sep).2 hx)

theorem Separable.of_suffix {p part : List α} (h : Separable sep part) (hp : p <:+ part) :
    Separable sep p := by
  obtain ⟨q, rfl⟩ := hp
  intro hinside
  refine h ?_
  rw [List.append_assoc]
  exact hinside.trans (List.suffix_append q _).isInfix

/-- A part without the first element of the separator is separable. -/
theorem separable_of_notMem {c : α} {rest part : List α} (h : c ∉ part) :
    Separable (c :: rest) part := by
  rintro ⟨s, t, heq⟩
  have hlength := congrArg List.length heq
  simp only [List.length_append, List.length_cons, List.length_dropLast] at hlength
  -- The occurrence would start in the part, where `c` is not, or reach past the end.
  have hstart : s.length < part.length := by omega
  have hget : (part ++ (c :: rest).dropLast)[s.length]? = some c := by simp [← heq]
  rw [List.getElem?_append_left hstart] at hget
  exact h (List.mem_of_getElem? hget)

/-- What stands before a separable part, without the first element of the separator, leaves it
separable. -/
theorem Separable.append_left {c : α} {rest part before : List α}
    (h : Separable (c :: rest) part) (hbefore : c ∉ before) :
    Separable (c :: rest) (before ++ part) := by
  induction before with
  | nil => exact h
  | cons b before ih =>
      obtain ⟨hb, hbefore⟩ := not_or.1 fun h => hbefore (List.mem_cons.2 h)
      intro hinside
      rcases List.infix_cons_iff.1 hinside with hhere | hlater
      · exact hb (List.cons_prefix_cons.1 hhere).1
      · exact ih hbefore hlater

theorem separable_nil (hsep : sep ≠ []) : Separable sep [] := by
  intro h
  have hlength := h.length_le
  have hpos := List.length_pos_iff.2 hsep
  simp only [List.nil_append, List.length_dropLast] at hlength
  omega

/-- A list in which the separator occurs has a first part. -/
theorem exists_separable (hsep : sep ≠ []) {xs : List α} (h : sep <:+: xs) :
    ∃ p x, xs = p ++ (sep ++ x) ∧ Separable sep p := by
  induction xs with
  | nil => exact absurd (List.eq_nil_of_infix_nil h) hsep
  | cons y ys ih =>
      by_cases hprefix : sep <+: y :: ys
      · obtain ⟨x, heq⟩ := hprefix
        exact ⟨[], x, heq.symm, separable_nil hsep⟩
      · have hinside : sep <:+: ys := (List.infix_cons_iff.1 h).resolve_left hprefix
        obtain ⟨p, x, rfl, hp⟩ := ih hinside
        refine ⟨y :: p, x, rfl, fun hoccurs => ?_⟩
        rcases List.infix_cons_iff.1 hoccurs with hhere | hlater
        · have hlong : y :: p ++ sep.dropLast <+: y :: p ++ (sep ++ x) := by
            refine (List.prefix_append_right_inj _).2 ?_
            exact (List.dropLast_prefix sep).trans (List.prefix_append sep x)
          exact hprefix (hhere.trans hlong)
        · exact hp hlater

/-! ## Splitting -/

section

variable [DecidableEq α]

theorem splitFrom_eq (xs : List α) (skip : Nat) (hskip : skip ≤ xs.length) :
    splitFrom sep xs skip = splitAtSeparator sep (xs.drop skip) := by
  induction xs generalizing skip with
  | nil =>
      obtain rfl : skip = 0 := by simpa using hskip
      rfl
  | cons x xs ih =>
      cases skip with
      | zero => rfl
      | succ skip => exact ih skip (by simpa using hskip)

theorem splitAtSeparator_separator (hsep : sep ≠ []) (x : List α) :
    splitAtSeparator sep (sep ++ x) = [] :: splitAtSeparator sep x := by
  obtain ⟨c, rest, rfl⟩ := List.exists_cons_of_ne_nil hsep
  have hprefix : (c :: rest).isPrefixOf (c :: (rest ++ x)) = true :=
    List.isPrefixOf_iff_prefix.2 (List.prefix_append _ _)
  rw [List.cons_append, splitAtSeparator, splitFrom, if_pos hprefix, splitFrom_eq]
  · simp
  · simp

theorem splitAtSeparator_cons {y : α} {ys : List α} (h : ¬ sep <+: y :: ys) :
    splitAtSeparator sep (y :: ys) = (splitAtSeparator sep ys).modifyHead (y :: ·) := by
  rw [← List.isPrefixOf_iff_prefix] at h
  rw [splitAtSeparator, splitFrom, if_neg h]
  rfl

/-- The first part of a text is the separable one. -/
theorem splitAtSeparator_append (hsep : sep ≠ []) {p : List α} (h : Separable sep p)
    (x : List α) : splitAtSeparator sep (p ++ (sep ++ x)) = p :: splitAtSeparator sep x := by
  induction p with
  | nil => exact splitAtSeparator_separator hsep x
  | cons y p ih =>
      have hhere : ¬ sep <+: y :: (p ++ (sep ++ x)) := fun hprefix =>
        h (prefix_append_dropLast (List.cons_ne_nil y p) hprefix).isInfix
      rw [List.cons_append, splitAtSeparator_cons hhere, ih (h.of_suffix (List.suffix_cons y p))]
      rfl

theorem splitAtSeparator_ne_nil (xs : List α) : splitAtSeparator sep xs ≠ [] := by
  unfold splitAtSeparator
  generalize 0 = skip
  induction xs generalizing skip with
  | nil => exact List.cons_ne_nil _ _
  | cons x xs ih =>
      cases skip with
      | succ skip => exact ih skip
      | zero =>
          unfold splitFrom
          split
          · exact List.cons_ne_nil _ _
          · intro hnil
            exact ih 0 (List.modifyHead_eq_nil_iff.1 hnil)

/-- Where the separator does not occur, there is one part. -/
theorem splitAtSeparator_of_not_contained {xs : List α} (h : ¬ sep <:+: xs) :
    splitAtSeparator sep xs = [xs] := by
  induction xs with
  | nil => rfl
  | cons x xs ih =>
      have hhere : ¬ sep <+: x :: xs := fun hprefix => h hprefix.isInfix
      have hlater : ¬ sep <:+: xs := fun hinside => h (hinside.trans (List.suffix_cons x xs).isInfix)
      rw [splitAtSeparator_cons hhere, ih hlater]
      rfl

/-- The first part of a text in which the separator occurs is another one. -/
theorem head_splitAtSeparator_ne (hsep : sep ≠ []) {xs : List α} (h : sep <:+: xs) :
    (splitAtSeparator sep xs).head? ≠ some xs := by
  obtain ⟨p, x, rfl, hp⟩ := exists_separable hsep h
  rw [splitAtSeparator_append hsep hp]
  intro heq
  have hlength := congrArg List.length (Option.some.inj heq)
  have hpos := List.length_pos_iff.2 hsep
  simp only [List.length_append] at hlength
  omega

/-- A text up to its second separator is what its first two parts are joined to. -/
theorem intercalate_take_two (hsep : sep ≠ []) {p q : List α} (hp : Separable sep p)
    (hq : Separable sep q) (x : List α) :
    sep.intercalate ((splitAtSeparator sep (p ++ (sep ++ (q ++ (sep ++ x))))).take 2) =
      p ++ (sep ++ q) := by
  rw [splitAtSeparator_append hsep hp, splitAtSeparator_append hsep hq]
  simp [List.intercalate]

end

end InfraWeave
