import Mathlib.Data.List.Basic

/-!
# Slices of UTF-8 texts

A text is sliced at numbers of bytes, and a slice that does not start and end where a character
does is none at all: Rust's `&s[a..b]` panics there.  Texts are lists of characters.
-/

namespace InfraWeave
namespace ByteSlice

def byteLength : List Char → Nat
  | [] => 0
  | c :: cs => c.utf8Size + byteLength cs

/-- `str::split_at`, or none where it panics. -/
def splitAt? : List Char → Nat → Option (List Char × List Char)
  | cs, 0 => some ([], cs)
  | [], _ + 1 => none
  | c :: cs, n + 1 =>
      if c.utf8Size ≤ n + 1 then
        (splitAt? cs (n + 1 - c.utf8Size)).map fun (front, back) => (c :: front, back)
      else none

/-- `&s[..stop]`. -/
def sliceTo (cs : List Char) (stop : Nat) : Option (List Char) :=
  (splitAt? cs stop).map Prod.fst

/-- `&s[start..]`. -/
def sliceFrom (cs : List Char) (start : Nat) : Option (List Char) :=
  (splitAt? cs start).map Prod.snd

/-- `&s[start..stop]`. -/
def slice (cs : List Char) (start stop : Nat) : Option (List Char) :=
  if start ≤ stop then (sliceFrom cs start).bind fun rest => sliceTo rest (stop - start) else none

/-- A character of the text starts at the byte, or the text ends there. -/
def Boundary (cs : List Char) (n : Nat) : Prop :=
  ∃ front back, cs = front ++ back ∧ byteLength front = n

@[simp] theorem byteLength_nil : byteLength [] = 0 := rfl

@[simp] theorem byteLength_cons (c : Char) (cs : List Char) :
    byteLength (c :: cs) = c.utf8Size + byteLength cs := rfl

@[simp] theorem byteLength_append (cs ds : List Char) :
    byteLength (cs ++ ds) = byteLength cs + byteLength ds := by
  induction cs with
  | nil => simp
  | cons c cs ih => simp [ih, Nat.add_assoc]

/-- No character is without bytes. -/
theorem byteLength_eq_zero_iff {cs : List Char} : byteLength cs = 0 ↔ cs = [] := by
  cases cs with
  | nil => simp
  | cons c cs =>
      have hpos := c.utf8Size_pos
      simp only [byteLength_cons, reduceCtorEq, iff_false]
      omega

theorem splitAt?_eq_some_iff {cs : List Char} {n : Nat} {front back : List Char} :
    splitAt? cs n = some (front, back) ↔ cs = front ++ back ∧ byteLength front = n := by
  induction cs generalizing n front with
  | nil =>
      cases n with
      | zero =>
          simp only [splitAt?, Option.some.injEq, Prod.mk.injEq, List.nil_eq_append_iff]
          constructor
          · rintro ⟨rfl, rfl⟩
            exact ⟨⟨rfl, rfl⟩, rfl⟩
          · exact fun h => ⟨h.1.1.symm, h.1.2.symm⟩
      | succ n =>
          simp only [splitAt?, reduceCtorEq, false_iff, not_and]
          intro hparts
          rw [(List.nil_eq_append_iff.1 hparts).1]
          simp
  | cons c cs ih =>
      cases n with
      | zero =>
          simp only [splitAt?, Option.some.injEq, Prod.mk.injEq]
          constructor
          · rintro ⟨rfl, rfl⟩
            exact ⟨rfl, rfl⟩
          · rintro ⟨hparts, hzero⟩
            obtain rfl := byteLength_eq_zero_iff.1 hzero
            exact ⟨rfl, hparts⟩
      | succ n =>
          have hpos := c.utf8Size_pos
          simp only [splitAt?]
          by_cases hfits : c.utf8Size ≤ n + 1
          · simp only [if_pos hfits, Option.map_eq_some_iff, Prod.exists, Prod.mk.injEq]
            constructor
            · rintro ⟨front', back', hsplit, rfl, rfl⟩
              rcases ih.1 hsplit with ⟨rfl, hlength⟩
              exact ⟨rfl, by rw [byteLength_cons, hlength]; omega⟩
            · rintro ⟨hparts, hlength⟩
              cases front with
              | nil => simp at hlength
              | cons d front' =>
                  rcases List.cons.inj hparts with ⟨rfl, rfl⟩
                  rw [byteLength_cons] at hlength
                  exact ⟨front', back, ih.2 ⟨rfl, by omega⟩, rfl, rfl⟩
          · simp only [if_neg hfits, reduceCtorEq, false_iff, not_and]
            intro hparts hlength
            cases front with
            | nil => simp at hlength
            | cons d front' =>
                rcases List.cons.inj hparts with ⟨rfl, -⟩
                rw [byteLength_cons] at hlength
                omega

theorem sliceTo_isSome_iff {cs : List Char} {n : Nat} :
    (sliceTo cs n).isSome = true ↔ Boundary cs n := by
  simp only [sliceTo, Option.isSome_map, Option.isSome_iff_exists, Prod.exists,
    splitAt?_eq_some_iff, Boundary]

theorem sliceTo_append (front back : List Char) :
    sliceTo (front ++ back) (byteLength front) = some front := by
  rw [sliceTo, splitAt?_eq_some_iff.2 ⟨rfl, rfl⟩]
  rfl

end ByteSlice
end InfraWeave
